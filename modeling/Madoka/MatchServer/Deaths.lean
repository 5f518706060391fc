import Madoka.Lib.History
import Madoka.MatchServer.Tidy

namespace MatchServer

open Lib MatchServer.Core

-- What the log says of an entity since it was last revived.
inductive Plight where
  | up
  | struck (by_ : Nat)
  | dead
  deriving DecidableEq, Repr

def befall (e : Nat) (p : Plight) (d : Deed) : Plight :=
  if d.revives e then .up
  else
    match d with
    | .struck victim attacker => if victim = e then .struck attacker else p
    | .died victim _ => if victim = e then .dead else p
    | _ => p

def plight (e : Nat) (ds : List Deed) : Plight := ds.foldl (befall e) .up

-- A lethal hit finds its victim up, a death is put down to whoever struck, and a kill is that of
-- the death just before it.
def Lawful (pre : List Deed) : Deed → Prop
  | .struck victim _ => plight victim pre = .up
  | .died victim killer => plight victim pre = .struck killer
  | .killed victim killer _ => pre.getLast? = some (.died victim killer) ∧ killer ≠ 0 ∧
    teamOf killer ≠ teamOf victim
  | _ => True

def Deed.dies (e : Nat) : Deed → Bool
  | .died victim _ => victim == e
  | _ => false

def Deed.isKillOf (e : Nat) : Deed → Bool
  | .killed victim _ _ => victim == e
  | _ => false

def Deed.isKillBy (e : Nat) : Deed → Bool
  | .killed _ killer _ => killer == e
  | _ => false

def Deed.calm : Deed → Bool
  | .reset | .struck _ _ | .died _ _ | .killed _ _ _ | .rescued _ _ => false
  | _ => true

variable {e victim killer : Nat} {pre mid ds es : List Deed} {d : Deed}

theorem plight_append : plight e (ds ++ es) = es.foldl (befall e) (plight e ds) :=
  List.foldl_append

theorem plight_snoc : plight e (ds ++ [d]) = befall e (plight e ds) d :=
  plight_append

theorem befall_calm {p : Plight} (h : d.calm = true) : befall e p d = p := by
  cases d <;> first | rfl | exact Bool.noConfusion h

theorem plight_calm (h : ∀ d ∈ es, d.calm = true) : plight e (ds ++ es) = plight e ds := by
  rw [plight_append]
  generalize plight e ds = p
  induction es with
  | nil => rfl
  | cons d es ih =>
    rw [List.foldl_cons, befall_calm (h d List.mem_cons_self)]
    exact ih fun x hx => h x (List.mem_cons_of_mem _ hx)

theorem plight_struck : plight e (ds ++ [.struck victim killer]) =
    if victim = e then .struck killer else plight e ds := plight_snoc

theorem plight_died : plight e (ds ++ [.died victim killer]) =
    if victim = e then .dead else plight e ds := plight_snoc

theorem lawful_calm (h : Each Lawful ds) (hes : ∀ d ∈ es, d.calm = true) :
    Each Lawful (ds ++ es) := by
  refine each_append h fun pre d post hd => ?_
  have hd' := hes d (by rw [hd]; simp)
  cases d <;> first | exact trivial | exact Bool.noConfusion hd'

theorem dead_of_died (h : Each Lawful (pre ++ mid)) (hmid : ∀ d ∈ mid, d.revives e = false) :
    mid.countP (Deed.dies e) ≤ if plight e (pre ++ mid) = .dead then 1 else 0 := by
  induction mid using List.reverseRecOn with
  | nil => simp
  | append_singleton mid d ih =>
    rw [← List.append_assoc] at h ⊢
    obtain ⟨hprev, hd⟩ := each_snoc.mp h
    have hcount := ih hprev fun x hx => hmid x (List.mem_append_left _ hx)
    have hrev := hmid d (by simp)
    rw [List.countP_append, plight_snoc]
    cases d with
    | struck v k =>
      by_cases hv : v = e
      · have hup : plight v (pre ++ mid) = .up := hd
        rw [hv] at hup
        simp only [hup] at hcount
        simpa [befall, Deed.revives, hv, Deed.dies] using hcount
      · simpa [befall, Deed.revives, hv, Deed.dies] using hcount
    | died v k =>
      by_cases hv : v = e
      · have hup : plight v (pre ++ mid) = .struck k := hd
        rw [hv] at hup
        simp only [hup] at hcount
        have hzero : mid.countP (Deed.dies e) = 0 := Nat.le_zero.mp hcount
        simp [befall, Deed.revives, hv, Deed.dies, hzero]
      · simpa [befall, Deed.revives, hv, Deed.dies] using hcount
    | reset => exact Bool.noConfusion hrev
    | rescued t r => simpa [befall, hrev, Deed.dies] using hcount
    | _ => exact hcount

theorem kill_of_dead (h : Each Lawful (pre ++ mid)) (hmid : ∀ d ∈ mid, d.revives e = false) :
    mid.countP (Deed.isKillOf e) +
        (if ((pre ++ mid).getLast?.any (Deed.dies e)) then 1 else 0) ≤
      if plight e (pre ++ mid) = .dead then 1 else 0 := by
  induction mid using List.reverseRecOn with
  | nil =>
    rw [List.append_nil, List.countP_nil, Nat.zero_add]
    rcases List.eq_nil_or_concat pre with rfl | ⟨ds, d, rfl⟩
    · simp
    · rw [List.concat_eq_append, List.getLast?_concat, plight_snoc]
      cases d with
      | died v k => by_cases hv : v = e <;> simp [Deed.dies, befall, Deed.revives, hv]
      | _ => simp [Deed.dies]
  | append_singleton mid d ih =>
    rw [← List.append_assoc] at h ⊢
    obtain ⟨hprev, hd⟩ := each_snoc.mp h
    have hcount := ih hprev fun x hx => hmid x (List.mem_append_left _ hx)
    have hrev := hmid d (by simp)
    have hless : mid.countP (Deed.isKillOf e) ≤ if plight e (pre ++ mid) = .dead then 1 else 0 :=
      (Nat.le_add_right _ _).trans hcount
    rw [List.countP_append, plight_snoc, List.getLast?_concat]
    cases d with
    | struck v k =>
      by_cases hv : v = e
      · have hup : plight v (pre ++ mid) = .up := hd
        rw [hv] at hup
        simp only [hup] at hless
        simpa [befall, Deed.revives, hv, Deed.dies, Deed.isKillOf] using hless
      · simpa [befall, Deed.revives, hv, Deed.dies, Deed.isKillOf] using hless
    | died v k =>
      by_cases hv : v = e
      · have hup : plight v (pre ++ mid) = .struck k := hd
        rw [hv] at hup
        simp only [hup] at hless
        have hzero : mid.countP (Deed.isKillOf e) = 0 := Nat.le_zero.mp hless
        simp [befall, Deed.revives, hv, Deed.dies, Deed.isKillOf, hzero]
      · simpa [befall, Deed.revives, hv, Deed.dies, Deed.isKillOf] using hless
    | killed v k s =>
      by_cases hv : v = e
      · have hlast : (pre ++ mid).getLast? = some (.died v k) := hd.1
        rw [hlast] at hcount
        simpa [befall, Deed.revives, hv, Deed.dies, Deed.isKillOf] using hcount
      · simpa [befall, Deed.revives, hv, Deed.dies, Deed.isKillOf] using hless
    | reset => exact Bool.noConfusion hrev
    | rescued t r => simpa [befall, hrev, Deed.dies, Deed.isKillOf] using hless
    | _ => simpa [befall, Deed.revives, Deed.dies, Deed.isKillOf] using hless

theorem one_death (h : Each Lawful (pre ++ mid)) (hmid : ∀ d ∈ mid, d.revives e = false) :
    mid.countP (Deed.dies e) ≤ 1 ∧ mid.countP (Deed.isKillOf e) ≤ 1 := by
  have h1 := dead_of_died h hmid
  have h2 := kill_of_dead h hmid
  constructor
  · exact h1.trans (by split <;> decide)
  · exact (Nat.le_add_right _ _).trans (h2.trans (by split <;> decide))

namespace Field

variable {f g : Field} {attacker dmg a t n : Nat} {ks : KnockState} {order : List Nat}
  {now : Int} {l : Label} {cur : Nat}

theorem calm_creditDamage : ∀ d ∈ (if attacker ≠ 0 ∧ teamOf attacker ≠ teamOf victim then
    [Deed.hurt attacker victim dmg] else []), d.calm = true := by
  intro d hd
  split at hd
  · rw [List.mem_singleton.mp hd]
    rfl
  · exact absurd hd List.not_mem_nil

theorem plight_credit : plight e (f.credit victim killer).deeds =
    if victim = e then .dead else plight e f.deeds := by
  rw [deeds_credit, List.append_cons, plight_append, plight_died]
  split <;> split <;> rfl

theorem lawful_credit (h : Each Lawful f.deeds) (hp : plight victim f.deeds = .struck killer) :
    Each Lawful (f.credit victim killer).deeds := by
  rw [deeds_credit, List.append_cons]
  have hdied : Each Lawful (f.deeds ++ [.died victim killer]) := each_snoc.mpr ⟨h, hp⟩
  split
  · rename_i hcross
    exact each_snoc.mpr ⟨hdied, List.getLast?_concat, hcross⟩
  · rw [List.append_nil]
    exact hdied

theorem plight_tally : plight e f.tally.deeds = plight e f.deeds :=
  plight_calm fun d hd => by
    rw [List.mem_singleton.mp hd]
    rfl

theorem lawful_tally (h : Each Lawful f.deeds) : Each Lawful f.tally.deeds :=
  lawful_calm h fun d hd => by
    rw [List.mem_singleton.mp hd]
    rfl

theorem plight_kill : plight e (f.kill victim killer).deeds =
    if victim = e then .dead else plight e f.deeds :=
  plight_tally.trans plight_credit

theorem lawful_kill (h : Each Lawful f.deeds) (hp : plight victim f.deeds = .struck killer) :
    Each Lawful (f.kill victim killer).deeds :=
  lawful_tally (lawful_credit h hp)

theorem plight_creditDamage : plight e (f.creditDamage victim attacker dmg).deeds =
    plight e f.deeds := by
  rw [deeds_creditDamage]
  exact plight_calm calm_creditDamage

theorem lawful_creditDamage (h : Each Lawful f.deeds) :
    Each Lawful (f.creditDamage victim attacker dmg).deeds := by
  rw [deeds_creditDamage]
  exact lawful_calm h calm_creditDamage

theorem plight_fatal : plight e (f.fatal victim attacker dmg).deeds =
    if victim = e then .struck attacker else plight e f.deeds := by
  unfold fatal note
  rw [plight_struck, plight_creditDamage]

theorem lawful_fatal (h : Each Lawful f.deeds) (hp : plight victim f.deeds = .up) :
    Each Lawful (f.fatal victim attacker dmg).deeds := by
  unfold fatal note
  refine each_snoc.mpr ⟨lawful_creditDamage (f := { f with hp := _ }) h, ?_⟩
  exact plight_creditDamage.trans hp

-- The log and the maps tell the same of everybody.
structure Mortal (f : Field) : Prop where
  tidy : f.Tidy
  lawful : Each Lawful f.deeds
  up : ∀ e, f.life e = some .alive → plight e f.deeds = .up
  down : ∀ e ks, f.knock e = some ks → plight e f.deeds = .struck ks.killer
  seen : ∀ e, plight e f.deeds ≠ .up →
    if e = botEntityID then f.started = true else low e ≤ f.slot

theorem Mortal.takes_seen (h : f.Mortal) (ht : f.Takes e) :
    if e = botEntityID then f.started = true else low e ≤ f.slot := by
  rcases ht with ⟨x, hx, rfl⟩ | ⟨hb, rfl⟩
  · rw [if_neg (h.tidy.lives.crewed.entity_ne_bot hx)]
    exact h.tidy.lives.crewed.low_le hx
  · rw [if_pos (h.tidy.lives.crewed.bot_eq hb)]
    exact Bool.not_eq_false _ ▸ fun hs => hb (h.tidy.lives.early hs)

theorem seen_mono (hs : f.started = true → g.started = true) (hslot : f.slot ≤ g.slot)
    (h : if e = botEntityID then f.started = true else low e ≤ f.slot) :
    if e = botEntityID then g.started = true else low e ≤ g.slot := by
  split at h
  · rename_i he
    rw [if_pos he]
    exact hs h
  · rename_i he
    rw [if_neg he]
    exact h.trans hslot

theorem Mortal.frame (h : f.Mortal) (hg : g.Tidy) {ds : List Deed} (hds : g.deeds = f.deeds ++ ds)
    (hcalm : ∀ d ∈ ds, d.calm = true) (hs : f.started = true → g.started = true)
    (hslot : f.slot ≤ g.slot)
    (hup : ∀ e, g.life e = some .alive → f.life e = some .alive ∨ plight e f.deeds = .up)
    (hdown : ∀ e ks, g.knock e = some ks → ∃ ks', f.knock e = some ks' ∧ ks'.killer = ks.killer) :
    g.Mortal := by
  have hp : ∀ e, plight e g.deeds = plight e f.deeds := fun e => by
    rw [hds]
    exact plight_calm hcalm
  refine ⟨hg, by rw [hds]; exact lawful_calm h.lawful hcalm, fun e hl => ?_, fun e ks hk => ?_,
    fun e he => ?_⟩
  · rw [hp]
    exact (hup e hl).elim (h.up e) id
  · obtain ⟨ks', hk', hkiller⟩ := hdown e ks hk
    rw [hp, h.down e ks' hk', hkiller]
  · rw [hp] at he
    exact seen_mono hs hslot (h.seen e he)

theorem Mortal.single (h : f.Mortal) (a : Nat) (hg : g.Tidy) (ht : f.Takes a)
    (hs : g.stage = f.stage) (hlaw : Each Lawful g.deeds)
    (hp : ∀ e, e ≠ a → plight e g.deeds = plight e f.deeds)
    (hoff : ∀ e, e ≠ a → g.life e = f.life e ∧ g.knock e = f.knock e)
    (hup : g.life a = some .alive → plight a g.deeds = .up)
    (hdown : ∀ ks, g.knock a = some ks → plight a g.deeds = .struck ks.killer) : g.Mortal := by
  have hst : f.started = true → g.started = true := fun h => (congrArg Stage.started hs).trans h
  have hslot : f.slot ≤ g.slot := Nat.le_of_eq (congrArg Stage.slot hs).symm
  refine ⟨hg, hlaw, fun e hl => ?_, fun e ks hk => ?_, fun e he => ?_⟩
  · by_cases hea : e = a
    · rw [hea] at hl ⊢
      exact hup hl
    · rw [hp e hea]
      exact h.up e ((hoff e hea).1 ▸ hl)
  · by_cases hea : e = a
    · rw [hea] at hk ⊢
      exact hdown ks hk
    · rw [hp e hea]
      exact h.down e ks ((hoff e hea).2 ▸ hk)
  · by_cases hea : e = a
    · rw [hea]
      exact seen_mono hst hslot (h.takes_seen ht)
    · rw [hp e hea] at he
      exact seen_mono hst hslot (h.seen e he)

theorem Mortal.creditDamage (h : f.Mortal) : (f.creditDamage victim attacker dmg).Mortal :=
  h.frame h.tidy.creditDamage deeds_creditDamage calm_creditDamage
    (fun hs => (congrArg Stage.started stage_creditDamage).trans hs)
    (Nat.le_of_eq (congrArg Stage.slot stage_creditDamage).symm)
    (fun e hl => Or.inl (by simpa using hl)) fun e ks hk => ⟨ks, by simpa using hk, rfl⟩

theorem Mortal.finalize (h : f.Mortal) (hk : f.knock e = some ks) : (f.finalize e ks).Mortal := by
  have hp : ∀ {x}, plight x (f.finalize e ks).deeds = if e = x then .dead else plight x f.deeds :=
    plight_tally.trans plight_credit
  refine h.single e (h.tidy.finalize hk) (h.tidy.takes_of_knock hk) stage_finalize
    (lawful_tally (lawful_credit h.lawful (h.down e ks hk))) (fun x hx => ?_) (fun x hx => ?_)
    (fun hl => ?_) fun ks' hk' => ?_
  · rw [hp, if_neg (Ne.symm hx)]
  · simp [Function.update_of_ne hx]
  · simp at hl
  · simp at hk'

theorem mortal_blow (h : f.Mortal) (hb : Blow now l f g) : g.Mortal := by
  have hg := tidy_blow h.tidy hb
  have hs := stage_blow hb
  have hstanding : ∀ {v cur}, f.lifeOf v = .alive → f.hp v = some cur →
      f.Takes v ∧ plight v f.deeds = .up := fun {v cur} hl hh => by
    have ht := h.tidy.takes_of_hp hh
    refine ⟨ht, h.up v ?_⟩
    rcases (h.tidy.lives.at_ v).struck hl hh with hgh | ⟨-, -, hlife, -⟩
    · exact absurd ht hgh.out
    · exact hlife
  cases hb with
  | @hurt _ victim attacker dmg cur _ hl hh hlt =>
    refine h.frame hg deeds_creditDamage calm_creditDamage
      (fun h => (congrArg Stage.started hs).trans h) (Nat.le_of_eq (congrArg Stage.slot hs).symm)
      (fun e hl => Or.inl (by simpa using hl)) fun e ks hk => ⟨ks, by simpa using hk, rfl⟩
  | @slain _ victim attacker dmg cur _ hl hh _ _ _ =>
    obtain ⟨ht, hup⟩ := hstanding hl hh
    have hp : ∀ {x}, plight x ((f.fatal victim attacker dmg).kill victim attacker).deeds =
        if victim = x then .dead else plight x f.deeds := fun {x} => by
      rw [plight_kill, plight_fatal]
      split <;> rfl
    refine h.single victim hg ht hs ?_ (fun x hx => ?_) (fun x hx => ?_) (fun hl' => ?_)
      fun ks hk => ?_
    · refine lawful_kill (lawful_fatal h.lawful hup) ?_
      rw [plight_fatal, if_pos rfl]
    · rw [hp, if_neg (Ne.symm hx)]
    · simp [Function.update_of_ne hx]
    · simp at hl'
    · have hk' := h.down victim ks (by simpa using hk)
      exact absurd (hup.symm.trans hk') (by simp)
  | @downed _ victim attacker dmg cur ks _ hl hh _ _ _ _ hkiller =>
    obtain ⟨ht, hup⟩ := hstanding hl hh
    have hp : ∀ {x}, plight x ((f.fatal victim attacker dmg).knockDown victim ks).deeds =
        if victim = x then .struck attacker else plight x f.deeds :=
      plight_tally.trans plight_fatal
    refine h.single victim hg ht hs (lawful_tally (lawful_fatal h.lawful hup)) (fun x hx => ?_)
      (fun x hx => ?_) (fun hl' => ?_) fun ks' hk => ?_
    · rw [hp, if_neg (Ne.symm hx)]
    · simp [Function.update_of_ne hx]
    · simp at hl'
    · obtain rfl : ks = ks' := by simpa using hk
      rw [hp, if_pos rfl, hkiller]
  | @drained _ victim attacker dmg ks _ hl hk _ =>
    refine h.frame hg deeds_creditDamage calm_creditDamage
      (fun h => (congrArg Stage.started hs).trans h) (Nat.le_of_eq (congrArg Stage.slot hs).symm)
      (fun e hl => Or.inl (by simpa using hl)) fun e ks' hk' => ?_
    by_cases he : e = victim
    · rw [he] at hk' ⊢
      have hself : Function.update f.knock victim (some { ks with hp := ks.hp - dmg }) victim =
          some { ks with hp := ks.hp - dmg } := Function.update_self ..
      have heq := Option.some.inj (hself.symm.trans hk')
      exact ⟨ks, hk, heq ▸ rfl⟩
    · exact ⟨ks', (Function.update_of_ne he ..).symm.trans hk', rfl⟩
  | finished _ _ hk _ => exact h.creditDamage.finalize (by simpa using hk)
  | wiped _ hk _ _ => exact h.finalize hk
  | @bled _ e ks hk _ =>
    refine h.frame hg (List.append_nil _).symm (fun _ hd => absurd hd List.not_mem_nil) id
      (Nat.le_refl _) (fun _ => Or.inl) fun x ks' hk' => ?_
    by_cases he : x = e
    · rw [he] at hk' ⊢
      have hself : Function.update f.knock e (some { ks with
          deadline := ks.deadline + knockBleedEvery, hp := ks.hp - knockBleedAmt }) e =
          some { ks with deadline := ks.deadline + knockBleedEvery, hp := ks.hp - knockBleedAmt } :=
        Function.update_self ..
      have heq := Option.some.inj (hself.symm.trans hk')
      exact ⟨ks, hk, heq ▸ rfl⟩
    · exact ⟨ks', (Function.update_of_ne he ..).symm.trans hk', rfl⟩
  | bledOut hk _ _ => exact h.finalize hk

theorem calm_of_all {ds : List Deed} (h : ∀ d ∈ ds, ∃ a b, d = .standing a b) :
    ∀ d ∈ ds, d.calm = true := by
  intro d hd
  obtain ⟨a, b, rfl⟩ := h d hd
  rfl

theorem mortal_reset (hg : g.Tidy) (h : Each Lawful f.deeds) (hds : g.deeds = f.deeds ++ [.reset])
    (hk : ∀ e, g.knock e = none) : g.Mortal := by
  have hup : ∀ e, plight e g.deeds = .up := fun e => by
    rw [hds]
    exact plight_snoc
  refine ⟨hg, by rw [hds]; exact each_snoc.mpr ⟨h, trivial⟩, fun e _ => hup e, fun e ks hks => ?_,
    fun e he => absurd (hup e) he⟩
  exact absurd ((hk e).symm.trans hks) (by simp)

theorem Mortal.rescueTick (h : f.Mortal) : (f.rescueTick now t).Mortal := by
  have hg := @Tidy.rescueTick _ t now h.tidy
  have hs := @stage_rescueTick f now t
  revert hg hs
  unfold Field.rescueTick
  split
  · exact fun _ _ => h
  rename_i r hr
  split
  · exact fun hg _ => h.frame hg (List.append_nil _).symm (fun _ hd => absurd hd List.not_mem_nil)
      id (Nat.le_refl _) (fun _ => Or.inl) fun _ ks hk => ⟨ks, hk, rfl⟩
  split
  · exact fun _ _ => h
  rename_i hlife _
  intro hg hs
  have hknocked : f.lifeOf t = .knocked := not_not.mp fun hne => hlife (Or.inl hne)
  obtain rfl : r.target = t := h.tidy.lives.targets t r hr
  have hp : ∀ {x}, plight x (({ f with rescues := Function.update f.rescues r.target none } :
      Field).completeRescue r).deeds = if r.target = x then .up else plight x f.deeds :=
    fun {x} => by
      refine plight_tally.trans (plight_snoc.trans ?_)
      simp [befall, Deed.revives]
  refine h.single r.target hg (h.tidy.takes_of_knocked hknocked) hs ?_ (fun x hx => ?_)
    (fun x hx => ?_) (fun _ => ?_) fun ks hk => ?_
  · exact lawful_tally (each_snoc.mpr ⟨h.lawful, trivial⟩)
  · rw [hp, if_neg (Ne.symm hx)]
  · simp [completeRescue, Function.update_of_ne hx]
  · rw [hp, if_pos rfl]
  · simp [completeRescue] at hk

theorem Mortal.join {s : SessionId} {team : Nat} (h : f.Mortal) (hg : (f.join s team).Tidy)
    (htwo : 2 ≤ f.slot) (hlt : f.slot + 1 < 256) : (f.join s team).Mortal := by
  have hn := nextSlot_eq hlt
  obtain ⟨ds, hds, hstanding⟩ := @deeds_join f s team
  have hslot : (f.join s team).slot = f.nextSlot := slot_join
  refine h.frame hg hds (fun d hd => ?_)
    (fun hs => (congrArg Stage.started stage_join).trans hs) (by omega) (fun e hl => ?_)
    fun e ks hk => ⟨ks, (congrFun records_join.1 e).symm.trans hk, rfl⟩
  · rcases List.mem_cons.mp hd with rfl | hd
    · rfl
    · exact calm_of_all hstanding d hd
  · by_cases hne : e = team * 2 ^ 24 + f.nextSlot
    · refine Or.inr (not_not.mp fun hp => ?_)
      have hseen := h.seen e hp
      rw [if_neg (hne ▸ seat_ne_bot (by omega) (by omega)), hne, low_seat (by omega)] at hseen
      omega
    · rcases body_others (s := s) h.tidy.lives.crewed hne with ⟨-, h1, -⟩ | ⟨-, h1, -, -⟩
      · exact Or.inl (h1 ▸ hl)
      · exact absurd (h1.symm.trans hl) (by simp)

theorem Mortal.bot {ph : CsPhase} (h : f.Mortal)
    (hg : ({ f.spawnBot with phase := ph, started := true } : Field).Tidy)
    (hst : f.started = false) :
    ({ f.spawnBot with phase := ph, started := true } : Field).Mortal := by
  refine h.frame hg rfl (fun d hd => ?_) (fun _ => rfl) (Nat.le_refl _) (fun e hl => ?_)
    fun e ks hk => ⟨ks, hk, rfl⟩
  · rw [List.mem_singleton.mp hd]
    rfl
  · by_cases hbot : e = botEntityID
    · refine Or.inr (not_not.mp fun hp => ?_)
      have hseen := h.seen e hp
      rw [if_pos hbot] at hseen
      exact absurd (hst.symm.trans hseen) Bool.false_ne_true
    · exact Or.inl ((Function.update_of_ne hbot ..).symm.trans hl)

theorem mortal_move (h : f.Mortal) (hm : Move now l f g)
    (hjoin : ∀ s team, l = .join s team → f.knock botEntityID = none)
    (hup : l ≠ .setup → l ≠ .begin_ → f.begun = true) : g.Mortal := by
  have hg := tidy_move h.tidy hm hjoin hup
  have hsame : ∀ {g : Field}, g.Tidy → g.stage = f.stage → g.life = f.life → g.knock = f.knock →
      g.deeds = f.deeds → g.Mortal := fun hg hs hl hk hd =>
    h.frame hg (hd.trans (List.append_nil _).symm) (fun _ hd => absurd hd List.not_mem_nil)
      (fun h => (congrArg Stage.started hs).trans h) (Nat.le_of_eq (congrArg Stage.slot hs).symm)
      (fun e he => Or.inl (hl ▸ he)) fun e ks hks => ⟨ks, hk ▸ hks, rfl⟩
  cases hm with
  | hit hf => exact (@blows_hit _ _ _ _ _ _ now hf).invariant h fun hi hb => mortal_blow hi hb
  | startRescue =>
    revert hg
    unfold Field.startRescue
    split
    · exact fun _ => h
    split
    · exact fun _ => h
    · exact fun hg => hsame hg rfl rfl rfl rfl
  | stopRescue =>
    revert hg
    unfold Field.stopRescue
    split
    · split
      · exact fun hg => hsame hg rfl rfl rfl rfl
      · exact fun _ => h
    · exact fun _ => h
  | @leave _ x hx =>
    refine h.frame hg rfl (fun d hd => ?_) id (Nat.le_refl _) (fun e hl => ?_) fun e ks hk => ?_
    · rw [List.mem_singleton.mp hd]
      rfl
    · by_cases he : e = x.entity
      · rw [he] at hl
        have hself : Function.update f.life x.entity none x.entity = none := Function.update_self ..
        exact absurd (hself.symm.trans hl) (by simp)
      · exact Or.inl ((Function.update_of_ne he ..).symm.trans hl)
    · by_cases he : e = x.entity
      · rw [he] at hk
        have hself : Function.update f.knock x.entity none x.entity = none :=
          Function.update_self ..
        exact absurd (hself.symm.trans hk) (by simp)
      · exact ⟨ks, (Function.update_of_ne he ..).symm.trans hk, rfl⟩
  | join _ _ htwo hlt _ => exact h.join hg htwo hlt
  | @setup _ s team hp hf _ =>
    refine h.frame hg (List.append_nil _).symm (fun _ hd => absurd hd List.not_mem_nil) id ?_
      (fun _ => Or.inl) fun e ks hk => ⟨ks, hk, rfl⟩
    rw [hf.slot]
    exact Nat.zero_le _
  | begin_ _ =>
    exact mortal_reset hg h.lawful deeds_initHP
      fun e => congrFun (@initHP_cleared { f with begun := true }).1 e
  | bleed => exact blows_bleed.invariant h fun hi hb => mortal_blow hi hb
  | rescue => exact h.rescueTick
  | heal _ _ _ _ => exact hsame hg rfl rfl rfl rfl
  | revive _ _ => exact mortal_reset hg h.lawful deeds_reviveAll fun _ => rfl
  | bot hst _ => exact h.bot hg hst
  | fight _ _ =>
    refine h.frame hg rfl (fun d hd => ?_) id (Nat.le_refl _) (fun _ => Or.inl)
      fun e ks hk => ⟨ks, hk, rfl⟩
    rw [List.mem_singleton.mp hd]
    rfl
  | score _ _ _ _ =>
    refine h.frame hg rfl (fun d hd => ?_) id (Nat.le_refl _) (fun _ => Or.inl)
      fun e ks hk => ⟨ks, hk, rfl⟩
    rw [List.mem_singleton.mp hd]
    rfl
  | @turn _ ph st ds hf =>
    refine h.frame hg rfl (fun d hd => ?_) hf.started (Nat.le_refl _) (fun _ => Or.inl)
      fun e ks hk => ⟨ks, hk, rfl⟩
    rcases hf.deeds with rfl | rfl | ⟨r, rfl⟩
    · exact absurd hd List.not_mem_nil
    · rw [List.mem_singleton.mp hd]
      rfl
    · rw [List.mem_singleton.mp hd]
      rfl

theorem mortal_untouched (h : f.Untouched) : f.Mortal where
  tidy := tidy_untouched h
  lawful := by
    rw [h.deeds]
    exact each_nil
  up := fun e hl => absurd ((congrFun h.life e).symm.trans hl) (by simp)
  down := fun e ks hk => absurd ((congrFun h.knock e).symm.trans hk) (by simp)
  seen := fun e he => by
    rw [h.deeds] at he
    exact absurd rfl he

def Tallied (f : Field) (e : Nat) : Prop :=
  (f.deaths e).getD 0 = f.deeds.countP (Deed.dies e) % 65536 ∧
    (f.kills e).getD 0 = f.deeds.countP (Deed.isKillBy e) % 65536

theorem bump_getD {counts : Nat → Option Nat} {by_ modulus : Nat} :
    ((bump counts a by_ modulus) e).getD 0 =
      if e = a then ((counts e).getD 0 + by_) % modulus else (counts e).getD 0 := by
  unfold bump
  split
  · rename_i he
    rw [he, Function.update_self]
    rfl
  · rename_i he
    rw [Function.update_of_ne he]

theorem Tallied.frame (h : f.Tallied e) {ds : List Deed} (hds : g.deeds = f.deeds ++ ds)
    (hcalm : ∀ d ∈ ds, d.dies e = false ∧ d.isKillBy e = false) (hd : g.deaths e = f.deaths e)
    (hk : g.kills e = f.kills e) : g.Tallied e := by
  have h1 : ds.countP (Deed.dies e) = 0 :=
    List.countP_eq_zero.mpr fun d hm => by simp [(hcalm d hm).1]
  have h2 : ds.countP (Deed.isKillBy e) = 0 :=
    List.countP_eq_zero.mpr fun d hm => by simp [(hcalm d hm).2]
  unfold Tallied
  rw [hds, hd, hk, List.countP_append, List.countP_append, h1, h2]
  exact h

theorem tallied_one (h : f.Tallied e) {d : Deed} (hds : g.deeds = f.deeds ++ [d])
    (hcalm : d.dies e = false ∧ d.isKillBy e = false) (hd : g.deaths e = f.deaths e)
    (hk : g.kills e = f.kills e) : g.Tallied e :=
  h.frame hds (fun x hx => by
    rw [List.mem_singleton.mp hx]
    exact hcalm) hd hk

theorem Tallied.credit (h : f.Tallied e) : (f.credit victim killer).Tallied e := by
  have hdied : ({ f with deaths := bump f.deaths victim 1 65536 }.note (.died victim killer)).Tallied
      e := by
    refine ⟨?_, ?_⟩
    · change ((bump f.deaths victim 1 65536) e).getD 0 = (f.deeds ++ [_]).countP _ % 65536
      rw [bump_getD, List.countP_append, h.1]
      by_cases he : e = victim
      · simp [he, Deed.dies, Nat.add_mod]
      · simp [he, Deed.dies, Ne.symm he]
    · change (f.kills e).getD 0 = (f.deeds ++ [_]).countP _ % 65536
      rw [List.countP_append, h.2]
      rfl
  unfold Field.credit
  dsimp only
  split
  · refine ⟨?_, ?_⟩
    · change (_ : Nat) = (_ ++ [_]).countP _ % 65536
      rw [List.countP_append]
      exact hdied.1
    · change ((bump f.kills killer 1 65536) e).getD 0 = (_ ++ [_]).countP _ % 65536
      rw [bump_getD, List.countP_append]
      have hk : (f.kills e).getD 0 = _ := hdied.2
      rw [hk]
      by_cases he : e = killer
      · simp [he, Deed.isKillBy, Nat.add_mod]
      · simp [he, Deed.isKillBy, Ne.symm he]
  · exact hdied

theorem Tallied.finalize (h : f.Tallied e) : (f.finalize a ks).Tallied e :=
  tallied_one (@Tallied.credit _ a ks.killer _ h) rfl ⟨rfl, rfl⟩ rfl rfl

theorem Tallied.creditDamage (h : f.Tallied e) : (f.creditDamage victim attacker dmg).Tallied e := by
  unfold Field.creditDamage
  split
  · exact tallied_one h rfl ⟨rfl, rfl⟩ rfl rfl
  · exact h

theorem Tallied.fatal (h : f.Tallied e) : (f.fatal victim attacker dmg).Tallied e :=
  tallied_one (Tallied.creditDamage (f := { f with hp := Function.update f.hp victim (some 0) }) h)
    rfl ⟨rfl, rfl⟩ rfl rfl

theorem tallied_blow (h : f.Tallied e) (hb : Blow now l f g) : g.Tallied e := by
  cases hb with
  | hurt _ _ _ _ => exact Tallied.creditDamage (f := { f with hp := _ }) h
  | slain _ _ _ _ _ _ => exact tallied_one (h.fatal.credit) rfl ⟨rfl, rfl⟩ rfl rfl
  | downed _ _ _ _ _ _ _ _ => exact tallied_one h.fatal rfl ⟨rfl, rfl⟩ rfl rfl
  | drained _ _ _ _ => exact h.creditDamage
  | finished _ _ _ _ => exact h.creditDamage.finalize
  | wiped _ _ _ _ => exact h.finalize
  | bled _ _ => exact h
  | bledOut _ _ _ => exact h.finalize

structure Counted (f : Field) : Prop where
  lives : f.Lives
  quiet : f.begun = false → f.deeds = []
  tallied : ∀ e, (e = botEntityID → f.bot = 0 → f.started = false) → f.Tallied e

theorem counters_raiseAll (xs : List Member) (f : Field) :
    (xs.foldl raiseMember f).raiseBot.deaths = f.deaths ∧
      (xs.foldl raiseMember f).raiseBot.kills = f.kills := by
  have hraise : (xs.foldl raiseMember f).deaths = f.deaths ∧
      (xs.foldl raiseMember f).kills = f.kills := by
    induction xs generalizing f with
    | nil => exact ⟨rfl, rfl⟩
    | cons x xs ih => exact ih _
  unfold raiseBot
  split
  · exact hraise
  · exact hraise

theorem counters_join {s : SessionId} {team : Nat} (he : e ≠ f.bot ∨ f.bot = 0) :
    (f.join s team).deaths e = f.deaths e ∧ (f.join s team).kills e = f.kills e := by
  unfold Field.join retireBot
  split
  · exact ⟨rfl, rfl⟩
  · rename_i hb
    have hne : e ≠ f.bot := he.resolve_right hb
    exact ⟨Function.update_of_ne hne .., Function.update_of_ne hne ..⟩

theorem counted_move (h : f.Counted) (hm : Move now l f g)
    (hup : l ≠ .setup → l ≠ .begin_ → f.begun = true) : g.Counted := by
  have hlives := lives_move h.lives hm hup
  have hstage : g.begun = false → f.begun = false := fun hg => by
    by_contra hf
    have hb := begun_of_move hm (Bool.not_eq_false _ ▸ hf)
    exact absurd (hg.symm.trans hb) Bool.false_ne_true
  have hlate : l ≠ .setup → l ≠ .begin_ → g.begun = false → g.deeds = [] := fun h1 h2 hg =>
    absurd ((hup h1 h2).symm.trans (hstage hg)) (by decide)
  have hsame : ∀ {g : Field}, g.bot = f.bot → (f.started = true → g.started = true) → ∀ e,
      (e = botEntityID → g.bot = 0 → g.started = false) →
      (e = botEntityID → f.bot = 0 → f.started = false) := fun hb hst e hc he hz => by
    have hg := hc he (hb.trans hz)
    exact Bool.eq_false_iff.mpr fun hf => absurd (hg.symm.trans (hst hf)) Bool.false_ne_true
  have hblows : ∀ {l : Label} {g : Field}, Blows now l f g → ∀ e,
      (e = botEntityID → g.bot = 0 → g.started = false) → g.Tallied e := fun {l g} hb e hc => by
    refine (hb.invariant (I := fun k => k.stage = f.stage ∧ (f.Tallied e → k.Tallied e))
      ⟨rfl, id⟩ fun hi hb => ⟨(stage_blow hb).trans hi.1, fun ht => tallied_blow (hi.2 ht) hb⟩).2
      (h.tallied e ?_)
    have hs : g.stage = f.stage := hb.invariant (I := fun k => k.stage = f.stage) rfl
      fun hi hb => (stage_blow hb).trans hi
    exact hsame (congrArg Stage.bot hs) (fun hf => (congrArg Stage.started hs).trans hf) e hc
  cases hm with
  | hit hf => exact ⟨hlives, hlate nofun nofun, hblows (blows_hit hf)⟩
  | startRescue =>
    refine ⟨hlives, hlate nofun nofun, ?_⟩
    unfold Field.startRescue
    split
    · exact h.tallied
    · split <;> exact h.tallied
  | stopRescue =>
    refine ⟨hlives, hlate nofun nofun, ?_⟩
    unfold Field.stopRescue
    split
    · split <;> exact h.tallied
    · exact h.tallied
  | leave _ =>
    exact ⟨hlives, hlate nofun nofun, fun e hc => tallied_one (h.tallied e hc) rfl ⟨rfl, rfl⟩ rfl rfl⟩
  | @join _ s team _ _ _ _ _ =>
    refine ⟨hlives, hlate nofun nofun, fun e hc => ?_⟩
    have hst : (f.join s team).started = f.started := congrArg Stage.started stage_join
    have hcond : e = botEntityID → f.bot = 0 → f.started = false := fun he _ =>
      hst.symm.trans (hc he bot_join)
    obtain ⟨ds, hds, hstanding⟩ := @deeds_join f s team
    have hoff : e ≠ f.bot ∨ f.bot = 0 := by
      by_cases hz : f.bot = 0
      · exact Or.inr hz
      · refine Or.inl fun he => hz (h.lives.early ?_)
        exact hst.symm.trans (hc (he.trans (h.lives.crewed.bot_eq hz)) bot_join)
    obtain ⟨h1, h2⟩ := @counters_join _ _ s team hoff
    refine (h.tallied e hcond).frame hds (fun d hd => ?_) h1 h2
    rcases List.mem_cons.mp hd with rfl | hd
    · exact ⟨rfl, rfl⟩
    · obtain ⟨a, b, rfl⟩ := hstanding d hd
      exact ⟨rfl, rfl⟩
  | @setup _ s team hp hf _ =>
    refine ⟨hlives, fun _ => hf.deeds, fun e _ => ?_⟩
    exact h.tallied e fun _ _ => hf.started
  | begin_ hb =>
    refine ⟨hlives, fun hg => ?_, fun e _ => ?_⟩
    · have hs : f.begin_.begun = true := congrArg Stage.begun (stage_initHP (f := { f with
        begun := true }))
      exact absurd (hg.symm.trans hs) Bool.false_ne_true
    · obtain ⟨h1, h2⟩ := counters_raiseAll f.crew ({ f with begun := true } : Field).clear
      have hdeeds : f.begin_.deeds = f.deeds ++ [.reset] := deeds_initHP
      rw [h.quiet hb] at hdeeds
      have hd : f.begin_.deaths = fun _ => none := h1
      have hk : f.begin_.kills = fun _ => none := h2
      unfold Tallied
      rw [hdeeds, hd, hk]
      exact ⟨rfl, rfl⟩
  | bleed => exact ⟨hlives, hlate nofun nofun, hblows blows_bleed⟩
  | rescue =>
    refine ⟨hlives, hlate nofun nofun, ?_⟩
    unfold Field.rescueTick
    split
    · exact h.tallied
    split
    · exact h.tallied
    split
    · exact h.tallied
    · refine fun e hc => (h.tallied e hc).frame (List.append_assoc _ _ _) (fun d hd => ?_) rfl rfl
      rcases List.mem_append.mp hd with hd | hd
      all_goals
        rw [List.mem_singleton.mp hd]
        exact ⟨rfl, rfl⟩
  | heal _ _ _ _ => exact ⟨hlives, hlate nofun nofun, h.tallied⟩
  | @revive _ ph _ _ =>
    refine ⟨hlives, hlate nofun nofun, fun e hc => ?_⟩
    have hs := stage_reviveAll (f := f)
    obtain ⟨h1, h2⟩ := counters_raiseAll f.crew f
    exact tallied_one (h.tallied e (hsame (congrArg Stage.bot hs)
      (fun hf => (congrArg Stage.started hs).trans hf) e hc)) deeds_reviveAll ⟨rfl, rfl⟩
      (congrFun h1 e) (congrFun h2 e)
  | bot hst _ =>
    refine ⟨hlives, hlate nofun nofun, fun e _ => ?_⟩
    exact tallied_one (h.tallied e fun _ _ => hst) rfl ⟨rfl, rfl⟩ rfl rfl
  | fight _ _ =>
    exact ⟨hlives, hlate nofun nofun, fun e hc => tallied_one (h.tallied e hc) rfl ⟨rfl, rfl⟩ rfl rfl⟩
  | score _ _ _ _ =>
    exact ⟨hlives, hlate nofun nofun, fun e hc => tallied_one (h.tallied e hc) rfl ⟨rfl, rfl⟩ rfl rfl⟩
  | @turn _ ph st ds hf =>
    refine ⟨hlives, hlate nofun nofun, fun e hc => ?_⟩
    refine (h.tallied e (hsame (g := { f with started := st }) rfl hf.started e hc)).frame
      rfl (fun d hd => ?_) rfl rfl
    rcases hf.deeds with rfl | rfl | ⟨r, rfl⟩
    · exact absurd hd List.not_mem_nil
    · rw [List.mem_singleton.mp hd]
      exact ⟨rfl, rfl⟩
    · rw [List.mem_singleton.mp hd]
      exact ⟨rfl, rfl⟩

theorem counted_untouched (h : f.Untouched) : f.Counted where
  lives := lives_untouched h
  quiet := fun _ => h.deeds
  tallied := fun e _ => by
    unfold Tallied
    rw [h.deeds, h.deaths, h.kills]
    exact ⟨rfl, rfl⟩

end Field

namespace Server

variable {w : World} {v v' : Server} {m : MatchRef} {f : Field} {l : Label} {es : List Event}
  {ev : Event}

-- No joiner replaces a bot that bleeds.
def Unhaunted (v : Server) (ev : Event) : Prop :=
  v.JoinsOnce ev ∧ ∀ x ∈ v.sitsDown ev.act, (v.core.ms x.2).knock.lookup botEntityID = none

instance (v : Server) (ev : Event) : Decidable (v.Unhaunted ev) :=
  inferInstanceAs (Decidable (_ ∧ ∀ x ∈ v.sitsDown ev.act, _))

theorem whole_of_unhaunted (hc : v.Unhaunted ev) (hwhy : Why w v ev m f l) (s : SessionId)
    (team : Nat) (hl : l = .join s team) : f.knock botEntityID = none := by
  subst hl
  cases hwhy with
  | handler _ _ hl => cases hl
  | join hact _ hm =>
    refine hc.2 (s, m) ?_
    rw [hact]
    simp [sitsDown, hm]
  | tick _ _ hl =>
    cases hl with
    | clock hl _ => exact Bool.noConfusion hl

-- Every death has its lethal hit and every kill its death, one of each between two revivals, and
-- the counters count them.
theorem one_death_one_kill (h : Run (Guarded (Step w) Unhaunted) start es v) (m : MatchRef) :
    Each Lawful (v.core.ms m).deeds ∧
      (∀ e pre mid post, (v.core.ms m).deeds = pre ++ mid ++ post →
        (∀ d ∈ mid, d.revives e = false) →
          mid.countP (Deed.dies e) ≤ 1 ∧ mid.countP (Deed.isKillOf e) ≤ 1) ∧
      (∀ e ks, (v.core.ms m).knock.lookup e = some ks →
        plight e (v.core.ms m).deeds = .struck ks.killer) ∧
      ∀ e, (e = botEntityID → (v.core.ms m).botEntity = 0 → (v.core.ms m).started = false) →
        ((v.core.ms m).deaths.lookup e).getD 0 =
          (v.core.ms m).deeds.countP (Deed.dies e) % 65536 ∧
        ((v.core.ms m).kills.lookup e).getD 0 =
          (v.core.ms m).deeds.countP (Deed.isKillBy e) % 65536 := by
  have hmortal : (v.core.field m).Mortal :=
    field_invariant h (fun _ _ hc => hc.1) (fun _ => Field.mortal_untouched)
      (fun _ hc _ hwhy _ hup hf hm => Field.mortal_move hf hm (whole_of_unhaunted hc hwhy) hup) m
  have hcounted : (v.core.field m).Counted :=
    field_invariant h (fun _ _ hc => hc.1) (fun _ => Field.counted_untouched)
      (fun _ _ _ _ _ hup hf hm => Field.counted_move hf hm hup) m
  refine ⟨hmortal.lawful, fun e pre mid post hds hmid => ?_, hmortal.down, hcounted.tallied⟩
  have hlaw : Each Lawful (pre ++ mid ++ post) := hds ▸ hmortal.lawful
  exact one_death hlaw.of_append hmid

-- One against two: the host shoots a guest, and finishes it.
def finishing : List Event :=
  opens 1 0 0 (joinWith hostToken) ++ joins 2 1 0 join ++ joins 3 2 0 join ++
    sends 4 0 0 (damageReport 0x01000003 0x02000001 200) ++
    sends 5 0 0 (damageReport 0x01000003 0x02000001 200) ++
    sends 6 0 0 (damageReport 0x01000003 0x02000001 200)

theorem finished_once : ∃ v, Run (Guarded (Step signedWorld) Unhaunted) start finishing v ∧
    .killed 0x01000003 0x02000001 (some 0) ∈ (v.core.ms 0).deeds ∧
    ((v.core.ms 0).deaths.lookup 0x01000003).getD 0 =
      (v.core.ms 0).deeds.countP (Deed.dies 0x01000003) % 65536 := by
  have hrun : ((finishing.foldlM (fun v e => if Unhaunted v e then step signedWorld v e else none)
      start).map fun v => decide (.killed 0x01000003 0x02000001 (some 0) ∈ (v.core.ms 0).deeds)) =
      some true := by
    decide +kernel
  obtain ⟨v, hv, hd⟩ := Option.map_eq_some_iff.mp hrun
  exact ⟨v, run_of_checked hv, of_decide_eq_true hd,
    ((one_death_one_kill (run_of_checked hv) 0).2.2.2 0x01000003
      fun he => absurd he (by decide)).1⟩

-- A host on the bot's team knocks the bot down before a guest replaces it.
def haunting : List Event :=
  opens 1 0 0 (joinWith hostToken) ++ [event 2 (.dispatch 1 join), event 1000000000 (.tick 0),
      event 3000000000 (.tick 0), event 7000000000 (.tick 0)] ++
    sends 7000000001 0 0 (damageReport botEntityID 0x02000001 200) ++
    [event 7000000002 (.letIn ⟨1, 0, false, none⟩), event 7000000003 (.exec 0),
      event 8500000001 (.tick 0)] ++
    sends 8500000002 0 0 (damageReport botEntityID 0x01000003 200) ++
    (List.range 19).map fun k => event (10000000001 + 1500000000 * k) (.tick 0)

-- The bot, gone but for its knock record, is killed and then bleeds out.
theorem retired_bot_dies_twice : ¬ ∀ w es v m, Run (Step w) start es v →
    ∀ e pre mid post, (v.core.ms m).deeds = pre ++ mid ++ post →
      (∀ d ∈ mid, d.revives e = false) → mid.countP (Deed.dies e) ≤ 1 := by
  intro hall
  have hrun : ((haunting.foldlM (step signedWorld) start).map fun v =>
      ((v.core.ms 0).deeds.head?, (v.core.ms 0).deeds.tail.countP (Deed.dies botEntityID),
        (v.core.ms 0).deeds.tail.all fun d => !d.revives botEntityID)) =
      some (some .reset, 2, true) := by
    decide +kernel
  obtain ⟨v, hv, hd⟩ := Option.map_eq_some_iff.mp hrun
  simp only [Prod.mk.injEq] at hd
  obtain ⟨hhead, htwo, hmid⟩ := hd
  have hle := hall signedWorld haunting v 0 (run_of_foldlM hv) botEntityID [.reset]
    (v.core.ms 0).deeds.tail [] ?_ fun d hx => ?_
  · rw [htwo] at hle
    exact absurd hle (by decide)
  · rw [List.append_nil]
    exact (List.cons_head?_tail hhead).symm
  · simpa using List.all_eq_true.mp hmid d hx

end Server

end MatchServer

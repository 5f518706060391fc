import Madoka.MatchServer.Fights

namespace MatchServer

open Lib MatchServer.Core

def toll (one two : Nat) : Option Nat :=
  if one = 0 then some (if two = 0 then 0 else localTeamID)
  else if two = 0 then some enemyTeamID
  else none

def fell : Option Nat → Deed → Option Nat
  | _, .fight one two => toll one two
  | none, .standing one two => toll one two
  | t, _ => t

-- The team whose count of the living reached 0 first since the last Fight began.
def firstFallen (ds : List Deed) : Option Nat := ds.foldl fell none

-- A round goes to the team other than the one that fell first.
def Awarded (pre : List Deed) : Deed → Prop
  | .scored _ winner => ∃ t, firstFallen pre = some t ∧
    (t = localTeamID → winner = enemyTeamID) ∧ (t = enemyTeamID → winner = localTeamID)
  | _ => True

def Deed.isFight : Deed → Bool
  | .fight _ _ => true
  | _ => false

def Deed.counts : Deed → Bool
  | .fight _ _ | .standing _ _ => true
  | _ => false

theorem fell_of_kept {d : Deed} (h : d.counts = false) (t : Option Nat) : fell t d = t := by
  cases d with
  | fight _ _ => exact Bool.noConfusion h
  | standing _ _ => exact Bool.noConfusion h
  | _ => cases t <;> rfl

theorem toll_of_zero {one two : Nat} (h : one = 0 ∨ two = 0) : toll one two ≠ none := by
  unfold toll
  split
  · exact Option.some_ne_none _
  · rename_i hone
    rw [if_pos (h.resolve_left hone)]
    exact Option.some_ne_none _

theorem toll_local {one two : Nat} (h : toll one two = some localTeamID) : one = 0 := by
  unfold toll at h
  split at h
  · assumption
  · split at h <;> exact absurd h (by decide)

theorem toll_enemy {one two : Nat} (h : toll one two = some enemyTeamID) : 0 < one := by
  unfold toll at h
  split at h
  · split at h <;> exact absurd h (by decide)
  · exact Nat.pos_of_ne_zero ‹_›

theorem fell_of_some {d : Deed} (h : d.isFight = false) (t : Nat) : fell (some t) d = some t := by
  cases d with
  | fight _ _ => exact Bool.noConfusion h
  | _ => rfl

theorem firstFallen_append (ds es : List Deed) :
    firstFallen (ds ++ es) = es.foldl fell (firstFallen ds) := List.foldl_append

theorem fallen_append {ds es : List Deed} (hes : ∀ d ∈ es, d.isFight = false)
    (h : firstFallen ds ≠ none ∨ ∃ a b, Deed.standing a b ∈ es ∧ (a = 0 ∨ b = 0)) :
    firstFallen (ds ++ es) ≠ none := by
  induction es using List.reverseRecOn with
  | nil =>
    rw [List.append_nil]
    exact h.resolve_right fun ⟨_, _, hm, _⟩ => absurd hm List.not_mem_nil
  | append_singleton es d ih =>
    have hd := hes d (by simp)
    have hrest := ih fun x hx => hes x (List.mem_append_left _ hx)
    rw [← List.append_assoc, firstFallen_append, List.foldl_cons, List.foldl_nil]
    cases hf : firstFallen (ds ++ es) with
    | some t =>
      rw [fell_of_some hd]
      exact Option.some_ne_none _
    | none =>
      rcases h with h | ⟨a, b, hm, hz⟩
      · exact absurd hf (hrest (Or.inl h))
      · rcases List.mem_append.mp hm with hm | hm
        · exact absurd hf (hrest (Or.inr ⟨a, b, hm, hz⟩))
        · rw [← List.mem_singleton.mp hm]
          exact toll_of_zero hz

namespace Field

variable {f g k : Field} {victim attacker dmg e t : Nat} {ks : KnockState} {order : List Nat}
  {now : Int} {l : Label} {ds : List Deed}

def Fallen (f : Field) : Prop := f.standing localTeamID = 0 ∨ f.standing enemyTeamID = 0

-- A team that falls is in the log.
def Told (f g : Field) : Prop :=
  ∃ ds, g.deeds = f.deeds ++ ds ∧
    (g.Fallen → f.Fallen ∨ ∃ a b, Deed.standing a b ∈ ds ∧ (a = 0 ∨ b = 0))

theorem told_of_kept (h : Grows f g) (hz : g.Fallen → f.Fallen) : Told f g := by
  obtain ⟨ds, hds, -⟩ := h
  exact ⟨ds, hds, fun hg => Or.inl (hz hg)⟩

theorem told_of_tally (h : Grows f g) : Told f g.tally := by
  obtain ⟨ds, hds, -⟩ := h
  refine ⟨ds ++ [.standing (g.standing localTeamID) (g.standing enemyTeamID)], ?_,
    fun hz => Or.inr ⟨g.standing localTeamID, g.standing enemyTeamID, by simp, hz⟩⟩
  rw [← List.append_assoc, ← hds]
  rfl

theorem Told.trans (h : Told f g) (h' : Told g k) : Told f k := by
  obtain ⟨ds, hds, hg⟩ := h
  obtain ⟨es, hes, hk⟩ := h'
  refine ⟨ds ++ es, by rw [hes, hds, List.append_assoc], fun hz => ?_⟩
  rcases hk hz with hz | ⟨a, b, hm, hab⟩
  · refine (hg hz).imp_right fun ⟨a, b, hm, hab⟩ => ⟨a, b, List.mem_append_left _ hm, hab⟩
  · exact Or.inr ⟨a, b, List.mem_append_right _ hm, hab⟩

theorem standing_of_eq (hc : g.crew = f.crew) (hb : g.bot = f.bot) (hl : g.life = f.life) (t : Nat) :
    g.standing t = f.standing t := by
  unfold standing lifeOf
  rw [hc, hb, hl]

theorem fallen_of_eq (hc : g.crew = f.crew) (hb : g.bot = f.bot) (hl : g.life = f.life)
    (h : g.Fallen) : f.Fallen := by
  unfold Fallen at *
  rwa [standing_of_eq hc hb hl, standing_of_eq hc hb hl] at h

theorem fallen_of_stage (hs : g.stage = f.stage) (hl : g.life = f.life) (h : g.Fallen) : f.Fallen :=
  fallen_of_eq (congrArg Stage.crew hs) (congrArg Stage.bot hs) hl h

theorem grows_credit : Grows f (f.credit victim attacker) :=
  adds_credit (fun _ _ => trivial) fun _ _ _ => trivial

theorem told_finalize : Told f (f.finalize e ks) := told_of_tally (grows_credit.of_eq rfl)

theorem told_blow (hb : Blow now l f g) : Told f g := by
  have hgrows := grows_blow hb
  have hs := stage_blow hb
  cases hb with
  | hurt _ _ _ _ => exact told_of_kept hgrows (fallen_of_stage hs (by simp))
  | slain _ _ _ _ _ _ => exact told_of_tally ((grows_fatal.trans grows_credit).of_eq rfl)
  | downed _ _ _ _ _ _ _ _ => exact told_of_tally (grows_fatal.of_eq rfl)
  | drained _ _ _ _ => exact told_of_kept hgrows (fallen_of_stage hs (by simp))
  | finished _ _ _ _ =>
    refine Told.trans (told_of_kept (adds_creditDamage fun _ _ _ => trivial) ?_) told_finalize
    exact fallen_of_stage stage_creditDamage (by simp)
  | wiped _ _ _ _ => exact told_finalize
  | bled _ _ => exact told_of_kept hgrows (fallen_of_stage hs rfl)
  | bledOut _ _ _ => exact told_finalize

theorem told_blows (h : Blows now l f g) : Told f g := by
  refine h.invariant (I := fun g => Told f g) (told_of_kept adds_refl id) fun hi hb => ?_
  exact hi.trans (told_blow hb)

theorem told_leave {s : SessionId} {entity : Nat} : Told f (f.leave s entity) :=
  told_of_tally (adds_refl.of_eq rfl)

theorem told_join {s : SessionId} {team : Nat} (hf : f.Crewed) (hlt : f.slot + 1 < 256) :
    Told f (f.join s team) := by
  have hn := nextSlot_eq hlt
  have hgrows : Grows f (((f.enlist s team).raise (team * 2 ^ 24 + f.nextSlot)).note
      (.seated (team * 2 ^ 24 + f.nextSlot))) := adds_one rfl trivial
  unfold Field.join retireBot
  split
  · rename_i hz
    have hz' : f.bot = 0 := hz
    refine told_of_kept hgrows (Or.imp ?_ ?_)
    all_goals
      unfold standing
      simp only [enlist, raise, note, lifeOf, List.countP_append, hz', ne_eq, not_true_eq_false,
        false_and, and_false, if_false, Nat.add_zero]
      intro h
      rw [Nat.add_eq_zero_iff] at h
      rw [← h.1]
      refine List.countP_congr fun x hx => ?_
      have hne : x.entity ≠ team * 2 ^ 24 + (f.slot + 1) % 256 := fun heq => by
        have hlow := hf.low_le hx
        rw [heq, low_seat (Nat.mod_lt _ (by decide))] at hlow
        unfold nextSlot at hn
        omega
      simp only [nextSlot, Function.update_of_ne hne]
  · exact told_of_tally (hgrows.of_eq rfl)

theorem told_rescueTick : Told f (f.rescueTick now t) := by
  unfold Field.rescueTick
  split
  · exact told_of_kept adds_refl id
  split
  · exact told_of_kept (adds_refl.of_eq rfl) id
  split
  · exact told_of_kept adds_refl id
  · exact told_of_tally ((adds_refl.of_eq rfl).note trivial)

-- In a Fight, a team that has fallen is in the log.
def Watched (f : Field) : Prop := f.phase = .fight → f.Fallen → firstFallen f.deeds ≠ none

theorem Watched.step (h : f.Watched) (ht : Told f g) (hp : g.phase = .fight → f.phase = .fight)
    (hround : Adds (fun d => d.isFight = false) f g) : g.Watched := by
  intro hg hz
  obtain ⟨ds, hds, hnone⟩ := hround
  obtain ⟨es, hes, hfell⟩ := ht
  rw [hds, List.append_cancel_left_eq] at hes
  subst hes
  rw [hds]
  exact fallen_append hnone ((hfell hz).imp_left (h (hp hg)))

theorem not_fight_of_makes {d : Deed} (h : l.makes d) (hl : l ≠ .fight) : d.isFight = false := by
  cases d with
  | fight _ _ => cases l <;> simp_all [Label.makes]
  | _ => rfl

theorem watched_move (h : f.Watched) (hf : f.Crewed) (hm : Move now l f g) : g.Watched := by
  have hround : l ≠ .fight → Adds (fun d => d.isFight = false) f g := fun hl => by
    obtain ⟨ds, hds, hmade⟩ := adds_move hm
    exact ⟨ds, hds, fun d hd => not_fight_of_makes (hmade d hd) hl⟩
  have hphase : g.stage = f.stage → g.phase = .fight → f.phase = .fight := fun hs hp =>
    (congrArg Stage.phase hs).symm.trans hp
  cases hm with
  | hit hfalls =>
    exact h.step (@told_blows _ _ now _ (blows_hit hfalls)) (hphase stage_applyDamage)
      (hround nofun)
  | startRescue =>
    refine h.step (told_of_kept (hround nofun).grows (fallen_of_stage stage_startRescue ?_))
      (hphase stage_startRescue) (hround nofun)
    unfold Field.startRescue
    split
    · rfl
    · split <;> rfl
  | stopRescue =>
    refine h.step (told_of_kept (hround nofun).grows (fallen_of_stage stage_stopRescue ?_))
      (hphase stage_stopRescue) (hround nofun)
    unfold Field.stopRescue
    split
    · split <;> rfl
    · rfl
  | leave _ => exact h.step told_leave id (hround nofun)
  | join _ _ _ hlt _ =>
    refine h.step (told_join hf hlt) (fun hp => ?_) (hround nofun)
    exact (congrArg Stage.phase stage_join).symm.trans hp
  | setup hu _ =>
    intro hp
    exact absurd (hu.phase.symm.trans hp) (by decide)
  | begin_ _ => exact fun hp => CsPhase.noConfusion hp
  | bleed => exact h.step (told_blows blows_bleed) (hphase stage_bleed) (hround nofun)
  | rescue => exact h.step told_rescueTick (hphase stage_rescueTick) (hround nofun)
  | heal _ _ _ _ =>
    exact h.step (told_of_kept (hround nofun).grows id) id (hround nofun)
  | @revive _ ph _ hcalm =>
    intro hp
    have hp' : ph = .fight := hp
    rw [hp'] at hcalm
    exact absurd hcalm (by decide)
  | bot _ _ => exact fun hp => CsPhase.noConfusion hp
  | fight _ _ =>
    intro _ hz
    change firstFallen (f.deeds ++ [.fight (f.standing localTeamID) (f.standing enemyTeamID)]) ≠ none
    rw [firstFallen_append]
    exact toll_of_zero hz
  | @score _ _ _ ph _ _ _ hph =>
    intro hp
    have hp' : ph = .fight := hp
    rcases hph with rfl | rfl <;> exact CsPhase.noConfusion hp'
  | @turn _ ph _ _ hturn =>
    refine h.step (told_of_kept (hround nofun).grows id) (fun hp => ?_) (hround nofun)
    have hp' : ph = .fight := hp
    rcases hturn.phase with ⟨-, hc⟩ | hsame | ⟨-, hend⟩
    · rw [hp'] at hc
      exact absurd hc (by decide)
    · exact hsame.symm.trans hp'
    · exact absurd (hp'.symm.trans hend) (by decide)

def Up (f : Field) (x : Member) : Prop :=
  x ∈ f.crew ∧ x.team = localTeamID ∧ f.lifeOf x.entity = .alive

-- The team that fell first in the Fight that goes on.
def FellFirst (f : Field) (team : Nat) : Prop :=
  f.phase = .fight ∧ firstFallen f.deeds = some team

instance (f : Field) (team : Nat) : Decidable (f.FellFirst team) :=
  inferInstanceAs (Decidable (_ ∧ _))

-- Once team 2 fell first, `e` is not the last of team 1.
def Outlasts (f : Field) (e : Nat) : Prop :=
  f.FellFirst enemyTeamID →
    ∃ x ∈ f.crew, x.entity ≠ e ∧ x.team = localTeamID ∧ f.lifeOf x.entity = .alive

instance (f : Field) (e : Nat) : Decidable (f.Outlasts e) :=
  inferInstanceAs (Decidable (_ → ∃ x ∈ f.crew, _))

-- A rescue that gets somebody of team 1 up now.
def Raises (f : Field) (now : Int) : Prop :=
  ∃ x ∈ f.crew, x.team = localTeamID ∧ f.lifeOf x.entity = .knocked ∧
    ∃ r ∈ f.rescues x.entity, f.lifeOf r.reviver = .alive ∧ r.completeAt ≤ now

instance (f : Field) (now : Int) : Decidable (f.Raises now) :=
  inferInstanceAs (Decidable (∃ x ∈ f.crew, _ ∧ _ ∧ ∃ r ∈ f.rescues x.entity, _))

-- After the first fall of a Fight the last of team 1 does not go, if team 2 fell, and nobody of
-- team 1 comes, if team 1 did.
structure Ordered (now : Int) (f : Field) (l : Label) : Prop where
  hit : ∀ {victim attacker dmg}, l = .hit victim attacker dmg → f.roundOver = false →
    f.Lethal victim dmg → f.Outlasts victim
  leave : ∀ {x}, x ∈ f.crew → l = .leave x.s → f.Outlasts x.entity
  join : ∀ {s}, l = .join s localTeamID → ¬ f.FellFirst localTeamID
  rescue : l = .rescue → f.FellFirst localTeamID → ¬ f.Raises now

-- Nobody of team 1 stands after team 1 fell first, and somebody after team 2 did.
structure Settled (f : Field) : Prop where
  rests : f.FellFirst localTeamID → ¬ ∃ x, f.Up x
  lasts : f.FellFirst enemyTeamID → ∃ x, f.Up x

theorem standing_local : 0 < f.standing localTeamID ↔ ∃ x, f.Up x := by
  unfold standing
  rw [if_neg fun h => absurd h.1 (by decide), Nat.add_zero, List.countP_pos_iff]
  simp only [Bool.and_eq_true, beq_iff_eq, Up]

-- What gets nobody of team 1 up after its fall, nor the last of it down after that of team 2.
structure Steady (f g : Field) : Prop where
  phase : g.phase = .fight → f.phase = .fight
  rests : f.FellFirst localTeamID → ∀ x, g.Up x → ∃ y, f.Up y
  lasts : f.FellFirst enemyTeamID → ∀ x, f.Up x → ∃ y, g.Up y

theorem steady_of_eq (hc : g.crew = f.crew) (hp : g.phase = f.phase) (hl : g.life = f.life) :
    Steady f g := by
  have hup : ∀ x, g.Up x ↔ f.Up x := fun x => by
    unfold Up lifeOf
    rw [hc, hl]
  exact ⟨fun h => hp ▸ h, fun _ x hx => ⟨x, (hup x).mp hx⟩, fun _ x hx => ⟨x, (hup x).mpr hx⟩⟩

theorem steady_of_stage (hs : g.stage = f.stage) (hl : g.life = f.life) : Steady f g :=
  steady_of_eq (congrArg Stage.crew hs) (congrArg Stage.phase hs) hl

theorem steady_of_down {st : LifeState} (hs : g.stage = f.stage)
    (hl : g.life = Function.update f.life e (some st)) (hst : st ≠ .alive)
    (hlast : f.FellFirst enemyTeamID → ∀ x, f.Up x → ∃ y, f.Up y ∧ y.entity ≠ e) : Steady f g := by
  have hc : g.crew = f.crew := congrArg Stage.crew hs
  have hlife : ∀ a, a ≠ e → g.lifeOf a = f.lifeOf a := fun a ha => by
    unfold lifeOf
    rw [hl, Function.update_of_ne ha]
  refine ⟨fun h => (congrArg Stage.phase hs).symm.trans h, fun _ x hx => ⟨x, hc ▸ hx.1, hx.2.1, ?_⟩,
    fun hfell x hx => ?_⟩
  · rw [← hlife]
    · exact hx.2.2
    · intro he
      refine hst ?_
      have halive := hx.2.2
      unfold lifeOf at halive
      rwa [hl, he, Function.update_self] at halive
  · obtain ⟨y, hy, hne⟩ := hlast hfell x hx
    exact ⟨y, hc ▸ hy.1, hy.2.1, (hlife _ hne).trans hy.2.2⟩

theorem firstFallen_kept (ha : Adds (fun d => d.counts = false) f g) :
    firstFallen g.deeds = firstFallen f.deeds := by
  obtain ⟨ds, hds, hkept⟩ := ha
  rw [hds]
  clear hds
  induction ds using List.reverseRecOn with
  | nil => rw [List.append_nil]
  | append_singleton ds d ih =>
    rw [← List.append_assoc, firstFallen_append, List.foldl_cons, List.foldl_nil,
      ih fun x hx => hkept x (List.mem_append_left _ hx)]
    exact fell_of_kept (hkept d (by simp)) _

theorem Settled.kept (h : f.Settled) (ha : Adds (fun d => d.counts = false) f g)
    (hs : Steady f g) : g.Settled := by
  have hfell : ∀ {t}, g.FellFirst t → f.FellFirst t := fun hg =>
    ⟨hs.phase hg.1, (firstFallen_kept ha).symm.trans hg.2⟩
  refine ⟨fun hg ⟨x, hx⟩ => h.rests (hfell hg) (hs.rests (hfell hg) x hx), fun hg => ?_⟩
  obtain ⟨x, hx⟩ := h.lasts (hfell hg)
  exact hs.lasts (hfell hg) x hx

theorem Settled.tally (h : f.Settled) (ha : Adds (fun d => d.counts = false) f g)
    (hs : Steady f g) : g.tally.Settled := by
  have hfirst : firstFallen g.tally.deeds = fell (firstFallen f.deeds)
      (.standing (g.standing localTeamID) (g.standing enemyTeamID)) := by
    rw [← firstFallen_kept ha]
    exact firstFallen_append _ _
  cases hf : firstFallen f.deeds with
  | none =>
    rw [hf] at hfirst
    refine ⟨fun hg hup => ?_, fun hg => ?_⟩
    · exact absurd (toll_local (hfirst.symm.trans hg.2)) (standing_local.mpr hup).ne'
    · exact standing_local.mp (toll_enemy (hfirst.symm.trans hg.2))
  | some t =>
    rw [hf] at hfirst
    have hfell : ∀ {t}, g.tally.FellFirst t → f.FellFirst t := fun hg =>
      ⟨hs.phase hg.1, hf.trans (hfirst.symm.trans hg.2)⟩
    refine ⟨fun hg ⟨x, hx⟩ => h.rests (hfell hg) (hs.rests (hfell hg) x hx), fun hg => ?_⟩
    obtain ⟨x, hx⟩ := h.lasts (hfell hg)
    exact hs.lasts (hfell hg) x hx

theorem settled_finalize (h : f.Settled) (he : ∀ x, f.Up x → x.entity ≠ e) :
    (f.finalize e ks).Settled := by
  refine Settled.tally h ((adds_credit (fun _ _ => rfl) fun _ _ _ => rfl).of_eq rfl)
    (steady_of_down (e := e) stage_credit ?_ (by decide : LifeState.dead ≠ .alive)
      fun _ x hx => ⟨x, hx, he x hx⟩)
  exact congrArg (fun life => Function.update life e (some LifeState.dead)) credit_life

theorem settled_wipe {order : List Nat} {team : Nat} (h : f.Settled) :
    (order.foldl (finalizeFallen team) f).Settled := by
  induction order generalizing f with
  | nil => exact h
  | cons e order ih =>
    refine ih ?_
    unfold finalizeFallen
    split
    · split
      · rename_i hdown
        refine settled_finalize h fun x hx he => ?_
        exact LifeState.noConfusion (hdown.2.symm.trans (he ▸ hx.2.2))
      · exact h
    · exact h

theorem adds_fatal : Adds (fun d => d.counts = false) f (f.fatal victim attacker dmg) :=
  Adds.note (Adds.after (adds_creditDamage fun _ _ _ => rfl) rfl) rfl

theorem settled_blow (h : f.Settled) (hf : f.Lives) (hc : Ordered now f l) (hb : Blow now l f g) :
    g.Settled := by
  have hlast : ∀ {victim attacker dmg cur}, l = .hit victim attacker dmg → f.roundOver = false →
      f.lifeOf victim = .alive → f.hp victim = some cur → 0 < cur → cur ≤ dmg →
      f.FellFirst enemyTeamID → ∀ x, f.Up x → ∃ y, f.Up y ∧ y.entity ≠ victim := by
    intro victim attacker dmg cur hl hover halive hcur hpos hle hfell _ _
    obtain ⟨y, hy, hne, hteam, hup⟩ := hc.hit hl hover ⟨halive, cur, hcur, hpos, hle⟩ hfell
    exact ⟨y, ⟨hy, hteam, hup⟩, hne⟩
  have hdown : ∀ {a}, f.lifeOf a = .knocked → ∀ x, f.Up x → x.entity ≠ a := fun ha x hx he => by
    exact LifeState.noConfusion (ha.symm.trans (he ▸ hx.2.2))
  cases hb with
  | hurt _ _ _ _ =>
    exact h.kept (Adds.after (adds_creditDamage fun _ _ _ => rfl) rfl)
      (steady_of_stage stage_creditDamage (by simp))
  | @slain _ victim attacker dmg cur hover halive hcur hpos hle _ =>
    refine Settled.tally h (g := { (f.fatal victim attacker dmg).credit victim attacker with
      life := Function.update ((f.fatal victim attacker dmg).credit victim attacker).life victim
        (some .dead)
      hp := Function.update ((f.fatal victim attacker dmg).credit victim attacker).hp victim
        (some 0) }) ?_ ?_
    · exact (adds_fatal.trans (adds_credit (fun _ _ => rfl) fun _ _ _ => rfl)).of_eq rfl
    · exact steady_of_down (stage_credit.trans stage_fatal) (by simp)
        (by decide : LifeState.dead ≠ .alive) (hlast rfl hover halive hcur hpos hle)
  | @downed _ victim attacker dmg cur ks hover halive hcur hpos hle _ _ _ =>
    refine Settled.tally h (g := { f.fatal victim attacker dmg with
      life := Function.update (f.fatal victim attacker dmg).life victim (some .knocked)
      knock := Function.update (f.fatal victim attacker dmg).knock victim (some ks)
      hp := Function.update (f.fatal victim attacker dmg).hp victim (some knockdownHP) })
      (adds_fatal.of_eq rfl) ?_
    exact steady_of_down stage_fatal (by simp) (by decide : LifeState.knocked ≠ .alive)
      (hlast rfl hover halive hcur hpos hle)
  | drained _ _ _ _ =>
    exact h.kept ((adds_creditDamage fun _ _ _ => rfl).of_eq rfl)
      (steady_of_stage stage_creditDamage (by simp))
  | finished _ hlife _ _ =>
    refine settled_finalize (h.kept (adds_creditDamage fun _ _ _ => rfl)
      (steady_of_stage stage_creditDamage (by simp))) fun x hx => hdown hlife x ?_
    unfold Up lifeOf at hx ⊢
    rwa [creditDamage_life, show (f.creditDamage _ _ _).crew = f.crew from
      congrArg Stage.crew stage_creditDamage] at hx
  | wiped _ _ hlife _ => exact settled_finalize h (hdown hlife)
  | bled _ _ => exact h.kept (adds_refl.of_eq rfl) (steady_of_stage rfl rfl)
  | bledOut hk _ _ =>
    refine settled_finalize h fun x hx he => ?_
    rcases (hf.at_ _).bleeding hk with hghost | ⟨-, -, hlife, -⟩
    · exact hghost.out (he ▸ takes_crew hx.1)
    · exact hdown (by simp [lifeOf, hlife]) x hx he

theorem settled_hit (h : f.Settled) (hf : f.Lives)
    (hc : Ordered now f (.hit victim attacker dmg)) (hfalls : f.Falls victim attacker ks order) :
    (f.applyDamage victim attacker dmg ks order).Settled := by
  rcases @struck_hit _ _ _ dmg _ _ now hfalls with heq | ⟨k, hb, heq | ⟨-, heq⟩⟩
  · rwa [heq]
  · rw [heq]
    exact settled_blow h hf hc hb
  · rw [heq]
    exact settled_wipe (settled_blow h hf hc hb)

theorem settled_leave {x : Member} (h : f.Settled) (hf : f.Crewed) (hx : x ∈ f.crew)
    (hlast : f.Outlasts x.entity) : (f.leave x.s x.entity).Settled := by
  have hlife : ∀ y : Member, y.entity ≠ x.entity →
      (f.leave x.s x.entity).lifeOf y.entity = f.lifeOf y.entity := fun y hy =>
    congrArg (fun o : Option LifeState => o.getD .alive) (Function.update_of_ne hy ..)
  have hmem : ∀ y, y ∈ (f.leave x.s x.entity).crew ↔ y ∈ f.crew ∧ y.s ≠ x.s := fun y => by
    simp [leave, tally, note]
  refine Settled.tally h (g := { f with
      crew := f.crew.filter fun y => decide (y.s ≠ x.s)
      hp := Function.update f.hp x.entity none
      life := Function.update f.life x.entity none
      knock := Function.update f.knock x.entity none }) (adds_refl.of_eq rfl)
    ⟨id, fun _ y hy => ?_, fun hfell _ _ => ?_⟩
  · obtain ⟨hin, hne⟩ := (hmem y).mp hy.1
    refine ⟨y, hin, hy.2.1, (hlife y fun he => hne ?_).symm.trans hy.2.2⟩
    rw [hf.entity_inj hin hx he]
  · obtain ⟨y, hy, hne, hteam, hup⟩ := hlast hfell
    refine ⟨y, (hmem y).mpr ⟨hy, fun hs => hne ?_⟩, hteam, (hlife y hne).trans hup⟩
    rw [hf.session_inj hy hx hs]

theorem settled_join {s : SessionId} {team : Nat} (h : f.Settled) (hf : f.Crewed)
    (hlt : f.slot + 1 < 256) (hteam : team = 1 ∨ team = 2)
    (hc : Ordered now f (.join s team)) : (f.join s team).Settled := by
  have hn := nextSlot_eq hlt
  have hold : ∀ x ∈ f.crew, (f.join s team).lifeOf x.entity = f.lifeOf x.entity := by
    intro x hx
    have hnew : x.entity ≠ team * 2 ^ 24 + f.nextSlot := fun he => by
      have hlow := hf.low_le hx
      rw [he, low_seat (by omega)] at hlow
      omega
    have hbot : x.entity ≠ f.bot ∨ f.bot = 0 := by
      by_cases hz : f.bot = 0
      · exact Or.inr hz
      · exact Or.inl fun he => hf.entity_ne_bot hx (he.trans (hf.bot_eq hz))
    unfold lifeOf
    rw [(body_join (s := s) hnew hbot).1]
  have hs : Steady f (f.join s team) := by
    refine ⟨fun hp => (congrArg Stage.phase stage_join).symm.trans hp, fun hfell x hx => ?_,
      fun _ x hx => ⟨x, ?_, hx.2.1, (hold x hx.1).trans hx.2.2⟩⟩
    · obtain ⟨hin, hx1, hup⟩ := hx
      rw [crew_join] at hin
      rcases List.mem_append.mp hin with hin | hin
      · exact ⟨x, hin, hx1, (hold x hin).symm.trans hup⟩
      · rw [List.mem_singleton.mp hin] at hx1
        rcases hteam with rfl | rfl
        · exact absurd hfell (hc.join rfl)
        · exact absurd (show enemyTeamID = localTeamID from hx1) (by decide)
    · rw [crew_join]
      exact List.mem_append_left _ hx.1
  have hseat : Adds (fun d => d.counts = false) f (((f.enlist s team).raise
      (team * 2 ^ 24 + f.nextSlot)).note (.seated (team * 2 ^ 24 + f.nextSlot))) :=
    adds_one rfl rfl
  revert hs
  unfold Field.join retireBot
  split
  · exact fun hs => h.kept hseat hs
  · intro hs
    exact Settled.tally h (hseat.of_eq rfl) ⟨hs.phase, hs.rests, hs.lasts⟩

theorem settled_rescueTick (h : f.Settled) (hf : f.Lives) (hc : Ordered now f .rescue) :
    (f.rescueTick now t).Settled := by
  unfold Field.rescueTick
  split
  · exact h
  rename_i r hr
  split
  · exact h.kept (adds_refl.of_eq rfl) (steady_of_eq rfl rfl rfl)
  rename_i hboth
  split
  · exact h
  rename_i hdue
  rw [not_or, not_not, not_not] at hboth
  have htarget := hf.targets t r hr
  refine Settled.tally h (g := { f with
      rescues := Function.update f.rescues t none
      life := Function.update f.life r.target (some .alive)
      hp := Function.update f.hp r.target (some reviveHP)
      knock := Function.update f.knock r.target none }.note (.rescued r.target r.reviver))
    (adds_one rfl rfl) ⟨id, fun hfell x hx => ?_, fun _ x hx => ⟨x, hx.1, hx.2.1, ?_⟩⟩
  · refine ⟨x, hx.1, hx.2.1, ?_⟩
    by_cases he : x.entity = r.target
    · refine absurd ⟨x, hx.1, hx.2.1, ?_, r, ?_, hboth.2, not_lt.mp hdue⟩ (hc.rescue rfl hfell)
      · rw [he, htarget]
        exact hboth.1
      · rw [he, htarget]
        exact hr
    · have hup := hx.2.2
      unfold lifeOf at hup ⊢
      exact (congrArg (fun o : Option LifeState => o.getD .alive)
        (Function.update_of_ne he ..)).symm.trans hup
  · by_cases he : x.entity = r.target
    · exact congrArg (fun o : Option LifeState => o.getD .alive)
        ((congrArg _ he).trans (Function.update_self ..))
    · exact (congrArg (fun o : Option LifeState => o.getD .alive)
        (Function.update_of_ne he ..)).trans hx.2.2

theorem settled_off (hp : f.phase ≠ .fight) : f.Settled :=
  ⟨fun hg => absurd hg.1 hp, fun hg => absurd hg.1 hp⟩

theorem settled_move (h : f.Settled) (hf : f.Lives) (hc : Ordered now f l) (hm : Move now l f g) :
    g.Settled := by
  cases hm with
  | hit hfalls => exact settled_hit h hf hc hfalls
  | startRescue =>
    unfold Field.startRescue
    split
    · exact h
    · split
      · exact h
      · exact h.kept (adds_refl.of_eq rfl) (steady_of_eq rfl rfl rfl)
  | stopRescue =>
    unfold Field.stopRescue
    split
    · split
      · exact h.kept (adds_refl.of_eq rfl) (steady_of_eq rfl rfl rfl)
      · exact h
    · exact h
  | leave hx => exact settled_leave h hf.crewed hx (hc.leave hx rfl)
  | join _ hteam _ hlt _ => exact settled_join h hf.crewed hlt hteam hc
  | setup hu _ => exact settled_off fun hp => absurd (hu.phase.symm.trans hp) (by decide)
  | begin_ _ => exact settled_off nofun
  | bleed =>
    refine ((@blows_bleed _ _ now).invariant (I := fun g => g.Settled ∧ g.Lives) ⟨h, hf⟩
      fun hi hb => ?_).1
    have hc : ∀ f : Field, Ordered now f .bleed := fun f =>
      ⟨fun hl => Label.noConfusion hl, fun _ hl => Label.noConfusion hl,
        fun hl => Label.noConfusion hl, fun hl => Label.noConfusion hl⟩
    exact ⟨settled_blow hi.1 hi.2 (hc _) hb, lives_blow hi.2 hb⟩
  | rescue => exact settled_rescueTick h hf hc
  | heal _ _ _ _ => exact h.kept (adds_refl.of_eq rfl) (steady_of_eq rfl rfl rfl)
  | @revive _ ph _ hcalm =>
    refine settled_off fun hp => ?_
    rw [show ph = .fight from hp] at hcalm
    exact absurd hcalm (by decide)
  | bot _ _ => exact settled_off nofun
  | @fight _ zone _ _ =>
    have hfirst : firstFallen (f.startFight zone).deeds =
        toll (f.standing localTeamID) (f.standing enemyTeamID) := firstFallen_append _ _
    refine ⟨fun hg hup => ?_, fun hg => ?_⟩
    · exact absurd (toll_local (hfirst.symm.trans hg.2)) (standing_local.mpr hup).ne'
    · exact standing_local.mp (toll_enemy (hfirst.symm.trans hg.2))
  | @score _ _ _ ph _ _ _ hph =>
    refine settled_off fun hp => ?_
    have hp' : ph = .fight := hp
    rcases hph with rfl | rfl <;> exact CsPhase.noConfusion hp'
  | @turn _ ph _ ds hturn =>
    have hkept : ∀ d ∈ ds, d.counts = false := fun d hd => by
      rcases hturn.deeds with rfl | rfl | ⟨r, rfl⟩
      · exact absurd hd List.not_mem_nil
      all_goals
        rw [List.mem_singleton.mp hd]
        rfl
    refine h.kept ⟨ds, rfl, hkept⟩ ⟨fun hp => ?_, fun _ x hx => ⟨x, hx⟩, fun _ x hx => ⟨x, hx⟩⟩
    have hp' : ph = .fight := hp
    rcases hturn.phase with ⟨-, hcalm⟩ | hsame | ⟨-, hend⟩
    · rw [hp'] at hcalm
      exact absurd hcalm (by decide)
    · exact hsame.symm.trans hp'
    · exact absurd (hp'.symm.trans hend) (by decide)

theorem not_scored_of_makes {d : Deed} (h : l.makes d) (hl : l ≠ .score) (pre : List Deed) :
    Awarded pre d := by
  cases d with
  | scored _ _ => cases l <;> simp_all [Label.makes]
  | _ => trivial

end Field

namespace Core

-- In this tick the zone, the sweep and the rescues leave the first fall of a Fight as it was.
def Abides (w : World) (c : Core) (m : MatchRef) : Prop :=
  (∀ k < ((c.beforeZone w m).ms m).players.length, ∀ p ∈ ((c.beforeZone w m).ms m).players[k]?,
    (c.beforeZone w m).ZoneStrikes w m k p →
      (((c.beforeZone w m).zoneAt w m k).field m).Lethal ((c.beforeZone w m).ss p).entityID
        w.zoneDamage →
      (((c.beforeZone w m).zoneAt w m k).field m).Outlasts ((c.beforeZone w m).ss p).entityID) ∧
    (∀ p ∈ (c.ms m).players.find? fun p => decide ((c.beforeSweep w m).lapsed p),
      ((c.beforeSweep w m).field m).Outlasts (c.ss p).entityID) ∧
    ∀ k < ((c.beforeRescue w m).rescuing m).length,
      (((c.beforeRescue w m).rescueAt m k).field m).FellFirst localTeamID →
        ¬ (((c.beforeRescue w m).rescueAt m k).field m).Raises c.now

instance (w : World) (c : Core) (m : MatchRef) : Decidable (c.Abides w m) :=
  inferInstanceAs (Decidable ((∀ k < _, ∀ p ∈ ((c.beforeZone w m).ms m).players[k]?, _) ∧
    (∀ p ∈ List.find? _ (c.ms m).players, _) ∧ ∀ k < _, _))

end Core

namespace Server

variable {w : World} {v : Server} {e : Event} {m : MatchRef} {f g : Field} {l : Label}
  {es : List Event}

-- Between the first fall of a Fight and the tick that ends it: once team 2 fell, neither a report
-- nor the zone takes down the last of team 1, and he neither quits nor is swept; once team 1 fell,
-- nobody joins it and no rescue gets somebody of it up.
def Sequential (w : World) (v : Server) (e : Event) : Prop :=
  v.JoinsOnce e ∧
    (∀ x ∈ v.handles e.act .takeDamage, ∀ req ∈ parseTakeDamage x.2.1.payload,
      (v.core.ms x.2.2).roundOver = false → (v.core.field x.2.2).Lethal req.victim req.dmg →
        (v.core.field x.2.2).Outlasts req.victim) ∧
    (∀ x ∈ v.handles e.act .playerQuitReq, x.1 ∈ (v.core.ms x.2.2).players →
      (v.core.field x.2.2).Outlasts (v.core.ss x.1).entityID) ∧
    (∀ x ∈ v.sitsDown e.act, v.core.joinTeam x.1 x.2 = localTeamID →
      ¬ (v.core.field x.2).FellFirst localTeamID) ∧
    ∀ m ∈ e.act.ticked, (v.core.atMoment e.moment (some m)).Abides w m

instance (w : World) (v : Server) (e : Event) : Decidable (v.Sequential w e) :=
  inferInstanceAs (Decidable (_ ∧ (∀ x ∈ v.handles e.act .takeDamage,
      ∀ req ∈ parseTakeDamage x.2.1.payload, _) ∧
    (∀ x ∈ v.handles e.act .playerQuitReq, _ ∈ _ → _) ∧ (∀ x ∈ v.sitsDown e.act, _) ∧
    ∀ m ∈ e.act.ticked, _))

theorem ordered_of_sequential (hc : v.Sequential w e) (hwhy : Why w v e m f l) (hf : f.Crewed) :
    Field.Ordered e.moment.now f l := by
  obtain ⟨-, hreport, hquit, hsits, htick⟩ := hc
  have hent : ∀ {c : Core} {s : SessionId} {x : Member}, c.member s ∈ f.crew → x ∈ f.crew →
      s = x.s → x.entity = (c.ss s).entityID := fun {c s x} hs hx he => by
    rw [hf.session_inj hx hs he.symm]
    rfl
  refine ⟨fun {victim attacker dmg} hl hover hlethal => ?_, fun {x} hx hl => ?_, fun {s} hl => ?_,
    fun hl hfell => ?_⟩
  · subst hl
    cases hwhy with
    | handler hr _ hl =>
      cases hl with
      | report hcmd hreq hm =>
        exact hreport _ (handles_of_routed hr hcmd hm) _ hreq hover hlethal
    | tick hact _ hl =>
      cases hl with
      | clock hl _ => exact Bool.noConfusion hl
      | @zone k p hstrikes =>
        have hk : k < _ := (List.getElem?_eq_some_iff.mp hstrikes.1).choose
        exact (htick m (by rw [hact]; rfl)).1 k hk p hstrikes.1 hstrikes hlethal
  · subst hl
    cases hwhy with
    | handler hr _ hl =>
      generalize hs : x.s = s at hl
      cases hl with
      | quit hcmd hm hin =>
        rw [hent (List.mem_map_of_mem hin) hx hs.symm]
        exact hquit _ (handles_of_routed hr hcmd hm) hin
    | tick hact _ hl =>
      generalize hs : x.s = s at hl
      cases hl with
      | clock hl _ => exact Bool.noConfusion hl
      | sweep hp =>
        have hk := @keeps_beforeSweep w (v.core.atMoment e.moment (some m)) m
        have hin := List.mem_of_find?_eq_some hp
        rw [← players_of_keeps hk (by decide)] at hin
        rw [hent (List.mem_map_of_mem hin) hx hs.symm, entityID_of_keeps hk (by decide)]
        exact (htick m (by rw [hact]; rfl)).2.1 s hp
  · generalize hteam : localTeamID = team at hl
    subst hl
    cases hwhy with
    | handler _ _ hl => cases hl
    | join hact _ hm =>
      rw [← hteam]
      refine hsits (s, m) ?_ hteam.symm
      rw [hact]
      simp [sitsDown, hm]
    | tick _ _ hl =>
      cases hl with
      | clock hl _ => exact Bool.noConfusion hl
  · subst hl
    cases hwhy with
    | handler _ _ hl => cases hl
    | tick hact _ hl =>
      cases hl with
      | clock hl _ => exact Bool.noConfusion hl
      | rescue hk => exact (htick m (by rw [hact]; rfl)).2.2 _ hk hfell

structure Judged (f : Field) : Prop where
  lives : f.Lives
  watched : f.Watched
  settled : f.Settled
  awarded : Each Awarded f.deeds

theorem judged_step (hc : v.Sequential w e) (hwhy : Why w v e m f l)
    (hup : l ≠ .setup → l ≠ .begin_ → f.begun = true) (h : Judged f)
    (hm : Field.Move e.moment.now l f g) : Judged g := by
  refine ⟨Field.lives_move h.lives hm hup, Field.watched_move h.watched h.lives.crewed hm,
    Field.settled_move h.settled h.lives (ordered_of_sequential hc hwhy h.lives.crewed) hm, ?_⟩
  by_cases hl : l = .score
  · subst hl
    cases hm with
    | @score _ r winner ph hp hz hw _ =>
      obtain ⟨t, ht⟩ := Option.ne_none_iff_exists'.mp (h.watched hp hz)
      refine each_snoc.mpr ⟨h.awarded, t, ht, fun h1 => ?_, fun h2 => ?_⟩
      · rw [hw, if_neg fun hpos =>
          h.settled.rests ⟨hp, h1 ▸ ht⟩ (Field.standing_local.mp hpos)]
      · rw [hw, if_pos (Field.standing_local.mpr (h.settled.lasts ⟨hp, h2 ▸ ht⟩))]
  · obtain ⟨ds, hds, hmade⟩ := Field.adds_move hm
    rw [hds]
    refine each_append h.awarded fun pre d post hd => ?_
    exact Field.not_scored_of_makes (hmade d (by rw [hd]; simp)) hl _

-- Every round goes to the team other than the one that fell first.
theorem rounds_awarded (h : Run (Guarded (Step w) (Sequential w)) start es v) (m : MatchRef) :
    Each Awarded (v.core.ms m).deeds := by
  refine (field_invariant (I := Judged) h (fun _ _ hc => hc.1) (fun f hu => ?_)
    (fun _ hc _ hwhy _ hup hf hm => judged_step hc hwhy hup hf hm) m).awarded
  have hp : f.phase ≠ .fight := fun hp => absurd (hu.phase.symm.trans hp) (by decide)
  exact ⟨Field.lives_untouched hu, fun hfight => absurd hfight hp, Field.settled_off hp, by
    rw [hu.deeds]
    exact each_nil⟩

-- One against one, up to the first Fight.
def faceOff : List Event := opens 1 0 0 join ++ joins 2 1 0 join ++ toFight 0

-- Player 0 is killed, and before the tick the dead player's report kills player 1: team 2 fell last
-- and wins.
def revenge : List Event :=
  faceOff ++ sends 18000000001 1 0 (damageReport 0x01000001 0x02000003 200) ++
    sends 18000000002 0 0 (damageReport 0x02000003 0x01000001 200)

theorem revenge_is_awarded : ∃ v, Run (Guarded (Step bareWorld) (Sequential bareWorld)) start
      (revenge ++ [event 19000000000 (.tick 0)]) v ∧
    .scored 1 enemyTeamID ∈ (v.core.ms 0).deeds ∧ Each Awarded (v.core.ms 0).deeds := by
  have hrun : (((revenge ++ [event 19000000000 (.tick 0)]).foldlM
      (fun v e => if Sequential bareWorld v e then step bareWorld v e else none) start).map
      fun v => decide (.scored 1 enemyTeamID ∈ (v.core.ms 0).deeds)) = some true := by
    decide +kernel
  obtain ⟨v, hv, hd⟩ := Option.map_eq_some_iff.mp hrun
  exact ⟨v, run_of_checked hv, of_decide_eq_true hd, rounds_awarded (run_of_checked hv) 0⟩

-- The other way round: team 2 fell first, and wins all the same.
theorem second_fall_wins : ¬ ∀ w es v m, Run (Step w) start es v →
    Each Awarded (v.core.ms m).deeds := by
  intro hall
  have hrun : (((faceOff ++ sends 18000000001 0 0 (damageReport 0x02000003 0x01000001 200) ++
      sends 18000000002 1 0 (damageReport 0x01000001 0x02000003 200) ++
      [event 19000000000 (.tick 0)]).foldlM (step bareWorld) start).map
      fun v => ((v.core.ms 0).deeds.getLast?, firstFallen (v.core.ms 0).deeds.dropLast)) =
      some (some (.scored 1 enemyTeamID), some enemyTeamID) := by
    decide +kernel
  obtain ⟨v, hv, hd⟩ := Option.map_eq_some_iff.mp hrun
  obtain ⟨hlast, hfirst⟩ := Prod.mk.inj hd
  have hall' := hall bareWorld _ v 0 (run_of_foldlM hv)
  rw [← List.dropLast_append_getLast? _ hlast] at hall'
  obtain ⟨t, ht, -, htwo⟩ := (each_snoc.mp hall').2
  obtain rfl : enemyTeamID = t := Option.some.inj (hfirst.symm.trans ht)
  exact absurd (htwo rfl) (by decide)

end Server

end MatchServer

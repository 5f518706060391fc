import Madoka.MatchServer.Tidy

namespace MatchServer

open Lib MatchServer.Core

def Match.rescueDue (g : Match) (now : Int) : Bool :=
  g.rescues.entries.any fun x => decide (x.2.completeAt ≤ now)

theorem completeAt_of_rescueDue {g : Match} {now : Int} {t : Nat} {r : RescueState}
    (h : g.rescueDue now = false) (hr : g.rescues.lookup t = some r) : ¬ r.completeAt ≤ now := by
  have hm := AList.mem_lookup_iff.mp hr
  have hall := List.any_eq_false.mp h _ hm
  simpa using hall

namespace Field

structure Vital (f : Field) : Prop where
  alive : ∀ e, f.Takes e → f.lifeOf e = .alive →
    f.knock e = none ∧ ∃ n, f.hp e = some n ∧ 0 < n ∧ n ≤ f.maxHP
  knocked : ∀ e, f.Takes e → f.lifeOf e = .knocked →
    ∃ ks, f.knock e = some ks ∧ 0 < ks.hp ∧ ks.hp ≤ knockdownHP ∧ f.hp e = some ks.hp
  dead : ∀ e, f.Takes e → f.lifeOf e = .dead →
    f.hp e = some 0 ∧ f.knock e = none ∧ f.rescues e = none

-- Nobody but a KNOCKED participant has a record.
def Cleared (f : Field) : Prop :=
  ∀ e, f.knock e ≠ none ∨ f.rescues e ≠ none → f.Takes e ∧ f.lifeOf e = .knocked

structure Sane (f : Field) : Prop where
  lives : f.Lives
  cap : f.begun = true → 0 < f.maxHP ∧ f.maxHP + maxEP < 65536
  fit : ∀ e n, f.life e = some .alive → f.hp e = some n → 0 < n ∧ n ≤ f.maxHP
  out : ∀ e, ¬ f.Takes e → f.life e = none ∧ f.hp e = none ∧ f.knock e = none

variable {f g : Field} {victim attacker dmg e a t : Nat} {ks : KnockState} {order : List Nat}
  {now : Int} {l : Label} {cur n : Nat}

theorem Sane.tidy (h : f.Sane) : f.Tidy := ⟨h.lives, h.out⟩

theorem Sane.standing_at (h : f.Sane) (ht : f.Takes e) (hb : f.begun = true)
    (hl : f.lifeOf e = .alive) :
    f.life e = some .alive ∧ f.knock e = none ∧ ∃ n, f.hp e = some n := by
  cases h.lives.at_ e with
  | ghost hg => exact absurd ht hg.out
  | away h1 _ _ _ _ => exact absurd ht (h1 hb)
  | alive _ _ h3 h4 h5 _ => exact ⟨h3, h5, _, h4⟩
  | knocked _ _ h3 _ _ _ _ => simp [lifeOf, h3] at hl
  | dead _ _ h3 _ _ _ => simp [lifeOf, h3] at hl

theorem Sane.vital (h : f.Sane) (hb : f.begun = true) : f.Vital where
  alive := fun e ht hl => by
    obtain ⟨h1, h2, n, h3⟩ := h.standing_at ht hb hl
    exact ⟨h2, n, h3, h.fit e n h1 h3⟩
  knocked := fun e ht hl => by
    cases h.lives.at_ e with
    | ghost hg => exact absurd ht hg.out
    | away h1 _ _ _ _ => exact absurd ht (h1 hb)
    | alive _ _ h3 _ _ _ => simp [lifeOf, h3] at hl
    | knocked _ _ _ h4 h5 h6 h7 => exact ⟨_, h4, h5, h6, h7⟩
    | dead _ _ h3 _ _ _ => simp [lifeOf, h3] at hl
  dead := fun e ht hl => by
    cases h.lives.at_ e with
    | ghost hg => exact absurd ht hg.out
    | away h1 _ _ _ _ => exact absurd ht (h1 hb)
    | alive _ _ h3 _ _ _ => simp [lifeOf, h3] at hl
    | knocked _ _ h3 _ _ _ _ => simp [lifeOf, h3] at hl
    | dead _ _ _ h4 h5 h6 => exact ⟨h4, h5, h6⟩

theorem Sane.single (h : f.Sane) (a : Nat) (hg : g.Tidy) (hs : g.stage = f.stage)
    (hoff : ∀ e, e ≠ a → g.life e = f.life e ∧ g.hp e = f.hp e)
    (hfit : ∀ n, g.life a = some .alive → g.hp a = some n → 0 < n ∧ n ≤ f.maxHP) : g.Sane := by
  have hmax : g.maxHP = f.maxHP := congrArg Stage.maxHP hs
  refine ⟨hg.lives, ?_, fun e n hl hn => ?_, hg.out⟩
  · rw [begun_of_stage hs, hmax]
    exact h.cap
  · rw [hmax]
    by_cases hea : e = a
    · exact hfit n (hea ▸ hl) (hea ▸ hn)
    · obtain ⟨h1, h2⟩ := hoff e hea
      exact h.fit e n (h1 ▸ hl) (h2 ▸ hn)

theorem Sane.finalize (h : f.Sane) (hk : f.knock e = some ks) : (f.finalize e ks).Sane :=
  h.single e (h.tidy.finalize hk) stage_finalize
    (fun a ha => by simp [Function.update_of_ne ha]) fun n hl => by simp at hl

theorem Sane.creditDamage (h : f.Sane) : (f.creditDamage victim attacker dmg).Sane where
  lives := h.lives.creditDamage
  cap := by
    rw [begun_of_stage stage_creditDamage,
      show (f.creditDamage victim attacker dmg).maxHP = f.maxHP from
        congrArg Stage.maxHP stage_creditDamage]
    exact h.cap
  fit := by
    rw [creditDamage_life, creditDamage_hp,
      show (f.creditDamage victim attacker dmg).maxHP = f.maxHP from
        congrArg Stage.maxHP stage_creditDamage]
    exact h.fit
  out := h.tidy.creditDamage.out

theorem sane_blow (h : f.Sane) (hb : Blow now l f g) : g.Sane := by
  have hg := tidy_blow h.tidy hb
  have hs := stage_blow hb
  cases hb with
  | @hurt _ victim attacker dmg cur _ hl hh hlt =>
    refine h.single victim hg hs (fun a ha => by simp [Function.update_of_ne ha]) fun n hl' hn => ?_
    obtain rfl : cur - dmg = n := by simpa using hn
    have hfit := h.fit victim cur (by simpa using hl') hh
    omega
  | @slain _ victim _ _ _ _ _ _ _ _ _ =>
    exact h.single victim hg hs (fun a ha => by simp [Function.update_of_ne ha])
      fun n hl' => by simp at hl'
  | @downed _ victim _ _ _ _ _ _ _ _ _ _ _ _ =>
    exact h.single victim hg hs (fun a ha => by simp [Function.update_of_ne ha])
      fun n hl' => by simp at hl'
  | @drained _ victim attacker dmg ks _ hl hk _ =>
    refine h.single victim hg hs (fun a ha => by simp [Function.update_of_ne ha])
      fun n hl' => ?_
    have hlife : f.life victim = some .alive := by simpa using hl'
    simp [lifeOf, hlife] at hl
  | finished _ _ hk _ => exact h.creditDamage.finalize (by simpa using hk)
  | wiped _ hk _ _ => exact h.finalize hk
  | @bled _ e ks hk _ =>
    refine h.single e hg hs (fun a ha => by simp [Function.update_of_ne ha])
      fun n hl' => ?_
    rcases (h.lives.at_ e).bleeding hk with hgh | ⟨-, -, hl, -⟩
    · exact absurd (h.tidy.takes_of_knock hk) hgh.out
    · exact absurd (hl.symm.trans hl') (by simp)
  | bledOut hk _ _ => exact h.finalize hk

theorem rescues_of_blow (hb : Blow now l f g) : g.rescues t = f.rescues t ∨ g.rescues t = none := by
  have hfin : ∀ {f : Field} {e : Nat} {ks : KnockState}, (f.finalize e ks).rescues t = f.rescues t ∨
      (f.finalize e ks).rescues t = none := fun {f e ks} => by
    rw [finalize_rescues]
    by_cases he : t = e
    · exact Or.inr (he ▸ Function.update_self ..)
    · exact Or.inl (Function.update_of_ne he ..)
  cases hb with
  | hurt _ _ _ _ => exact Or.inl (by simp)
  | slain _ _ _ _ _ _ => exact Or.inl (by simp)
  | downed _ _ _ _ _ _ _ _ => exact Or.inl (by simp)
  | drained _ _ _ _ => exact Or.inl (by simp)
  | @finished _ victim attacker dmg ks _ _ _ _ =>
    rcases @hfin (f.creditDamage victim attacker dmg) victim ks with hr | hr
    · exact Or.inl (hr.trans (by simp))
    · exact Or.inr hr
  | wiped _ _ _ _ => exact hfin
  | bled _ _ => exact Or.inl rfl
  | bledOut _ _ _ => exact hfin

theorem rescues_of_blows (hb : Blows now l f g) {r : RescueState} (hr : g.rescues t = some r) :
    f.rescues t = some r := by
  induction hb with
  | refl => exact hr
  | tail _ hb ih =>
    rcases rescues_of_blow (t := t) hb with h | h
    · exact ih (h ▸ hr)
    · exact absurd (h.symm.trans hr) (by simp)

theorem rescues_of_update {r : RescueState} {x : Nat}
    (hr : Function.update f.rescues x none t = some r) : f.rescues t = some r := by
  by_cases he : t = x
  · rw [he, Function.update_self] at hr
    exact absurd hr (by simp)
  · rwa [Function.update_of_ne he] at hr

theorem rescues_of_move {r : RescueState} (hm : Move now l f g) (hl : ∀ a b, l ≠ .startRescue a b)
    (hr : g.rescues t = some r) : f.rescues t = some r := by
  cases hm with
  | hit hf => exact rescues_of_blows (@blows_hit _ _ _ _ _ _ now hf) hr
  | startRescue => exact absurd rfl (hl _ _)
  | @stopRescue _ reviver target =>
    unfold Field.stopRescue at hr
    split at hr
    · split at hr
      · exact rescues_of_update hr
      · exact hr
    · exact hr
  | leave _ => exact hr
  | join _ _ _ _ _ => exact (congrFun records_join.2 t).symm.trans hr
  | setup _ _ => exact hr
  | begin_ _ => exact absurd ((congrFun initHP_cleared.2 t).symm.trans hr) (by simp)
  | bleed => exact rescues_of_blows (@blows_bleed _ _ now) hr
  | rescue =>
    unfold Field.rescueTick at hr
    split at hr
    · exact hr
    split at hr
    · exact rescues_of_update hr
    split at hr
    · exact hr
    · exact rescues_of_update hr
  | heal _ _ _ _ => exact hr
  | revive _ _ => exact absurd hr (by simp [reviveAll])
  | bot _ _ => exact hr
  | fight _ _ => exact hr
  | score _ _ _ _ => exact hr
  | turn _ => exact hr

theorem maxHP_of_move (hm : Move now l f g) (hl : l ≠ .setup) : g.maxHP = f.maxHP := by
  have hs : ∀ {g : Field}, g.stage = f.stage → g.maxHP = f.maxHP := fun h => congrArg Stage.maxHP h
  cases hm with
  | hit _ => exact hs stage_applyDamage
  | startRescue => exact hs stage_startRescue
  | stopRescue => exact hs stage_stopRescue
  | leave _ => rfl
  | join _ _ _ _ _ => exact congrArg Stage.maxHP stage_join
  | setup _ _ => exact absurd rfl hl
  | begin_ _ => exact congrArg Stage.maxHP stage_initHP
  | bleed => exact hs stage_bleed
  | rescue => exact hs stage_rescueTick
  | heal _ _ _ _ => rfl
  | revive _ _ => exact congrArg Stage.maxHP (stage_reviveAll (f := f))
  | bot _ _ => rfl
  | fight _ _ => rfl
  | score _ _ _ _ => rfl
  | turn _ => rfl

theorem sane_untouched (h : f.Untouched) : f.Sane where
  lives := lives_untouched h
  cap := fun hb => absurd (h.begun.symm.trans hb) (by decide)
  fit := fun e n hl => by
    rw [h.life] at hl
    exact absurd hl (by simp)
  out := (tidy_untouched h).out

theorem Sane.frame (h : f.Sane) (hg : g.Tidy) (hb : g.begun = f.begun) (hmax : g.maxHP = f.maxHP)
    (hl : g.life = f.life) (hh : g.hp = f.hp) : g.Sane where
  lives := hg.lives
  cap := by
    rw [hb, hmax]
    exact h.cap
  fit := by
    rw [hl, hh, hmax]
    exact h.fit
  out := hg.out

theorem sane_reset {f' : Field} (hg : g.Tidy)
    (hcap : g.begun = true → 0 < g.maxHP ∧ g.maxHP + maxEP < 65536) (hb : g.begun = true)
    (hc : f'.crew = f.crew) (hbot : f'.bot = f.bot) (hmax : g.maxHP = f'.maxHP)
    (hl : g.life = (f'.crew.foldl raiseMember f').raiseBot.life)
    (hh : g.hp = (f'.crew.foldl raiseMember f').raiseBot.hp)
    (hoff : ∀ e, ¬ f.Takes e → f'.life e = none) : g.Sane := by
  have htk : ∀ e, f'.Takes e ↔ f.Takes e := fun e => takes_of_eq hc hbot
  refine ⟨hg.lives, hcap, fun e n hle hn => ?_, hg.out⟩
  by_cases hte : f.Takes e
  · obtain ⟨-, h2⟩ := (raised f' e).1 ((htk e).mpr hte)
    rw [hh, h2, Option.some.injEq] at hn
    rw [← hn, ← hmax]
    exact ⟨(hcap hb).1, Nat.le_refl _⟩
  · obtain ⟨h1, -⟩ := (raised f' e).2 fun hx => hte ((htk e).mp hx)
    rw [hl, h1, hoff e hte] at hle
    exact absurd hle (by simp)

theorem Sane.rescueTick (h : f.Sane)
    (hdue : ∀ r, f.rescues t = some r → r.completeAt ≤ now → reviveHP ≤ f.maxHP) :
    (f.rescueTick now t).Sane := by
  have hg := @Tidy.rescueTick _ t now h.tidy
  have hs := @stage_rescueTick f now t
  revert hg hs
  unfold Field.rescueTick
  split
  · exact fun _ _ => h
  rename_i r hr
  split
  · exact fun hg _ => h.frame hg rfl rfl rfl rfl
  split
  · exact fun _ _ => h
  rename_i _ hnow
  intro hg hs
  obtain rfl : r.target = t := h.lives.targets t r hr
  refine h.single r.target hg hs (fun a ha => by simp [completeRescue, Function.update_of_ne ha])
    fun n _ hn => ?_
  have hself : Function.update f.hp r.target (some reviveHP) r.target = some reviveHP :=
    Function.update_self ..
  obtain rfl : reviveHP = n := Option.some.inj (hself.symm.trans hn)
  exact ⟨by decide, hdue r hr (not_lt.mp hnow)⟩

theorem Sane.leave {x : Member} (h : f.Sane)
    (hg : (f.leave x.s x.entity).Tidy) : (f.leave x.s x.entity).Sane := by
  refine ⟨hg.lives, h.cap, fun e n hl hn => ?_, hg.out⟩
  have hne : e ≠ x.entity := fun heq => by
    have hself : Function.update f.life x.entity none x.entity = none := Function.update_self ..
    rw [heq] at hl
    exact absurd (hself.symm.trans hl) (by simp)
  have hl' : Function.update f.life x.entity none e = some .alive := hl
  have hn' : Function.update f.hp x.entity none e = some n := hn
  rw [Function.update_of_ne hne] at hl' hn'
  exact h.fit e n hl' hn'

theorem Sane.join {s : SessionId} {team : Nat} (h : f.Sane) (hg : (f.join s team).Tidy)
    (htwo : 2 ≤ f.slot) (hlt : f.slot + 1 < 256) (hb : f.begun = true) : (f.join s team).Sane := by
  have hn := nextSlot_eq hlt
  have hmax : (f.join s team).maxHP = f.maxHP := congrArg Stage.maxHP stage_join
  have hbegun : (f.join s team).begun = f.begun := congrArg Stage.begun stage_join
  have hseat : team * 2 ^ 24 + f.nextSlot ≠ botEntityID := seat_ne_bot (by omega) (by omega)
  have hseat' : team * 2 ^ 24 + f.nextSlot ≠ f.bot ∨ f.bot = 0 := by
    by_cases hz : f.bot = 0
    · exact Or.inr hz
    · exact Or.inl (h.lives.crewed.bot_eq hz ▸ hseat)
  obtain ⟨-, hh⟩ := body_seat (s := s) hseat'
  refine ⟨hg.lives, ?_, fun e n hle hn' => ?_, hg.out⟩
  · rw [hbegun, hmax]
    exact h.cap
  · rw [hmax]
    by_cases hne : e = team * 2 ^ 24 + f.nextSlot
    · rw [hne, hh, Option.some.injEq] at hn'
      rw [← hn']
      exact ⟨(h.cap hb).1, Nat.le_refl _⟩
    · rcases body_others (s := s) h.lives.crewed hne with ⟨-, h1, h2⟩ | ⟨-, h1, -, -⟩
      · exact h.fit e n (h1 ▸ hle) (h2 ▸ hn')
      · exact absurd (h1.symm.trans hle) (by simp)

theorem Sane.heal {x : Member} {gain : Nat} (h : f.Sane) (hg : (f.heal x.entity n).Tidy)
    (hx : x ∈ f.crew) (hb : f.begun = true) (hl : f.lifeOf x.entity = .alive) (hle : gain ≤ maxEP)
    (hn : ((f.hp x.entity).getD 0) + gain < 65536 →
      n = min (((f.hp x.entity).getD 0) + gain) f.maxHP) : (f.heal x.entity n).Sane := by
  obtain ⟨hlife, -, cur, hcur⟩ := h.standing_at (takes_crew hx) hb hl
  obtain ⟨hpos, hfit⟩ := h.fit _ _ hlife hcur
  obtain ⟨hmax, hcap⟩ := h.cap hb
  rw [hcur] at hn
  have hn' : n = min (cur + gain) f.maxHP := hn (by simp only [Option.getD_some]; omega)
  refine h.single x.entity hg rfl (fun e he => ⟨rfl, Function.update_of_ne he ..⟩)
    fun k _ hk => ?_
  have hself : Function.update f.hp x.entity (some n) x.entity = some n := Function.update_self ..
  obtain rfl : n = k := Option.some.inj (hself.symm.trans hk)
  omega

theorem Sane.bot {ph : CsPhase} (h : f.Sane)
    (hg : ({ f.spawnBot with phase := ph, started := true } : Field).Tidy) (hb : f.begun = true) :
    ({ f.spawnBot with phase := ph, started := true } : Field).Sane := by
  have hself : Function.update f.hp botEntityID (some f.maxHP) botEntityID = some f.maxHP :=
    Function.update_self ..
  refine ⟨hg.lives, h.cap, fun e n hl hn => ?_, hg.out⟩
  have hl' : Function.update f.life botEntityID (some .alive) e = some .alive := hl
  have hn' : Function.update f.hp botEntityID (some f.maxHP) e = some n := hn
  by_cases hbot : e = botEntityID
  · rw [hbot, hself, Option.some.injEq] at hn'
    rw [← hn']
    exact ⟨(h.cap hb).1, Nat.le_refl _⟩
  · rw [Function.update_of_ne hbot] at hl' hn'
    exact h.fit e n hl' hn'

theorem Sane.begin_ (h : f.Sane) (hcap : 0 < f.maxHP ∧ f.maxHP + maxEP < 65536) :
    f.begin_.Sane := by
  have hs : f.begin_.stage = { f.stage with begun := true, phase := .setupBind } :=
    congrArg (fun x : Stage => { x with phase := CsPhase.setupBind })
      (stage_initHP (f := { f with begun := true }))
  have hmax : f.begin_.maxHP = f.maxHP := congrArg Stage.maxHP hs
  refine @sane_reset f _ (({ f with begun := true } : Field).clear) h.tidy.begin_ ?_
    (congrArg Stage.begun hs) rfl rfl hmax rfl rfl fun _ _ => rfl
  rw [hmax]
  exact fun _ => hcap

theorem Sane.revive {ph : CsPhase} (h : f.Sane) (hb : f.begun = true) :
    ({ f.reviveAll with phase := ph } : Field).Sane := by
  have hs := stage_reviveAll (f := f)
  have hmax : f.reviveAll.maxHP = f.maxHP := congrArg Stage.maxHP hs
  have hbegun : f.reviveAll.begun = f.begun := congrArg Stage.begun hs
  refine @sane_reset f _ f (h.tidy.revive hb) ?_ (hbegun.trans hb) rfl rfl hmax rfl rfl
    fun e he => (h.out e he).1
  exact fun _ => hmax ▸ h.cap hb

-- What a move must not do, for the maps to go on agreeing.
structure Safe (now : Int) (l : Label) (f : Field) : Prop where
  begin_ : l = .begin_ → 0 < f.maxHP ∧ f.maxHP + maxEP < 65536
  rescue : l = .rescue → ∀ t r, f.rescues t = some r → r.completeAt ≤ now → reviveHP ≤ f.maxHP
  join : ∀ s team, l = .join s team → f.knock botEntityID = none

theorem sane_move (h : f.Sane) (hm : Move now l f g) (hsafe : f.Safe now l)
    (hup : l ≠ .setup → l ≠ .begin_ → f.begun = true) : g.Sane := by
  have hg := tidy_move h.tidy hm hsafe.join hup
  cases hm with
  | hit hf => exact (@blows_hit _ _ _ _ _ _ now hf).invariant h fun hi hb => sane_blow hi hb
  | startRescue =>
    revert hg
    unfold Field.startRescue
    split
    · exact fun _ => h
    split
    · exact fun _ => h
    · exact fun hg => h.frame hg rfl rfl rfl rfl
  | stopRescue =>
    revert hg
    unfold Field.stopRescue
    split
    · split
      · exact fun hg => h.frame hg rfl rfl rfl rfl
      · exact fun _ => h
    · exact fun _ => h
  | leave _ => exact h.leave hg
  | join _ _ htwo hlt hb => exact h.join hg htwo hlt hb
  | setup hf _ =>
    refine ⟨hg.lives, fun hb => Bool.noConfusion hb, fun e n hl => ?_, hg.out⟩
    exact absurd ((congrFun hf.life e).symm.trans hl) (by simp)
  | begin_ _ => exact h.begin_ (hsafe.begin_ rfl)
  | bleed => exact blows_bleed.invariant h fun hi hb => sane_blow hi hb
  | rescue => exact h.rescueTick (hsafe.rescue rfl _)
  | heal hx hl hle hn => exact h.heal hg hx (hup nofun nofun) hl hle hn
  | revive _ _ => exact h.revive (hup nofun nofun)
  | bot _ _ => exact h.bot hg (hup nofun nofun)
  | fight _ _ => exact h.frame hg rfl rfl rfl rfl
  | score _ _ _ _ => exact h.frame hg rfl rfl rfl rfl
  | turn _ => exact h.frame hg rfl rfl rfl rfl

theorem rescues_swept (xs : List Nat) (h : f.Lives)
    (hall : ∀ t, f.rescues t ≠ none → t ∈ xs ∨ f.lifeOf t = .knocked) (t : Nat)
    (ht : (xs.foldl (Field.rescueTick now) f).rescues t ≠ none) :
    (xs.foldl (Field.rescueTick now) f).lifeOf t = .knocked := by
  induction xs generalizing f with
  | nil => exact (hall t ht).resolve_left List.not_mem_nil
  | cons x xs ih =>
    refine ih (@Lives.rescueTick _ now _ h) (fun t ht => ?_) ht
    by_cases hx : t = x
    · refine Or.inr ?_
      rw [hx] at ht ⊢
      revert ht
      unfold Field.rescueTick
      split
      · exact fun ht => absurd ‹f.rescues x = none› ht
      rename_i r hr
      split
      · exact fun ht => absurd (Function.update_self x none f.rescues) ht
      split
      · rename_i hlife _
        exact fun _ => not_not.mp fun hne => hlife (Or.inl hne)
      · intro ht
        have hself : Function.update f.rescues x none x = none := Function.update_self ..
        exact absurd hself ht
    · have hoff : (f.rescueTick now x).rescues t = f.rescues t ∧
          (f.rescueTick now x).lifeOf t = f.lifeOf t := by
        unfold Field.rescueTick
        split
        · exact ⟨rfl, rfl⟩
        rename_i r hr
        split
        · exact ⟨Function.update_of_ne hx .., rfl⟩
        split
        · exact ⟨rfl, rfl⟩
        · have hne : t ≠ r.target := fun heq => hx (heq.trans (h.targets x r hr))
          refine ⟨Function.update_of_ne hx .., ?_⟩
          change (Function.update f.life r.target (some .alive) t).getD .alive = f.lifeOf t
          rw [Function.update_of_ne hne]
          rfl
      rw [hoff.1] at ht
      rw [hoff.2]
      refine (hall t ht).imp_left fun hm => ?_
      exact (List.mem_cons.mp hm).resolve_left hx

end Field

namespace Core

variable {w : World} {c d : Core} {m : MatchRef}

theorem turns_while {β : Type} {op : Core → β → Core} {op' : Field → β → Field} {I : Core → Prop}
    (h : ∀ c b, I c → Turns m c (op c b) (op' (c.field m) b) ∧ I (op c b)) (l : List β) (c : Core)
    (hc : I c) : Turns m c (l.foldl op c) (l.foldl op' (c.field m)) := by
  induction l generalizing c with
  | nil => exact turns_refl
  | cons b l ih =>
    obtain ⟨hb, hi⟩ := h c b hc
    have hl := ih (op c b) hi
    rw [hb.eq] at hl
    exact hb.trans hl

theorem turns_stepRescue : Turns m c (c.stepRescue m)
    ((visit c.order (c.ms m).rescues.keys).foldl (Field.rescueTick c.now) (c.field m)) :=
  turns_while (I := fun d => d.now = c.now) (fun d t hd =>
    ⟨hd ▸ turns_rescueTick, (now_of_keeps keeps_rescueTick (by decide)).trans hd⟩) _ c rfl

theorem body_of_keeps {F : List Part} (h : Keeps F c d)
    (hF : Part.life ∉ F ∧ Part.rescues ∉ F) :
    (d.field m).life = (c.field m).life ∧ (d.field m).rescues = (c.field m).rescues := by
  have h1 := (h _ hF.1).1 m
  have h2 := (h _ hF.2).1 m
  simp only [Part.sameMatch] at h1 h2
  simp only [field, Match.view, h1, h2, and_self]

theorem rescues_tick (hp : (c.ms m).players ≠ [])
    (h : (((c.afterSweep w m).stepKnock m).field m).Lives) {t : Nat}
    (ht : ((c.tick w m).field m).rescues t ≠ none) :
    ((c.tick w m).field m).lifeOf t = .knocked := by
  have hk : Keeps [.flags, .body, .hp, .kit] (c.afterRescue w m) (c.tick w m) := by
    rw [tick_eq hp]
    exact (keeps_stepFlags.mono (by decide)).trans
      (Frame.foldl (fun _ _ => keeps_stepPlayer.mono (by decide)) _ _)
  obtain ⟨hlife, hres⟩ := body_of_keeps (m := m) hk (by decide)
  have heq := (turns_stepRescue (c := (c.afterSweep w m).stepKnock m) (m := m)).eq
  rw [hres] at ht
  unfold Field.lifeOf
  rw [hlife]
  unfold afterRescue beforeRescue at ht ⊢
  rw [heq] at ht ⊢
  refine Field.rescues_swept _ h (fun t ht => Or.inl (mem_visit.mpr ?_)) t ht
  exact AList.lookup_isSome.mp (Option.isSome_iff_ne_none.mpr ht)

theorem lives_stepKnock (hf : (c.field m).Lives) (hb : (c.field m).begun = true)
    (hnd : (c.ms m).players.Nodup) : (((c.afterSweep w m).stepKnock m).field m).Lives := by
  have hbleed := plays_stepKnock (c := c.afterSweep w m) (m := m) (P := TickMove w c m)
    fun _ _ => .bleed
  rw [now_of_keeps (keeps_afterSweep (w := w) (c := c) (m := m)) (by decide)] at hbleed
  have hpath := ((plays_afterSweep (w := w) hnd).trans hbleed).path
  refine (hpath.invariant (I := fun f => f.Lives ∧ f.begun = true) ⟨hf, hb⟩ ?_).1
  intro f l g hi _ hm
  exact ⟨Field.lives_move hi.1 hm fun _ _ => hi.2, Field.begun_of_move hm hi.2⟩

end Core

namespace Server

variable {w : World} {v v' : Server} {e : Event} {m : MatchRef} {f g : Field} {l : Label}
  {es : List Event} {t : Moment}

-- A loop starts with a health that no heal wraps; nobody is revived to more than it, and no joiner
-- replaces a bot that is down.
def Sturdy (v : Server) (e : Event) : Prop :=
  v.JoinsOnce e ∧
    (∀ m ∈ e.act.started, 0 < (v.core.ms m).settings.maxHP ∧
      (v.core.ms m).settings.maxHP + maxEP < 65536) ∧
    (∀ m ∈ e.act.ticked, (v.core.ms m).settings.maxHP < reviveHP →
      (v.core.ms m).rescueDue e.moment.now = false) ∧
    ∀ x ∈ v.sitsDown e.act, (v.core.ms x.2).knock.lookup botEntityID = none

instance (v : Server) (e : Event) : Decidable (v.Sturdy e) :=
  inferInstanceAs (Decidable (_ ∧ (∀ m ∈ e.act.started, _) ∧ (∀ m ∈ e.act.ticked, _) ∧
    ∀ x ∈ v.sitsDown e.act, _))

theorem Why.of_tick (h : Why w v e m f l) (ht : e.act = .tick m) :
    l = .setup ∨ TickMove w (v.core.atMoment e.moment (some m)) m f l := by
  cases h with
  | handler hr _ _ =>
    rw [ht] at hr
    exact absurd hr (by simp [routed])
  | setup => exact Or.inl rfl
  | begin_ hact _ => exact absurd (ht.symm.trans hact) (by simp)
  | join hact _ _ => exact absurd (ht.symm.trans hact) (by simp)
  | tick _ _ hl => exact Or.inr hl

theorem tick_kept (ht : e.act = .tick m) (hp : Field.Path e.moment.now (Why w v e m) f g)
    (hb : f.begun = true) :
    g.maxHP = f.maxHP ∧ ∀ a r, g.rescues a = some r → f.rescues a = some r := by
  refine (hp.invariant (I := fun g => g.begun = true ∧ g.maxHP = f.maxHP ∧
    ∀ a r, g.rescues a = some r → f.rescues a = some r) ⟨hb, rfl, fun _ _ => id⟩ ?_).2
  intro f' l g ⟨hb', hmax, hres⟩ hwhy hm
  have hset : l ≠ .setup := fun hl => by
    subst hl
    cases hm with
    | setup hf _ => exact absurd (hf.begun.symm.trans hb') (by decide)
  have hreq : ∀ a b, l ≠ .startRescue a b := fun a b hl => by
    subst hl
    rcases hwhy.of_tick ht with hl | hl
    · exact absurd hl (by simp)
    · cases hl with
      | clock hl _ => exact Bool.noConfusion hl
  exact ⟨Field.begun_of_move hm hb', (Field.maxHP_of_move hm hset).trans hmax,
    fun a r hr => hres a r (Field.rescues_of_move hm hreq hr)⟩

theorem safe_of_sturdy (hc : v.Sturdy e) (hwhy : Why w v e m f l)
    (hp : Field.Path e.moment.now (Why w v e m) (v.core.field m) f)
    (hb : v.free m = true → (v.core.field m).begun = true) : f.Safe e.moment.now l := by
  refine ⟨fun hl => ?_, fun hl => ?_, fun s team hl => ?_⟩
  · subst hl
    cases hwhy with
    | handler _ _ hl => cases hl
    | begin_ hact _ => exact hc.2.1 m (by rw [hact]; rfl)
    | tick _ _ hl =>
      cases hl with
      | clock hl _ => exact Bool.noConfusion hl
  · subst hl
    cases hwhy with
    | handler _ _ hl => cases hl
    | tick hact hfree _ =>
      intro a r hr hdue
      obtain ⟨hmax, hres⟩ := tick_kept hact hp (hb hfree)
      by_contra hlow
      rw [hmax, not_le] at hlow
      have hnone := hc.2.2.1 m (by rw [hact]; rfl) hlow
      exact completeAt_of_rescueDue hnone (hres a r hr) hdue
  · subst hl
    cases hwhy with
    | handler _ _ hl => cases hl
    | join hact _ hm =>
      refine hc.2.2.2 (s, m) ?_
      rw [hact]
      simp [sitsDown, hm]
    | tick _ _ hl =>
      cases hl with
      | clock hl _ => exact Bool.noConfusion hl

theorem sane_of_run (h : Run (Guarded (Step w) Sturdy) start es v) (m : MatchRef) :
    (v.core.field m).Sane :=
  field_invariant h (fun _ _ hc => hc.1) (fun _ => Field.sane_untouched)
    (fun _ hc _ hwhy hp hup hf hm =>
      Field.sane_move hf hm (safe_of_sturdy hc hwhy hp begun_of_free) hup) m

-- Health, life and the records agree once a match has begun, and after its ticks nothing is left
-- of anybody who is not KNOCKED.
theorem vitals_agree (h : Run (Guarded (Step w) Sturdy) start es v) (m : MatchRef) :
    ((v.core.field m).begun = true → (v.core.field m).Vital) ∧
      ∀ t v', (v.core.ms m).players ≠ [] → Guarded (Step w) Sturdy v ⟨.tick m, t⟩ v' →
        (v'.core.field m).Cleared := by
  refine ⟨(sane_of_run h m).vital, fun t v' hp hs e he => ?_⟩
  have hsound := sound_of_run h fun _ _ hc => hc.1
  have hsane := sane_of_run (Run.next h hs) m
  have hknocked : (v'.core.field m).lifeOf e = .knocked := by
    rcases he with hk | hr
    · obtain ⟨ks, hks⟩ := Option.ne_none_iff_exists'.mp hk
      rcases (hsane.lives.at_ e).bleeding hks with hg | ⟨-, -, hl, -⟩
      · exact absurd (hsane.tidy.takes_of_knock hks) hg.out
      · simp [Field.lifeOf, hl]
    · have hf := fires_of_step hs.1
      dsimp only at hf
      cases hf with
      | tick hfree =>
        have hat : (v.core.atMoment t (some m)).field = v.core.field :=
          field_of_keeps keeps_atMoment (by decide)
        refine rescues_tick (c := v.core.atMoment t (some m)) hp ?_ hr
        refine lives_stepKnock ?_ ?_ (hsound.seats.nodup m)
        · rw [hat]
          exact (sane_of_run h m).lives
        · rw [hat]
          exact begun_of_free hfree
  refine ⟨?_, hknocked⟩
  by_contra hout
  simp [Field.lifeOf, (hsane.out e hout).1] at hknocked

-- The host of a custom room shoots a player, and another of its team revives it.
def revival : List Event :=
  opens 1 0 0 (joinWith hostToken) ++ joins 2 1 0 join ++ joins 3 2 0 join ++
    sends 4 0 0 (damageReport 0x01000003 0x02000001 200) ++
    sends 5 2 0 (rescueRequest 0x01000003) ++ [event 4000000005 (.tick 0)]

theorem vitals_agree_after_rescue : ∃ v, Run (Guarded (Step signedWorld) Sturdy) start revival v ∧
    (v.core.ms 0).hp.lookup 0x01000003 = some 20 ∧ (v.core.field 0).Vital := by
  have hrun : ((revival.foldlM (fun v e => if Sturdy v e then step signedWorld v e else none)
      start).map fun v => ((v.core.ms 0).hp.lookup 0x01000003, (v.core.ms 0).loop)) =
      some (some 20, .running) := by
    decide +kernel
  obtain ⟨v, hv, hd⟩ := Option.map_eq_some_iff.mp hrun
  obtain ⟨hhp, hloop⟩ := Prod.mk.inj hd
  have hb : (v.core.field 0).begun = true := by simp [Core.field, Match.view, hloop]
  exact ⟨v, run_of_checked hv, hhp, (vitals_agree (run_of_checked hv) 0).1 hb⟩

-- The host of the room sets the health to 10, and a rescue gives 20.
def frailWorld : World :=
  { signedWorld with
    settings := fun mid =>
      if mid = 7 then some (some ⟨0, 10, [], [], 0, 0, 0, 0, [], none⟩) else none }

theorem rescue_exceeds_maxHP : ¬ ∀ w es v m, Run (Step w) start es v →
    (v.core.field m).begun = true → (v.core.field m).Vital := by
  intro hall
  have hrun : ((revival.foldlM (step frailWorld) start).map fun v =>
      ((v.core.ms 0).hp.lookup 0x01000003, (v.core.ms 0).life.lookup 0x01000003,
        (v.core.ms 0).settings.maxHP, (v.core.ms 0).loop, v.core.ms 0 |>.players.map v.core.member)) =
      some (some 20, some .alive, 10, .running, [⟨0, 0x02000001, 2⟩, ⟨1, 0x01000003, 1⟩, ⟨2, 0x01000004, 1⟩]) := by
    decide +kernel
  obtain ⟨v, hv, hd⟩ := Option.map_eq_some_iff.mp hrun
  simp only [Prod.mk.injEq] at hd
  obtain ⟨hhp, hlife, hmax, hloop, hcrew⟩ := hd
  have hb : (v.core.field 0).begun = true := by simp [Core.field, Match.view, hloop]
  have htakes : (v.core.field 0).Takes 0x01000003 :=
    Or.inl ⟨⟨1, 0x01000003, 1⟩, by simp [Core.field, Match.view, hcrew], rfl⟩
  have hup : (v.core.field 0).lifeOf 0x01000003 = .alive := by
    simp [Field.lifeOf, Core.field, Match.view, hlife]
  obtain ⟨-, n, hn, -, hle⟩ :=
    (hall frailWorld revival v 0 (run_of_foldlM hv) hb).alive 0x01000003 htakes hup
  simp only [Core.field, Match.view, hhp, hmax, Option.some.injEq] at hn hle
  omega

end Server

end MatchServer

import Madoka.MatchServer.Lives

namespace MatchServer

open Lib Relation

namespace Field

-- Nothing is left of anybody who takes no part.
structure Tidy (f : Field) : Prop where
  lives : f.Lives
  out : ∀ e, ¬ f.Takes e → f.life e = none ∧ f.hp e = none ∧ f.knock e = none

variable {f g : Field} {victim attacker dmg e a t : Nat} {ks : KnockState} {order : List Nat}
  {now : Int} {l : Label} {cur n : Nat}

theorem Tidy.takes_of_hp (h : f.Tidy) (hh : f.hp e = some n) : f.Takes e := by
  by_contra ht
  exact absurd ((h.out e ht).2.1.symm.trans hh) (by simp)

theorem Tidy.takes_of_knock (h : f.Tidy) (hk : f.knock e = some ks) : f.Takes e := by
  by_contra ht
  exact absurd ((h.out e ht).2.2.symm.trans hk) (by simp)

theorem Tidy.takes_of_knocked (h : f.Tidy) (hl : f.lifeOf e = .knocked) : f.Takes e := by
  by_contra ht
  simp [lifeOf, (h.out e ht).1] at hl

theorem Tidy.single (h : f.Tidy) (hg : g.Lives) (ht : f.Takes a) (hs : g.stage = f.stage)
    (hoff : ∀ e, e ≠ a → g.life e = f.life e ∧ g.hp e = f.hp e ∧ g.knock e = f.knock e) :
    g.Tidy := by
  refine ⟨hg, fun e he => ?_⟩
  have htf : ¬ f.Takes e := fun hf => he ((takes_of_stage hs).mpr hf)
  obtain ⟨h1, h2, h3⟩ := hoff e fun hea => htf (hea ▸ ht)
  obtain ⟨h4, h5, h6⟩ := h.out e htf
  exact ⟨h1.trans h4, h2.trans h5, h3.trans h6⟩

theorem Tidy.frame (h : f.Tidy) (hg : g.Lives) (ht : ∀ e, f.Takes e → g.Takes e)
    (hl : g.life = f.life) (hh : g.hp = f.hp) (hk : g.knock = f.knock) : g.Tidy := by
  refine ⟨hg, fun e he => ?_⟩
  rw [hl, hh, hk]
  exact h.out e fun hf => he (ht e hf)

theorem Tidy.finalize (h : f.Tidy) (hk : f.knock e = some ks) : (f.finalize e ks).Tidy :=
  h.single (h.lives.finalize hk) (h.takes_of_knock hk) stage_finalize
    fun a ha => by simp [Function.update_of_ne ha]

theorem Tidy.creditDamage (h : f.Tidy) : (f.creditDamage victim attacker dmg).Tidy :=
  h.frame h.lives.creditDamage (fun _ => (takes_of_stage stage_creditDamage).mpr)
    creditDamage_life creditDamage_hp creditDamage_knock

theorem tidy_blow (h : f.Tidy) (hb : Blow now l f g) : g.Tidy := by
  have hg := lives_blow h.lives hb
  have hs := stage_blow hb
  cases hb with
  | hurt _ _ hh _ =>
    exact h.single hg (h.takes_of_hp hh) hs fun a ha => by simp [Function.update_of_ne ha]
  | slain _ _ hh _ _ _ =>
    exact h.single hg (h.takes_of_hp hh) hs fun a ha => by simp [Function.update_of_ne ha]
  | downed _ _ hh _ _ _ _ _ =>
    exact h.single hg (h.takes_of_hp hh) hs fun a ha => by simp [Function.update_of_ne ha]
  | drained _ _ hk _ =>
    exact h.single hg (h.takes_of_knock hk) hs fun a ha => by simp [Function.update_of_ne ha]
  | finished _ _ hk _ => exact h.creditDamage.finalize (by simpa using hk)
  | wiped _ hk _ _ => exact h.finalize hk
  | bled hk _ =>
    exact h.single hg (h.takes_of_knock hk) hs fun a ha => by simp [Function.update_of_ne ha]
  | bledOut hk _ _ => exact h.finalize hk

theorem Tidy.rescueTick (h : f.Tidy) : (f.rescueTick now t).Tidy := by
  have hg := @Lives.rescueTick _ now t h.lives
  have hs := @stage_rescueTick f now t
  revert hg hs
  unfold Field.rescueTick
  split
  · exact fun _ _ => h
  rename_i r hr
  split
  · exact fun hg _ => h.frame hg (fun _ => id) rfl rfl rfl
  split
  · exact fun _ _ => h
  rename_i hlife _
  intro hg hs
  have hknocked : f.lifeOf t = .knocked := not_not.mp fun hne => hlife (Or.inl hne)
  obtain rfl : r.target = t := h.lives.targets t r hr
  exact h.single hg (h.takes_of_knocked hknocked) hs fun a ha => by
    simp [completeRescue, Function.update_of_ne ha]

theorem Tidy.leave {x : Member} (h : f.Tidy) (hx : x ∈ f.crew)
    (hg : (f.leave x.s x.entity).Lives) : (f.leave x.s x.entity).Tidy := by
  refine ⟨hg, fun e he => ?_⟩
  by_cases heq : e = x.entity
  · rw [heq]
    exact ⟨Function.update_self .., Function.update_self .., Function.update_self ..⟩
  · have hte : ¬ f.Takes e := fun ht => he ((h.lives.crewed.takes_leave hx).mpr ⟨heq, ht⟩)
    obtain ⟨h1, h2, h3⟩ := h.out e hte
    exact ⟨(Function.update_of_ne heq ..).trans h1, (Function.update_of_ne heq ..).trans h2,
      (Function.update_of_ne heq ..).trans h3⟩

theorem body_others {s : SessionId} {team : Nat} (h : f.Crewed)
    (hne : e ≠ team * 2 ^ 24 + f.nextSlot) : ((e ≠ f.bot ∨ f.bot = 0) ∧
      (f.join s team).life e = f.life e ∧ (f.join s team).hp e = f.hp e) ∨
    (f.Takes e ∧ (f.join s team).life e = none ∧ (f.join s team).hp e = none ∧
      e = botEntityID) := by
  by_cases hbo : e ≠ f.bot ∨ f.bot = 0
  · obtain ⟨h1, h2, -, -⟩ := body_join (s := s) hne hbo
    exact Or.inl ⟨hbo, h1, h2⟩
  · push Not at hbo
    obtain ⟨rfl, hz⟩ := hbo
    refine Or.inr ⟨Or.inr ⟨hz, rfl⟩, ?_, ?_, h.bot_eq hz⟩
    all_goals
      unfold Field.join retireBot
      rw [if_neg (show ¬ (((f.enlist s team).raise (team * 2 ^ 24 + f.nextSlot)).note
        (.seated (team * 2 ^ 24 + f.nextSlot))).bot = 0 from hz)]
      exact Function.update_self ..

theorem Tidy.join {s : SessionId} {team : Nat} (h : f.Tidy) (hg : (f.join s team).Lives)
    (hbot : f.knock botEntityID = none) : (f.join s team).Tidy := by
  refine ⟨hg, fun e he => ?_⟩
  have hne : e ≠ team * 2 ^ 24 + f.nextSlot := fun heq => he (takes_join.mpr (Or.inl heq))
  rw [records_join.1]
  rcases body_others (s := s) h.lives.crewed hne with ⟨hbo, h1, h2⟩ | ⟨-, h1, h2, heq⟩
  · rw [h1, h2]
    refine h.out e ?_
    rintro (hx | ⟨hz, heq⟩)
    · exact he (takes_join.mpr (Or.inr hx))
    · exact hbo.elim (fun hb => hb heq) hz
  · exact ⟨h1, h2, heq ▸ hbot⟩

theorem Tidy.bot {ph : CsPhase} (h : f.Tidy)
    (hg : ({ f.spawnBot with phase := ph, started := true } : Field).Lives) :
    ({ f.spawnBot with phase := ph, started := true } : Field).Tidy := by
  refine ⟨hg, fun e he => ?_⟩
  have hbot : e ≠ botEntityID := fun heq =>
    he (Or.inr ⟨show botEntityID ≠ 0 by decide, heq⟩)
  have hte : ¬ f.Takes e := by
    rintro (hx | ⟨hz, heq⟩)
    · exact he (Or.inl hx)
    · exact hbot (heq.trans (h.lives.crewed.bot_eq hz))
  obtain ⟨h1, h2, h3⟩ := h.out e hte
  exact ⟨(Function.update_of_ne hbot ..).trans h1, (Function.update_of_ne hbot ..).trans h2, h3⟩

theorem tidy_reset {f' : Field} (hg : g.Lives) (hc : f'.crew = f.crew) (hbot : f'.bot = f.bot)
    (ht : ∀ e, g.Takes e ↔ f.Takes e)
    (hl : g.life = (f'.crew.foldl raiseMember f').raiseBot.life)
    (hh : g.hp = (f'.crew.foldl raiseMember f').raiseBot.hp)
    (hk : ∀ e, g.knock e = none)
    (hoff : ∀ e, ¬ f.Takes e → f'.life e = none ∧ f'.hp e = none) : g.Tidy := by
  refine ⟨hg, fun e he => ?_⟩
  have hte : ¬ f.Takes e := fun hf => he ((ht e).mpr hf)
  obtain ⟨h1, h2⟩ := (raised f' e).2 fun hx => hte ((takes_of_eq hc hbot).mp hx)
  obtain ⟨h3, h4⟩ := hoff e hte
  exact ⟨by rw [hl, h1, h3], by rw [hh, h2, h4], hk e⟩

theorem Tidy.begin_ (h : f.Tidy) : f.begin_.Tidy := by
  have hs : f.begin_.stage = { f.stage with begun := true, phase := .setupBind } :=
    congrArg (fun x : Stage => { x with phase := CsPhase.setupBind })
      (stage_initHP (f := { f with begun := true }))
  exact @tidy_reset f _ (({ f with begun := true } : Field).clear) h.lives.begin_ rfl rfl
    (fun e => takes_of_eq (congrArg Stage.crew hs) (congrArg Stage.bot hs)) rfl rfl
    (fun e => congrFun (@initHP_cleared { f with begun := true }).1 e) fun _ _ => ⟨rfl, rfl⟩

theorem Tidy.revive {ph : CsPhase} (h : f.Tidy) (hb : f.begun = true) :
    ({ f.reviveAll with phase := ph } : Field).Tidy := by
  have hs := stage_reviveAll (f := f)
  exact @tidy_reset f _ f (h.lives.revive hb) rfl rfl
    (fun e => takes_of_eq (congrArg Stage.crew hs) (congrArg Stage.bot hs)) rfl rfl (fun _ => rfl)
    fun e he => ⟨(h.out e he).1, (h.out e he).2.1⟩

theorem tidy_move (h : f.Tidy) (hm : Move now l f g)
    (hjoin : ∀ s team, l = .join s team → f.knock botEntityID = none)
    (hup : l ≠ .setup → l ≠ .begin_ → f.begun = true) : g.Tidy := by
  have hg := lives_move h.lives hm hup
  cases hm with
  | hit hf => exact (@blows_hit _ _ _ _ _ _ now hf).invariant h fun hi hb => tidy_blow hi hb
  | startRescue =>
    revert hg
    unfold Field.startRescue
    split
    · exact fun _ => h
    split
    · exact fun _ => h
    · exact fun hg => h.frame hg (fun _ => id) rfl rfl rfl
  | stopRescue =>
    revert hg
    unfold Field.stopRescue
    split
    · split
      · exact fun hg => h.frame hg (fun _ => id) rfl rfl rfl
      · exact fun _ => h
    · exact fun _ => h
  | leave hx => exact h.leave hx hg
  | join _ _ _ _ _ => exact h.join hg (hjoin _ _ rfl)
  | setup hf _ =>
    exact ⟨hg, fun e _ => ⟨congrFun hf.life e, congrFun hf.hp e, congrFun hf.knock e⟩⟩
  | begin_ _ => exact h.begin_
  | bleed => exact blows_bleed.invariant h fun hi hb => tidy_blow hi hb
  | rescue => exact h.rescueTick
  | @heal _ x gain n hx _ _ _ =>
    exact h.single hg (takes_crew hx) rfl fun e he => ⟨rfl, Function.update_of_ne he .., rfl⟩
  | revive _ _ => exact h.revive (hup nofun nofun)
  | bot _ _ => exact h.bot hg
  | fight _ _ => exact h.frame hg (fun _ => id) rfl rfl rfl
  | score _ _ _ _ => exact h.frame hg (fun _ => id) rfl rfl rfl
  | turn _ => exact h.frame hg (fun _ => id) rfl rfl rfl

theorem tidy_untouched (h : f.Untouched) : f.Tidy :=
  ⟨lives_untouched h, fun e _ => ⟨congrFun h.life e, congrFun h.hp e, congrFun h.knock e⟩⟩

end Field

end MatchServer

import Madoka.MatchServer.Blows

namespace MatchServer

open Lib Relation

namespace Field

-- The bot after it was retired: what its knock left behind goes on without it.
structure Ghost (f : Field) (e : Nat) : Prop where
  bot : e = botEntityID
  out : ¬ f.Takes e
  started : f.started = true

-- What the four maps say of one entity.
inductive At (f : Field) (e : Nat) : Prop where
  | ghost : f.Ghost e → At f e
  | away : (f.begun = true → ¬ f.Takes e) → f.life e = none → f.hp e = none → f.knock e = none →
    (f.rescues e ≠ none → e ≠ botEntityID ∧ low e ≤ f.slot) → At f e
  | alive {h : Nat} : f.Takes e → f.begun = true → f.life e = some .alive → f.hp e = some h →
    f.knock e = none → f.rescues e = none → At f e
  | knocked {ks : KnockState} : f.Takes e → f.begun = true → f.life e = some .knocked →
    f.knock e = some ks → 0 < ks.hp → ks.hp ≤ knockdownHP → f.hp e = some ks.hp → At f e
  | dead : f.Takes e → f.begun = true → f.life e = some .dead → f.hp e = some 0 →
    f.knock e = none → f.rescues e = none → At f e

structure Lives (f : Field) : Prop where
  crewed : f.Crewed
  early : f.started = false → f.bot = 0
  targets : ∀ t r, f.rescues t = some r → r.target = t
  at_ : ∀ e, f.At e

variable {f g : Field} {victim attacker dmg e a : Nat} {ks : KnockState} {order : List Nat}
  {now : Int} {l : Label} {cur : Nat}

theorem Ghost.frame (h : f.Ghost e) (ht : g.Takes e ↔ f.Takes e)
    (hs : f.started = true → g.started = true) : g.Ghost e :=
  ⟨h.bot, fun hg => h.out (ht.mp hg), hs h.started⟩

theorem At.frame (h : f.At e) (ht : g.Takes e ↔ f.Takes e) (hb : g.begun = f.begun)
    (hs : f.started = true → g.started = true) (hslot : f.slot ≤ g.slot)
    (hl : g.life e = f.life e) (hh : g.hp e = f.hp e) (hk : g.knock e = f.knock e)
    (hr : g.rescues e = f.rescues e) : g.At e := by
  cases h with
  | ghost h => exact .ghost (h.frame ht hs)
  | away h1 h2 h3 h4 h5 =>
    refine .away (fun hg ht' => h1 (hb ▸ hg) (ht.mp ht')) (hl.trans h2) (hh.trans h3) (hk.trans h4)
      fun hg => ?_
    obtain ⟨h6, h7⟩ := h5 (hr ▸ hg)
    exact ⟨h6, h7.trans hslot⟩
  | alive h1 h2 h3 h4 h5 h6 =>
    exact .alive (ht.mpr h1) (hb.trans h2) (hl.trans h3) (hh.trans h4) (hk.trans h5) (hr.trans h6)
  | knocked h1 h2 h3 h4 h5 h6 h7 =>
    exact .knocked (ht.mpr h1) (hb.trans h2) (hl.trans h3) (hk.trans h4) h5 h6 (hh.trans h7)
  | dead h1 h2 h3 h4 h5 h6 =>
    exact .dead (ht.mpr h1) (hb.trans h2) (hl.trans h3) (hh.trans h4) (hk.trans h5) (hr.trans h6)

theorem At.struck (h : f.At e) (hl : f.lifeOf e = .alive) (hh : f.hp e = some cur) :
    f.Ghost e ∨ (f.Takes e ∧ f.begun = true ∧ f.life e = some .alive ∧ f.knock e = none ∧
      f.rescues e = none) := by
  cases h with
  | ghost h => exact Or.inl h
  | away _ _ h3 _ _ => exact absurd (h3.symm.trans hh) (by simp)
  | alive h1 h2 h3 _ h5 h6 => exact Or.inr ⟨h1, h2, h3, h5, h6⟩
  | knocked _ _ h3 _ _ _ _ => simp [lifeOf, h3] at hl
  | dead _ _ h3 _ _ _ => simp [lifeOf, h3] at hl

theorem At.bleeding (h : f.At e) (hk : f.knock e = some ks) :
    f.Ghost e ∨ (f.Takes e ∧ f.begun = true ∧ f.life e = some .knocked ∧ 0 < ks.hp ∧
      ks.hp ≤ knockdownHP ∧ f.hp e = some ks.hp) := by
  cases h with
  | ghost h => exact Or.inl h
  | away _ _ _ h4 _ => exact absurd (h4.symm.trans hk) (by simp)
  | alive _ _ _ _ h5 _ => exact absurd (h5.symm.trans hk) (by simp)
  | knocked h1 h2 h3 h4 h5 h6 h7 =>
    obtain rfl := Option.some.inj (h4.symm.trans hk)
    exact Or.inr ⟨h1, h2, h3, h5, h6, h7⟩
  | dead _ _ _ _ h5 _ => exact absurd (h5.symm.trans hk) (by simp)

theorem Lives.single (h : f.Lives) (a : Nat) (hs : g.stage = f.stage)
    (hoff : ∀ e, e ≠ a → g.life e = f.life e ∧ g.hp e = f.hp e ∧ g.knock e = f.knock e ∧
      g.rescues e = f.rescues e)
    (ht : ∀ t r, g.rescues t = some r → r.target = t)
    (hat : f.At a → (f.Ghost a → g.At a) → g.At a) : g.Lives where
  crewed := h.crewed.of_stage hs
  early := by
    rw [show g.started = f.started from congrArg Stage.started hs,
      show g.bot = f.bot from congrArg Stage.bot hs]
    exact h.early
  targets := ht
  at_ := fun e => by
    have htakes : ∀ e, g.Takes e ↔ f.Takes e := fun e => takes_of_stage hs
    have hst : f.started = true → g.started = true := fun hf =>
      (congrArg Stage.started hs).trans hf
    by_cases he : e = a
    · rw [he]
      exact hat (h.at_ a) fun hg => .ghost (hg.frame (htakes a) hst)
    · obtain ⟨h1, h2, h3, h4⟩ := hoff e he
      exact (h.at_ e).frame (htakes e) (congrArg Stage.begun hs) hst
        (Nat.le_of_eq (congrArg Stage.slot hs).symm) h1 h2 h3 h4

theorem begun_of_stage (h : g.stage = f.stage) : g.begun = f.begun := congrArg Stage.begun h

theorem Lives.finalize (h : f.Lives) (hs : f.knock e = some ks) : (f.finalize e ks).Lives := by
  refine h.single e stage_finalize (fun a ha => ?_) (fun t r hr => ?_) fun hat hghost => ?_
  · simp [Function.update_of_ne ha]
  · rw [finalize_rescues] at hr
    by_cases hte : t = e
    · rw [hte, Function.update_self] at hr
      cases hr
    · rw [Function.update_of_ne hte] at hr
      exact h.targets t r hr
  · rcases hat.bleeding hs with hg | ⟨h1, h2, -⟩
    · exact hghost hg
    · exact .dead ((takes_of_stage stage_finalize).mpr h1) ((begun_of_stage stage_finalize).trans h2)
        (by simp) (by simp) (by simp) (by simp)

theorem Lives.creditDamage (h : f.Lives) : (f.creditDamage victim attacker dmg).Lives :=
  h.single victim stage_creditDamage (fun _ _ => by simp) (fun t r hr => h.targets t r (by simpa using hr))
    fun hat _ => hat.frame (takes_of_stage stage_creditDamage) (begun_of_stage stage_creditDamage)
      (fun hst => (congrArg Stage.started stage_creditDamage).trans hst)
      (Nat.le_of_eq (congrArg Stage.slot stage_creditDamage).symm) (by simp) (by simp) (by simp)
      (by simp)

theorem lives_blow (h : f.Lives) (hb : Blow now l f g) : g.Lives := by
  cases hb with
  | @hurt _ victim attacker dmg cur _ hl hh hlt =>
    have hs : ({ f with hp := Function.update f.hp victim (some (cur - dmg)) }.creditDamage victim
        attacker dmg).stage = f.stage := stage_creditDamage
    refine h.single victim hs (fun a ha => ?_) (fun t r hr => ?_) fun hat hghost => ?_
    · simp [Function.update_of_ne ha]
    · exact h.targets t r (by simpa using hr)
    · rcases hat.struck hl hh with hg | ⟨h1, h2, h3, h4, h5⟩
      · exact hghost hg
      · exact .alive (h := cur - dmg) ((takes_of_stage hs).mpr h1) ((begun_of_stage hs).trans h2) (by simpa using h3)
          (by simp) (by simpa using h4) (by simpa using h5)
  | @slain _ victim attacker dmg cur _ hl hh _ _ _ =>
    have hs : ((f.fatal victim attacker dmg).kill victim attacker).stage = f.stage :=
      stage_kill.trans stage_fatal
    refine h.single victim hs (fun a ha => ?_) (fun t r hr => ?_) fun hat hghost => ?_
    · simp [Function.update_of_ne ha]
    · exact h.targets t r (by simpa using hr)
    · rcases hat.struck hl hh with hg | ⟨h1, h2, -, h4, h5⟩
      · exact hghost hg
      · exact .dead ((takes_of_stage hs).mpr h1) ((begun_of_stage hs).trans h2) (by simp) (by simp)
          (by simpa using h4) (by simpa using h5)
  | @downed _ victim attacker dmg cur ks _ hl hh _ _ _ hks _ =>
    have hs : ((f.fatal victim attacker dmg).knockDown victim ks).stage = f.stage :=
      stage_knockDown.trans stage_fatal
    refine h.single victim hs (fun a ha => ?_) (fun t r hr => ?_) fun hat hghost => ?_
    · simp [Function.update_of_ne ha]
    · exact h.targets t r (by simpa using hr)
    · rcases hat.struck hl hh with hg | ⟨h1, h2, -, -, -⟩
      · exact hghost hg
      · exact .knocked ((takes_of_stage hs).mpr h1) ((begun_of_stage hs).trans h2) (by simp)
          (by simp) (by rw [hks]; decide) (Nat.le_of_eq hks) (by simp [hks])
  | @drained _ victim attacker dmg ks _ _ hk hlt =>
    have hs : ({ f.creditDamage victim attacker dmg with
        knock := Function.update f.knock victim (some { ks with hp := ks.hp - dmg })
        hp := Function.update f.hp victim (some (ks.hp - dmg)) } : Field).stage = f.stage :=
      stage_creditDamage
    refine h.single victim hs (fun a ha => ?_) (fun t r hr => ?_) fun hat hghost => ?_
    · simp [Function.update_of_ne ha]
    · exact h.targets t r (by simpa using hr)
    · rcases hat.bleeding hk with hg | ⟨h1, h2, h3, h4, h5, -⟩
      · exact hghost hg
      · exact .knocked ((takes_of_stage hs).mpr h1) ((begun_of_stage hs).trans h2) (by simpa using h3)
          (Function.update_self ..) (Nat.sub_pos_of_lt hlt) (by dsimp only; omega)
          (Function.update_self ..)
  | finished _ _ hk _ => exact h.creditDamage.finalize (by simpa using hk)
  | wiped _ hk _ _ => exact h.finalize hk
  | @bled _ e ks hk hlt =>
    refine h.single e rfl (fun a ha => ?_) (fun t r hr => h.targets t r hr) fun hat hghost => ?_
    · simp [Function.update_of_ne ha]
    · rcases hat.bleeding hk with hg | ⟨h1, h2, h3, h4, h5, -⟩
      · exact hghost hg
      · exact .knocked h1 h2 h3 (Function.update_self ..) (Nat.sub_pos_of_lt hlt)
          (by dsimp only; omega) (Function.update_self ..)
  | bledOut hk _ _ => exact h.finalize hk

theorem stage_blow (hb : Blow now l f g) : g.stage = f.stage := by
  cases hb with
  | hurt _ _ _ _ => exact stage_creditDamage
  | slain _ _ _ _ _ _ => exact stage_kill.trans stage_fatal
  | downed _ _ _ _ _ _ _ _ => exact stage_knockDown.trans stage_fatal
  | drained _ _ _ _ => exact stage_creditDamage
  | finished _ _ _ _ => exact stage_finalize.trans stage_creditDamage
  | wiped _ _ _ _ => exact stage_finalize
  | bled _ _ => rfl
  | bledOut _ _ _ => exact stage_finalize

theorem lives_raiseAll (xs : List Member) (f : Field) :
    (xs.foldl raiseMember f).knock = f.knock ∧ (xs.foldl raiseMember f).rescues = f.rescues ∧
    ∀ e, ((∃ x ∈ xs, x.entity = e) → (xs.foldl raiseMember f).life e = some .alive ∧
        (xs.foldl raiseMember f).hp e = some f.maxHP) ∧
      ((∀ x ∈ xs, x.entity ≠ e) → (xs.foldl raiseMember f).life e = f.life e ∧
        (xs.foldl raiseMember f).hp e = f.hp e) := by
  induction xs using List.reverseRecOn with
  | nil => exact ⟨rfl, rfl, fun e => ⟨by simp, fun _ => ⟨rfl, rfl⟩⟩⟩
  | append_singleton xs y ih =>
    obtain ⟨h1, h2, h3⟩ := ih
    have hmax : (xs.foldl raiseMember f).maxHP = f.maxHP :=
      congrArg Stage.maxHP (stage_raiseAll xs f)
    rw [List.foldl_append]
    refine ⟨h1, h2, fun e => ⟨fun ⟨x, hx, he⟩ => ?_, fun hne => ?_⟩⟩
    · change Function.update (xs.foldl raiseMember f).life y.entity _ e = _ ∧
        Function.update (xs.foldl raiseMember f).hp y.entity _ e = _
      by_cases hy : e = y.entity
      · simp [hy, hmax]
      · rw [Function.update_of_ne hy, Function.update_of_ne hy]
        rcases List.mem_append.mp hx with hx | hx
        · exact (h3 e).1 ⟨x, hx, he⟩
        · rw [List.mem_singleton.mp hx] at he
          exact absurd he.symm hy
    · change Function.update (xs.foldl raiseMember f).life y.entity _ e = _ ∧
        Function.update (xs.foldl raiseMember f).hp y.entity _ e = _
      have hy : e ≠ y.entity := fun he => hne y (by simp) he.symm
      rw [Function.update_of_ne hy, Function.update_of_ne hy]
      exact (h3 e).2 fun x hx => hne x (List.mem_append_left _ hx)

theorem raised (f : Field) (e : Nat) :
    (f.Takes e → (f.crew.foldl raiseMember f).raiseBot.life e = some .alive ∧
      (f.crew.foldl raiseMember f).raiseBot.hp e = some f.maxHP) ∧
    (¬ f.Takes e → (f.crew.foldl raiseMember f).raiseBot.life e = f.life e ∧
      (f.crew.foldl raiseMember f).raiseBot.hp e = f.hp e) := by
  obtain ⟨-, -, h3⟩ := lives_raiseAll f.crew f
  have hs := stage_raiseAll f.crew f
  have hbot : (f.crew.foldl raiseMember f).bot = f.bot := congrArg Stage.bot hs
  have hmax : (f.crew.foldl raiseMember f).maxHP = f.maxHP := congrArg Stage.maxHP hs
  unfold raiseBot
  rw [hbot]
  by_cases hz : f.bot ≠ 0
  · rw [if_pos hz]
    change (_ → Function.update _ f.bot _ e = _ ∧ Function.update _ f.bot _ e = _) ∧
      (_ → Function.update _ f.bot _ e = _ ∧ Function.update _ f.bot _ e = _)
    by_cases he : e = f.bot
    · rw [he, Function.update_self, Function.update_self, hmax]
      exact ⟨fun _ => ⟨rfl, rfl⟩, fun hn => absurd (Or.inr ⟨hz, rfl⟩) hn⟩
    · rw [Function.update_of_ne he, Function.update_of_ne he]
      refine ⟨fun ht => (h3 e).1 (ht.resolve_right fun hb => he hb.2), fun hn => (h3 e).2 ?_⟩
      exact fun x hx hxe => hn (Or.inl ⟨x, hx, hxe⟩)
  · rw [if_neg hz]
    refine ⟨fun ht => (h3 e).1 (ht.resolve_right fun hb => hz hb.1), fun hn => (h3 e).2 ?_⟩
    exact fun x hx hxe => hn (Or.inl ⟨x, hx, hxe⟩)

theorem lifeOf_raised {f' : Field} (hc : f'.crew = f.crew) (hb : f'.bot = f.bot) (he : f.Takes e) :
    ((f'.crew.foldl raiseMember f').raiseBot).lifeOf e = .alive := by
  have hl := ((raised f' e).1 ((takes_of_eq hc hb).mpr he)).1
  simp [lifeOf, hl]

theorem knock_raiseBot : f.raiseBot.knock = f.knock := by
  unfold raiseBot
  split <;> rfl

theorem rescues_raiseBot : f.raiseBot.rescues = f.rescues := by
  unfold raiseBot
  split <;> rfl

theorem initHP_cleared : f.initHP.knock = (fun _ => none) ∧ f.initHP.rescues = fun _ => none :=
  ⟨knock_raiseBot.trans (lives_raiseAll _ _).1, rescues_raiseBot.trans (lives_raiseAll _ _).2.1⟩

theorem body_retireBot_off (he : e ≠ f.bot ∨ f.bot = 0) : f.retireBot.life e = f.life e ∧
    f.retireBot.hp e = f.hp e := by
  unfold retireBot
  split
  · exact ⟨rfl, rfl⟩
  · rename_i hb
    have hne := he.resolve_right hb
    exact ⟨Function.update_of_ne hne .., Function.update_of_ne hne ..⟩

theorem body_retireBot : f.retireBot.knock = f.knock ∧ f.retireBot.rescues = f.rescues := by
  unfold retireBot
  split <;> exact ⟨rfl, rfl⟩

theorem records_join {s : SessionId} {team : Nat} :
    (f.join s team).knock = f.knock ∧ (f.join s team).rescues = f.rescues :=
  body_retireBot (f := ((f.enlist s team).raise (team * 2 ^ 24 + f.nextSlot)).note
    (.seated (team * 2 ^ 24 + f.nextSlot)))

theorem takes_join {s : SessionId} {team : Nat} : (f.join s team).Takes e ↔
    e = team * 2 ^ 24 + f.nextSlot ∨ ∃ x ∈ f.crew, x.entity = e := by
  unfold Takes
  rw [crew_join, bot_join]
  constructor
  · rintro (⟨x, hx, rfl⟩ | ⟨hb, -⟩)
    · rcases List.mem_append.mp hx with hx | hx
      · exact Or.inr ⟨x, hx, rfl⟩
      · rw [List.mem_singleton.mp hx]
        exact Or.inl rfl
    · exact absurd rfl hb
  · rintro (rfl | ⟨x, hx, rfl⟩)
    · exact Or.inl ⟨⟨s, team * 2 ^ 24 + f.nextSlot, team⟩, by simp, rfl⟩
    · exact Or.inl ⟨x, List.mem_append_left _ hx, rfl⟩

theorem body_join {s : SessionId} {team : Nat} (hnew : e ≠ team * 2 ^ 24 + f.nextSlot)
    (hbot : e ≠ f.bot ∨ f.bot = 0) : (f.join s team).life e = f.life e ∧
    (f.join s team).hp e = f.hp e ∧ (f.join s team).knock e = f.knock e ∧
    (f.join s team).rescues e = f.rescues e := by
  obtain ⟨h1, h2⟩ := @body_retireBot_off (((f.enlist s team).raise (team * 2 ^ 24 + f.nextSlot)).note
    (.seated (team * 2 ^ 24 + f.nextSlot))) e hbot
  obtain ⟨h3, h4⟩ := @records_join f s team
  refine ⟨h1.trans ?_, h2.trans ?_, congrFun h3 e, congrFun h4 e⟩
  · exact Function.update_of_ne hnew ..
  · exact Function.update_of_ne hnew ..

theorem body_seat {s : SessionId} {team : Nat}
    (hbot : team * 2 ^ 24 + f.nextSlot ≠ f.bot ∨ f.bot = 0) :
    (f.join s team).life (team * 2 ^ 24 + f.nextSlot) = some .alive ∧
    (f.join s team).hp (team * 2 ^ 24 + f.nextSlot) = some f.maxHP := by
  obtain ⟨h1, h2⟩ := @body_retireBot_off (((f.enlist s team).raise (team * 2 ^ 24 + f.nextSlot)).note
    (.seated (team * 2 ^ 24 + f.nextSlot))) _ hbot
  refine ⟨h1.trans ?_, h2.trans ?_⟩
  · exact Function.update_self ..
  · exact Function.update_self ..

theorem Crewed.low_le (h : f.Crewed) {x : Member} (hx : x ∈ f.crew) : low x.entity ≤ f.slot := by
  obtain ⟨-, k, -, hk, -, he⟩ := h.ids x hx
  have hlt := h.slots
  unfold low
  rw [he]
  omega

theorem low_seat {team k : Nat} (hk : k < 256) : low (team * 2 ^ 24 + k) = k := by
  unfold low
  omega

theorem seat_ne_bot {team k : Nat} (hk : k < 256) (htwo : k ≠ 2) :
    team * 2 ^ 24 + k ≠ botEntityID := by
  unfold botEntityID
  omega

theorem Lives.join {s : SessionId} {team : Nat} (h : f.Lives) (hg : (f.join s team).Crewed)
    (htwo : 2 ≤ f.slot) (hlt : f.slot + 1 < 256) (hb : f.begun = true) : (f.join s team).Lives := by
  have hn := nextSlot_eq hlt
  have hst : (f.join s team).started = f.started := congrArg Stage.started stage_join
  have hbegun : (f.join s team).begun = f.begun := congrArg Stage.begun stage_join
  have hslot : (f.join s team).slot = f.nextSlot := slot_join
  have hseat : team * 2 ^ 24 + f.nextSlot ≠ botEntityID := seat_ne_bot (by omega) (by omega)
  have hseat' : team * 2 ^ 24 + f.nextSlot ≠ f.bot ∨ f.bot = 0 := by
    by_cases hz : f.bot = 0
    · exact Or.inr hz
    · exact Or.inl (h.crewed.bot_eq hz ▸ hseat)
  obtain ⟨hl, hh⟩ := body_seat (s := s) hseat'
  obtain ⟨hk, hr⟩ := @records_join f s team
  have hfresh : ¬ f.Takes (team * 2 ^ 24 + f.nextSlot) := by
    rintro (⟨x, hx, he⟩ | ⟨hz, he⟩)
    · have hlow := h.crewed.low_le hx
      rw [he, low_seat (by omega)] at hlow
      omega
    · exact hseat'.resolve_right hz he
  refine ⟨hg, fun _ => bot_join, fun t r ht => h.targets t r (by rwa [hr] at ht), fun e => ?_⟩
  by_cases hnew : e = team * 2 ^ 24 + f.nextSlot
  · rw [hnew]
    have haway : f.knock (team * 2 ^ 24 + f.nextSlot) = none ∧
        f.rescues (team * 2 ^ 24 + f.nextSlot) = none := by
      cases h.at_ (team * 2 ^ 24 + f.nextSlot) with
      | ghost hgh => exact absurd hgh.bot hseat
      | away _ _ _ h4 h5 =>
        refine ⟨h4, not_not.mp fun hne => ?_⟩
        have hlow := (h5 hne).2
        rw [low_seat (by omega)] at hlow
        omega
      | alive h1 _ _ _ _ _ => exact absurd h1 hfresh
      | knocked h1 _ _ _ _ _ _ => exact absurd h1 hfresh
      | dead h1 _ _ _ _ _ => exact absurd h1 hfresh
    exact .alive (takes_join.mpr (Or.inl rfl)) (hbegun.trans hb) hl hh (by rw [hk, haway.1])
      (by rw [hr, haway.2])
  · by_cases hbot : e ≠ f.bot ∨ f.bot = 0
    · obtain ⟨h1, h2, h3, h4⟩ := body_join (s := s) hnew hbot
      refine (h.at_ e).frame ?_ hbegun (fun hs => hst.trans hs) (by rw [hslot]; omega) h1 h2 h3 h4
      rw [takes_join]
      constructor
      · rintro (he | hx)
        · exact absurd he hnew
        · exact Or.inl hx
      · rintro (hx | ⟨hz, he⟩)
        · exact Or.inr hx
        · exact absurd he (hbot.resolve_right hz)
    · push Not at hbot
      obtain ⟨rfl, hz⟩ := hbot
      have heq := h.crewed.bot_eq hz
      refine .ghost ⟨heq, fun ht => ?_, hst.trans (Bool.not_eq_false _ ▸ fun hs => hz (h.early hs))⟩
      rcases takes_join.mp ht with he | ⟨x, hx, he⟩
      · exact hnew he
      · exact h.crewed.entity_ne_bot hx (he.trans heq)

theorem Crewed.takes_leave {x : Member} (h : f.Crewed) (hx : x ∈ f.crew) :
    (f.leave x.s x.entity).Takes e ↔ e ≠ x.entity ∧ f.Takes e := by
  constructor
  · rintro (⟨y, hy, rfl⟩ | hb)
    · obtain ⟨hy, hs⟩ := List.mem_filter.mp hy
      refine ⟨fun he => ?_, takes_crew hy⟩
      rw [h.entity_inj hy hx he] at hs
      simp at hs
    · refine ⟨fun he => ?_, Or.inr hb⟩
      exact h.entity_ne_bot hx (he.symm.trans (hb.2.trans (h.bot_eq hb.1)))
  · rintro ⟨hne, ⟨y, hy, rfl⟩ | hb⟩
    · refine Or.inl ⟨y, List.mem_filter.mpr ⟨hy, ?_⟩, rfl⟩
      simp only [ne_eq, decide_not, Bool.not_eq_eq_eq_not, Bool.not_true, decide_eq_false_iff_not]
      exact fun hs => hne (congrArg Member.entity (h.session_inj hy hx hs))
    · exact Or.inr hb

theorem Lives.leave {x : Member} (h : f.Lives) (hx : x ∈ f.crew)
    (hg : (f.leave x.s x.entity).Crewed) : (f.leave x.s x.entity).Lives := by
  have htakes : ∀ e, (f.leave x.s x.entity).Takes e ↔ e ≠ x.entity ∧ f.Takes e :=
    fun _ => h.crewed.takes_leave hx
  refine ⟨hg, h.early, h.targets, fun e => ?_⟩
  by_cases he : e = x.entity
  · rw [he]
    refine .away (fun _ ht => ((htakes _).mp ht).1 rfl) (Function.update_self ..)
      (Function.update_self ..) (Function.update_self ..) fun _ => ?_
    exact ⟨h.crewed.entity_ne_bot hx, h.crewed.low_le hx⟩
  · refine (h.at_ e).frame ?_ rfl id (Nat.le_refl _) (Function.update_of_ne he ..)
      (Function.update_of_ne he ..) (Function.update_of_ne he ..) rfl
    rw [htakes]
    exact and_iff_right he

theorem Lives.revive {ph : CsPhase} (h : f.Lives) (hb : f.begun = true) :
    ({ f.reviveAll with phase := ph } : Field).Lives := by
  have hs := stage_reviveAll (f := f)
  have hcrew : f.reviveAll.crew = f.crew := congrArg Stage.crew hs
  have hbot : f.reviveAll.bot = f.bot := congrArg Stage.bot hs
  have hbegun : f.reviveAll.begun = f.begun := congrArg Stage.begun hs
  have hst : f.reviveAll.started = f.started := congrArg Stage.started hs
  have hslot : f.reviveAll.slot = f.slot := congrArg Stage.slot hs
  have htakes : ∀ e, ({ f.reviveAll with phase := ph } : Field).Takes e ↔ f.Takes e :=
    fun e => takes_of_eq hcrew hbot
  refine ⟨h.crewed.of_eq hcrew hslot hbot, fun hf => hbot.trans (h.early (hst ▸ hf)), nofun,
    fun e => ?_⟩
  obtain ⟨hup, hoff⟩ := raised f e
  by_cases ht : f.Takes e
  · exact .alive ((htakes e).mpr ht) (hbegun.trans hb) (hup ht).1 (hup ht).2 rfl rfl
  · obtain ⟨h1, h2⟩ := hoff ht
    cases h.at_ e with
    | ghost hgh => exact .ghost (hgh.frame (htakes e) fun hs => hst.trans hs)
    | away h3 h4 h5 _ _ =>
      exact .away (fun _ hg => ht ((htakes e).mp hg)) (h1.trans h4) (h2.trans h5) rfl
        fun hr => absurd rfl hr
    | alive h3 _ _ _ _ _ => exact absurd h3 ht
    | knocked h3 _ _ _ _ _ _ => exact absurd h3 ht
    | dead h3 _ _ _ _ _ => exact absurd h3 ht

theorem Lives.begin_ (h : f.Lives) : f.begin_.Lives := by
  have hs : f.begin_.stage = { f.stage with begun := true, phase := .setupBind } :=
    congrArg (fun x : Stage => { x with phase := CsPhase.setupBind })
      (stage_initHP (f := { f with begun := true }))
  have hcrew : f.begin_.crew = f.crew := congrArg Stage.crew hs
  have hbot : f.begin_.bot = f.bot := congrArg Stage.bot hs
  have hslot : f.begin_.slot = f.slot := congrArg Stage.slot hs
  have hst : f.begin_.started = f.started := congrArg Stage.started hs
  have hbegun : f.begin_.begun = true := congrArg Stage.begun hs
  have htakes : ∀ e, f.begin_.Takes e ↔ f.Takes e := fun e => takes_of_eq hcrew hbot
  obtain ⟨hk, hr⟩ := @initHP_cleared { f with begun := true }
  refine ⟨h.crewed.of_eq hcrew hslot hbot, fun hf => hbot.trans (h.early (hst ▸ hf)),
    fun t r ht => ?_, fun e => ?_⟩
  · exact absurd ((congrFun hr t).symm.trans ht) (by simp)
  · obtain ⟨hup, hoff⟩ := raised ({ f with begun := true } : Field).clear e
    have htk : ({ f with begun := true } : Field).clear.Takes e ↔ f.Takes e := takes_of_eq rfl rfl
    by_cases ht : f.Takes e
    · obtain ⟨h1, h2⟩ := hup (htk.mpr ht)
      exact .alive ((htakes e).mpr ht) hbegun h1 h2 (congrFun hk e) (congrFun hr e)
    · obtain ⟨h1, h2⟩ := hoff fun hx => ht (htk.mp hx)
      exact .away (fun _ hg => ht ((htakes e).mp hg)) h1 h2 (congrFun hk e) fun hx =>
        absurd (congrFun hr e) hx

theorem lives_untouched (h : f.Untouched) : f.Lives where
  crewed := crewed_untouched h
  early := fun _ => h.bot
  targets := fun t r hr => by
    rw [h.rescues] at hr
    cases hr
  at_ := fun e => .away (fun hb => absurd (h.begun.symm.trans hb) (by decide)) (by rw [h.life])
    (by rw [h.hp]) (by rw [h.knock]) fun hr => absurd (congrFun h.rescues e) hr

theorem Lives.rescue {t : Nat} {r : Option RescueState} (h : f.Lives)
    (hr : ∀ r', r = some r' → r'.target = t ∧ f.lifeOf t = .knocked) :
    ({ f with rescues := Function.update f.rescues t r } : Field).Lives := by
  refine h.single t rfl (fun a ha => ?_) (fun t' r' ht => ?_) fun hat hghost => ?_
  · simp [Function.update_of_ne ha]
  · by_cases htt : t' = t
    · rw [htt]
      have ht' : r = some r' := by
        rw [htt] at ht
        exact (Function.update_self t r f.rescues).symm.trans ht
      exact (hr r' ht').1
    · exact h.targets t' r' ((Function.update_of_ne htt r f.rescues).symm.trans ht)
  · have hself : Function.update f.rescues t r t = r := Function.update_self ..
    have hnone : f.lifeOf t ≠ .knocked → r = none := fun hne => by
      cases hrr : r with
      | none => rfl
      | some r' => exact absurd (hr r' hrr).2 hne
    cases hat with
    | ghost hg => exact hghost hg
    | away h1 h2 h3 h4 h5 =>
      have hz := hnone (by simp [lifeOf, h2])
      exact .away h1 h2 h3 h4 fun hne => absurd (hself.trans hz) hne
    | alive h1 h2 h3 h4 h5 _ =>
      exact .alive h1 h2 h3 h4 h5 (hself.trans (hnone (by simp [lifeOf, h3])))
    | knocked h1 h2 h3 h4 h5 h6 h7 => exact .knocked h1 h2 h3 h4 h5 h6 h7
    | dead h1 h2 h3 h4 h5 _ =>
      exact .dead h1 h2 h3 h4 h5 (hself.trans (hnone (by simp [lifeOf, h3])))

theorem Lives.rescueTick {t : Nat} (h : f.Lives) : (f.rescueTick now t).Lives := by
  unfold Field.rescueTick
  split
  · exact h
  rename_i r hr
  have hdrop : ({ f with rescues := Function.update f.rescues t none } : Field).Lives :=
    h.rescue fun r' hr' => by cases hr'
  split
  · exact hdrop
  split
  · exact h
  rename_i hlife _
  have hknocked : f.lifeOf t = .knocked := not_not.mp fun hne => hlife (Or.inl hne)
  obtain rfl : r.target = t := h.targets t r hr
  refine hdrop.single r.target rfl (fun a ha => ?_) hdrop.targets fun hat hghost => ?_
  · simp [completeRescue, Function.update_of_ne ha]
  · cases hat with
    | ghost hg => exact hghost hg
    | away _ h2 _ _ _ =>
      have h2' : f.life r.target = none := h2
      simp [lifeOf, h2'] at hknocked
    | alive _ _ h3 _ _ _ =>
      have h3' : f.life r.target = some .alive := h3
      simp [lifeOf, h3'] at hknocked
    | knocked h1 h2 _ _ _ _ _ =>
      exact .alive h1 h2 (Function.update_self ..) (Function.update_self ..)
        (Function.update_self ..) (Function.update_self ..)
    | dead _ _ h3 _ _ _ =>
      have h3' : f.life r.target = some .dead := h3
      simp [lifeOf, h3'] at hknocked

theorem lives_move (h : f.Lives) (hm : Move now l f g)
    (hup : l ≠ .setup → l ≠ .begin_ → f.begun = true) : g.Lives := by
  have hcrew := crewed_move h.crewed hm
  cases hm with
  | hit hf => exact (@blows_hit _ _ _ _ _ _ now hf).invariant h fun hi hb => lives_blow hi hb
  | startRescue =>
    unfold startRescue at hcrew ⊢
    split
    · exact h
    rename_i hc
    split
    · exact h
    · refine h.rescue fun r' hr' => ?_
      rw [← Option.some.inj hr']
      exact ⟨rfl, not_not.mp fun hne => hc (Or.inl hne)⟩
  | stopRescue =>
    unfold stopRescue
    split
    · split
      · exact h.rescue fun r' hr' => by cases hr'
      · exact h
    · exact h
  | leave hx => exact h.leave hx hcrew
  | join _ _ htwo hlt hb => exact h.join hcrew htwo hlt hb
  | setup hf _ =>
    refine ⟨hcrew, fun _ => rfl, h.targets, fun e => ?_⟩
    exact .away (fun hb => Bool.noConfusion hb) (congrFun hf.life e) (congrFun hf.hp e)
      (congrFun hf.knock e) fun hr => absurd (congrFun hf.rescues e) hr
  | begin_ _ => exact h.begin_
  | bleed => exact blows_bleed.invariant h fun hi hb => lives_blow hi hb
  | rescue => exact h.rescueTick
  | @heal _ x gain n hx halive _ _ =>
    refine h.single x.entity rfl (fun a ha => ?_) h.targets fun hat hghost => ?_
    · simp [Field.heal, Function.update_of_ne ha]
    · have hself : Function.update f.hp x.entity (some n) x.entity = some n :=
        Function.update_self ..
      have htakes := takes_crew hx
      cases hat with
      | ghost hg => exact hghost hg
      | away h1 _ _ _ _ => exact absurd htakes (h1 (hup (by rintro ⟨⟩) (by rintro ⟨⟩)))
      | alive h1 h2 h3 _ h5 h6 => exact .alive h1 h2 h3 hself h5 h6
      | knocked _ _ h3 _ _ _ _ => simp [lifeOf, h3] at halive
      | dead _ _ h3 _ _ _ => simp [lifeOf, h3] at halive
  | revive _ _ => exact h.revive (hup (by rintro ⟨⟩) (by rintro ⟨⟩))
  | bot hst hp =>
    refine ⟨hcrew, fun hf => Bool.noConfusion hf, h.targets, fun e => ?_⟩
    have hzero := h.early hst
    have htakes : ∀ e, f.Takes e → ({ f.spawnBot with phase := .prepare, started := true } : Field).Takes
        e := fun e => Or.imp_right fun hb => absurd hzero hb.1
    have hout : ¬ f.Takes botEntityID := fun ht => h.crewed.takes_bot.mp ht hzero
    by_cases he : e = botEntityID
    · subst he
      have hquiet : f.knock botEntityID = none ∧ f.rescues botEntityID = none := by
        cases h.at_ botEntityID with
        | ghost hg => exact absurd (hst.symm.trans hg.started) Bool.false_ne_true
        | away _ _ _ h4 h5 => exact ⟨h4, not_not.mp fun hne => (h5 hne).1 rfl⟩
        | alive h1 _ _ _ _ _ => exact absurd h1 hout
        | knocked h1 _ _ _ _ _ _ => exact absurd h1 hout
        | dead h1 _ _ _ _ _ => exact absurd h1 hout
      have hbot : botEntityID ≠ 0 := by decide
      have hlife : Function.update f.life botEntityID (some .alive) botEntityID = some .alive :=
        Function.update_self ..
      have hhp : Function.update f.hp botEntityID (some f.maxHP) botEntityID = some f.maxHP :=
        Function.update_self ..
      exact .alive (Or.inr ⟨hbot, rfl⟩) (hup (by rintro ⟨⟩) (by rintro ⟨⟩)) hlife hhp hquiet.1 hquiet.2
    · refine (h.at_ e).frame ⟨fun ht => ?_, htakes e⟩ rfl (fun _ => rfl) (Nat.le_refl _)
        (Function.update_of_ne he ..) (Function.update_of_ne he ..) rfl rfl
      exact ht.imp_right fun hb => absurd hb.2 he
  | fight _ _ => exact ⟨hcrew, h.early, h.targets, fun e => (h.at_ e).frame Iff.rfl rfl id
      (Nat.le_refl _) rfl rfl rfl rfl⟩
  | score _ _ _ _ => exact ⟨hcrew, h.early, h.targets, fun e => (h.at_ e).frame Iff.rfl rfl id
      (Nat.le_refl _) rfl rfl rfl rfl⟩
  | @turn _ ph st ds hf => exact ⟨hcrew, fun hst => h.early (Bool.eq_false_iff.mpr fun hs =>
      absurd (hst.symm.trans (hf.started hs)) Bool.false_ne_true), h.targets, fun e =>
      (h.at_ e).frame Iff.rfl rfl hf.started (Nat.le_refl _) rfl rfl rfl rfl⟩

end Field

end MatchServer

import Madoka.MatchServer.Lives

namespace MatchServer

open Lib MatchServer.Core

namespace Field

-- Whoever bleeds has a teammate on its feet.
def Upright (f : Field) : Prop :=
  ∀ e, f.Takes e → f.lifeOf e = .knocked → 0 < f.standing (teamOf e)

def strands (f : Field) (e : Nat) : Bool :=
  (f.takers.any fun x => x != e && teamOf x == teamOf e && f.lifeOf x == .knocked) &&
    !f.takers.any fun x => x != e && teamOf x == teamOf e && f.lifeOf x == .alive

variable {f g : Field} {victim attacker dmg e a t k : Nat} {ks : KnockState} {order : List Nat}
  {now : Int} {l : Label} {cur n : Nat} {ds : List Deed}

theorem stands_of_strands (h : f.strands e = false) (ha : f.Takes a) (hne : a ≠ e)
    (ht : teamOf a = teamOf e) (hk : f.lifeOf a = .knocked) :
    ∃ x, x ≠ e ∧ f.Takes x ∧ teamOf x = teamOf e ∧ f.lifeOf x = .alive := by
  unfold strands at h
  rw [Bool.and_eq_false_iff] at h
  rcases h with h | h
  · rw [List.any_eq_false] at h
    exact absurd (h a (mem_takers.mpr ha)) (by simp [hne, ht, hk])
  · simp only [Bool.not_eq_eq_eq_not, Bool.not_false, List.any_eq_true, Bool.and_eq_true, bne_iff_ne,
      beq_iff_eq] at h
    obtain ⟨x, hx, ⟨h1, h2⟩, h3⟩ := h
    exact ⟨x, h1, mem_takers.mp hx, h2, h3⟩

theorem Upright.frame (h : f.Upright) (hf : f.Crewed) (hg : g.Crewed)
    (ht : ∀ e, g.Takes e ↔ f.Takes e)
    (hk : ∀ e, f.Takes e → g.lifeOf e = .knocked → f.lifeOf e = .knocked)
    (ha : ∀ e, f.Takes e → f.lifeOf e = .alive → g.lifeOf e = .alive) : g.Upright := by
  intro e he hl
  have hte := (ht e).mp he
  obtain ⟨a, h1, h2, h3⟩ := hf.standing_pos.mp (h e hte (hk e hte hl))
  exact hg.standing_pos.mpr ⟨a, (ht a).mpr h1, h2, ha a h1 h3⟩

theorem upright_of_alive (hg : ∀ e, g.Takes e → g.lifeOf e = .alive) : g.Upright := by
  intro e he hl
  rw [hg e he] at hl
  exact LifeState.noConfusion hl

theorem lifeOf_update {x : LifeState} (hl : g.life = Function.update f.life a (some x)) :
    g.lifeOf e = if e = a then x else f.lifeOf e := by
  unfold lifeOf
  rw [hl]
  split
  · rename_i he
    rw [he, Function.update_self]
    rfl
  · rename_i he
    rw [Function.update_of_ne he]

theorem Upright.finalize (h : f.Upright) (hf : f.Lives) (hk : f.knock e = some ks) :
    (f.finalize e ks).Upright := by
  have hl : ∀ {x}, (f.finalize e ks).lifeOf x = if x = e then .dead else f.lifeOf x :=
    lifeOf_update finalize_life
  refine h.frame hf.crewed (hf.crewed.of_stage stage_finalize) (fun _ => takes_of_stage stage_finalize)
    (fun x _ hx => ?_) fun x hx hal => ?_
  · rw [hl] at hx
    split at hx
    · exact LifeState.noConfusion hx
    · exact hx
  · rw [hl, if_neg ?_]
    · exact hal
    · rintro rfl
      rcases (hf.at_ x).bleeding hk with hg | ⟨-, -, hlife, -⟩
      · exact hg.out hx
      · simp [lifeOf, hlife] at hal

theorem wiped_out {team : Nat} (xs : List Nat) (f : Field) :
    (∀ e, (xs.foldl (finalizeFallen team) f).lifeOf e = .knocked → f.lifeOf e = .knocked ∧
      (teamOf e = team → (xs.foldl (finalizeFallen team) f).knock e ≠ none → e ∉ xs)) ∧
    ∀ e, f.lifeOf e = .alive → (xs.foldl (finalizeFallen team) f).lifeOf e = .alive := by
  induction xs using List.reverseRecOn with
  | nil => exact ⟨fun e he => ⟨he, fun _ _ => List.not_mem_nil⟩, fun _ => id⟩
  | append_singleton xs x ih =>
    rw [List.foldl_append]
    generalize xs.foldl (finalizeFallen team) f = g at ih
    change (∀ e, (finalizeFallen team g x).lifeOf e = .knocked → f.lifeOf e = .knocked ∧
      (teamOf e = team → (finalizeFallen team g x).knock e ≠ none → e ∉ xs ++ [x])) ∧
      ∀ e, f.lifeOf e = .alive → (finalizeFallen team g x).lifeOf e = .alive
    unfold finalizeFallen
    split
    · rename_i ks hks
      split
      · rename_i hc
        have hl : ∀ {y}, (g.finalize x ks).lifeOf y = if y = x then .dead else g.lifeOf y :=
          lifeOf_update finalize_life
        refine ⟨fun e he => ?_, fun e he => ?_⟩
        · rw [hl] at he
          split at he
          · exact LifeState.noConfusion he
          · rename_i hne
            obtain ⟨h1, h2⟩ := ih.1 e he
            refine ⟨h1, fun hte hk hm => ?_⟩
            rw [finalize_knock, Function.update_of_ne hne] at hk
            rcases List.mem_append.mp hm with hm | hm
            · exact h2 hte hk hm
            · exact hne (List.mem_singleton.mp hm)
        · rw [hl, if_neg ?_]
          · exact ih.2 e he
          · rintro rfl
            exact LifeState.noConfusion ((ih.2 e he).symm.trans hc.2)
      · rename_i hc
        refine ⟨fun e he => ?_, ih.2⟩
        obtain ⟨h1, h2⟩ := ih.1 e he
        refine ⟨h1, fun hte hk hm => ?_⟩
        rcases List.mem_append.mp hm with hm | hm
        · exact h2 hte hk hm
        · rw [List.mem_singleton.mp hm] at hte he
          exact hc ⟨hte, he⟩
    · rename_i hnone
      refine ⟨fun e he => ?_, ih.2⟩
      obtain ⟨h1, h2⟩ := ih.1 e he
      refine ⟨h1, fun hte hk hm => ?_⟩
      rcases List.mem_append.mp hm with hm | hm
      · exact h2 hte hk hm
      · rw [List.mem_singleton.mp hm] at hk
        exact hk hnone

theorem Crewed.alone (h : f.Crewed) (hone : f.size t ≤ 1) (he : f.Takes e) (hte : teamOf e = t)
    (ha : f.Takes a) (hta : teamOf a = t) : e = a := by
  rw [size_eq] at hone
  exact h.census_unique hone he hte rfl ha hta rfl

theorem Upright.kill (h : f.Upright) (hf : f.Crewed) (hone : f.size (teamOf victim) ≤ 1) :
    ((f.fatal victim attacker dmg).kill victim attacker).Upright := by
  have hs : ((f.fatal victim attacker dmg).kill victim attacker).stage = f.stage :=
    stage_kill.trans stage_fatal
  have hl : ∀ {x}, ((f.fatal victim attacker dmg).kill victim attacker).lifeOf x =
      if x = victim then .dead else f.lifeOf x := lifeOf_update (by simp)
  intro e he hk
  have hte := (takes_of_stage hs).mp he
  rw [hl] at hk
  split at hk
  · exact LifeState.noConfusion hk
  · rename_i hne
    obtain ⟨a, h1, h2, h3⟩ := hf.standing_pos.mp (h e hte hk)
    refine (hf.of_stage hs).standing_pos.mpr ⟨a, (takes_of_stage hs).mpr h1, h2, ?_⟩
    rw [hl, if_neg ?_]
    · exact h3
    · intro hav
      have heq := hf.alone hone h1 (congrArg teamOf hav) hte (h2 ▸ congrArg teamOf hav)
      rw [heq, hk] at h3
      exact LifeState.noConfusion h3

theorem Lives.record (h : f.Lives) (hb : f.begun = true) (he : f.Takes e)
    (hk : f.lifeOf e = .knocked) : f.knock e ≠ none := by
  cases h.at_ e with
  | ghost hg => exact absurd he hg.out
  | away h1 _ _ _ _ => exact absurd he (h1 hb)
  | alive _ _ h3 _ _ _ => simp [lifeOf, h3] at hk
  | knocked _ _ _ h4 _ _ _ =>
    rw [h4]
    exact Option.some_ne_none _
  | dead _ _ h3 _ _ _ => simp [lifeOf, h3] at hk

theorem visited (hf : f.Lives) (hb : f.begun = true) (hfalls : f.Falls victim attacker ks order)
    (he : f.Takes e) (hk : f.lifeOf e = .knocked ∨ e = victim) : e ∈ order :=
  hfalls.visits e (hk.imp_left fun hk => hf.record hb he hk)

theorem Upright.knockDown {d : Field} (h : f.Upright) (hf : f.Lives) (hb : f.begun = true)
    (hfalls : f.Falls victim attacker ks order) (hs : d.stage = f.stage)
    (hdl : d.life = Function.update f.life victim (some .knocked))
    (hg : (if d.standing (teamOf victim) = 0 then
      order.foldl (finalizeFallen (teamOf victim)) d else d).Lives) :
    (if d.standing (teamOf victim) = 0 then
      order.foldl (finalizeFallen (teamOf victim)) d else d).Upright := by
  have hl : ∀ {x}, d.lifeOf x = if x = victim then .knocked else f.lifeOf x := lifeOf_update hdl
  have hdown : ∀ e, d.lifeOf e = .knocked → f.lifeOf e = .knocked ∨ e = victim := fun e hk => by
    rw [hl] at hk
    split at hk
    · exact Or.inr ‹_›
    · exact Or.inl hk
  have hother : ∀ e, d.Takes e → d.lifeOf e = .knocked → teamOf e ≠ teamOf victim →
      ∃ a, f.Takes a ∧ teamOf a = teamOf e ∧ d.lifeOf a = .alive := by
    intro e he hk hne
    have hkf := (hdown e hk).resolve_right fun hev => hne (congrArg teamOf hev)
    obtain ⟨a, h1, h2, h3⟩ := hf.crewed.standing_pos.mp (h e ((takes_of_stage hs).mp he) hkf)
    refine ⟨a, h1, h2, ?_⟩
    rw [hl, if_neg (fun hav => hne (h2.symm.trans (congrArg teamOf hav)))]
    exact h3
  revert hg
  split
  · have hsg : (order.foldl (finalizeFallen (teamOf victim)) d).stage = f.stage :=
      (stage_foldl (fun _ _ => stage_finalizeFallen) _ _).trans hs
    obtain ⟨hwiped, halive⟩ := @wiped_out (teamOf victim) order d
    intro hg e he hk
    obtain ⟨hkd, hrec⟩ := hwiped e hk
    have hef := (takes_of_stage hsg).mp he
    by_cases hte : teamOf e = teamOf victim
    · -- The record of a KNOCKED teammate was visited, so nothing of it is left.
      have hknock := hg.record ((begun_of_stage hsg).trans hb) he hk
      exact absurd (visited hf hb hfalls hef (hdown e hkd)) (hrec hte hknock)
    · obtain ⟨a, h1, h2, h3⟩ := hother e ((takes_of_stage hs).mpr hef) hkd hte
      exact hg.crewed.standing_pos.mpr ⟨a, (takes_of_stage hsg).mpr h1, h2, halive a h3⟩
  · rename_i hstand
    intro hg e he hk
    by_cases hte : teamOf e = teamOf victim
    · rw [hte]
      exact Nat.pos_of_ne_zero hstand
    · obtain ⟨a, h1, h2, h3⟩ := hother e he hk hte
      exact hg.crewed.standing_pos.mpr ⟨a, (takes_of_stage hs).mpr h1, h2, h3⟩

theorem upright_hit (h : f.Upright) (hf : f.Lives) (hb : f.begun = true)
    (hfalls : f.Falls victim attacker ks order) :
    (f.applyDamage victim attacker dmg ks order).Upright := by
  have hgoal := (@blows_hit _ _ _ dmg _ _ 0 hfalls).invariant hf fun hi hbl => lives_blow hi hbl
  have hcredit : (f.creditDamage victim attacker dmg).Upright :=
    h.frame hf.crewed (hf.crewed.of_stage stage_creditDamage)
      (fun _ => takes_of_stage stage_creditDamage) (fun _ _ => by simp [lifeOf])
      fun _ _ => by simp [lifeOf]
  revert hgoal
  unfold applyDamage
  split
  · exact fun _ => h
  split
  · unfold damageKnocked
    split
    · exact fun _ => h
    rename_i ks' hk
    dsimp only
    split
    · rw [finalize_hp_update]
      exact fun _ => hcredit.finalize hf.creditDamage (by simpa using hk)
    · intro hg
      refine h.frame hf.crewed hg.crewed (fun e => ?_) (fun _ _ => by simp [lifeOf])
        fun _ _ => by simp [lifeOf]
      exact takes_of_stage stage_creditDamage
  · exact fun _ => h
  split
  · exact fun _ => h
  split
  · exact fun _ => h
  rename_i cur _ _
  dsimp only
  by_cases hle : cur ≤ dmg
  · rw [if_pos hle, if_pos rfl]
    have hsize : ∀ team, (f.fatal victim attacker dmg).size team = f.size team := fun team => by
      simp only [size, show (f.fatal victim attacker dmg).crew = f.crew from
        congrArg Stage.crew stage_fatal, show (f.fatal victim attacker dmg).bot = f.bot from
        congrArg Stage.bot stage_fatal]
    change Lives (if (f.fatal victim attacker dmg).size (teamOf victim) ≤ 1 then _ else _) →
      Upright (if (f.fatal victim attacker dmg).size (teamOf victim) ≤ 1 then _ else _)
    rw [hsize]
    split
    · rename_i hone
      exact fun _ => h.kill hf.crewed hone
    · exact h.knockDown hf hb hfalls (stage_knockDown.trans stage_fatal) (by simp)
  · rw [if_neg hle, if_neg (by omega)]
    intro hg
    exact h.frame hf.crewed hg.crewed (fun e => takes_of_stage stage_creditDamage)
      (fun _ _ => by simp [lifeOf]) fun _ _ => by simp [lifeOf]

theorem Upright.leave {x : Member} (h : f.Upright) (hf : f.Crewed) (hx : x ∈ f.crew)
    (hg : (f.leave x.s x.entity).Crewed) (hs : f.strands x.entity = false) :
    (f.leave x.s x.entity).Upright := by
  have hl : ∀ {e}, e ≠ x.entity → (f.leave x.s x.entity).lifeOf e = f.lifeOf e := fun {e} he => by
    change (Function.update f.life x.entity none e).getD .alive = f.lifeOf e
    rw [Function.update_of_ne he]
    rfl
  intro e he hk
  obtain ⟨hne, hte⟩ := (hf.takes_leave hx).mp he
  rw [hl hne] at hk
  have hstands : ∃ a, a ≠ x.entity ∧ f.Takes a ∧ teamOf a = teamOf e ∧ f.lifeOf a = .alive := by
    by_cases hteam : teamOf e = teamOf x.entity
    · obtain ⟨a, h1, h2, h3, h4⟩ := stands_of_strands hs hte hne hteam hk
      exact ⟨a, h1, h2, h3.trans hteam.symm, h4⟩
    · obtain ⟨a, h1, h2, h3⟩ := hf.standing_pos.mp (h e hte hk)
      exact ⟨a, fun ha => hteam (h2.symm.trans (congrArg teamOf ha)), h1, h2, h3⟩
  obtain ⟨a, h1, h2, h3, h4⟩ := hstands
  exact hg.standing_pos.mpr ⟨a, (hf.takes_leave hx).mpr ⟨h1, h2⟩, h3, (hl h1).trans h4⟩

theorem teamOf_seat {team : Nat} (ht : team = 1 ∨ team = 2) (hk : k < 256) :
    teamOf (team * 2 ^ 24 + k) = team := by
  unfold teamOf
  omega

theorem Upright.join {s : SessionId} {team : Nat} (h : f.Upright) (hf : f.Lives)
    (hg : (f.join s team).Crewed) (ht : team = 1 ∨ team = 2) (htwo : 2 ≤ f.slot)
    (hlt : f.slot + 1 < 256) (hs : f.bot = 0 ∨ team = enemyTeamID ∨ f.strands f.bot = false) :
    (f.join s team).Upright := by
  have hn := nextSlot_eq hlt
  have hseat : ∀ (hz : f.bot ≠ 0), team * 2 ^ 24 + f.nextSlot ≠ f.bot := fun hz => by
    rw [hf.crewed.bot_eq hz]
    exact seat_ne_bot (by omega) (by omega)
  have hseat' : team * 2 ^ 24 + f.nextSlot ≠ f.bot ∨ f.bot = 0 := by
    by_cases hz : f.bot = 0
    · exact Or.inr hz
    · exact Or.inl (hseat hz)
  have hnew : (f.join s team).lifeOf (team * 2 ^ 24 + f.nextSlot) = .alive := by
    unfold lifeOf
    rw [(body_seat (s := s) hseat').1]
    rfl
  have hold : ∀ x ∈ f.crew, (f.join s team).lifeOf x.entity = f.lifeOf x.entity := by
    intro x hx
    unfold lifeOf
    rw [(body_join (s := s) ?_ ?_).1]
    · intro heq
      have hlow := hf.crewed.low_le hx
      rw [heq, low_seat (by omega)] at hlow
      omega
    · by_cases hz : f.bot = 0
      · exact Or.inr hz
      · exact Or.inl fun heq => hf.crewed.entity_ne_bot hx (heq.trans (hf.crewed.bot_eq hz))
  intro e he hk
  rcases takes_join.mp he with rfl | ⟨x, hx, rfl⟩
  · rw [hnew] at hk
    exact LifeState.noConfusion hk
  · rw [hold x hx] at hk
    have hkeep : ∀ y ∈ f.crew, f.lifeOf y.entity = .alive → teamOf y.entity = teamOf x.entity →
        0 < (f.join s team).standing (teamOf x.entity) := fun y hy hal hte =>
      hg.standing_pos.mpr ⟨y.entity, takes_join.mpr (Or.inr ⟨y, hy, rfl⟩), hte,
        (hold y hy).trans hal⟩
    obtain ⟨a, h1, h2, h3⟩ := hf.crewed.standing_pos.mp (h _ (takes_crew hx) hk)
    rcases h1 with ⟨y, hy, rfl⟩ | ⟨hz, rfl⟩
    · exact hkeep y hy h3 h2
    -- The one that stands is the bot, which makes way.
    · have hbot : teamOf f.bot = enemyTeamID := by rw [hf.crewed.bot_eq hz, teamOf_bot]
      rcases hs with hs | rfl | hs
      · exact absurd hs hz
      · refine hg.standing_pos.mpr ⟨_, takes_join.mpr (Or.inl rfl), ?_, hnew⟩
        exact (teamOf_seat ht (by omega)).trans (hbot.symm.trans h2)
      · have hxb : x.entity ≠ f.bot := fun heq =>
          hf.crewed.entity_ne_bot hx (heq.trans (hf.crewed.bot_eq hz))
        obtain ⟨b, h4, h5, h6, h7⟩ := stands_of_strands hs (takes_crew hx) hxb h2.symm hk
        rcases h5 with ⟨y, hy, rfl⟩ | ⟨-, rfl⟩
        · exact hkeep y hy h7 (h6.trans h2)
        · exact absurd rfl h4

-- What a move must not do, for nobody to be left bleeding alone.
structure Leaves (f : Field) (l : Label) : Prop where
  leave : ∀ x ∈ f.crew, l = .leave x.s → f.strands x.entity = false
  join : ∀ s team, l = .join s team →
    f.bot = 0 ∨ team = enemyTeamID ∨ f.strands f.bot = false

theorem upright_move (h : f.Upright) (hf : f.Lives) (hm : Move now l f g) (hl : f.Leaves l)
    (hup : l ≠ .setup → l ≠ .begin_ → f.begun = true) : g.Upright := by
  have hg := crewed_move hf.crewed hm
  have hsame : g.crew = f.crew → g.bot = f.bot → g.life = f.life → g.Upright :=
    fun hc hb hlife => h.frame hf.crewed hg (fun _ => takes_of_eq hc hb)
      (fun _ _ => by simp [lifeOf, hlife]) fun _ _ => by simp [lifeOf, hlife]
  cases hm with
  | hit hfalls => exact upright_hit h hf (hup (by rintro ⟨⟩) (by rintro ⟨⟩)) hfalls
  | startRescue =>
    unfold Field.startRescue at hsame ⊢
    split
    · exact h
    split
    · exact h
    · rename_i h1 h2
      rw [if_neg h1, if_neg h2] at hsame
      exact hsame rfl rfl rfl
  | stopRescue =>
    revert hsame
    unfold Field.stopRescue
    split
    · split
      · exact fun hsame => hsame rfl rfl rfl
      · exact fun _ => h
    · exact fun _ => h
  | leave hx => exact h.leave hf.crewed hx hg (hl.leave _ hx rfl)
  | join _ ht htwo hlt _ => exact h.join hf hg ht htwo hlt (hl.join _ _ rfl)
  | setup hu _ =>
    refine upright_of_alive fun e _ => ?_
    have hlife : f.life e = none := congrFun hu.life e
    change (f.life e).getD .alive = .alive
    rw [hlife]
    rfl
  | begin_ _ =>
    have hs : f.begin_.stage = { f.stage with begun := true, phase := .setupBind } :=
      congrArg (fun x : Stage => { x with phase := CsPhase.setupBind })
        (stage_initHP (f := { f with begun := true }))
    refine upright_of_alive fun e he => ?_
    have hte : f.Takes e := (takes_of_eq (congrArg Stage.crew hs) (congrArg Stage.bot hs)).mp he
    exact @lifeOf_raised _ _ (({ f with begun := true } : Field).clear) rfl rfl hte
  | bleed =>
    revert hg
    unfold Field.bleed
    split
    · exact fun _ => h
    rename_i ks hks
    split
    · exact fun _ => h
    split
    · exact fun _ => h.finalize hf hks
    · exact fun hg => h.frame hf.crewed hg (fun _ => Iff.rfl) (fun _ _ => id) fun _ _ => id
  | @rescue _ t =>
    revert hg
    unfold Field.rescueTick
    split
    · exact fun _ => h
    split
    · exact fun hg => h.frame hf.crewed hg (fun _ => Iff.rfl) (fun _ _ => id) fun _ _ => id
    split
    · exact fun _ => h
    rename_i r _ _ _
    have hlife : ∀ {x}, (({ f with rescues := Function.update f.rescues t none } : Field).completeRescue
        r).lifeOf x = if x = r.target then .alive else f.lifeOf x := lifeOf_update rfl
    intro hg
    refine h.frame hf.crewed hg (fun _ => takes_of_stage rfl) (fun e _ hk => ?_) fun e _ ha => ?_
    · rw [hlife] at hk
      split at hk
      · exact LifeState.noConfusion hk
      · exact hk
    · rw [hlife]
      split
      · rfl
      · exact ha
  | heal _ _ _ _ => exact hsame rfl rfl rfl
  | revive _ _ =>
    have hs := stage_reviveAll (f := f)
    refine upright_of_alive fun e he => ?_
    have hte : f.Takes e := (takes_of_eq (congrArg Stage.crew hs) (congrArg Stage.bot hs)).mp he
    exact lifeOf_raised rfl rfl hte
  | bot hst _ =>
    have hzero := hf.early hst
    have hlife : ∀ {x}, ({ f.spawnBot with phase := .prepare, started := true } : Field).lifeOf x =
        if x = botEntityID then .alive else f.lifeOf x := lifeOf_update rfl
    intro e he hk
    rw [hlife] at hk
    split at hk
    · exact LifeState.noConfusion hk
    rename_i hne
    have hte : f.Takes e := Or.inl (he.resolve_right fun hb => hne hb.2)
    obtain ⟨a, h1, h2, h3⟩ := hf.crewed.standing_pos.mp (h e hte hk)
    refine hg.standing_pos.mpr ⟨a, Or.inl (h1.resolve_right fun hb => hb.1 hzero), h2, ?_⟩
    rw [hlife]
    split
    · rfl
    · exact h3
  | fight _ _ => exact hsame rfl rfl rfl
  | score _ _ _ _ => exact hsame rfl rfl rfl
  | turn _ => exact hsame rfl rfl rfl

def Down (f : Field) (e k : Nat) : Prop :=
  f.Takes e ∧ f.lifeOf e = .knocked ∧ ∃ ks, f.knock e = some ks ∧ ks.killer = k

def Gone (f : Field) (e : Nat) : Prop :=
  ¬ f.Takes e ∧ (e ≠ botEntityID ∧ low e ≤ f.slot ∨ e = botEntityID ∧ f.started = true)

def Fate (f₀ : Field) (e k : Nat) (f : Field) : Prop :=
  ∃ ds, f.deeds = f₀.deeds ++ ds ∧
    (.died e k ∈ ds ∨ (∃ d ∈ ds, d.revives e) ∨ f.Down e k ∨ f.Gone e)

variable {f₀ : Field}

theorem fate_of_down (ha : Grows f g) (hd : g.Down e k) : Fate f e k g := by
  obtain ⟨ds, hds, -⟩ := ha
  exact ⟨ds, hds, Or.inr (Or.inr (Or.inl hd))⟩

theorem fate_of_gone (ha : Grows f g) (hd : g.Gone e) : Fate f e k g := by
  obtain ⟨ds, hds, -⟩ := ha
  exact ⟨ds, hds, Or.inr (Or.inr (Or.inr hd))⟩

theorem Fate.step (h : Fate f₀ e k f) (ha : Grows f g) (hd : f.Down e k → Fate f e k g)
    (hg : f.Gone e → g.Gone e) : Fate f₀ e k g := by
  obtain ⟨ds, hds, h⟩ := h
  obtain ⟨es, hes, -⟩ := ha
  have hall : g.deeds = f₀.deeds ++ (ds ++ es) := by rw [hes, hds, List.append_assoc]
  rcases h with h | ⟨d, hm, hr⟩ | h | h
  · exact ⟨_, hall, Or.inl (List.mem_append_left _ h)⟩
  · exact ⟨_, hall, Or.inr (Or.inl ⟨d, List.mem_append_left _ hm, hr⟩)⟩
  · obtain ⟨es', hes', h⟩ := hd h
    rw [hes, List.append_cancel_left_eq] at hes'
    subst hes'
    refine ⟨_, hall, ?_⟩
    rcases h with h | ⟨d, hm, hr⟩ | h
    · exact Or.inl (List.mem_append_right _ h)
    · exact Or.inr (Or.inl ⟨d, List.mem_append_right _ hm, hr⟩)
    · exact Or.inr (Or.inr h)
  · exact ⟨_, hall, Or.inr (Or.inr (Or.inr (hg h)))⟩

theorem died_finalize : ∃ ds, (f.finalize e ks).deeds = f.deeds ++ .died e ks.killer :: ds := by
  unfold finalize credit
  dsimp only
  split
  · exact ⟨_, by simp [tally, note]; rfl⟩
  · exact ⟨_, by simp [tally, note]; rfl⟩

theorem Down.frame (h : f.Down e k) (ht : g.Takes e ↔ f.Takes e) (hl : g.life e = f.life e)
    (hk : g.knock e = f.knock e) : g.Down e k := by
  obtain ⟨h1, h2, ks, h3, h4⟩ := h
  refine ⟨ht.mpr h1, ?_, ks, hk.trans h3, h4⟩
  unfold lifeOf
  rw [hl]
  exact h2

theorem fate_blow (hb : Blow now l f g) (hd : f.Down e k) : Fate f e k g := by
  obtain ⟨ht, hl, ks, hk, hks⟩ := hd
  have hgrows := grows_blow hb
  have htakes : g.Takes e ↔ f.Takes e := takes_of_stage (stage_blow hb)
  have hfin : ∀ {f' : Field} {x : Nat} {ks' : KnockState}, f'.stage = f.stage → f'.life = f.life →
      f'.knock = f.knock → f.knock x = some ks' → Grows f (f'.finalize x ks') →
      f'.deeds = f.deeds ∨ Grows f f' → Fate f e k (f'.finalize x ks') := by
    intro f' x ks' hs hl' hk' hx hgr hf'
    by_cases hex : e = x
    · subst hex
      obtain rfl : ks = ks' := Option.some.inj (hk.symm.trans hx)
      obtain ⟨ds, hds⟩ := @died_finalize f' e ks
      have hpre : ∃ es, f'.deeds = f.deeds ++ es := by
        rcases hf' with hf' | ⟨es, hes, -⟩
        · exact ⟨[], by simpa using hf'⟩
        · exact ⟨es, hes⟩
      obtain ⟨es, hes⟩ := hpre
      refine ⟨es ++ .died e ks.killer :: ds, ?_, Or.inl ?_⟩
      · rw [hds, hes, List.append_assoc]
      · rw [← hks]
        simp
    · refine fate_of_down hgr ⟨(takes_of_stage (stage_finalize.trans hs)).mpr ht, ?_, ks, ?_, hks⟩
      · simp [lifeOf, Function.update_of_ne hex, hl'] at hl ⊢
        exact hl
      · rw [finalize_knock, Function.update_of_ne hex, hk']
        exact hk
  cases hb with
  | @hurt _ victim attacker dmg cur _ _ _ _ =>
    exact fate_of_down hgrows (Down.frame ⟨ht, hl, ks, hk, hks⟩ htakes (by simp) (by simp))
  | @slain _ victim attacker dmg cur _ halive _ _ _ _ =>
    have hne : e ≠ victim := fun he => LifeState.noConfusion (halive.symm.trans (he ▸ hl))
    exact fate_of_down hgrows (Down.frame ⟨ht, hl, ks, hk, hks⟩ htakes
      (by simp [Function.update_of_ne hne]) (by simp))
  | @downed _ victim attacker dmg cur _ _ halive _ _ _ _ _ _ =>
    have hne : e ≠ victim := fun he => LifeState.noConfusion (halive.symm.trans (he ▸ hl))
    exact fate_of_down hgrows (Down.frame ⟨ht, hl, ks, hk, hks⟩ htakes
      (by simp [Function.update_of_ne hne]) (by simp [Function.update_of_ne hne]))
  | @drained _ victim attacker dmg ks' _ _ hk' _ =>
    by_cases hev : e = victim
    · subst hev
      obtain rfl : ks = ks' := Option.some.inj (hk.symm.trans hk')
      refine fate_of_down hgrows ⟨htakes.mpr ht, ?_, _, Function.update_self .., hks⟩
      simpa [lifeOf] using hl
    · refine fate_of_down hgrows (Down.frame ⟨ht, hl, ks, hk, hks⟩ htakes (by simp) ?_)
      exact Function.update_of_ne hev ..
  | @finished _ victim attacker dmg ks' _ _ hk' _ =>
    exact hfin stage_creditDamage creditDamage_life creditDamage_knock hk' hgrows
      (Or.inr (adds_creditDamage fun _ _ _ => trivial))
  | wiped _ hk' _ _ => exact hfin rfl rfl rfl hk' hgrows (Or.inl rfl)
  | @bled _ x ks' hk' _ =>
    by_cases hex : e = x
    · subst hex
      obtain rfl : ks = ks' := Option.some.inj (hk.symm.trans hk')
      exact fate_of_down hgrows ⟨ht, hl, _, Function.update_self .., hks⟩
    · exact fate_of_down hgrows (Down.frame ⟨ht, hl, ks, hk, hks⟩ htakes rfl
        (Function.update_of_ne hex ..))
  | bledOut hk' _ _ => exact hfin rfl rfl rfl hk' hgrows (Or.inl rfl)

theorem Gone.of_stage (h : f.Gone e) (hs : g.stage = f.stage) : g.Gone e := by
  refine ⟨fun ht => h.1 ((takes_of_stage hs).mp ht), ?_⟩
  rw [show g.slot = f.slot from congrArg Stage.slot hs,
    show g.started = f.started from congrArg Stage.started hs]
  exact h.2

theorem Gone.frame (h : f.Gone e) (ht : g.Takes e → f.Takes e) (hs : f.slot ≤ g.slot)
    (hst : f.started = true → g.started = true) : g.Gone e :=
  ⟨fun hg => h.1 (ht hg), h.2.imp (fun hh => ⟨hh.1, hh.2.trans hs⟩) fun hh => ⟨hh.1, hst hh.2⟩⟩

theorem gone_move (h : f.Gone e) (hf : f.Crewed) (hm : Move now l f g) : g.Gone e := by
  cases hm with
  | hit _ => exact h.of_stage stage_applyDamage
  | startRescue => exact h.of_stage stage_startRescue
  | stopRescue => exact h.of_stage stage_stopRescue
  | leave hx => exact h.frame (fun ht => ((hf.takes_leave hx).mp ht).2) (Nat.le_refl _) id
  | join _ ht htwo hlt _ =>
    have hn := nextSlot_eq hlt
    refine h.frame (fun hte => ?_) (by rw [slot_join]; omega)
      fun hst => (congrArg Stage.started stage_join).trans hst
    rcases takes_join.mp hte with rfl | hx
    · rcases h.2 with ⟨-, hlow⟩ | ⟨hb, -⟩
      · rw [low_seat (by omega)] at hlow
        omega
      · exact absurd hb (seat_ne_bot (by omega) (by omega))
    · exact Or.inl hx
  | setup hu _ =>
    have hn : f.nextSlot = 1 := by simp [nextSlot, hu.slot]
    refine h.frame (fun hte => ?_) (by rw [hu.slot]; exact Nat.zero_le _) id
    rcases hte with ⟨x, hx, rfl⟩ | ⟨hb, -⟩
    · rcases List.mem_append.mp hx with hx | hx
      · exact Or.inl ⟨x, hx, rfl⟩
      · rw [List.mem_singleton.mp hx] at h
        rcases h.2 with ⟨-, hlow⟩ | ⟨hb, -⟩
        · rw [hn, low_seat (by omega), hu.slot] at hlow
          omega
        · rw [hn] at hb
          exact absurd hb (seat_ne_bot (by omega) (by omega))
    · exact absurd rfl hb
  | begin_ _ =>
    have hs : f.begin_.stage = { f.stage with begun := true, phase := .setupBind } :=
      congrArg (fun x : Stage => { x with phase := CsPhase.setupBind })
        (stage_initHP (f := { f with begun := true }))
    exact h.frame (takes_of_eq (congrArg Stage.crew hs) (congrArg Stage.bot hs)).mp
      (Nat.le_of_eq (congrArg Stage.slot hs).symm) fun hst => (congrArg Stage.started hs).trans hst
  | bleed => exact h.of_stage stage_bleed
  | rescue => exact h.of_stage stage_rescueTick
  | heal _ _ _ _ => exact h.of_stage rfl
  | revive _ _ =>
    have hs := stage_reviveAll (f := f)
    exact h.frame (takes_of_eq (congrArg Stage.crew hs) (congrArg Stage.bot hs)).mp
      (Nat.le_of_eq (congrArg Stage.slot hs).symm) fun hst => (congrArg Stage.started hs).trans hst
  | bot hst _ =>
    refine h.frame (fun ht => ?_) (Nat.le_refl _) fun _ => rfl
    rcases ht with hx | ⟨-, hb⟩
    · exact Or.inl hx
    · rcases h.2 with ⟨hne, -⟩ | ⟨-, hs⟩
      · exact absurd hb hne
      · exact absurd (hst.symm.trans hs) Bool.false_ne_true
  | fight _ _ => exact h.frame id (Nat.le_refl _) id
  | score _ _ _ _ => exact h.frame id (Nat.le_refl _) id
  | turn ht => exact h.frame id (Nat.le_refl _) ht.started

theorem fate_blows (h : Blows now l f g) (hd : f.Down e k) : Fate f e k g := by
  refine h.invariant (I := fun g => Fate f e k g) (fate_of_down adds_refl hd) fun {f' g'} hi hb => ?_
  exact hi.step (grows_blow hb) (fate_blow hb) fun hg => hg.of_stage (stage_blow hb)

theorem gone_leave {x : Member} (hf : f.Crewed) (hx : x ∈ f.crew) :
    (f.leave x.s x.entity).Gone x.entity :=
  ⟨fun ht => ((hf.takes_leave hx).mp ht).1 rfl, Or.inl ⟨hf.entity_ne_bot hx, hf.low_le hx⟩⟩

theorem fate_move (hf : f.Lives) (hm : Move now l f g) (hd : f.Down e k) : Fate f e k g := by
  have hgrows := grows_move hm
  have hsame : g.crew = f.crew → g.bot = f.bot → g.life = f.life → g.knock = f.knock →
      Fate f e k g := fun hc hb hl hk =>
    fate_of_down hgrows (hd.frame (takes_of_eq hc hb) (congrFun hl e) (congrFun hk e))
  have hreset : ∀ {ds}, g.deeds = f.deeds ++ .reset :: ds → Fate f e k g := fun {ds} hds =>
    ⟨_, hds, Or.inr (Or.inl ⟨.reset, List.mem_cons_self, rfl⟩)⟩
  cases hm with
  | hit hfalls => exact @fate_blows _ _ _ _ now _ (blows_hit hfalls) hd
  | startRescue =>
    revert hgrows hsame hreset
    unfold Field.startRescue
    split
    · exact fun hg _ _ => fate_of_down hg hd
    split
    · exact fun hg _ _ => fate_of_down hg hd
    · exact fun _ hsame _ => hsame rfl rfl rfl rfl
  | stopRescue =>
    revert hgrows hsame hreset
    unfold Field.stopRescue
    split
    · split
      · exact fun _ hsame _ => hsame rfl rfl rfl rfl
      · exact fun hg _ _ => fate_of_down hg hd
    · exact fun hg _ _ => fate_of_down hg hd
  | @leave _ x hx =>
    by_cases he : e = x.entity
    · rw [he]
      exact fate_of_gone hgrows (gone_leave hf.crewed hx)
    · refine fate_of_down hgrows (hd.frame ?_ (Function.update_of_ne he ..)
        (Function.update_of_ne he ..))
      rw [hf.crewed.takes_leave hx]
      exact and_iff_right he
  | @join _ s team _ ht htwo hlt hb =>
    have hn := nextSlot_eq hlt
    rcases hd.1 with ⟨x, hx, rfl⟩ | ⟨hz, he⟩
    · have hlow := hf.crewed.low_le hx
      have hnew : x.entity ≠ team * 2 ^ 24 + f.nextSlot := fun heq => by
        rw [heq, low_seat (by omega)] at hlow
        omega
      have hbot : x.entity ≠ f.bot ∨ f.bot = 0 := by
        by_cases hz : f.bot = 0
        · exact Or.inr hz
        · exact Or.inl fun heq => hf.crewed.entity_ne_bot hx (heq.trans (hf.crewed.bot_eq hz))
      obtain ⟨h1, -, h3, -⟩ := body_join (s := s) hnew hbot
      refine fate_of_down hgrows (hd.frame ⟨fun _ => hd.1, fun _ => ?_⟩ h1 h3)
      exact takes_join.mpr (Or.inr ⟨x, hx, rfl⟩)
    · have heq := he.trans (hf.crewed.bot_eq hz)
      refine fate_of_gone hgrows ⟨fun hte => ?_, Or.inr ⟨heq, ?_⟩⟩
      · rcases takes_join.mp hte with hs | ⟨x, hx, hxe⟩
        · exact seat_ne_bot (by omega) (by omega) (hs.symm.trans heq)
        · exact hf.crewed.entity_ne_bot hx (hxe.trans heq)
      · refine (congrArg Stage.started stage_join).trans (Bool.not_eq_false _ ▸ fun hs => ?_)
        exact hz (hf.early hs)
  | setup hu _ =>
    obtain ⟨-, hl, -⟩ := hd
    simp [lifeOf, hu.life] at hl
  | begin_ _ => exact hreset deeds_initHP
  | bleed => exact fate_blows blows_bleed hd
  | @rescue _ t =>
    revert hgrows hsame hreset
    unfold Field.rescueTick
    split
    · exact fun hg _ _ => fate_of_down hg hd
    rename_i r hr
    split
    · exact fun _ hsame _ => hsame rfl rfl rfl rfl
    split
    · exact fun hg _ _ => fate_of_down hg hd
    · intro hg _ _
      by_cases he : e = r.target
      · refine ⟨_, by simp only [completeRescue, tally, note, List.append_assoc]; rfl,
          Or.inr (Or.inl ⟨.rescued r.target r.reviver, by simp, ?_⟩)⟩
        simp [Deed.revives, he]
      · exact fate_of_down hg (hd.frame (takes_of_stage rfl) (Function.update_of_ne he ..)
          (Function.update_of_ne he ..))
  | heal _ _ _ _ => exact hsame rfl rfl rfl rfl
  | revive _ _ => exact hreset deeds_reviveAll
  | bot hst _ =>
    have hzero := hf.early hst
    have hcrew : ∃ x ∈ f.crew, x.entity = e := hd.1.resolve_right fun hb => hb.1 hzero
    obtain ⟨x, hx, rfl⟩ := hcrew
    have hne := hf.crewed.entity_ne_bot hx
    refine fate_of_down hgrows (hd.frame ⟨fun _ => hd.1, fun _ => Or.inl ⟨x, hx, rfl⟩⟩
      (Function.update_of_ne hne ..) rfl)
  | fight _ _ => exact hsame rfl rfl rfl rfl
  | score _ _ _ _ => exact hsame rfl rfl rfl rfl
  | turn _ => exact hsame rfl rfl rfl rfl

end Field

namespace Server

variable {w : World} {v v' : Server} {e : Event} {m : MatchRef} {f g : Field} {l : Label}
  {es : List Event}

-- Neither a quit, nor the sweep, nor a bot that makes way leaves a team with nobody standing and
-- somebody bleeding.
def Accompanied (w : World) (v : Server) (e : Event) : Prop :=
  v.JoinsOnce e ∧
    (∀ x ∈ v.handles e.act .playerQuitReq, x.1 ∈ (v.core.ms x.2.2).players →
      (v.core.field x.2.2).strands (v.core.ss x.1).entityID = false) ∧
    (∀ m ∈ e.act.ticked,
      ∀ p ∈ (v.core.ms m).players.find? fun p =>
        decide (((v.core.atMoment e.moment (some m)).beforeSweep w m).lapsed p),
      (((v.core.atMoment e.moment (some m)).beforeSweep w m).field m).strands
        (v.core.ss p).entityID = false) ∧
    ∀ x ∈ v.sitsDown e.act, (v.core.field x.2).bot = 0 ∨
      v.core.joinTeam x.1 x.2 = enemyTeamID ∨ (v.core.field x.2).strands (v.core.field x.2).bot = false

instance (v : Server) (e : Event) : Decidable (v.Accompanied w e) :=
  inferInstanceAs (Decidable (_ ∧ (∀ x ∈ v.handles e.act .playerQuitReq, _ ∈ _ → _) ∧
    (∀ m ∈ e.act.ticked, ∀ p ∈ List.find? _ (v.core.ms m).players, _) ∧
    ∀ x ∈ v.sitsDown e.act, _))

theorem leaves_of_accompanied (hc : v.Accompanied w e) (hwhy : Why w v e m f l)
    (hf : f.Crewed) : f.Leaves l := by
  have hent : ∀ {c : Core} {s : SessionId} {x : Member}, c.member s ∈ f.crew → x ∈ f.crew →
      s = x.s → x.entity = (c.ss s).entityID := fun {c s x} hs hx he => by
    rw [hf.session_inj hx hs he.symm]
    rfl
  refine ⟨fun x hx hl => ?_, fun s team hl => ?_⟩
  · subst hl
    cases hwhy with
    | handler hr _ hl =>
      generalize hs : x.s = s at hl
      cases hl with
      | quit hcmd hm hin =>
        rw [hent (List.mem_map_of_mem hin) hx hs.symm]
        exact hc.2.1 _ (handles_of_routed hr hcmd hm) hin
    | tick hact _ hl =>
      generalize hs : x.s = s at hl
      cases hl with
      | clock hl _ => exact Bool.noConfusion hl
      | sweep hp =>
        have hk := @keeps_beforeSweep w (v.core.atMoment e.moment (some m)) m
        have hin := List.mem_of_find?_eq_some hp
        rw [← players_of_keeps hk (by decide)] at hin
        rw [hent (List.mem_map_of_mem hin) hx hs.symm,
          entityID_of_keeps hk (by decide)]
        exact hc.2.2.1 m (by rw [hact]; rfl) s hp
  · subst hl
    cases hwhy with
    | handler _ _ hl => cases hl
    | join hact _ hm =>
      refine hc.2.2.2 (s, m) ?_
      rw [hact]
      simp [sitsDown, hm]
    | tick _ _ hl =>
      cases hl with
      | clock hl _ => exact Bool.noConfusion hl

theorem upright_of_run (h : Run (Guarded (Step w) (Accompanied w)) start es v) (m : MatchRef) :
    (v.core.field m).Lives ∧ (v.core.field m).Upright := by
  refine field_invariant (I := fun f => f.Lives ∧ f.Upright) h (fun _ _ hc => hc.1)
    (fun f hu => ⟨Field.lives_untouched hu, Field.upright_of_alive fun e _ => ?_⟩)
    (fun _ hc _ hwhy _ hup hf hm => ⟨Field.lives_move hf.1 hm hup,
      Field.upright_move hf.2 hf.1 hm (leaves_of_accompanied hc hwhy hf.1.crewed) hup⟩) m
  simp [Field.lifeOf, hu.life]

-- A team with nobody standing has nobody bleeding, and the step in which the last one falls turns
-- every knock of the team into a death that counts for its killer.
theorem fallen_bleed_out (h : Run (Guarded (Step w) (Accompanied w)) start es v) (m : MatchRef) :
    (∀ a, (v.core.field m).Takes a → v.core.teamAlive m (teamOf a) = 0 →
      (v.core.ms m).lifeOf a ≠ .knocked) ∧
    ∀ e v', Guarded (Step w) (Accompanied w) v e v' → ∀ a ks, (v.core.field m).Takes a →
      (v.core.ms m).lifeOf a = .knocked → (v.core.ms m).knock.lookup a = some ks →
      (v'.core.field m).Takes a → v'.core.teamAlive m (teamOf a) = 0 →
      ∃ ds, (v'.core.ms m).deeds = (v.core.ms m).deeds ++ ds ∧
        (.died a ks.killer ∈ ds ∨ ∃ d ∈ ds, d.revives a) := by
  have hup : ∀ {es v}, Run (Guarded (Step w) (Accompanied w)) start es v →
      ∀ a, (v.core.field m).Takes a → v.core.teamAlive m (teamOf a) = 0 →
        (v.core.ms m).lifeOf a ≠ .knocked := fun {es v} h a ha hz hk => by
    rw [teamAlive_eq] at hz
    exact absurd hz (Nat.pos_iff_ne_zero.mp ((upright_of_run h m).2 a ha hk))
  refine ⟨hup h, fun e v' hs a ks ha hk hks ha' hz => ?_⟩
  have hfate := step_invariant (m := m)
    (I := fun f => f.Lives ∧ Field.Fate (v.core.field m) a ks.killer f)
    (sound_of_run h fun _ _ hc => hc.1) hs.1 hs.2.1
    ⟨(upright_of_run h m).1, Field.fate_of_down Field.adds_refl ⟨ha, hk, ks, hks, rfl⟩⟩
    fun _ _ hup hf hm => ⟨Field.lives_move hf.1 hm hup,
      hf.2.step (Field.grows_move hm) (Field.fate_move hf.1 hm)
        fun hg => Field.gone_move hg hf.1.crewed hm⟩
  obtain ⟨-, ds, hds, hend⟩ := hfate
  refine ⟨ds, hds, ?_⟩
  rcases hend with hd | hr | hdown | hgone
  · exact Or.inl hd
  · exact Or.inr hr
  · exact absurd hdown.2.1 (hup (Run.next h hs) a ha' hz)
  · exact absurd ha' hgone.1

-- One against two: the host shoots a guest.
def firstBlood : List Event :=
  opens 1 0 0 (joinWith hostToken) ++ joins 2 1 0 join ++ joins 3 2 0 join ++
    sends 4 0 0 (damageReport 0x01000003 0x02000001 200)

-- And the other one.
def wipe : List Event := firstBlood ++ sends 5 0 0 (damageReport 0x01000004 0x02000001 200)

theorem wipe_bleeds_out : ∃ v, Run (Guarded (Step signedWorld) (Accompanied signedWorld)) start wipe v ∧
    .killed 0x01000003 0x02000001 (some 0) ∈ (v.core.ms 0).deeds ∧
    (v.core.ms 0).lifeOf 0x01000003 ≠ .knocked := by
  have hrun : ((wipe.foldlM (fun v e => if Accompanied signedWorld v e then step signedWorld v e
      else none) start).map fun v => (v.core.teamAlive 0 1, (v.core.ms 0).players.map v.core.member,
        decide (.killed 0x01000003 0x02000001 (some 0) ∈ (v.core.ms 0).deeds))) =
      some (0, [⟨0, 0x02000001, 2⟩, ⟨1, 0x01000003, 1⟩, ⟨2, 0x01000004, 1⟩], true) := by
    decide +kernel
  obtain ⟨v, hv, hd⟩ := Option.map_eq_some_iff.mp hrun
  simp only [Prod.mk.injEq, decide_eq_true_eq] at hd
  obtain ⟨hz, hcrew, hkilled⟩ := hd
  have htakes : (v.core.field 0).Takes 0x01000003 :=
    Or.inl ⟨⟨1, 0x01000003, 1⟩, by simp [Core.field, Match.view, hcrew], rfl⟩
  exact ⟨v, run_of_checked hv, hkilled, (fallen_bleed_out (run_of_checked hv) 0).1 _ htakes hz⟩

-- A guest bleeds, and the other one quits.
theorem quit_leaves_bleeding : ¬ ∀ w es v m, Run (Step w) start es v →
    ∀ a, (v.core.field m).Takes a → v.core.teamAlive m (teamOf a) = 0 →
      (v.core.ms m).lifeOf a ≠ .knocked := by
  intro hall
  have hrun : (((firstBlood ++ sends 5 2 0 quitRequest).foldlM (step signedWorld) start).map
      fun v => (v.core.teamAlive 0 1, (v.core.ms 0).players.map v.core.member,
        (v.core.ms 0).lifeOf 0x01000003)) =
      some (0, [⟨0, 0x02000001, 2⟩, ⟨1, 0x01000003, 1⟩], .knocked) := by
    decide +kernel
  obtain ⟨v, hv, hd⟩ := Option.map_eq_some_iff.mp hrun
  simp only [Prod.mk.injEq] at hd
  obtain ⟨hz, hcrew, hlife⟩ := hd
  have htakes : (v.core.field 0).Takes 0x01000003 :=
    Or.inl ⟨⟨1, 0x01000003, 1⟩, by simp [Core.field, Match.view, hcrew], rfl⟩
  exact hall signedWorld _ v 0 (run_of_foldlM hv) _ htakes hz hlife

end Server

end MatchServer

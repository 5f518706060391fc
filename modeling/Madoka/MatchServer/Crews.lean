import Madoka.MatchServer.Runs

namespace MatchServer

open Lib

namespace Field

-- The participants: the roster, and the bot while there is one.
def Takes (f : Field) (e : Nat) : Prop :=
  (∃ x ∈ f.crew, x.entity = e) ∨ (f.bot ≠ 0 ∧ e = f.bot)

-- Slot 2 is the bot's.
structure Crewed (f : Field) : Prop where
  slots : f.slot < 256
  ids : ∀ x ∈ f.crew, (x.team = 1 ∨ x.team = 2) ∧
    ∃ k, 1 ≤ k ∧ k ≤ f.slot ∧ k ≠ 2 ∧ x.entity = x.team * 2 ^ 24 + k
  sessions : (f.crew.map Member.s).Nodup
  entities : (f.crew.map Member.entity).Nodup
  bot : f.bot = 0 ∨ f.bot = botEntityID

variable {f g : Field} {x y : Member} {e e' t : Nat} {now : Int} {l : Label}

theorem Crewed.teamOf_entity (h : f.Crewed) (hx : x ∈ f.crew) : teamOf x.entity = x.team := by
  obtain ⟨ht, k, -, hk, -, he⟩ := h.ids x hx
  have hlt := h.slots
  unfold teamOf
  rw [he]
  omega

theorem Crewed.entity_ne_bot (h : f.Crewed) (hx : x ∈ f.crew) : x.entity ≠ botEntityID := by
  obtain ⟨ht, k, -, hk, htwo, he⟩ := h.ids x hx
  have hlt := h.slots
  unfold botEntityID
  omega

theorem Crewed.entity_inj (h : f.Crewed) (hx : x ∈ f.crew) (hy : y ∈ f.crew)
    (he : x.entity = y.entity) : x = y :=
  List.inj_on_of_nodup_map h.entities hx hy he

theorem Crewed.session_inj (h : f.Crewed) (hx : x ∈ f.crew) (hy : y ∈ f.crew)
    (hs : x.s = y.s) : x = y :=
  List.inj_on_of_nodup_map h.sessions hx hy hs

theorem Crewed.bot_eq (h : f.Crewed) (hb : f.bot ≠ 0) : f.bot = botEntityID :=
  h.bot.resolve_left hb

theorem teamOf_bot : teamOf botEntityID = enemyTeamID := by decide

theorem takes_crew (hx : x ∈ f.crew) : f.Takes x.entity := Or.inl ⟨x, hx, rfl⟩

theorem Crewed.takes_bot (h : f.Crewed) : f.Takes botEntityID ↔ f.bot ≠ 0 := by
  constructor
  · rintro (⟨x, hx, he⟩ | ⟨hb, -⟩)
    · exact absurd he (h.entity_ne_bot hx)
    · exact hb
  · intro hb
    exact Or.inr ⟨hb, (h.bot_eq hb).symm⟩

def takers (f : Field) : List Nat := f.crew.map Member.entity ++ if f.bot ≠ 0 then [f.bot] else []

theorem mem_takers : e ∈ f.takers ↔ f.Takes e := by
  unfold takers Takes
  rw [List.mem_append, List.mem_map]
  refine or_congr Iff.rfl ?_
  split
  · rename_i hb
    simp [hb]
  · rename_i hb
    simp [hb]

def census (f : Field) (p : Nat → Bool) (team : Nat) : Nat :=
  (f.crew.countP fun x => x.team == team && p x.entity) +
    if team = enemyTeamID ∧ f.bot ≠ 0 ∧ p f.bot then 1 else 0

theorem standing_eq : f.standing t = f.census (fun e => f.lifeOf e == .alive) t := by
  simp only [standing, census, beq_iff_eq]

theorem size_eq : f.size t = f.census (fun _ => true) t := by
  simp only [size, census, Bool.and_true, and_true]

theorem Crewed.census_eq (h : f.Crewed) (p : Nat → Bool) :
    f.census p t = f.takers.countP fun e => teamOf e == t && p e := by
  have hcrew : (f.crew.countP fun x => x.team == t && p x.entity) =
      (f.crew.map Member.entity).countP fun e => teamOf e == t && p e := by
    rw [List.countP_map]
    refine List.countP_congr fun x hx => ?_
    simp only [Function.comp_apply, h.teamOf_entity hx]
  unfold census takers
  rw [List.countP_append, hcrew]
  congr 1
  by_cases hb : f.bot ≠ 0
  · have hteam : teamOf f.bot = enemyTeamID := by rw [h.bot_eq hb, teamOf_bot]
    simp only [if_pos hb, List.countP_singleton, hteam, Bool.and_eq_true, beq_iff_eq]
    refine if_congr ?_ rfl rfl
    constructor
    · rintro ⟨rfl, -, hp⟩
      exact ⟨rfl, hp⟩
    · rintro ⟨rfl, hp⟩
      exact ⟨rfl, hb, hp⟩
  · rw [if_neg hb, if_neg (by tauto)]
    rfl

theorem Crewed.census_pos (h : f.Crewed) {p : Nat → Bool} :
    0 < f.census p t ↔ ∃ e, f.Takes e ∧ teamOf e = t ∧ p e = true := by
  rw [h.census_eq, List.countP_pos_iff]
  simp only [mem_takers, Bool.and_eq_true, beq_iff_eq]

theorem Crewed.census_unique (h : f.Crewed) {p : Nat → Bool} (hle : f.census p t ≤ 1)
    (he : f.Takes e) (ht : teamOf e = t) (hp : p e = true) (he' : f.Takes e') (ht' : teamOf e' = t)
    (hp' : p e' = true) : e = e' := by
  rw [h.census_eq, List.countP_eq_length_filter] at hle
  have hmem : ∀ a, f.Takes a → teamOf a = t → p a = true →
      a ∈ f.takers.filter fun e => teamOf e == t && p e := fun a h1 h2 h3 =>
    List.mem_filter.mpr ⟨mem_takers.mpr h1, by simp [h2, h3]⟩
  have h1 := hmem e he ht hp
  have h2 := hmem e' he' ht' hp'
  match hf : f.takers.filter fun e => teamOf e == t && p e with
  | [] =>
    rw [hf] at h1
    exact absurd h1 List.not_mem_nil
  | [a] =>
    rw [hf, List.mem_singleton] at h1 h2
    rw [h1, h2]
  | a :: b :: rest =>
    rw [hf] at hle
    simp at hle

theorem Crewed.standing_pos (h : f.Crewed) :
    0 < f.standing t ↔ ∃ e, f.Takes e ∧ teamOf e = t ∧ f.lifeOf e = .alive := by
  rw [standing_eq, h.census_pos]
  simp only [beq_iff_eq]

theorem Crewed.size_pos (h : f.Crewed) : 0 < f.size t ↔ ∃ e, f.Takes e ∧ teamOf e = t := by
  rw [size_eq, h.census_pos]
  simp only [and_true]

theorem Crewed.of_eq (h : f.Crewed) (hc : g.crew = f.crew) (hs : g.slot = f.slot)
    (hb : g.bot = f.bot) : g.Crewed where
  slots := hs ▸ h.slots
  ids := by
    rw [hc, hs]
    exact h.ids
  sessions := hc ▸ h.sessions
  entities := hc ▸ h.entities
  bot := hb ▸ h.bot

theorem Crewed.of_stage (h : f.Crewed) (hs : g.stage = f.stage) : g.Crewed :=
  h.of_eq (congrArg Stage.crew hs) (congrArg Stage.slot hs) (congrArg Stage.bot hs)

theorem takes_of_eq (hc : g.crew = f.crew) (hb : g.bot = f.bot) : g.Takes e ↔ f.Takes e := by
  unfold Takes
  rw [hc, hb]

theorem takes_of_stage (hs : g.stage = f.stage) : g.Takes e ↔ f.Takes e :=
  takes_of_eq (congrArg Stage.crew hs) (congrArg Stage.bot hs)

theorem crewed_untouched (h : f.Untouched) : f.Crewed where
  slots := by
    rw [h.slot]
    decide
  ids := by simp [h.crew]
  sessions := by simp [h.crew]
  entities := by simp [h.crew]
  bot := Or.inl h.bot

theorem Crewed.enlist {s : SessionId} {team k : Nat} (h : f.Crewed)
    (hs : ∀ x ∈ f.crew, x.s ≠ s) (ht : team = 1 ∨ team = 2) (hk : f.slot < k) (htwo : k ≠ 2)
    (hlt : k < 256) {g : Field} (hc : g.crew = f.crew ++ [⟨s, team * 2 ^ 24 + k, team⟩])
    (hg : k ≤ g.slot) (hg' : g.slot < 256) (hb : g.bot = 0) : g.Crewed where
  slots := hg'
  ids := fun x hx => by
    rw [hc] at hx
    rcases List.mem_append.mp hx with hx | hx
    · obtain ⟨h1, j, h2, h3, h4, h5⟩ := h.ids x hx
      exact ⟨h1, j, h2, by omega, h4, h5⟩
    · obtain rfl := List.mem_singleton.mp hx
      exact ⟨ht, k, by omega, hg, htwo, rfl⟩
  sessions := by
    rw [hc, List.map_append]
    refine List.nodup_append.mpr ⟨h.sessions, List.nodup_singleton _, ?_⟩
    rintro a ha b hb
    obtain ⟨x, hx, rfl⟩ := List.mem_map.mp ha
    obtain rfl := List.mem_singleton.mp hb
    exact hs x hx
  entities := by
    rw [hc, List.map_append]
    refine List.nodup_append.mpr ⟨h.entities, List.nodup_singleton _, ?_⟩
    rintro a ha b hb
    obtain ⟨x, hx, rfl⟩ := List.mem_map.mp ha
    obtain rfl := List.mem_singleton.mp hb
    obtain ⟨h1, j, h2, h3, h4, h5⟩ := h.ids x hx
    dsimp only
    omega
  bot := Or.inl hb

theorem crew_join {s : SessionId} {team : Nat} : (f.join s team).crew =
    f.crew ++ [⟨s, team * 2 ^ 24 + f.nextSlot, team⟩] :=
  congrArg Stage.crew stage_join

theorem slot_join {s : SessionId} {team : Nat} : (f.join s team).slot = f.nextSlot :=
  congrArg Stage.slot stage_join

theorem bot_join {s : SessionId} {team : Nat} : (f.join s team).bot = 0 :=
  congrArg Stage.bot stage_join

theorem nextSlot_eq (h : f.slot + 1 < 256) : f.nextSlot = f.slot + 1 := Nat.mod_eq_of_lt h

theorem crewed_move (h : f.Crewed) (hm : Move now l f g) : g.Crewed := by
  cases hm with
  | hit _ => exact h.of_stage stage_applyDamage
  | startRescue => exact h.of_stage stage_startRescue
  | stopRescue => exact h.of_stage stage_stopRescue
  | leave _ =>
    exact ⟨h.slots, fun x hx => h.ids x (List.mem_of_mem_filter hx),
      h.sessions.sublist (List.filter_sublist.map _), h.entities.sublist (List.filter_sublist.map _),
      h.bot⟩
  | join hs ht htwo hlt _ =>
    have hn := nextSlot_eq hlt
    exact h.enlist hs ht (by omega) (by omega) (by omega) crew_join (Nat.le_of_eq slot_join.symm)
      (by rw [slot_join]; omega) bot_join
  | setup hf ht =>
    have hn : f.nextSlot = 1 := by simp [nextSlot, hf.slot]
    refine h.enlist (by simp [hf.crew]) ht (by rw [hf.slot]; omega) (by omega) (by omega)
      (g := f.setup _ _ _) rfl ?_ ?_ rfl
    all_goals
      simp only [setup, hn]
      decide
  | begin_ _ =>
    have hb : ({ f with begun := true } : Field).Crewed := h.of_eq rfl rfl rfl
    exact (hb.of_stage stage_initHP).of_eq rfl rfl rfl
  | bleed => exact h.of_stage stage_bleed
  | rescue => exact h.of_stage stage_rescueTick
  | heal _ _ _ _ => exact h.of_eq rfl rfl rfl
  | revive _ _ =>
    have hs := stage_reviveAll (f := f)
    exact h.of_eq (congrArg Stage.crew hs) (congrArg Stage.slot hs) (congrArg Stage.bot hs)
  | bot _ _ => exact ⟨h.slots, h.ids, h.sessions, h.entities, Or.inr rfl⟩
  | fight _ _ => exact h.of_eq rfl rfl rfl
  | score _ _ _ _ => exact h.of_eq rfl rfl rfl
  | turn _ => exact h.of_eq rfl rfl rfl

end Field

end MatchServer

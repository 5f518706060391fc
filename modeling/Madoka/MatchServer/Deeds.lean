import Madoka.MatchServer.Moves

namespace MatchServer

open Lib

def Label.makes : Label → Deed → Bool
  | .hit _ _ _, .hurt _ _ _ => true
  | .hit _ _ _, .struck _ _ => true
  | .hit _ _ _, .died _ _ => true
  | .hit _ _ _, .killed _ _ _ => true
  | .hit _ _ _, .standing _ _ => true
  | .bleed, .died _ _ => true
  | .bleed, .killed _ _ _ => true
  | .bleed, .standing _ _ => true
  | .rescue, .rescued _ _ => true
  | .rescue, .standing _ _ => true
  | .leave _, .standing _ _ => true
  | .join _ _, .seated _ => true
  | .join _ _, .standing _ _ => true
  | .begin_, .reset => true
  | .revive, .reset => true
  | .bot, .seated _ => true
  | .fight, .fight _ _ => true
  | .score, .scored _ _ => true
  | .turn, .opened _ => true
  | .turn, .closed => true
  | _, _ => false

def Deed.revives (e : Nat) : Deed → Bool
  | .reset => true
  | .rescued target _ => target == e
  | _ => false

namespace Field

variable {f g k : Field} {victim attacker dmg entity : Nat} {ks : KnockState} {order : List Nat}
  {now : Int} {l : Label} {P Q : Deed → Prop}

def Adds (P : Deed → Prop) (f g : Field) : Prop := ∃ ds, g.deeds = f.deeds ++ ds ∧ ∀ d ∈ ds, P d

theorem adds_refl : Adds P f f := ⟨[], by simp, nofun⟩

theorem Adds.trans (h : Adds P f g) (h' : Adds P g k) : Adds P f k := by
  obtain ⟨ds, hd, hp⟩ := h
  obtain ⟨es, he, hq⟩ := h'
  refine ⟨ds ++ es, by rw [he, hd, List.append_assoc], fun d hm => ?_⟩
  rcases List.mem_append.mp hm with hm | hm
  · exact hp d hm
  · exact hq d hm

theorem Adds.of_eq (h : Adds P f g) (he : k.deeds = g.deeds) : Adds P f k := by
  obtain ⟨ds, hd, hp⟩ := h
  exact ⟨ds, he.trans hd, hp⟩

theorem Adds.after (h : Adds P g k) (he : g.deeds = f.deeds) : Adds P f k := by
  obtain ⟨ds, hd, hp⟩ := h
  exact ⟨ds, he ▸ hd, hp⟩

theorem adds_one {d : Deed} (h : g.deeds = f.deeds ++ [d]) (hd : P d) : Adds P f g := by
  refine ⟨[d], h, fun x hm => ?_⟩
  rw [List.mem_singleton.mp hm]
  exact hd

theorem adds_note {d : Deed} (hd : P d) : Adds P f (f.note d) := adds_one rfl hd

theorem Adds.note (h : Adds P f g) {d : Deed} (hd : P d) : Adds P f (g.note d) :=
  h.trans (adds_note hd)

theorem adds_foldl {β : Type} {t : Field → β → Field} (h : ∀ f b, Adds P f (t f b)) (bs : List β)
    (f : Field) : Adds P f (bs.foldl t f) := by
  induction bs generalizing f with
  | nil => exact adds_refl
  | cons b bs ih => exact (h f b).trans (ih _)

theorem Adds.ite {p : Prop} [Decidable p] (ht : p → Adds P f g) (hf : ¬ p → Adds P f k) :
    Adds P f (if p then g else k) := by
  split
  · exact ht ‹_›
  · exact hf ‹_›

section

variable (h1 : ∀ a b, P (.died a b)) (h2 : ∀ a b s, P (.killed a b s))
  (h3 : ∀ a b, P (.standing a b)) (h4 : ∀ a b, P (.struck a b)) (h5 : ∀ a b n, P (.hurt a b n))

include h1 h2 in
theorem adds_credit : Adds P f (f.credit victim attacker) := by
  unfold credit
  refine Adds.ite (fun _ => ?_) fun _ => adds_note (h1 _ _)
  exact Adds.note ((adds_note (h1 _ _)).of_eq rfl) (h2 _ _ _)

include h1 h2 h3 in
theorem adds_finalize : Adds P f (f.finalize entity ks) :=
  Adds.note ((adds_credit h1 h2).of_eq rfl) (h3 _ _)

include h1 h2 h3 in
theorem adds_finalizeFallen {team : Nat} : Adds P f (finalizeFallen team f entity) := by
  unfold finalizeFallen
  split
  · exact Adds.ite (fun _ => adds_finalize h1 h2 h3) fun _ => adds_refl
  · exact adds_refl

include h1 h2 h3 in
theorem adds_kill : Adds P f (f.kill victim attacker) :=
  Adds.note ((adds_credit h1 h2).of_eq rfl) (h3 _ _)

include h3 in
theorem adds_knockDown : Adds P f (f.knockDown victim ks) :=
  Adds.note (adds_refl.of_eq rfl) (h3 _ _)

include h1 h2 h3 h4 in
theorem adds_downOrKill : Adds P f (f.downOrKill victim attacker ks order) := by
  refine (adds_note (h4 _ _)).trans (Adds.ite (fun _ => adds_kill h1 h2 h3) fun _ => ?_)
  refine Adds.ite (fun _ => ?_) fun _ => adds_knockDown h3
  exact (adds_knockDown h3).trans (adds_foldl (fun _ _ => adds_finalizeFallen h1 h2 h3) _ _)

include h5 in
theorem adds_creditDamage : Adds P f (f.creditDamage victim attacker dmg) :=
  Adds.ite (fun _ => adds_note (h5 _ _ _)) fun _ => adds_refl

include h1 h2 h3 h5 in
theorem adds_damageKnocked : Adds P f (f.damageKnocked victim attacker dmg) := by
  unfold damageKnocked
  split
  · exact adds_refl
  · refine Adds.ite (fun _ => ?_) fun _ => (adds_creditDamage h5).of_eq rfl
    exact ((adds_creditDamage h5).of_eq rfl).trans (adds_finalize h1 h2 h3)

include h1 h2 h3 h4 h5 in
theorem adds_applyDamage : Adds P f (f.applyDamage victim attacker dmg ks order) := by
  unfold applyDamage
  refine Adds.ite (fun _ => adds_refl) fun _ => ?_
  split
  · exact adds_damageKnocked h1 h2 h3 h5
  · exact adds_refl
  · split
    · exact adds_refl
    · refine Adds.ite (fun _ => adds_refl) fun _ => ?_
      have hhit : ∀ left, Adds P f ({ f with
          hp := Function.update f.hp victim (some left) }.creditDamage victim attacker dmg) :=
        fun left => Adds.after (adds_creditDamage h5) rfl
      exact Adds.ite (fun _ => (hhit _).trans (adds_downOrKill h1 h2 h3 h4)) fun _ => hhit _

include h1 h2 h3 in
theorem adds_bleed : Adds P f (f.bleed now entity) := by
  unfold bleed
  split
  · exact adds_refl
  · exact Adds.ite (fun _ => adds_refl) fun _ => Adds.ite
      (fun _ => adds_finalize h1 h2 h3) fun _ => adds_refl.of_eq rfl

end

theorem adds_rescueTick {target : Nat} (h3 : ∀ a b, P (.standing a b))
    (h6 : ∀ a b, P (.rescued a b)) : Adds P f (f.rescueTick now target) := by
  unfold rescueTick
  split
  · exact adds_refl
  · refine Adds.ite (fun _ => adds_refl.of_eq rfl) fun _ => Adds.ite (fun _ => adds_refl) fun _ => ?_
    exact Adds.note ((adds_refl.of_eq rfl).note (h6 _ _)) (h3 _ _)

theorem deeds_credit : (f.credit victim attacker).deeds = f.deeds ++ .died victim attacker ::
    if attacker ≠ 0 ∧ teamOf attacker ≠ teamOf victim then
      [.killed victim attacker (f.sessionBy attacker)] else [] := by
  unfold credit
  dsimp only
  split
  · exact List.append_assoc _ _ _
  · rfl

theorem deeds_creditDamage : (f.creditDamage victim attacker dmg).deeds = f.deeds ++
    if attacker ≠ 0 ∧ teamOf attacker ≠ teamOf victim then [.hurt attacker victim dmg] else [] := by
  unfold creditDamage
  split
  · rfl
  · exact (List.append_nil _).symm

theorem adds_retireBot (h3 : ∀ a b, P (.standing a b)) : Adds P f f.retireBot :=
  Adds.ite (fun _ => adds_refl) fun _ => Adds.note (adds_refl.of_eq rfl) (h3 _ _)

theorem deeds_raiseAll (xs : List Member) (f : Field) :
    (xs.foldl raiseMember f).deeds = f.deeds := by
  induction xs generalizing f with
  | nil => rfl
  | cons x xs ih => exact ih _

theorem deeds_raiseBot : f.raiseBot.deeds = f.deeds := by
  unfold raiseBot
  split <;> rfl

theorem deeds_reviveAll : f.reviveAll.deeds = f.deeds ++ [.reset] :=
  congrArg (· ++ [Deed.reset]) (deeds_raiseBot.trans (deeds_raiseAll _ _))

theorem deeds_initHP : f.initHP.deeds = f.deeds ++ [.reset] :=
  congrArg (· ++ [Deed.reset]) (deeds_raiseBot.trans (deeds_raiseAll _ _))

theorem deeds_join {s : SessionId} {team : Nat} :
    ∃ ds, (f.join s team).deeds = f.deeds ++ .seated (team * 2 ^ 24 + f.nextSlot) :: ds ∧
      ∀ d ∈ ds, ∃ a b, d = .standing a b := by
  obtain ⟨ds, hd, hp⟩ := adds_retireBot (P := fun d => ∃ a b, d = .standing a b)
    (f := ((f.enlist s team).raise (team * 2 ^ 24 + f.nextSlot)).note
      (.seated (team * 2 ^ 24 + f.nextSlot))) fun a b => ⟨a, b, rfl⟩
  exact ⟨ds, hd.trans (List.append_assoc _ _ _), hp⟩

theorem adds_move (h : Move now l f g) : Adds (fun d => l.makes d) f g := by
  cases h with
  | hit _ =>
    exact adds_applyDamage (fun _ _ => rfl) (fun _ _ _ => rfl) (fun _ _ => rfl) (fun _ _ => rfl)
      fun _ _ _ => rfl
  | startRescue =>
    refine adds_refl.of_eq ?_
    unfold startRescue
    split
    · rfl
    · split <;> rfl
  | stopRescue =>
    refine adds_refl.of_eq ?_
    unfold stopRescue
    split
    · split <;> rfl
    · rfl
  | leave _ => exact Adds.note (adds_refl.of_eq rfl) rfl
  | join _ _ _ _ _ =>
    obtain ⟨ds, hd, hp⟩ := deeds_join
    refine ⟨_, hd, fun d hm => ?_⟩
    rcases List.mem_cons.mp hm with rfl | hm
    · rfl
    · obtain ⟨a, b, rfl⟩ := hp d hm
      rfl
  | setup _ _ => exact adds_refl.of_eq rfl
  | begin_ _ => exact adds_one deeds_initHP rfl
  | bleed => exact adds_bleed (fun _ _ => rfl) (fun _ _ _ => rfl) fun _ _ => rfl
  | rescue => exact adds_rescueTick (fun _ _ => rfl) fun _ _ => rfl
  | heal _ _ _ _ => exact adds_refl.of_eq rfl
  | revive _ _ => exact adds_one deeds_reviveAll rfl
  | bot _ _ => exact adds_one rfl rfl
  | fight _ _ => exact adds_one rfl rfl
  | score _ _ _ _ => exact adds_one rfl rfl
  | @turn _ ph st ds hf =>
    refine ⟨ds, rfl, fun d hm => ?_⟩
    rcases hf.deeds with rfl | rfl | ⟨r, rfl⟩
    · exact absurd hm List.not_mem_nil
    · rw [List.mem_singleton.mp hm]
      rfl
    · rw [List.mem_singleton.mp hm]
      rfl

def Grows : Field → Field → Prop := Adds fun _ => True

theorem Adds.grows (h : Adds P f g) : Grows f g := by
  obtain ⟨ds, hds, -⟩ := h
  exact ⟨ds, hds, fun _ _ => trivial⟩

theorem grows_move (hm : Move now l f g) : Grows f g := (adds_move hm).grows

end Field

end MatchServer

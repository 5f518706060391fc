import Madoka.Lib.History

namespace Lib

variable {κ α ρ : Type}

-- A value that operations move: the history keeps each operation with the value it met. Between
-- two of them the value may drift, as long as `norm` does not see it.
inductive Follows (act : α → κ → κ) (norm : κ → ρ) (k₀ : κ) : List (κ × α) → κ → Prop where
  | start {k : κ} : norm k = norm k₀ → Follows act norm k₀ [] k
  | did {t : List (κ × α)} {k k' : κ} {a : α} : Follows act norm k₀ t k → norm k' = norm (act a k) →
    Follows act norm k₀ (t ++ [(k, a)]) k'

-- The entries of operations done in a row.
def inRow (act : α → κ → κ) : List α → κ → List (κ × α)
  | [], _ => []
  | a :: as, k => (k, a) :: inRow act as (act a k)

variable {act : α → κ → κ} {norm : κ → ρ} {k₀ k k' : κ} {t : List (κ × α)}

theorem mem_inRow {as : List α} {y : κ × α} (h : y ∈ inRow act as k) : y.2 ∈ as := by
  induction as generalizing k with
  | nil => exact absurd h List.not_mem_nil
  | cons a as ih =>
    rcases List.mem_cons.mp h with rfl | hy
    · exact List.mem_cons_self
    · exact List.mem_cons_of_mem a (ih hy)

theorem Follows.drift (h : Follows act norm k₀ t k) (hk : norm k' = norm k) :
    Follows act norm k₀ t k' := by
  cases h with
  | start h0 => exact .start (hk.trans h0)
  | did h ha => exact .did h (hk.trans ha)

theorem Follows.inRow (h : Follows act norm k₀ t k) (as : List α)
    (hk : norm k' = norm (as.foldl (fun k a => act a k) k)) :
    Follows act norm k₀ (t ++ inRow act as k) k' := by
  induction as generalizing t k with
  | nil =>
    rw [Lib.inRow, List.append_nil]
    exact h.drift hk
  | cons a as ih =>
    have ha : Follows act norm k₀ (t ++ [(k, a)]) (act a k) := .did h rfl
    have has := ih ha hk
    rwa [List.append_assoc] at has

-- What holds of the history and the value at the start, is blind to drift and survives an
-- operation that the guard lets through, holds as long as the guard did.
theorem Follows.inv {I : List (κ × α) → κ → Prop} {P : List (κ × α) → κ × α → Prop}
    (hdrift : ∀ t k k', norm k' = norm k → I t k → I t k') (h0 : I [] k₀)
    (hact : ∀ t k a, I t k → P t (k, a) → I (t ++ [(k, a)]) (act a k))
    (h : Follows act norm k₀ t k) (hP : Each P t) : I t k := by
  induction h with
  | start h0' => exact hdrift _ _ _ h0' h0
  | did _ ha ih =>
    obtain ⟨hpre, hlast⟩ := each_snoc.mp hP
    exact hdrift _ _ _ ha (hact _ _ _ (ih hpre) hlast)

theorem each_of_forall {β : Type} {p : β → Prop} {xs : List β} (h : ∀ x ∈ xs, p x) :
    Each (fun _ x => p x) xs := by
  intro pre x post hxs
  exact h x (by rw [hxs]; exact List.mem_append_right pre List.mem_cons_self)

end Lib

import Mathlib.Data.List.Basic

namespace Lib

variable {α : Type} {gone : α → Prop} {x : α} {l k l' k' : List α}

-- The second list is the first without some of its `gone` elements.
inductive Thinned (gone : α → Prop) : List α → List α → Prop where
  | nil : Thinned gone [] []
  | keep {x : α} {l k : List α} : Thinned gone l k → Thinned gone (x :: l) (x :: k)
  | drop {x : α} {l k : List α} : gone x → Thinned gone l k → Thinned gone (x :: l) k

theorem thinned_refl (l : List α) : Thinned gone l l := by
  induction l with
  | nil => exact .nil
  | cons x l ih => exact .keep ih

theorem thinned_append (h : Thinned gone l k) (h' : Thinned gone l' k') :
    Thinned gone (l ++ l') (k ++ k') := by
  induction h with
  | nil => exact h'
  | keep _ ih => exact .keep ih
  | drop hx _ ih => exact .drop hx ih

theorem thinned_snoc (h : Thinned gone l k) (x : α) : Thinned gone (l ++ [x]) (k ++ [x]) :=
  thinned_append h (.keep .nil)

theorem thinned_snoc_drop (h : Thinned gone l k) (hx : gone x) : Thinned gone (l ++ [x]) k := by
  simpa using thinned_append h (.drop hx .nil)

theorem thinned_length (h : Thinned gone l k) : k.length ≤ l.length := by
  induction h with
  | nil => exact Nat.le_refl 0
  | keep _ ih => simpa using ih
  | drop _ _ ih => exact Nat.le_trans ih (Nat.le_succ _)

theorem thinned_cons_inv (h : Thinned gone (x :: l) k) :
    (∃ k', k = x :: k' ∧ Thinned gone l k') ∨ gone x ∧ Thinned gone l k := by
  cases h with
  | keep h => exact Or.inl ⟨_, rfl, h⟩
  | drop hx h => exact Or.inr ⟨hx, h⟩

end Lib

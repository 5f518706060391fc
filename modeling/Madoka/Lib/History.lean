import Mathlib.Data.List.Induction

namespace Lib

variable {α β : Type} {P Q : List α → α → Prop} {xs ys : List α} {x : α}

theorem split_snoc {pre post : List α} {y : α} (h : xs ++ [y] = pre ++ x :: post) :
    post = [] ∧ xs = pre ∧ y = x ∨ ∃ post', post = post' ++ [y] ∧ xs = pre ++ x :: post' := by
  rcases List.eq_nil_or_concat post with rfl | ⟨post', z, rfl⟩
  · obtain ⟨hxs, hy⟩ := List.append_inj' h rfl
    exact Or.inl ⟨rfl, hxs, List.singleton_inj.mp hy⟩
  · have hsplit : xs ++ [y] = (pre ++ x :: post') ++ [z] := by
      rw [h, List.concat_eq_append, List.append_assoc]
      rfl
    obtain ⟨hxs, hy⟩ := List.append_inj' hsplit rfl
    cases hy
    exact Or.inr ⟨post', List.concat_eq_append, hxs⟩

-- Every entry of a history stands in a relation to what came before it.
def Each (P : List α → α → Prop) (xs : List α) : Prop :=
  ∀ pre x post, xs = pre ++ x :: post → P pre x

theorem each_nil : Each P [] := fun pre x post h => absurd h (by simp)

theorem each_snoc : Each P (xs ++ [x]) ↔ Each P xs ∧ P xs x := by
  constructor
  · intro h
    refine ⟨fun pre y post hxs => ?_, h xs x [] rfl⟩
    exact h pre y (post ++ [x]) (by simp [hxs])
  · rintro ⟨h, hx⟩ pre y post heq
    rcases split_snoc heq with ⟨-, rfl, rfl⟩ | ⟨post', -, hxs⟩
    · exact hx
    · exact h pre y post' hxs

theorem each_append (h : Each P xs) (hys : ∀ pre y post, ys = pre ++ y :: post → P (xs ++ pre) y) :
    Each P (xs ++ ys) := by
  induction ys using List.reverseRecOn with
  | nil => simpa using h
  | append_singleton ys y ih =>
    rw [← List.append_assoc]
    refine each_snoc.mpr ⟨ih fun pre z post hz => ?_, hys ys y [] rfl⟩
    exact hys pre z (post ++ [y]) (by simp [hz])

theorem Each.of_append (h : Each P (xs ++ ys)) : Each P xs :=
  fun pre x post hx => h pre x (post ++ ys) (by simp [hx])

-- The same, read from the front: what a test can run.
def eachFrom (P : List α → α → Prop) : List α → List α → Prop
  | _, [] => True
  | pre, x :: xs => P pre x ∧ eachFrom P (pre ++ [x]) xs

theorem eachFrom_iff {pre : List α} : eachFrom P pre xs ↔
    ∀ mid x post, xs = mid ++ x :: post → P (pre ++ mid) x := by
  induction xs generalizing pre with
  | nil => exact ⟨fun _ mid x post h => absurd h (by simp), fun _ => trivial⟩
  | cons y xs ih =>
    rw [eachFrom, ih]
    constructor
    · rintro ⟨hy, hxs⟩ mid x post heq
      cases mid with
      | nil =>
        obtain ⟨rfl, -⟩ := List.cons.inj heq
        rwa [List.append_nil]
      | cons z mid =>
        obtain ⟨rfl, hrest⟩ := List.cons.inj heq
        have hx := hxs mid x post hrest
        rwa [List.append_assoc] at hx
    · intro h
      refine ⟨?_, fun mid x post heq => ?_⟩
      · have hy := h [] y xs rfl
        rwa [List.append_nil] at hy
      · have hx := h (y :: mid) x post (by rw [heq]; rfl)
        rwa [← List.singleton_append, ← List.append_assoc] at hx

def eachFrom.decide (P : List α → α → Prop) [∀ pre x, Decidable (P pre x)] :
    (pre xs : List α) → Decidable (eachFrom P pre xs)
  | _, [] => isTrue trivial
  | pre, x :: xs =>
    have := eachFrom.decide P (pre ++ [x]) xs
    inferInstanceAs (Decidable (P pre x ∧ eachFrom P (pre ++ [x]) xs))

instance [∀ pre x, Decidable (P pre x)] : Decidable (Each P xs) :=
  have := eachFrom.decide P [] xs
  decidable_of_iff (eachFrom P [] xs) eachFrom_iff

end Lib

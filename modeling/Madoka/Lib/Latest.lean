import Madoka.Lib.History

namespace Lib

variable {α : Type}

-- The last entry of the history that is a write is there, and it is one of those asked for.
def Latest (W P : α → Prop) (xs : List α) : Prop :=
  ∃ pre x post, xs = pre ++ x :: post ∧ P x ∧ ∀ y ∈ post, ¬W y

namespace Latest

variable {W P : α → Prop} {xs ys : List α} {x y : α}

theorem snoc (h : P x) : Latest W P (xs ++ [x]) :=
  ⟨xs, x, [], rfl, h, fun _ hy => absurd hy List.not_mem_nil⟩

theorem append_other (h : Latest W P xs) (hys : ∀ y ∈ ys, ¬W y) : Latest W P (xs ++ ys) := by
  obtain ⟨pre, x, post, rfl, hx, hpost⟩ := h
  refine ⟨pre, x, post ++ ys, by simp, hx, fun z hz => ?_⟩
  rcases List.mem_append.mp hz with hz | hz
  · exact hpost z hz
  · exact hys z hz

theorem snoc_other (h : Latest W P xs) (hx : ¬W x) : Latest W P (xs ++ [x]) :=
  h.append_other fun _ hy => List.mem_singleton.mp hy ▸ hx

theorem mem (h : Latest W P xs) : ∃ x ∈ xs, P x := by
  obtain ⟨pre, x, post, rfl, hx, -⟩ := h
  exact ⟨x, List.mem_append_right pre List.mem_cons_self, hx⟩

-- When the entries asked for are only before some write, none of them is the last one.
theorem none_behind (hW : W y) (hys : ∀ z ∈ ys, ¬P z) (hy : ¬P y) : ¬Latest W P (xs ++ y :: ys) := by
  rintro ⟨pre, x, post, heq, hx, hpost⟩
  rcases List.append_eq_append_iff.mp heq with ⟨mid, rfl, htail⟩ | ⟨mid, rfl, htail⟩
  · cases mid with
    | nil =>
      rw [List.nil_append] at htail
      obtain ⟨rfl, -⟩ := List.cons.inj htail
      exact hy hx
    | cons z mid =>
      rw [List.cons_append] at htail
      obtain ⟨rfl, rfl⟩ := List.cons.inj htail
      exact hys x (List.mem_append_right mid List.mem_cons_self) hx
  · cases mid with
    | nil =>
      rw [List.nil_append] at htail
      obtain ⟨rfl, -⟩ := List.cons.inj htail
      exact hy hx
    | cons z mid =>
      rw [List.cons_append] at htail
      obtain ⟨rfl, rfl⟩ := List.cons.inj htail
      exact hpost y (List.mem_append_right mid List.mem_cons_self) hW

end Latest

end Lib

import Mathlib.Data.List.Induction
import Mathlib.Data.List.Nodup

namespace Lib

variable {ω α : Type}

-- What happens to bounded queues, one for each owner.
inductive Mark (ω α : Type) where
  | put (o : ω) (a : α)
  | lost (a : α)
  deriving DecidableEq, Repr

def latest (n : Nat) (l : List α) : List α := l.drop (l.length - n)

theorem length_latest {n : Nat} (l : List α) : (latest n l).length ≤ n := by
  rw [latest, List.length_drop]
  omega

theorem filter_of_sublist [DecidableEq α] {l l' : List α} (h : l'.Sublist l) (hd : l.Nodup) :
    l.filter (fun a => decide (a ∈ l')) = l' := by
  induction h with
  | slnil => rfl
  | @cons l' l a hsub ih =>
    rw [List.nodup_cons] at hd
    rw [List.filter_cons_of_neg (by simpa using fun ha => hd.1 (hsub.subset ha))]
    exact ih hd.2
  | @cons_cons l' l a hsub ih =>
    rw [List.nodup_cons] at hd
    rw [List.filter_cons_of_pos (by simp)]
    refine congrArg (List.cons a) (Eq.trans (List.filter_congr fun b hb => ?_) (ih hd.2))
    have hne : b ≠ a := fun hba => hd.1 (hba ▸ hb)
    simp [hne]

section Queue

variable [DecidableEq ω] [DecidableEq α] {n : Nat} {o o' : ω} {a : α} {q : List α}
  {marks marks' : List (Mark ω α)}

-- An owner's queue holds the `n` items that were put last; the oldest gives way.
def Mark.serve (n : Nat) (o : ω) (q : List α) : Mark ω α → List α
  | .put o' a => if o' = o then latest n (q ++ [a]) else q
  | .lost a => q.filter fun b => decide (b ≠ a)

def queue (n : Nat) (o : ω) (marks : List (Mark ω α)) : List α := marks.foldl (Mark.serve n o) []

theorem queue_snoc {k : Mark ω α} : queue n o (marks ++ [k]) = k.serve n o (queue n o marks) :=
  List.foldl_concat ..

theorem queue_put : queue n o (marks ++ [.put o a]) = latest n (queue n o marks ++ [a]) := by
  rw [queue_snoc]
  exact if_pos rfl

theorem queue_put_other (h : o' ≠ o) : queue n o (marks ++ [.put o' a]) = queue n o marks := by
  rw [queue_snoc]
  exact if_neg h

theorem queue_lost (as : List α) : queue n o (marks ++ as.map .lost) =
    (queue n o marks).filter fun b => decide (b ∉ as) := by
  induction as generalizing marks with
  | nil => simp
  | cons a as ih =>
    rw [List.map_cons, ← List.singleton_append, ← List.append_assoc, ih, queue_snoc]
    simp only [Mark.serve, List.filter_filter, List.mem_cons, not_or, Bool.decide_and]
    exact List.filter_congr fun b _ => Bool.and_comm ..

theorem queue_length : (queue n o marks).length ≤ n := by
  induction marks using List.reverseRecOn with
  | nil => exact Nat.zero_le n
  | append_singleton marks k ih =>
    rw [queue_snoc]
    cases k with
    | put o' a =>
      by_cases ho : o' = o
      · exact Nat.le_trans (Nat.le_of_eq (congrArg List.length (if_pos ho))) (length_latest _)
      · exact Nat.le_trans (Nat.le_of_eq (congrArg List.length (if_neg ho))) ih
    | lost a => exact Nat.le_trans (List.length_filter_le ..) ih

end Queue

end Lib

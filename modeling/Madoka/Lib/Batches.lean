import Mathlib.Data.List.Induction
import Mathlib.Data.List.Nodup
import Mathlib.Data.List.Sort
import Mathlib.Order.Basic

namespace Lib

variable {α κ : Type}

section Groups

variable [DecidableEq κ] {key : α → κ} {k : κ} {x : α} {l es : List α} {gs : List (κ × List α)}

-- The group of the key takes one more; a new group goes to the end.
def regroup (key : α → κ) (x : α) : List (κ × List α) → List (κ × List α)
  | [] => [(key x, [x])]
  | (k, es) :: gs => if k = key x then (k, es ++ [x]) :: gs else (k, es) :: regroup key x gs

-- The groups of a list by key, in the order in which their keys come up.
def groups (key : α → κ) (l : List α) : List (κ × List α) :=
  l.foldl (fun gs x => regroup key x gs) []

theorem keys_regroup : (regroup key x gs).map Prod.fst =
    if key x ∈ gs.map Prod.fst then gs.map Prod.fst else gs.map Prod.fst ++ [key x] := by
  induction gs with
  | nil => rfl
  | cons g gs ih =>
    obtain ⟨k, es⟩ := g
    by_cases hk : k = key x
    · simp [regroup, hk]
    · have hk' : key x ≠ k := fun h => hk h.symm
      rw [regroup, if_neg hk, List.map_cons, List.map_cons, ih]
      by_cases hmem : key x ∈ gs.map Prod.fst
      · rw [if_pos hmem, if_pos (List.mem_cons_of_mem _ hmem)]
      · have hout : key x ∉ k :: gs.map Prod.fst := by simpa [hk'] using hmem
        rw [if_neg hmem, if_neg hout]
        rfl

theorem mem_regroup (hd : (gs.map Prod.fst).Nodup) : (k, es) ∈ regroup key x gs ↔
    k ≠ key x ∧ (k, es) ∈ gs ∨
      k = key x ∧ ((∃ es', (k, es') ∈ gs ∧ es = es' ++ [x]) ∨ k ∉ gs.map Prod.fst ∧ es = [x]) := by
  induction gs with
  | nil => simp [regroup]
  | cons g gs ih =>
    obtain ⟨k', es'⟩ := g
    rw [List.map_cons, List.nodup_cons] at hd
    have hout : ∀ fs, (k', fs) ∉ gs := fun fs h => hd.1 (List.mem_map.mpr ⟨_, h, rfl⟩)
    by_cases hk : k' = key x
    · subst hk
      rw [regroup, if_pos rfl]
      by_cases hx : k = key x
      · subst hx
        simp [hout]
      · simp [hx]
    · rw [regroup, if_neg hk, List.mem_cons, ih hd.2]
      by_cases hx : k = key x
      · subst hx
        have hk' : key x ≠ k' := fun h => hk h.symm
        simp [hk']
      · simp [hx]

theorem groups_snoc : groups key (l ++ [x]) = regroup key x (groups key l) := List.foldl_concat ..

theorem nodup_groups : ((groups key l).map Prod.fst).Nodup := by
  induction l using List.reverseRecOn with
  | nil => exact List.nodup_nil
  | append_singleton l x ih =>
    rw [groups_snoc, keys_regroup]
    split
    · exact ih
    · rename_i hx
      exact List.nodup_append.mpr ⟨ih, List.nodup_singleton _, fun a ha b hb hab => hx (by
        obtain rfl : b = key x := by simpa using hb
        exact hab ▸ ha)⟩

theorem mem_groups : (k, es) ∈ groups key l ↔ es = l.filter (fun x => decide (key x = k)) ∧ es ≠ [] := by
  induction l using List.reverseRecOn generalizing k es with
  | nil => simp [groups]
  | append_singleton l x ih =>
    have hkeys : k ∉ (groups key l).map Prod.fst ↔ l.filter (fun x => decide (key x = k)) = [] := by
      constructor
      · intro h
        by_contra hne
        exact h (List.mem_map.mpr ⟨(k, _), ih.mpr ⟨rfl, hne⟩, rfl⟩)
      · intro h hm
        obtain ⟨⟨k', fs⟩, hg, rfl⟩ := List.mem_map.mp hm
        exact (ih.mp hg).2 ((ih.mp hg).1.trans h)
    rw [groups_snoc, mem_regroup nodup_groups, ih, hkeys, List.filter_append]
    by_cases hk : k = key x
    · subst hk
      simp only [ne_eq, not_true_eq_false, false_and, true_and, false_or, decide_true,
        List.filter_singleton, cond_true]
      constructor
      · rintro (⟨es', h, rfl⟩ | ⟨hnil, rfl⟩)
        · exact ⟨congrArg (· ++ [x]) (ih.mp h).1, by simp⟩
        · exact ⟨by rw [hnil]; rfl, by simp⟩
      · rintro ⟨rfl, -⟩
        by_cases hnil : l.filter (fun y => decide (key y = key x)) = []
        · exact Or.inr ⟨hnil, by rw [hnil]; rfl⟩
        · exact Or.inl ⟨_, ih.mpr ⟨rfl, hnil⟩, rfl⟩
    · have hk' : key x ≠ k := fun h => hk h.symm
      simp [hk, hk']

theorem perm_regroup : ((regroup key x gs).flatMap Prod.snd).Perm (gs.flatMap Prod.snd ++ [x]) := by
  induction gs with
  | nil => exact List.Perm.refl _
  | cons g gs ih =>
    obtain ⟨k, es⟩ := g
    by_cases hk : k = key x
    · rw [regroup, if_pos hk, List.flatMap_cons, List.flatMap_cons, List.append_assoc, List.append_assoc]
      exact List.perm_append_comm.append_left es
    · rw [regroup, if_neg hk, List.flatMap_cons, List.flatMap_cons, List.append_assoc]
      exact ih.append_left es

theorem perm_groups : ((groups key l).flatMap Prod.snd).Perm l := by
  induction l using List.reverseRecOn with
  | nil => exact List.Perm.refl _
  | append_singleton l x ih =>
    rw [groups_snoc]
    exact perm_regroup.trans (ih.append_right [x])

end Groups

section Oldest

variable {key : α → Int} {n : Nat} {x y : α} {l : List α}

def before (key : α → Int) (a b : α) : Prop := key a ≤ key b

instance : DecidableRel (before key) := fun a b => inferInstanceAs (Decidable (key a ≤ key b))

instance : Std.Total (before key) := ⟨fun a b => Int.le_total (key a) (key b)⟩

instance : IsTrans α (before key) := ⟨fun _ _ _ => Int.le_trans⟩

-- The `n` elements with the least keys, in order; of equals, those that come first.
def oldest (key : α → Int) (n : Nat) (l : List α) : List α := (l.insertionSort (before key)).take n

theorem oldest_subperm : (oldest key n l).Subperm l :=
  (List.take_sublist n _).subperm.trans (List.perm_insertionSort (before key) l).subperm

theorem mem_of_oldest (h : x ∈ oldest key n l) : x ∈ l := oldest_subperm.subset h

theorem sorted_oldest : (oldest key n l).Pairwise (before key) :=
  (List.pairwise_insertionSort (before key) l).sublist (List.take_sublist n _)

theorem length_oldest : (oldest key n l).length = min n l.length := by
  rw [oldest, List.length_take, List.length_insertionSort]

theorem bypassed (hx : x ∈ l) (h : x ∉ oldest key n l) :
    (oldest key n l).length = n ∧ ∀ y ∈ oldest key n l, key y ≤ key x := by
  have hx' : x ∈ l.insertionSort (before key) := (List.mem_insertionSort _).mpr hx
  rw [← List.take_append_drop n (l.insertionSort (before key)), List.mem_append] at hx'
  have hdrop := hx'.resolve_left h
  have hsort := List.pairwise_insertionSort (before key) l
  rw [← List.take_append_drop n (l.insertionSort (before key)), List.pairwise_append] at hsort
  constructor
  · rw [oldest, List.length_take]
    have hlen := List.length_pos_of_mem hdrop
    rw [List.length_drop] at hlen
    omega
  · exact fun y hy => hsort.2.2 y hy x hdrop

end Oldest

end Lib

import Mathlib.Algebra.BigOperators.Group.List.Basic
import Mathlib.Algebra.GroupWithZero.Nat
import Mathlib.Data.List.AList

namespace Lib

variable {κ β : Type} [DecidableEq κ] {m : AList fun _ : κ => β} {f : β → Nat} {a : κ} {b b₀ : β}

def weight (f : β → Nat) (m : AList fun _ : κ => β) : Nat := (m.entries.map fun e => f e.2).sum

theorem erase_of_none (h : m.lookup a = none) : m.erase a = m := by
  refine AList.ext (List.kerase_of_notMem_keys ?_)
  exact AList.lookup_eq_none.mp h

theorem weight_erase (h : m.lookup a = some b) : weight f m = f b + weight f (m.erase a) := by
  have hmem : a ∈ m.entries.keys := AList.lookup_isSome.mp (by rw [h]; rfl)
  obtain ⟨b', l₁, l₂, hl₁, hsplit, hgone⟩ := List.exists_of_kerase hmem
  have hb : b' = b := by
    have hfound : m.entries.dlookup a = some b' := by
      rw [hsplit, List.dlookup_append, List.dlookup_eq_none.mpr hl₁, List.dlookup_cons_eq]
      rfl
    exact Option.some.inj (hfound.symm.trans h)
  have herase : (m.erase a).entries = l₁ ++ l₂ := hgone
  unfold weight
  rw [herase, hsplit, hb]
  simp only [List.map_append, List.map_cons, List.sum_append, List.sum_cons]
  omega

theorem weight_insert : weight f (m.insert a b) = f b + weight f (m.erase a) := by
  unfold weight
  rw [AList.entries_insert, List.map_cons, List.sum_cons]
  rfl

theorem weight_insert_new (h : m.lookup a = none) : weight f (m.insert a b) = f b + weight f m := by
  rw [weight_insert, erase_of_none h]

theorem weight_replace (h : m.lookup a = some b₀) :
    weight f (m.insert a b) + f b₀ = f b + weight f m := by
  rw [weight_insert, weight_erase h (f := f)]
  omega

theorem weight_insert_le : weight f (m.insert a b) ≤ f b + weight f m := by
  cases h : m.lookup a with
  | none => rw [weight_insert_new h]
  | some b₀ =>
    have hrep := weight_replace (f := f) (b := b) h
    omega

theorem weight_pos (h : m.lookup a = some b) : f b ≤ weight f m := by
  rw [weight_erase h (f := f)]
  exact Nat.le_add_right _ _

theorem weight_two {a' : κ} {b' : β} (h : m.lookup a = some b) (h' : m.lookup a' = some b')
    (hne : a' ≠ a) : f b + f b' ≤ weight f m := by
  rw [weight_erase h (f := f)]
  rw [← AList.lookup_erase_ne hne] at h'
  exact Nat.add_le_add_left (weight_pos h') _

theorem weight_eq_zero : weight f m = 0 ↔ ∀ a b, m.lookup a = some b → f b = 0 := by
  constructor
  · intro h a b hb
    exact Nat.eq_zero_of_le_zero (h ▸ weight_pos hb)
  · intro h
    refine List.sum_eq_zero fun n hn => ?_
    obtain ⟨e, he, rfl⟩ := List.mem_map.mp hn
    exact h e.1 e.2 (AList.mem_lookup_iff.mpr he)

end Lib

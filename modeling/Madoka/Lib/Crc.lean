import Mathlib.Algebra.Field.ZMod
import Mathlib.Algebra.Polynomial.Div
import Mathlib.RingTheory.Coprime.Lemmas
import Mathlib.Tactic.LinearCombination

namespace Lib

open Polynomial

noncomputable def ofBit (b : Bool) : (ZMod 2)[X] := if b then 1 else 0

-- A string of bits as a polynomial over GF(2): the first bit is the leading coefficient.
noncomputable def ofBits (bits : List Bool) : (ZMod 2)[X] :=
  bits.foldl (fun p b => p * X + ofBit b) 0

-- A shift register that keeps the remainder of what it is fed, times X ^ degree.
structure Crc (σ : Type) where
  generator : (ZMod 2)[X]
  value : σ → (ZMod 2)[X]
  next : σ → Bool → σ
  monic : generator.Monic
  coprime : IsCoprime generator X
  small : ∀ s, (value s).degree < generator.degree
  step : ∀ s b, generator ∣ value (next s b) - (value s * X + ofBit b * X ^ generator.natDegree)

variable {a b bits : List Bool}

@[simp] theorem ofBits_nil : ofBits [] = 0 := rfl

theorem ofBits_snoc (bits : List Bool) (b : Bool) : ofBits (bits ++ [b]) = ofBits bits * X + ofBit b := by
  unfold ofBits
  rw [List.foldl_append]
  rfl

theorem ofBits_append (a b : List Bool) : ofBits (a ++ b) = ofBits a * X ^ b.length + ofBits b := by
  induction b using List.reverseRecOn with
  | nil => simp
  | append_singleton b x ih =>
    rw [← List.append_assoc, ofBits_snoc, ofBits_snoc, ih, List.length_append, List.length_singleton,
      pow_succ]
    ring

theorem degree_ofBit (b : Bool) : (ofBit b).degree ≤ 0 := by
  cases b
  · exact (degree_zero (R := ZMod 2)).trans_le bot_le
  · exact degree_one_le

theorem ofBits_coeff (bits : List Bool) (b : Bool) : (ofBits (bits ++ [b])).coeff 0 = if b then 1 else 0 := by
  rw [ofBits_snoc, coeff_add, coeff_mul_X_zero, zero_add]
  cases b
  · exact coeff_zero 0
  · exact coeff_one_zero

theorem degree_ofBits (bits : List Bool) : (ofBits bits).degree < bits.length := by
  induction bits using List.reverseRecOn with
  | nil =>
    rw [ofBits_nil, degree_zero]
    exact WithBot.bot_lt_coe _
  | append_singleton bits b ih =>
    rw [ofBits_snoc, List.length_append, List.length_singleton]
    refine (degree_add_le _ _).trans_lt (max_lt ?_ ?_)
    · rw [degree_mul_X, Nat.cast_add, Nat.cast_one]
      exact (WithBot.add_lt_add_iff_right (WithBot.coe_ne_bot (a := 1))).mpr ih
    · exact (degree_ofBit b).trans_lt (by exact_mod_cast Nat.succ_pos bits.length)

theorem ofBits_injective (hlen : a.length = b.length) (h : ofBits a = ofBits b) : a = b := by
  induction a using List.reverseRecOn generalizing b with
  | nil => exact (List.length_eq_zero_iff.mp hlen.symm).symm
  | append_singleton a x ih =>
    induction b using List.reverseRecOn with
    | nil =>
      rw [List.length_append, List.length_singleton] at hlen
      exact absurd hlen (Nat.succ_ne_zero _)
    | append_singleton b y =>
      have hlen' : a.length = b.length := by simpa using hlen
      have hxy : x = y := by
        have hcoeff := congrArg (coeff · 0) h
        simp only [ofBits_coeff] at hcoeff
        cases x <;> cases y <;> simp_all
      subst hxy
      rw [ofBits_snoc, ofBits_snoc] at h
      have hmul : ofBits a * X = ofBits b * X := add_right_cancel h
      rw [ih hlen' (mul_right_cancel₀ X_ne_zero hmul)]

namespace Crc

variable {σ : Type} {w : Crc σ} {s : σ} {p : (ZMod 2)[X]}

theorem eq_mod (h : w.generator ∣ w.value s - p) : w.value s = p %ₘ w.generator := by
  rw [← modByMonic_eq_of_dvd_sub w.monic h]
  exact ((modByMonic_eq_self_iff w.monic).mpr (w.small s)).symm

theorem dvd_fold (s : σ) (bits : List Bool) : w.generator ∣ w.value (bits.foldl w.next s) -
    (w.value s * X ^ bits.length + ofBits bits * X ^ w.generator.natDegree) := by
  induction bits using List.reverseRecOn with
  | nil => simp
  | append_singleton bits b ih =>
    rw [List.foldl_append, List.foldl_cons, List.foldl_nil, ofBits_snoc, List.length_append,
      List.length_singleton]
    have hstep := w.step (bits.foldl w.next s) b
    have hsum := dvd_add hstep (ih.mul_right X)
    convert hsum using 1
    rw [pow_succ]
    ring

theorem value_fold (s : σ) (bits : List Bool) : w.value (bits.foldl w.next s) =
    (w.value s * X ^ bits.length + ofBits bits * X ^ w.generator.natDegree) %ₘ w.generator :=
  eq_mod (dvd_fold s bits)

-- The generator has no common factor with X, so that it divides no multiple of a short difference.
theorem burst_seen {pre post : List Bool} (hlen : a.length = b.length) (hshort : a.length ≤ w.generator.natDegree)
    (h : w.value ((pre ++ a ++ post).foldl w.next s) = w.value ((pre ++ b ++ post).foldl w.next s)) :
    a = b := by
  have hdvd : w.generator ∣ (ofBits a - ofBits b) * X ^ (post.length + w.generator.natDegree) := by
    have hsub := dvd_sub (dvd_fold (w := w) s (pre ++ b ++ post)) (dvd_fold (w := w) s (pre ++ a ++ post))
    rw [h, ofBits_append, ofBits_append, ofBits_append, ofBits_append, List.length_append,
      List.length_append, List.length_append, List.length_append, hlen] at hsub
    convert hsub using 1
    rw [pow_add]
    ring
  have hfactor : w.generator ∣ ofBits a - ofBits b :=
    w.coprime.pow_right.dvd_of_dvd_mul_right hdvd
  have hzero : ofBits a - ofBits b = 0 := by
    have hdeg : ((a.length : ℕ) : WithBot ℕ) ≤ w.generator.degree := by
      rw [degree_eq_natDegree w.monic.ne_zero]
      exact_mod_cast hshort
    refine eq_zero_of_dvd_of_degree_lt hfactor ?_
    refine (degree_sub_le _ _).trans_lt (max_lt ?_ ?_)
    · exact (degree_ofBits a).trans_le hdeg
    · exact (degree_ofBits b).trans_le (hlen ▸ hdeg)
  exact ofBits_injective hlen (sub_eq_zero.mp hzero)

end Crc

end Lib

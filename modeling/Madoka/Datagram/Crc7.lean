import Madoka.Lib.Crc
import Mathlib.Algebra.CharP.Two
import Mathlib.Algebra.Polynomial.Degree.Monomial

namespace Datagram

open Lib Polynomial

-- One turn of the inner loop of init, on crc and data.
def crcBit (s : UInt8 × UInt8) : UInt8 × UInt8 :=
  let poly : UInt8 := if ((s.1 >>> 6) ^^^ (s.2 >>> 7)) &&& 1 ≠ 0 then 0x09 else 0
  (((s.1 <<< 1) ^^^ poly) &&& 0x7F, s.2 <<< 1)

def crc7Table : Vector (Vector UInt8 256) 128 :=
  Vector.ofFn fun i => Vector.ofFn fun j => (crcBit^[8] (UInt8.ofNat i, UInt8.ofNat j)).1

-- none: an index outside of the table.
def crc7Step (c b : UInt8) : Option UInt8 := do
  let row ← crc7Table[c.toNat]?
  row[b.toNat]?

def crc7 (seed : UInt8) (buf : List UInt8) : Option UInt8 := do
  let c ← buf.foldlM crc7Step (seed &&& 0x7F)
  return c &&& 0x7F

def bitOf (b : UInt8) (i : Nat) : Bool := b.toBitVec.getLsbD i

def bitsOf (b : UInt8) : List Bool :=
  [bitOf b 7, bitOf b 6, bitOf b 5, bitOf b 4, bitOf b 3, bitOf b 2, bitOf b 1, bitOf b 0]

def bufBits (buf : List UInt8) : List Bool := buf.flatMap bitsOf

def crcBits (c : UInt8) : List Bool :=
  [bitOf c 6, bitOf c 5, bitOf c 4, bitOf c 3, bitOf c 2, bitOf c 1, bitOf c 0]

def crcNext (c : UInt8) (b : Bool) : UInt8 :=
  ((c <<< 1) ^^^ (if bitOf c 6 != b then 0x09 else 0)) &&& 0x7F

variable {c d : UInt8} {b : Bool} {i : Nat}

theorem bitOf_shl (d : UInt8) (hi : i < 7) : bitOf (d <<< 1) (i + 1) = bitOf d i := by
  unfold bitOf
  rw [UInt8.toBitVec_shiftLeft]
  change (d.toBitVec <<< 1).getLsbD (i + 1) = _
  rw [BitVec.getLsbD_shiftLeft]
  simp [show i + 1 < 8 by omega]

theorem bitOf_shr (x : UInt8) {k : Nat} (hk : k < 8) (i : Nat) :
    bitOf (x >>> UInt8.ofNat k) i = bitOf x (k + i) := by
  unfold bitOf
  rw [UInt8.toBitVec_shiftRight]
  have hmod : ((UInt8.ofNat k).toBitVec % 8#8).toNat = k := by
    change (k % 256) % 8 = k
    omega
  change (x.toBitVec >>> ((UInt8.ofNat k).toBitVec % 8#8)).getLsbD i = _
  rw [BitVec.ushiftRight_eq', hmod, BitVec.getLsbD_ushiftRight]

theorem bitOf_xor (x y : UInt8) (i : Nat) : bitOf (x ^^^ y) i = (bitOf x i ^^ bitOf y i) := by
  unfold bitOf
  rw [UInt8.toBitVec_xor, BitVec.getLsbD_xor]

theorem and_one (x : UInt8) : x &&& 1 ≠ 0 ↔ bitOf x 0 = true := by
  unfold bitOf
  rw [ne_eq, ← UInt8.toBitVec_inj, UInt8.toBitVec_and]
  change ¬ x.toBitVec &&& 1#8 = 0#8 ↔ _
  rw [BitVec.and_one_eq_setWidth_ofBool_getLsbD]
  cases x.toBitVec.getLsbD 0 <;> decide

theorem crcBit_eq (c d : UInt8) : crcBit (c, d) = (crcNext c (bitOf d 7), d <<< 1) := by
  have htop : ((c >>> 6) ^^^ (d >>> 7)) &&& 1 ≠ 0 ↔ (bitOf c 6 != bitOf d 7) = true := by
    have h6 : bitOf (c >>> 6) 0 = bitOf c 6 := bitOf_shr c (show 6 < 8 by decide) 0
    have h7 : bitOf (d >>> 7) 0 = bitOf d 7 := bitOf_shr d (show 7 < 8 by decide) 0
    rw [and_one, bitOf_xor, h6, h7]
  unfold crcBit crcNext
  dsimp only
  rw [if_congr htop rfl rfl]

def topBits : Nat → UInt8 → List Bool
  | 0, _ => []
  | n + 1, d => bitOf d 7 :: topBits n (d <<< 1)

theorem crcBit_iterate (n : Nat) (c d : UInt8) :
    (crcBit^[n] (c, d)).1 = (topBits n d).foldl crcNext c := by
  induction n generalizing c d with
  | zero => rfl
  | succ n ih =>
    rw [Function.iterate_succ_apply, crcBit_eq, ih]
    rfl

theorem topBits_eq (d : UInt8) : topBits 8 d = bitsOf d := by
  simp only [topBits, bitsOf, bitOf_shl, Nat.reduceLT]

theorem table_entry (c d : UInt8) : (crcBit^[8] (c, d)).1 = (bitsOf d).foldl crcNext c := by
  rw [crcBit_iterate, topBits_eq]

theorem bitOf_and (x y : UInt8) (i : Nat) : bitOf (x &&& y) i = (bitOf x i && bitOf y i) := by
  unfold bitOf
  rw [UInt8.toBitVec_and, BitVec.getLsbD_and]

theorem bitOf_shl_zero (d : UInt8) : bitOf (d <<< 1) 0 = false := by
  unfold bitOf
  rw [UInt8.toBitVec_shiftLeft]
  change (d.toBitVec <<< 1).getLsbD 0 = _
  rw [BitVec.getLsbD_shiftLeft]
  rfl

theorem bitOf_poly (t : Bool) (i : Nat) : bitOf (if t then 0x09 else 0) i = (t && bitOf 0x09 i) := by
  cases t
  · unfold bitOf
    exact BitVec.getLsbD_zero
  · rfl

theorem crcNext_bits (c : UInt8) (b : Bool) : crcBits (crcNext c b) =
    [bitOf c 5, bitOf c 4, bitOf c 3, bitOf c 2 ^^ (bitOf c 6 ^^ b), bitOf c 1, bitOf c 0,
      bitOf c 6 ^^ b] := by
  have hlow : ∀ {i : Nat}, i < 7 → bitOf 0x7F i = true := by decide
  have hfeed : bitOf 0x09 0 = true ∧ bitOf 0x09 1 = false ∧ bitOf 0x09 2 = false ∧
      bitOf 0x09 3 = true ∧ bitOf 0x09 4 = false ∧ bitOf 0x09 5 = false ∧ bitOf 0x09 6 = false := by
    decide
  obtain ⟨h0, h1, h2, h3, h4, h5, h6⟩ := hfeed
  simp only [crcBits, crcNext, bitOf_and, bitOf_xor, bitOf_poly, hlow, bitOf_shl_zero, bitOf_shl,
    h0, h1, h2, h3, h4, h5, h6, Nat.reduceLT, Bool.and_true, Bool.and_false, Bool.xor_false,
    Bool.false_xor, show ((bitOf c 6 != b) = (bitOf c 6 ^^ b)) from rfl]

theorem crcNext_lt (c : UInt8) (b : Bool) : crcNext c b &&& 0x7F = crcNext c b := by
  unfold crcNext
  rw [UInt8.and_assoc, UInt8.and_self]

noncomputable def generator : (ZMod 2)[X] := X ^ 7 + (X ^ 3 + 1)

theorem two_eq_zero : (2 : (ZMod 2)[X]) = 0 := CharTwo.two_eq_zero

theorem degree_low : (X ^ 3 + 1 : (ZMod 2)[X]).degree < (7 : ℕ) := by
  rw [show (1 : (ZMod 2)[X]) = C 1 from C_1.symm, degree_X_pow_add_C (by decide)]
  exact_mod_cast (show 3 < 7 by decide)

theorem degree_generator : generator.degree = (7 : ℕ) := by
  unfold generator
  rw [degree_add_eq_left_of_degree_lt, degree_X_pow]
  rw [degree_X_pow]
  exact degree_low

theorem ofBit_xor (a b : Bool) : ofBit (a ^^ b) = ofBit a + ofBit b := by
  cases a <;> cases b
  · exact (add_zero 0).symm
  · exact (zero_add 1).symm
  · exact (add_zero 1).symm
  · exact (CharTwo.add_self_eq_zero 1).symm

noncomputable def crcRegister : Crc UInt8 where
  generator := generator
  value := fun c => ofBits (crcBits c)
  next := crcNext
  monic := monic_X_pow_add degree_low
  coprime := ⟨1, X ^ 6 + X ^ 2, by
    unfold generator
    linear_combination (X ^ 7 + X ^ 3) * two_eq_zero⟩
  small := fun c => by
    rw [degree_generator]
    exact degree_ofBits (crcBits c)
  step := fun c b => by
    rw [show generator.natDegree = 7 from natDegree_eq_of_degree_eq_some degree_generator]
    refine ⟨ofBit (bitOf c 6) + ofBit b, ?_⟩
    rw [crcNext_bits]
    simp only [ofBits, crcBits, List.foldl_cons, List.foldl_nil, ofBit_xor, generator]
    linear_combination (-(ofBit (bitOf c 6) + ofBit b) * X ^ 7) * two_eq_zero

def crcOf (seed : UInt8) (buf : List UInt8) : UInt8 := (bufBits buf).foldl crcNext (seed &&& 0x7F)

theorem masked_lt (h : c &&& 0x7F = c) : c.toNat < 128 := by
  rw [← h, UInt8.toNat_and]
  exact Nat.lt_succ_of_le Nat.and_le_right

theorem masked_fold (bits : List Bool) (h : c &&& 0x7F = c) :
    bits.foldl crcNext c &&& 0x7F = bits.foldl crcNext c := by
  induction bits using List.reverseRecOn with
  | nil => exact h
  | append_singleton bits b _ =>
    rw [List.foldl_append]
    exact crcNext_lt _ b

theorem crc7Step_eq (h : c &&& 0x7F = c) (b : UInt8) :
    crc7Step c b = some ((bitsOf b).foldl crcNext c) := by
  have hc := masked_lt h
  have hb : b.toNat < 256 := b.toNat_lt
  have hrow : crc7Table[c.toNat]? =
      some (Vector.ofFn fun j => (crcBit^[8] (UInt8.ofNat c.toNat, UInt8.ofNat j)).1) := by
    rw [Vector.getElem?_eq_getElem hc]
    unfold crc7Table
    rw [Vector.getElem_ofFn]
  unfold crc7Step
  rw [hrow, ← table_entry]
  change (Vector.ofFn fun j : Fin 256 => (crcBit^[8] (UInt8.ofNat c.toNat, UInt8.ofNat j)).1)[b.toNat]? = _
  rw [Vector.getElem?_eq_getElem hb, Vector.getElem_ofFn]
  dsimp only
  rw [UInt8.ofNat_toNat, UInt8.ofNat_toNat]

theorem crc7_fold (h : c &&& 0x7F = c) (buf : List UInt8) :
    buf.foldlM crc7Step c = some ((bufBits buf).foldl crcNext c) := by
  induction buf generalizing c with
  | nil => rfl
  | cons b buf ih =>
    rw [List.foldlM_cons, crc7Step_eq h]
    change buf.foldlM crc7Step _ = some ((bitsOf b ++ bufBits buf).foldl crcNext c)
    rw [ih (masked_fold _ h), List.foldl_append]

theorem mask_mask (c : UInt8) : c &&& 0x7F &&& 0x7F = c &&& 0x7F := by
  rw [UInt8.and_assoc, UInt8.and_self]

theorem crc7_eq (seed : UInt8) (buf : List UInt8) : crc7 seed buf = some (crcOf seed buf) := by
  unfold crc7
  rw [crc7_fold (mask_mask seed)]
  exact congrArg some (masked_fold _ (mask_mask seed))

theorem crcOf_lt (seed : UInt8) (buf : List UInt8) : (crcOf seed buf).toNat < 128 :=
  masked_lt (masked_fold _ (mask_mask seed))

theorem crcOf_append (seed : UInt8) (a b : List UInt8) : crcOf seed (a ++ b) = crcOf (crcOf seed a) b := by
  have hmask : crcOf seed a &&& 0x7F = crcOf seed a := masked_fold _ (mask_mask seed)
  unfold crcOf at hmask ⊢
  rw [hmask, ← List.foldl_append, bufBits, List.flatMap_append]
  rfl

theorem crcOf_value (buf : List UInt8) : ofBits (crcBits (crcOf 0 buf)) =
    (ofBits (bufBits buf) * X ^ 7) %ₘ (X ^ 7 + (X ^ 3 + 1)) := by
  have hstart : ofBits (crcBits (0 &&& 0x7F)) = 0 := by
    simp [crcBits, bitOf, ofBits, ofBit]
  have hfold := Crc.value_fold (w := crcRegister) (0 &&& 0x7F) (bufBits buf)
  have hdeg : crcRegister.generator.natDegree = 7 := natDegree_eq_of_degree_eq_some degree_generator
  rw [hdeg] at hfold
  change ofBits (crcBits (crcOf 0 buf)) = (ofBits (crcBits (0 &&& 0x7F)) * _ + _) %ₘ generator at hfold
  rw [hstart, zero_mul, zero_add] at hfold
  exact hfold

theorem bitsOf_inj (h : bitsOf c = bitsOf d) : c = d := by
  simp only [bitsOf, List.cons.injEq] at h
  obtain ⟨h7, h6, h5, h4, h3, h2, h1, h0, -⟩ := h
  refine UInt8.toBitVec_inj.mp (BitVec.eq_of_getLsbD_eq fun i hi => ?_)
  match i, hi with
  | 0, _ => exact h0
  | 1, _ => exact h1
  | 2, _ => exact h2
  | 3, _ => exact h3
  | 4, _ => exact h4
  | 5, _ => exact h5
  | 6, _ => exact h6
  | 7, _ => exact h7

theorem bufBits_inj {a b : List UInt8} (h : bufBits a = bufBits b) : a = b := by
  induction a generalizing b with
  | nil =>
    cases b with
    | nil => rfl
    | cons y b => cases h
  | cons x a ih =>
    cases b with
    | nil => cases h
    | cons y b =>
      obtain ⟨hhead, htail⟩ := List.append_inj (show bitsOf x ++ bufBits a = bitsOf y ++ bufBits b from h) rfl
      rw [bitsOf_inj hhead, ih htail]

theorem burst_changes {seed : UInt8} {a b : List UInt8} {pre w w' post : List Bool}
    (ha : bufBits a = pre ++ w ++ post) (hb : bufBits b = pre ++ w' ++ post)
    (hlen : w.length = w'.length) (hshort : w.length ≤ 7) (hne : a ≠ b) : crcOf seed a ≠ crcOf seed b := by
  intro heq
  have hdeg : crcRegister.generator.natDegree = 7 := natDegree_eq_of_degree_eq_some degree_generator
  unfold crcOf at heq
  rw [ha, hb] at heq
  have hsame := Crc.burst_seen (w := crcRegister) hlen (hdeg ▸ hshort) (congrArg crcRegister.value heq)
  exact hne (bufBits_inj (by rw [ha, hb, hsame]))

end Datagram

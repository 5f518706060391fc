import Mathlib.Data.List.Basic

namespace Lib.Base64

-- The digits of a base-64 alphabet, as ASCII codes, and the value a code stands for.
structure Alphabet where
  digit : Nat → UInt8
  value : UInt8 → Option Nat
  value_digit : ∀ i < 64, value (digit i) = some i

def alphanumeric (i : Nat) : UInt8 :=
  if i < 26 then UInt8.ofNat (65 + i)
  else if i < 52 then UInt8.ofNat (71 + i)
  else UInt8.ofNat (i - 4)

def alphanumericValue (x : UInt8) : Option Nat :=
  if 65 ≤ x ∧ x ≤ 90 then some (x.toNat - 65)
  else if 97 ≤ x ∧ x ≤ 122 then some (x.toNat - 71)
  else if 48 ≤ x ∧ x ≤ 57 then some (x.toNat + 4)
  else none

def standard : Alphabet where
  digit := fun i => if i < 62 then alphanumeric i else if i = 62 then 43 else 47
  value := fun x => if x = 43 then some 62 else if x = 47 then some 63 else alphanumericValue x
  value_digit := by decide

def url : Alphabet where
  digit := fun i => if i < 62 then alphanumeric i else if i = 62 then 45 else 95
  value := fun x => if x = 45 then some 62 else if x = 95 then some 63 else alphanumericValue x
  value_digit := by decide

def sextets : List UInt8 → List Nat
  | [] => []
  | [a] => [a.toNat / 4, a.toNat % 4 * 16]
  | [a, b] => [a.toNat / 4, a.toNat % 4 * 16 + b.toNat / 16, b.toNat % 16 * 4]
  | a :: b :: c :: rest =>
    a.toNat / 4 :: (a.toNat % 4 * 16 + b.toNat / 16) :: (b.toNat % 16 * 4 + c.toNat / 64) ::
      c.toNat % 64 :: sextets rest

def octets : List Nat → Option (List UInt8)
  | [] => some []
  | [_] => none
  | [x, y] => some [UInt8.ofNat (x * 4 + y / 16)]
  | [x, y, z] => some [UInt8.ofNat (x * 4 + y / 16), UInt8.ofNat (y % 16 * 16 + z / 4)]
  | x :: y :: z :: w :: rest => (octets rest).map fun bytes =>
    UInt8.ofNat (x * 4 + y / 16) :: UInt8.ofNat (y % 16 * 16 + z / 4) ::
      UInt8.ofNat (z % 4 * 64 + w) :: bytes

variable (α : Alphabet)

def encode (bytes : List UInt8) : List UInt8 :=
  (sextets bytes).map α.digit

def decode (text : List UInt8) : Option (List UInt8) :=
  (text.mapM α.value).bind octets

def equalsSign : UInt8 := 61

def padded (bytes : List UInt8) : List UInt8 :=
  encode α bytes ++ List.replicate ((3 - bytes.length % 3) % 3) equalsSign

-- A decoder that stops at the padding, skips what is no digit and drops a digit left over.
def decodeLenient (text : List UInt8) : List UInt8 :=
  let digits := (text.takeWhile (· ≠ equalsSign)).filterMap α.value
  (octets (if digits.length % 4 = 1 then digits.dropLast else digits)).getD []

variable {α} {bytes : List UInt8} {x : UInt8}

theorem sextets_lt (bytes : List UInt8) : ∀ i ∈ sextets bytes, i < 64 := by
  induction bytes using sextets.induct with
  | case1 => simp [sextets]
  | case2 a =>
    have ha := a.toNat_lt
    simp only [sextets, List.forall_mem_cons, List.not_mem_nil, false_implies, implies_true, and_true]
    omega
  | case3 a b =>
    have ha := a.toNat_lt
    have hb := b.toNat_lt
    simp only [sextets, List.forall_mem_cons, List.not_mem_nil, false_implies, implies_true, and_true]
    omega
  | case4 a b c rest ih =>
    have ha := a.toNat_lt
    have hb := b.toNat_lt
    have hc := c.toNat_lt
    simp only [sextets, List.forall_mem_cons]
    exact ⟨by omega, by omega, by omega, by omega, ih⟩

theorem octets_sextets (bytes : List UInt8) : octets (sextets bytes) = some bytes := by
  have same : ∀ (a : UInt8) (n : Nat), n = a.toNat → UInt8.ofNat n = a := by
    rintro a n rfl
    exact UInt8.ofNat_toNat
  induction bytes using sextets.induct with
  | case1 => rfl
  | case2 a =>
    simp only [sextets, octets]
    rw [same a _ (by omega)]
  | case3 a b =>
    have hb := b.toNat_lt
    simp only [sextets, octets]
    rw [same a _ (by omega), same b _ (by omega)]
  | case4 a b c rest ih =>
    have hb := b.toNat_lt
    have hc := c.toNat_lt
    simp only [sextets, octets, ih, Option.map_some]
    rw [same a _ (by omega), same b _ (by omega), same c _ (by omega)]

theorem mapM_value_digit {l : List Nat} (h : ∀ i ∈ l, i < 64) : (l.map α.digit).mapM α.value = some l := by
  induction l with
  | nil => rfl
  | cons i l ih =>
    rw [List.map_cons, List.mapM_cons, α.value_digit i (h i List.mem_cons_self),
      ih fun j hj => h j (List.mem_cons_of_mem i hj)]
    rfl

theorem decode_encode (bytes : List UInt8) : decode α (encode α bytes) = some bytes := by
  unfold decode encode
  rw [mapM_value_digit (sextets_lt bytes), Option.bind_some, octets_sextets]

theorem mem_encode (h : x ∈ encode α bytes) : ∃ i < 64, x = α.digit i := by
  obtain ⟨i, hi, rfl⟩ := List.mem_map.mp h
  exact ⟨i, sextets_lt bytes i hi, rfl⟩

theorem length_sextets (bytes : List UInt8) : (sextets bytes).length = (4 * bytes.length + 2) / 3 := by
  induction bytes using sextets.induct with
  | case4 a b c rest ih =>
    simp only [sextets, List.length_cons, ih]
    omega
  | _ => simp [sextets]

theorem length_encode (bytes : List UInt8) : (encode α bytes).length = (4 * bytes.length + 2) / 3 := by
  rw [encode, List.length_map, length_sextets]

theorem filterMap_value_digit {l : List Nat} (h : ∀ i ∈ l, i < 64) :
    (l.map α.digit).filterMap α.value = l := by
  induction l with
  | nil => rfl
  | cons i l ih =>
    rw [List.map_cons, List.filterMap_cons, α.value_digit i (h i List.mem_cons_self),
      ih fun j hj => h j (List.mem_cons_of_mem i hj)]

theorem decodeLenient_padded (hpad : α.value equalsSign = none) (bytes : List UInt8) :
    decodeLenient α (padded α bytes) = bytes := by
  have hdigits : (padded α bytes).takeWhile (· ≠ equalsSign) = encode α bytes := by
    unfold padded
    rw [List.takeWhile_append_of_pos]
    · cases (3 - bytes.length % 3) % 3 with
      | zero => simp
      | succ n => simp [List.replicate_succ]
    · intro x hx
      obtain ⟨i, hi, rfl⟩ := mem_encode hx
      rw [decide_eq_true_iff]
      intro heq
      have hv := α.value_digit i hi
      rw [heq, hpad] at hv
      cases hv
  have hlen := length_sextets bytes
  unfold decodeLenient
  rw [hdigits, encode, filterMap_value_digit (sextets_lt bytes)]
  dsimp only
  rw [if_neg (by omega), octets_sextets]
  rfl

end Lib.Base64

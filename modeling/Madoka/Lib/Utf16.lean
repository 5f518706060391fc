import Mathlib.Data.List.Basic

namespace Lib.Utf16

-- A string of UTF-16 code units, which may hold surrogates that are not in a pair.
abbrev Text := List UInt16

def high (u : UInt16) : Bool := 0xD800 ≤ u && u < 0xDC00

def low (u : UInt16) : Bool := 0xDC00 ≤ u && u < 0xE000

def pair (u v : UInt16) : Char :=
  Char.ofNat (0x10000 + (u.toNat - 0xD800) * 1024 + (v.toNat - 0xDC00))

def replacement : Char := Char.ofNat 0xFFFD

-- A decoder that puts the replacement character where a surrogate has no partner.
def decode : Text → List Char
  | [] => []
  | [u] => [if high u || low u then replacement else Char.ofNat u.toNat]
  | u :: v :: rest =>
    if high u then
      if low v then pair u v :: decode rest else replacement :: decode (v :: rest)
    else (if low u then replacement else Char.ofNat u.toNat) :: decode (v :: rest)

def units (c : Char) : Text :=
  if c.toNat < 0x10000 then [UInt16.ofNat c.toNat]
  else [UInt16.ofNat (0xD800 + (c.toNat - 0x10000) / 1024),
    UInt16.ofNat (0xDC00 + (c.toNat - 0x10000) % 1024)]

def encode (s : List Char) : Text :=
  s.flatMap units

def wellFormed : Text → Bool
  | [] => true
  | [u] => !high u && !low u
  | u :: v :: rest => if high u then low v && wellFormed rest else !low u && wellFormed (v :: rest)

def text (s : String) : Text :=
  encode s.toList

def string (t : Text) : String :=
  String.ofList (decode t)

variable {u v : UInt16} {t rest : Text} {c : Char}

theorem high_iff : high u = true ↔ 0xD800 ≤ u.toNat ∧ u.toNat < 0xDC00 := by
  simp [high, UInt16.le_iff_toNat_le, UInt16.lt_iff_toNat_lt]

theorem low_iff : low u = true ↔ 0xDC00 ≤ u.toNat ∧ u.toNat < 0xE000 := by
  simp [low, UInt16.le_iff_toNat_le, UInt16.lt_iff_toNat_lt]

theorem toNat_ofNat {n : Nat} (h : n < 0xD800 ∨ 0xE000 ≤ n ∧ n < 0x110000) : (Char.ofNat n).toNat = n := by
  have hv : n.isValidChar := by
    rcases h with h | h
    · exact Or.inl h
    · exact Or.inr ⟨by omega, h.2⟩
  rw [Char.ofNat, dif_pos hv]
  rfl

theorem units_single (hu : ¬high u = true) (hl : ¬low u = true) : units (Char.ofNat u.toNat) = [u] := by
  rw [high_iff] at hu
  rw [low_iff] at hl
  have hlt := u.toNat_lt
  unfold units
  rw [toNat_ofNat (by omega), if_pos hlt, UInt16.ofNat_toNat]

theorem units_pair (hu : high u = true) (hv : low v = true) : units (pair u v) = [u, v] := by
  rw [high_iff] at hu
  rw [low_iff] at hv
  have hn : (pair u v).toNat = 0x10000 + (u.toNat - 0xD800) * 1024 + (v.toNat - 0xDC00) :=
    toNat_ofNat (by omega)
  have same : ∀ (w : UInt16) (n : Nat), n = w.toNat → UInt16.ofNat n = w := by
    rintro w n rfl
    exact UInt16.ofNat_toNat
  unfold units
  rw [if_neg (by omega), same u _ (by omega), same v _ (by omega)]

theorem units_replacement : units replacement = [0xFFFD] := by
  decide

theorem head_surrogate (h : high u = true ∨ low u = true) : (0xFFFD : UInt16) ≠ u := by
  rintro rfl
  revert h
  decide

theorem encode_decode_iff (t : Text) : encode (decode t) = t ↔ wellFormed t = true := by
  unfold encode
  induction t using decode.induct with
  | case1 => simp [decode, wellFormed]
  | case2 u =>
    simp only [decode, wellFormed, List.flatMap_cons, List.flatMap_nil, List.append_nil]
    split
    · rename_i h
      rw [Bool.or_eq_true] at h
      rw [units_replacement]
      constructor
      · intro heq
        exact absurd (List.cons.inj heq).1 (head_surrogate h)
      · rcases h with h | h <;> simp [h]
    · rename_i h
      rw [Bool.or_eq_true, not_or] at h
      simp [units_single h.1 h.2, h.1, h.2]
  | case3 u v rest hu hv ih =>
    simp [decode, wellFormed, hu, hv, units_pair hu hv, ih]
  | case4 u v rest hu hv ih =>
    simp only [decode, wellFormed, hu, hv, if_true]
    constructor
    · intro heq
      exact absurd (List.cons.inj heq).1 (head_surrogate (Or.inl hu))
    · simp
  | case5 u v rest hu ih =>
    simp only [decode, wellFormed, hu]
    by_cases hl : low u = true
    · simp only [hl, if_true]
      constructor
      · intro heq
        exact absurd (List.cons.inj heq).1 (head_surrogate (Or.inr hl))
      · simp
    · simp [hl, units_single hu hl, ih]

theorem decode_single (hu : ¬high u = true) (hl : ¬low u = true) :
    decode (u :: rest) = Char.ofNat u.toNat :: decode rest := by
  cases rest with
  | nil => simp [decode, hu, hl]
  | cons v rest => simp [decode, hu, hl]

theorem decode_units (c : Char) (rest : Text) : decode (units c ++ rest) = c :: decode rest := by
  have hvalid : c.toNat < 0xD800 ∨ 0xE000 ≤ c.toNat ∧ c.toNat < 0x110000 := by
    have h := c.valid
    simp only [UInt32.isValidChar, Nat.isValidChar] at h
    simp only [Char.toNat]
    omega
  unfold units
  split
  · rename_i h
    have hn : (UInt16.ofNat c.toNat).toNat = c.toNat := by
      rw [UInt16.toNat_ofNat']
      omega
    rw [List.singleton_append, decode_single, hn, Char.ofNat_toNat]
    · rw [high_iff, hn]
      omega
    · rw [low_iff, hn]
      omega
  · rename_i h
    have h1 : (UInt16.ofNat (0xD800 + (c.toNat - 0x10000) / 1024)).toNat =
        0xD800 + (c.toNat - 0x10000) / 1024 := by
      rw [UInt16.toNat_ofNat']
      omega
    have h2 : (UInt16.ofNat (0xDC00 + (c.toNat - 0x10000) % 1024)).toNat =
        0xDC00 + (c.toNat - 0x10000) % 1024 := by
      rw [UInt16.toNat_ofNat']
      omega
    have hhigh : high (UInt16.ofNat (0xD800 + (c.toNat - 0x10000) / 1024)) = true := by
      rw [high_iff, h1]
      omega
    have hlow : low (UInt16.ofNat (0xDC00 + (c.toNat - 0x10000) % 1024)) = true := by
      rw [low_iff, h2]
      omega
    rw [List.cons_append, List.cons_append, List.nil_append, decode, if_pos hhigh, if_pos hlow, pair, h1, h2]
    rw [show 0x10000 + (0xD800 + (c.toNat - 0x10000) / 1024 - 0xD800) * 1024 +
      (0xDC00 + (c.toNat - 0x10000) % 1024 - 0xDC00) = c.toNat by omega, Char.ofNat_toNat]

theorem decode_encode (s : List Char) : decode (encode s) = s := by
  induction s with
  | nil => rfl
  | cons c s ih =>
    unfold encode at ih ⊢
    rw [List.flatMap_cons, decode_units, ih]

theorem string_text (s : String) : string (text s) = s := by
  unfold string text
  rw [decode_encode, String.ofList_toList]

theorem text_string_iff (t : Text) : text (string t) = t ↔ wellFormed t = true := by
  unfold string text
  rw [String.toList_ofList]
  exact encode_decode_iff t

end Lib.Utf16

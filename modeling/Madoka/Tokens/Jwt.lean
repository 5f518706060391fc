import Madoka.Lib.Base64
import Mathlib.Data.List.DropRight

namespace Tokens

open Lib

-- HMAC-SHA256: some digest of 32 bytes for every secret and input.
structure Mac where
  digest : List UInt8 → List UInt8 → List UInt8
  length_digest : ∀ secret input, (digest secret input).length = 32

def ascii (s : String) : List UInt8 :=
  s.toList.map fun c => UInt8.ofNat c.toNat

def dot : UInt8 := 46

def urlDigit (x : UInt8) : UInt8 :=
  if x = 43 then 45 else if x = 47 then 95 else x

-- Buffer's base64 with + and / replaced and the padding at the end cut off.
def b64url (bytes : List UInt8) : List UInt8 :=
  ((Base64.padded Base64.standard bytes).map urlDigit).rdropWhile (· = Base64.equalsSign)

def header : List UInt8 :=
  ascii "\x7b\"alg\":\"HS256\",\"typ\":\"JWT\"\x7d"

def signingInput (body : List UInt8) : List UInt8 :=
  b64url header ++ dot :: b64url body

def sign (mac : Mac) (secret body : List UInt8) : List UInt8 :=
  signingInput body ++ dot :: b64url (mac.digest secret (signingInput body))

theorem urlDigit_standard : ∀ i < 64, urlDigit (Base64.standard.digit i) = Base64.url.digit i := by
  decide

theorem url_digit_ne : ∀ i < 64, Base64.url.digit i ≠ Base64.equalsSign := by
  decide

theorem rdropWhile_padding {text : List UInt8} (h : ∀ x ∈ text, x ≠ Base64.equalsSign) (n : Nat) :
    (text ++ List.replicate n Base64.equalsSign).rdropWhile (· = Base64.equalsSign) = text := by
  induction n with
  | zero =>
    rw [List.replicate_zero, List.append_nil, List.rdropWhile_eq_self_iff]
    intro hne
    simpa using h _ (List.getLast_mem hne)
  | succ n ih =>
    rw [List.replicate_succ', ← List.append_assoc, List.rdropWhile_concat_pos _ _ _ (by simp)]
    exact ih

theorem b64url_eq (bytes : List UInt8) : b64url bytes = Base64.encode Base64.url bytes := by
  have hmap : (Base64.encode Base64.standard bytes).map urlDigit = Base64.encode Base64.url bytes := by
    simp only [Base64.encode, List.map_map]
    exact List.map_congr_left fun i hi => urlDigit_standard i (Base64.sextets_lt bytes i hi)
  have hpad : urlDigit Base64.equalsSign = Base64.equalsSign := rfl
  rw [b64url, Base64.padded, List.map_append, List.map_replicate, hmap, hpad]
  apply rdropWhile_padding
  intro x hx
  obtain ⟨i, hi, rfl⟩ := Base64.mem_encode hx
  exact url_digit_ne i hi

theorem url_digit_ne_dot : ∀ i < 64, Base64.url.digit i ≠ dot := by
  decide

theorem dot_not_mem_b64url (bytes : List UInt8) : dot ∉ b64url bytes := by
  intro hx
  rw [b64url_eq] at hx
  obtain ⟨i, hi, hdot⟩ := Base64.mem_encode hx
  exact url_digit_ne_dot i hi hdot.symm

theorem length_signature (mac : Mac) (secret input : List UInt8) :
    (b64url (mac.digest secret input)).length = 43 := by
  rw [b64url_eq, Base64.length_encode, mac.length_digest]

end Tokens

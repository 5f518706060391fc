import Mathlib.Algebra.GroupWithZero.Nat
import Madoka.Lib.Utf16

namespace Lib

open Utf16

-- A JSON value; `num m k` is the literal m * 10 ^ (-k).
inductive Json where
  | null
  | bool (b : Bool)
  | num (mantissa : Int) (scale : Nat)
  | str (s : Text)
  | arr (items : List Json)
  | obj (fields : List (String × Json))

namespace Json

def int (n : Int) : Json := .num n 0

variable {α : Type}

-- Decoders of a typed reader: a null or a missing field leaves the zero value, a value of another
-- type or out of range is an error.
def asBool : Json → Option Bool
  | .null => some false
  | .bool b => some b
  | _ => none

def asNat (bound : Nat) : Json → Option Nat
  | .null => some 0
  | .num m 0 => if 0 ≤ m ∧ m.toNat < bound then some m.toNat else none
  | _ => none

def asFin (n : Nat) [NeZero n] (v : Json) : Option (Fin n) :=
  (asNat n v).map (Fin.ofNat n)

def asInt (bound : Nat) : Json → Option Int
  | .null => some 0
  | .num m 0 => if m.toNat < bound ∧ (-m).toNat ≤ bound then some m else none
  | _ => none

-- The nearest float64 of the decimal.
def asFloat : Json → Option Float
  | .null => some 0
  | .num (.ofNat m) k => some (OfScientific.ofScientific m true k)
  | .num (.negSucc m) k => some (-OfScientific.ofScientific (m + 1) true k)
  | _ => none

def asString : Json → Option String
  | .null => some ""
  | .str s => some (string s)
  | _ => none

def asList (item : Json → Option α) : Json → Option (List α)
  | .null => some []
  | .arr items => items.mapM item
  | _ => none

def asMap (value : Json → Option α) : Json → Option (List (String × α))
  | .null => some []
  | .obj fields => fields.mapM fun f => (value f.2).map (f.1, ·)
  | _ => none

def asStruct (fields : List (String × Json) → Option α) : Json → Option (Option α)
  | .null => some none
  | .obj o => (fields o).map some
  | _ => none

def field (o : List (String × Json)) (key : String) (value : Json → Option α) (zero : α) : Option α :=
  match o.lookup key with
  | none => some zero
  | some v => value v

-- A field that is there where the value is.
def opt (key : String) (x : Option α) (f : α → Json) : List (String × Json) :=
  x.toList.map fun v => (key, f v)

variable {bound n : Nat} {o o' : List (String × Json)} {key key' : String} {value : Json → Option α}
  {zero x : α} {v : Json}

theorem asNat_int (m : Int) :
    asNat bound (int m) = if 0 ≤ m ∧ m.toNat < bound then some m.toNat else none := rfl

theorem asNat_natCast : asNat bound (int n) = if n < bound then some n else none := by
  rw [asNat_int, Int.toNat_natCast]
  exact if_congr (by omega) rfl rfl

theorem asList_map {β : Type} {f : β → Json} {g : β → α} {P : β → Prop} [DecidablePred P]
    {item : Json → Option α} (h : ∀ x, item (f x) = if P x then some (g x) else none) (l : List β) :
    asList item (.arr (l.map f)) = if ∀ x ∈ l, P x then some (l.map g) else none := by
  induction l with
  | nil => simp [asList]
  | cons x l ih =>
    simp only [asList, List.map_cons, List.mapM_cons, h, List.forall_mem_cons] at ih ⊢
    rw [ih]
    by_cases hx : P x
    · by_cases hl : ∀ y ∈ l, P y
      · rw [if_pos hx, if_pos hl, if_pos ⟨hx, hl⟩]
        rfl
      · simp [hx, hl]
    · simp [hx]

theorem asMap_bool (l : List (String × Bool)) :
    asMap asBool (.obj (l.map fun f => (f.1, .bool f.2))) = some l := by
  induction l with
  | nil => rfl
  | cons f l ih =>
    simp only [asMap, List.map_cons, List.mapM_cons, asBool, Option.map_some] at ih ⊢
    rw [ih]
    rfl

theorem lookup_map {β : Type} (f : β → Json) (l : List (String × β)) :
    (l.map fun e => (e.1, f e.2)).lookup key = (l.lookup key).map f := by
  induction l with
  | nil => rfl
  | cons e l ih =>
    rw [List.map_cons, List.lookup_cons, List.lookup_cons, ih]
    cases key == e.1 <;> rfl

theorem lookup_opt {y : Option α} {f : α → Json} :
    (opt key' y f).lookup key = if key = key' then y.map f else none := by
  cases y with
  | none => simp [opt]
  | some a =>
    by_cases hk : key = key'
    · simp [opt, hk]
    · have hb : (key == key') = false := by simpa using hk
      simp [opt, List.lookup_cons, hb, hk]

theorem field_of_lookup (h : o.lookup key = some v) : field o key value zero = value v := by
  rw [field, h]

theorem field_append (h : o.lookup key = some v) : field (o ++ o') key value zero = value v := by
  rw [field, List.lookup_append, h, Option.some_or]

theorem field_of_absent (h : o.lookup key = none) : field o key value zero = some zero := by
  rw [field, h]

theorem field_asNat (h : o.lookup key = if n = 0 then none else some (int n)) (hb : 0 < bound) :
    field o key (asNat bound) 0 = if n < bound then some n else none := by
  by_cases hn : n = 0
  · rw [if_pos hn] at h
    rw [field_of_absent h, hn, if_pos hb]
  · rw [if_neg hn] at h
    rw [field_of_lookup h, asNat_natCast]

theorem field_asFin [NeZero bound] (h : o.lookup key = if n = 0 then none else some (int n)) :
    field o key (asFin bound) 0 = if n < bound then some (Fin.ofNat bound n) else none := by
  by_cases hn : n = 0
  · rw [if_pos hn] at h
    rw [field_of_absent h, hn, if_pos (Nat.pos_of_ne_zero (NeZero.ne bound))]
    rfl
  · rw [if_neg hn] at h
    rw [field_of_lookup h, asFin, asNat_natCast]
    split <;> rfl

theorem field_asList {β : Type} {f : β → Json} {g : β → α} {P : β → Prop} [DecidablePred P]
    {item : Json → Option α} {l : Option (List β)} (hitem : ∀ x, item (f x) = if P x then some (g x) else none)
    (h : o.lookup key = l.map fun l => .arr (l.map f)) :
    field o key (asList item) [] = if ∀ x ∈ l.getD [], P x then some ((l.getD []).map g) else none := by
  cases l with
  | none => simp [field_of_absent h]
  | some l => rw [field_of_lookup h, asList_map hitem, Option.getD_some]

end Json

end Lib

import Mathlib.Tactic.SplitIfs
import Madoka.Lib.LittleEndian

namespace Message

open Lib

structure Writer where
  B : List UInt8

namespace Writer

def U8 (w : Writer) (v : UInt8) : Writer := ⟨w.B ++ [v]⟩

def U16 (w : Writer) (v : UInt16) : Writer := ⟨w.B ++ [v.toUInt8, (v >>> 8).toUInt8]⟩

def U32 (w : Writer) (v : UInt32) : Writer :=
  ⟨w.B ++ [v.toUInt8, (v >>> 8).toUInt8, (v >>> 16).toUInt8, (v >>> 24).toUInt8]⟩

def U64 (w : Writer) (v : UInt64) : Writer :=
  ⟨w.B ++ [v.toUInt8, (v >>> 8).toUInt8, (v >>> 16).toUInt8, (v >>> 24).toUInt8,
    (v >>> 32).toUInt8, (v >>> 40).toUInt8, (v >>> 48).toUInt8, (v >>> 56).toUInt8]⟩

variable (w : Writer)

theorem U8_le (v : UInt64) : (w.U8 v.toUInt8).B = w.B ++ leBytes 1 v.toNat := by
  simp [U8, leBytes]

theorem U16_le (v : UInt16) : (w.U16 v).B = w.B ++ leBytes 2 v.toNat := by
  simp [U16, leBytes, ← UInt8.toNat_inj, Nat.shiftRight_eq_div_pow]

theorem U32_le (v : UInt32) : (w.U32 v).B = w.B ++ leBytes 4 v.toNat := by
  simp [U32, leBytes, ← UInt8.toNat_inj, Nat.shiftRight_eq_div_pow, Nat.div_div_eq_div_mul]

theorem U64_le (v : UInt64) : (w.U64 v).B = w.B ++ leBytes 8 v.toNat := by
  simp [U64, leBytes, ← UInt8.toNat_inj, Nat.shiftRight_eq_div_pow, Nat.div_div_eq_div_mul]

end Writer

def RepI8 : UInt8 := 0
def RepU8 : UInt8 := 1
def RepI16 : UInt8 := 2
def RepU16 : UInt8 := 3
def RepI32 : UInt8 := 4
def RepU32 : UInt8 := 5
def RepBool : UInt8 := 6
def RepF32 : UInt8 := 7
def RepU64 : UInt8 := 8
def RepI64 : UInt8 := 9

structure RepEntry where
  type : UInt8
  field : UInt8
  value : UInt64
  deriving DecidableEq, Repr

def writeEntry (body : Writer) (e : RepEntry) : Writer :=
  let body := (body.U8 e.type).U8 e.field
  if e.type ∈ [RepI8, RepU8, RepBool] then body.U8 e.value.toUInt8
  else if e.type ∈ [RepI16, RepU16] then body.U16 e.value.toUInt16
  else if e.type ∈ [RepI32, RepU32, RepF32] then body.U32 e.value.toUInt32
  else if e.type ∈ [RepU64, RepI64] then body.U64 e.value
  else body

def ReplicationBlock (entries : List RepEntry) : List UInt8 :=
  let body := entries.foldl writeEntry ⟨[]⟩
  (Writer.U16 ⟨[]⟩ (UInt16.ofNat body.B.length)).B ++ body.B

structure PRIEntity where
  repID : UInt32
  block : List UInt8

def SyncPRI (entities : List PRIEntity) : List UInt8 :=
  (entities.foldl (fun w e => ⟨(w.U32 e.repID).B ++ e.block⟩) (⟨[]⟩ : Writer)).B

-- The width that a type code selects.
def width (t : UInt8) : Option Nat :=
  if t ∈ [RepI8, RepU8, RepBool] then some 1
  else if t ∈ [RepI16, RepU16] then some 2
  else if t ∈ [RepI32, RepU32, RepF32] then some 4
  else if t ∈ [RepU64, RepI64] then some 8
  else none

-- The documented reader: tuples while some of the block's length is left, each a type code, a field
-- and a value of the type's width.
def readTuples : Nat → Nat → List UInt8 → Option (List RepEntry × List UInt8)
  | _, 0, bs => some ([], bs)
  | fuel + 1, left + 1, t :: f :: bs => do
    let w ← width t
    if bs.length < w then none
    else do
      let (es, rest) ← readTuples fuel (left + 1 - (2 + w)) (bs.drop w)
      some (⟨t, f, UInt64.ofNat (ofLe (bs.take w))⟩ :: es, rest)
  | _, _, _ => none

def readBlock : List UInt8 → Option (List RepEntry × List UInt8)
  | a :: b :: bs => readTuples (ofLe [a, b]) (ofLe [a, b]) bs
  | _ => none

-- cmd 900: a RepID, then one block, while bytes are left.
def readEntities : Nat → List UInt8 → Option (List (UInt32 × List RepEntry))
  | _, [] => some []
  | fuel + 1, a :: b :: c :: d :: bs => do
    let (es, rest) ← readBlock bs
    let more ← readEntities fuel rest
    some ((UInt32.ofNat (ofLe [a, b, c, d]), es) :: more)
  | _, _ => none

def readPRI (bs : List UInt8) : Option (List (UInt32 × List RepEntry)) := readEntities bs.length bs

def RepEntry.Known (e : RepEntry) : Prop := (width e.type).isSome

def RepEntry.size (e : RepEntry) : Nat := 2 + (width e.type).getD 0

def RepEntry.low (e : RepEntry) : RepEntry :=
  { e with value := UInt64.ofNat (e.value.toNat % 256 ^ (width e.type).getD 0) }

def RepEntry.tuple (e : RepEntry) : List UInt8 :=
  e.type :: e.field :: leBytes ((width e.type).getD 0) e.value.toNat

def total (es : List RepEntry) : Nat := (es.map RepEntry.size).sum

variable {e : RepEntry} {es : List RepEntry} {w : Writer} {rest : List UInt8} {fuel : Nat}

theorem Writer.fields : ((w.U8 e.type).U8 e.field).B = w.B ++ [e.type, e.field] := List.append_assoc ..

theorem writeEntry_tuple (h : e.Known) : (writeEntry w e).B = w.B ++ e.tuple := by
  have htuple : ∀ bytes : List UInt8, ((w.U8 e.type).U8 e.field).B ++ bytes =
      w.B ++ e.type :: e.field :: bytes := by
    intro bytes
    rw [Writer.fields, List.append_assoc]
    rfl
  unfold RepEntry.Known at h
  unfold writeEntry RepEntry.tuple
  unfold width at h ⊢
  dsimp only
  split
  · rw [Writer.U8_le, htuple, Option.getD_some]
  · split
    · rw [Writer.U16_le, htuple, UInt64.toNat_toUInt16, Option.getD_some]
      exact congrArg (w.B ++ e.type :: e.field :: ·) (leBytes_mod 2 e.value.toNat)
    · split
      · rw [Writer.U32_le, htuple, UInt64.toNat_toUInt32, Option.getD_some]
        exact congrArg (w.B ++ e.type :: e.field :: ·) (leBytes_mod 4 e.value.toNat)
      · split
        · rw [Writer.U64_le, htuple, Option.getD_some]
        · next h1 h2 h3 h4 =>
          rw [if_neg h1, if_neg h2, if_neg h3, if_neg h4] at h
          cases h

theorem body_tuples (h : ∀ e ∈ es, e.Known) : (es.foldl writeEntry w).B = w.B ++ es.flatMap RepEntry.tuple := by
  induction es generalizing w with
  | nil => exact (List.append_nil _).symm
  | cons e es ih =>
    have hes := ih (w := writeEntry w e) fun f hf => h f (List.mem_cons_of_mem _ hf)
    rw [List.foldl_cons, hes, writeEntry_tuple (h e List.mem_cons_self), List.flatMap_cons, List.append_assoc]

theorem tupleBytes_length : e.tuple.length = e.size := by
  rw [RepEntry.tuple, List.length_cons, List.length_cons, leBytes_length, RepEntry.size]
  omega

theorem tuples_length : (es.flatMap RepEntry.tuple).length = total es := by
  rw [List.length_flatMap, total]
  exact congrArg List.sum (List.map_congr_left fun e _ => tupleBytes_length)

theorem block_tuples (h : ∀ e ∈ es, e.Known) (hlen : total es ≤ 65535) :
    ReplicationBlock es = leBytes 2 (total es) ++ es.flatMap RepEntry.tuple := by
  have hbody : (es.foldl writeEntry ⟨[]⟩).B = es.flatMap RepEntry.tuple := body_tuples h
  have hcount : (UInt16.ofNat (total es)).toNat = total es := by
    rw [UInt16.toNat_ofNat']
    exact Nat.mod_eq_of_lt (Nat.lt_succ_of_le hlen)
  rw [ReplicationBlock, hbody, tuples_length, Writer.U16_le, hcount]
  rfl

theorem readTuples_cons (h : e.Known) {left : Nat} : readTuples (fuel + 1) (e.size + left) (e.tuple ++ rest) =
    (readTuples fuel left rest).map fun p => (e.low :: p.1, p.2) := by
  obtain ⟨n, hn⟩ := Option.isSome_iff_exists.mp h
  have hsize : e.size + left = n + 1 + left + 1 := by
    rw [RepEntry.size, hn, Option.getD_some]
    omega
  have hleft : n + 1 + left + 1 - (2 + n) = left := by omega
  have hlong : ¬(leBytes n e.value.toNat ++ rest).length < n := by
    rw [List.length_append, leBytes_length]
    omega
  have hdrop : (leBytes n e.value.toNat ++ rest).drop n = rest := List.drop_left' (leBytes_length n _)
  have htake : (leBytes n e.value.toNat ++ rest).take n = leBytes n e.value.toNat := List.take_left' (leBytes_length n _)
  have hlow : e.low = ⟨e.type, e.field, UInt64.ofNat (ofLe (leBytes n e.value.toNat))⟩ := by
    rw [RepEntry.low, hn, ofLe_leBytes]
    rfl
  rw [hsize, RepEntry.tuple, hn, Option.getD_some, List.cons_append, List.cons_append, readTuples, hn,
    Option.bind_eq_bind, Option.bind_some, if_neg hlong, hleft, hdrop, htake, ← hlow]
  cases readTuples fuel left rest with
  | none => rfl
  | some p => rfl

theorem readTuples_tuples (h : ∀ e ∈ es, e.Known) (hfuel : total es ≤ fuel) :
    readTuples fuel (total es) (es.flatMap RepEntry.tuple ++ rest) = some (es.map RepEntry.low, rest) := by
  induction es generalizing fuel with
  | nil => cases fuel <;> rfl
  | cons e es ih =>
    have htotal : total (e :: es) = e.size + total es := List.sum_cons
    have hpos : 2 ≤ e.size := Nat.le_add_right 2 _
    obtain ⟨fuel, rfl⟩ := Nat.exists_eq_add_of_le' (show 1 ≤ fuel by omega)
    have hes : readTuples fuel (total es) (es.flatMap RepEntry.tuple ++ rest) =
        some (es.map RepEntry.low, rest) := ih (fun f hf => h f (List.mem_cons_of_mem _ hf)) (by omega)
    rw [htotal, List.flatMap_cons, List.append_assoc, readTuples_cons (h e List.mem_cons_self), hes]
    rfl

theorem le_two {n : Nat} (h : n ≤ 65535) : ∃ a b, leBytes 2 n = [a, b] ∧ ofLe [a, b] = n :=
  ⟨_, _, rfl, ofLe_leBytes_of_lt (w := 2) (by omega)⟩

theorem readBlock_block (rest : List UInt8) (h : ∀ e ∈ es, e.Known) (hlen : total es ≤ 65535) :
    readBlock (ReplicationBlock es ++ rest) = some (es.map RepEntry.low, rest) := by
  obtain ⟨a, b, hab, hn⟩ := le_two hlen
  rw [block_tuples h hlen, hab, List.append_assoc]
  change readTuples (ofLe [a, b]) (ofLe [a, b]) (es.flatMap RepEntry.tuple ++ rest) = _
  rw [hn]
  exact readTuples_tuples h (Nat.le_refl _)

def entity (x : UInt32 × List RepEntry) : PRIEntity := ⟨x.1, ReplicationBlock x.2⟩

variable {xs : List (UInt32 × List RepEntry)} {x : UInt32 × List RepEntry}

theorem sync_bytes {ents : List PRIEntity} :
    (ents.foldl (fun w e => ⟨(w.U32 e.repID).B ++ e.block⟩) w).B =
      w.B ++ ents.flatMap fun e => leBytes 4 e.repID.toNat ++ e.block := by
  induction ents generalizing w with
  | nil => exact (List.append_nil _).symm
  | cons e ents ih =>
    rw [List.foldl_cons, ih, List.flatMap_cons]
    dsimp only
    rw [Writer.U32_le, List.append_assoc, List.append_assoc, List.append_assoc]

theorem readEntities_cons (h : ∀ e ∈ x.2, e.Known) (hlen : total x.2 ≤ 65535) :
    readEntities (fuel + 1) (leBytes 4 x.1.toNat ++ (ReplicationBlock x.2 ++ rest)) =
      (readEntities fuel rest).map fun more => (x.1, x.2.map RepEntry.low) :: more := by
  have hid : UInt32.ofNat (ofLe (leBytes 4 x.1.toNat)) = x.1 := by
    rw [ofLe_leBytes_of_lt (w := 4) x.1.toNat_lt]
    exact UInt32.ofNat_toNat
  have hread := readBlock_block rest h hlen
  change (do
    let (es, rest) ← readBlock (ReplicationBlock x.2 ++ rest)
    let more ← readEntities fuel rest
    some ((UInt32.ofNat (ofLe (leBytes 4 x.1.toNat)), es) :: more)) = _
  rw [hread, hid, Option.bind_eq_bind, Option.bind_some]
  dsimp only
  cases readEntities fuel rest with
  | none => rfl
  | some more => rfl

theorem readEntities_sync (h : ∀ x ∈ xs, (∀ e ∈ x.2, e.Known) ∧ total x.2 ≤ 65535)
    (hfuel : xs.length ≤ fuel) :
    readEntities fuel ((xs.map entity).flatMap fun e => leBytes 4 e.repID.toNat ++ e.block) =
      some (xs.map fun x => (x.1, x.2.map RepEntry.low)) := by
  induction xs generalizing fuel with
  | nil => cases fuel <;> rfl
  | cons x xs ih =>
    obtain ⟨fuel, rfl⟩ := Nat.exists_eq_add_of_le' (show 1 ≤ fuel by rw [List.length_cons] at hfuel; omega)
    obtain ⟨hknown, hlen⟩ := h x List.mem_cons_self
    have hxs := @ih fuel (fun y hy => h y (List.mem_cons_of_mem _ hy))
      (by rw [List.length_cons] at hfuel; omega)
    rw [List.map_cons, List.flatMap_cons, List.append_assoc]
    change readEntities (fuel + 1) (leBytes 4 x.1.toNat ++ (ReplicationBlock x.2 ++ _)) = _
    rw [readEntities_cons hknown hlen, hxs]
    rfl

-- The value as its type has it: the signed types extend their sign.
def interpret (t : UInt8) (v : UInt64) : UInt64 :=
  if t = RepI8 then v.toInt64.toInt8.toInt64.toUInt64
  else if t = RepI16 then v.toInt64.toInt16.toInt64.toUInt64
  else if t = RepI32 then v.toInt64.toInt32.toInt64.toUInt64
  else v

def RepEntry.typed (e : RepEntry) : RepEntry := { e with value := interpret e.type e.value }

def RepEntry.Fits (e : RepEntry) : Prop := e.Known ∧ e.value.toNat < 256 ^ (width e.type).getD 0

def RepEntry.FitsTyped (e : RepEntry) : Prop :=
  if e.type = RepI8 then -128 ≤ e.value.toInt64.toInt ∧ e.value.toInt64.toInt < 128
  else if e.type = RepI16 then -32768 ≤ e.value.toInt64.toInt ∧ e.value.toInt64.toInt < 32768
  else if e.type = RepI32 then -2147483648 ≤ e.value.toInt64.toInt ∧ e.value.toInt64.toInt < 2147483648
  else e.Fits

theorem low_fits (h : e.Fits) : e.low = e := by
  rw [RepEntry.low, Nat.mod_eq_of_lt h.2, UInt64.ofNat_toNat]

theorem toInt_toInt64 (v : UInt64) : v.toInt64.toInt = (v.toNat : Int).bmod 18446744073709551616 :=
  BitVec.toInt_eq_toNat_bmod v.toBitVec

theorem toInt_low (v : UInt64) {d : Nat} (hd : d ∣ 18446744073709551616) :
    (UInt64.ofNat (v.toNat % d)).toInt64.toInt.bmod d = v.toInt64.toInt.bmod d := by
  have hsmall : v.toNat % d < UInt64.size := Nat.lt_of_le_of_lt (Nat.mod_le _ _) v.toNat_lt
  rw [toInt_toInt64, toInt_toInt64, Int.bmod_bmod_of_dvd hd, Int.bmod_bmod_of_dvd hd,
    UInt64.toNat_ofNat_of_lt' hsmall, Int.natCast_emod, Int.emod_bmod]

theorem typed_int8 {v : UInt64} (hlo : -128 ≤ v.toInt64.toInt) (hhi : v.toInt64.toInt < 128) :
    (UInt64.ofNat (v.toNat % 256)).toInt64.toInt8.toInt64.toUInt64 = v := by
  have hwide : (UInt64.ofNat (v.toNat % 256)).toInt64.toInt8.toInt64 = v.toInt64 := by
    rw [← Int64.toInt_inj, Int8.toInt_toInt64, Int64.toInt_toInt8]
    exact (toInt_low v (by decide)).trans (Int.bmod_eq_of_le hlo hhi)
  rw [hwide, UInt64.toUInt64_toInt64]

theorem typed_int16 {v : UInt64} (hlo : -32768 ≤ v.toInt64.toInt) (hhi : v.toInt64.toInt < 32768) :
    (UInt64.ofNat (v.toNat % 65536)).toInt64.toInt16.toInt64.toUInt64 = v := by
  have hwide : (UInt64.ofNat (v.toNat % 65536)).toInt64.toInt16.toInt64 = v.toInt64 := by
    rw [← Int64.toInt_inj, Int16.toInt_toInt64, Int64.toInt_toInt16]
    exact (toInt_low v (by decide)).trans (Int.bmod_eq_of_le hlo hhi)
  rw [hwide, UInt64.toUInt64_toInt64]

theorem typed_int32 {v : UInt64} (hlo : -2147483648 ≤ v.toInt64.toInt) (hhi : v.toInt64.toInt < 2147483648) :
    (UInt64.ofNat (v.toNat % 4294967296)).toInt64.toInt32.toInt64.toUInt64 = v := by
  have hwide : (UInt64.ofNat (v.toNat % 4294967296)).toInt64.toInt32.toInt64 = v.toInt64 := by
    rw [← Int64.toInt_inj, Int32.toInt_toInt64, Int64.toInt_toInt32]
    exact (toInt_low v (by decide)).trans (Int.bmod_eq_of_le hlo hhi)
  rw [hwide, UInt64.toUInt64_toInt64]

theorem interpret_other {t : UInt8} {v : UInt64} (h1 : t ≠ RepI8) (h2 : t ≠ RepI16) (h3 : t ≠ RepI32) :
    interpret t v = v := by
  rw [interpret, if_neg h1, if_neg h2, if_neg h3]

theorem typed_fits (h : e.FitsTyped) : e.low.typed = e := by
  obtain ⟨t, f, v⟩ := e
  unfold RepEntry.FitsTyped at h
  dsimp only at h
  split at h
  · next ht =>
    subst ht
    exact congrArg (RepEntry.mk RepI8 f) (typed_int8 h.1 h.2)
  · next h1 =>
    split at h
    · next ht =>
      subst ht
      exact congrArg (RepEntry.mk RepI16 f) (typed_int16 h.1 h.2)
    · next h2 =>
      split at h
      · next ht =>
        subst ht
        exact congrArg (RepEntry.mk RepI32 f) (typed_int32 h.1 h.2)
      · next h3 =>
        rw [low_fits h]
        exact congrArg (RepEntry.mk t f) (interpret_other h1 h2 h3)

theorem FitsTyped.known (h : e.FitsTyped) : e.Known := by
  unfold RepEntry.FitsTyped at h
  split at h
  · next ht => rw [RepEntry.Known, ht]; rfl
  · split at h
    · next ht => rw [RepEntry.Known, ht]; rfl
    · split at h
      · next ht => rw [RepEntry.Known, ht]; rfl
      · exact h.1

theorem map_low (h : ∀ e ∈ es, e.Fits) : es.map RepEntry.low = es := by
  conv_rhs => rw [← List.map_id es]
  exact List.map_congr_left fun e he => low_fits (h e he)

theorem map_typed (h : ∀ e ∈ es, e.FitsTyped) : (es.map RepEntry.low).map RepEntry.typed = es := by
  rw [List.map_map]
  conv_rhs => rw [← List.map_id es]
  exact List.map_congr_left fun e he => typed_fits (h e he)

theorem sync_flatMap (xs : List (UInt32 × List RepEntry)) : SyncPRI (xs.map entity) =
    (xs.map entity).flatMap fun e => leBytes 4 e.repID.toNat ++ e.block := sync_bytes

theorem sync_length (xs : List (UInt32 × List RepEntry)) : xs.length ≤ (SyncPRI (xs.map entity)).length := by
  rw [sync_flatMap]
  induction xs with
  | nil => exact Nat.le_refl 0
  | cons x xs ih =>
    rw [List.map_cons, List.flatMap_cons, List.length_append, List.length_append, leBytes_length, List.length_cons]
    omega

theorem readPRI_sync (h : ∀ x ∈ xs, (∀ e ∈ x.2, e.Known) ∧ total x.2 ≤ 65535) :
    readPRI (SyncPRI (xs.map entity)) = some (xs.map fun x => (x.1, x.2.map RepEntry.low)) := by
  have hfuel := sync_length xs
  rw [readPRI]
  rw [sync_flatMap] at hfuel ⊢
  exact readEntities_sync h hfuel

theorem replication_decodes :
    (∀ es, total es ≤ 65535 →
      ((∀ e ∈ es, e.Fits) → readBlock (ReplicationBlock es) = some (es, [])) ∧
      ((∀ e ∈ es, e.FitsTyped) →
        (readBlock (ReplicationBlock es)).map (fun p => (p.1.map RepEntry.typed, p.2)) = some (es, []))) ∧
    (∀ xs : List (UInt32 × List RepEntry), (∀ x ∈ xs, total x.2 ≤ 65535) →
      ((∀ x ∈ xs, ∀ e ∈ x.2, e.Fits) → readPRI (SyncPRI (xs.map entity)) = some xs) ∧
      ((∀ x ∈ xs, ∀ e ∈ x.2, e.FitsTyped) →
        (readPRI (SyncPRI (xs.map entity))).map (fun ys => ys.map fun x => (x.1, x.2.map RepEntry.typed)) =
          some xs)) := by
  constructor
  · intro es hlen
    constructor
    · intro h
      have hread := readBlock_block [] (fun e he => (h e he).1) hlen
      rw [List.append_nil] at hread
      rw [hread, map_low h]
    · intro h
      have hread := readBlock_block [] (fun e he => FitsTyped.known (h e he)) hlen
      rw [List.append_nil] at hread
      rw [hread, Option.map_some, map_typed h]
  · intro xs hlen
    constructor
    · intro h
      rw [readPRI_sync fun x hx => ⟨fun e he => (h x hx e he).1, hlen x hx⟩]
      conv_rhs => rw [← List.map_id xs]
      exact congrArg some (List.map_congr_left fun x hx => congrArg (x.1, ·) (map_low (h x hx)))
    · intro h
      rw [readPRI_sync fun x hx => ⟨fun e he => FitsTyped.known (h x hx e he), hlen x hx⟩, Option.map_some,
        List.map_map]
      conv_rhs => rw [← List.map_id xs]
      exact congrArg some (List.map_congr_left fun x hx => congrArg (x.1, ·) (map_typed (h x hx)))

theorem replication_decodes_wall :
    (∀ e ∈ [(⟨RepU8, 0, 1⟩ : RepEntry)], e.Fits) ∧ total [⟨RepU8, 0, 1⟩] ≤ 65535 ∧
      readPRI (SyncPRI ([(7, [⟨RepU8, 0, 1⟩])].map entity)) = some [(7, [⟨RepU8, 0, 1⟩])] := by
  have hfits : ∀ e ∈ [(⟨RepU8, 0, 1⟩ : RepEntry)], e.Fits := by
    intro e he
    rw [List.mem_singleton.mp he]
    exact ⟨rfl, by decide⟩
  have hlen : total [⟨RepU8, 0, 1⟩] ≤ 65535 := by decide
  refine ⟨hfits, hlen, (replication_decodes.2 [(7, [⟨RepU8, 0, 1⟩])] ?_).1 ?_⟩
  · intro x hx
    rw [List.mem_singleton.mp hx]
    exact hlen
  · intro x hx
    rw [List.mem_singleton.mp hx]
    exact hfits

structure PRIState where
  curHP : UInt16
  maxHP : UInt16
  coins : UInt16
  earnedCoin : UInt16
  score : UInt16
  vestDur : UInt16
  helmetDur : UInt16
  itemOnHand : UInt64
  faction : UInt8
  kills : UInt8
  deaths : UInt8
  fireState : UInt8
  sighting : UInt32
  curEP : UInt8
  damage : UInt32
  speedScale : UInt16
  jumpScale : UInt16
  obCount : UInt8

def PRIHPEntries (st : PRIState) : List RepEntry :=
  [⟨RepU16, 0, st.curHP.toUInt64⟩, ⟨RepU16, 1, st.maxHP.toUInt64⟩,
    ⟨RepU64, 2, st.vestDur.toUInt64⟩, ⟨RepU64, 3, st.helmetDur.toUInt64⟩,
    ⟨RepU64, 4, st.itemOnHand⟩, ⟨RepU8, 5, 0⟩, ⟨RepU8, 21, st.fireState.toUInt64⟩,
    ⟨RepU8, 6, st.curEP.toUInt64⟩, ⟨RepU8, 7, 200⟩, ⟨RepU32, 8, 0⟩, ⟨RepU32, 9, 0⟩, ⟨RepU16, 39, 0⟩,
    ⟨RepU8, 10, 1⟩, ⟨RepU8, 11, 0⟩, ⟨RepU32, 12, st.sighting.toUInt64⟩,
    ⟨RepU8, 13, st.kills.toUInt64⟩, ⟨RepU8, 14, st.obCount.toUInt64⟩, ⟨RepU16, 15, 0⟩,
    ⟨RepU64, 16, 0⟩, ⟨RepU8, 17, 0⟩, ⟨RepU64, 18, 0⟩, ⟨RepBool, 19, 0⟩,
    ⟨RepU32, 20, st.kills.toUInt64⟩, ⟨RepU16, 23, 0⟩, ⟨RepU8, 25, 0⟩, ⟨RepU8, 24, 0⟩,
    ⟨RepU16, 22, 0⟩, ⟨RepU32, 26, 0⟩, ⟨RepU64, 27, 0⟩, ⟨RepU16, 28, st.score.toUInt64⟩,
    ⟨RepU8, 29, st.deaths.toUInt64⟩, ⟨RepU8, 30, st.kills.toUInt64⟩,
    ⟨RepU32, 31, st.damage.toUInt64⟩, ⟨RepU16, 32, st.coins.toUInt64⟩,
    ⟨RepU16, 33, st.earnedCoin.toUInt64⟩, ⟨RepU8, 34, st.faction.toUInt64⟩, ⟨RepU32, 36, 0⟩,
    ⟨RepU8, 37, 0⟩, ⟨RepU8, 38, 0⟩] ++
    (if st.speedScale ≠ 0 then [⟨RepU16, 50, st.speedScale.toUInt64⟩] else []) ++
    if st.jumpScale ≠ 0 then [⟨RepU16, 52, st.jumpScale.toUInt64⟩] else []

def PRIHPBlock (st : PRIState) : List UInt8 := ReplicationBlock (PRIHPEntries st)

def PRIHealHP (repID : UInt32) (hp : UInt16) : List UInt8 :=
  SyncPRI [⟨repID, ReplicationBlock [⟨RepU16, 0, hp.toUInt64⟩]⟩]

def PRIArmorDur (repID : UInt32) (vest helmet : UInt16) : List UInt8 :=
  SyncPRI [⟨repID, ReplicationBlock [⟨RepU64, 2, vest.toUInt64⟩, ⟨RepU64, 3, helmet.toUInt64⟩]⟩]

def PRIRescuing (repID : UInt32) (rescuing : UInt8) : List UInt8 :=
  SyncPRI [⟨repID, ReplicationBlock [⟨RepU8, 5, rescuing.toUInt64⟩]⟩]

theorem fits_small {t f : UInt8} {v : UInt64} (ht : (width t).isSome) (hv : v.toNat < 256) :
    RepEntry.Fits ⟨t, f, v⟩ := by
  obtain ⟨w, hw⟩ := Option.isSome_iff_exists.mp ht
  have hpos : 1 ≤ w := by
    unfold width at hw
    split_ifs at hw <;> cases hw <;> decide
  refine ⟨ht, Nat.lt_of_lt_of_le hv ?_⟩
  rw [hw, Option.getD_some]
  exact Nat.le_self_pow (Nat.one_le_iff_ne_zero.mp hpos) 256

theorem fits_u8 (f : UInt8) (x : UInt8) : RepEntry.Fits ⟨RepU8, f, x.toUInt64⟩ :=
  fits_small rfl (by rw [UInt8.toNat_toUInt64]; exact x.toNat_lt)

theorem fits_u16 (f : UInt8) (x : UInt16) : RepEntry.Fits ⟨RepU16, f, x.toUInt64⟩ :=
  ⟨rfl, by rw [UInt16.toNat_toUInt64]; exact x.toNat_lt⟩

theorem fits_u32 (f : UInt8) (x : UInt32) : RepEntry.Fits ⟨RepU32, f, x.toUInt64⟩ :=
  ⟨rfl, by rw [UInt32.toNat_toUInt64]; exact x.toNat_lt⟩

theorem fits_u64 (f : UInt8) (x : UInt64) : RepEntry.Fits ⟨RepU64, f, x⟩ := ⟨rfl, x.toNat_lt⟩

theorem optional_fit {c : Prop} [Decidable c] (h : e.Fits) : ∀ x ∈ if c then [e] else [], x.Fits := by
  intro x hx
  split at hx
  · rw [List.mem_singleton.mp hx]
    exact h
  · cases hx

theorem size_le : e.size ≤ 10 := by
  unfold RepEntry.size width
  split_ifs <;> decide

theorem total_le (es : List RepEntry) : total es ≤ 10 * es.length := by
  induction es with
  | nil => exact Nat.le_refl 0
  | cons e es ih =>
    have htotal : total (e :: es) = e.size + total es := List.sum_cons
    have hsize := size_le (e := e)
    rw [htotal, List.length_cons]
    omega

theorem optional_length {c : Prop} [Decidable c] : (if c then [e] else []).length ≤ 1 := by
  split
  · exact Nat.le_refl 1
  · exact Nat.zero_le 1

theorem PRIHPEntries_fit (st : PRIState) : (∀ e ∈ PRIHPEntries st, e.Fits) ∧ total (PRIHPEntries st) ≤ 65535 := by
  have hkills : RepEntry.Fits ⟨RepU32, 20, st.kills.toUInt64⟩ :=
    fits_small rfl (by rw [UInt8.toNat_toUInt64]; exact st.kills.toNat_lt)
  constructor
  · refine List.forall_mem_append.mpr ⟨List.forall_mem_append.mpr ⟨?_, ?_⟩, ?_⟩
    · simp (disch := decide) only [List.forall_mem_cons, fits_u8, fits_u16, fits_u32, fits_u64, hkills,
        fits_small, true_and]
      exact List.forall_mem_nil _
    · exact optional_fit (fits_u16 50 st.speedScale)
    · exact optional_fit (fits_u16 52 st.jumpScale)
  · have hlen : (PRIHPEntries st).length ≤ 39 + 1 + 1 := by
      rw [PRIHPEntries, List.length_append, List.length_append]
      exact Nat.add_le_add (Nat.add_le_add (Nat.le_refl 39) optional_length) optional_length
    have htotal := total_le (PRIHPEntries st)
    omega

theorem PRIHPBlock_reads (st : PRIState) : readBlock (PRIHPBlock st) = some (PRIHPEntries st, []) := by
  obtain ⟨hfits, hlen⟩ := PRIHPEntries_fit st
  have hread := readBlock_block [] (fun e he => (hfits e he).1) hlen
  rw [List.append_nil] at hread
  rw [PRIHPBlock, hread, map_low hfits]

theorem readPRI_single {repID : UInt32} (hfits : ∀ e ∈ es, e.Fits) (hlen : total es ≤ 65535) :
    readPRI (SyncPRI [⟨repID, ReplicationBlock es⟩]) = some [(repID, es)] := by
  have hread := @readPRI_sync [(repID, es)] fun x hx => by
    rw [List.mem_singleton.mp hx]
    exact ⟨fun e he => (hfits e he).1, hlen⟩
  rw [List.map_singleton, List.map_singleton, map_low hfits] at hread
  exact hread

theorem PRIHealHP_reads (repID : UInt32) (hp : UInt16) :
    readPRI (PRIHealHP repID hp) = some [(repID, [⟨RepU16, 0, hp.toUInt64⟩])] :=
  readPRI_single (List.forall_mem_singleton.mpr (fits_u16 0 hp)) (Nat.le_of_ble_eq_true rfl)

theorem PRIArmorDur_reads (repID : UInt32) (vest helmet : UInt16) :
    readPRI (PRIArmorDur repID vest helmet) =
      some [(repID, [⟨RepU64, 2, vest.toUInt64⟩, ⟨RepU64, 3, helmet.toUInt64⟩])] :=
  readPRI_single (List.forall_mem_cons.mpr ⟨fits_u64 2 _, List.forall_mem_singleton.mpr (fits_u64 3 _)⟩)
    (Nat.le_of_ble_eq_true rfl)

theorem PRIRescuing_reads (repID : UInt32) (rescuing : UInt8) :
    readPRI (PRIRescuing repID rescuing) = some [(repID, [⟨RepU8, 5, rescuing.toUInt64⟩])] :=
  readPRI_single (List.forall_mem_singleton.mpr (fits_u8 5 rescuing)) (Nat.le_of_ble_eq_true rfl)

end Message

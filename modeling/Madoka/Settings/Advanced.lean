import Madoka.Lib.Reader
import Madoka.Settings.RoomSettings

namespace Settings

open Lib

def CS_SHOP_COST_INTERVAL : Nat := 50

def ECO_EVENT_KEY : List (Nat × String) :=
  [(152, "win_round"), (153, "per_kill"), (154, "loss_round"), (155, "loss_streak2"),
    (156, "loss_streak3"), (157, "first_blood")]

def QUARANTINE : List Int :=
  [23, 37, 100, 537, 38, 607, 1006, 1202, 1401, 1601, 1602, 2102, 2401]

structure ShopRow where
  itemId : Int
  ammo : Int
  filter : Int
  limitation : Int
  bonus : Bool
  deriving DecidableEq, Repr

structure EcoRow where
  min : Int
  step : Int
  deriving DecidableEq, Repr

-- The rows of RoomCreate_CSShop.csv by index, the type column of ItemTable.csv, and the open rows
-- of RoomCreate_CSEco.csv: the first and the last are not in the repository.
structure Sheets where
  shop : Nat → Option ShopRow
  itemType : Int → Int
  eco : Nat → Option EcoRow

def IT_CONSUMABLE : Int := 1

def IT_HELMET : Int := 2

def IT_VEST : Int := 4

def IT_GRENADE : Int := 8

def ITEM_MUSHROOM : Int := 709

def ITEM_GLOO : Int := 1201

def resolveSlotKind (itemId ammo filter itemType : Int) : Option String :=
  if itemId ∈ QUARANTINE then none
  else if filter = 1 then
    if ammo = 202 then some "secondary"
    else if ammo = 201 ∨ ammo = 203 ∨ ammo = 204 ∨ ammo = 205 then some "primary"
    else if ammo = 0 then some "melee"
    else none
  else if filter = 2 then
    if itemType = IT_VEST then some "vest"
    else if itemType = IT_HELMET then some "helmet"
    else if itemType = IT_CONSUMABLE then some "consumable"
    else none
  else if filter = 4 then
    if itemId = ITEM_MUSHROOM then some "consumable"
    else if itemId = ITEM_GLOO then some "building"
    else if itemType = IT_GRENADE then some "grenade"
    else none
  else none

structure ShopEntry where
  itemId : Int
  price : Nat
  filter : Int
  limitation : Int
  bonus : Bool
  ammo : Int
  slotKind : String
  deriving DecidableEq, Repr

structure Overlay where
  roundCount : Nat
  perRoundBase : List Int
  shopItems : List ShopEntry
  events : Option (List (String × Int))
  dropped : List Int
  deriving DecidableEq, Repr

-- `o[key] = value` on an object.
def setKey (o : List (String × Int)) (key : String) (value : Int) : List (String × Int) :=
  if (o.lookup key).isSome then o.map fun f => if f.1 = key then (key, value) else f
  else o ++ [(key, value)]

def u8 : Reader Nat := do
  pure ((← Reader.bytes 1).headD 0)

-- readInt32LE.
def i32Of (b : List Nat) : Int :=
  Int.bmod (b.getD 0 0 + 256 * b.getD 1 0 + 65536 * b.getD 2 0 + 16777216 * b.getD 3 0 : Nat) 4294967296

def i32 : Reader Int := do
  pure (i32Of (← Reader.bytes 4))

variable (t : Sheets)

-- What the sheets make of a pair of the store section: the entry, or the number that is dropped.
def shopEntry (idx step : Nat) : ShopEntry ⊕ Int :=
  match t.shop idx with
  | none => .inr idx
  | some row =>
    match resolveSlotKind row.itemId row.ammo row.filter (t.itemType row.itemId) with
    | none => .inr row.itemId
    | some slotKind => .inl
      { itemId := row.itemId
        price := step * CS_SHOP_COST_INTERVAL
        filter := row.filter
        limitation := row.limitation
        bonus := row.bonus
        ammo := row.ammo
        slotKind }

def addStore (acc : List ShopEntry × List Int) (idx step : Nat) : List ShopEntry × List Int :=
  match shopEntry t idx step with
  | .inl entry => (acc.1 ++ [entry], acc.2)
  | .inr dropped => (acc.1, acc.2 ++ [dropped])

-- The event a pair of the eco section sets, and its coins.
def ecoEvent (evId step : Nat) : Option (String × Int) :=
  match ECO_EVENT_KEY.lookup evId, t.eco evId with
  | some name, some row => some (name, row.min + step * row.step)
  | _, _ => none

def addEvent (events : List (String × Int)) (evId step : Nat) : List (String × Int) :=
  match ecoEvent t evId step with
  | some (name, coins) => setKey events name coins
  | none => events

def readSections : Reader Overlay := do
  let storeCount ← u8
  let stores ← Reader.loop (fun acc => do
    let idx ← u8
    let step ← u8
    pure (addStore t acc idx step)) storeCount ([], [])
  let ecoCount ← u8
  let events ← Reader.loop (fun acc => do
    let evId ← u8
    let step ← u8
    pure (addEvent t acc evId step)) ecoCount []
  let roundCount ← u8
  let perRoundBase ← Reader.loop (fun acc => do
    pure (acc ++ [max 0 (← i32)])) roundCount []
  pure
    { roundCount
      perRoundBase
      shopItems := stores.1
      events := if events = [] then none else some events
      dropped := stores.2 }

def start : Cursor := ⟨0, []⟩

def decodeAdvanced (buf : List UInt8) : Option Overlay :=
  if buf.length < 3 then none else (readSections t buf start).1

-- The blob as the client packs it: three counted sections.
def byteAt (buf : List UInt8) (i : Nat) : Nat := Reader.byte buf i

def pairsAt (buf : List UInt8) (o n : Nat) : List (Nat × Nat) :=
  (List.range n).map fun i => (byteAt buf (o + 2 * i), byteAt buf (o + 2 * i + 1))

def stores (buf : List UInt8) : List (Nat × Nat) :=
  pairsAt buf 1 (byteAt buf 0)

def ecoOffset (buf : List UInt8) : Nat := 1 + 2 * byteAt buf 0

def ecos (buf : List UInt8) : List (Nat × Nat) :=
  pairsAt buf (ecoOffset buf + 1) (byteAt buf (ecoOffset buf))

def roundOffset (buf : List UInt8) : Nat := ecoOffset buf + 1 + 2 * byteAt buf (ecoOffset buf)

def coinAt (buf : List UInt8) (o : Nat) : Int :=
  i32Of [byteAt buf o, byteAt buf (o + 1), byteAt buf (o + 2), byteAt buf (o + 3)]

def rounds (buf : List UInt8) : List Int :=
  (List.range (byteAt buf (roundOffset buf))).map fun i => coinAt buf (roundOffset buf + 1 + 4 * i)

def blobLength (buf : List UInt8) : Nat := roundOffset buf + 1 + 4 * byteAt buf (roundOffset buf)

def eventsOf (buf : List UInt8) : List (String × Int) :=
  (ecos buf).foldl (fun acc p => addEvent t acc p.1 p.2) []

def overlayOf (buf : List UInt8) : Overlay where
  roundCount := byteAt buf (roundOffset buf)
  perRoundBase := (rounds buf).map (max 0)
  shopItems := (stores buf).filterMap fun p => (shopEntry t p.1 p.2).getLeft?
  events := if eventsOf t buf = [] then none else some (eventsOf t buf)
  dropped := (stores buf).filterMap fun p => (shopEntry t p.1 p.2).getRight?

variable {t} {buf : List UInt8} {adv : Overlay}

theorem safe_u8 : Reader.Safe u8 :=
  (Reader.safe_bytes 1).bind fun _ => Reader.safe_pure _

theorem safe_i32 : Reader.Safe i32 :=
  (Reader.safe_bytes 4).bind fun _ => Reader.safe_pure _

theorem safe_readSections : Reader.Safe (readSections t) :=
  safe_u8.bind fun _ =>
    (Reader.Safe.loop (fun _ => safe_u8.bind fun _ => safe_u8.bind fun _ => Reader.safe_pure _) _ _).bind
      fun _ => safe_u8.bind fun _ =>
        (Reader.Safe.loop (fun _ => safe_u8.bind fun _ => safe_u8.bind fun _ => Reader.safe_pure _) _ _).bind
          fun _ => safe_u8.bind fun _ =>
            (Reader.Safe.loop (fun _ => safe_i32.bind fun _ => Reader.safe_pure _) _ _).bind
              fun _ => Reader.safe_pure _

theorem takes_u8 : Reader.Takes buf u8 (fun _ => 1) fun o => byteAt buf o :=
  (Reader.takes_bytes 1).map

theorem takes_i32 : Reader.Takes buf i32 (fun _ => 4) fun o => coinAt buf o :=
  (Reader.takes_bytes 4).map

theorem takes_pair {α : Type} (g : α → Nat → Nat → α) (a : α) :
    Reader.Takes buf (do let x ← u8; let y ← u8; pure (g a x y)) (fun _ => 2)
      fun o => g a (byteAt buf o) (byteAt buf (o + 1)) :=
  takes_u8.bind fun x => takes_u8.bind fun y => Reader.takes_pure (g a x y)

theorem foldl_addStore (pairs : List (Nat × Nat)) (acc : List ShopEntry × List Int) :
    pairs.foldl (fun acc p => addStore t acc p.1 p.2) acc =
      (acc.1 ++ pairs.filterMap fun p => (shopEntry t p.1 p.2).getLeft?,
        acc.2 ++ pairs.filterMap fun p => (shopEntry t p.1 p.2).getRight?) := by
  induction pairs generalizing acc with
  | nil => simp
  | cons p pairs ih =>
    rw [List.foldl_cons, ih, addStore]
    cases h : shopEntry t p.1 p.2 with
    | inl entry => simp [h]
    | inr dropped => simp [h]

theorem foldl_pairsAt {α : Type} (g : α → Nat → Nat → α) (a : α) (o n : Nat) :
    (List.range n).foldl (fun b i => g b (byteAt buf (o + 2 * i)) (byteAt buf (o + 2 * i + 1))) a =
      (pairsAt buf o n).foldl (fun acc p => g acc p.1 p.2) a := by
  rw [pairsAt, List.foldl_map]

theorem foldl_snoc {α β : Type} (f : α → β) (l : List α) (acc : List β) :
    l.foldl (fun b x => b ++ [f x]) acc = acc ++ l.map f := by
  induction l generalizing acc with
  | nil => simp
  | cons x l ih => rw [List.foldl_cons, ih, List.map_cons, List.append_assoc, List.singleton_append]

theorem foldl_rounds (f : Nat → Int) (n : Nat) :
    (List.range n).foldl (fun b i => b ++ [max 0 (f i)]) [] = ((List.range n).map f).map (max 0) := by
  rw [foldl_snoc, List.nil_append, List.map_map]
  rfl

theorem decodeAdvanced_eq (t : Sheets) (buf : List UInt8) :
    decodeAdvanced t buf =
      if 3 ≤ buf.length ∧ blobLength buf ≤ buf.length then some (overlayOf t buf) else none := by
  have hread := (@takes_u8 buf).bind fun storeCount =>
    (Reader.Takes.loop (takes_pair (addStore t)) storeCount ([], [])).bind fun stores =>
      takes_u8.bind fun ecoCount =>
        (Reader.Takes.loop (takes_pair (addEvent t)) ecoCount []).bind fun events =>
          takes_u8.bind fun roundCount =>
            (Reader.Takes.loop (fun acc => takes_i32.map (g := fun v => acc ++ [max 0 v])) roundCount []).bind
              fun perRoundBase => Reader.takes_pure
                { roundCount
                  perRoundBase
                  shopItems := stores.1
                  events := if events = [] then none else some events
                  dropped := stores.2 : Overlay }
  obtain ⟨hsome, hnone⟩ := hread start (Nat.zero_le _)
  simp only [start, Nat.zero_add, foldl_pairsAt, foldl_addStore, foldl_rounds, List.nil_append] at hsome hnone
  unfold decodeAdvanced
  have hlength : blobLength buf = 1 + (2 * byteAt buf 0 + (1 + (2 * byteAt buf (1 + 2 * byteAt buf 0) +
      (1 + (4 * byteAt buf (1 + 2 * byteAt buf 0 + 1 + 2 * byteAt buf (1 + 2 * byteAt buf 0)) + 0))))) := by
    unfold blobLength roundOffset ecoOffset
    omega
  rw [← hlength] at hsome hnone
  split
  · rename_i hshort
    rw [if_neg fun h => Nat.not_le.mpr hshort h.1]
  · rename_i hlong
    rcases Nat.lt_or_ge buf.length (blobLength buf) with hlt | hge
    · rw [if_neg fun h => Nat.not_le.mpr hlt h.2]
      exact hnone hlt
    · rw [if_pos ⟨Nat.not_lt.mp hlong, hge⟩]
      obtain ⟨reads, hrun⟩ := hsome hge
      exact congrArg Prod.fst hrun

theorem decodeAdvanced_some (h : decodeAdvanced t buf = some adv) : adv = overlayOf t buf := by
  rw [decodeAdvanced_eq] at h
  split at h
  · exact (Option.some.inj h).symm
  · cases h

end Settings

import Madoka.MatchServer.Roster
import Madoka.Settings.Advanced

namespace Settings

open Lib MatchServer

-- What RoomStart puts into match:<id>:settings, before it is JSON.
structure Payload where
  flags : List (String × Bool)
  maxHP : Option Nat
  roomSetting : Nat
  roomSetting2 : Nat
  speedMul : Option Decimal
  jumpMul : Option Decimal
  shopItems : List ShopEntry
  events : Option (List (String × Int))
  roundCount : Option Nat
  economy : Option (List Int)
  deriving DecidableEq, Repr

def advancedOf (t : Sheets) (room : RoomRecord) : Option Overlay :=
  if room.isCsAdvanced ∧ room.csAdvancedB64 ≠ [] then decodeAdvanced t room.blob else none

def startPayload (t : Sheets) (room : RoomRecord) : Payload :=
  let s := decodeRoomSettings room
  let simpleEconomy := s.economyTable.map fun table => table.map Int.ofNat
  let base : Payload :=
    { flags := s.flags
      maxHP := s.maxHP
      roomSetting := s.roomSetting
      roomSetting2 := s.roomSetting2
      speedMul := s.speedMul
      jumpMul := s.jumpMul
      shopItems := []
      events := none
      roundCount := s.roundCount
      economy := simpleEconomy }
  match advancedOf t room with
  | none => base
  | some adv =>
    { base with
      shopItems := adv.shopItems
      events := adv.events
      roundCount := if adv.roundCount ≠ 0 then some adv.roundCount else s.roundCount
      economy := if adv.perRoundBase ≠ [] then some adv.perRoundBase else simpleEconomy }

def ShopEntry.toJson (e : ShopEntry) : Json :=
  .obj [("item_id", .int e.itemId), ("price", .int e.price), ("filter", .int e.filter),
    ("limitation", .int e.limitation), ("bonus", .bool e.bonus), ("ammo", .int e.ammo),
    ("slot_kind", .str (Utf16.text e.slotKind))]

-- `if (x) payload.k = x`: a number that is not 0, a list that is not empty.
def number (n : Nat) : Option Json :=
  if n = 0 then none else some (.int n)

def nonempty {α : Type} (l : List α) : Option (List α) :=
  if l = [] then none else some l

def Payload.fields (p : Payload) : List (String × Json) :=
  [("flags", .obj (p.flags.map fun f => (f.1, .bool f.2)))] ++
    (Json.opt "max_hp" (number (p.maxHP.getD 0)) id ++
    (Json.opt "room_setting" (number p.roomSetting) id ++
    (Json.opt "room_setting2" (number p.roomSetting2) id ++
    (Json.opt "speed_mul" p.speedMul Decimal.toJson ++
    (Json.opt "jump_mul" p.jumpMul Decimal.toJson ++
    (Json.opt "shop_items" (nonempty p.shopItems) (fun l => .arr (l.map ShopEntry.toJson)) ++
    (Json.opt "events" p.events (fun o => .obj (o.map fun f => (f.1, .int f.2))) ++
    (Json.opt "round_count" (number (p.roundCount.getD 0)) id ++
    Json.opt "economy" p.economy (fun l => .arr (l.map Json.int))))))))))

def Payload.toJson (p : Payload) : Json := .obj p.fields

-- json.Unmarshal into wireSettings and what it holds.
def uint32 : Json → Option Nat := Json.asNat 4294967296

def byte : Json → Option Nat := Json.asNat 256

def wireShopItem : Json → Option ShopItem
  | .null => some ⟨0, 0, 0, 0, false, "", 0⟩
  | .obj o => do
    let itemID ← Json.field o "item_id" uint32 0
    let price ← Json.field o "price" uint32 0
    let filter ← Json.field o "filter" byte 0
    let limitation ← Json.field o "limitation" byte 0
    let bonus ← Json.field o "bonus" Json.asBool false
    let ammo ← Json.field o "ammo" uint32 0
    let slotKind ← Json.field o "slot_kind" Json.asString ""
    some { itemID, price, filter, limitation, bonus, slotKind, ammo }
  | _ => none

def wireEvents (o : List (String × Json)) : Option CsEvents := do
  let winRound ← Json.field o "win_round" uint32 0
  let perKill ← Json.field o "per_kill" uint32 0
  let lossRound ← Json.field o "loss_round" uint32 0
  let lossStreak2 ← Json.field o "loss_streak2" uint32 0
  let lossStreak3 ← Json.field o "loss_streak3" uint32 0
  let firstBlood ← Json.field o "first_blood" uint32 0
  some { winRound, perKill, lossRound, lossStreak2, lossStreak3, firstBlood }

def wireSettings : Json → Option WireSettings
  | .obj o => do
    let roundCount ← Json.field o "round_count" (Json.asFin 256) 0
    let maxHP ← Json.field o "max_hp" (Json.asFin 65536) 0
    let economy ← Json.field o "economy" (Json.asList uint32) []
    let flags ← Json.field o "flags" (Json.asMap Json.asBool) []
    let roomSetting ← Json.field o "room_setting" uint32 0
    let roomSetting2 ← Json.field o "room_setting2" uint32 0
    let speedMul ← Json.field o "speed_mul" Json.asFloat 0
    let jumpMul ← Json.field o "jump_mul" Json.asFloat 0
    let shopItems ← Json.field o "shop_items" (Json.asList wireShopItem) []
    let events ← Json.field o "events" (Json.asStruct wireEvents) none
    some { roundCount, maxHP, economy, flags, roomSetting, roomSetting2, speedMul, jumpMul, shopItems, events }
  | _ => none

-- The settings of the match of a room: what the match server makes of the JSON.
def handedOver (value : Json) : MatchSettings :=
  match wireSettings value with
  | none => { defaultMatchSettings with isCustom := true }
  | some wire => overlay wire { defaultMatchSettings with isCustom := true }

def inUint32 (n : Int) : Prop := 0 ≤ n ∧ n.toNat < 4294967296

instance (n : Int) : Decidable (inUint32 n) := inferInstanceAs (Decidable (_ ∧ _))

def inByte (n : Int) : Prop := 0 ≤ n ∧ n.toNat < 256

instance (n : Int) : Decidable (inByte n) := inferInstanceAs (Decidable (_ ∧ _))

def ShopEntry.Fits (e : ShopEntry) : Prop :=
  inUint32 e.itemId ∧ inUint32 e.price ∧ inByte e.filter ∧ inByte e.limitation ∧ inUint32 e.ammo

instance (e : ShopEntry) : Decidable e.Fits := inferInstanceAs (Decidable (_ ∧ _))

def ShopEntry.item (e : ShopEntry) : ShopItem where
  itemID := e.itemId.toNat
  price := e.price
  filter := e.filter.toNat
  limitation := e.limitation.toNat
  bonus := e.bonus
  slotKind := e.slotKind
  ammo := e.ammo.toNat

theorem check_bind {α β : Type} {P : Prop} [Decidable P] {a : α} {f : α → Option β} :
    (if P then some a else none) >>= f = if P then f a else none := by
  split <;> rfl

theorem some_bind {α β : Type} {a : α} {f : α → Option β} : (some a >>= f) = f a := rfl

theorem uint32_int (n : Int) : uint32 (.int n) = if inUint32 n then some n.toNat else none := rfl

theorem byte_int (n : Int) : byte (.int n) = if inByte n then some n.toNat else none := rfl

theorem wireShopItem_toJson (e : ShopEntry) : wireShopItem e.toJson = if e.Fits then some e.item else none := by
  simp only [wireShopItem, ShopEntry.toJson, Json.field, List.lookup_cons, String.reduceBEq, uint32_int, byte_int,
    Json.asBool, Json.asString, Utf16.string_text, check_bind, some_bind, ← ite_and, Int.toNat_natCast]
  rfl

def coins (o : List (String × Int)) (name : String) : Int := (o.lookup name).getD 0

def EventsFit (o : List (String × Int)) : Prop :=
  inUint32 (coins o "win_round") ∧ inUint32 (coins o "per_kill") ∧ inUint32 (coins o "loss_round") ∧
    inUint32 (coins o "loss_streak2") ∧ inUint32 (coins o "loss_streak3") ∧ inUint32 (coins o "first_blood")

instance (o : List (String × Int)) : Decidable (EventsFit o) := inferInstanceAs (Decidable (_ ∧ _))

def eventsIn (o : List (String × Int)) : CsEvents where
  winRound := (coins o "win_round").toNat
  perKill := (coins o "per_kill").toNat
  lossRound := (coins o "loss_round").toNat
  lossStreak2 := (coins o "loss_streak2").toNat
  lossStreak3 := (coins o "loss_streak3").toNat
  firstBlood := (coins o "first_blood").toNat

theorem field_coins (o : List (String × Int)) (name : String) :
    Json.field (o.map fun f => (f.1, .int f.2)) name uint32 0 =
      if inUint32 (coins o name) then some (coins o name).toNat else none := by
  have hzero : inUint32 0 := ⟨Int.le_refl 0, by omega⟩
  unfold Json.field coins
  rw [Json.lookup_map Json.int]
  cases o.lookup name with
  | none => rw [Option.map_none, Option.getD_none, if_pos hzero, Int.toNat_zero]
  | some n => rw [Option.map_some, Option.getD_some]; exact uint32_int n

theorem wireEvents_toJson (o : List (String × Int)) :
    wireEvents (o.map fun f => (f.1, .int f.2)) = if EventsFit o then some (eventsIn o) else none := by
  simp only [wireEvents, field_coins, check_bind, ← ite_and]
  rfl

def Payload.Fits (p : Payload) : Prop :=
  p.roundCount.getD 0 < 256 ∧ p.maxHP.getD 0 < 65536 ∧ (∀ c ∈ p.economy.getD [], inUint32 c) ∧
    p.roomSetting < 4294967296 ∧ p.roomSetting2 < 4294967296 ∧ (∀ e ∈ p.shopItems, e.Fits) ∧
    ∀ o ∈ p.events, EventsFit o

instance (p : Payload) : Decidable p.Fits := inferInstanceAs (Decidable (_ ∧ _))

def Payload.wire (p : Payload) : WireSettings where
  roundCount := Fin.ofNat 256 (p.roundCount.getD 0)
  maxHP := Fin.ofNat 65536 (p.maxHP.getD 0)
  economy := (p.economy.getD []).map Int.toNat
  flags := p.flags
  roomSetting := p.roomSetting
  roomSetting2 := p.roomSetting2
  speedMul := (p.speedMul.map Decimal.toFloat).getD 0
  jumpMul := (p.jumpMul.map Decimal.toFloat).getD 0
  shopItems := p.shopItems.map ShopEntry.item
  events := p.events.map eventsIn

section

variable {p : Payload}

theorem getD_nonempty {α : Type} (l : List α) : (nonempty l).getD [] = l := by
  unfold nonempty
  split
  · rename_i h
    rw [h, Option.getD_none]
  · rfl

theorem field_uint32 {o : List (String × Json)} {key : String} {n : Nat} (h : o.lookup key = number n) :
    Json.field o key uint32 0 = if n < 4294967296 then some n else none :=
  Json.field_asNat h (by decide)

theorem field_decimal {o : List (String × Json)} {key : String} {d : Option Decimal}
    (h : o.lookup key = d.map Decimal.toJson) :
    Json.field o key Json.asFloat 0 = some ((d.map Decimal.toFloat).getD 0) := by
  cases d with
  | none => exact Json.field_of_absent h
  | some d =>
    rw [Json.field_of_lookup h]
    simp [Decimal.toJson, Json.asFloat, Decimal.toFloat]

theorem field_events {o : List (String × Json)} {key : String} {events : Option (List (String × Int))}
    (h : o.lookup key = events.map fun e => .obj (e.map fun f => (f.1, .int f.2))) :
    Json.field o key (Json.asStruct wireEvents) none =
      if ∀ e ∈ events, EventsFit e then some (events.map eventsIn) else none := by
  cases events with
  | none => simp [Json.field_of_absent h]
  | some e =>
    rw [Json.field_of_lookup h, Json.asStruct, wireEvents_toJson]
    by_cases he : EventsFit e
    · simp [he]
    · simp [he]

theorem wireSettings_toJson (p : Payload) :
    wireSettings p.toJson = if p.Fits then some p.wire else none := by
  have hround : p.fields.lookup "round_count" = number (p.roundCount.getD 0) := by
    simp [Payload.fields, List.lookup_append, Json.lookup_opt, List.lookup_cons]
  have hhp : p.fields.lookup "max_hp" = number (p.maxHP.getD 0) := by
    simp [Payload.fields, List.lookup_append, Json.lookup_opt, List.lookup_cons]
  have heconomy : p.fields.lookup "economy" = p.economy.map fun l => .arr (l.map Json.int) := by
    simp [Payload.fields, List.lookup_append, Json.lookup_opt, List.lookup_cons]
  have hflags : p.fields.lookup "flags" = some (.obj (p.flags.map fun f => (f.1, .bool f.2))) := by
    simp [Payload.fields]
  have hroom : p.fields.lookup "room_setting" = number p.roomSetting := by
    simp [Payload.fields, List.lookup_append, Json.lookup_opt, List.lookup_cons]
  have hroom2 : p.fields.lookup "room_setting2" = number p.roomSetting2 := by
    simp [Payload.fields, List.lookup_append, Json.lookup_opt, List.lookup_cons]
  have hspeed : p.fields.lookup "speed_mul" = p.speedMul.map Decimal.toJson := by
    simp [Payload.fields, List.lookup_append, Json.lookup_opt, List.lookup_cons]
  have hjump : p.fields.lookup "jump_mul" = p.jumpMul.map Decimal.toJson := by
    simp [Payload.fields, List.lookup_append, Json.lookup_opt, List.lookup_cons]
  have hshop : p.fields.lookup "shop_items" =
      (nonempty p.shopItems).map fun l => .arr (l.map ShopEntry.toJson) := by
    simp [Payload.fields, List.lookup_append, Json.lookup_opt, List.lookup_cons]
  have hevents : p.fields.lookup "events" =
      p.events.map fun o => .obj (o.map fun f => (f.1, .int f.2)) := by
    simp [Payload.fields, List.lookup_append, Json.lookup_opt, List.lookup_cons]
  have hflags' : Json.field p.fields "flags" (Json.asMap Json.asBool) [] = some p.flags := by
    rw [Json.field_of_lookup hflags, Json.asMap_bool]
  simp only [wireSettings, Payload.toJson, Json.field_asFin hround, Json.field_asFin hhp,
    Json.field_asList uint32_int heconomy, hflags', field_uint32 hroom,
    field_uint32 hroom2, field_decimal hspeed, field_decimal hjump,
    Json.field_asList wireShopItem_toJson hshop, field_events hevents, getD_nonempty, check_bind, some_bind,
    ← ite_and]
  rfl

end

theorem loadMatchSettings_handedOver {w : World} {mid : Nat} {value : Json} (hbus : w.cfg.bus = true)
    (hmid : mid ≠ 0) (hkey : w.settings mid = some (wireSettings value)) :
    loadMatchSettings w mid = handedOver value := by
  unfold loadMatchSettings handedOver
  rw [if_neg (by simp [hbus, hmid]), hkey]
  cases wireSettings value with
  | none => rfl
  | some wire => rfl

end Settings

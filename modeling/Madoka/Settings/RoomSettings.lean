import Madoka.Lib.Json
import Madoka.Lib.Base64

namespace Settings

open Lib

-- Multi-bit fields, by name, start bit and width, and single-bit flags, by name and mask.
def IDX : List (String × Nat × Nat) :=
  [("playerHP", 8, 3), ("playerEP", 11, 3), ("playerSpeed", 14, 3), ("dropList", 17, 4),
    ("playerJump", 21, 3), ("roundNum", 25, 2), ("initCoin", 27, 2)]

def IDX2 : List (String × Nat × Nat) :=
  [("fightClubRound", 6, 2), ("revive", 8, 3)]

def FLAG : List (String × BitVec 32) :=
  [("hideKillInfo", 0x1), ("unlimitedAmmo", 0x2), ("noFallingDamage", 0x4), ("noLoadout", 0x8),
    ("noAirdrop", 0x10), ("noSkill", 0x20), ("noVehicle", 0x40), ("accTotalStats", 0x1000000),
    ("noPowerGun", 0x20000000), ("hideEnemyCloth", 0x40000000)]

def FLAG2 : List (String × BitVec 32) :=
  [("noUav", 0x1), ("noBomb", 0x2), ("replay", 0x4), ("noZeppelin", 0x8), ("noHud", 0x10),
    ("friendlyFire", 0x20), ("inGameChat", 0x800), ("shopFlow", 0x1000), ("useRandomMap", 0x2000),
    ("noAuxAim", 0x4000)]

-- A number of the tables, as it is written there.
structure Decimal where
  mantissa : Nat
  scale : Nat
  deriving DecidableEq, Repr

def Decimal.toJson (d : Decimal) : Json := .num d.mantissa d.scale

def Decimal.toRat (d : Decimal) : Rat := d.mantissa / 10 ^ d.scale

def Decimal.toFloat (d : Decimal) : Float := OfScientific.ofScientific d.mantissa true d.scale

-- The values of the packed indices; index 0 is unset.
namespace TABLES

def roundNum : List (Nat × Nat) := [(1, 7), (2, 13), (3, 11), (4, 5), (5, 3)]

def initCoin : List (Nat × List Nat) :=
  [(1, [500, 900, 1100, 1700, 2100, 2400, 3000]), (2, [1500, 1700, 1900, 2100, 2300, 2500, 2700])]

def playerHP : List (Nat × Nat) := [(1, 200), (2, 500), (3, 50), (4, 1)]

def playerEP : List (Nat × Nat) := [(1, 0), (2, 50), (3, 200)]

def playerSpeed : List (Nat × Decimal) := [(1, ⟨1, 0⟩), (2, ⟨5, 1⟩), (3, ⟨125, 2⟩), (4, ⟨2, 0⟩)]

def playerJump : List (Nat × Decimal) := [(1, ⟨1, 0⟩), (2, ⟨2, 0⟩), (3, ⟨4, 0⟩)]

def revive : List (Nat × String) := [(1, "1;1"), (2, "1;0"), (3, "0;1"), (4, "0;0")]

end TABLES

def idxOf (v : BitVec 32) (start width : Nat) : Nat :=
  ((v >>> start) &&& ((1 <<< width) - 1)).toNat

def hasFlag (v mask : BitVec 32) : Bool :=
  v &&& mask != 0

def resolve {α : Type} (table : List (Nat × α)) (v : Nat) : Option α :=
  if v = 0 then none else table.lookup v

-- What a room record holds of the settings; the advanced blob is a base64 text.
structure RoomRecord where
  roomSetting : BitVec 32
  roomSetting2 : BitVec 32
  isCsAdvanced : Bool
  csAdvancedB64 : List UInt8
  deriving DecidableEq, Repr

def RoomRecord.blob (room : RoomRecord) : List UInt8 :=
  Base64.decodeLenient Base64.standard room.csAdvancedB64

structure RoomSettings where
  flags : List (String × Bool)
  indices : List (String × Nat)
  roomSetting : Nat
  roomSetting2 : Nat
  roundCount : Option Nat
  maxHP : Option Nat
  maxEP : Option Nat
  speedMul : Option Decimal
  jumpMul : Option Decimal
  economyTable : Option (List Nat)
  revive : Option String
  isCsAdvanced : Bool
  deriving DecidableEq, Repr

def decodeIndices (rs rs2 : BitVec 32) : List (String × Nat) :=
  (IDX.map fun f => (f.1, idxOf rs f.2.1 f.2.2)) ++ IDX2.map fun f => (f.1, idxOf rs2 f.2.1 f.2.2)

def decodeFlags (rs rs2 : BitVec 32) : List (String × Bool) :=
  (FLAG.map fun f => (f.1, hasFlag rs f.2)) ++ FLAG2.map fun f => (f.1, hasFlag rs2 f.2)

def decodeRoomSettings (room : RoomRecord) : RoomSettings :=
  let indices := decodeIndices room.roomSetting room.roomSetting2
  let index := fun name => (indices.lookup name).getD 0
  { flags := decodeFlags room.roomSetting room.roomSetting2
    indices
    roomSetting := room.roomSetting.toNat
    roomSetting2 := room.roomSetting2.toNat
    roundCount := resolve TABLES.roundNum (index "roundNum")
    maxHP := resolve TABLES.playerHP (index "playerHP")
    maxEP := resolve TABLES.playerEP (index "playerEP")
    speedMul := resolve TABLES.playerSpeed (index "playerSpeed")
    jumpMul := resolve TABLES.playerJump (index "playerJump")
    economyTable := resolve TABLES.initCoin (index "initCoin")
    revive := resolve TABLES.revive (index "revive")
    isCsAdvanced := room.isCsAdvanced }

variable {α β : Type} {table : List (Nat × α)} {v : Nat} {x : α}

theorem mem_of_lookup {l : List (α × β)} [BEq α] [LawfulBEq α] {k : α} {y : β} (h : l.lookup k = some y) :
    (k, y) ∈ l := by
  obtain ⟨l₁, l₂, rfl, -⟩ := List.lookup_eq_some_iff.mp h
  exact List.mem_append_right l₁ List.mem_cons_self

theorem resolve_mem (h : resolve table v = some x) : x ∈ table.map Prod.snd := by
  unfold resolve at h
  split at h
  · cases h
  · exact List.mem_map_of_mem (mem_of_lookup h)

end Settings

import Madoka.MatchServer.Wire

namespace MatchServer

def slotPrimary1 : Nat := 0

def slotPrimary2 : Nat := 1

def slotSecondary : Nat := 2

def slotExplosive : Nat := 3

def slotMelee : Nat := 4

def slotHelmet : Nat := 6

def slotVest : Nat := 8

def slotBuilding : Nat := 13

def slotNone : Nat := 0xFF

def medkitData : Nat := 102

def glooDataID : Nat := 1201

def itemMushroom : Nat := 709

def mushroomsPerRound : Nat := 2

def epPerMushroom : Nat := 100

def shopFilterThrowable : Nat := 4

def weaponAmmo : Nat → Option Nat
  | 3 | 10 | 25 | 9 => some 202
  | 8 | 7 | 32 | 15 | 88 | 43 => some 205
  | 33 | 24 | 6 | 12 => some 201
  | 21 | 4 => some 203
  | 5 | 41 => some 204
  | _ => none

def armorSlot : Nat → Option Nat
  | 302 | 303 | 309 => some slotVest
  | 305 | 306 | 310 => some slotHelmet
  | _ => none

def isBuilding (data : Nat) : Bool := data == 801 || data == 1201

def equipMaxDur : Nat → Nat
  | 301 | 304 => 120
  | 302 | 305 => 220
  | 303 | 306 => 300
  | 309 | 310 => 400
  | _ => 0

def armorReduction : Nat → Float
  | 301 => 0.25
  | 302 => 0.35
  | 303 => 0.45
  | 309 => 0.55
  | 304 => 0.30
  | 305 => 0.40
  | 306 => 0.50
  | 310 => 0.55
  | _ => 0

-- The conversion to uint16 keeps the low 16 bits of the integer part.
def wearDown (dur netDmg : Nat) (r : Float) : Nat :=
  let r := if r ≤ 0 ∨ 1 ≤ r then 0.3 else r
  let absorbed := (netDmg.toFloat * r / (1 - r)).toUInt64.toNat % 65536
  let absorbed := if absorbed < 1 then 1 else absorbed
  if dur ≤ absorbed then 0 else dur - absorbed

structure CsItemPlacement where
  slot : Nat
  ammo : Nat
  isWeapon : Bool
  isPrimary : Bool
  isArmor : Bool
  deriving DecidableEq, Repr

def placeBySlotKind (item : ShopItem) : CsItemPlacement :=
  if item.slotKind = "secondary" then ⟨slotSecondary, item.ammo, true, false, false⟩
  else if item.slotKind = "primary" then ⟨slotNone, item.ammo, true, true, false⟩
  else if item.slotKind = "melee" then ⟨slotMelee, 0, true, false, false⟩
  else if item.slotKind = "vest" then ⟨slotVest, 0, false, false, true⟩
  else if item.slotKind = "helmet" then ⟨slotHelmet, 0, false, false, true⟩
  else if item.slotKind = "grenade" then ⟨slotExplosive, 0, false, false, false⟩
  else if item.slotKind = "building" then ⟨slotBuilding, 0, false, false, false⟩
  else ⟨slotNone, 0, false, false, false⟩

def placeItem (item : ShopItem) : CsItemPlacement :=
  if item.slotKind ≠ "" then placeBySlotKind item
  else
    match weaponAmmo item.itemID with
    | some ammo =>
      if ammo = 202 then ⟨slotSecondary, ammo, true, false, false⟩
      else ⟨slotNone, ammo, true, true, false⟩
    | none =>
      match armorSlot item.itemID with
      | some slot => ⟨slot, 0, false, false, true⟩
      | none =>
        if isBuilding item.itemID then ⟨slotBuilding, 0, false, false, false⟩
        else if item.filter = shopFilterThrowable ∧ item.itemID ≠ itemMushroom then
          ⟨slotExplosive, 0, false, false, false⟩
        else ⟨slotNone, 0, false, false, false⟩

def weaponClass (data : Nat) : Option Bool :=
  (weaponAmmo data).map fun ammo => decide (ammo ≠ 202)

def ammoReserveTotal (ammo : Nat) : Nat :=
  if ammo = 203 ∨ ammo = 204 then 60 else 120

def isAmmoData (data : Nat) : Bool := decide (201 ≤ data ∧ data ≤ 205)

def isActiveWeaponSlot (slot : Nat) : Bool :=
  slot == slotPrimary1 || slot == slotPrimary2 || slot == slotSecondary ||
    slot == slotExplosive || slot == slotMelee

namespace Kit

variable (k : Kit)

def weapon (slot : Nat) : Option CsWeapon :=
  k.weapons.bind fun ws => ws.lookup slot

def withUID : Kit :=
  { k with uidCounter := (k.uidCounter + 1) % 2 ^ 32 }

-- The unique that nextUID returns; `withUID` is the kit after it.
def nextUID : Nat := (k.uidCounter + 1) % 2 ^ 32

def trackItem (it : InvItem) : Kit :=
  { k with clientUIDs := k.clientUIDs.insert it.unique it }

def untrack (unique : Nat) : Kit :=
  { k with clientUIDs := k.clientUIDs.erase unique }

def trackedWhere (order : List Nat) (p : Nat → InvItem → Bool) : Option (Nat × InvItem) :=
  (visit order k.clientUIDs.keys).findSome? fun u =>
    (k.clientUIDs.lookup u).bind fun it => if p u it then some (u, it) else none

def trackedByData (order : List Nat) (data skip : Nat) : Option (Nat × InvItem) :=
  k.trackedWhere order fun u it => decide (u ≠ skip) && it.data == data

def setEquip (slot data unique : Nat) : Kit :=
  if k.equipment.any fun e => e.slot == slot then
    { k with equipment := k.equipment.replaceF fun e =>
        if e.slot = slot then some ⟨slot, data, unique⟩ else none }
  else { k with equipment := k.equipment ++ [⟨slot, data, unique⟩] }

def clearEquip (slot : Nat) : Kit :=
  { k with equipment := k.equipment.filter fun e => decide (e.slot ≠ slot) }

def equipSlotOf (unique : Nat) : Option Equipment :=
  k.equipment.find? fun e => e.unique == unique

def equipAt (slot : Nat) : Option Equipment :=
  (k.equipment.find? fun e => e.slot == slot).filter fun e => !(e.unique == 0 && e.data == 0)

def heldWeaponData : Nat :=
  ((k.equipment.find? fun e => e.unique == k.itemOnHand).map fun e => e.data).getD 0

def slotRuntime (slot : Nat) : Nat :=
  if slot = slotVest then k.vestDur else if slot = slotHelmet then k.helmetDur else 0

def equipSnapshot : GoMap Nat :=
  k.equipment.foldl (fun snap e => snap.insert e.slot e.unique) ∅

def isGloo (unique : Nat) : Bool :=
  match k.clientUIDs.lookup unique with
  | some it => it.data == glooDataID
  | none => false

def isWeaponUID (unique : Nat) : Bool :=
  unique != 0 && (k.weapons.getD ∅).entries.any fun e => e.2.unique == unique

def bestWeaponUID : Nat :=
  ([slotPrimary1, slotPrimary2, slotSecondary].findSome? fun slot =>
    (k.weapon slot).bind fun wp => if wp.unique ≠ 0 then some wp.unique else none).getD 0

def glooCount (order : List Nat) : Nat × Nat :=
  let equipped := k.equipment.findSome? fun e =>
    if e.slot = slotBuilding then
      match k.clientUIDs.lookup e.unique with
      | some it => if it.data = glooDataID then some (e.unique, it.count) else none
      | none => none
    else none
  match equipped with
  | some found => found
  | none =>
    match k.trackedWhere order fun _ it => it.data == glooDataID with
    | some (u, it) => (u, it.count)
    | none => (0, 0)

def pickPrimarySlot : Nat :=
  match k.weapon slotPrimary1, k.weapon slotPrimary2 with
  | none, _ => slotPrimary1
  | some _, none => slotPrimary2
  | some w1, some w2 =>
    if w1.unique = k.itemOnHand then slotPrimary1
    else if w2.unique = k.itemOnHand then slotPrimary2
    else slotPrimary1

def pickupWeaponSlot (isPrimary : Bool) : Nat :=
  if isPrimary then k.pickPrimarySlot else slotSecondary

def findLoadoutWeapon (order : List Nat) (unique : Nat) : Option Nat :=
  (visit order (k.weapons.getD ∅).keys).find? fun slot =>
    match k.weapon slot with
    | some wp => wp.unique == unique
    | none => false

def eraseWeapon (slot : Nat) : Kit :=
  { k with weapons := k.weapons.map fun ws => ws.erase slot }

-- none: the map is nil and the assignment panics.
def putWeapon (slot : Nat) (wp : CsWeapon) : Option Kit :=
  k.weapons.map fun ws => { k with weapons := some (ws.insert slot wp) }

def swapWeaponSlots (a b : Nat) : Kit :=
  let wa := k.weapon a
  let wb := k.weapon b
  let k :=
    match wb with
    | some wp => (k.putWeapon a { wp with slot := a }).getD k
    | none => k.eraseWeapon a
  match wa with
  | some wp => (k.putWeapon b { wp with slot := b }).getD k
  | none => k.eraseWeapon b

def moveWeaponSlot (src dst : Nat) : Kit :=
  if src = slotNone then k
  else
    match k.weapon src with
    | some wp =>
      let k := k.eraseWeapon src
      (k.putWeapon dst { wp with slot := dst }).getD k
    | none => k

def giveAmmoStacks (ammo : Nat) : InvItem × Kit :=
  let it : InvItem := ⟨k.nextUID, ammo, ammoReserveTotal ammo, 0⟩
  (it, k.withUID.trackItem it)

-- buildWeaponAttachments: the attachment items of a weapon, under fresh uniques.
def attachItems (w : World) (unique data : Nat) : List InvItem × Kit :=
  let (items, counter) := w.weaponAttachments k.uidCounter unique data
  (items, { k with uidCounter := counter })

-- removeTrackedItem before its cmd 327.
def removeTracked (order : List Nat) (unique : Nat) : Kit :=
  let k :=
    match k.findLoadoutWeapon order unique with
    | some slot => (k.eraseWeapon slot).clearEquip slot
    | none =>
      match k.equipSlotOf unique with
      | some e => k.clearEquip e.slot
      | none => k
  let k := k.untrack unique
  if k.itemOnHand = unique then { k with itemOnHand := 0 } else k

-- removeLoadoutWeapon before its cmd 327.
def removeWeapon (slot : Nat) (wp : CsWeapon) : Kit :=
  let k := ((k.eraseWeapon slot).clearEquip slot).untrack wp.unique
  if k.itemOnHand = wp.unique then { k with itemOnHand := 0 } else k

def equipArmor (data slot : Nat) : Kit :=
  if slot = slotVest then { k with vestData := data, vestDur := equipMaxDur data }
  else if slot = slotHelmet then { k with helmetData := data, helmetDur := equipMaxDur data }
  else k

def clearArmor : Kit :=
  { k with vestData := 0, vestDur := 0, helmetData := 0, helmetDur := 0 }

def wearHelmet (netDmg : Nat) : Kit :=
  let dur := wearDown k.helmetDur netDmg (armorReduction k.helmetData)
  { k with helmetDur := dur, helmetData := if dur = 0 then 0 else k.helmetData }

def wearVest (netDmg : Nat) : Kit :=
  let dur := wearDown k.vestDur netDmg (armorReduction k.vestData)
  { k with vestDur := dur, vestData := if dur = 0 then 0 else k.vestData }

def grantMushroom (now : Int) : Kit :=
  let ep := (k.ep.val + epPerMushroom) % 65536
  { k with
    mushrooms := k.mushrooms + 1
    ep := ⟨min ep maxEP, Nat.lt_succ_of_le (Nat.min_le_right _ _)⟩
    epLast := now }

def resetEP : Kit :=
  { k with ep := 0, mushrooms := 0 }

def weaponLoot (w : World) (slots : List Nat) (wp : CsWeapon) : InvItem :=
  ⟨wp.unique, wp.data, 1, w.loadedMagFor wp.data (w.skinForWeapon wp.data slots)⟩

end Kit

end MatchServer

import Madoka.MatchServer.Footprint
import Madoka.MatchServer.Kit

namespace MatchServer

open Lib

def startingMoney : Nat := 500

def csRoundBaseCoins : List Nat := [500, 900, 1100, 1700, 2100, 2400, 3000]

def csStartingCoins (table : List Nat) : Nat :=
  match table with
  | [] => startingMoney
  | coins :: _ => coins

def runtimeContainerBase : Nat := 40000

-- 1.5 m, squared.
def mergeDist2 : Int := 2250000

def dist2 (a b : Vec3) : Int :=
  (a.x - b.x) * (a.x - b.x) + (a.y - b.y) * (a.y - b.y) + (a.z - b.z) * (a.z - b.z)

def uspData : Nat := 3

def pistolAmmo : Nat := 202

def purchaseOK : Nat := 0

def purchaseNoMoney : Nat := 5

structure Purchased where
  inv : List InvItem
  attach : List InvItem
  outgoing : List InvItem

namespace Kit

variable (w : World) (order : List Nat) (slots : List Nat) (k : Kit)

-- A weapon enters the loadout; none: the weapon map is nil and the assignment panics.
def addWeapon (item : ShopItem) (qty slot ammo : Nat) : Kit × Option Purchased :=
  let uid := k.nextUID
  let mag := w.loadedMagFor item.itemID (w.skinForWeapon item.itemID slots)
  let k := k.withUID.trackItem ⟨uid, item.itemID, 1, mag⟩
  let (ammoInv, k) :=
    if ammo ≠ 0 then
      let (it, k) := k.giveAmmoStacks ammo
      ([it], k)
    else ([], k)
  let (attach, k) := k.attachItems w uid item.itemID
  let (outgoing, k) :=
    match k.weapon slot with
    | some old => ([weaponLoot w slots old], k.untrack old.unique)
    | none => ([], k)
  let k := { k with itemOnHand := uid }
  match k.putWeapon slot ⟨slot, item.itemID, uid, ammo⟩ with
  | some k =>
    let bought : InvItem := ⟨uid, item.itemID, qty, mag⟩
    (k.setEquip slot item.itemID uid, some (Purchased.mk (bought :: ammoInv) attach outgoing))
  | none => (k, none)

def addPurchasedItem (item : ShopItem) (qty : Nat) : Kit × Option Purchased :=
  let place := placeItem item
  if place.isWeapon then
    k.addWeapon w slots item qty (if place.isPrimary then k.pickPrimarySlot else place.slot) place.ammo
  else
    let uid := k.nextUID
    let k := k.withUID
    let (it, k) :=
      match k.trackedByData order item.itemID 0 with
      | some (u, existing) =>
        if place.isArmor then
          let it : InvItem := ⟨uid, item.itemID, qty, equipMaxDur item.itemID⟩
          (it, k.trackItem it)
        else
          let existing := { existing with count := (existing.count + qty) % 2 ^ 32 }
          (⟨u, item.itemID, existing.count, existing.runtime⟩,
            { k with clientUIDs := k.clientUIDs.insert u existing })
      | none =>
        let it : InvItem :=
          ⟨uid, item.itemID, qty, if place.isArmor then equipMaxDur item.itemID else 0⟩
        (it, k.trackItem it)
    let k := if place.slot ≠ slotNone then k.setEquip place.slot item.itemID it.unique else k
    (k, some (Purchased.mk [it] [] []))

-- The slot and the hand that held the stack `u` hold the stack it was folded into.
def repoint (old : Kit) (u : Nat) (it : InvItem) (k : Kit) : Kit :=
  let k :=
    match old.equipSlotOf u with
    | some e => k.setEquip e.slot it.data it.unique
    | none => k
  if old.itemOnHand = u then { k with itemOnHand := it.unique } else k

-- The base loadout over a wiped kit, with the items its cmd 174 lists.
def baseLoadout (noLoadout infiniteGloo : Bool) : Kit × List InvItem × List InvItem :=
  let usp := k.nextUID
  let k := k.withUID
  let medkit := k.nextUID
  let k := k.withUID
  let uspMag := w.loadedMagFor uspData (w.skinForWeapon uspData slots)
  let kit : InvItem := ⟨medkit, medkitData, 2, 2⟩
  let k := ({ k with
    equipment := [⟨slotMelee, 0, 0⟩]
    weapons := some ∅
    clientUIDs := ∅
    itemOnHand := 0 }.trackItem kit).clearArmor
  let (k, inv, attach) :=
    if noLoadout then (k, [kit], [])
    else
      let gun : InvItem := ⟨usp, uspData, 1, uspMag⟩
      let k : Kit := { k.trackItem gun with
        equipment := k.equipment ++ [⟨slotSecondary, uspData, usp⟩]
        weapons := (k.putWeapon slotSecondary ⟨slotSecondary, uspData, usp, pistolAmmo⟩).bind
          fun k => k.weapons
        itemOnHand := usp }
      let (attach, k) := k.attachItems w usp uspData
      let (reserve, k) := k.giveAmmoStacks pistolAmmo
      (k, [kit, gun, reserve], attach)
  if infiniteGloo then
    let gloo : InvItem := ⟨k.nextUID, glooDataID, 5, 0⟩
    let k := k.withUID.trackItem gloo
    ({ k with equipment := k.equipment ++ [⟨slotBuilding, glooDataID, gloo.unique⟩] },
      inv ++ [gloo], attach)
  else (k, inv, attach)

-- reissueLoadout: full magazines and reserves, two medkits.
def reissued : Kit × List InvItem :=
  let mags := (visit order (k.weapons.getD ∅).keys).filterMap fun slot =>
    (k.weapon slot).map fun wp =>
      (⟨wp.unique, wp.data, 1, w.loadedMagFor wp.data (w.skinForWeapon wp.data slots)⟩ : InvItem)
  let reserves := (visit order k.clientUIDs.keys).filterMap fun u =>
    (k.clientUIDs.lookup u).bind fun it =>
      if isAmmoData it.data then some (⟨u, it.data, ammoReserveTotal it.data, 0⟩ : InvItem) else none
  let found := ((k.trackedWhere order fun _ it => it.data == medkitData).map fun e => e.1).getD 0
  let (med, k) := if found = 0 then (k.nextUID, k.withUID) else (found, k)
  let kit : InvItem := ⟨med, medkitData, 2, 2⟩
  (k.trackItem kit, mags ++ reserves ++ [kit])

end Kit

namespace Core

variable (w : World) (c : Core) (s : SessionId) (m : MatchRef)

def entity : Nat := (c.ss s).player.entityID

def broadcastEquipDiff (before : GoMap Nat) : Core :=
  let k := (c.ss s).kit
  let c := k.equipment.foldl (fun c e =>
    let old := (before.lookup e.slot).getD 0
    if old = e.unique then c
    else c.broadcastToOthers s m
      (.equipmentChanged (c.entity s) e.slot old e.unique e.data (k.slotRuntime e.slot))) c
  (visit c.order before.keys).foldl (fun c slot =>
    let old := (before.lookup slot).getD 0
    if (k.equipment.any fun e => e.slot == slot) ∨ old = 0 then c
    else c.broadcastToOthers s m (.equipmentChanged (c.entity s) slot old 0 0 0)) c

def allocContainerID : Nat × Core :=
  let next := (c.ms m).nextContainerID
  let id := if next < runtimeContainerBase then runtimeContainerBase else next
  let next := (id + 1) % 65536
  let next := if next < runtimeContainerBase then runtimeContainerBase else next
  (id, c.onMatch m fun g => { g with nextContainerID := next })

def nearestBox (pos : Vec3) : Option Container :=
  ((visit c.order (c.ms m).containers.keys).foldl (fun (best : Int × Option Container) id =>
    match (c.ms m).containers.lookup id with
    | some box => if dist2 box.pos pos ≤ best.1 then (dist2 box.pos pos, some box) else best
    | none => best) (mergeDist2, none)).2

def dropToGround (it : InvItem) (pos : Vec3) : Core :=
  if it.unique = 0 ∧ it.data = 0 then c
  else
    match c.nearestBox m pos with
    | none =>
      let (id, c) := c.allocContainerID m
      (c.onMatch m fun g => { g with
        containers := g.containers.insert id ⟨id, pos, [it]⟩ }).broadcastData m
        (.addPickup it id pos)
    | some box =>
      (c.onMatch m fun g => { g with
        containers := g.containers.insert box.id { box with items := box.items ++ [it] } }).broadcastData
        m (.addPickup it box.id box.pos)

def findLoot (unique : Nat) : Option (Container × InvItem) :=
  (visit c.order (c.ms m).containers.keys).findSome? fun id =>
    ((c.ms m).containers.lookup id).bind fun box =>
      (box.items.find? fun it => it.unique == unique).map fun it => (box, it)

def removeItemFromContainer (box : Container) (unique : Nat) : Core :=
  c.onMatch m fun g => { g with
    containers := g.containers.insert box.id
      { box with items := box.items.filter fun it => decide (it.unique ≠ unique) } }

def removeTrackedItem (unique : Nat) : Core :=
  (c.onKit s fun k => k.removeTracked c.order unique).send s
    (.removeInventoryList (c.entity s) [unique])

def syncInventory (inv attach : List InvItem) : Msg :=
  .syncInventory (c.entity s) inv attach (c.ss s).kit.equipment (c.ss s).kit.itemOnHand

def sendMushroomCount : Core :=
  c.send s (.shopPurchaseCount itemMushroom (c.ss s).kit.mushrooms mushroomsPerRound)

def dropOverriddenAfterEquip (outgoing : List InvItem) : Core :=
  outgoing.foldl (fun c it => c.dropToGround m it (c.ss s).playerPos) c

-- The buy past the price check: charged, then granted.
def buy (m : MatchRef) (item : ShopItem) (qty : Nat) : Core :=
  let coins := (c.ss s).kit.coins
  if item.itemID = itemMushroom then
    ((c.onKit s fun k => k.grantMushroom c.now).send s (.purchaseResult purchaseOK coins)).sendMushroomCount s
  else
    let before := (c.ss s).kit.equipSnapshot
    let (k, bought) := (c.ss s).kit.addPurchasedItem w c.order (c.ss s).player.cosmetics.slots item qty
    let c := c.onKit s fun _ => k
    match bought with
    | none => c
    | some b =>
      let c := c.onKit s fun k =>
        match armorSlot item.itemID with
        | some slot => k.equipArmor item.itemID slot
        | none => k
      (((c.send s (.purchaseResult purchaseOK coins)).broadcastData m
        (c.syncInventory s b.inv b.attach)).broadcastEquipDiff s m before).dropOverriddenAfterEquip s m
        b.outgoing

def handleCSPurchase (p : Packet) : Core :=
  if p.payload.length < 6 then c
  else
    let qty := if u16le p.payload 0 = 0 then 1 else u16le p.payload 0
    c.withMatch s fun m =>
      match w.shopItemByID (c.ms m).settings (u16le p.payload 2) with
      | none => c
      | some item =>
        let price := item.price * qty % 2 ^ 32
        let k := (c.ss s).kit
        if item.itemID = itemMushroom ∧ mushroomsPerRound ≤ k.mushrooms then
          c.send s (.purchaseResult purchaseNoMoney k.coins)
        else if w.cfg.unlimitedMoneyTest then c.buy w s m item qty
        else if k.coins < price then c.send s (.purchaseResult purchaseNoMoney k.coins)
        else (c.onKit s fun k => { k with coins := k.coins - price }).buy w s m item qty

-- The picked weapon takes its slot; none: the weapon map is nil and the assignment panics.
def installWeapon (m : MatchRef) (it : InvItem) (isPrimary : Bool) : Option Core :=
  let k := (c.ss s).kit
  let slot := k.pickupWeaponSlot isPrimary
  let displaced := (k.weapon slot).filter fun old => decide (old.unique ≠ it.unique)
  let c :=
    match displaced with
    | some old => (c.onKit s fun k => k.removeWeapon slot old).send s
        (.removeInventoryList (c.entity s) [old.unique])
    | none => c
  match (c.ss s).kit.putWeapon slot ⟨slot, it.data, it.unique, (weaponAmmo it.data).getD 0⟩ with
  | none => none
  | some k =>
    let k := { (k.setEquip slot it.data it.unique).trackItem it with itemOnHand := it.unique }
    let (attach, k) := k.attachItems w it.unique it.data
    let c := c.onKit s fun _ => k
    let c := c.send s (c.syncInventory s [it] attach)
    match displaced with
    | some old => some (c.dropToGround m
        (Kit.weaponLoot w (c.ss s).player.cosmetics.slots old) (c.ss s).playerPos)
    | none => some c

-- A stackable folds into the stack already held.
def foldStack (it : InvItem) : Core × InvItem :=
  let k := (c.ss s).kit
  match k.trackedByData c.order it.data it.unique with
  | none => (c, it)
  | some (u, existing) =>
    let it := { it with count := (it.count + existing.count) % 2 ^ 32 }
    ((c.removeTrackedItem s u).onKit s (k.repoint u it), it)

def takeItem (it : InvItem) : Core × InvItem :=
  let (c, it) := c.foldStack s it
  let c := c.onKit s fun k => k.trackItem it
  (c.send s (c.syncInventory s [it] []), it)

def leaveGround (box : Nat) (it : InvItem) : Core :=
  let c := c.broadcastData m (.delPickup it box)
  match (c.ms m).containers.lookup box with
  | some b =>
    if b.items = [] then
      (c.onMatch m fun g => { g with containers := g.containers.erase box }).broadcastData m
        (.delContainer box)
    else c
  | none => c

def handlePickup (p : Packet) : Core :=
  match parsePickupReq p.payload with
  | none => c
  | some unique =>
    c.withMatch s fun m =>
      match c.findLoot m unique with
      | none => c
      | some (box, it) =>
        let before := (c.ss s).kit.equipSnapshot
        let c := c.removeItemFromContainer m box it.unique
        match weaponClass it.data with
        | some isPrimary =>
          match c.installWeapon w s m it isPrimary with
          | some c => (c.leaveGround m box.id it).broadcastEquipDiff s m before
          | none => c
        | none =>
          let (c, it) := c.takeItem s it
          (c.leaveGround m box.id it).broadcastEquipDiff s m before

def handleDrop (p : Packet) : Core :=
  match parseDropReq p.payload with
  | none => c
  | some unique =>
    if unique = 0 then c
    else
      match (c.ss s).kit.clientUIDs.lookup unique with
      | none => c
      | some it =>
        match (c.ss s).matchRef with
        | some m =>
          ((c.removeTrackedItem s unique).dropToGround m it (c.ss s).playerPos).broadcastEquipDiff s m
            (c.ss s).kit.equipSnapshot
        | none => c.onKit s fun k => k.removeTracked c.order unique

-- The loadout after the swap, and the data of the moved item.
def moveItem (k : Kit) (dst unique targetData oldSlot : Nat) (occupant : Option Equipment) : Kit :=
  match occupant with
  | some e =>
    if oldSlot ≠ slotNone then
      (((k.setEquip oldSlot e.data e.unique).setEquip dst targetData unique)).swapWeaponSlots oldSlot dst
    else (((k.eraseWeapon dst).setEquip dst targetData unique)).moveWeaponSlot oldSlot dst
  | none =>
    let k := if oldSlot ≠ slotNone then k.clearEquip oldSlot else k
    (k.setEquip dst targetData unique).moveWeaponSlot oldSlot dst

def equipMoved (m : MatchRef) (dst unique targetData oldSlot : Nat) : Core :=
  let occupant := (c.ss s).kit.equipAt dst
  let e := c.entity s
  let c := c.onKit s fun k => moveItem k dst unique targetData oldSlot occupant
  let c :=
    if oldSlot ≠ slotNone then
      c.broadcastData m (.equipmentChanged e oldSlot unique
        ((occupant.map fun o => o.unique).getD 0) ((occupant.map fun o => o.data).getD 0) 0)
    else c
  let c := c.broadcastData m (.equipmentChanged e dst 0 unique targetData 0)
  if unique = (c.ss s).kit.itemOnHand ∧ isActiveWeaponSlot dst then
    c.broadcastData m (.changeInventoryOnHand e unique)
  else c

def handleEquip (p : Packet) : Core :=
  match parseEquipReq p.payload with
  | none => c
  | some req =>
    let k := (c.ss s).kit
    let target : Option (Nat × Nat) :=
      match k.equipSlotOf req.unique with
      | some e => some (e.slot, e.data)
      | none => (k.clientUIDs.lookup req.unique).map fun it => (slotNone, it.data)
    match target with
    | none => c
    | some (oldSlot, targetData) =>
      if oldSlot = req.slot then c
      else
        match (c.ss s).matchRef with
        | some m => c.equipMoved s m req.slot req.unique targetData oldSlot
        -- The slots move before the first broadcast panics on the nil match.
        | none => c.onKit s fun k =>
            moveItem k req.slot req.unique targetData oldSlot (k.equipAt req.slot)

def giveLoadout (resetCoins : Bool) : Core :=
  c.withMatch s fun m =>
    let settings := (c.ms m).settings
    let before := (c.ss s).kit.equipSnapshot
    let stale := visit c.order (c.ss s).kit.clientUIDs.keys
    let staleBoxes := visit c.order (c.ms m).containers.keys
    let c := c.onMatch m fun g => { g with containers := ∅ }
    let (k, inv, attach) :=
      Kit.baseLoadout w (c.ss s).player.cosmetics.slots
        { (c.ss s).kit with
          coins := if resetCoins then csStartingCoins settings.baseCoins else (c.ss s).kit.coins }
        settings.noLoadout w.cfg.infiniteGloo
    let c := c.onKit s fun _ => k
    let c := if stale ≠ [] then c.send s (.removeInventoryList (c.entity s) stale) else c
    let c := staleBoxes.foldl (fun c id => c.broadcastData m (.delContainer id)) c
    (c.broadcastData m (c.syncInventory s inv attach)).broadcastEquipDiff s m before

def reissueLoadout : Core :=
  let (k, inv) := Kit.reissued w c.order (c.ss s).player.cosmetics.slots (c.ss s).kit
  let c := c.onKit s fun _ => k
  c.send s (c.syncInventory s inv [])

def sendCSShop : Core :=
  c.withMatch s fun m => (c.send s (.csShop (c.ms m).settings.shopItems)).sendMushroomCount s

def kickObserverWheel : Core :=
  let k := (c.ss s).kit
  let other :=
    if k.itemOnHand = 0 then
      ((k.equipment.find? fun e => e.unique != 0).map fun e => e.unique).getD 0
    else 0
  if other = k.itemOnHand then c
  else (c.send s (.changeInventoryOnHand (c.entity s) other)).send s
    (.changeInventoryOnHand (c.entity s) k.itemOnHand)

variable {w : World} {c : Core} {s : SessionId} {m : MatchRef}

theorem keeps_broadcastEquipDiff {before : GoMap Nat} :
    Keeps [] c (c.broadcastEquipDiff s m before) := by
  unfold broadcastEquipDiff
  refine Frame.trans (Frame.foldl (fun d e => ?_) _ _) (Frame.foldl (fun d slot => ?_) _ _)
  · exact Frame.ite (fun _ => Frame.refl d) fun _ => (Frame.refl d).broadcastToOthers
  · exact Frame.ite (fun _ => Frame.refl d) fun _ => (Frame.refl d).broadcastToOthers

theorem keeps_containers {f : Match → GoMap Container} :
    Keeps [.ground] c (c.onMatch m fun g => { g with containers := f g }) := by
  refine (Frame.refl c).onMatch fun x => ?_
  cases x <;> first | exact Or.inr fun _ => rfl | exact Or.inl (by decide)

theorem keeps_allocContainerID : Keeps [.ground] c (c.allocContainerID m).2 := by
  unfold allocContainerID
  dsimp only
  refine (Frame.refl c).onMatch fun x => ?_
  cases x <;> first | exact Or.inr fun _ => rfl | exact Or.inl (by decide)

theorem keeps_dropToGround {it : InvItem} {pos : Vec3} :
    Keeps [.ground] c (c.dropToGround m it pos) := by
  unfold dropToGround
  refine Frame.ite (fun _ => Frame.refl c) fun _ => ?_
  split
  · exact (keeps_allocContainerID.trans keeps_containers).broadcastData
  · exact keeps_containers.broadcastData

theorem keeps_removeTrackedItem {unique : Nat} : Keeps [.kit] c (c.removeTrackedItem s unique) :=
  ((Frame.refl c).onKit (by decide)).send

theorem keeps_dropOverriddenAfterEquip {outgoing : List InvItem} :
    Keeps [.ground] c (c.dropOverriddenAfterEquip s m outgoing) :=
  Frame.foldl (fun _ _ => keeps_dropToGround) _ _

theorem keeps_buy {item : ShopItem} {qty : Nat} :
    Keeps [.kit, .ground] c (c.buy w s m item qty) := by
  unfold buy
  refine Frame.ite (fun _ => ((Frame.refl c).onKit (by decide)).send.send) fun _ => ?_
  dsimp only
  split
  · exact (Frame.refl c).onKit (by decide)
  · refine Frame.trans (Frame.trans ?_ (keeps_broadcastEquipDiff.mono (by decide)))
      (keeps_dropOverriddenAfterEquip.mono (by decide))
    exact (((Frame.refl c).onKit (by decide)).onKit (by decide)).send.broadcastData

theorem keeps_handleCSPurchase {p : Packet} :
    Keeps [.kit, .ground] c (c.handleCSPurchase w s p) := by
  unfold handleCSPurchase
  refine Frame.ite (fun _ => Frame.refl c) fun _ => Frame.withMatch fun m => ?_
  dsimp only
  split
  · exact Frame.refl c
  · refine Frame.ite (fun _ => (Frame.refl c).send) fun _ => Frame.ite (fun _ => keeps_buy)
      fun _ => Frame.ite (fun _ => (Frame.refl c).send) fun _ => ?_
    exact ((Frame.refl c).onKit (by decide)).trans keeps_buy

theorem keeps_installWeapon {it : InvItem} {isPrimary : Bool} {d : Core}
    (h : c.installWeapon w s m it isPrimary = some d) : Keeps [.kit, .ground] c d := by
  unfold installWeapon at h
  dsimp only at h
  generalize hold : (((c.ss s).kit.weapon ((c.ss s).kit.pickupWeaponSlot isPrimary)).filter
    fun old => decide (old.unique ≠ it.unique)) = displaced at h
  cases displaced with
  | none =>
    dsimp only at h
    split at h
    · cases h
    · cases h
      exact ((Frame.refl c).onKit (by decide)).send
  | some old =>
    dsimp only at h
    split at h
    · cases h
    · cases h
      refine Frame.trans ?_ (keeps_dropToGround.mono (by decide))
      exact ((((Frame.refl c).onKit (by decide)).send).onKit (by decide)).send

theorem keeps_foldStack {it : InvItem} : Keeps [.kit] c (c.foldStack s it).1 := by
  unfold foldStack
  dsimp only
  split
  · exact Frame.refl c
  · exact keeps_removeTrackedItem.onKit (by decide)

theorem keeps_takeItem (it : InvItem) : Keeps [.kit] c (c.takeItem s it).1 :=
  (keeps_foldStack.onKit (by decide)).send

theorem keeps_leaveGround {box : Nat} {it : InvItem} :
    Keeps [.ground] c (c.leaveGround m box it) := by
  unfold leaveGround
  dsimp only
  split
  · exact Frame.ite
      (fun _ => ((Frame.refl c).broadcastData.trans keeps_containers).broadcastData)
      fun _ => (Frame.refl c).broadcastData
  · exact (Frame.refl c).broadcastData

theorem keeps_handlePickup {p : Packet} : Keeps [.kit, .ground] c (c.handlePickup w s p) := by
  unfold handlePickup
  split
  · exact Frame.refl c
  · refine Frame.withMatch fun m => ?_
    split
    · exact Frame.refl c
    · rename_i box it _
      have hgone : Keeps [.kit, .ground] c (c.removeItemFromContainer m box it.unique) :=
        keeps_containers.mono (by decide)
      dsimp only
      split
      · split
        · rename_i h
          refine Frame.trans (Frame.trans (hgone.trans (keeps_installWeapon h)) ?_)
            (keeps_broadcastEquipDiff.mono (by decide))
          exact keeps_leaveGround.mono (by decide)
        · exact hgone
      · have htaken := hgone.trans ((keeps_takeItem (s := s) it).mono
          (show [Part.kit] ⊆ [.kit, .ground] by decide))
        refine Frame.trans (htaken.trans ?_) (keeps_broadcastEquipDiff.mono (by decide))
        exact keeps_leaveGround.mono (by decide)

theorem keeps_handleDrop {p : Packet} : Keeps [.kit, .ground] c (c.handleDrop s p) := by
  unfold handleDrop
  split
  · exact Frame.refl c
  · refine Frame.ite (fun _ => Frame.refl c) fun _ => ?_
    split
    · exact Frame.refl c
    · split
      · exact ((keeps_removeTrackedItem.mono (by decide)).trans
          (keeps_dropToGround.mono (by decide))).trans (keeps_broadcastEquipDiff.mono (by decide))
      · exact (Frame.refl c).onKit (by decide)

theorem keeps_equipMoved {dst unique targetData oldSlot : Nat} :
    Keeps [.kit] c (c.equipMoved s m dst unique targetData oldSlot) := by
  have hmove : Keeps [.kit] c (c.onKit s fun k =>
      moveItem k dst unique targetData oldSlot ((c.ss s).kit.equipAt dst)) :=
    (Frame.refl c).onKit (by decide)
  unfold equipMoved
  refine Frame.ite (fun _ => Frame.broadcastData (Frame.broadcastData ?_))
    fun _ => Frame.broadcastData ?_
  · exact Frame.ite (fun _ => hmove.broadcastData) fun _ => hmove
  · exact Frame.ite (fun _ => hmove.broadcastData) fun _ => hmove

theorem keeps_handleEquip {p : Packet} : Keeps [.kit] c (c.handleEquip s p) := by
  unfold handleEquip
  split
  · exact Frame.refl c
  · dsimp only
    split
    · exact Frame.refl c
    · refine Frame.ite (fun _ => Frame.refl c) fun _ => ?_
      split
      · exact keeps_equipMoved
      · exact (Frame.refl c).onKit (by decide)

theorem keeps_giveLoadout {resetCoins : Bool} :
    Keeps [.kit, .ground] c (c.giveLoadout w s resetCoins) := by
  unfold giveLoadout
  refine Frame.withMatch fun m => ?_
  dsimp only
  refine Frame.trans (Frame.broadcastData (Frame.trans ?_ (Frame.foldl (fun _ _ =>
    (Frame.refl _).broadcastData) _ _))) (keeps_broadcastEquipDiff.mono (by decide))
  have hkit : ∀ k, Keeps [.kit, .ground] c ((c.onMatch m fun g =>
      { g with containers := ∅ }).onKit s fun _ => k) := fun k =>
    Frame.onKit (keeps_containers.mono (by decide)) (by decide)
  exact Frame.ite (fun _ => (hkit _).send) fun _ => hkit _

theorem keeps_reissueLoadout : Keeps [.kit] c (c.reissueLoadout w s) :=
  ((Frame.refl c).onKit (by decide)).send

theorem keeps_sendCSShop : Keeps [] c (c.sendCSShop s) :=
  Frame.withMatch fun _ => (Frame.refl c).send.send

theorem keeps_kickObserverWheel : Keeps [] c (c.kickObserverWheel s) :=
  Frame.ite (fun _ => Frame.refl c) fun _ => (Frame.refl c).send.send

end Core

end MatchServer

import Madoka.MatchServer.Purchases

namespace MatchServer

open Lib

namespace Kit

-- What the server does to one kit: the purse, the loadout, and what a handler does for a player.
inductive Op where
  | fund (coins : Nat)
  | pay (aw : Nat)
  | round
  | issue (coins : Option Nat) (noLoadout infiniteGloo : Bool)
  | reissue
  | buy (item : ShopItem) (qty : Nat)
  | install (it : InvItem) (isPrimary : Bool)
  | take (it : InvItem)
  | drop (unique : Nat)
  | equip (dst unique : Nat)
  | wear (bodyPart netDmg : Nat)
  | gloo
  | hold (unique : Nat)
  | use (unique : Nat)
  deriving DecidableEq, Repr

-- What an operation reads besides the kit: the skins of the player, the map order, the clock.
structure Setting where
  w : World
  slots : List Nat
  order : List Nat
  now : Int

variable (x : Setting) (k : Kit)

def pay (aw : Nat) : Kit :=
  { k with
    coins := (k.coins + aw) % 2 ^ 32
    award := aw % 2 ^ 32 }

def issue (coins : Option Nat) (noLoadout infiniteGloo : Bool) : Kit :=
  (baseLoadout x.w x.slots { k with coins := coins.getD k.coins } noLoadout infiniteGloo).1

def charged (item : ShopItem) (qty : Nat) : Kit :=
  if x.w.cfg.unlimitedMoneyTest then k
  else { k with coins := k.coins - item.price * qty % 2 ^ 32 }

def cleared (it : InvItem) (isPrimary : Bool) : Kit :=
  let slot := k.pickupWeaponSlot isPrimary
  match (k.weapon slot).filter fun old => decide (old.unique ≠ it.unique) with
  | some old => k.removeWeapon slot old
  | none => k

def install (it : InvItem) (isPrimary : Bool) : Kit :=
  let slot := k.pickupWeaponSlot isPrimary
  match (k.cleared it isPrimary).putWeapon slot ⟨slot, it.data, it.unique, (weaponAmmo it.data).getD 0⟩ with
  | some j => (({ (j.setEquip slot it.data it.unique).trackItem it with
      itemOnHand := it.unique }).attachItems x.w it.unique it.data).2
  | none => k

def take (order : List Nat) (it : InvItem) : Kit :=
  match k.trackedByData order it.data it.unique with
  | none => k.trackItem it
  | some (u, existing) =>
    let it := { it with count := (it.count + existing.count) % 2 ^ 32 }
    (k.repoint u it (k.removeTracked order u)).trackItem it

def target (unique : Nat) : Option (Nat × Nat) :=
  match k.equipSlotOf unique with
  | some e => some (e.slot, e.data)
  | none => (k.clientUIDs.lookup unique).map fun it => (slotNone, it.data)

def equip (dst unique : Nat) : Kit :=
  match k.target unique with
  | none => k
  | some (oldSlot, targetData) =>
    if oldSlot = dst then k
    else Core.moveItem k dst unique targetData oldSlot (k.equipAt dst)

def syncArmor (slot : Nat) : Kit :=
  match k.equipAt slot with
  | none => k
  | some e =>
    let dur := k.slotRuntime slot
    if dur = 0 then (k.clearEquip slot).untrack e.unique
    else ((k.withUID.untrack e.unique).trackItem ⟨k.nextUID, e.data, 1, dur⟩).setEquip slot e.data
      k.nextUID

def wear (bodyPart netDmg : Nat) : Kit :=
  if bodyPart = bodyHead then
    if 0 < k.helmetDur then (k.wearHelmet netDmg).syncArmor slotHelmet else k
  else if bodyPart = bodyChest then
    if 0 < k.vestDur then (k.wearVest netDmg).syncArmor slotVest else k
  else k

def placeGloo (order : List Nat) : Kit :=
  (k.consumeGloo (k.glooCount order).1 (k.glooCount order).2).1

def useUp (unique : Nat) : Kit :=
  match k.clientUIDs.lookup unique with
  | some it => { k with clientUIDs := k.clientUIDs.insert unique { it with count := it.count - 1 } }
  | none => k

def apply : Op → Kit
  | .fund coins => { k with coins := coins }
  | .pay aw => k.pay aw
  | .round => k.resetEP
  | .issue coins noLoadout infiniteGloo => k.issue x coins noLoadout infiniteGloo
  | .reissue => (k.reissued x.w x.order x.slots).1
  | .buy item qty => (k.charged x item qty).purchase x.w x.order x.slots x.now item qty
  | .install it isPrimary => k.install x it isPrimary
  | .take it => k.take x.order it
  | .drop unique => k.removeTracked x.order unique
  | .equip dst unique => k.equip dst unique
  | .wear bodyPart netDmg => k.wear bodyPart netDmg
  | .gloo => k.placeGloo x.order
  | .hold unique => k.hold unique
  | .use unique => k.useUp unique

-- The kit but for its energy, which the heal of every tick moves.
def rested : Kit := { k with ep := 0, epLast := 0 }

def applyAll (ops : List Op) : Kit := ops.foldl (fun k op => k.apply x op) k

end Kit

namespace Core

variable (w : World) (c : Core) (s : SessionId) (m : MatchRef) (p : Packet)

def setting : Kit.Setting := ⟨w, (c.ss s).player.cosmetics.slots, c.order, c.now⟩

def struck (victim : Nat) : Option SessionId :=
  if (c.ms m).roundOver = false ∧ (c.ms m).lifeOf victim = .alive ∧
      ((c.ms m).hp.lookup victim).getD 0 ≠ 0 then c.sessionByEntity m victim
  else none

def asksPickup : Option (SessionId × Kit.Op) :=
  (parsePickupReq p.payload).bind fun unique => (c.ss s).matchRef.bind fun m =>
    (c.findLoot m unique).map fun loot =>
      match weaponClass loot.2.data with
      | some isPrimary => (s, .install loot.2 isPrimary)
      | none => (s, .take loot.2)

def asksDrop : Option (SessionId × Kit.Op) :=
  (parseDropReq p.payload).bind fun unique =>
    if unique = 0 ∨ (c.ss s).kit.clientUIDs.lookup unique = none then none
    else some (s, .drop unique)

def asksGloo : Option (SessionId × Kit.Op) :=
  (parsePlaceIcewallReq p.payload).bind fun _ => (c.ss s).matchRef.bind fun m =>
    if ((c.ss s).kit.glooCount c.order).2 = 0 ∨ w.cfg.infiniteGloo = true ∨
        (c.ms m).settings.unlimitedAmmo = true then none
    else some (s, .gloo)

def asksWear : Option (SessionId × Kit.Op) :=
  (parseTakeDamage p.payload).bind fun req => (c.ss s).matchRef.bind fun m =>
    (c.struck m req.victim).map fun v => (v, .wear req.bodyPart req.dmg)

def served (asked : Option (SessionId × Kit.Op)) (s' : SessionId) : Kit :=
  match asked with
  | none => (c.ss s').kit
  | some (v, op) =>
    if s' = v then (c.ss s').kit.apply (c.setting w v) op else (c.ss s').kit

def asks : Option (SessionId × Kit.Op) :=
  match cmdOf p.cmd with
  | .csPurchase => (c.accepts w s p).map fun x => (s, .buy x.1 x.2)
  | .addIcewall => c.asksGloo w s p
  | .takeDamage => c.asksWear s p
  | .changeHeldItem => if p.payload.length < 8 then none else some (s, .hold (u32le p.payload 4))
  | .pickupInventory => c.asksPickup s p
  | .dropInventory => c.asksDrop s p
  | .equip => (parseEquipReq p.payload).map fun req => (s, .equip req.slot req.unique)
  | .useInventory => (parseUseInventory p.payload).map fun unique => (s, .use unique)
  | _ => none

variable {w : World} {c d : Core} {s : SessionId} {m : MatchRef} {p : Packet}

def Hands (c d : Core) (s : SessionId) (k : Kit) : Prop :=
  ∀ s', (d.ss s').kit = if s' = s then k else (c.ss s').kit

theorem Hands.of_keeps {e : Core} {k : Kit} {F : List Part} (h : Hands c d s k) (hk : Keeps F d e)
    (hF : Part.kit ∉ F) : Hands c e s k :=
  fun s' => (kit_of_keeps hk hF s').trans (h s')

theorem Hands.send {k : Kit} {s' : SessionId} {msg : Msg} (h : Hands c d s k) :
    Hands c (d.send s' msg) s k := h

theorem Hands.broadcastData {k : Kit} {msg : Msg} (h : Hands c d s k) :
    Hands c (d.broadcastData m msg) s k := h

theorem hands_refl : Hands c c s (c.ss s).kit := by
  intro s'
  split
  · rename_i h
    rw [h]
  · rfl

theorem hands_keeps {F : List Part} (hk : Keeps F c d) (hF : Part.kit ∉ F) :
    Hands c d s (c.ss s).kit :=
  hands_refl.of_keeps hk hF

theorem hands_onKit (f : Kit → Kit) : Hands c (c.onKit s f) s (f (c.ss s).kit) := onKit_kit f

theorem Hands.eq {k : Kit} (h : Hands c d s k) : (d.ss s).kit = k := by
  rw [h s, if_pos rfl]

theorem Hands.trans {e : Core} {j k : Kit} (h : Hands c d s j) (h' : Hands d e s k) :
    Hands c e s k := by
  intro s'
  rw [h' s']
  split
  · rfl
  · rename_i hs
    rw [h s', if_neg hs]

theorem hands_handleCSPurchase : Hands c (c.handleCSPurchase w s p) s
    (match c.accepts w s p with
    | none => (c.ss s).kit
    | some x => (c.ss s).kit.apply (c.setting w s) (.buy x.1 x.2)) := by
  rcases handleCSPurchase_cases (w := w) (c := c) (s := s) (p := p) with
    ⟨hacc, hss⟩ | ⟨m, item, qty, hacc, -, -, -, -, -, hbuy⟩
  · rw [hacc]
    intro s'
    rw [hss]
    exact hands_refl s'
  · rw [hacc, hbuy]
    have hcharge : Hands c (c.charge w s item qty) s
        ((c.ss s).kit.charged (c.setting w s) item qty) := by
      unfold charge Kit.charged setting
      split
      · exact hands_refl
      · exact hands_onKit _
    refine hcharge.trans fun s' => ?_
    rw [kit_buy, hcharge.eq]
    have hsame : (c.charge w s item qty).order = c.order ∧ (c.charge w s item qty).now = c.now ∧
        ((c.charge w s item qty).ss s).player = (c.ss s).player := by
      unfold charge
      split
      · exact ⟨rfl, rfl, rfl⟩
      · refine ⟨rfl, rfl, ?_⟩
        rw [onKit_ss, if_pos rfl]
    rw [hsame.1, hsame.2.1, hsame.2.2]
    rfl

theorem hands_installWeapon {it : InvItem} {isPrimary : Bool} :
    match c.installWeapon w s m it isPrimary with
    | some d => Hands c d s ((c.ss s).kit.install (c.setting w s) it isPrimary)
    | none => (c.ss s).kit.install (c.setting w s) it isPrimary = (c.ss s).kit := by
  unfold installWeapon Kit.install Kit.cleared
  dsimp only
  generalize hd : ((c.ss s).kit.weapon ((c.ss s).kit.pickupWeaponSlot isPrimary)).filter
    (fun old => decide (old.unique ≠ it.unique)) = displaced
  cases displaced with
  | none =>
    dsimp only
    cases hput : (c.ss s).kit.putWeapon ((c.ss s).kit.pickupWeaponSlot isPrimary)
      ⟨(c.ss s).kit.pickupWeaponSlot isPrimary, it.data, it.unique, (weaponAmmo it.data).getD 0⟩ with
    | none => rfl
    | some j =>
      dsimp only
      exact (hands_onKit _).send
  | some old =>
    dsimp only
    have hgone : Hands c ((c.onKit s fun k => k.removeWeapon
        ((c.ss s).kit.pickupWeaponSlot isPrimary) old).send s
        (.removeInventoryList (c.entity s) [old.unique])) s
        ((c.ss s).kit.removeWeapon ((c.ss s).kit.pickupWeaponSlot isPrimary) old) :=
      (hands_onKit _).send
    rw [hgone.eq]
    cases hput : ((c.ss s).kit.removeWeapon ((c.ss s).kit.pickupWeaponSlot isPrimary) old).putWeapon
      ((c.ss s).kit.pickupWeaponSlot isPrimary)
      ⟨(c.ss s).kit.pickupWeaponSlot isPrimary, it.data, it.unique, (weaponAmmo it.data).getD 0⟩ with
    | none => rfl
    | some j =>
      dsimp only
      exact (hgone.trans (hands_onKit fun _ => _)).send.of_keeps keeps_dropToGround (by decide)

theorem hands_foldStack {it : InvItem} : Hands c (c.foldStack s it).1 s
    (match (c.ss s).kit.trackedByData c.order it.data it.unique with
    | none => (c.ss s).kit
    | some (u, existing) => (c.ss s).kit.repoint u
        { it with count := (it.count + existing.count) % 2 ^ 32 }
        ((c.ss s).kit.removeTracked c.order u)) := by
  unfold foldStack
  dsimp only
  cases (c.ss s).kit.trackedByData c.order it.data it.unique with
  | none => exact hands_refl
  | some stack =>
    obtain ⟨u, existing⟩ := stack
    dsimp only
    have hgone : Hands c (c.removeTrackedItem s u) s ((c.ss s).kit.removeTracked c.order u) :=
      (hands_onKit _).send
    refine hgone.trans ?_
    have hset := hands_onKit (c := c.removeTrackedItem s u) (s := s) ((c.ss s).kit.repoint u
      { it with count := (it.count + existing.count) % 2 ^ 32 })
    rw [hgone.eq] at hset
    exact hset

theorem hands_takeItem {it : InvItem} :
    Hands c (c.takeItem s it).1 s ((c.ss s).kit.take c.order it) := by
  unfold takeItem
  dsimp only
  have hfold := @hands_foldStack c s it
  have htrack := hands_onKit (c := (c.foldStack s it).1) (s := s) fun k =>
    k.trackItem (c.foldStack s it).2
  rw [hfold.eq] at htrack
  have hall := hfold.trans htrack
  refine Hands.of_keeps (F := []) ?_ ((Frame.refl _).send) (by decide)
  convert hall using 1
  unfold Kit.take foldStack
  dsimp only
  cases (c.ss s).kit.trackedByData c.order it.data it.unique with
  | none => rfl
  | some stack => rfl

theorem hands_handlePickup : Hands c (c.handlePickup w s p) s
    (match c.asksPickup s p with
    | none => (c.ss s).kit
    | some (_, op) => (c.ss s).kit.apply (c.setting w s) op) := by
  unfold handlePickup asksPickup withMatch
  cases hreq : parsePickupReq p.payload with
  | none => exact hands_refl
  | some unique =>
    dsimp only [Option.bind_some]
    cases hm : (c.ss s).matchRef with
    | none => exact hands_refl
    | some m =>
      dsimp only [Option.bind_some]
      cases hloot : c.findLoot m unique with
      | none => exact hands_refl
      | some loot =>
        obtain ⟨box, it⟩ := loot
        dsimp only [Option.map_some]
        have hgone : Keeps [.ground] c (c.removeItemFromContainer m box it.unique) :=
          keeps_containers
        cases hclass : weaponClass it.data with
        | some isPrimary =>
          dsimp only
          have hin := @hands_installWeapon w (c.removeItemFromContainer m box it.unique) s m it isPrimary
          cases hd : (c.removeItemFromContainer m box it.unique).installWeapon w s m it isPrimary with
          | none =>
            rw [hd] at hin
            dsimp only at hin ⊢
            refine Hands.of_keeps (F := [.ground]) ?_ hgone (by decide)
            intro s'
            rw [show (c.ss s).kit.apply (c.setting w s) (.install it isPrimary) = (c.ss s).kit
              from hin]
            exact hands_refl s'
          | some d =>
            rw [hd] at hin
            dsimp only at hin ⊢
            refine Hands.of_keeps (F := []) ?_ keeps_broadcastEquipDiff (by decide)
            exact Hands.of_keeps (F := [.ground]) hin keeps_leaveGround (by decide)
        | none =>
          dsimp only
          refine Hands.of_keeps (F := []) ?_ keeps_broadcastEquipDiff (by decide)
          refine Hands.of_keeps (F := [.ground]) ?_ keeps_leaveGround (by decide)
          exact hands_takeItem (c := c.removeItemFromContainer m box it.unique)

theorem hands_handleDrop : Hands c (c.handleDrop s p) s
    (match c.asksDrop s p with
    | none => (c.ss s).kit
    | some (_, op) => (c.ss s).kit.apply (c.setting w s) op) := by
  unfold handleDrop asksDrop
  cases hreq : parseDropReq p.payload with
  | none => exact hands_refl
  | some unique =>
    dsimp only [Option.bind_some]
    by_cases hz : unique = 0
    · rw [if_pos hz, if_pos (Or.inl hz)]
      exact hands_refl
    · rw [if_neg hz]
      cases hit : (c.ss s).kit.clientUIDs.lookup unique with
      | none =>
        rw [if_pos (Or.inr rfl)]
        exact hands_refl
      | some it =>
        rw [if_neg (by simp [hz])]
        dsimp only
        split
        · refine Hands.of_keeps (F := [.ground]) ?_
            (keeps_dropToGround.trans (keeps_broadcastEquipDiff.mono (by decide))) (by decide)
          exact (hands_onKit _).send
        · exact hands_onKit _

theorem hands_equipMoved {dst unique targetData oldSlot : Nat} :
    Hands c (c.equipMoved s m dst unique targetData oldSlot) s
      (moveItem (c.ss s).kit dst unique targetData oldSlot ((c.ss s).kit.equipAt dst)) := by
  unfold equipMoved
  dsimp only
  refine Hands.of_keeps (F := []) (hands_onKit fun k =>
    moveItem k dst unique targetData oldSlot ((c.ss s).kit.equipAt dst)) ?_ (by decide)
  refine Frame.ite (fun _ => Frame.broadcastData (Frame.broadcastData ?_))
    fun _ => Frame.broadcastData ?_
  · exact Frame.ite (fun _ => (Frame.refl _).broadcastData) fun _ => Frame.refl _
  · exact Frame.ite (fun _ => (Frame.refl _).broadcastData) fun _ => Frame.refl _

theorem hands_reslot {dst unique targetData oldSlot : Nat} : Hands c
    (if oldSlot = dst then c
      else
        match (c.ss s).matchRef with
        | some m => c.equipMoved s m dst unique targetData oldSlot
        | none => c.onKit s fun k => moveItem k dst unique targetData oldSlot (k.equipAt dst)) s
    (if oldSlot = dst then (c.ss s).kit
      else moveItem (c.ss s).kit dst unique targetData oldSlot ((c.ss s).kit.equipAt dst)) := by
  split
  · exact hands_refl
  · split
    · exact hands_equipMoved
    · exact hands_onKit _

theorem hands_handleEquip : Hands c (c.handleEquip s p) s
    (match parseEquipReq p.payload with
    | none => (c.ss s).kit
    | some req => (c.ss s).kit.equip req.slot req.unique) := by
  unfold handleEquip Kit.equip Kit.target
  cases hreq : parseEquipReq p.payload with
  | none => exact hands_refl
  | some req =>
    dsimp only
    cases (c.ss s).kit.equipSlotOf req.unique with
    | some e => exact hands_reslot
    | none =>
      cases (c.ss s).kit.clientUIDs.lookup req.unique with
      | none => exact hands_refl
      | some it => exact hands_reslot

theorem hands_handlePlaceIcewall : Hands c (c.handlePlaceIcewall w s p) s
    (match c.asksGloo w s p with
    | none => (c.ss s).kit
    | some (_, op) => (c.ss s).kit.apply (c.setting w s) op) := by
  unfold handlePlaceIcewall asksGloo withMatch
  cases hreq : parsePlaceIcewallReq p.payload with
  | none => exact hands_refl
  | some req =>
    dsimp only [Option.bind_some]
    cases hm : (c.ss s).matchRef with
    | none =>
      dsimp only [Option.bind_none]
      split
      · exact hands_refl
      · exact hands_refl
    | some m =>
      dsimp only [Option.bind_some]
      by_cases hz : ((c.ss s).kit.glooCount c.order).2 = 0
      · rw [if_pos hz, if_pos (Or.inl hz)]
        exact hands_refl
      · rw [if_neg hz]
        by_cases hfree : w.cfg.infiniteGloo = true ∨ (c.ms m).settings.unlimitedAmmo = true
        · rw [if_pos hfree, if_pos (Or.inr hfree)]
          exact hands_keeps (keeps_placeWall (c := c)) (by decide)
        · rw [if_neg hfree, if_neg fun h => h.elim hz hfree]
          refine Hands.of_keeps (F := [.walls]) ?_ keeps_placeWall (by decide)
          unfold deductGloo
          dsimp only
          split
          · exact (hands_onKit fun _ => _).send.broadcastData
          · exact (hands_onKit fun _ => _).send

theorem hands_handleUseInventory : Hands c (c.handleUseInventory s p) s
    (match parseUseInventory p.payload with
    | none => (c.ss s).kit
    | some unique => (c.ss s).kit.useUp unique) := by
  unfold handleUseInventory Kit.useUp
  cases hreq : parseUseInventory p.payload with
  | none => exact hands_refl
  | some unique =>
    dsimp only
    cases hit : (c.ss s).kit.clientUIDs.lookup unique with
    | none => exact hands_refl
    | some it =>
      dsimp only
      have huse := hands_onKit (c := c) (s := s) fun k =>
        { k with clientUIDs := k.clientUIDs.insert unique { it with count := it.count - 1 } }
      have hend := huse.of_keeps (keeps_endHealChannel (s := s)) (by decide)
      refine Hands.of_keeps (F := [.body]) hend ?_ (by decide)
      refine Frame.ite (fun _ => Frame.refl _) fun _ => (Frame.refl _).onSession fun x => ?_
      cases x <;> first | exact Or.inr fun _ => rfl | exact Or.inl (by decide)

theorem hands_syncArmor {slot : Nat} : Hands c (c.syncArmor s slot) s ((c.ss s).kit.syncArmor slot) := by
  unfold syncArmor Kit.syncArmor
  dsimp only
  cases (c.ss s).kit.equipAt slot with
  | none => exact hands_refl
  | some e =>
    dsimp only
    split
    · exact (hands_onKit _).send.send
    · split
      · exact (hands_onKit fun k => ((k.withUID.untrack e.unique).trackItem _).setEquip slot e.data
          (c.ss s).kit.nextUID).send.send.send.send
      · exact (hands_onKit fun k => ((k.withUID.untrack e.unique).trackItem _).setEquip slot e.data
          (c.ss s).kit.nextUID).send.send.send

theorem hands_wearArmor {bodyPart netDmg : Nat} :
    Hands c (c.wearArmor s bodyPart netDmg) s ((c.ss s).kit.wear bodyPart netDmg) := by
  have hsync : ∀ (f : Kit → Kit) (slot : Nat), Hands c ((c.onKit s f).syncArmor s slot) s
      ((f (c.ss s).kit).syncArmor slot) := by
    intro f slot
    have hworn := hands_onKit (c := c) (s := s) f
    have hs := @hands_syncArmor (c.onKit s f) s slot
    rw [hworn.eq] at hs
    exact hworn.trans hs
  unfold wearArmor Kit.wear
  split
  · split
    · exact hsync _ _
    · exact hands_refl
  · split
    · split
      · exact hsync _ _
      · exact hands_refl
    · exact hands_refl

theorem sessionByEntity_of_keeps {F : List Part} (h : Keeps F c d) (hr : Part.roster ∉ F)
    (hs : Part.seat ∉ F) (entity : Nat) : d.sessionByEntity m entity = c.sessionByEntity m entity := by
  unfold sessionByEntity
  rw [players_of_keeps h hr]
  congr 1
  funext p
  rw [entityID_of_keeps h hs]

theorem kit_applyDamage {victim attacker dmg bodyPart : Nat} (s' : SessionId) :
    ((c.applyDamage w m victim attacker dmg bodyPart).ss s').kit =
      if c.struck m victim = some s' then (c.ss s').kit.wear bodyPart dmg else (c.ss s').kit := by
  have hmiss : c.struck m victim = none → (c.ss s').kit =
      if c.struck m victim = some s' then (c.ss s').kit.wear bodyPart dmg else (c.ss s').kit := by
    intro h
    rw [h, if_neg (by simp)]
  unfold applyDamage
  by_cases hover : (c.ms m).roundOver = true
  · rw [if_pos hover]
    exact hmiss (if_neg (by simp [hover]))
  rw [if_neg hover]
  cases hlife : (c.ms m).lifeOf victim with
  | knocked =>
    rw [← hmiss (if_neg (by simp [hlife]))]
    exact kit_of_keeps keeps_damageKnocked (by decide) s'
  | dead => exact hmiss (if_neg (by simp [hlife]))
  | alive =>
    dsimp only
    cases hhp : (c.ms m).hp.lookup victim with
    | none => exact hmiss (if_neg (by simp [hhp]))
    | some cur =>
      dsimp only
      by_cases hz : cur = 0
      · rw [if_pos hz]
        exact hmiss (if_neg (by simp [hhp, hz]))
      have hstruck : c.struck m victim = c.sessionByEntity m victim :=
        if_pos ⟨by simpa using hover, hlife, by simpa [hhp] using hz⟩
      rw [if_neg hz, hstruck]
      generalize (if cur ≤ dmg then 0 else cur - dmg) = left
      have hbefore : Keeps [.hp, .score, .deeds] c
          ((c.onMatch m fun g => { g with hp := g.hp.insert victim left }).creditDamage m victim
            attacker dmg) := by
        refine Frame.trans ((Frame.refl c).onMatch fun x => ?_) (keeps_creditDamage.mono (by decide))
        cases x <;> first | exact Or.inr fun _ => rfl | exact Or.inl (by decide)
      generalize (c.onMatch m fun g => { g with hp := g.hp.insert victim left }).creditDamage m
        victim attacker dmg = d at hbefore
      have hreport : ((d.reportHit w m victim attacker dmg bodyPart).ss s').kit =
          if c.sessionByEntity m victim = some s' then (c.ss s').kit.wear bodyPart dmg
          else (c.ss s').kit := by
        have hshow : Keeps [.hp, .score, .deeds] c
            (d.showDamage w m victim attacker dmg bodyPart) :=
          hbefore.trans (Frame.ite (fun _ => keeps_sendAll) fun _ => Frame.refl d)
        unfold reportHit hurtVictim
        rw [broadcastData_ss, sessionByEntity_of_keeps hshow (by decide) (by decide)]
        have hkit : ∀ s, ((d.showDamage w m victim attacker dmg bodyPart).ss s).kit = (c.ss s).kit :=
          kit_of_keeps hshow (by decide)
        generalize d.showDamage w m victim attacker dmg bodyPart = d' at hkit
        dsimp only
        cases c.sessionByEntity m victim with
        | none =>
          rw [if_neg (by simp), kit_of_keeps (keeps_sendAll (F := [])) (by decide), hkit]
        | some v =>
          dsimp only
          rw [kit_of_keeps (keeps_sendAll (F := [])) (by decide), send_ss,
            hands_wearArmor (c := d') (s := v) s', hkit, hkit]
          by_cases hv : s' = v
          · rw [if_pos hv, hv, if_pos rfl]
          · rw [if_neg hv, if_neg fun h => hv (Option.some.inj h).symm]
      split
      · rw [kit_of_keeps keeps_downOrKill (by decide), hreport]
      · exact hreport

theorem kit_handleTakeDamage (s' : SessionId) :
    ((c.handleTakeDamage w s p).ss s').kit = c.served w (c.asksWear s p) s' := by
  unfold handleTakeDamage asksWear withMatch served
  cases parseTakeDamage p.payload with
  | none => rfl
  | some req =>
    dsimp only [Option.bind_some]
    cases (c.ss s).matchRef with
    | none => rfl
    | some m =>
      dsimp only [Option.bind_some]
      rw [kit_applyDamage]
      cases c.struck m req.victim with
      | none => exact if_neg (by simp)
      | some v =>
        dsimp only [Option.map_some]
        by_cases hv : s' = v
        · rw [hv, if_pos rfl, if_pos rfl]
          rfl
        · rw [if_neg hv, if_neg fun h => hv (Option.some.inj h).symm]

theorem served_of_hands {asked : Option (SessionId × Kit.Op)}
    (h : Hands c d s (match asked with
      | none => (c.ss s).kit
      | some (_, op) => (c.ss s).kit.apply (c.setting w s) op)) (ho : ∀ y ∈ asked, y.1 = s)
    (s' : SessionId) : (d.ss s').kit = c.served w asked s' := by
  rw [h s']
  unfold served
  cases asked with
  | none =>
    dsimp only
    split
    · rename_i hs
      rw [hs]
    · rfl
  | some y =>
    obtain ⟨v, op⟩ := y
    obtain rfl : v = s := ho _ rfl
    dsimp only
    split
    · rename_i hs
      rw [hs]
    · rfl

theorem served_map {α : Type} {o : Option α} {f : α → Kit.Op} {k : Kit} (h : Hands c d s k)
    (hnone : o = none → k = (c.ss s).kit)
    (hsome : ∀ a, o = some a → k = (c.ss s).kit.apply (c.setting w s) (f a)) (s' : SessionId) :
    (d.ss s').kit = c.served w (o.map fun a => (s, f a)) s' := by
  refine served_of_hands (s := s) ?_ (fun y hy => ?_) s'
  · cases o with
    | none =>
      rw [hnone rfl] at h
      exact h
    | some a =>
      rw [hsome a rfl] at h
      exact h
  · obtain ⟨a, -, rfl⟩ := Option.map_eq_some_iff.mp hy
    rfl

theorem kit_route (s' : SessionId) :
    ((c.route w s p).ss s').kit = c.served w (c.asks w s p) s' := by
  have hw := keeps_route (w := w) (c := c) (s := s) (p := p)
  unfold route asks at *
  cases hc : cmdOf p.cmd with
  | csPurchase =>
    dsimp only
    exact served_map (f := fun x : ShopItem × Nat => .buy x.1 x.2) hands_handleCSPurchase
      (fun h => by rw [h]) (fun _ h => by rw [h]) s'
  | addIcewall =>
    dsimp only
    refine served_of_hands hands_handlePlaceIcewall (fun y hy => ?_) s'
    unfold asksGloo at hy
    obtain ⟨-, -, hy⟩ := Option.bind_eq_some_iff.mp hy
    obtain ⟨m, -, hy⟩ := Option.bind_eq_some_iff.mp hy
    rw [Option.ite_none_left_eq_some, Option.some.injEq] at hy
    exact hy.2 ▸ rfl
  | takeDamage => exact kit_handleTakeDamage s'
  | changeHeldItem =>
    dsimp only
    unfold handleChangeHeldItem
    split
    · exact @served_of_hands _ _ _ s none hands_refl (fun _ hy => absurd hy (by simp)) s'
    · refine @served_of_hands _ _ _ _ (some (s, .hold _)) (hands_onKit _) (fun y hy => ?_) s'
      cases hy
      rfl
  | pickupInventory =>
    dsimp only
    refine served_of_hands hands_handlePickup (fun y hy => ?_) s'
    unfold asksPickup at hy
    obtain ⟨u, -, hy⟩ := Option.bind_eq_some_iff.mp hy
    obtain ⟨m, -, hy⟩ := Option.bind_eq_some_iff.mp hy
    obtain ⟨loot, -, rfl⟩ := Option.map_eq_some_iff.mp hy
    split <;> rfl
  | dropInventory =>
    dsimp only
    refine served_of_hands hands_handleDrop (fun y hy => ?_) s'
    unfold asksDrop at hy
    obtain ⟨u, -, hy⟩ := Option.bind_eq_some_iff.mp hy
    rw [Option.ite_none_left_eq_some, Option.some.injEq] at hy
    exact hy.2 ▸ rfl
  | equip =>
    dsimp only
    exact served_map (f := fun req : EquipReq => .equip req.slot req.unique) hands_handleEquip (fun h => by rw [h])
      (fun _ h => by rw [h]; rfl) s'
  | useInventory =>
    dsimp only
    exact served_map (f := fun unique => .use unique) hands_handleUseInventory (fun h => by rw [h])
      (fun _ h => by rw [h]; rfl) s'
  | _ =>
    rw [hc] at hw
    exact kit_of_keeps hw (by decide) s'

end Core

end MatchServer

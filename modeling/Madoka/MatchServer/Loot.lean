import Madoka.MatchServer.KitHistory

namespace MatchServer

open Lib

def CsItemPlacement.Holds (place : CsItemPlacement) (slot : Nat) : Prop :=
  if place.isPrimary then slot = slotPrimary1 ∨ slot = slotPrimary2 else slot = place.slot

-- Loot knows an item when the maps by DataID say of it what its placement says.
def ShopItem.Known (item : ShopItem) : Prop :=
  let place := placeItem item
  if place.isWeapon then
    weaponAmmo item.itemID = some place.ammo ∧ weaponClass item.itemID = some place.isPrimary
  else place.slot = slotNone

instance (item : ShopItem) : Decidable item.Known := by
  unfold ShopItem.Known
  dsimp only
  split <;> infer_instance

namespace Kit

variable {x : Setting} {k : Kit} {it : InvItem} {isPrimary : Bool} {slot : Nat} {order : List Nat}

-- A kit holds an item as the shop places it: a weapon in a slot of its class and with its ammo,
-- and what has a slot of its own in that slot.
def Placed (k : Kit) (item : ShopItem) (unique : Nat) : Prop :=
  let place := placeItem item
  if place.isWeapon then
    ∃ slot, place.Holds slot ∧ k.weapon slot = some ⟨slot, item.itemID, unique, place.ammo⟩ ∧
      k.worn slot = some ⟨slot, item.itemID, unique⟩
  else place.slot ≠ slotNone → k.worn place.slot = some ⟨place.slot, item.itemID, unique⟩

def Free (k : Kit) (item : ShopItem) : Prop :=
  (placeItem item).isWeapon = false → k.worn (placeItem item).slot = none

theorem pickPrimarySlot_cases : k.pickPrimarySlot = slotPrimary1 ∨ k.pickPrimarySlot = slotPrimary2 := by
  unfold pickPrimarySlot
  split
  · exact Or.inl rfl
  · exact Or.inr rfl
  · split
    · exact Or.inl rfl
    · split
      · exact Or.inr rfl
      · exact Or.inl rfl

theorem weapons_cleared (h : k.weapons ≠ none) : (k.cleared it isPrimary).weapons ≠ none := by
  unfold cleared removeWeapon
  dsimp only
  split
  · split
    · simpa [untrack, clearEquip, eraseWeapon] using h
    · simpa [untrack, clearEquip, eraseWeapon] using h
  · exact h

theorem install_eq {ws : GoMap CsWeapon} (h : (k.cleared it isPrimary).weapons = some ws) :
    k.install x it isPrimary =
      let slot := k.pickupWeaponSlot isPrimary
      let j := k.cleared it isPrimary
      { j with
        uidCounter := (x.w.weaponAttachments j.uidCounter it.unique it.data).2
        weapons := some (ws.insert slot ⟨slot, it.data, it.unique, (weaponAmmo it.data).getD 0⟩)
        equipment := slotted j.equipment slot it.data it.unique
        clientUIDs := j.clientUIDs.insert it.unique it
        itemOnHand := it.unique } := by
  unfold install
  dsimp only
  rw [show (k.cleared it isPrimary).putWeapon (k.pickupWeaponSlot isPrimary)
    ⟨k.pickupWeaponSlot isPrimary, it.data, it.unique, (weaponAmmo it.data).getD 0⟩ =
      some { k.cleared it isPrimary with
        weapons := some (ws.insert (k.pickupWeaponSlot isPrimary)
          ⟨k.pickupWeaponSlot isPrimary, it.data, it.unique, (weaponAmmo it.data).getD 0⟩) } by
    rw [putWeapon, h]
    rfl]
  dsimp only
  rw [setEquip_eq]
  rfl

theorem installed (h : k.weapons ≠ none) :
    (k.install x it isPrimary).weapon (k.pickupWeaponSlot isPrimary) =
      some ⟨k.pickupWeaponSlot isPrimary, it.data, it.unique, (weaponAmmo it.data).getD 0⟩ ∧
    (k.install x it isPrimary).worn (k.pickupWeaponSlot isPrimary) =
      some ⟨k.pickupWeaponSlot isPrimary, it.data, it.unique⟩ := by
  obtain ⟨ws, hws⟩ := Option.ne_none_iff_exists'.mp (@weapons_cleared _ it isPrimary h)
  rw [install_eq hws]
  refine ⟨?_, ?_⟩
  · exact AList.lookup_insert _
  · unfold worn
    dsimp only
    rw [wornAt_slotted, if_pos rfl]

end Kit

theorem weaponAmmo_pos {data ammo : Nat} (h : weaponAmmo data = some ammo) : ammo ≠ 0 := by
  unfold weaponAmmo at h
  split at h <;> cases h <;> decide

theorem slot_of_weapon {item : ShopItem} (hw : (placeItem item).isWeapon = true)
    (hp : (placeItem item).isPrimary = false) : (placeItem item).slot = slotSecondary ∨
      ((placeItem item).slot = slotMelee ∧ (placeItem item).ammo = 0) := by
  revert hw hp
  unfold placeItem placeBySlotKind
  repeat' split
  all_goals simp

theorem slot_of_goods {item : ShopItem} (hw : (placeItem item).isWeapon = false) :
    (placeItem item).slot = slotNone ∨ (placeItem item).slot ∉
      [slotPrimary1, slotPrimary2, slotSecondary, slotMelee] := by
  revert hw
  unfold placeItem placeBySlotKind
  repeat' split
  all_goals simp [slotExplosive, slotHelmet, slotVest, slotBuilding, slotPrimary1, slotPrimary2,
    slotSecondary, slotMelee]
  rename_i hslot
  revert hslot
  unfold armorSlot
  split <;> intro hslot <;> cases hslot <;> simp [slotHelmet, slotVest]

namespace Core

variable {w : World} {c d : Core} {s : SessionId} {m : MatchRef} {p : Packet} {it : InvItem}
  {item : ShopItem} {qty : Nat}

def OnGround (c : Core) (m : MatchRef) (it : InvItem) : Prop :=
  ∃ id box, (c.ms m).containers.lookup id = some box ∧ it ∈ box.items

theorem containers_of_keeps {F : List Part} (h : Keeps F c d) (hF : Part.ground ∉ F) (m : MatchRef) :
    (d.ms m).containers = (c.ms m).containers := by
  have hs : Part.ground.sameMatch (c.ms m) (d.ms m) := (h _ hF).1 m
  simp only [Part.sameMatch, Prod.mk.injEq] at hs
  exact hs.1.symm

theorem OnGround.keeps {F : List Part} (h : c.OnGround m it) (hk : Keeps F c d)
    (hF : Part.ground ∉ F) : d.OnGround m it := by
  unfold OnGround
  rw [containers_of_keeps hk hF]
  exact h

theorem onGround_dropToGround {pos : Vec3} (h : ¬ (it.unique = 0 ∧ it.data = 0)) :
    (c.dropToGround m it pos).OnGround m it := by
  unfold dropToGround
  rw [if_neg h]
  cases c.nearestBox m pos with
  | none =>
    refine ⟨(c.allocContainerID m).1, ⟨(c.allocContainerID m).1, pos, [it]⟩, ?_,
      List.mem_singleton_self it⟩
    simp [broadcastData, onMatch, AList.lookup_insert]
  | some box =>
    refine ⟨box.id, { box with items := box.items ++ [it] }, ?_,
      List.mem_append_right _ (List.mem_singleton_self it)⟩
    simp [broadcastData, onMatch, AList.lookup_insert]

-- Purchase and loot classify an item alike: it is placed by a purchase, lies on the ground when a
-- weapon bought overrides it or its owner drops it, and whoever picks it up has it placed the same.
structure LootAgrees (w : World) (item : ShopItem) : Prop where
  buys : ∀ (c : Core) s p qty, c.accepts w s p = some (item, qty) → item.itemID ≠ itemMushroom →
    (c.ss s).kit.weapons ≠ none → ∃ unique, ((c.handleCSPurchase w s p).ss s).kit.Placed item unique
  overrides : ∀ (c : Core) s p m bought qty old, c.accepts w s p = some (bought, qty) →
    bought.itemID ≠ itemMushroom → (placeItem bought).isWeapon = true → (c.ss s).matchRef = some m →
    (c.ss s).kit.weapon (if (placeItem bought).isPrimary then (c.ss s).kit.pickPrimarySlot
      else (placeItem bought).slot) = some old → old.unique ≠ 0 → old.data = item.itemID →
    ∃ it, it.unique = old.unique ∧ it.data = item.itemID ∧ (c.handleCSPurchase w s p).OnGround m it
  drops : ∀ (c : Core) s (p : Packet) m (it : InvItem), parseDropReq p.payload = some it.unique → it.unique ≠ 0 →
    (c.ss s).kit.clientUIDs.lookup it.unique = some it → it.data = item.itemID →
    (c.ss s).matchRef = some m → (c.handleDrop s p).OnGround m it
  picks : ∀ (c : Core) s (p : Packet) m unique box it, parsePickupReq p.payload = some unique →
    (c.ss s).matchRef = some m → c.findLoot m unique = some (box, it) → it.data = item.itemID →
    item.itemID ≠ itemMushroom → (c.ss s).kit.weapons ≠ none → (c.ss s).kit.Free item →
    ((c.handlePickup w s p).ss s).kit.Placed item it.unique

theorem placed_purchase (h : c.accepts w s p = some (item, qty)) (hm : item.itemID ≠ itemMushroom)
    (hws : (c.ss s).kit.weapons ≠ none) :
    ∃ unique, ((c.handleCSPurchase w s p).ss s).kit.Placed item unique := by
  have hkit := (hands_handleCSPurchase (w := w) (c := c) (s := s) (p := p)).eq
  rw [h] at hkit
  rw [hkit]
  have hcharged : ((c.ss s).kit.charged (c.setting w s) item qty).weapons = (c.ss s).kit.weapons := by
    unfold Kit.charged
    split <;> rfl
  change ∃ unique, (Kit.purchase w _ _ _ ((c.ss s).kit.charged (c.setting w s) item qty) item qty).Placed
    item unique
  generalize (c.ss s).kit.charged (c.setting w s) item qty = k at hcharged
  obtain ⟨ws, hk⟩ := Option.ne_none_iff_exists'.mp (hcharged ▸ hws)
  have harmor : ∀ (j : Kit) (data slot : Nat), (j.equipArmor data slot).weapons = j.weapons ∧
      (j.equipArmor data slot).equipment = j.equipment := by
    intro j data slot
    unfold Kit.equipArmor
    split
    · exact ⟨rfl, rfl⟩
    · split <;> exact ⟨rfl, rfl⟩
  have hbought : ∀ {j : Kit} {b : Purchased} {unique : Nat} {order slots : List Nat} {now : Int},
      k.addPurchasedItem w order slots item qty = (j, some b) → j.Placed item unique →
      (k.purchase w order slots now item qty).Placed item unique := by
    intro j b unique order slots now heq hj
    unfold Kit.purchase
    rw [if_neg hm, heq]
    dsimp only
    split
    · rename_i slot _
      obtain ⟨h1, h2⟩ := harmor j item.itemID slot
      unfold Kit.Placed Kit.weapon Kit.worn at hj ⊢
      rw [h1, h2]
      exact hj
    · exact hj
  cases hwpn : (placeItem item).isWeapon with
  | true =>
    refine ⟨k.nextUID, hbought (by rw [Kit.addPurchasedItem_weapon hwpn, Kit.addWeapon_some hk]) ?_⟩
    unfold Kit.Placed
    dsimp only
    rw [if_pos hwpn]
    refine ⟨_, ?_, AList.lookup_insert _, ?_⟩
    · unfold CsItemPlacement.Holds
      split
      · exact Kit.pickPrimarySlot_cases
      · rfl
    · unfold Kit.worn
      dsimp only
      rw [wornAt_slotted, if_pos rfl]
  | false =>
    have hplaced : ∀ {j : Kit} {unique : Nat}, j.equipment = k.wornAs item unique →
        j.Placed item unique := by
      intro j unique hj
      unfold Kit.Placed Kit.worn
      dsimp only
      rw [if_neg (by rw [hwpn]; exact Bool.false_ne_true), hj]
      intro hslot
      unfold Kit.wornAs
      rw [if_pos hslot, wornAt_slotted, if_pos rfl]
    cases hs : k.stackOf (c.setting w s).order item with
    | some stack =>
      exact ⟨stack.1, hbought (@Kit.addPurchasedItem_merge _ _ _ _ stack.1 stack.2 _ _ hwpn hs)
        (hplaced rfl)⟩
    | none => exact ⟨k.nextUID, hbought (Kit.addPurchasedItem_new hwpn hs) (hplaced rfl)⟩

theorem onGround_overridden {old : CsWeapon} (h : c.accepts w s p = some (item, qty))
    (hm : item.itemID ≠ itemMushroom) (hwpn : (placeItem item).isWeapon = true)
    (hmatch : (c.ss s).matchRef = some m) (hold : (c.ss s).kit.weapon (if (placeItem item).isPrimary
      then (c.ss s).kit.pickPrimarySlot else (placeItem item).slot) = some old)
    (hu : old.unique ≠ 0) : ∃ it, it.unique = old.unique ∧ it.data = old.data ∧
      (c.handleCSPurchase w s p).OnGround m it := by
  rcases handleCSPurchase_cases (w := w) (c := c) (s := s) (p := p) with
    ⟨hacc, -⟩ | ⟨m', item', qty', hacc, hmatch', -, -, -, -, hbuy⟩
  · exact absurd (hacc.symm.trans h) (by simp)
  obtain ⟨rfl, rfl⟩ := Prod.mk.inj (Option.some.inj (hacc.symm.trans h))
  obtain rfl : m' = m := Option.some.inj (hmatch'.symm.trans hmatch)
  have hweapons : ((c.charge w s item' qty').ss s).kit.weapons = (c.ss s).kit.weapons ∧
      ((c.charge w s item' qty').ss s).kit.itemOnHand = (c.ss s).kit.itemOnHand := by
    unfold charge
    split
    · exact ⟨rfl, rfl⟩
    · rw [onKit_kit, if_pos rfl]
      exact ⟨rfl, rfl⟩
  rw [hbuy]
  generalize c.charge w s item' qty' = d at hweapons
  obtain ⟨ws, hws⟩ : ∃ ws, (c.ss s).kit.weapons = some ws := by
    cases hn : (c.ss s).kit.weapons with
    | none => simp [Kit.weapon, hn] at hold
    | some ws => exact ⟨ws, rfl⟩
  have hpick : ((d.ss s).kit).pickPrimarySlot = ((c.ss s).kit).pickPrimarySlot := by
    unfold Kit.pickPrimarySlot Kit.weapon
    rw [hweapons.1, hweapons.2]
  have hlook : ws.lookup (if (placeItem item').isPrimary then (d.ss s).kit.pickPrimarySlot
      else (placeItem item').slot) = some old := by
    rw [hpick]
    simpa [Kit.weapon, hws] using hold
  refine ⟨Kit.weaponLoot w (d.ss s).player.cosmetics.slots old, rfl, rfl, ?_⟩
  unfold buy
  rw [if_neg hm, Kit.addPurchasedItem_weapon hwpn, Kit.addWeapon_some (hweapons.1.trans hws)]
  dsimp only
  rw [hlook]
  exact onGround_dropToGround fun h0 => hu h0.1

theorem onGround_dropped (hreq : parseDropReq p.payload = some it.unique) (hu : it.unique ≠ 0)
    (hit : (c.ss s).kit.clientUIDs.lookup it.unique = some it) (hm : (c.ss s).matchRef = some m) :
    (c.handleDrop s p).OnGround m it := by
  unfold handleDrop
  rw [hreq]
  dsimp only
  rw [if_neg hu, hit, hm]
  dsimp only
  exact (onGround_dropToGround fun h0 => hu h0.1).keeps keeps_broadcastEquipDiff (by decide)

theorem placed_picked {unique : Nat} {box : Container} (hreq : parsePickupReq p.payload = some unique)
    (hm : (c.ss s).matchRef = some m) (hloot : c.findLoot m unique = some (box, it))
    (hdata : it.data = item.itemID) (hws : (c.ss s).kit.weapons ≠ none) (hknown : item.Known) :
    ((c.handlePickup w s p).ss s).kit.Placed item it.unique := by
  unfold ShopItem.Known at hknown
  dsimp only at hknown
  unfold Kit.Placed
  dsimp only
  cases hwpn : (placeItem item).isWeapon with
  | false =>
    rw [hwpn] at hknown
    rw [if_neg Bool.false_ne_true]
    exact fun hslot => absurd hknown hslot
  | true =>
    rw [hwpn, if_pos rfl] at hknown
    obtain ⟨hammo, hclass⟩ := hknown
    have hasks : c.asksPickup s p = some (s, .install it (placeItem item).isPrimary) := by
      unfold asksPickup
      simp only [hreq, hm, hloot, Option.bind_some, Option.map_some, hdata, hclass]
    have hkit := (hands_handlePickup (w := w) (c := c) (s := s) (p := p)).eq
    rw [hasks] at hkit
    dsimp only at hkit
    obtain ⟨h1, h2⟩ := @Kit.installed (c.setting w s) _ it ((placeItem item).isPrimary) hws
    rw [if_pos rfl, hkit]
    refine ⟨_, ?_, h1.trans ?_, h2.trans ?_⟩
    · unfold CsItemPlacement.Holds Kit.pickupWeaponSlot
      cases hprim : (placeItem item).isPrimary with
      | true => exact Kit.pickPrimarySlot_cases
      | false =>
        rcases slot_of_weapon hwpn hprim with hslot | ⟨-, hzero⟩
        · exact hslot.symm
        · exact absurd hzero (weaponAmmo_pos hammo)
    · rw [hdata, hammo]
      rfl
    · rw [hdata]

-- A match where one item lies on the ground, and a player with bare hands in it.
def laid (it : InvItem) : Core :=
  { Core.start with
    ss := fun _ => { newSession with matchRef := some 0, kit := { noKit with weapons := some ∅ } }
    ms := fun _ => { zeroMatch with containers := (∅ : GoMap Container).insert 0 ⟨0, origin, [it]⟩ } }

-- cmd 111.
def pickupRequest (unique : Nat) : Packet := ⟨1, 111, 1, le32 0 ++ le32 unique⟩

theorem known_of_picks (h : LootAgrees w item) (hm : item.itemID ≠ itemMushroom) : item.Known := by
  have hreq : parsePickupReq (pickupRequest 1).payload = some 1 := by decide
  have hloot : (laid ⟨1, item.itemID, 1, 0⟩).findLoot 0 1 =
      some (⟨0, origin, [⟨1, item.itemID, 1, 0⟩]⟩, ⟨1, item.itemID, 1, 0⟩) := rfl
  have hplaced := h.picks (laid ⟨1, item.itemID, 1, 0⟩) 0 (pickupRequest 1) 0 1 _ _ hreq rfl hloot rfl
    hm (Option.some_ne_none _) fun _ => rfl
  have hkit := (hands_handlePickup (w := w) (c := laid ⟨1, item.itemID, 1, 0⟩) (s := 0)
    (p := pickupRequest 1)).eq
  have hasks : (laid ⟨1, item.itemID, 1, 0⟩).asksPickup 0 (pickupRequest 1) =
      some (0, (weaponClass item.itemID).elim (.take ⟨1, item.itemID, 1, 0⟩)
        (.install ⟨1, item.itemID, 1, 0⟩)) := by
    unfold asksPickup
    simp only [hreq, Option.bind_some, hloot, Option.map_some,
      show ((laid ⟨1, item.itemID, 1, 0⟩).ss 0).matchRef = some 0 from rfl]
    cases weaponClass item.itemID <;> rfl
  rw [hasks] at hkit
  unfold ShopItem.Known
  unfold Kit.Placed at hplaced
  dsimp only at hplaced ⊢
  cases hclass : weaponClass item.itemID with
  | none =>
    rw [hclass] at hkit
    dsimp only [Option.elim] at hkit
    rw [hkit] at hplaced
    cases hwpn : (placeItem item).isWeapon with
    | true =>
      rw [hwpn, if_pos rfl] at hplaced
      obtain ⟨slot, -, hnone, -⟩ := hplaced
      exact absurd hnone (by simp [Kit.apply, Kit.take, Kit.trackedByData, Kit.trackedWhere, laid,
        noKit, Kit.trackItem, Kit.weapon, visit])
    | false =>
      rw [hwpn, if_neg Bool.false_ne_true] at hplaced
      rw [if_neg Bool.false_ne_true]
      by_contra hslot
      exact absurd (hplaced hslot) (by simp [Kit.apply, Kit.take, Kit.trackedByData,
        Kit.trackedWhere, laid, noKit, Kit.trackItem, Kit.worn, wornAt, visit])
  | some isPrimary =>
    obtain ⟨ammo, hammo, hprim⟩ := Option.map_eq_some_iff.mp hclass
    rw [hclass] at hkit
    dsimp only [Option.elim] at hkit
    rw [hkit] at hplaced
    have hws : ((((laid ⟨1, item.itemID, 1, 0⟩).ss 0).kit).cleared ⟨1, item.itemID, 1, 0⟩
        isPrimary).weapons = some ∅ := by
      cases isPrimary <;> rfl
    rw [show Kit.apply _ _ (.install _ isPrimary) = Kit.install _ _ _ isPrimary from rfl,
      Kit.install_eq hws] at hplaced
    have hslot : (((laid ⟨1, item.itemID, 1, 0⟩).ss 0).kit).pickupWeaponSlot isPrimary =
        if isPrimary then slotPrimary1 else slotSecondary := by
      cases isPrimary <;> rfl
    have hes : ((((laid ⟨1, item.itemID, 1, 0⟩).ss 0).kit).cleared ⟨1, item.itemID, 1, 0⟩
        isPrimary).equipment = [] := by
      cases isPrimary <;> rfl
    dsimp only at hplaced
    rw [hslot, hes] at hplaced
    generalize hs0 : (if isPrimary then slotPrimary1 else slotSecondary) = slot₀ at hplaced
    cases hwpn : (placeItem item).isWeapon with
    | true =>
      rw [hwpn, if_pos rfl] at hplaced
      rw [if_pos rfl]
      obtain ⟨slot, hholds, hweapon, -⟩ := hplaced
      have hlook : ((∅ : GoMap CsWeapon).insert slot₀ ⟨slot₀, item.itemID, 1,
          (weaponAmmo item.itemID).getD 0⟩).lookup slot = some ⟨slot, item.itemID, 1,
            (placeItem item).ammo⟩ := hweapon
      have hsame : slot = slot₀ := by
        by_contra hne
        rw [AList.lookup_insert_ne hne] at hlook
        cases hlook
      subst hsame
      rw [AList.lookup_insert, hammo, Option.some.injEq, CsWeapon.mk.injEq] at hlook
      refine ⟨hammo.trans (congrArg some hlook.2.2.2), ?_⟩
      unfold CsItemPlacement.Holds at hholds
      cases hplace : (placeItem item).isPrimary with
      | true =>
        rw [hplace, if_pos rfl] at hholds
        cases isPrimary with
        | true => rfl
        | false =>
          rw [← hs0] at hholds
          exact absurd hholds (by decide)
      | false =>
        rw [hplace, if_neg Bool.false_ne_true] at hholds
        cases isPrimary with
        | false => rfl
        | true =>
          rw [hholds] at hs0
          rcases slot_of_weapon hwpn hplace with h | ⟨h, -⟩
          · exact absurd (hs0.trans h) (by decide)
          · exact absurd (hs0.trans h) (by decide)
    | false =>
      rw [hwpn, if_neg Bool.false_ne_true] at hplaced
      rw [if_neg Bool.false_ne_true]
      by_contra hown
      have hworn : wornAt (slotted [] slot₀ item.itemID 1) (placeItem item).slot =
          some ⟨(placeItem item).slot, item.itemID, 1⟩ := hplaced hown
      rw [wornAt_slotted] at hworn
      have hout := (slot_of_goods hwpn).resolve_left hown
      have hne : (placeItem item).slot ≠ slot₀ := by
        rintro h
        rw [h, ← hs0] at hout
        cases isPrimary <;> exact absurd hout (by decide)
      rw [if_neg hne] at hworn
      cases hworn

end Core

namespace Core

variable {w : World} {item : ShopItem}

-- Purchase and loot agree on an item just when the maps by DataID know it.
theorem loot_agrees_iff : LootAgrees w item ↔ (item.itemID ≠ itemMushroom → item.Known) := by
  constructor
  · exact fun h hm => known_of_picks h hm
  · intro hknown
    refine ⟨fun c s p qty hacc hm hws => placed_purchase hacc hm hws,
      fun c s p m bought qty old hacc hm hwpn hmatch hold hu hdata => ?_,
      fun c s p m it hreq hu hit _ hm => onGround_dropped hreq hu hit hm,
      fun c s p m unique box it hreq hm hloot hdata hne hws _ =>
        placed_picked hreq hm hloot hdata hws (hknown hne)⟩
    obtain ⟨it, h1, h2, h3⟩ := onGround_overridden hacc hm hwpn hmatch hold hu
    exact ⟨it, h1, h2.trans hdata, h3⟩

end Core

-- cmd 112.
def dropRequest (unique : Nat) : Packet := ⟨1, 112, 1, le32 unique ++ le32 0⟩

-- The host buys a gloo wall and drops it.
def wallDropped : List Event :=
  toShop ++ sends 8000000000 0 0 (buyRequest 1201 1) ++ sends 8100000000 0 0 (dropRequest 4)

-- The wall goes back into the inventory and not into slot 13.
theorem Server.wall_not_put_back : ¬ ∀ w item, Core.LootAgrees w item := by
  intro hall
  have hrun : ((wallDropped.foldlM (step shopWorld) start).map fun v =>
      ((v.core.ss 0).matchRef, (v.core.findLoot 0 4).map fun x => x.2, (v.core.ss 0).kit.weapons.isSome,
        (v.core.ss 0).kit.worn slotBuilding,
        ((v.core.handlePickup shopWorld 0 (Core.pickupRequest 4)).ss 0).kit.worn slotBuilding)) =
      some (some 0, some ⟨4, 1201, 1, 0⟩, true, none, none) := by
    decide +kernel
  obtain ⟨v, -, hd⟩ := Option.map_eq_some_iff.mp hrun
  simp only [Prod.mk.injEq] at hd
  obtain ⟨hm, hloot, hws, hfree, hafter⟩ := hd
  obtain ⟨⟨box, it⟩, hfound, hit⟩ := Option.map_eq_some_iff.mp hloot
  obtain rfl : it = ⟨4, 1201, 1, 0⟩ := hit
  have hplaced := (hall shopWorld ⟨1201, 100, 4, 2, false, "", 0⟩).picks v.core 0
    (Core.pickupRequest 4) 0 4 box _ (by decide) hm hfound rfl (by decide)
    (Option.isSome_iff_ne_none.mp hws) fun _ => hfree
  have hslot : ((v.core.handlePickup shopWorld 0 (Core.pickupRequest 4)).ss 0).kit.worn slotBuilding =
      some ⟨slotBuilding, 1201, 4⟩ := hplaced (by decide)
  rw [hafter] at hslot
  cases hslot

end MatchServer

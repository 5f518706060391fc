import Madoka.MatchServer.Inventory

namespace MatchServer

-- The entry of a slot: the first one, should there be several.
def wornAt (es : List Equipment) (slot : Nat) : Option Equipment :=
  es.find? fun e => e.slot == slot

def slotted (es : List Equipment) (slot data unique : Nat) : List Equipment :=
  if es.any fun e => e.slot == slot then
    es.replaceF fun e => if e.slot = slot then some ⟨slot, data, unique⟩ else none
  else es ++ [⟨slot, data, unique⟩]

def unslotted (es : List Equipment) (slot : Nat) : List Equipment :=
  es.filter fun e => decide (e.slot ≠ slot)

def slotsOf (es : List Equipment) : List Nat := es.map fun e => e.slot

variable {es : List Equipment} {e : Equipment} {slot slot' data unique : Nat}

theorem slot_of_wornAt (h : wornAt es slot = some e) : e.slot = slot := by
  simpa using List.find?_some h

theorem mem_of_wornAt (h : wornAt es slot = some e) : e ∈ es := List.mem_of_find?_eq_some h

theorem wornAt_eq_none : wornAt es slot = none ↔ slot ∉ slotsOf es := by
  simp only [wornAt, List.find?_eq_none, slotsOf, List.mem_map, beq_iff_eq, not_exists, not_and]

theorem wornAt_iff (h : (slotsOf es).Nodup) : wornAt es slot = some e ↔ e ∈ es ∧ e.slot = slot := by
  refine ⟨fun hw => ⟨mem_of_wornAt hw, slot_of_wornAt hw⟩, ?_⟩
  rintro ⟨he, rfl⟩
  induction es with
  | nil => exact absurd he List.not_mem_nil
  | cons x es ih =>
    rw [slotsOf, List.map_cons, List.nodup_cons] at h
    rcases List.mem_cons.mp he with rfl | he
    · simp [wornAt]
    · have hne : x.slot ≠ e.slot := fun heq => h.1 (heq ▸ List.mem_map_of_mem he)
      simpa [wornAt, hne] using ih h.2 he

theorem wornAt_slotted : wornAt (slotted es slot data unique) slot' =
    if slot' = slot then some ⟨slot, data, unique⟩ else wornAt es slot' := by
  induction es with
  | nil =>
    by_cases h : slot' = slot
    · subst h
      simp [slotted, wornAt]
    · have hne : slot ≠ slot' := fun heq => h heq.symm
      simp [slotted, wornAt, h, hne]
  | cons x es ih =>
    by_cases hx : x.slot = slot
    · subst hx
      by_cases h : slot' = x.slot
      · subst h
        simp [slotted, wornAt]
      · have hne : x.slot ≠ slot' := fun heq => h heq.symm
        simp [slotted, wornAt, h, hne]
    · have hcons : slotted (x :: es) slot data unique = x :: slotted es slot data unique := by
        unfold slotted
        by_cases hany : (es.any fun e => e.slot == slot) = true
        · rw [if_pos hany, if_pos (by simp [hany]), List.replaceF]
          simp [hx]
        · rw [if_neg hany, if_neg (by simpa [hx] using hany), List.cons_append]
      rw [hcons]
      by_cases hs : x.slot = slot'
      · subst hs
        simp [wornAt, hx]
      · simpa [wornAt, hs] using ih

theorem wornAt_unslotted : wornAt (unslotted es slot) slot' =
    if slot' = slot then none else wornAt es slot' := by
  unfold wornAt unslotted
  by_cases h : slot' = slot
  · subst h
    rw [if_pos rfl, List.find?_eq_none]
    intro e he
    simpa using (List.mem_filter.mp he).2
  · rw [if_neg h, List.find?_filter]
    congr 1
    funext e
    by_cases he : e.slot = slot'
    · simp [he, h]
    · simp [he]

theorem slotsOf_slotted : slotsOf (slotted es slot data unique) =
    if slot ∈ slotsOf es then slotsOf es else slotsOf es ++ [slot] := by
  induction es with
  | nil => simp [slotted, slotsOf]
  | cons x es ih =>
    by_cases hx : x.slot = slot
    · subst hx
      simp [slotted, slotsOf]
    · have hx' : slot ≠ x.slot := fun h => hx h.symm
      unfold slotted at ih ⊢
      by_cases hany : (es.any fun e => e.slot == slot) = true
      · have hmem : slot ∈ slotsOf es := by simpa [slotsOf] using hany
        rw [if_pos hany, if_pos hmem] at ih
        rw [if_pos (by simp [hany]), List.replaceF]
        simp only [hx, if_false, slotsOf, List.map_cons, List.mem_cons, hx', false_or]
        rw [if_pos (by simpa [slotsOf] using hmem)]
        simpa [slotsOf] using ih
      · have hmem : slot ∉ slotsOf es := by simpa [slotsOf] using hany
        rw [if_neg (by simpa [hx] using hany), if_neg]
        · simp [slotsOf]
        · simpa [slotsOf, hx'] using hmem

theorem nodup_slotted (h : (slotsOf es).Nodup) :
    (slotsOf (slotted es slot data unique)).Nodup := by
  rw [slotsOf_slotted]
  split
  · exact h
  · rename_i hmem
    exact List.nodup_append.mpr ⟨h, List.nodup_singleton slot, fun a ha b hb hab =>
      hmem (List.mem_singleton.mp hb ▸ hab ▸ ha)⟩

theorem nodup_unslotted (h : (slotsOf es).Nodup) : (slotsOf (unslotted es slot)).Nodup :=
  h.sublist (List.filter_sublist.map _)

namespace Kit

variable {w : World} {order slots : List Nat} {k k' : Kit} {u : Nat} {it : InvItem}

def worn (k : Kit) (slot : Nat) : Option Equipment := wornAt k.equipment slot

theorem setEquip_eq : k.setEquip slot data unique =
    { k with equipment := slotted k.equipment slot data unique } := by
  unfold setEquip slotted
  split <;> rfl

theorem clearEquip_eq : k.clearEquip slot = { k with equipment := unslotted k.equipment slot } := rfl

theorem trackedWhere_some {p : Nat → InvItem → Bool} (h : k.trackedWhere order p = some (u, it)) :
    k.clientUIDs.lookup u = some it ∧ p u it = true := by
  obtain ⟨x, _, hx⟩ := List.exists_of_findSome?_eq_some h
  obtain ⟨y, hy, hif⟩ := Option.bind_eq_some_iff.mp hx
  rw [Option.ite_none_right_eq_some, Option.some.injEq, Prod.mk.injEq] at hif
  obtain ⟨hp, rfl, rfl⟩ := hif
  exact ⟨hy, hp⟩

theorem mem_visit {keys : List Nat} {x : Nat} : x ∈ visit order keys ↔ x ∈ keys := by
  simp only [visit, List.mem_append, List.mem_filter, List.mem_dedup, decide_eq_true_eq]
  tauto

theorem trackedWhere_none {p : Nat → InvItem → Bool} (h : k.trackedWhere order p = none) (u : Nat)
    (it : InvItem) (hu : k.clientUIDs.lookup u = some it) : p u it = false := by
  have hmem : u ∈ visit order k.clientUIDs.keys :=
    mem_visit.mpr (AList.lookup_isSome.mp (by rw [hu]; rfl))
  have hx := List.findSome?_eq_none_iff.mp h u hmem
  rw [hu, Option.bind_some, ite_eq_right_iff] at hx
  cases hp : p u it with
  | false => rfl
  | true => exact absurd (hx hp) (by simp)

theorem trackedByData_some {skip : Nat} (h : k.trackedByData order data skip = some (u, it)) :
    k.clientUIDs.lookup u = some it ∧ u ≠ skip ∧ it.data = data := by
  obtain ⟨hu, hp⟩ := trackedWhere_some h
  simp only [Bool.and_eq_true, decide_eq_true_eq, beq_iff_eq] at hp
  exact ⟨hu, hp⟩

-- The unique after the gun's own, which its spare ammo takes.
def ammoUID (k : Kit) : Nat := (k.nextUID + 1) % 2 ^ 32

def gunItem (w : World) (slots : List Nat) (k : Kit) (item : ShopItem) : InvItem :=
  ⟨k.nextUID, item.itemID, 1, w.loadedMagFor item.itemID (w.skinForWeapon item.itemID slots)⟩

def ammoItem (k : Kit) (ammo : Nat) : InvItem := ⟨k.ammoUID, ammo, ammoReserveTotal ammo, 0⟩

-- The items tracked once the gun and its ammo are.
def stocked (w : World) (slots : List Nat) (k : Kit) (item : ShopItem) (ammo : Nat) : GoMap InvItem :=
  let gun := k.clientUIDs.insert k.nextUID (k.gunItem w slots item)
  if ammo ≠ 0 then gun.insert k.ammoUID (k.ammoItem ammo) else gun

theorem addWeapon_some {item : ShopItem} {qty ammo : Nat} {ws : GoMap CsWeapon}
    (h : k.weapons = some ws) : k.addWeapon w slots item qty slot ammo =
      let base := if ammo ≠ 0 then k.ammoUID else k.nextUID
      ({ k with
        uidCounter := (w.weaponAttachments base k.nextUID item.itemID).2
        clientUIDs :=
          match ws.lookup slot with
          | some old => (k.stocked w slots item ammo).erase old.unique
          | none => k.stocked w slots item ammo
        weapons := some (ws.insert slot ⟨slot, item.itemID, k.nextUID, ammo⟩)
        equipment := slotted k.equipment slot item.itemID k.nextUID
        itemOnHand := k.nextUID },
      some ⟨{ k.gunItem w slots item with count := qty } :: if ammo ≠ 0 then [k.ammoItem ammo] else [],
        (w.weaponAttachments base k.nextUID item.itemID).1,
        ((ws.lookup slot).map (weaponLoot w slots)).toList⟩) := by
  unfold addWeapon stocked gunItem ammoItem ammoUID
  by_cases ha : ammo = 0
  · cases hold : ws.lookup slot with
    | none => simp [ha, h, hold, weapon, attachItems, putWeapon, setEquip_eq, trackItem, withUID,
        nextUID]
    | some old => simp [ha, h, hold, weapon, attachItems, putWeapon, setEquip_eq, trackItem,
        withUID, untrack, nextUID]
  · cases hold : ws.lookup slot with
    | none => simp [ha, h, hold, weapon, giveAmmoStacks, attachItems, putWeapon, setEquip_eq,
        trackItem, withUID, nextUID]
    | some old => simp [ha, h, hold, weapon, giveAmmoStacks, attachItems, putWeapon, setEquip_eq,
        trackItem, withUID, untrack, nextUID]

theorem addWeapon_none {item : ShopItem} {qty ammo : Nat} (h : k.weapons = none) :
    (k.addWeapon w slots item qty slot ammo).2 = none ∧
      (k.addWeapon w slots item qty slot ammo).1.coins = k.coins := by
  unfold addWeapon
  by_cases ha : ammo = 0
  · simp [ha, h, weapon, attachItems, putWeapon, trackItem, withUID]
  · simp [ha, h, weapon, giveAmmoStacks, attachItems, putWeapon, trackItem, withUID]

theorem addWeapon_nil {item : ShopItem} {qty ammo : Nat} (h : k.weapons = none) :
    (k.addWeapon w slots item qty slot ammo).1 =
      let base := if ammo ≠ 0 then k.ammoUID else k.nextUID
      { k with
        uidCounter := (w.weaponAttachments base k.nextUID item.itemID).2
        clientUIDs := k.stocked w slots item ammo
        itemOnHand := k.nextUID } := by
  unfold addWeapon stocked gunItem ammoItem ammoUID
  by_cases ha : ammo = 0
  · simp [ha, h, weapon, attachItems, putWeapon, trackItem, withUID, nextUID]
  · simp [ha, h, weapon, giveAmmoStacks, attachItems, putWeapon, trackItem, withUID, nextUID]

def stackOf (order : List Nat) (k : Kit) (item : ShopItem) : Option (Nat × InvItem) :=
  if (placeItem item).isArmor then none else k.trackedByData order item.itemID 0

def grown (it : InvItem) (qty : Nat) : InvItem := { it with count := (it.count + qty) % 2 ^ 32 }

def newPiece (k : Kit) (item : ShopItem) (qty : Nat) : InvItem :=
  ⟨k.nextUID, item.itemID, qty, if (placeItem item).isArmor then equipMaxDur item.itemID else 0⟩

def wornAs (k : Kit) (item : ShopItem) (unique : Nat) : List Equipment :=
  if (placeItem item).slot ≠ slotNone then
    slotted k.equipment (placeItem item).slot item.itemID unique
  else k.equipment

theorem addPurchasedItem_weapon {item : ShopItem} {qty : Nat}
    (h : (placeItem item).isWeapon = true) : k.addPurchasedItem w order slots item qty =
      k.addWeapon w slots item qty
        (if (placeItem item).isPrimary then k.pickPrimarySlot else (placeItem item).slot)
        (placeItem item).ammo := by
  unfold addPurchasedItem
  rw [if_pos h]

theorem addPurchasedItem_merge {item : ShopItem} {qty : Nat}
    (h : (placeItem item).isWeapon = false) (hs : k.stackOf order item = some (u, it)) :
    k.addPurchasedItem w order slots item qty =
      ({ k with
        uidCounter := k.nextUID
        clientUIDs := k.clientUIDs.insert u (grown it qty)
        equipment := k.wornAs item u },
      some ⟨[⟨u, item.itemID, (grown it qty).count, it.runtime⟩], [], []⟩) := by
  unfold stackOf at hs
  rw [Option.ite_none_left_eq_some] at hs
  obtain ⟨harmor, ht⟩ := hs
  have ht' : k.withUID.trackedByData order item.itemID 0 = some (u, it) := ht
  unfold addPurchasedItem wornAs
  simp only [h, ht', harmor, Bool.false_eq_true, if_false]
  by_cases hslot : (placeItem item).slot = slotNone
  · simp [hslot, grown, withUID, nextUID]
  · simp [hslot, grown, setEquip_eq, withUID, nextUID]

theorem addPurchasedItem_new {item : ShopItem} {qty : Nat}
    (h : (placeItem item).isWeapon = false) (hs : k.stackOf order item = none) :
    k.addPurchasedItem w order slots item qty =
      ({ k with
        uidCounter := k.nextUID
        clientUIDs := k.clientUIDs.insert k.nextUID (k.newPiece item qty)
        equipment := k.wornAs item k.nextUID },
      some ⟨[k.newPiece item qty], [], []⟩) := by
  unfold stackOf at hs
  rw [ite_eq_left_iff] at hs
  have hsame : k.withUID.trackedByData order item.itemID 0 =
      k.trackedByData order item.itemID 0 := rfl
  unfold addPurchasedItem wornAs
  cases ht : k.trackedByData order item.itemID 0 with
  | none =>
    simp only [h, hsame, ht, Bool.false_eq_true, if_false]
    by_cases hslot : (placeItem item).slot = slotNone
    · simp [hslot, trackItem, withUID, nextUID, newPiece]
    · simp [hslot, setEquip_eq, trackItem, withUID, nextUID, newPiece]
  | some x =>
    have harmor : (placeItem item).isArmor = true := by
      by_contra ha
      exact absurd ((hs ha).symm.trans ht) (by simp)
    simp only [h, hsame, ht, harmor, Bool.false_eq_true, if_false, if_true]
    by_cases hslot : (placeItem item).slot = slotNone
    · simp [hslot, harmor, trackItem, withUID, nextUID, newPiece]
    · simp [hslot, harmor, setEquip_eq, trackItem, withUID, nextUID, newPiece]

def wiped (k : Kit) : Kit :=
  { k with
    uidCounter := k.ammoUID
    equipment := [⟨slotMelee, 0, 0⟩]
    weapons := some ∅
    clientUIDs := (∅ : GoMap InvItem).insert k.ammoUID ⟨k.ammoUID, medkitData, 2, 2⟩
    itemOnHand := 0
    vestData := 0
    vestDur := 0
    helmetData := 0
    helmetDur := 0 }

-- The unique of the pistol ammo, past the attachments of the pistol.
def reserveUID (w : World) (k : Kit) : Nat :=
  ((w.weaponAttachments k.ammoUID k.nextUID uspData).2 + 1) % 2 ^ 32

def armed (w : World) (slots : List Nat) (k : Kit) : Kit :=
  { k.wiped with
    uidCounter := k.reserveUID w
    equipment := [⟨slotMelee, 0, 0⟩, ⟨slotSecondary, uspData, k.nextUID⟩]
    weapons := some ((∅ : GoMap CsWeapon).insert slotSecondary
      ⟨slotSecondary, uspData, k.nextUID, pistolAmmo⟩)
    clientUIDs := (k.wiped.clientUIDs.insert k.nextUID
      ⟨k.nextUID, uspData, 1, w.loadedMagFor uspData (w.skinForWeapon uspData slots)⟩).insert
      (k.reserveUID w) ⟨k.reserveUID w, pistolAmmo, ammoReserveTotal pistolAmmo, 0⟩
    itemOnHand := k.nextUID }

def glooed (k : Kit) : Kit :=
  { k with
    uidCounter := k.nextUID
    equipment := k.equipment ++ [⟨slotBuilding, glooDataID, k.nextUID⟩]
    clientUIDs := k.clientUIDs.insert k.nextUID ⟨k.nextUID, glooDataID, 5, 0⟩ }

theorem baseLoadout_eq {noLoadout infiniteGloo : Bool} :
    (k.baseLoadout w slots noLoadout infiniteGloo).1 =
      if infiniteGloo then (if noLoadout then k.wiped else k.armed w slots).glooed
      else if noLoadout then k.wiped else k.armed w slots := by
  cases noLoadout
  · cases infiniteGloo
    · simp [baseLoadout, trackItem, putWeapon, attachItems, giveAmmoStacks, withUID, nextUID, ammoUID,
        wiped, armed, reserveUID, clearArmor]
    · simp [baseLoadout, trackItem, putWeapon, attachItems, giveAmmoStacks, withUID, nextUID, ammoUID,
        wiped, armed, reserveUID, clearArmor, glooed]
  · cases infiniteGloo
    · simp [baseLoadout, trackItem, withUID, nextUID, ammoUID, wiped, clearArmor]
    · simp [baseLoadout, trackItem, withUID, nextUID, ammoUID, wiped, clearArmor, glooed]

def medkitUID (order : List Nat) (k : Kit) : Nat :=
  ((k.trackedWhere order fun _ it => it.data == medkitData).map fun e => e.1).getD 0

theorem reissued_eq : (k.reissued w order slots).1 =
    if k.medkitUID order = 0 then k.withUID.trackItem ⟨k.nextUID, medkitData, 2, 2⟩
    else k.trackItem ⟨k.medkitUID order, medkitData, 2, 2⟩ := by
  unfold reissued medkitUID
  dsimp only
  generalize ((k.trackedWhere order fun _ it => it.data == medkitData).map fun e => e.1).getD 0 = found
  by_cases h : found = 0
  · rw [if_pos h, if_pos h]
  · rw [if_neg h, if_neg h]

end Kit

end MatchServer

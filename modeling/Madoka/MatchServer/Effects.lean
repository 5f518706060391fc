import Madoka.MatchServer.Loot

namespace MatchServer

namespace Kit

variable {x : Setting} {k : Kit} {a b s slot unique : Nat} {order : List Nat} {wp : CsWeapon}
  {it : InvItem}

theorem weapon_eraseWeapon : (k.eraseWeapon a).weapon s = if s = a then none else k.weapon s := by
  unfold eraseWeapon weapon
  cases k.weapons with
  | none => simp
  | some ws =>
    simp only [Option.map_some, Option.bind_some]
    split
    · rename_i h
      rw [h, AList.lookup_erase]
    · rename_i h
      rw [AList.lookup_erase_ne h]

theorem weapon_putWeapon (h : k.weapons ≠ none) :
    ((k.putWeapon a wp).getD k).weapon s = if s = a then some wp else k.weapon s := by
  obtain ⟨ws, hws⟩ := Option.ne_none_iff_exists'.mp h
  unfold putWeapon weapon
  simp only [hws, Option.map_some, Option.getD_some, Option.bind_some]
  split
  · rename_i h
    rw [h, AList.lookup_insert]
  · rename_i h
    rw [AList.lookup_insert_ne h]

theorem eraseWeapon_none (h : k.weapons = none) : k.eraseWeapon a = k := by
  obtain ⟨_, _, _, _, _, _, _, ws, _, _, _, _, _, _, _⟩ := k
  obtain rfl : ws = none := h
  rfl

theorem weapons_eraseWeapon : (k.eraseWeapon a).weapons ≠ none ↔ k.weapons ≠ none := by
  simp [eraseWeapon]

theorem weapons_putWeapon : ((k.putWeapon a wp).getD k).weapons ≠ none ↔ k.weapons ≠ none := by
  unfold putWeapon
  cases h : k.weapons with
  | none => simp [h]
  | some ws => simp

theorem weapon_of_none (h : k.weapons = none) : k.weapon s = none := by
  simp [weapon, h]

theorem weapon_reslot {o : Option CsWeapon} (h : k.weapons ≠ none) :
    (match o with
      | some wp => (k.putWeapon a { wp with slot := a }).getD k
      | none => k.eraseWeapon a).weapon s =
      if s = a then o.map fun wp => { wp with slot := a } else k.weapon s := by
  cases o with
  | none => exact weapon_eraseWeapon
  | some wp => exact weapon_putWeapon h

theorem weapon_swapWeaponSlots : (k.swapWeaponSlots a b).weapon s =
    if s = b then (k.weapon a).map fun wp => { wp with slot := b }
    else if s = a then (k.weapon b).map fun wp => { wp with slot := a }
    else k.weapon s := by
  by_cases h : k.weapons = none
  · have hsame : k.swapWeaponSlots a b = k := by
      unfold swapWeaponSlots
      simp only [weapon_of_none h, eraseWeapon_none h]
    simp [hsame, weapon_of_none h]
  · have hfirst : (match k.weapon b with
        | some wp => (k.putWeapon a { wp with slot := a }).getD k
        | none => k.eraseWeapon a).weapons ≠ none := by
      cases k.weapon b with
      | none => exact weapons_eraseWeapon.mpr h
      | some wp => exact weapons_putWeapon.mpr h
    unfold swapWeaponSlots
    dsimp only
    refine (weapon_reslot hfirst).trans ?_
    split
    · rfl
    · exact weapon_reslot h

theorem weapon_moveWeaponSlot : (k.moveWeaponSlot a b).weapon s =
    if a = slotNone then k.weapon s
    else
      match k.weapon a with
      | some wp => if s = b then some { wp with slot := b } else if s = a then none else k.weapon s
      | none => k.weapon s := by
  unfold moveWeaponSlot
  split
  · rfl
  · cases hwp : k.weapon a with
    | none => rfl
    | some wp =>
      have h : k.weapons ≠ none := fun hn => by
        rw [weapon_of_none hn] at hwp
        cases hwp
      dsimp only
      rw [weapon_putWeapon (weapons_eraseWeapon.mpr h), weapon_eraseWeapon]

theorem putWeapon_eq : ∃ ws, (k.putWeapon a wp).getD k = { k with weapons := ws } := by
  unfold putWeapon
  cases h : k.weapons with
  | none => exact ⟨k.weapons, rfl⟩
  | some ws => exact ⟨_, rfl⟩

theorem swapWeaponSlots_eq : ∃ ws, k.swapWeaponSlots a b = { k with weapons := ws } := by
  unfold swapWeaponSlots
  dsimp only
  cases k.weapon b with
  | none =>
    cases k.weapon a with
    | none => exact ⟨_, rfl⟩
    | some wp => exact putWeapon_eq (k := k.eraseWeapon a)
  | some wp =>
    obtain ⟨ws, hws⟩ := @putWeapon_eq k a ({ wp with slot := a })
    dsimp only
    rw [hws]
    cases k.weapon a with
    | none => exact ⟨_, rfl⟩
    | some wp => exact putWeapon_eq (k := { k with weapons := ws })

theorem moveWeaponSlot_eq : ∃ ws, k.moveWeaponSlot a b = { k with weapons := ws } := by
  unfold moveWeaponSlot
  split
  · exact ⟨k.weapons, rfl⟩
  · cases k.weapon a with
    | none => exact ⟨k.weapons, rfl⟩
    | some wp =>
      obtain ⟨ws, hws⟩ := @putWeapon_eq (k.eraseWeapon a) b ({ wp with slot := b })
      exact ⟨ws, hws⟩

-- The equipment after cmd 119 moved an item into a slot, and its occupant into the item's.
def reslotted (es : List Equipment) (dst unique data oldSlot : Nat) (occupant : Option Equipment) :
    List Equipment :=
  match occupant with
  | some e =>
    if oldSlot ≠ slotNone then slotted (slotted es oldSlot e.data e.unique) dst data unique
    else slotted es dst data unique
  | none => slotted (if oldSlot ≠ slotNone then unslotted es oldSlot else es) dst data unique

theorem moveItem_eq {dst data oldSlot : Nat} {occupant : Option Equipment} :
    ∃ ws, Core.moveItem k dst unique data oldSlot occupant = { k with
      weapons := ws
      equipment := reslotted k.equipment dst unique data oldSlot occupant } := by
  unfold Core.moveItem reslotted
  cases occupant with
  | some e =>
    dsimp only
    split
    · rw [setEquip_eq, setEquip_eq]
      exact swapWeaponSlots_eq
    · rw [setEquip_eq]
      exact moveWeaponSlot_eq
  | none =>
    dsimp only
    split
    · rw [setEquip_eq, clearEquip_eq]
      exact moveWeaponSlot_eq
    · rw [setEquip_eq]
      exact moveWeaponSlot_eq

theorem wornAt_reslotted {es : List Equipment} {dst data oldSlot : Nat} {occupant : Option Equipment} :
    wornAt (reslotted es dst unique data oldSlot occupant) s =
      if s = dst then some ⟨dst, data, unique⟩
      else if s = oldSlot ∧ oldSlot ≠ slotNone then
        occupant.map fun e => ⟨oldSlot, e.data, e.unique⟩
      else wornAt es s := by
  unfold reslotted
  cases occupant with
  | some e =>
    dsimp only
    by_cases ho : oldSlot = slotNone
    · rw [if_neg (not_not.mpr ho), wornAt_slotted]
      simp [ho]
    · rw [if_pos ho, wornAt_slotted, wornAt_slotted]
      simp [ho]
  | none =>
    dsimp only
    rw [wornAt_slotted]
    by_cases ho : oldSlot = slotNone
    · rw [if_neg (not_not.mpr ho)]
      simp [ho]
    · rw [if_pos ho, wornAt_unslotted]
      simp [ho]

theorem nodup_reslotted {es : List Equipment} {dst data oldSlot : Nat} {occupant : Option Equipment}
    (h : (slotsOf es).Nodup) :
    (slotsOf (reslotted es dst unique data oldSlot occupant)).Nodup := by
  unfold reslotted
  cases occupant with
  | some e =>
    dsimp only
    split
    · exact nodup_slotted (nodup_slotted h)
    · exact nodup_slotted h
  | none =>
    dsimp only
    split
    · exact nodup_slotted (nodup_unslotted h)
    · exact nodup_slotted h

theorem weapon_moveItem {dst data oldSlot : Nat} {occupant : Option Equipment} :
    (Core.moveItem k dst unique data oldSlot occupant).weapon s =
      if oldSlot = slotNone then
        if occupant.isSome ∧ s = dst then none else k.weapon s
      else if s = dst ∧ (occupant.isSome ∨ (k.weapon oldSlot).isSome) then
        (k.weapon oldSlot).map fun wp => { wp with slot := dst }
      else if s = oldSlot ∧ (occupant.isSome ∨ (k.weapon oldSlot).isSome) then
        if occupant.isSome then (k.weapon dst).map fun wp => { wp with slot := oldSlot } else none
      else k.weapon s := by
  have hset : ∀ (j : Kit) (s slot data unique : Nat),
      (j.setEquip slot data unique).weapon s = j.weapon s := by
    intro j s slot data unique
    rw [setEquip_eq]
    rfl
  unfold Core.moveItem
  cases occupant with
  | some e =>
    dsimp only
    by_cases ho : oldSlot = slotNone
    · rw [if_neg (not_not.mpr ho), weapon_moveWeaponSlot, if_pos ho, if_pos ho, hset,
        weapon_eraseWeapon]
      simp
    · rw [if_pos ho, if_neg ho, weapon_swapWeaponSlots]
      simp only [hset]
      simp
  | none =>
    dsimp only
    by_cases ho : oldSlot = slotNone
    · rw [if_neg (not_not.mpr ho), weapon_moveWeaponSlot, if_pos ho, if_pos ho, hset]
      simp
    · rw [if_pos ho, if_neg ho, weapon_moveWeaponSlot, if_neg ho, hset]
      have hclear : ∀ s, (k.clearEquip oldSlot).weapon s = k.weapon s := fun _ => rfl
      simp only [hset, hclear]
      cases k.weapon oldSlot <;> simp

def leaves (k : Kit) (order : List Nat) (unique : Nat) : Option Nat :=
  match k.findLoadoutWeapon order unique with
  | some slot => some slot
  | none => (k.equipSlotOf unique).map fun e => e.slot

def vacated (es : List Equipment) : Option Nat → List Equipment
  | some slot => unslotted es slot
  | none => es

theorem wornAt_vacated {es : List Equipment} {o : Option Nat} :
    wornAt (vacated es o) s = if o = some s then none else wornAt es s := by
  cases o with
  | none => simp [vacated]
  | some a =>
    unfold vacated
    dsimp only
    rw [wornAt_unslotted]
    by_cases h : s = a
    · rw [if_pos h, if_pos (by rw [h])]
    · rw [if_neg h, if_neg (by simpa using fun heq => h heq.symm)]

theorem nodup_vacated {es : List Equipment} {o : Option Nat} (h : (slotsOf es).Nodup) :
    (slotsOf (vacated es o)).Nodup := by
  cases o with
  | none => exact h
  | some slot => exact nodup_unslotted h

theorem findLoadoutWeapon_some (h : k.findLoadoutWeapon order unique = some slot) :
    ∃ wp, k.weapon slot = some wp ∧ wp.unique = unique := by
  have hp := List.find?_some h
  cases hw : k.weapon slot with
  | none => simp [hw] at hp
  | some wp => exact ⟨wp, rfl, by simpa [hw] using hp⟩

theorem findLoadoutWeapon_none (h : k.findLoadoutWeapon order unique = none) (s : Nat) (wp : CsWeapon)
    (hw : k.weapon s = some wp) : wp.unique ≠ unique := by
  have hmem : s ∈ visit order (k.weapons.getD ∅).keys := by
    refine mem_visit.mpr (AList.lookup_isSome.mp ?_)
    cases hws : k.weapons with
    | none => simp [weapon, hws] at hw
    | some ws =>
      have hl : ws.lookup s = some wp := by simpa [weapon, hws] using hw
      simp [hl]
  have hx := List.find?_eq_none.mp h s hmem
  rw [hw] at hx
  simpa using hx

theorem letGo_eq : (if k.itemOnHand = unique then { k with itemOnHand := 0 } else k) =
    { k with itemOnHand := if k.itemOnHand = unique then 0 else k.itemOnHand } := by
  split <;> rfl

theorem removeTracked_eq : k.removeTracked order unique = { k with
    weapons :=
      match k.findLoadoutWeapon order unique with
      | some slot => k.weapons.map fun ws => ws.erase slot
      | none => k.weapons
    equipment := vacated k.equipment (k.leaves order unique)
    clientUIDs := k.clientUIDs.erase unique
    itemOnHand := if k.itemOnHand = unique then 0 else k.itemOnHand } := by
  unfold removeTracked leaves vacated
  cases k.findLoadoutWeapon order unique with
  | some slot =>
    dsimp only
    rw [letGo_eq]
    rfl
  | none =>
    cases k.equipSlotOf unique with
    | some e =>
      dsimp only
      rw [letGo_eq]
      rfl
    | none =>
      dsimp only
      rw [letGo_eq]
      rfl

theorem weapon_removeTracked : (k.removeTracked order unique).weapon s =
    if k.findLoadoutWeapon order unique = some s then none else k.weapon s := by
  rw [removeTracked_eq]
  cases h : k.findLoadoutWeapon order unique with
  | none =>
    simp only [reduceCtorEq, if_false]
    rfl
  | some slot =>
    have he : (k.eraseWeapon slot).weapon s = if s = slot then none else k.weapon s :=
      weapon_eraseWeapon
    simp only [Option.some.injEq]
    by_cases hs : slot = s
    · rw [if_pos hs]
      rw [if_pos hs.symm] at he
      exact he
    · rw [if_neg hs]
      rw [if_neg fun heq => hs heq.symm] at he
      exact he

theorem removeWeapon_eq : k.removeWeapon slot wp = { k with
    weapons := k.weapons.map fun ws => ws.erase slot
    equipment := unslotted k.equipment slot
    clientUIDs := k.clientUIDs.erase wp.unique
    itemOnHand := if k.itemOnHand = wp.unique then 0 else k.itemOnHand } := by
  unfold removeWeapon
  dsimp only
  rw [letGo_eq]
  rfl

theorem cleared_cases {isPrimary : Bool} : k.cleared it isPrimary = k ∨
    ∃ old, k.weapon (k.pickupWeaponSlot isPrimary) = some old ∧ old.unique ≠ it.unique ∧
      k.cleared it isPrimary = k.removeWeapon (k.pickupWeaponSlot isPrimary) old := by
  unfold cleared
  dsimp only
  cases hw : (k.weapon (k.pickupWeaponSlot isPrimary)).filter
      fun old => decide (old.unique ≠ it.unique) with
  | none => exact Or.inl rfl
  | some old =>
    obtain ⟨h1, h2⟩ := Option.filter_eq_some_iff.mp hw
    exact Or.inr ⟨old, h1, of_decide_eq_true h2, rfl⟩

theorem install_nil {isPrimary : Bool} (h : k.weapons = none) : k.install x it isPrimary = k := by
  have hclear : k.cleared it isPrimary = k := by
    rcases @cleared_cases k it isPrimary with hc | ⟨old, hw, -⟩
    · exact hc
    · rw [weapon_of_none h] at hw
      cases hw
  unfold install
  dsimp only
  rw [hclear, putWeapon, h]
  rfl

theorem glooCount_cases : (k.glooCount order).2 = 0 ∨
    ∃ it, k.clientUIDs.lookup (k.glooCount order).1 = some it ∧ it.data = glooDataID ∧
      it.count = (k.glooCount order).2 := by
  unfold glooCount
  dsimp only
  split
  · rename_i found hfound
    obtain ⟨e, -, he⟩ := List.exists_of_findSome?_eq_some hfound
    split at he
    · split at he
      · rename_i it hit
        rw [Option.ite_none_right_eq_some, Option.some.injEq] at he
        obtain ⟨hdata, rfl⟩ := he
        exact Or.inr ⟨it, hit, hdata, rfl⟩
      · cases he
    · cases he
  · split
    · rename_i u it hfound
      obtain ⟨hit, hdata⟩ := trackedWhere_some hfound
      exact Or.inr ⟨it, hit, by simpa using hdata, rfl⟩
    · exact Or.inl rfl

theorem medkitUID_some (h : k.medkitUID order ≠ 0) :
    ∃ it, k.clientUIDs.lookup (k.medkitUID order) = some it ∧ it.data = medkitData := by
  unfold medkitUID at h ⊢
  cases ht : k.trackedWhere order fun _ it => it.data == medkitData with
  | none => simp [ht] at h
  | some e =>
    obtain ⟨hit, hdata⟩ := @trackedWhere_some _ _ e.1 e.2 _ ht
    exact ⟨e.2, hit, by simpa using hdata⟩

theorem target_cases {oldSlot data : Nat} (h : k.target unique = some (oldSlot, data)) :
    (∃ e, k.equipSlotOf unique = some e ∧ e.slot = oldSlot ∧ e.data = data) ∨
    (k.equipSlotOf unique = none ∧ oldSlot = slotNone ∧
      ∃ it, k.clientUIDs.lookup unique = some it ∧ it.data = data) := by
  unfold target at h
  split at h
  · rename_i e he
    obtain ⟨rfl, rfl⟩ := Prod.mk.inj (Option.some.inj h)
    exact Or.inl ⟨e, he, rfl, rfl⟩
  · rename_i he
    obtain ⟨it, hit, heq⟩ := Option.map_eq_some_iff.mp h
    obtain ⟨rfl, rfl⟩ := Prod.mk.inj heq
    exact Or.inr ⟨he, rfl, it, hit, rfl⟩

theorem equipSlotOf_some {e : Equipment} (h : k.equipSlotOf unique = some e) :
    e ∈ k.equipment ∧ e.unique = unique :=
  ⟨List.mem_of_find?_eq_some h, by simpa using List.find?_some h⟩

theorem equipSlotOf_none (h : k.equipSlotOf unique = none) (e : Equipment) (he : e ∈ k.equipment) :
    e.unique ≠ unique := by
  have hx := List.find?_eq_none.mp h e he
  simpa using hx

theorem charged_eq {item : ShopItem} {qty : Nat} :
    ∃ coins, k.charged x item qty = { k with coins := coins } := by
  unfold charged
  split
  · exact ⟨k.coins, rfl⟩
  · exact ⟨_, rfl⟩

theorem purchase_mushroom {item : ShopItem} {qty : Nat} {now : Int} {w : World} {slots : List Nat}
    (h : item.itemID = itemMushroom) : k.purchase w order slots now item qty = k.grantMushroom now :=
  if_pos h

theorem purchase_goods {item : ShopItem} {qty : Nat} {now : Int} {w : World} {slots : List Nat}
    (h : item.itemID ≠ itemMushroom) (ha : armorSlot item.itemID = none) :
    k.purchase w order slots now item qty = (k.addPurchasedItem w order slots item qty).1 := by
  unfold purchase
  rw [if_neg h]
  split
  · rename_i heq
    rw [heq]
  · rename_i heq
    rw [ha, heq]

-- The uniques that a loadout mints.
def minted (k : Kit) (w : World) (slots : List Nat) (noLoadout infiniteGloo : Bool) : List Nat :=
  (k.ammoUID :: if noLoadout then [] else [k.nextUID, k.reserveUID w]) ++
    if infiniteGloo then [(if noLoadout then k.wiped else k.armed w slots).nextUID] else []

def hitSlot (bodyPart : Nat) : Option Nat :=
  if bodyPart = bodyHead then some slotHelmet
  else if bodyPart = bodyChest then some slotVest
  else none

def gunMag (w : World) (slots : List Nat) : Nat :=
  w.loadedMagFor uspData (w.skinForWeapon uspData slots)

def based (w : World) (slots : List Nat) (k : Kit) (noLoadout : Bool) : Kit :=
  if noLoadout then k.wiped else k.armed w slots

theorem minted_eq {w : World} {slots : List Nat} {noLoadout infiniteGloo : Bool} :
    k.minted w slots noLoadout infiniteGloo = k.minted w slots noLoadout false ++
      if infiniteGloo then [(k.based w slots noLoadout).nextUID] else [] := by
  simp [minted, based]

theorem lookup_wiped {u : Nat} (h : u ≠ k.ammoUID) : k.wiped.clientUIDs.lookup u = none := by
  unfold wiped
  rw [AList.lookup_insert_ne h]
  rfl

theorem lookup_armed {u : Nat} {w : World} {slots : List Nat} (ha : u ≠ k.ammoUID)
    (hn : u ≠ k.nextUID) (hr : u ≠ k.reserveUID w) :
    (k.armed w slots).clientUIDs.lookup u = none := by
  unfold armed
  rw [AList.lookup_insert_ne hr, AList.lookup_insert_ne hn, lookup_wiped ha]

theorem lookup_based {w : World} {slots : List Nat} {noLoadout : Bool} {u : Nat}
    (h : u ∉ k.minted w slots noLoadout false) :
    (k.based w slots noLoadout).clientUIDs.lookup u = none := by
  cases noLoadout with
  | true => exact lookup_wiped (by simpa [minted] using h)
  | false =>
    simp only [minted, Bool.false_eq_true, if_false, List.append_nil, List.mem_cons,
      List.not_mem_nil, or_false, not_or] at h
    exact lookup_armed h.1 h.2.1 h.2.2

end Kit

end MatchServer

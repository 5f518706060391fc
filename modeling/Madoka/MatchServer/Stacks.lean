import Madoka.MatchServer.Caps
import Madoka.MatchServer.Effects

namespace MatchServer

open Lib

-- What a player counts in one stack: walls, medkits, ammo and what the shop sells to be thrown.
def Stackable (w : World) (data : Nat) : Prop :=
  data = glooDataID ∨ data = medkitData ∨ isAmmoData data = true ∨
    (weaponClass data = none ∧ ∃ settings id item, w.shopItemByID settings id = some item ∧
      item.itemID = data ∧ (placeItem item).slot = slotExplosive)

def tally (f : InvItem → Nat) (data : Nat) (it : InvItem) : Nat := if it.data = data then f it else 0

-- What is tracked under a unique is none of the data.
def Off (goods : GoMap InvItem) (data unique : Nat) : Prop :=
  ∀ it ∈ goods.lookup unique, it.data ≠ data

instance {goods : GoMap InvItem} {data unique : Nat} : Decidable (Off goods data unique) := by
  unfold Off
  infer_instance

def stacksIn (goods : GoMap InvItem) (data : Nat) : Nat := weight (tally (fun _ => 1) data) goods

def unitsIn (goods : GoMap InvItem) (data : Nat) : Nat := weight (tally InvItem.count data) goods

-- One stack at most, of `n` units.
structure InOneStack (goods : GoMap InvItem) (data : Nat) (n : Int) : Prop where
  one : stacksIn goods data ≤ 1
  units : (unitsIn goods data : Int) = n

section

variable {goods : GoMap InvItem} {data unique : Nat} {it it₀ : InvItem} {f : InvItem → Nat} {n : Int}

theorem tally_self (h : it.data = data) : tally f data it = f it := if_pos h

theorem tally_other (h : it.data ≠ data) : tally f data it = 0 := if_neg h

theorem off_of_none (h : goods.lookup unique = none) : Off goods data unique := by
  intro it hit
  rw [h] at hit
  cases hit

theorem off_of_data (h : goods.lookup unique = some it) (hd : it.data ≠ data) :
    Off goods data unique := by
  intro it' hit
  obtain rfl : it' = it := Option.some.inj (hit.symm.trans h)
  exact hd

theorem weight_erase_off (h : Off goods data unique) :
    weight (tally f data) (goods.erase unique) = weight (tally f data) goods := by
  cases hu : goods.lookup unique with
  | none => rw [erase_of_none hu]
  | some it =>
    have hsum := weight_erase (f := tally f data) hu
    rw [tally_other (h it hu), Nat.zero_add] at hsum
    exact hsum.symm

theorem weight_insert_off (h : Off goods data unique) :
    weight (tally f data) (goods.insert unique it) =
      tally f data it + weight (tally f data) goods := by
  rw [weight_insert, weight_erase_off h]

theorem stacksIn_eq_zero : stacksIn goods data = 0 ↔ ∀ u, Off goods data u := by
  unfold stacksIn
  rw [weight_eq_zero]
  constructor
  · intro h u it hit hd
    exact Nat.one_ne_zero ((tally_self hd).symm.trans (h u it hit))
  · intro h u it hit
    exact tally_other (h u it hit)

theorem unitsIn_eq_zero (h : stacksIn goods data = 0) : unitsIn goods data = 0 :=
  weight_eq_zero.mpr fun u it hit => tally_other (stacksIn_eq_zero.mp h u it hit)

namespace InOneStack

theorem empty : InOneStack ∅ data 0 := ⟨Nat.zero_le 1, rfl⟩

theorem count (h : InOneStack goods data n) (hu : goods.lookup unique = some it₀)
    (hd : it₀.data = data) : (it₀.count : Int) = n ∧ stacksIn (goods.erase unique) data = 0 := by
  have hone := weight_erase (f := tally (fun _ => 1) data) hu
  have hall := weight_erase (f := tally InvItem.count data) hu
  rw [tally_self hd] at hone hall
  have hs := h.one
  have hrest : stacksIn (goods.erase unique) data = 0 := by
    unfold stacksIn at hs ⊢
    omega
  have hnone := unitsIn_eq_zero hrest
  refine ⟨?_, hrest⟩
  rw [← h.units]
  unfold unitsIn at hnone ⊢
  omega

theorem single {u : Nat} (h : InOneStack goods data n) (hu : goods.lookup unique = some it₀)
    (hd : it₀.data = data) (hu' : goods.lookup u = some it) (hd' : it.data = data) : u = unique := by
  by_contra hne
  have htwo := weight_two (f := tally (fun _ => 1) data) hu hu' hne
  rw [tally_self hd, tally_self hd'] at htwo
  exact absurd (Nat.le_trans htwo h.one) (by decide)

theorem other (h : InOneStack goods data n) (hu : Off goods data unique) (hd : it.data ≠ data) :
    InOneStack (goods.insert unique it) data n := by
  refine ⟨?_, ?_⟩
  · unfold stacksIn
    rw [weight_insert_off hu, tally_other hd, Nat.zero_add]
    exact h.one
  · unfold unitsIn
    rw [weight_insert_off hu, tally_other hd, Nat.zero_add]
    exact h.units

theorem lost (h : InOneStack goods data n) (hu : Off goods data unique) :
    InOneStack (goods.erase unique) data n := by
  refine ⟨?_, ?_⟩
  · unfold stacksIn
    rw [weight_erase_off hu]
    exact h.one
  · unfold unitsIn
    rw [weight_erase_off hu]
    exact h.units

theorem put (h : InOneStack goods data n) (hnone : stacksIn goods data = 0) (hd : it.data = data) :
    InOneStack (goods.insert unique it) data (n + it.count) := by
  have hu := stacksIn_eq_zero.mp hnone unique
  have hzero := h.units
  rw [unitsIn_eq_zero hnone] at hzero
  refine ⟨?_, ?_⟩
  · have hsum : stacksIn (goods.insert unique it) data = 1 + stacksIn goods data :=
      (weight_insert_off hu).trans (by rw [tally_self hd]; rfl)
    omega
  · have hsum : unitsIn (goods.insert unique it) data = it.count + unitsIn goods data :=
      (weight_insert_off hu).trans (by rw [tally_self hd]; rfl)
    rw [unitsIn_eq_zero hnone] at hsum
    omega

theorem remove (h : InOneStack goods data n) (hu : goods.lookup unique = some it₀)
    (hd : it₀.data = data) : InOneStack (goods.erase unique) data (n - it₀.count) ∧
      stacksIn (goods.erase unique) data = 0 := by
  obtain ⟨hcount, hnone⟩ := h.count hu hd
  refine ⟨⟨hnone ▸ Nat.zero_le 1, ?_⟩, hnone⟩
  rw [unitsIn_eq_zero hnone, hcount, Int.sub_self]
  rfl

theorem recount (h : InOneStack goods data n) (hu : goods.lookup unique = some it₀)
    (hd : it₀.data = data) (hd' : it.data = data) :
    InOneStack (goods.insert unique it) data (n - it₀.count + it.count) := by
  obtain ⟨hgone, hnone⟩ := h.remove hu hd
  have hput := @put _ _ unique _ _ hgone hnone hd'
  have hsame : ∀ g : InvItem → Nat, weight (tally g data) ((goods.erase unique).insert unique it) =
      weight (tally g data) (goods.insert unique it) := by
    intro g
    rw [weight_insert, weight_insert, erase_of_none (AList.lookup_erase unique goods)]
  refine ⟨?_, ?_⟩
  · unfold stacksIn
    rw [← hsame]
    exact hput.one
  · unfold unitsIn
    rw [← hsame]
    exact hput.units

end InOneStack

end

namespace Kit

variable (k : Kit) (data : Nat)

def stacksOf : Nat := stacksIn k.clientUIDs data

def unitsAt (unique : Nat) : Nat :=
  ((k.clientUIDs.lookup unique).map (tally InvItem.count data)).getD 0

-- What a reissue has to give: two medkits, and the full reserve of an ammo that is held.
def topUp : Nat :=
  if data = medkitData then 2 - k.units data
  else if isAmmoData data ∧ k.stacksOf data ≠ 0 then ammoReserveTotal data - k.units data
  else 0

def loadoutUnits (noLoadout infiniteGloo : Bool) : Nat :=
  (if data = medkitData then 2 else 0) +
    (if noLoadout then 0
      else (if data = uspData then 1 else 0) +
        if data = pistolAmmo then ammoReserveTotal pistolAmmo else 0) +
    if infiniteGloo ∧ data = glooDataID then 5 else 0

def boughtUnits (item : ShopItem) (qty : Nat) : Nat :=
  if item.itemID = itemMushroom then 0
  else if (placeItem item).isWeapon then
    if (placeItem item).ammo ≠ 0 ∧ (placeItem item).ammo = data then ammoReserveTotal data else 0
  else if item.itemID = data then qty
  else 0

-- The units after an operation: what it grants, less what it drops or consumes.
def booking (n : Int) : Op → Int
  | .issue _ noLoadout infiniteGloo => loadoutUnits data noLoadout infiniteGloo
  | .reissue => n + k.topUp data
  | .buy item qty => n + boughtUnits data item qty
  | .take it => n + tally InvItem.count data it
  | .drop unique => n - k.unitsAt data unique
  | .use unique => n - min 1 (k.unitsAt data unique)
  | .gloo => if data = glooDataID then n - 1 else n
  | _ => n

def booked (t : List (Kit × Setting × Op)) : Int :=
  t.foldl (fun n y => y.1.booking data n y.2.2) 0

-- No operation writes over the stack, starts a second one beside it or refills it unbooked.
def KeepsStack (x : Setting) : Op → Prop
  | .issue _ noLoadout infiniteGloo => (k.minted x.w x.slots noLoadout infiniteGloo).Nodup
  | .reissue =>
    (k.medkitUID x.order = 0 → Off k.clientUIDs medkitData 0 ∧ Off k.clientUIDs data k.nextUID) ∧
      (data = medkitData → k.units data ≤ 2) ∧
      (isAmmoData data = true → k.stacksOf data ≠ 0 → ammoReserveTotal data ≤ k.units data)
  | .buy item qty => item.itemID ≠ itemMushroom →
      if (placeItem item).isWeapon then
        item.itemID ≠ data ∧ Off k.clientUIDs data k.nextUID ∧
          ((placeItem item).ammo ≠ 0 → Off k.clientUIDs data k.ammoUID) ∧
          ((placeItem item).ammo = data → k.stacksOf data = 0) ∧
          ∀ old ∈ k.weapon (if (placeItem item).isPrimary then k.pickPrimarySlot
            else (placeItem item).slot), Off k.clientUIDs data old.unique ∧ old.unique ≠ k.ammoUID
      else (k.stackOf x.order item = none → Off k.clientUIDs data k.nextUID) ∧
        (item.itemID = data → (placeItem item).isArmor = false ∧ Off k.clientUIDs data 0 ∧
          k.units data + qty < 2 ^ 32)
  | .install it isPrimary => Off k.clientUIDs data it.unique ∧
      ∀ old ∈ k.weapon (k.pickupWeaponSlot isPrimary), Off k.clientUIDs data old.unique
  | .take it => Off k.clientUIDs data it.unique ∧
      (it.data = data → it.count + k.units data < 2 ^ 32)
  | .wear bodyPart _ => ∀ slot ∈ hitSlot bodyPart, 0 < k.slotRuntime slot → ∀ e ∈ k.equipAt slot,
      e.data ≠ data ∧ Off k.clientUIDs data e.unique ∧ Off k.clientUIDs data k.nextUID
  | _ => True

instance (x : Setting) (op : Op) : Decidable (k.KeepsStack data x op) :=
  match op with
  | .issue .. | .reissue | .buy .. | .install .. | .take _ | .wear .. => by
    unfold KeepsStack
    infer_instance
  | .fund _ | .pay _ | .round | .drop _ | .equip .. | .gloo | .hold _ | .use _ => isTrue trivial

-- At most one entry of a data, whose count is what the history books; without one nothing is booked.
structure OneStack (n : Int) : Prop where
  single : ∀ u u' it it', k.clientUIDs.lookup u = some it → k.clientUIDs.lookup u' = some it' →
    it.data = data → it'.data = data → u' = u
  count : ∀ u it, k.clientUIDs.lookup u = some it → it.data = data → (it.count : Int) = n
  bare : (∀ u it, k.clientUIDs.lookup u = some it → it.data ≠ data) → n = 0

def Stacked (n : Int) : Prop := InOneStack k.clientUIDs data n

variable {k : Kit} {data : Nat} {x : Setting} {n : Int} {it : InvItem} {item : ShopItem} {qty : Nat}
  {unique : Nat}

theorem Stacked.one (h : k.Stacked data n) : k.OneStack data n := by
  refine ⟨fun u u' it it' hu hu' hd hd' => h.single hu hd hu' hd',
    fun u it hu hd => (h.count hu hd).1, fun hbare => ?_⟩
  have hzero := unitsIn_eq_zero (stacksIn_eq_zero.mpr hbare)
  rw [← h.units, hzero]
  rfl

theorem Stacked.goods {k' : Kit} (h : k.Stacked data n) (hg : k'.clientUIDs = k.clientUIDs) :
    k'.Stacked data n := by
  unfold Stacked
  rw [hg]
  exact h

theorem Stacked.units (h : k.Stacked data n) : (k.units data : Int) = n := InOneStack.units h

theorem weight_wiped {f : InvItem → Nat} :
    weight f k.wiped.clientUIDs = f ⟨k.ammoUID, medkitData, 2, 2⟩ := by
  unfold wiped
  rw [weight_insert_new (AList.lookup_empty _)]
  rfl

theorem weight_armed {f : InvItem → Nat} {w : World} {slots : List Nat} (hn : k.nextUID ≠ k.ammoUID)
    (ha : k.reserveUID w ≠ k.ammoUID) (hr : k.reserveUID w ≠ k.nextUID) :
    weight f (k.armed w slots).clientUIDs =
      f ⟨k.reserveUID w, pistolAmmo, ammoReserveTotal pistolAmmo, 0⟩ +
        (f ⟨k.nextUID, uspData, 1, w.loadedMagFor uspData (w.skinForWeapon uspData slots)⟩ +
          f ⟨k.ammoUID, medkitData, 2, 2⟩) := by
  unfold armed
  rw [weight_insert_new, weight_insert_new (lookup_wiped hn), weight_wiped]
  rw [AList.lookup_insert_ne hr, lookup_wiped ha]

theorem weight_glooed {f : InvItem → Nat} (h : k.clientUIDs.lookup k.nextUID = none) :
    weight f k.glooed.clientUIDs = f ⟨k.nextUID, glooDataID, 5, 0⟩ + weight f k.clientUIDs := by
  unfold glooed
  exact weight_insert_new h

theorem weight_based {f : InvItem → Nat} {w : World} {slots : List Nat} {noLoadout : Bool}
    (h : (k.minted w slots noLoadout false).Nodup) :
    weight f (k.based w slots noLoadout).clientUIDs = f ⟨k.ammoUID, medkitData, 2, 2⟩ +
      if noLoadout then 0
      else f ⟨k.nextUID, uspData, 1, gunMag w slots⟩ +
        f ⟨k.reserveUID w, pistolAmmo, ammoReserveTotal pistolAmmo, 0⟩ := by
  cases noLoadout with
  | true => exact weight_wiped
  | false =>
    simp only [minted, Bool.false_eq_true, if_false, List.append_nil, List.nodup_cons,
      List.mem_cons, List.not_mem_nil, or_false, not_or, List.nodup_nil, and_true,
      not_false_eq_true] at h
    have hsum := @weight_armed _ f w slots (Ne.symm h.1.1) (Ne.symm h.1.2)
      (Ne.symm h.2)
    unfold based gunMag
    rw [if_neg Bool.false_ne_true, if_neg Bool.false_ne_true]
    omega

theorem weight_issue {f : InvItem → Nat} {coins : Option Nat} {noLoadout infiniteGloo : Bool}
    (h : (k.minted x.w x.slots noLoadout infiniteGloo).Nodup) :
    weight f (k.apply x (.issue coins noLoadout infiniteGloo)).clientUIDs =
      f ⟨k.ammoUID, medkitData, 2, 2⟩ +
        (if noLoadout then 0
          else f ⟨k.nextUID, uspData, 1, gunMag x.w x.slots⟩ +
            f ⟨k.reserveUID x.w, pistolAmmo, ammoReserveTotal pistolAmmo, 0⟩) +
        if infiniteGloo then f ⟨(k.based x.w x.slots noLoadout).nextUID, glooDataID, 5, 0⟩ else 0 := by
  rw [minted_eq] at h
  have hbase := @weight_based { k with coins := coins.getD k.coins } f x.w x.slots noLoadout
    (List.Nodup.of_append_left h)
  have hfresh : infiniteGloo = true → ({ k with coins := coins.getD k.coins }.based x.w x.slots
      noLoadout).clientUIDs.lookup (k.based x.w x.slots noLoadout).nextUID = none := by
    rintro rfl
    refine lookup_based fun hmem => ?_
    exact (List.nodup_append.mp h).2.2 _ hmem _ (List.mem_singleton_self _) rfl
  have hnext : ({ k with coins := coins.getD k.coins }.based x.w x.slots noLoadout).nextUID =
      (k.based x.w x.slots noLoadout).nextUID := by
    cases noLoadout <;> rfl
  change weight f (Kit.issue x k coins noLoadout infiniteGloo).clientUIDs = _
  unfold issue
  rw [baseLoadout_eq]
  cases infiniteGloo with
  | false => exact hbase
  | true =>
    refine (weight_glooed (f := f) ?_).trans ?_
    · exact hnext ▸ hfresh rfl
    · rw [if_pos rfl, Nat.add_comm, ← hnext]
      exact congrArg (· + _) hbase

theorem stacked_issue {coins : Option Nat} {noLoadout infiniteGloo : Bool}
    (hs : k.KeepsStack data x (.issue coins noLoadout infiniteGloo)) :
    (k.apply x (.issue coins noLoadout infiniteGloo)).Stacked data
      (loadoutUnits data noLoadout infiniteGloo) := by
  have hall := fun f : InvItem → Nat => @weight_issue _ _ (tally f data) coins _ _ hs
  refine ⟨?_, congrArg Int.ofNat ?_⟩
  · refine Nat.le_trans (Nat.le_of_eq (hall fun _ => 1)) ?_
    unfold tally medkitData uspData pistolAmmo glooDataID
    cases noLoadout <;> cases infiniteGloo <;> simp only [if_true, Bool.false_eq_true, if_false] <;>
      split_ifs <;> omega
  · refine (hall InvItem.count).trans ?_
    unfold loadoutUnits tally
    simp only [eq_comm (b := data)]
    cases noLoadout <;> cases infiniteGloo <;> simp

theorem no_medkit {order : List Nat} (h : k.medkitUID order = 0)
    (h0 : Off k.clientUIDs medkitData 0) : stacksIn k.clientUIDs medkitData = 0 := by
  refine stacksIn_eq_zero.mpr fun u it hit hdata => ?_
  unfold medkitUID at h
  cases ht : k.trackedWhere order fun _ it => it.data == medkitData with
  | none =>
    have hno := trackedWhere_none ht u it hit
    simp [hdata] at hno
  | some e =>
    obtain ⟨hit', hdata'⟩ := @trackedWhere_some _ _ e.1 e.2 _ ht
    have hzero : e.1 = 0 := by simpa [ht] using h
    rw [hzero] at hit'
    exact h0 e.2 hit' (by simpa using hdata')

theorem stacked_reissue (h : k.Stacked data n) (hs : k.KeepsStack data x .reissue) :
    (k.apply x .reissue).Stacked data (n + k.topUp data) := by
  obtain ⟨hnew, hmed, hammo⟩ := hs
  have htop : data ≠ medkitData → (k.topUp data : Int) = 0 := by
    intro hne
    unfold topUp
    rw [if_neg hne]
    split
    · rename_i ha
      rw [Nat.sub_eq_zero_of_le (hammo ha.1 ha.2)]
      rfl
    · rfl
  change InOneStack (k.reissued x.w x.order x.slots).1.clientUIDs data _
  rw [reissued_eq]
  by_cases hfound : k.medkitUID x.order = 0
  · rw [if_pos hfound]
    obtain ⟨hzero, hfresh⟩ := hnew hfound
    by_cases hd : data = medkitData
    · subst hd
      have hnone := no_medkit hfound hzero
      have hunits : k.units medkitData = 0 := unitsIn_eq_zero hnone
      have htwo : (k.topUp medkitData : Int) = 2 := by
        unfold topUp
        rw [if_pos rfl, hunits]
        rfl
      rw [htwo]
      exact InOneStack.put h hnone rfl
    · rw [htop hd, Int.add_zero]
      exact InOneStack.other h hfresh (Ne.symm hd)
  · rw [if_neg hfound]
    obtain ⟨it, hit, hdata⟩ := medkitUID_some hfound
    by_cases hd : data = medkitData
    · subst hd
      have hre := @InOneStack.recount _ _ _ ⟨k.medkitUID x.order, medkitData, 2, 2⟩ _ _ h hit hdata rfl
      have hcount := (InOneStack.count h hit hdata).1
      have htop : (k.topUp medkitData : Int) = 2 - n := by
        unfold topUp
        rw [if_pos rfl, Int.ofNat_sub (hmed rfl), h.units]
        rfl
      have heq : n + (k.topUp medkitData : Int) = n - it.count + ((2 : Nat) : Int) := by omega
      rw [heq]
      exact hre
    · rw [htop hd, Int.add_zero]
      exact InOneStack.other h (off_of_data hit fun hx => hd (hx.symm.trans hdata)) (Ne.symm hd)

theorem lookup_stocked_old {w : World} {slots : List Nat} {ammo u : Nat} (hu : u ≠ k.nextUID)
    (ha : u ≠ k.ammoUID) : (k.stocked w slots item ammo).lookup u = k.clientUIDs.lookup u := by
  unfold stocked
  dsimp only
  split
  · rw [AList.lookup_insert_ne ha, AList.lookup_insert_ne hu]
  · exact AList.lookup_insert_ne hu

theorem stocked_stack {w : World} {slots : List Nat} {ammo : Nat} (h : k.Stacked data n)
    (hgun : item.itemID ≠ data) (hu : Off k.clientUIDs data k.nextUID)
    (hfresh : ammo ≠ 0 → Off k.clientUIDs data k.ammoUID)
    (hone : ammo = data → k.stacksOf data = 0) :
    InOneStack (k.stocked w slots item ammo) data
      (n + if ammo ≠ 0 ∧ ammo = data then ammoReserveTotal data else (0 : Nat)) := by
  have hbase : InOneStack (k.clientUIDs.insert k.nextUID (k.gunItem w slots item)) data n :=
    InOneStack.other h hu hgun
  have hsame : ∀ {u}, u ≠ k.nextUID → Off k.clientUIDs data u →
      Off (k.clientUIDs.insert k.nextUID (k.gunItem w slots item)) data u := by
    intro u hne hoff
    unfold Off
    rw [AList.lookup_insert_ne hne]
    exact hoff
  unfold stocked
  dsimp only
  by_cases ha : ammo = 0
  · rw [if_neg (not_not.mpr ha), if_neg fun hp => hp.1 ha]
    simpa using hbase
  · rw [if_pos ha]
    by_cases hd : ammo = data
    · rw [if_pos ⟨ha, hd⟩]
      have hnone : stacksIn (k.clientUIDs.insert k.nextUID (k.gunItem w slots item)) data = 0 := by
        refine (weight_insert_off hu).trans ?_
        rw [tally_other hgun, Nat.zero_add]
        exact hone hd
      have hput := @InOneStack.put _ _ k.ammoUID (k.ammoItem ammo) _ hbase hnone hd
      rw [show ammoReserveTotal data = (k.ammoItem ammo).count from hd ▸ rfl]
      exact hput
    · rw [if_neg fun hp => hd hp.2]
      simpa using InOneStack.other hbase (hsame ammoUID_ne (hfresh ha)) hd

theorem stacked_addWeapon {w : World} {slots : List Nat} {slot ammo : Nat} (h : k.Stacked data n)
    (hgun : item.itemID ≠ data) (hu : Off k.clientUIDs data k.nextUID)
    (hfresh : ammo ≠ 0 → Off k.clientUIDs data k.ammoUID)
    (hone : ammo = data → k.stacksOf data = 0)
    (hold : ∀ old ∈ k.weapon slot, Off k.clientUIDs data old.unique ∧ old.unique ≠ k.ammoUID) :
    (k.addWeapon w slots item qty slot ammo).1.Stacked data
      (n + if ammo ≠ 0 ∧ ammo = data then ammoReserveTotal data else (0 : Nat)) := by
  have hstock := @stocked_stack _ _ _ _ w slots _ h hgun hu hfresh hone
  cases hws : k.weapons with
  | none =>
    unfold Stacked
    rw [addWeapon_nil hws]
    exact hstock
  | some ws =>
    unfold Stacked
    rw [addWeapon_some hws]
    dsimp only
    cases hw : ws.lookup slot with
    | none => exact hstock
    | some old =>
      obtain ⟨hoff, hne⟩ := hold old (by simpa [weapon, hws] using hw)
      refine InOneStack.lost hstock fun it hit hd => ?_
      by_cases hnew : old.unique = k.nextUID
      · rw [hnew, lookup_stocked_self] at hit
        exact hgun ((congrArg InvItem.data (Option.some.inj hit)).trans hd)
      · rw [lookup_stocked_old hnew hne] at hit
        exact hoff it hit hd

theorem stacked_goods {w : World} {order slots : List Nat} (h : k.Stacked data n)
    (hwpn : (placeItem item).isWeapon = false)
    (hfresh : k.stackOf order item = none → Off k.clientUIDs data k.nextUID)
    (hsame : item.itemID = data → (placeItem item).isArmor = false ∧ Off k.clientUIDs data 0 ∧
      k.units data + qty < 2 ^ 32) :
    (k.addPurchasedItem w order slots item qty).1.Stacked data
      (n + if item.itemID = data then qty else (0 : Nat)) := by
  unfold Stacked
  cases hs : k.stackOf order item with
  | some stack =>
    obtain ⟨u, it⟩ := stack
    rw [addPurchasedItem_merge hwpn hs]
    unfold stackOf at hs
    rw [Option.ite_none_left_eq_some] at hs
    obtain ⟨hit, -, hdata⟩ := trackedByData_some hs.2
    dsimp only
    by_cases hd : item.itemID = data
    · rw [if_pos hd]
      obtain ⟨-, -, hroom⟩ := hsame hd
      have hre := @InOneStack.recount _ _ _ (grown it qty) _ _ h hit (hdata.trans hd) (hdata.trans hd)
      have hcount := (InOneStack.count h hit (hdata.trans hd)).1
      have hn := h.units
      have hsum : (grown it qty).count = it.count + qty := Nat.mod_eq_of_lt (by omega)
      rw [hsum] at hre
      rw [show n + (qty : Int) = n - it.count + ((it.count + qty : Nat) : Int) by omega]
      exact hre
    · rw [if_neg hd]
      have hne : it.data ≠ data := fun hx => hd (hdata.symm.trans hx)
      simpa using @InOneStack.other _ _ _ (grown it qty) _ h (off_of_data hit hne) hne
  | none =>
    rw [addPurchasedItem_new hwpn hs]
    dsimp only
    by_cases hd : item.itemID = data
    · rw [if_pos hd]
      obtain ⟨harmor, hzero, -⟩ := hsame hd
      have hnone : stacksIn k.clientUIDs data = 0 := by
        unfold stackOf at hs
        rw [if_neg (by simp [harmor])] at hs
        refine stacksIn_eq_zero.mpr fun u it hit hdata => ?_
        have hno := trackedWhere_none hs u it hit
        by_cases hu : u = 0
        · subst hu
          exact hzero it hit hdata
        · simp [hu, hdata, hd] at hno
      exact @InOneStack.put _ _ _ (k.newPiece item qty) _ h hnone hd
    · rw [if_neg hd]
      simpa using @InOneStack.other _ _ _ (k.newPiece item qty) _ h (hfresh hs) hd

theorem stacked_buy (h : k.Stacked data n) (hs : k.KeepsStack data x (.buy item qty)) :
    (k.apply x (.buy item qty)).Stacked data (n + boughtUnits data item qty) := by
  obtain ⟨coins, hcoins⟩ := @charged_eq x k item qty
  change ((k.charged x item qty).purchase x.w x.order x.slots x.now item qty).Stacked data _
  unfold boughtUnits
  by_cases hm : item.itemID = itemMushroom
  · rw [purchase_mushroom hm, if_pos hm, hcoins, Int.ofNat_zero, Int.add_zero]
    exact h.goods rfl
  · rw [if_neg hm]
    have hs := hs hm
    have hgoods := @clientUIDs_purchase x.w x.order x.slots x.now (k.charged x item qty) item qty hm
    refine Stacked.goods ?_ hgoods
    rw [hcoins]
    by_cases hwpn : (placeItem item).isWeapon = true
    · rw [if_pos hwpn] at hs ⊢
      obtain ⟨h1, h2, h3, h4, h5⟩ := hs
      rw [addPurchasedItem_weapon hwpn]
      exact stacked_addWeapon (k := { k with coins := coins }) h h1 h2 h3 h4 h5
    · rw [if_neg hwpn] at hs ⊢
      exact stacked_goods (k := { k with coins := coins }) h (Bool.eq_false_iff.mpr hwpn) hs.1 hs.2

theorem stacked_cleared {isPrimary : Bool} (h : k.Stacked data n)
    (hold : ∀ old ∈ k.weapon (k.pickupWeaponSlot isPrimary), Off k.clientUIDs data old.unique) :
    (k.cleared it isPrimary).Stacked data n ∧
      (Off k.clientUIDs data unique → Off (k.cleared it isPrimary).clientUIDs data unique) := by
  rcases @cleared_cases k it isPrimary with heq | ⟨old, hw, -, heq⟩
  · rw [heq]
    exact ⟨h, id⟩
  · rw [heq, removeWeapon_eq]
    refine ⟨InOneStack.lost h (hold old hw), fun hu it' hit => ?_⟩
    by_cases hne : unique = old.unique
    · rw [hne, AList.lookup_erase] at hit
      cases hit
    · rw [AList.lookup_erase_ne hne] at hit
      exact hu it' hit

theorem stacked_install {isPrimary : Bool} (h : k.Stacked data n)
    (hs : k.KeepsStack data x (.install it isPrimary)) (hd : it.data ≠ data) :
    (k.apply x (.install it isPrimary)).Stacked data n := by
  change (k.install x it isPrimary).Stacked data n
  cases hws : k.weapons with
  | none =>
    rw [install_nil hws]
    exact h
  | some ws =>
    obtain ⟨ws', hcleared⟩ := Option.ne_none_iff_exists'.mp (@weapons_cleared k it isPrimary
      (by rw [hws]; exact Option.some_ne_none ws))
    obtain ⟨hgone, hoff⟩ := @stacked_cleared k data n it it.unique isPrimary h hs.2
    rw [install_eq hcleared]
    exact InOneStack.other hgone (hoff hs.1) hd

theorem clientUIDs_repoint {j : Kit} : (k.repoint unique it j).clientUIDs = j.clientUIDs := by
  unfold repoint
  cases k.equipSlotOf unique with
  | none =>
    dsimp only
    split <;> rfl
  | some e =>
    dsimp only
    rw [setEquip_eq]
    split <;> rfl

theorem stacked_take (h : k.Stacked data n) (hs : k.KeepsStack data x (.take it)) :
    (k.apply x (.take it)).Stacked data (n + tally InvItem.count data it) := by
  change (k.take x.order it).Stacked data _
  unfold take Stacked
  cases hstack : k.trackedByData x.order it.data it.unique with
  | none =>
    dsimp only
    by_cases hd : it.data = data
    · have hnone : stacksIn k.clientUIDs data = 0 := by
        refine stacksIn_eq_zero.mpr fun u it' hit hdata => ?_
        have hno := trackedWhere_none hstack u it' hit
        by_cases hu : u = it.unique
        · subst hu
          exact hs.1 it' hit hdata
        · simp [hu, hdata, hd] at hno
      rw [tally_self hd]
      exact InOneStack.put h hnone hd
    · rw [tally_other hd, Int.ofNat_zero, Int.add_zero]
      exact InOneStack.other h hs.1 hd
  | some stack =>
    obtain ⟨u, existing⟩ := stack
    obtain ⟨hu, hne, hdata⟩ := trackedByData_some hstack
    have hoff : Off (k.clientUIDs.erase u) data it.unique := by
      intro it' hit
      rw [AList.lookup_erase_ne hne.symm] at hit
      exact hs.1 it' hit
    dsimp only
    change InOneStack ((k.repoint u _ _).clientUIDs.insert it.unique _) data _
    rw [clientUIDs_repoint, removeTracked_eq]
    dsimp only
    by_cases hd : it.data = data
    · obtain ⟨hgone, hnone⟩ := InOneStack.remove h hu (hdata.trans hd)
      have hcount := (InOneStack.count h hu (hdata.trans hd)).1
      have hunits := h.units
      have hroom := hs.2 hd
      have hput := @InOneStack.put _ _ it.unique ({ it with count := (it.count + existing.count) % 2 ^ 32 }) _ hgone hnone hd
      rw [Nat.mod_eq_of_lt (show it.count + existing.count < 2 ^ 32 by omega)] at hput ⊢
      rw [tally_self hd, show n + (it.count : Int) = n - existing.count +
        ((it.count + existing.count : Nat) : Int) by omega]
      exact hput
    · have hx : Off k.clientUIDs data u := off_of_data hu fun hx => hd (hdata.symm.trans hx)
      rw [tally_other hd, Int.ofNat_zero, Int.add_zero]
      exact InOneStack.other (InOneStack.lost h hx) hoff hd

theorem stacked_drop (h : k.Stacked data n) :
    (k.apply x (.drop unique)).Stacked data (n - k.unitsAt data unique) := by
  change InOneStack (k.removeTracked x.order unique).clientUIDs data _
  rw [removeTracked_eq]
  dsimp only
  unfold unitsAt
  cases hu : k.clientUIDs.lookup unique with
  | none => simpa using InOneStack.lost h (off_of_none hu)
  | some it =>
    by_cases hd : it.data = data
    · simpa [tally_self hd] using (InOneStack.remove h hu hd).1
    · simpa [tally_other hd] using InOneStack.lost h (off_of_data hu hd)

theorem stacked_use (h : k.Stacked data n) :
    (k.apply x (.use unique)).Stacked data (n - min 1 (k.unitsAt data unique)) := by
  change (k.useUp unique).Stacked data _
  unfold useUp unitsAt Stacked
  cases hu : k.clientUIDs.lookup unique with
  | none => simpa [Stacked] using h
  | some it =>
    dsimp only
    by_cases hd : it.data = data
    · have hre := @InOneStack.recount _ _ _ ({ it with count := it.count - 1 }) _ _ h hu hd hd
      rw [Option.map_some, Option.getD_some, tally_self hd]
      rw [show n - ((min 1 it.count : Nat) : Int) = n - it.count + ((it.count - 1 : Nat) : Int) by
        omega]
      exact hre
    · simpa [tally_other hd] using @InOneStack.other _ _ _ ({ it with count := it.count - 1 }) _ h
        (off_of_data hu hd) hd

theorem stacked_gloo (h : k.Stacked data n) (hs : (k.glooCount x.order).2 ≠ 0) :
    (k.apply x .gloo).Stacked data (if data = glooDataID then n - 1 else n) := by
  change (k.placeGloo x.order).Stacked data _
  obtain ⟨it, hit, hdata, hcount⟩ := (@glooCount_cases k x.order).resolve_left hs
  unfold placeGloo consumeGloo Stacked
  by_cases hd : data = glooDataID
  · rw [if_pos hd]
    have hsame : it.data = data := hdata.trans hd.symm
    split
    · rename_i hlast
      have hgone := (InOneStack.remove h hit hsame).1
      rw [show n - 1 = n - (it.count : Int) by omega]
      exact hgone
    · have hre := @InOneStack.recount _ _ _ ({ it with count := (k.glooCount x.order).2 - 1 }) _ _ h hit
        hsame hsame
      rw [hit, show n - 1 = n - it.count + (((k.glooCount x.order).2 - 1 : Nat) : Int) by omega]
      exact hre
  · rw [if_neg hd]
    have hne : it.data ≠ data := fun hx => hd (hx.symm.trans hdata)
    split
    · exact InOneStack.lost h (off_of_data hit hne)
    · rw [hit]
      exact InOneStack.other h (off_of_data hit hne) hne

theorem stacked_syncArmor {slot : Nat} (h : k.Stacked data n)
    (hs : ∀ e ∈ k.equipAt slot, e.data ≠ data ∧ Off k.clientUIDs data e.unique ∧
      Off k.clientUIDs data k.nextUID) : (k.syncArmor slot).Stacked data n := by
  unfold syncArmor
  cases he : k.equipAt slot with
  | none => exact h
  | some e =>
    obtain ⟨hd, hu, hfresh⟩ := hs e he
    dsimp only
    split
    · exact InOneStack.lost h hu
    · rw [setEquip_eq]
      refine InOneStack.other (InOneStack.lost h hu) (fun it hit => ?_) hd
      change (k.clientUIDs.erase e.unique).lookup k.nextUID = some it at hit
      by_cases hne : k.nextUID = e.unique
      · rw [hne, AList.lookup_erase] at hit
        cases hit
      · rw [AList.lookup_erase_ne hne] at hit
        exact hfresh it hit

theorem stacked_wear {bodyPart netDmg : Nat} (h : k.Stacked data n)
    (hs : k.KeepsStack data x (.wear bodyPart netDmg)) :
    (k.apply x (.wear bodyPart netDmg)).Stacked data n := by
  change (k.wear bodyPart netDmg).Stacked data n
  have hs : ∀ slot ∈ hitSlot bodyPart, 0 < k.slotRuntime slot → ∀ e ∈ k.equipAt slot,
      e.data ≠ data ∧ Off k.clientUIDs data e.unique ∧ Off k.clientUIDs data k.nextUID := hs
  unfold wear
  unfold hitSlot at hs
  split
  · rename_i hhead
    rw [if_pos hhead] at hs
    split
    · exact stacked_syncArmor (k := k.wearHelmet netDmg) h (hs slotHelmet rfl (by assumption))
    · exact h
  · rename_i hhead
    rw [if_neg hhead] at hs
    split
    · rename_i hchest
      rw [if_pos hchest] at hs
      split
      · exact stacked_syncArmor (k := k.wearVest netDmg) h (hs slotVest rfl (by assumption))
      · exact h
    · exact h

theorem stacked_equip {dst : Nat} (h : k.Stacked data n) :
    (k.apply x (.equip dst unique)).Stacked data n := by
  change (k.equip dst unique).Stacked data n
  unfold equip
  split
  · exact h
  · split
    · exact h
    · rename_i oldSlot targetData _ _
      obtain ⟨ws, hmove⟩ := @moveItem_eq k unique dst targetData oldSlot (k.equipAt dst)
      rw [hmove]
      exact h

theorem stacked_act {op : Op} (h : k.Stacked data n) (hw : weaponClass data = none)
    (hsound : k.Sound x op) (hs : k.KeepsStack data x op) :
    (k.apply x op).Stacked data (k.booking data n op) := by
  cases op with
  | fund coins => exact h
  | pay aw => exact h
  | round => exact h
  | issue coins noLoadout infiniteGloo => exact stacked_issue hs
  | reissue => exact stacked_reissue h hs
  | buy item qty => exact stacked_buy h hs
  | install it isPrimary =>
    refine stacked_install h hs fun hd => ?_
    have hclass : weaponClass it.data = some isPrimary := hsound
    rw [hd, hw] at hclass
    cases hclass
  | take it => exact stacked_take h hs
  | drop unique => exact stacked_drop h
  | equip dst unique => exact stacked_equip h
  | wear bodyPart netDmg => exact stacked_wear h hs
  | gloo => exact stacked_gloo h hsound
  | hold unique => exact h
  | use unique => exact stacked_use h

theorem booked_snoc {t : List (Kit × Setting × Op)} {y : Kit × Setting × Op} :
    booked data (t ++ [y]) = y.1.booking data (booked data t) y.2.2 := by
  simp [booked]

end Kit

theorem Stackable.no_weapon {w : World} {data : Nat} (h : Stackable w data) :
    weaponClass data = none := by
  rcases h with rfl | rfl | h | ⟨h, -⟩
  · rfl
  · rfl
  · have hrange : 201 ≤ data ∧ data ≤ 205 := by simpa [isAmmoData] using h
    obtain rfl | rfl | rfl | rfl | rfl : data = 201 ∨ data = 202 ∨ data = 203 ∨ data = 204 ∨
      data = 205 := by omega
    all_goals rfl
  · exact h

namespace Server

variable {w : World} {v : Server} {es : List Event} {data : Nat}

theorem one_stack {s : SessionId} (h : Run (Step w) start es v) (hdata : Stackable w data)
    (hok : ∀ y ∈ start.trail w s es, y.1.KeepsStack data y.2.1 y.2.2) :
    (v.core.ss s).kit.OneStack data (Kit.booked data (start.trail w s es)) := by
  refine Kit.Stacked.one ((@follows_run w v s es h).inv
    (I := fun t k => k.Stacked data (Kit.booked data t))
    (P := fun _ y => y.1.KeepsStack data y.2.1 y.2.2 ∧ y.1.Sound y.2.1 y.2.2)
    (fun t k k' hr hI => hI.goods (congrArg Kit.clientUIDs hr :)) InOneStack.empty
    (fun t k a hI ha => ?_) (each_of_forall fun y hy => ⟨hok y hy, (trail_sound hy).1⟩))
  rw [Kit.booked_snoc]
  exact Kit.stacked_act hI hdata.no_weapon ha.2 ha.1

-- cmd 218.
def icewallRequest : Packet := ⟨1, 218, 1, List.replicate 29 0⟩

-- The host buys two walls, one after the other, and places one.
def wallPlaced : List Event :=
  toShop ++ sends 8000000000 0 0 (buyRequest 1201 1) ++ sends 8100000000 0 0 (buyRequest 1201 1) ++
    sends 8200000000 0 0 icewallRequest

theorem one_stack_of_walls : ∃ v, Run (Step shopWorld) start wallPlaced v ∧
    (v.core.ss 0).kit.OneStack glooDataID 1 := by
  have hrun : ((wallPlaced.foldlM (step shopWorld) start).map fun v =>
      (v.core.ss 0).kit.unitsAt glooDataID 4) = some 1 := by
    decide +kernel
  obtain ⟨v, hv, -⟩ := Option.map_eq_some_iff.mp hrun
  have hok : ∀ y ∈ start.trail shopWorld 0 wallPlaced,
      y.1.KeepsStack glooDataID y.2.1 y.2.2 := by
    decide +kernel
  have hbooked : Kit.booked glooDataID (start.trail shopWorld 0 wallPlaced) = 1 := by
    decide +kernel
  refine ⟨v, run_of_foldlM hv, ?_⟩
  rw [← hbooked]
  exact one_stack (run_of_foldlM hv) (Or.inl rfl) hok

-- A second pistol comes with a second stack of the ammo that the first one's owner still has.
theorem second_ammo_stack : ¬ ∀ w es v s data, Run (Step w) start es v → Stackable w data →
    (v.core.ss s).kit.OneStack data (Kit.booked data (start.trail w s es)) := by
  intro hall
  have hrun : (((toShop ++ sends 8000000000 0 0 (buyRequest 10 1)).foldlM (step shopWorld)
      start).map fun v : Server => ((v.core.ss 0).kit.clientUIDs.lookup 3,
        (v.core.ss 0).kit.clientUIDs.lookup 5)) =
      some (some ⟨3, pistolAmmo, 120, 0⟩, some ⟨5, pistolAmmo, 120, 0⟩) := by
    decide +kernel
  obtain ⟨v, hv, hd⟩ := Option.map_eq_some_iff.mp hrun
  obtain ⟨h3, h5⟩ := Prod.mk.inj hd
  have hone := hall shopWorld _ v 0 pistolAmmo (run_of_foldlM hv) (Or.inr (Or.inr (Or.inl (by decide))))
  exact absurd (hone.single 3 5 _ _ h3 h5 rfl rfl) (by decide)

end Server

end MatchServer

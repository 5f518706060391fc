import Madoka.MatchServer.Effects

namespace MatchServer

open Lib

def armorSlots : List Nat := [slotVest, slotHelmet]

namespace Kit

variable (k : Kit)

def slotData (slot : Nat) : Nat :=
  if slot = slotVest then k.vestData else if slot = slotHelmet then k.helmetData else 0

def Wears (slot : Nat) : Prop :=
  ∃ e it, k.worn slot = some e ∧ k.clientUIDs.lookup e.unique = some it ∧
    it.data = k.slotData slot ∧ it.runtime = k.slotRuntime slot

-- Damage wears what the player is wearing, and nothing where nothing is worn.
def ArmorAgrees : Prop :=
  ∀ slot ∈ armorSlots, (0 < k.slotRuntime slot ↔ k.Wears slot) ∧
    (k.worn slot = none ↔ k.slotRuntime slot = 0)

-- The armour worn in the other slots than `slot`.
def wornBut (slot : Nat) : List Nat :=
  (armorSlots.filter fun s => decide (s ≠ slot)).filterMap fun s => (k.worn s).map fun e => e.unique

-- No operation but its own touches a worn piece, and a purchase is armour where it is placed so.
def SparesArmor (x : Setting) : Op → Prop
  | .reissue => k.medkitUID x.order = 0 → k.nextUID ∉ k.wornBut slotNone
  | .buy item _ => item.itemID ≠ itemMushroom →
      (∀ slot ∈ armorSlots, (placeItem item).slot = slot ↔ armorSlot item.itemID = some slot) ∧
      if (placeItem item).isWeapon then
        k.nextUID ∉ k.wornBut slotNone ∧ k.ammoUID ∉ k.wornBut slotNone ∧
          ∀ old ∈ k.weapon (if (placeItem item).isPrimary then k.pickPrimarySlot
            else (placeItem item).slot), old.unique ∉ k.wornBut slotNone
      else k.stackOf x.order item = none → k.nextUID ∉ k.wornBut (placeItem item).slot
  | .install it isPrimary => it.unique ∉ k.wornBut slotNone ∧
      ∀ old ∈ k.weapon (k.pickupWeaponSlot isPrimary), old.unique ∉ k.wornBut slotNone
  | .take it => it.unique ∉ k.wornBut slotNone ∧
      ∀ stack ∈ k.trackedByData x.order it.data it.unique, stack.1 ∉ k.wornBut slotNone
  | .drop unique => unique ∉ k.wornBut slotNone
  | .equip dst unique => dst ∉ armorSlots ∧ unique ∉ k.wornBut slotNone
  | .wear bodyPart _ => k.nextUID ∉ k.wornBut (if bodyPart = bodyHead then slotHelmet else slotVest)
  | _ => True

instance (x : Setting) (op : Op) : Decidable (k.SparesArmor x op) :=
  match op with
  | .reissue | .buy .. | .install .. | .take _ | .drop _ | .equip .. | .wear .. => by
    unfold SparesArmor
    infer_instance
  | .fund _ | .pay _ | .round | .issue .. | .gloo | .hold _ | .use _ => isTrue trivial

-- A slot of armour: nothing, or a piece that all its copies describe.
def Plate (slot : Nat) : Prop :=
  (k.slotRuntime slot = 0 ∧ k.worn slot = none) ∨
    (0 < k.slotRuntime slot ∧ armorSlot (k.slotData slot) = some slot ∧
      ∃ u it, k.worn slot = some ⟨slot, k.slotData slot, u⟩ ∧ k.clientUIDs.lookup u = some it ∧
        it.data = k.slotData slot ∧ it.runtime = k.slotRuntime slot)

structure Clad : Prop where
  nodup : (slotsOf k.equipment).Nodup
  bare : ∀ slot ∈ armorSlots, k.weapon slot = none
  plates : ∀ slot ∈ armorSlots, k.Plate slot

def sheet (it : InvItem) : Nat × Nat := (it.data, it.runtime)

variable {k k' : Kit} {x : Setting} {slot unique u : Nat} {it : InvItem} {order : List Nat}

theorem mem_wornBut : u ∈ k.wornBut slot ↔
    ∃ s ∈ armorSlots, s ≠ slot ∧ ∃ e, k.worn s = some e ∧ e.unique = u := by
  simp only [wornBut, List.mem_filterMap, List.mem_filter, decide_eq_true_eq, Option.map_eq_some_iff]
  constructor
  · rintro ⟨s, ⟨h1, h2⟩, h3⟩
    exact ⟨s, h1, h2, h3⟩
  · rintro ⟨s, h1, h2, h3⟩
    exact ⟨s, ⟨h1, h2⟩, h3⟩

theorem slot_ne_none (h : slot ∈ armorSlots) : slot ≠ slotNone := by
  rintro rfl
  exact absurd h (by decide)

theorem mem_worn {e : Equipment} (h : slot ∈ armorSlots) (he : k.worn slot = some e) :
    e.unique ∈ k.wornBut slotNone :=
  mem_wornBut.mpr ⟨slot, h, slot_ne_none h, e, he, rfl⟩

theorem Clad.agrees (h : k.Clad) : k.ArmorAgrees := by
  intro slot hslot
  rcases h.plates slot hslot with ⟨hzero, hnone⟩ | ⟨hpos, -, u, it, hworn, hit, hdata, hrun⟩
  · refine ⟨⟨fun hp => absurd hzero (Nat.ne_of_gt hp), ?_⟩, fun _ => hzero, fun _ => hnone⟩
    rintro ⟨e, it, he, -⟩
    rw [hnone] at he
    cases he
  · refine ⟨⟨fun _ => ⟨_, it, hworn, hit, hdata, hrun⟩, fun _ => hpos⟩, fun hn => ?_,
      fun hz => absurd hz (Nat.ne_of_gt hpos)⟩
    rw [hn] at hworn
    cases hworn

theorem Clad.item (h : k.Clad) (hu : u ∈ k.wornBut slotNone) :
    ∃ slot it, k.clientUIDs.lookup u = some it ∧ armorSlot it.data = some slot := by
  obtain ⟨slot, hslot, -, e, he, rfl⟩ := mem_wornBut.mp hu
  rcases h.plates slot hslot with ⟨-, hnone⟩ | ⟨-, harmor, u, it, hworn, hit, hdata, -⟩
  · rw [hnone] at he
    cases he
  · obtain rfl : (⟨slot, k.slotData slot, u⟩ : Equipment) = e := Option.some.inj (hworn.symm.trans he)
    exact ⟨slot, it, hit, hdata ▸ harmor⟩

theorem Plate.same (h : k.Plate slot) (hw : k'.worn slot = k.worn slot)
    (hd : k'.slotData slot = k.slotData slot) (hr : k'.slotRuntime slot = k.slotRuntime slot)
    (hi : ∀ e, k.worn slot = some e →
      (k'.clientUIDs.lookup e.unique).map sheet = (k.clientUIDs.lookup e.unique).map sheet) :
    k'.Plate slot := by
  unfold Plate
  rw [hw, hd, hr]
  refine h.imp id fun ⟨hpos, harmor, u, it, hworn, hit, hdata, hrun⟩ => ⟨hpos, harmor, u, ?_⟩
  have hsame := hi _ hworn
  rw [hit] at hsame
  obtain ⟨it', hit', hsheet⟩ := Option.map_eq_some_iff.mp hsame
  obtain ⟨h1, h2⟩ := Prod.mk.inj hsheet
  exact ⟨it', hworn, hit', h1.trans hdata, h2.trans hrun⟩

-- What an operation that is none of armour leaves as it was.
structure Spared (k k' : Kit) : Prop where
  nodup : (slotsOf k.equipment).Nodup → (slotsOf k'.equipment).Nodup
  bare : ∀ slot ∈ armorSlots, k.weapon slot = none → k'.weapon slot = none
  worn : ∀ slot ∈ armorSlots, k'.worn slot = k.worn slot
  durs : (k'.vestData, k'.vestDur, k'.helmetData, k'.helmetDur) =
    (k.vestData, k.vestDur, k.helmetData, k.helmetDur)
  items : ∀ u ∈ k.wornBut slotNone,
    (k'.clientUIDs.lookup u).map sheet = (k.clientUIDs.lookup u).map sheet

theorem Clad.spared (h : k.Clad) (hs : k.Spared k') : k'.Clad := by
  obtain ⟨h1, h2, h3, h4⟩ : k'.vestData = k.vestData ∧ k'.vestDur = k.vestDur ∧
      k'.helmetData = k.helmetData ∧ k'.helmetDur = k.helmetDur := by
    simpa only [Prod.mk.injEq] using hs.durs
  refine ⟨hs.nodup h.nodup, fun slot hslot => hs.bare slot hslot (h.bare slot hslot),
    fun slot hslot => (h.plates slot hslot).same (hs.worn slot hslot) ?_ ?_
      fun e he => hs.items _ (mem_worn hslot he)⟩
  · unfold slotData
    rw [h1, h3]
  · unfold slotRuntime
    rw [h2, h4]

theorem Spared.of_goods (he : k'.equipment = k.equipment) (hw : k'.weapons = k.weapons)
    (hd : (k'.vestData, k'.vestDur, k'.helmetData, k'.helmetDur) =
      (k.vestData, k.vestDur, k.helmetData, k.helmetDur))
    (hi : ∀ u ∈ k.wornBut slotNone,
      (k'.clientUIDs.lookup u).map sheet = (k.clientUIDs.lookup u).map sheet) : k.Spared k' := by
  refine ⟨fun h => he ▸ h, fun slot _ h => ?_, fun slot _ => ?_, hd, hi⟩
  · unfold weapon
    rw [hw]
    exact h
  · unfold Kit.worn
    rw [he]

theorem sheet_insert {m : GoMap InvItem} (h : u ≠ unique) :
    ((m.insert unique it).lookup u).map sheet = (m.lookup u).map sheet := by
  rw [AList.lookup_insert_ne h]

theorem clad_reissued (h : k.Clad) (hs : k.SparesArmor x .reissue) :
    (k.apply x .reissue).Clad := by
  refine h.spared ?_
  change k.Spared (k.reissued x.w x.order x.slots).1
  rw [reissued_eq]
  split
  · rename_i hzero
    refine Spared.of_goods rfl rfl rfl fun u hu => sheet_insert ?_
    rintro rfl
    exact hs hzero hu
  · rename_i hfound
    refine Spared.of_goods rfl rfl rfl fun u hu => sheet_insert ?_
    rintro rfl
    obtain ⟨slot, it, hit, harmor⟩ := h.item hu
    obtain ⟨it', hit', hdata⟩ := medkitUID_some hfound
    obtain rfl : it = it' := Option.some.inj (hit.symm.trans hit')
    rw [hdata] at harmor
    exact absurd harmor (by simp [armorSlot, medkitData])

theorem Clad.leaves (h : k.Clad) (hu : unique ∉ k.wornBut slotNone) (hslot : slot ∈ armorSlots) :
    k.leaves order unique ≠ some slot := by
  intro hl
  unfold Kit.leaves at hl
  cases hf : k.findLoadoutWeapon order unique with
  | some s =>
    rw [hf] at hl
    obtain rfl : s = slot := Option.some.inj hl
    obtain ⟨wp, hwp, -⟩ := findLoadoutWeapon_some hf
    rw [h.bare s hslot] at hwp
    cases hwp
  | none =>
    rw [hf] at hl
    obtain ⟨e, he, rfl⟩ := Option.map_eq_some_iff.mp hl
    have hunique : e.unique = unique := by simpa using List.find?_some he
    refine hu (hunique ▸ mem_worn hslot ((wornAt_iff h.nodup).mpr ⟨?_, rfl⟩))
    exact List.mem_of_find?_eq_some he

theorem spared_removeTracked (h : k.Clad) (hu : unique ∉ k.wornBut slotNone) :
    k.Spared (k.removeTracked order unique) := by
  refine ⟨fun hn => ?_, fun slot hslot hw => ?_, fun slot hslot => ?_, ?_, fun u hu' => ?_⟩
  · rw [removeTracked_eq]
    exact nodup_vacated hn
  · rw [weapon_removeTracked, hw]
    split <;> rfl
  · rw [removeTracked_eq]
    unfold worn
    dsimp only
    rw [wornAt_vacated, if_neg (h.leaves hu hslot)]
  · rw [removeTracked_eq]
  · rw [removeTracked_eq]
    dsimp only
    rw [AList.lookup_erase_ne]
    rintro rfl
    exact hu hu'

theorem worn_slotted {data : Nat} {s : Nat} (he : k'.equipment = slotted k.equipment slot data unique)
    (hslot : slot ∉ armorSlots) (hs : s ∈ armorSlots) : k'.worn s = k.worn s := by
  unfold worn
  rw [he, wornAt_slotted, if_neg]
  rintro rfl
  exact hslot hs

theorem clad_issue {coins : Option Nat} {noLoadout infiniteGloo : Bool} :
    (k.apply x (.issue coins noLoadout infiniteGloo)).Clad := by
  have hclad : ∀ j : Kit, (slotsOf j.equipment).Nodup →
      (∀ slot ∈ armorSlots, slot ∉ slotsOf j.equipment) →
      (∀ slot ∈ armorSlots, j.weapon slot = none) → j.vestDur = 0 → j.helmetDur = 0 → j.Clad := by
    intro j hn hfree hbare hv hh
    refine ⟨hn, hbare, fun slot hslot => Or.inl ⟨?_, wornAt_eq_none.mpr (hfree slot hslot)⟩⟩
    unfold slotRuntime
    rw [hv, hh]
    split
    · rfl
    · split <;> rfl
  change (Kit.issue x k coins noLoadout infiniteGloo).Clad
  unfold issue
  rw [baseLoadout_eq]
  cases infiniteGloo <;> cases noLoadout
  all_goals refine hclad _ ?_ ?_ ?_ rfl rfl
  all_goals first
    | exact (by decide : ([slotMelee, slotSecondary] : List Nat).Nodup)
    | exact (by decide : ([slotMelee] : List Nat).Nodup)
    | exact (by decide : ([slotMelee, slotSecondary, slotBuilding] : List Nat).Nodup)
    | exact (by decide : ([slotMelee, slotBuilding] : List Nat).Nodup)
    | exact (by decide : ∀ slot ∈ armorSlots, slot ∉ [slotMelee, slotSecondary])
    | exact (by decide : ∀ slot ∈ armorSlots, slot ∉ [slotMelee])
    | exact (by decide : ∀ slot ∈ armorSlots, slot ∉ [slotMelee, slotSecondary, slotBuilding])
    | exact (by decide : ∀ slot ∈ armorSlots, slot ∉ [slotMelee, slotBuilding])
    | exact fun slot _ => rfl
    | intro slot hslot
      exact AList.lookup_insert_ne fun hs => absurd (hs ▸ hslot) (by decide)

theorem armor_of_slot {item : ShopItem} (h : (placeItem item).slot ∈ armorSlots) :
    (placeItem item).isArmor = true ∧ (placeItem item).isWeapon = false := by
  revert h
  unfold placeItem placeBySlotKind
  repeat' split
  all_goals simp [armorSlots, slotVest, slotHelmet, slotSecondary, slotNone, slotMelee, slotExplosive,
    slotBuilding]

theorem equipMaxDur_pos {data : Nat} (h : armorSlot data = some slot) : 0 < equipMaxDur data := by
  unfold armorSlot at h
  split at h
  all_goals first
    | decide
    | cases h

theorem armorSlot_mem {data : Nat} (h : armorSlot data = some slot) : slot ∈ armorSlots := by
  unfold armorSlot at h
  split at h
  all_goals first
    | (obtain rfl := Option.some.inj h; decide)
    | cases h

theorem spared_addPurchasedItem {item : ShopItem} {qty : Nat} (h : k.Clad)
    (hwpn : (placeItem item).isWeapon = false) (hslot : (placeItem item).slot ∉ armorSlots)
    (harmor : armorSlot item.itemID = none)
    (hfresh : k.stackOf order item = none → k.nextUID ∉ k.wornBut slotNone) :
    k.Spared (k.addPurchasedItem x.w order x.slots item qty).1 := by
  have hspared : ∀ (j : Kit) (u : Nat), j.equipment = k.wornAs item u → j.weapons = k.weapons →
      (j.vestData, j.vestDur, j.helmetData, j.helmetDur) =
        (k.vestData, k.vestDur, k.helmetData, k.helmetDur) →
      (∀ v ∈ k.wornBut slotNone, (j.clientUIDs.lookup v).map sheet =
        (k.clientUIDs.lookup v).map sheet) → k.Spared j := by
    intro j u he hw hd hi
    refine ⟨fun hn => ?_, fun slot _ hb => ?_, fun slot hs => ?_, hd, hi⟩
    · rw [he]
      unfold wornAs
      split
      · exact nodup_slotted hn
      · exact hn
    · unfold weapon
      rw [hw]
      exact hb
    · unfold worn
      rw [he]
      unfold wornAs
      split
      · rw [wornAt_slotted, if_neg]
        rintro rfl
        exact hslot hs
      · rfl
  cases hs : k.stackOf order item with
  | none =>
    rw [addPurchasedItem_new hwpn hs]
    refine hspared _ k.nextUID rfl rfl rfl fun v hv => sheet_insert ?_
    rintro rfl
    exact hfresh hs hv
  | some stack =>
    obtain ⟨u, it⟩ := stack
    rw [addPurchasedItem_merge hwpn hs]
    unfold stackOf at hs
    rw [Option.ite_none_left_eq_some] at hs
    obtain ⟨hit, -, hdata⟩ := trackedByData_some hs.2
    refine hspared _ u rfl rfl rfl fun v hv => sheet_insert ?_
    rintro rfl
    obtain ⟨slot, it', hit', hslot'⟩ := h.item hv
    obtain rfl : it' = it := Option.some.inj (hit'.symm.trans hit)
    rw [hdata, harmor] at hslot'
    cases hslot'

theorem wornBut_of_worn (h : ∀ slot ∈ armorSlots, k'.worn slot = k.worn slot) :
    k'.wornBut slot = k.wornBut slot := by
  unfold wornBut
  refine List.filterMap_congr fun s hs => ?_
  rw [h s (List.mem_filter.mp hs).1]

theorem Spared.trans {j : Kit} (h : k.Spared j) (h' : j.Spared k') : k.Spared k' := by
  refine ⟨fun hn => h'.nodup (h.nodup hn), fun slot hs hb => h'.bare slot hs (h.bare slot hs hb),
    fun slot hs => (h'.worn slot hs).trans (h.worn slot hs), h'.durs.trans h.durs, fun u hu => ?_⟩
  exact (h'.items u (by rwa [wornBut_of_worn h.worn])).trans (h.items u hu)

theorem spared_slotted {data : Nat} (hslot : slot ∉ armorSlots) :
    k.Spared { k with equipment := slotted k.equipment slot data unique } :=
  ⟨nodup_slotted, fun _ _ hb => hb, fun _ hs => worn_slotted rfl hslot hs, rfl, fun _ _ => rfl⟩

theorem spared_put {ws : GoMap CsWeapon} {wp : CsWeapon} (h : k.weapons = some ws)
    (hslot : slot ∉ armorSlots) : k.Spared { k with weapons := some (ws.insert slot wp) } := by
  refine ⟨id, fun s hs hb => ?_, fun _ _ => rfl, rfl, fun _ _ => rfl⟩
  have hne : s ≠ slot := fun heq => hslot (heq ▸ hs)
  change (ws.insert slot wp).lookup s = none
  rw [AList.lookup_insert_ne hne]
  simpa [weapon, h] using hb

theorem spared_insert (hu : unique ∉ k.wornBut slotNone) :
    k.Spared { k with clientUIDs := k.clientUIDs.insert unique it } :=
  Spared.of_goods rfl rfl rfl fun _ hv => sheet_insert fun heq => hu (heq ▸ hv)

theorem spared_erase (hu : unique ∉ k.wornBut slotNone) :
    k.Spared { k with clientUIDs := k.clientUIDs.erase unique } := by
  refine Spared.of_goods rfl rfl rfl fun v hv => congrArg (Option.map sheet) ?_
  refine AList.lookup_erase_ne ?_
  rintro rfl
  exact hu hv

theorem spared_stocked {w : World} {slots : List Nat} {item : ShopItem} {ammo : Nat}
    (h : k.nextUID ∉ k.wornBut slotNone) (ha : k.ammoUID ∉ k.wornBut slotNone) :
    k.Spared { k with clientUIDs := k.stocked w slots item ammo } := by
  refine Spared.of_goods rfl rfl rfl fun v hv => ?_
  change ((k.stocked w slots item ammo).lookup v).map sheet = _
  have hne : v ≠ k.nextUID := fun heq => h (heq ▸ hv)
  have hna : v ≠ k.ammoUID := fun heq => ha (heq ▸ hv)
  unfold stocked
  dsimp only
  split
  · rw [AList.lookup_insert_ne hna, AList.lookup_insert_ne hne]
  · rw [AList.lookup_insert_ne hne]

theorem spared_addWeapon {w : World} {slots : List Nat} {item : ShopItem} {qty ammo : Nat}
    (hslot : slot ∉ armorSlots) (h : k.nextUID ∉ k.wornBut slotNone)
    (ha : k.ammoUID ∉ k.wornBut slotNone)
    (hold : ∀ old ∈ k.weapon slot, old.unique ∉ k.wornBut slotNone) :
    k.Spared (k.addWeapon w slots item qty slot ammo).1 := by
  have hstocked := @spared_stocked _ w slots item ammo h ha
  cases hws : k.weapons with
  | none =>
    rw [addWeapon_nil hws]
    exact hstocked.trans (Spared.of_goods rfl rfl rfl fun _ _ => rfl)
  | some ws =>
    have hgoods : k.Spared
        { k with clientUIDs := (k.addWeapon w slots item qty slot ammo).1.clientUIDs } := by
      have hlook : ∀ old ∈ ws.lookup slot, old.unique ∉ k.wornBut slotNone :=
        fun old ho => hold old (by simpa [weapon, hws] using ho)
      rw [addWeapon_some hws]
      dsimp only
      cases hl : ws.lookup slot with
      | none => exact hstocked
      | some old =>
        rw [hl] at hlook
        exact hstocked.trans (spared_erase (hlook old rfl))
    rw [addWeapon_some hws] at hgoods ⊢
    dsimp only at hgoods ⊢
    refine Spared.trans hgoods ?_
    refine Spared.trans (@spared_slotted _ slot k.nextUID item.itemID
      hslot) ?_
    refine Spared.trans (@spared_put _ slot _ ⟨slot, item.itemID, k.nextUID, ammo⟩ hws
      hslot) ?_
    exact Spared.of_goods rfl rfl rfl fun _ _ => rfl

theorem helmet_ne : slotHelmet ≠ slotVest := by decide

theorem slotData_equipArmor {data a : Nat} (ha : a ∈ armorSlots) : (k.equipArmor data a).slotData slot =
    if slot = a then data else k.slotData slot := by
  simp only [armorSlots, List.mem_cons, List.not_mem_nil, or_false] at ha
  rcases ha with rfl | rfl
  · by_cases hv : slot = slotVest <;> simp [equipArmor, slotData, hv]
  · by_cases hv : slot = slotVest
    · simp [equipArmor, slotData, hv, helmet_ne, helmet_ne.symm]
    · by_cases hh : slot = slotHelmet <;> simp [equipArmor, slotData, hv, hh, helmet_ne]

theorem slotRuntime_equipArmor {data a : Nat} (ha : a ∈ armorSlots) :
    (k.equipArmor data a).slotRuntime slot =
      if slot = a then equipMaxDur data else k.slotRuntime slot := by
  simp only [armorSlots, List.mem_cons, List.not_mem_nil, or_false] at ha
  rcases ha with rfl | rfl
  · by_cases hv : slot = slotVest <;> simp [equipArmor, slotRuntime, hv]
  · by_cases hv : slot = slotVest
    · simp [equipArmor, slotRuntime, hv, helmet_ne, helmet_ne.symm]
    · by_cases hh : slot = slotHelmet <;> simp [equipArmor, slotRuntime, hv, hh, helmet_ne]

theorem equipArmor_rest {data a : Nat} : (k.equipArmor data a).equipment = k.equipment ∧
    (k.equipArmor data a).weapons = k.weapons ∧ (k.equipArmor data a).clientUIDs = k.clientUIDs := by
  unfold equipArmor
  split
  · exact ⟨rfl, rfl, rfl⟩
  · split <;> exact ⟨rfl, rfl, rfl⟩

theorem clad_armor {w : World} {slots : List Nat} {item : ShopItem} {qty : Nat} {now : Int}
    (h : k.Clad) (hm : item.itemID ≠ itemMushroom) (hslot : (placeItem item).slot ∈ armorSlots)
    (harmor : armorSlot item.itemID = some (placeItem item).slot)
    (hfresh : k.nextUID ∉ k.wornBut (placeItem item).slot) :
    (k.purchase w order slots now item qty).Clad := by
  obtain ⟨hisarmor, hwpn⟩ := armor_of_slot hslot
  have hstack : k.stackOf order item = none := if_pos hisarmor
  have hkit : k.purchase w order slots now item qty = { k with
      uidCounter := k.nextUID
      clientUIDs := k.clientUIDs.insert k.nextUID (k.newPiece item qty)
      equipment := slotted k.equipment (placeItem item).slot item.itemID k.nextUID }.equipArmor
        item.itemID (placeItem item).slot := by
    unfold purchase
    rw [if_neg hm, addPurchasedItem_new hwpn hstack, harmor]
    unfold wornAs
    rw [if_pos (slot_ne_none hslot)]
  rw [hkit]
  generalize hj : ({ k with
      uidCounter := k.nextUID
      clientUIDs := k.clientUIDs.insert k.nextUID (k.newPiece item qty)
      equipment := slotted k.equipment (placeItem item).slot item.itemID k.nextUID } : Kit) = j
  have hes : j.equipment = slotted k.equipment (placeItem item).slot item.itemID k.nextUID := by
    rw [← hj]
  have hgoods : j.clientUIDs = k.clientUIDs.insert k.nextUID (k.newPiece item qty) := by rw [← hj]
  have hws : j.weapons = k.weapons := by rw [← hj]
  have hdata : ∀ s, j.slotData s = k.slotData s ∧ j.slotRuntime s = k.slotRuntime s := by
    intro s
    rw [← hj]
    exact ⟨rfl, rfl⟩
  obtain ⟨h1, h2, h3⟩ := @equipArmor_rest j item.itemID ((placeItem item).slot)
  refine ⟨?_, fun s hs => ?_, fun s hs => ?_⟩
  · rw [h1, hes]
    exact nodup_slotted h.nodup
  · unfold weapon
    rw [h2, hws]
    exact h.bare s hs
  · have hworn : (j.equipArmor item.itemID (placeItem item).slot).worn s =
        if s = (placeItem item).slot then some ⟨(placeItem item).slot, item.itemID, k.nextUID⟩
        else k.worn s := by
      unfold worn
      rw [h1, hes, wornAt_slotted]
    by_cases heq : s = (placeItem item).slot
    · rw [if_pos heq] at hworn
      unfold Plate
      rw [slotData_equipArmor hslot, slotRuntime_equipArmor hslot, if_pos heq, if_pos heq, hworn, h3,
        hgoods]
      refine Or.inr ⟨equipMaxDur_pos harmor, heq ▸ harmor, k.nextUID, k.newPiece item qty,
        by rw [heq], AList.lookup_insert _, rfl, ?_⟩
      unfold newPiece
      rw [if_pos hisarmor]
    · rw [if_neg heq] at hworn
      refine (h.plates s hs).same hworn ?_ ?_ fun e he => ?_
      · rw [slotData_equipArmor hslot, if_neg heq]
        exact (hdata s).1
      · rw [slotRuntime_equipArmor hslot, if_neg heq]
        exact (hdata s).2
      · rw [h3, hgoods]
        refine sheet_insert ?_
        rintro hu
        exact hfresh (mem_wornBut.mpr ⟨s, hs, heq, e, he, hu⟩)

theorem clad_buy {item : ShopItem} {qty : Nat} (h : k.Clad) (hs : k.SparesArmor x (.buy item qty)) :
    (k.apply x (.buy item qty)).Clad := by
  change ((k.charged x item qty).purchase x.w x.order x.slots x.now item qty).Clad
  obtain ⟨coins, hcoins⟩ := @charged_eq x k item qty
  rw [hcoins]
  have hc : ({ k with coins := coins } : Kit).Clad :=
    h.spared (Spared.of_goods rfl rfl rfl fun _ _ => rfl)
  have hsc : ({ k with coins := coins } : Kit).SparesArmor x (.buy item qty) := hs
  generalize ({ k with coins := coins } : Kit) = j at hc hsc
  by_cases hm : item.itemID = itemMushroom
  · rw [purchase_mushroom hm]
    exact hc.spared (Spared.of_goods rfl rfl rfl fun _ _ => rfl)
  obtain ⟨hplaces, hfresh⟩ := hsc hm
  by_cases hslot : (placeItem item).slot ∈ armorSlots
  · rw [if_neg (by rw [(armor_of_slot hslot).2]; decide)] at hfresh
    exact clad_armor hc hm hslot ((hplaces _ hslot).mp rfl) (hfresh (if_pos (armor_of_slot hslot).1))
  · have harmor : armorSlot item.itemID = none := by
      by_contra hne
      obtain ⟨a, ha⟩ := Option.ne_none_iff_exists'.mp hne
      have hmem := armorSlot_mem ha
      exact hslot ((hplaces a hmem).mpr ha ▸ hmem)
    rw [purchase_goods hm harmor]
    cases hwpn : (placeItem item).isWeapon with
    | true =>
      rw [if_pos hwpn] at hfresh
      rw [addPurchasedItem_weapon hwpn]
      refine hc.spared (spared_addWeapon ?_ hfresh.1 hfresh.2.1 hfresh.2.2)
      split
      · rcases pickPrimarySlot_cases (k := j) with hp | hp <;> rw [hp] <;> decide
      · exact hslot
    | false =>
      rw [if_neg (by rw [hwpn]; decide)] at hfresh
      refine hc.spared (spared_addPurchasedItem hc hwpn hslot harmor fun hn hu => hfresh hn ?_)
      obtain ⟨s, h1, -, h2⟩ := mem_wornBut.mp hu
      exact mem_wornBut.mpr ⟨s, h1, fun heq => hslot (heq ▸ h1), h2⟩

theorem pickupWeaponSlot_free {isPrimary : Bool} : k.pickupWeaponSlot isPrimary ∉ armorSlots := by
  unfold pickupWeaponSlot
  split
  · rcases pickPrimarySlot_cases (k := k) with h | h <;> rw [h] <;> decide
  · decide

theorem spared_cleared {isPrimary : Bool}
    (hold : ∀ old ∈ k.weapon (k.pickupWeaponSlot isPrimary), old.unique ∉ k.wornBut slotNone) :
    k.Spared (k.cleared it isPrimary) := by
  rcases @cleared_cases k it isPrimary with heq | ⟨old, hw, -, heq⟩
  · rw [heq]
    exact Spared.of_goods rfl rfl rfl fun _ _ => rfl
  · rw [heq, removeWeapon_eq]
    refine Spared.trans (spared_erase (hold old hw)) ⟨nodup_unslotted, fun s _ hb => ?_, fun s hs => ?_,
      rfl, fun _ _ => rfl⟩
    · have he := weapon_eraseWeapon (k := k) (a := k.pickupWeaponSlot isPrimary) (s := s)
      change (k.eraseWeapon _).weapon s = none
      rw [he]
      split
      · rfl
      · exact hb
    · unfold worn
      dsimp only
      rw [wornAt_unslotted, if_neg]
      rintro rfl
      exact pickupWeaponSlot_free hs

theorem clad_install {isPrimary : Bool} (h : k.Clad) (hs : k.SparesArmor x (.install it isPrimary)) :
    (k.apply x (.install it isPrimary)).Clad := by
  change (k.install x it isPrimary).Clad
  by_cases hn : k.weapons = none
  · rw [install_nil hn]
    exact h
  · obtain ⟨ws, hws⟩ := Option.ne_none_iff_exists'.mp (@weapons_cleared _ it isPrimary hn)
    have hclear := @spared_cleared _ it _ hs.2
    rw [install_eq hws]
    dsimp only
    refine (h.spared hclear).spared ?_
    have hfree : it.unique ∉ (k.cleared it isPrimary).wornBut slotNone := by
      rw [wornBut_of_worn hclear.worn]
      exact hs.1
    refine Spared.trans (@spared_insert _ _ it hfree) ?_
    refine Spared.trans (@spared_slotted _ (k.pickupWeaponSlot isPrimary) it.unique it.data
      pickupWeaponSlot_free) ?_
    refine Spared.trans (@spared_put _ (k.pickupWeaponSlot isPrimary) _
      ⟨k.pickupWeaponSlot isPrimary, it.data, it.unique, (weaponAmmo it.data).getD 0⟩ hws
      pickupWeaponSlot_free) ?_
    exact Spared.of_goods rfl rfl rfl fun _ _ => rfl

theorem clad_take (h : k.Clad) (hs : k.SparesArmor x (.take it)) : (k.apply x (.take it)).Clad := by
  change (k.take x.order it).Clad
  unfold take
  cases hstack : k.trackedByData x.order it.data it.unique with
  | none => exact h.spared (spared_insert hs.1)
  | some stack =>
    obtain ⟨u, existing⟩ := stack
    have hu : u ∉ k.wornBut slotNone := hs.2 _ hstack
    have hgone := @spared_removeTracked _ _ x.order h hu
    dsimp only
    generalize hj : k.removeTracked x.order u = j at hgone
    generalize hit : ({ it with count := (it.count + existing.count) % 2 ^ 32 } : InvItem) = merged
    have hmu : merged.unique = it.unique := by rw [← hit]
    have hpoint : j.Spared (k.repoint u merged j) := by
      have hhand : ∀ j : Kit, j.Spared (if k.itemOnHand = u then
          { j with itemOnHand := merged.unique } else j) := by
        intro j
        split
        · exact Spared.of_goods rfl rfl rfl fun _ _ => rfl
        · exact Spared.of_goods rfl rfl rfl fun _ _ => rfl
      unfold repoint
      cases he : k.equipSlotOf u with
      | none => exact hhand j
      | some e =>
        obtain ⟨hmem, hunique⟩ := equipSlotOf_some he
        dsimp only
        rw [setEquip_eq]
        refine Spared.trans (spared_slotted fun hslot => hu ?_) (hhand _)
        exact hunique ▸ mem_worn hslot ((wornAt_iff h.nodup).mpr ⟨hmem, rfl⟩)
    have hall := hgone.trans hpoint
    refine (h.spared hall).spared (spared_insert ?_)
    rw [wornBut_of_worn hall.worn, hmu]
    exact hs.1

theorem clad_equip {dst : Nat} (h : k.Clad) (hs : k.SparesArmor x (.equip dst unique)) :
    (k.apply x (.equip dst unique)).Clad := by
  change (k.equip dst unique).Clad
  obtain ⟨hdst, hu⟩ := hs
  unfold equip
  cases ht : k.target unique with
  | none => exact h
  | some target =>
    obtain ⟨oldSlot, data⟩ := target
    dsimp only
    split
    · exact h
    have hsrc : oldSlot ∉ armorSlots := by
      rcases target_cases ht with ⟨e, he, rfl, -⟩ | ⟨-, rfl, -⟩
      · obtain ⟨hmem, hunique⟩ := equipSlotOf_some he
        intro hslot
        exact hu (hunique ▸ mem_worn hslot ((wornAt_iff h.nodup).mpr ⟨hmem, rfl⟩))
      · decide
    have hbare : ∀ slot ∈ armorSlots, k.weapon slot = none →
        (Core.moveItem k dst unique data oldSlot (k.equipAt dst)).weapon slot = none := by
      intro slot hslot hb
      have h1 : slot ≠ dst := fun heq => hdst (heq ▸ hslot)
      have h2 : slot ≠ oldSlot := fun heq => hsrc (heq ▸ hslot)
      rw [weapon_moveItem]
      simp [h1, h2, hb]
    obtain ⟨ws, hmove⟩ := @moveItem_eq k unique dst data oldSlot (k.equipAt dst)
    rw [hmove] at hbare ⊢
    refine h.spared ⟨nodup_reslotted, hbare, fun slot hslot => ?_, rfl, fun _ _ => rfl⟩
    unfold worn
    dsimp only
    rw [wornAt_reslotted, if_neg, if_neg]
    · rintro ⟨rfl, -⟩
      exact hsrc hslot
    · rintro rfl
      exact hdst hslot

theorem clad_syncArmor {j : Kit} (h : k.Clad) (hslot : slot ∈ armorSlots)
    (hpos : 0 < k.slotRuntime slot) (hfresh : k.nextUID ∉ k.wornBut slot)
    (hj : ∃ vd vr hd hr, j = { k with vestData := vd, vestDur := vr, helmetData := hd, helmetDur := hr })
    (hzero : 0 < j.slotRuntime slot → j.slotData slot = k.slotData slot)
    (hother : ∀ s, s ≠ slot → j.slotData s = k.slotData s ∧ j.slotRuntime s = k.slotRuntime s) :
    (j.syncArmor slot).Clad := by
  obtain ⟨-, harmor, u, it, hworn, hit, hdata, -⟩ := (h.plates slot hslot).resolve_left fun hz =>
    absurd hz.1 (Nat.ne_of_gt hpos)
  have hfound : j.equipAt slot = some ⟨slot, k.slotData slot, u⟩ := by
    have hd0 : k.slotData slot ≠ 0 := by
      intro hz
      rw [hz] at harmor
      cases harmor
    have hfind : j.equipment.find? (fun e => e.slot == slot) = some ⟨slot, k.slotData slot, u⟩ := by
      obtain ⟨vd, vr, hd, hr, rfl⟩ := hj
      exact hworn
    unfold equipAt
    rw [hfind]
    simp [Option.filter, hd0]
  -- The two pieces of a player are different items: their data tell them apart.
  have hapart : ∀ s ∈ armorSlots, s ≠ slot → ∀ e, k.worn s = some e → e.unique ≠ u := by
    intro s hs hne e he hu
    obtain ⟨-, harmor', u', it', hworn', hit', hdata', -⟩ := (h.plates s hs).resolve_left fun hz => by
      rw [hz.2] at he
      cases he
    obtain rfl : (⟨s, k.slotData s, u'⟩ : Equipment) = e := Option.some.inj (hworn'.symm.trans he)
    obtain rfl : u' = u := hu
    obtain rfl : it' = it := Option.some.inj (hit'.symm.trans hit)
    rw [← hdata', hdata, harmor] at harmor'
    exact hne (Option.some.inj harmor').symm
  obtain ⟨hes, hgoods, hws, huid⟩ : j.equipment = k.equipment ∧ j.clientUIDs = k.clientUIDs ∧
      j.weapons = k.weapons ∧ j.nextUID = k.nextUID := by
    obtain ⟨vd, vr, hd, hr, rfl⟩ := hj
    exact ⟨rfl, rfl, rfl, rfl⟩
  have hbare : ∀ s ∈ armorSlots, j.weapon s = none := by
    intro s hs
    unfold weapon
    rw [hws]
    exact h.bare s hs
  have hkept : ∀ {l : Kit} (s : Nat), s ∈ armorSlots → s ≠ slot → l.worn s = k.worn s →
      l.slotData s = j.slotData s → l.slotRuntime s = j.slotRuntime s →
      (∀ e, k.worn s = some e → (l.clientUIDs.lookup e.unique).map sheet =
        (k.clientUIDs.lookup e.unique).map sheet) → l.Plate s := by
    intro l s hs hne hw hd hr hi
    exact (h.plates s hs).same hw (hd.trans (hother s hne).1) (hr.trans (hother s hne).2) hi
  unfold syncArmor
  rw [hfound]
  dsimp only
  split
  · rename_i hbroke
    refine ⟨?_, hbare, fun s hs => ?_⟩
    · change (slotsOf (unslotted j.equipment slot)).Nodup
      rw [hes]
      exact nodup_unslotted h.nodup
    · have hworn' : ((j.clearEquip slot).untrack u).worn s = if s = slot then none else k.worn s := by
        change wornAt (unslotted j.equipment slot) s = _
        rw [wornAt_unslotted, hes]
        rfl
      by_cases hs' : s = slot
      · rw [if_pos hs'] at hworn'
        exact Or.inl ⟨hs' ▸ hbroke, hworn'⟩
      · rw [if_neg hs'] at hworn'
        refine hkept s hs hs' hworn' rfl rfl fun e he => congrArg (Option.map sheet) ?_
        change (j.clientUIDs.erase u).lookup e.unique = _
        rw [AList.lookup_erase_ne (hapart s hs hs' e he), hgoods]
  · rename_i hleft
    have hleft : 0 < j.slotRuntime slot := Nat.pos_of_ne_zero hleft
    rw [setEquip_eq]
    refine ⟨?_, hbare, fun s hs => ?_⟩
    · change (slotsOf (slotted j.equipment slot (k.slotData slot) j.nextUID)).Nodup
      rw [hes]
      exact nodup_slotted h.nodup
    · have hworn' : wornAt (slotted j.equipment slot (k.slotData slot) j.nextUID) s =
          if s = slot then some ⟨slot, k.slotData slot, j.nextUID⟩ else k.worn s := by
        rw [wornAt_slotted, hes]
        rfl
      by_cases hs' : s = slot
      · subst hs'
        rw [if_pos rfl, ← hzero hleft] at hworn'
        refine Or.inr ⟨hleft, ?_, j.nextUID, ⟨j.nextUID, j.slotData s, 1, j.slotRuntime s⟩, ?_, ?_, rfl,
          rfl⟩
        · change armorSlot (j.slotData s) = some s
          rw [hzero hleft]
          exact harmor
        · rw [← hzero hleft]
          exact hworn'
        · rw [← hzero hleft]
          exact AList.lookup_insert _
      · rw [if_neg hs'] at hworn'
        refine hkept s hs hs' hworn' rfl rfl fun e he => congrArg (Option.map sheet) ?_
        have hne : e.unique ≠ j.nextUID := by
          rw [huid]
          rintro heq
          exact hfresh (mem_wornBut.mpr ⟨s, hs, hs', e, he, heq⟩)
        change ((j.clientUIDs.erase u).insert j.nextUID _).lookup e.unique = _
        rw [AList.lookup_insert_ne hne, AList.lookup_erase_ne (hapart s hs hs' e he), hgoods]

theorem clad_wear {bodyPart netDmg : Nat} (h : k.Clad) (hs : k.SparesArmor x (.wear bodyPart netDmg)) :
    (k.apply x (.wear bodyPart netDmg)).Clad := by
  change (k.wear bodyPart netDmg).Clad
  have hfresh : k.nextUID ∉ k.wornBut (if bodyPart = bodyHead then slotHelmet else slotVest) := hs
  unfold wear
  by_cases hhead : bodyPart = bodyHead
  · rw [if_pos hhead] at hfresh ⊢
    split
    · rename_i hpos
      refine clad_syncArmor h (by decide) (by simpa [slotRuntime, helmet_ne] using hpos) hfresh
        ⟨_, _, _, _, rfl⟩ (fun hleft => ?_) fun s hne => ?_
      · have hdur : wearDown k.helmetDur netDmg (armorReduction k.helmetData) ≠ 0 := by
          have hleft' : 0 < wearDown k.helmetDur netDmg (armorReduction k.helmetData) := by
            simpa [slotRuntime, wearHelmet, helmet_ne] using hleft
          exact Nat.ne_of_gt hleft'
        simp [slotData, wearHelmet, helmet_ne, hdur]
      · simp [slotData, slotRuntime, wearHelmet, hne]
    · exact h
  · rw [if_neg hhead] at hfresh ⊢
    split
    · split
      · rename_i hpos
        refine clad_syncArmor h (by decide) (by simpa [slotRuntime] using hpos) hfresh
          ⟨_, _, _, _, rfl⟩ (fun hleft => ?_) fun s hne => ?_
        · have hdur : wearDown k.vestDur netDmg (armorReduction k.vestData) ≠ 0 := by
            have hleft' : 0 < wearDown k.vestDur netDmg (armorReduction k.vestData) := by
              simpa [slotRuntime, wearVest] using hleft
            exact Nat.ne_of_gt hleft'
          simp [slotData, wearVest, hdur]
        · simp [slotData, slotRuntime, wearVest, hne]
      · exact h
    · exact h

theorem clad_gloo (h : k.Clad) (hs : (k.glooCount x.order).2 ≠ 0) : (k.apply x .gloo).Clad := by
  change (k.placeGloo x.order).Clad
  obtain ⟨it, hit, hdata, -⟩ := (@glooCount_cases k x.order).resolve_left hs
  have hu : (k.glooCount x.order).1 ∉ k.wornBut slotNone := by
    intro hu
    obtain ⟨slot, it', hit', harmor⟩ := h.item hu
    obtain rfl : it' = it := Option.some.inj (hit'.symm.trans hit)
    rw [hdata] at harmor
    cases harmor
  refine h.spared ?_
  unfold placeGloo consumeGloo
  split
  · refine Spared.trans (spared_erase hu) ⟨nodup_unslotted, fun _ _ hb => hb, fun s hs => ?_, rfl,
      fun _ _ => rfl⟩
    change wornAt (unslotted k.equipment slotBuilding) s = _
    rw [wornAt_unslotted, if_neg]
    · rfl
    · rintro rfl
      exact absurd hs (by decide)
  · rw [hit]
    exact spared_insert hu

theorem clad_use (h : k.Clad) : (k.apply x (.use unique)).Clad := by
  change (k.useUp unique).Clad
  unfold useUp
  cases hit : k.clientUIDs.lookup unique with
  | none => exact h
  | some it =>
    refine h.spared (Spared.of_goods rfl rfl rfl fun u _ => ?_)
    by_cases hu : u = unique
    · subst hu
      change ((k.clientUIDs.insert u { it with count := it.count - 1 }).lookup u).map sheet = _
      rw [AList.lookup_insert, hit]
      rfl
    · exact sheet_insert hu

theorem clad_act {op : Op} (h : k.Clad) (hsound : k.Sound x op) (hs : k.SparesArmor x op) :
    (k.apply x op).Clad := by
  cases op with
  | fund coins => exact h.spared (Spared.of_goods rfl rfl rfl fun _ _ => rfl)
  | pay aw => exact h.spared (Spared.of_goods rfl rfl rfl fun _ _ => rfl)
  | round => exact h.spared (Spared.of_goods rfl rfl rfl fun _ _ => rfl)
  | issue coins noLoadout infiniteGloo => exact clad_issue
  | reissue => exact clad_reissued h hs
  | buy item qty => exact clad_buy h hs
  | install it isPrimary => exact clad_install h hs
  | take it => exact clad_take h hs
  | drop unique => exact h.spared (spared_removeTracked h hs)
  | equip dst unique => exact clad_equip h hs
  | wear bodyPart netDmg => exact clad_wear h hs
  | gloo => exact clad_gloo h hsound
  | hold unique => exact h.spared (Spared.of_goods rfl rfl rfl fun _ _ => rfl)
  | use unique => exact clad_use h

theorem clad_noKit : noKit.Clad := by
  refine ⟨List.nodup_nil, fun _ _ => rfl, fun slot _ => Or.inl ⟨?_, rfl⟩⟩
  unfold slotRuntime
  split
  · rfl
  · split <;> rfl

end Kit

namespace Server

variable {w : World} {v : Server} {es : List Event}

theorem armor_agrees {s : SessionId} (h : Run (Step w) start es v)
    (hok : ∀ y ∈ start.trail w s es, y.1.SparesArmor y.2.1 y.2.2) :
    (v.core.ss s).kit.ArmorAgrees := by
  refine Kit.Clad.agrees (@trail_inv _ _ _ Kit.Clad (fun k a => k.SparesArmor a.1 a.2 ∧
    k.Sound a.1 a.2) _ (fun k k' hr hk => ?_) Kit.clad_noKit
    (fun k a hk ha => Kit.clad_act hk ha.2 ha.1) h
    fun y hy => ⟨hok y hy, (trail_sound hy).1⟩)
  have hes : k'.equipment = k.equipment := (congrArg Kit.equipment hr :)
  have hws : k'.weapons = k.weapons := (congrArg Kit.weapons hr :)
  have hgoods : k'.clientUIDs = k.clientUIDs := (congrArg Kit.clientUIDs hr :)
  have hdurs : (k'.vestData, k'.vestDur, k'.helmetData, k'.helmetDur) =
      (k.vestData, k.vestDur, k.helmetData, k.helmetDur) :=
    (congrArg (fun k : Kit => (k.vestData, k.vestDur, k.helmetData, k.helmetDur)) hr :)
  exact hk.spared (Kit.Spared.of_goods hes hws hdurs fun u _ => by rw [hgoods])

-- The host buys a vest and is hit in it.
def vestHit : List Event :=
  toShop ++ sends 8000000000 0 0 (buyRequest 302 1) ++ [event 18000000000 (.tick 0)] ++
    sends 19000000000 0 0 (damageReport 33554433 0 40)

theorem armor_agrees_on_vest_hit : ∃ v, Run (Step shopWorld) start vestHit v ∧
    (v.core.ss 0).kit.ArmorAgrees := by
  have hrun : ((vestHit.foldlM (step shopWorld) start).map fun v => (v.core.ss 0).kit.vestDur) =
      some 199 := by
    decide +kernel
  obtain ⟨v, hv, -⟩ := Option.map_eq_some_iff.mp hrun
  have hok : ∀ y ∈ start.trail shopWorld 0 vestHit, y.1.SparesArmor y.2.1 y.2.2 := by
    decide +kernel
  exact ⟨v, run_of_foldlM hv, armor_agrees (run_of_foldlM hv) hok⟩

-- A vest that its owner dropped keeps its durability of 220.
theorem armor_dropped : ¬ ∀ w es v s, Run (Step w) start es v → (v.core.ss s).kit.ArmorAgrees := by
  intro hall
  have hrun : (((toShop ++ sends 8000000000 0 0 (buyRequest 302 1) ++
      sends 9000000000 0 0 (dropRequest 4)).foldlM (step shopWorld) start).map fun v : Server =>
      ((v.core.ss 0).kit.vestDur, (v.core.ss 0).kit.worn slotVest)) = some (220, none) := by
    decide +kernel
  obtain ⟨v, hv, hd⟩ := Option.map_eq_some_iff.mp hrun
  obtain ⟨hdur, hworn⟩ := Prod.mk.inj hd
  have hagree := (hall shopWorld _ v 0 (run_of_foldlM hv) slotVest (by decide)).2.mp hworn
  have hzero : (v.core.ss 0).kit.vestDur = 0 := hagree
  rw [hdur] at hzero
  cases hzero

end Server

end MatchServer

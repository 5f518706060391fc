import Madoka.MatchServer.Effects
import Madoka.MatchServer.Loadout

namespace MatchServer

open Lib Function

theorem wornAt_slotted_eq {es : List Equipment} {slot data unique : Nat} :
    wornAt (slotted es slot data unique) = update (wornAt es) slot (some ⟨slot, data, unique⟩) := by
  funext s
  rw [wornAt_slotted, update_apply]

theorem wornAt_unslotted_eq {es : List Equipment} {slot : Nat} :
    wornAt (unslotted es slot) = update (wornAt es) slot none := by
  funext s
  rw [wornAt_unslotted, update_apply]

theorem lookup_insert_eq {β : Type} {m : GoMap β} {a : Nat} {b : β} :
    (fun u => (m.insert a b).lookup u) = update (fun u => m.lookup u) a (some b) := by
  funext u
  rw [update_apply]
  split
  · rename_i h
    rw [h, AList.lookup_insert]
  · rename_i h
    rw [AList.lookup_insert_ne h]

theorem lookup_erase_eq {β : Type} {m : GoMap β} {a : Nat} :
    (fun u => (m.erase a).lookup u) = update (fun u => m.lookup u) a none := by
  funext u
  rw [update_apply]
  split
  · rename_i h
    rw [h, AList.lookup_erase]
  · rename_i h
    rw [AList.lookup_erase_ne h]

namespace Kit

variable (w : World) (k : Kit)

def rack : Rack := ⟨k.worn, k.weapon, fun u => k.clientUIDs.lookup u, k.itemOnHand⟩

-- The loadout as the server keeps it in three places: one entry a slot and always one for melee,
-- every entry of an item tracked, the weapons those of the entries, the hand on a tracked item.
structure Coherent : Prop where
  slots : (slotsOf k.equipment).Nodup
  melee : slotMelee ∈ slotsOf k.equipment
  tracked : ∀ e ∈ k.equipment, e.unique ≠ 0 →
    ∃ it, k.clientUIDs.lookup e.unique = some it ∧ it.data = e.data
  armed : ∀ slot wp, k.weapon slot = some wp → (∃ e ∈ k.equipment, e.slot = slot ∧
    e.unique = wp.unique ∧ e.data = wp.data) ∧ w.Arms wp.data ∧ wp.slot = slot
  drawn : ∀ e ∈ k.equipment, e.unique ≠ 0 → w.Arms e.data →
    ∃ wp, k.weapon e.slot = some wp ∧ wp.unique = e.unique ∧ wp.data = e.data
  apart : ∀ u u' it it', k.clientUIDs.lookup u = some it → k.clientUIDs.lookup u' = some it' →
    it'.unique = it.unique → u' = u
  hand : k.itemOnHand = 0 ∨ ∃ it, k.clientUIDs.lookup k.itemOnHand = some it

structure Kept : Prop where
  slots : (slotsOf k.equipment).Nodup
  melee : k.worn slotMelee ≠ none
  rack : k.rack.Ordered w

def Fresh (unique : Nat) : Prop := unique ≠ 0 ∧ k.clientUIDs.lookup unique = none

instance (unique : Nat) : Decidable (k.Fresh unique) := by
  unfold Fresh
  infer_instance

def Only (slot unique : Nat) : Prop := ∀ e ∈ k.equipment, e.unique = unique → e.slot = slot

instance (slot unique : Nat) : Decidable (k.Only slot unique) := by
  unfold Only
  infer_instance

def Op.issues : Op → Bool
  | .issue .. => true
  | _ => false

def KeepsOrder (x : Setting) : Op → Prop
  | .issue _ noLoadout infiniteGloo =>
    (k.minted w x.slots noLoadout infiniteGloo).Nodup ∧ 0 ∉ k.minted w x.slots noLoadout infiniteGloo ∧
      (infiniteGloo = true → ¬ w.Arms glooDataID)
  | .reissue => k.medkitUID x.order = 0 → k.Fresh k.nextUID
  | .buy item _ => item.itemID ≠ itemMushroom →
      if (placeItem item).isWeapon then
        k.Fresh k.nextUID ∧ ((placeItem item).ammo ≠ 0 → k.Fresh k.ammoUID)
      else (k.stackOf x.order item = none → k.Fresh k.nextUID) ∧
        ((placeItem item).slot ≠ slotNone → ¬ w.Arms item.itemID ∧
          k.weapon (placeItem item).slot = none ∧
          ∀ stack ∈ k.stackOf x.order item, k.Only (placeItem item).slot stack.1)
  | .install it _ => k.Fresh it.unique
  | .take it => k.Fresh it.unique ∧ ∀ stack ∈ k.trackedByData x.order it.data it.unique,
      k.findLoadoutWeapon x.order stack.1 = none
  | .drop unique => k.leaves x.order unique ≠ some slotMelee
  | .equip dst unique => ∀ target ∈ k.target unique, target.1 ≠ dst →
      if target.1 = slotNone then k.equipSlotOf unique = none ∧ ¬ w.Arms target.2
      else target.1 = slotMelee → k.equipAt dst ≠ none
  | .wear bodyPart _ => ∀ slot ∈ hitSlot bodyPart, 0 < k.slotRuntime slot → ∀ e ∈ k.equipAt slot,
      k.weapon slot = none ∧ k.itemOnHand ≠ e.unique ∧ k.Fresh k.nextUID
  | .gloo => (k.glooCount x.order).2 = 1 → k.weapon slotBuilding = none ∧
      k.Only slotBuilding (k.glooCount x.order).1 ∧
      (k.itemOnHand = (k.glooCount x.order).1 →
        k.isWeaponUID k.heldBeforeGloo = true ∨ k.bestWeaponUID ≠ 0)
  | .hold unique => unique = 0 ∨ k.clientUIDs.lookup unique ≠ none
  | _ => True

instance [DecidablePred w.Arms] (x : Setting) (op : Op) : Decidable (k.KeepsOrder w x op) :=
  match op with
  | .issue .. | .reissue | .buy .. | .install .. | .take _ | .drop _ | .equip .. | .wear .. | .gloo
  | .hold _ => by
    unfold KeepsOrder
    infer_instance
  | .fund _ | .pay _ | .round | .use _ => isTrue trivial

variable {w : World} {k : Kit} {x : Setting} {slot unique : Nat} {it : InvItem} {order : List Nat}

theorem rack_removeTracked (h : k.rack.Ordered w) (hn : (slotsOf k.equipment).Nodup)
    (hl : k.leaves order unique = some slot) :
    (k.removeTracked order unique).rack = ((k.rack.clear slot).letGo unique).untrack unique := by
  refine Rack.ext ?_ ?_ ?_ ?_
  · change wornAt (k.removeTracked order unique).equipment = update k.worn slot none
    rw [removeTracked_eq, hl]
    exact wornAt_unslotted_eq
  · funext s
    change (k.removeTracked order unique).weapon s = update k.weapon slot none s
    rw [weapon_removeTracked, update_apply]
    unfold leaves at hl
    cases hf : k.findLoadoutWeapon order unique with
    | some a =>
      rw [hf] at hl
      obtain rfl := Option.some.inj hl
      simp [eq_comm]
    | none =>
      rw [hf] at hl
      obtain ⟨e, he, rfl⟩ := Option.map_eq_some_iff.mp hl
      obtain ⟨hmem, hu⟩ := equipSlotOf_some he
      rw [if_neg (by simp)]
      split
      · rename_i hs
        cases hw : k.weapon s with
        | none => rfl
        | some wp =>
          have hworn := (h.armed s wp hw).1
          have hsame : k.worn s = some e := (wornAt_iff hn).mpr ⟨hmem, hs.symm⟩
          rw [show k.rack.worn s = k.worn s from rfl, hsame] at hworn
          have heq : wp.unique = unique := by rw [← hu, Option.some.inj hworn]
          exact absurd heq (findLoadoutWeapon_none hf s wp hw)
      · rfl
  · change (fun u => (k.removeTracked order unique).clientUIDs.lookup u) =
      update (fun u => k.clientUIDs.lookup u) unique none
    rw [removeTracked_eq]
    exact lookup_erase_eq
  · change (k.removeTracked order unique).itemOnHand = _
    rw [removeTracked_eq]
    rfl

theorem ordered_removeTracked (h : k.rack.Ordered w) (hn : (slotsOf k.equipment).Nodup) :
    (k.removeTracked order unique).rack.Ordered w := by
  cases hl : k.leaves order unique with
  | some slot =>
    rw [rack_removeTracked h hn hl]
    refine h.remove fun s y hy hne hu => ?_
    unfold leaves at hl
    cases hf : k.findLoadoutWeapon order unique with
    | some a =>
      rw [hf] at hl
      obtain rfl := Option.some.inj hl
      obtain ⟨wp, hwp, hwu⟩ := findLoadoutWeapon_some hf
      exact h.apart _ _ _ _ (h.armed a wp hwp).1 hy (hwu.trans hu.symm ▸ hne) (hu.trans hwu.symm)
    | none =>
      rw [hf] at hl
      obtain ⟨e, he, rfl⟩ := Option.map_eq_some_iff.mp hl
      obtain ⟨hmem, heu⟩ := equipSlotOf_some he
      have hworn : k.rack.worn e.slot = some e := (wornAt_iff hn).mpr ⟨hmem, rfl⟩
      exact h.apart _ _ _ _ hworn hy (heu.trans hu.symm ▸ hne) (hu.trans heu.symm)
  | none =>
    have hfree : k.findLoadoutWeapon order unique = none ∧ k.equipSlotOf unique = none := by
      unfold leaves at hl
      cases hf : k.findLoadoutWeapon order unique with
      | some a =>
        rw [hf] at hl
        cases hl
      | none =>
        rw [hf] at hl
        exact ⟨rfl, Option.map_eq_none_iff.mp hl⟩
    have hrack : (k.removeTracked order unique).rack = (k.rack.letGo unique).untrack unique := by
      rw [removeTracked_eq, hl, hfree.1]
      exact Rack.ext rfl rfl lookup_erase_eq rfl
    rw [hrack]
    refine h.letGo.untrack (fun s y hy _ => ?_) fun hne heq => ?_
    · exact equipSlotOf_none hfree.2 y (mem_of_wornAt hy)
    · change (if k.itemOnHand = unique then 0 else k.itemOnHand) ≠ 0 at hne
      change (if k.itemOnHand = unique then 0 else k.itemOnHand) = unique at heq
      split at hne
      · exact hne rfl
      · rename_i hkeep
        rw [if_neg hkeep] at heq
        exact hkeep heq

theorem worn_removeTracked {s : Nat} : (k.removeTracked order unique).worn s =
    if k.leaves order unique = some s then none else k.worn s := by
  unfold worn
  rw [removeTracked_eq]
  exact wornAt_vacated

theorem nodup_removeTracked (h : (slotsOf k.equipment).Nodup) :
    (slotsOf (k.removeTracked order unique).equipment).Nodup := by
  rw [removeTracked_eq]
  exact nodup_vacated h

theorem Fresh.unworn {s : Nat} {e : Equipment} (hu : k.Fresh unique) (h : k.rack.Ordered w)
    (he : k.worn s = some e) : e.unique ≠ unique := by
  intro heq
  obtain ⟨it, hit, -⟩ := h.tracked s e he (heq ▸ hu.1)
  rw [heq] at hit
  exact absurd (hu.2.symm.trans hit) (Option.some_ne_none it).symm

theorem rack_trackItem : (k.trackItem it).rack = k.rack.track it :=
  Rack.ext rfl rfl lookup_insert_eq rfl

theorem Kept.track (h : k.Kept w) (hu : it.unique ≠ 0)
    (hsame : ∀ y ∈ k.clientUIDs.lookup it.unique, y.data = it.data) : (k.trackItem it).Kept w :=
  ⟨h.slots, h.melee, rack_trackItem ▸ h.rack.track hu hsame⟩

theorem Fresh.track (hu : k.Fresh it.unique) (h : k.Kept w) : (k.trackItem it).Kept w := by
  refine h.track hu.1 fun y hy => ?_
  rw [hu.2] at hy
  cases hy

theorem kept_drop (h : k.Kept w) (hs : k.leaves order unique ≠ some slotMelee) :
    (k.removeTracked order unique).Kept w := by
  refine ⟨nodup_removeTracked h.slots, ?_, ordered_removeTracked h.rack h.slots⟩
  rw [worn_removeTracked, if_neg hs]
  exact h.melee

theorem repoint_eq {j : Kit} {u : Nat} : k.repoint u it j = { j with
    equipment :=
      match k.equipSlotOf u with
      | some e => slotted j.equipment e.slot it.data it.unique
      | none => j.equipment
    itemOnHand := if k.itemOnHand = u then it.unique else j.itemOnHand } := by
  unfold repoint
  cases k.equipSlotOf u with
  | none =>
    dsimp only
    split <;> rfl
  | some e =>
    dsimp only
    rw [setEquip_eq]
    split <;> rfl

theorem Kept.unarmed {u : Nat} {e : Equipment} (h : k.Kept w) (hu : u ≠ 0)
    (hf : k.findLoadoutWeapon order u = none) (he : k.worn e.slot = some e) (heu : e.unique = u) :
    k.weapon e.slot = none ∧ ¬ w.Arms e.data := by
  have hnone : k.weapon e.slot = none := by
    cases hw : k.weapon e.slot with
    | none => rfl
    | some wp =>
      have hworn : k.worn e.slot = _ := (h.rack.armed e.slot wp hw).1
      rw [he] at hworn
      have heq : wp.unique = u := by rw [← heu, Option.some.inj hworn]
      exact absurd heq (findLoadoutWeapon_none hf e.slot wp hw)
  exact ⟨hnone, fun ha => h.rack.drawn e.slot e he (heu ▸ hu) ha hnone⟩

theorem kept_fold {u : Nat} {existing : InvItem} (h : k.Kept w) (hu : k.Fresh it.unique)
    (hx : k.clientUIDs.lookup u = some existing) (hd : existing.data = it.data)
    (hf : k.findLoadoutWeapon order u = none) :
    ((k.repoint u it (k.removeTracked order u)).trackItem it).Kept w := by
  have hne : it.unique ≠ u := by
    intro heq
    rw [← heq, hu.2] at hx
    cases hx
  have hj := @ordered_removeTracked _ _ u order h.rack h.slots
  have hsub : ∀ {s e}, (k.removeTracked order u).worn s = some e → k.worn s = some e := by
    intro s e he
    rw [worn_removeTracked] at he
    split at he
    · cases he
    · exact he
  have hnew : (k.removeTracked order u).clientUIDs.lookup it.unique = none := by
    rw [removeTracked_eq]
    exact (AList.lookup_erase_ne hne).trans hu.2
  have htracked : ((k.removeTracked order u).rack.track it).Ordered w := by
    refine hj.track hu.1 fun y hy => ?_
    have hy : (k.removeTracked order u).clientUIDs.lookup it.unique = some y := hy
    rw [hnew] at hy
    cases hy
  have hhand : ∀ r : Rack, r.Ordered w → r.goods it.unique = some it →
      (r.hold (if k.itemOnHand = u then it.unique else r.hand)).Ordered w := by
    intro r hr hit
    refine hr.hold fun hz => ?_
    split
    · rw [hit]
      exact Option.some_ne_none it
    · rename_i hk
      rw [if_neg hk] at hz
      exact hr.hand hz
  have hgoods : (((k.removeTracked order u).rack.track it).goods it.unique) = some it := by
    rw [Rack.goods_track, if_pos rfl]
  rw [repoint_eq]
  cases he : k.equipSlotOf u with
  | none =>
    have hl : k.leaves order u = none := by
      unfold leaves
      rw [hf, he]
      rfl
    refine ⟨nodup_removeTracked h.slots, ?_, ?_⟩
    · refine (@worn_removeTracked _ u order _).trans_ne ?_
      rw [hl, if_neg (by simp)]
      exact h.melee
    · exact (hhand _ htracked hgoods).of_eq (Rack.ext rfl rfl lookup_insert_eq rfl)
  | some e =>
    obtain ⟨hmem, heu⟩ := equipSlotOf_some he
    have hworn : k.worn e.slot = some e := (wornAt_iff h.slots).mpr ⟨hmem, rfl⟩
    obtain ⟨hnone, harms⟩ := h.unarmed (h.rack.own u existing hx).2 hf hworn heu
    have hdata : e.data = it.data := by
      obtain ⟨y, hy, hyd⟩ := h.rack.tracked e.slot e hworn (heu ▸ (h.rack.own u existing hx).2)
      have hy : k.clientUIDs.lookup e.unique = some y := hy
      rw [heu, hx, Option.some.injEq] at hy
      rw [← hyd, ← hy, hd]
    have hweapon : (k.removeTracked order u).weapon e.slot = none := by
      rw [weapon_removeTracked, hf, if_neg (by simp), hnone]
    have hfits : ((k.removeTracked order u).rack.track it).Fits w e.slot ⟨e.slot, it.data, it.unique⟩
        none := by
      refine ⟨rfl, fun _ => ⟨it, hgoods, rfl⟩, fun hz => absurd hz hu.1, nofun,
        fun _ ha => absurd (hdata ▸ ha) harms, fun _ s y hy hyu => ?_⟩
      exact absurd hyu (hu.unworn h.rack (hsub hy))
    refine ⟨nodup_slotted (nodup_removeTracked h.slots), ?_, ?_⟩
    · change wornAt (slotted _ e.slot it.data it.unique) slotMelee ≠ none
      rw [wornAt_slotted]
      split
      · exact Option.some_ne_none _
      · rename_i hs
        refine (@worn_removeTracked _ u order _).trans_ne ?_
        rw [if_neg]
        · exact h.melee
        · unfold leaves
          rw [hf, he]
          exact fun heq => hs (Option.some.inj heq).symm
    · refine (hhand _ (htracked.set hfits) hgoods).of_eq (Rack.ext wornAt_slotted_eq ?_
        lookup_insert_eq rfl)
      funext s
      change (k.removeTracked order u).weapon s = update (k.removeTracked order u).weapon e.slot none s
      rw [update_apply]
      split
      · rename_i hs
        rw [hs, hweapon]
      · rfl

theorem kept_take (h : k.Kept w) (hs : k.KeepsOrder w x (.take it)) : (k.apply x (.take it)).Kept w := by
  change (k.take x.order it).Kept w
  obtain ⟨hu, hfold⟩ := hs
  unfold take
  cases hstack : k.trackedByData x.order it.data it.unique with
  | none => exact hu.track h
  | some stack =>
    obtain ⟨u, existing⟩ := stack
    obtain ⟨hx, -, hd⟩ := trackedByData_some hstack
    exact @kept_fold _ _ ({ it with count := (it.count + existing.count) % 2 ^ 32 }) _ _ _ h hu hx hd
      (hfold _ hstack)

theorem kept_arm {j : Kit} {data ammo : Nat} {ws : GoMap CsWeapon} (hslots : (slotsOf j.equipment).Nodup)
    (hmelee : slot ≠ slotMelee → j.worn slotMelee ≠ none) (hj : j.rack.Ordered w)
    (hws : j.weapons = some ws) (hu : unique ≠ 0) (harms : w.Arms data)
    (hit : j.clientUIDs.lookup unique = some it) (hd : it.data = data)
    (hapart : ∀ s e, j.worn s = some e → e.unique = unique → s = slot) (counter : Nat) :
    Kept w { j with
      uidCounter := counter
      weapons := some (ws.insert slot ⟨slot, data, unique, ammo⟩)
      equipment := slotted j.equipment slot data unique
      itemOnHand := unique } := by
  have hfits : j.rack.Fits w slot ⟨slot, data, unique⟩ (some ⟨slot, data, unique, ammo⟩) := by
    refine ⟨rfl, fun _ => ⟨it, hit, hd⟩, fun hz => absurd hz hu, fun y hy => ?_,
      fun _ _ => Option.some_ne_none _, fun _ s e he heq => hapart s e he heq⟩
    obtain rfl := Option.some.inj hy
    exact ⟨rfl, rfl, hu, harms⟩
  refine ⟨nodup_slotted hslots, ?_, ?_⟩
  · change wornAt (slotted j.equipment slot data unique) slotMelee ≠ none
    rw [wornAt_slotted]
    split
    · exact Option.some_ne_none _
    · rename_i hs
      exact hmelee (Ne.symm hs)
  · have hall := @Rack.Ordered.hold _ _ unique (hj.set hfits) fun _ => by
      rw [show (Rack.set j.rack slot _ _).goods unique = _ from hit]
      exact Option.some_ne_none it
    refine hall.of_eq (Rack.ext wornAt_slotted_eq ?_ rfl rfl)
    have hweapon : j.weapon = fun s => ws.lookup s := by
      funext s
      unfold weapon
      rw [hws]
      rfl
    change (fun s => (ws.insert slot ⟨slot, data, unique, ammo⟩).lookup s) = update j.weapon slot _
    rw [hweapon, lookup_insert_eq]

theorem arms_of_class {data : Nat} {isPrimary : Bool} (h : weaponClass data = some isPrimary) :
    w.Arms data := by
  refine Or.inl ?_
  rw [h]
  exact Option.some_ne_none isPrimary

theorem pickupWeaponSlot_ne {isPrimary : Bool} : k.pickupWeaponSlot isPrimary ≠ slotMelee := by
  cases isPrimary with
  | false => exact (by decide : slotSecondary ≠ slotMelee)
  | true =>
    change k.pickPrimarySlot ≠ slotMelee
    rcases @pickPrimarySlot_cases k with h | h <;> rw [h] <;> decide

theorem kept_cleared {isPrimary : Bool} (h : k.Kept w) : (k.cleared it isPrimary).Kept w ∧
    ∀ u, k.clientUIDs.lookup u = none → (k.cleared it isPrimary).clientUIDs.lookup u = none := by
  rcases @cleared_cases k it isPrimary with heq | ⟨old, hw, -, heq⟩
  · rw [heq]
    exact ⟨h, fun _ => id⟩
  · rw [heq, removeWeapon_eq]
    refine ⟨⟨nodup_unslotted h.slots, ?_, ?_⟩, fun u hu => ?_⟩
    · change wornAt (unslotted k.equipment _) slotMelee ≠ none
      rw [wornAt_unslotted, if_neg (Ne.symm pickupWeaponSlot_ne)]
      exact h.melee
    · have hworn := h.rack.armed _ old hw
      have hgone := @Rack.Ordered.remove _ _ (k.pickupWeaponSlot isPrimary) old.unique h.rack
        fun s y hy hne hyu => h.rack.apart _ _ _ _ hworn.1 hy (hyu ▸ hne) hyu
      refine hgone.of_eq (Rack.ext wornAt_unslotted_eq ?_ lookup_erase_eq rfl)
      funext s
      change (k.eraseWeapon _).weapon s = update k.weapon _ none s
      rw [weapon_eraseWeapon, update_apply]
    · by_cases hne : u = old.unique
      · rw [hne]
        exact AList.lookup_erase _ _
      · exact (AList.lookup_erase_ne hne).trans hu

theorem kept_install {isPrimary : Bool} (h : k.Kept w) (hws : k.weapons ≠ none)
    (hs : k.KeepsOrder w x (.install it isPrimary)) (hclass : weaponClass it.data = some isPrimary) :
    (k.apply x (.install it isPrimary)).Kept w := by
  change (k.install x it isPrimary).Kept w
  obtain ⟨ws, hcleared⟩ := Option.ne_none_iff_exists'.mp (@weapons_cleared k it isPrimary hws)
  rw [install_eq hcleared]
  obtain ⟨hkept, hnew⟩ := @kept_cleared w k it isPrimary h
  have hu : (k.cleared it isPrimary).Fresh it.unique := ⟨hs.1, hnew _ hs.2⟩
  have htracked := hu.track hkept
  refine @kept_arm _ _ _ _ ((k.cleared it isPrimary).trackItem it) _ _ ws htracked.slots
    (fun _ => htracked.melee) htracked.rack hcleared hs.1 (arms_of_class hclass)
    (AList.lookup_insert _) rfl (fun s e he heu => ?_) _
  exact absurd heu (hu.unworn hkept.rack he)

theorem kept_stocked {slots : List Nat} {item : ShopItem} {ammo : Nat} (h : k.Kept w)
    (hu : k.Fresh k.nextUID) (ha : ammo ≠ 0 → k.Fresh k.ammoUID) :
    Kept w { k with clientUIDs := k.stocked x.w slots item ammo } := by
  have hgun : (k.trackItem (k.gunItem x.w slots item)).Kept w := Fresh.track hu h
  unfold stocked
  dsimp only
  split
  · rename_i hne
    refine @Fresh.track _ _ (k.ammoItem ammo) ⟨(ha hne).1, ?_⟩ hgun
    exact (AList.lookup_insert_ne ammoUID_ne).trans (ha hne).2
  · exact hgun

theorem Kept.untrack (h : k.Kept w) (hworn : ∀ s e, k.worn s = some e → e.unique ≠ 0 → e.unique ≠ unique)
    (hhand : k.itemOnHand ≠ 0 → k.itemOnHand ≠ unique) :
    Kept w { k with clientUIDs := k.clientUIDs.erase unique } :=
  ⟨h.slots, h.melee, (h.rack.untrack hworn hhand).of_eq (Rack.ext rfl rfl lookup_erase_eq rfl)⟩

theorem kept_addWeapon {slots : List Nat} {item : ShopItem} {qty ammo : Nat} (h : k.Kept w)
    (hws : k.weapons ≠ none) (hu : k.Fresh k.nextUID) (ha : ammo ≠ 0 → k.Fresh k.ammoUID)
    (harms : w.Arms item.itemID) : (k.addWeapon x.w slots item qty slot ammo).1.Kept w := by
  obtain ⟨ws, hws⟩ := Option.ne_none_iff_exists'.mp hws
  have hstock := @kept_stocked w k x slots item ammo h hu ha
  have harmed := fun counter => @kept_arm _ slot _ _ _ _ ammo _ hstock.slots
    (fun _ => hstock.melee) hstock.rack hws hu.1 harms
    (@lookup_stocked_self x.w slots k item ammo) rfl
    (fun s e he heu => absurd heu (hu.unworn h.rack he)) counter
  rw [addWeapon_some hws]
  dsimp only
  cases hold : ws.lookup slot with
  | none => exact harmed _
  | some old =>
    have hw : k.weapon slot = some old := by simpa [weapon, hws] using hold
    obtain ⟨hworn, -, hne, -⟩ := h.rack.armed slot old hw
    have hother : k.nextUID ≠ old.unique := (hu.unworn h.rack hworn).symm
    refine (harmed _).untrack (fun s e he hz => ?_) fun _ => hother
    have he : wornAt (slotted k.equipment slot item.itemID k.nextUID) s = some e := he
    rw [wornAt_slotted] at he
    split at he
    · cases he
      exact hother
    · rename_i hs
      exact fun heq => hs (h.rack.apart _ _ _ _ hworn he hne heq)

theorem Kept.wear {data : Nat} (h : k.Kept w) (hit : k.clientUIDs.lookup unique = some it)
    (hd : it.data = data) (harms : ¬ w.Arms data) (hnone : k.weapon slot = none)
    (hapart : ∀ s e, k.worn s = some e → e.unique = unique → s = slot) :
    Kept w { k with equipment := slotted k.equipment slot data unique } := by
  have hfits : k.rack.Fits w slot ⟨slot, data, unique⟩ none :=
    ⟨rfl, fun _ => ⟨it, hit, hd⟩, fun hz => absurd hz (h.rack.own unique it hit).2, nofun,
      fun _ ha => absurd ha harms, fun _ => hapart⟩
  refine ⟨nodup_slotted h.slots, ?_, ?_⟩
  · change wornAt (slotted k.equipment slot data unique) slotMelee ≠ none
    rw [wornAt_slotted]
    split
    · exact Option.some_ne_none _
    · exact h.melee
  · refine (h.rack.set hfits).of_eq (Rack.ext wornAt_slotted_eq ?_ rfl rfl)
    funext s
    change k.weapon s = update k.weapon slot none s
    rw [update_apply]
    split
    · rename_i heq
      rw [heq, hnone]
    · rfl

theorem Kept.bare (h : k.Kept w) (hslot : slot ≠ slotMelee) (hnone : k.weapon slot = none) :
    Kept w { k with equipment := unslotted k.equipment slot } := by
  refine ⟨nodup_unslotted h.slots, ?_, h.rack.clear.of_eq (Rack.ext wornAt_unslotted_eq ?_ rfl rfl)⟩
  · change wornAt (unslotted k.equipment slot) slotMelee ≠ none
    rw [wornAt_unslotted, if_neg (Ne.symm hslot)]
    exact h.melee
  · funext s
    change k.weapon s = update k.weapon slot none s
    rw [update_apply]
    split
    · rename_i heq
      rw [heq, hnone]
    · rfl

theorem kept_wornAs {item : ShopItem} (h : k.Kept w)
    (hit : k.clientUIDs.lookup unique = some it) (hd : it.data = item.itemID)
    (hs : (placeItem item).slot ≠ slotNone → ¬ w.Arms item.itemID ∧
      k.weapon (placeItem item).slot = none ∧ k.Only (placeItem item).slot unique) :
    Kept w { k with equipment := k.wornAs item unique } := by
  unfold wornAs
  split
  · rename_i hslot
    obtain ⟨harms, hnone, honly⟩ := hs hslot
    refine h.wear hit hd harms hnone fun s e he heu => ?_
    exact (h.rack.slots s e he).symm.trans (honly e (mem_of_wornAt he) heu)
  · exact h

theorem kept_goods {slots : List Nat} {item : ShopItem} {qty : Nat} (h : k.Kept w)
    (hwpn : (placeItem item).isWeapon = false)
    (hnew : k.stackOf order item = none → k.Fresh k.nextUID)
    (hs : (placeItem item).slot ≠ slotNone → ¬ w.Arms item.itemID ∧
      k.weapon (placeItem item).slot = none ∧
      ∀ stack ∈ k.stackOf order item, k.Only (placeItem item).slot stack.1) :
    (k.addPurchasedItem x.w order slots item qty).1.Kept w := by
  cases hstack : k.stackOf order item with
  | some stack =>
    obtain ⟨u, it⟩ := stack
    rw [addPurchasedItem_merge hwpn hstack]
    have hfound := hstack
    unfold stackOf at hfound
    rw [Option.ite_none_left_eq_some] at hfound
    obtain ⟨hit, -, hd⟩ := trackedByData_some hfound.2
    have hown := (h.rack.own u it hit).1
    have htracked : (k.trackItem (grown it qty)).Kept w := by
      refine h.track (hown ▸ (h.rack.own u it hit).2) fun y hy => ?_
      rw [show (grown it qty).unique = u from hown, hit] at hy
      rw [← Option.some.inj hy]
      rfl
    have hworn := @kept_wornAs _ _ _ (grown it qty) _ htracked
      (by rw [← hown]; exact AList.lookup_insert _) hd fun hslot =>
        ⟨(hs hslot).1, (hs hslot).2.1, (hs hslot).2.2 _ hstack⟩
    rw [show k.clientUIDs.insert u (grown it qty) = (k.trackItem (grown it qty)).clientUIDs by
      rw [← hown]; rfl]
    exact ⟨hworn.slots, hworn.melee, hworn.rack⟩
  | none =>
    rw [addPurchasedItem_new hwpn hstack]
    have hu := hnew hstack
    have htracked : (k.trackItem (k.newPiece item qty)).Kept w := Fresh.track hu h
    have hworn := @kept_wornAs _ _ _ (k.newPiece item qty) _ htracked
      (AList.lookup_insert _) rfl fun hslot => ⟨(hs hslot).1, (hs hslot).2.1, fun e he heu => by
        have hslot : k.worn e.slot = some e := (wornAt_iff h.slots).mpr ⟨he, rfl⟩
        exact absurd heu (hu.unworn h.rack hslot)⟩
    exact ⟨hworn.slots, hworn.melee, hworn.rack⟩

theorem Kept.equipArmor {data : Nat} (h : k.Kept w) : (k.equipArmor data slot).Kept w := by
  unfold Kit.equipArmor
  split
  · exact ⟨h.slots, h.melee, h.rack⟩
  · split
    · exact ⟨h.slots, h.melee, h.rack⟩
    · exact h

theorem kept_buy {item : ShopItem} {qty : Nat} (h : k.Kept w) (hws : k.weapons ≠ none)
    (hs : k.KeepsOrder w x (.buy item qty))
    (hshop : ∃ settings id, w.shopItemByID settings id = some item) :
    (k.apply x (.buy item qty)).Kept w := by
  obtain ⟨coins, hcoins⟩ := @charged_eq x k item qty
  have hpaid : Kept w { k with coins := coins } := ⟨h.slots, h.melee, h.rack⟩
  change ((k.charged x item qty).purchase x.w x.order x.slots x.now item qty).Kept w
  rw [hcoins]
  by_cases hm : item.itemID = itemMushroom
  · rw [purchase_mushroom hm]
    exact ⟨h.slots, h.melee, h.rack⟩
  · have hs := hs hm
    have hadded : (addPurchasedItem x.w x.order x.slots { k with coins := coins } item qty).1.Kept w := by
      by_cases hwpn : (placeItem item).isWeapon = true
      · rw [if_pos hwpn] at hs
        rw [addPurchasedItem_weapon hwpn]
        obtain ⟨settings, id, hitem⟩ := hshop
        exact kept_addWeapon hpaid hws hs.1 hs.2 (Or.inr ⟨settings, id, item, hitem, rfl, hwpn⟩)
      · rw [if_neg hwpn] at hs
        exact kept_goods hpaid (Bool.eq_false_iff.mpr hwpn) hs.1 hs.2
    unfold purchase
    rw [if_neg hm]
    split
    · rename_i heq
      rw [heq] at hadded
      exact hadded
    · rename_i heq
      rw [heq] at hadded
      split
      · exact hadded.equipArmor
      · exact hadded

theorem kept_reissue (h : k.Kept w) (hs : k.KeepsOrder w x .reissue) : (k.apply x .reissue).Kept w := by
  change (k.reissued x.w x.order x.slots).1.Kept w
  rw [reissued_eq]
  split
  · rename_i hzero
    have hkept : k.withUID.Kept w := ⟨h.slots, h.melee, h.rack⟩
    exact @Fresh.track _ _ ⟨k.nextUID, medkitData, 2, 2⟩ (hs hzero) hkept
  · rename_i hfound
    obtain ⟨it, hit, hd⟩ := medkitUID_some hfound
    refine h.track hfound fun y hy => ?_
    rw [← Option.some.inj (hit.symm.trans hy)]
    exact hd

theorem kept_use (h : k.Kept w) : (k.apply x (.use unique)).Kept w := by
  change (k.useUp unique).Kept w
  unfold useUp
  cases hit : k.clientUIDs.lookup unique with
  | none => exact h
  | some it =>
    obtain ⟨hown, hne⟩ := h.rack.own unique it hit
    dsimp only
    rw [← hown]
    refine @Kept.track _ _ { it with count := it.count - 1 } h (hown ▸ hne) fun y hy => ?_
    have hy : k.clientUIDs.lookup it.unique = some y := hy
    rw [hown, hit] at hy
    rw [← Option.some.inj hy]

theorem kept_hold (h : k.Kept w) (hs : k.KeepsOrder w x (.hold unique)) :
    (k.apply x (.hold unique)).Kept w := by
  refine ⟨h.slots, h.melee, h.rack.hold fun hne => ?_⟩
  exact hs.resolve_left hne

theorem equipAt_some {e : Equipment} (h : k.Kept w) (he : k.equipAt slot = some e) :
    k.worn slot = some e ∧ e.unique ≠ 0 := by
  obtain ⟨hworn, hp⟩ := Option.filter_eq_some_iff.mp he
  refine ⟨hworn, fun hz => ?_⟩
  simp [hz, h.rack.bare slot e hworn hz] at hp

theorem weapon_of_free (h : k.Kept w) (he : k.equipAt slot = none) : k.weapon slot = none := by
  cases hw : k.weapon slot with
  | none => rfl
  | some wp =>
    obtain ⟨hworn, -, hne, -⟩ := h.rack.armed slot wp hw
    have hfilter := Option.filter_eq_none_iff.mp he _ hworn
    simp [hne] at hfilter

theorem kept_syncArmor (h : k.Kept w) (hslot : slot ≠ slotMelee)
    (hs : ∀ e ∈ k.equipAt slot, k.weapon slot = none ∧ k.itemOnHand ≠ e.unique ∧ k.Fresh k.nextUID) :
    (k.syncArmor slot).Kept w := by
  unfold syncArmor
  cases he : k.equipAt slot with
  | none => exact h
  | some e =>
    obtain ⟨hnone, hhand, hu⟩ := hs e he
    obtain ⟨hworn, hne⟩ := equipAt_some h he
    have hgone : ∀ s y, s ≠ slot → k.worn s = some y → y.unique ≠ e.unique :=
      fun s y hsl hy heq => hsl (h.rack.apart _ _ _ _ hworn hy hne heq)
    dsimp only
    split
    · refine (h.bare hslot hnone).untrack (fun s y hy _ => ?_) fun _ => hhand
      have hy : wornAt (unslotted k.equipment slot) s = some y := hy
      rw [wornAt_unslotted] at hy
      split at hy
      · cases hy
      · exact hgone s y (by assumption) hy
    · rw [setEquip_eq]
      generalize hdur : k.slotRuntime slot = dur
      have htracked : (k.trackItem ⟨k.nextUID, e.data, 1, dur⟩).Kept w :=
        @Fresh.track _ _ ⟨k.nextUID, e.data, 1, dur⟩ hu h
      have harms : ¬ w.Arms e.data := fun ha => h.rack.drawn slot e hworn hne ha hnone
      have hset := @Kept.wear _ _ slot _ _ _ htracked (AList.lookup_insert _) rfl harms hnone
        fun s y hy heq => absurd heq (hu.unworn h.rack hy)
      have hold : k.nextUID ≠ e.unique := (hu.unworn h.rack hworn).symm
      have hlast := @Kept.untrack _ _ e.unique hset (fun s y hy _ => by
        have hy : wornAt (slotted k.equipment slot e.data k.nextUID) s = some y := hy
        rw [wornAt_slotted] at hy
        split at hy
        · cases hy
          exact hold
        · exact hgone s y (by assumption) hy) fun _ => hhand
      refine ⟨hlast.slots, hlast.melee, hlast.rack.of_eq (Rack.ext rfl rfl ?_ rfl)⟩
      funext u
      change ((k.clientUIDs.erase e.unique).insert k.nextUID _).lookup u =
        ((k.clientUIDs.insert k.nextUID _).erase e.unique).lookup u
      by_cases h1 : u = k.nextUID
      · rw [h1, AList.lookup_insert, AList.lookup_erase_ne hold, AList.lookup_insert]
      · rw [AList.lookup_insert_ne h1]
        by_cases h2 : u = e.unique
        · rw [h2, AList.lookup_erase, AList.lookup_erase]
        · rw [AList.lookup_erase_ne h2, AList.lookup_erase_ne h2, AList.lookup_insert_ne h1]

theorem kept_wear {bodyPart netDmg : Nat} (h : k.Kept w)
    (hs : k.KeepsOrder w x (.wear bodyPart netDmg)) : (k.apply x (.wear bodyPart netDmg)).Kept w := by
  change (k.wear bodyPart netDmg).Kept w
  have hs : ∀ slot ∈ hitSlot bodyPart, 0 < k.slotRuntime slot → ∀ e ∈ k.equipAt slot,
      k.weapon slot = none ∧ k.itemOnHand ≠ e.unique ∧ k.Fresh k.nextUID := hs
  have hhelmet : (k.wearHelmet netDmg).Kept w := ⟨h.slots, h.melee, h.rack⟩
  have hvest : (k.wearVest netDmg).Kept w := ⟨h.slots, h.melee, h.rack⟩
  unfold Kit.wear
  unfold hitSlot at hs
  split
  · rename_i hhead
    rw [if_pos hhead] at hs
    split
    · exact kept_syncArmor hhelmet (by decide) (hs slotHelmet rfl (by assumption))
    · exact h
  · rename_i hhead
    rw [if_neg hhead] at hs
    split
    · rename_i hchest
      rw [if_pos hchest] at hs
      split
      · exact kept_syncArmor hvest (by decide) (hs slotVest rfl (by assumption))
      · exact h
    · exact h

theorem isWeaponUID_some {u : Nat} (h : k.isWeaponUID u = true) :
    u ≠ 0 ∧ ∃ s wp, k.weapon s = some wp ∧ wp.unique = u := by
  unfold isWeaponUID at h
  simp only [Bool.and_eq_true, bne_iff_ne, List.any_eq_true, beq_iff_eq] at h
  obtain ⟨hne, e, hmem, hu⟩ := h
  refine ⟨hne, e.1, e.2, ?_, hu⟩
  have hlook : (k.weapons.getD ∅).lookup e.1 = some e.2 := AList.mem_lookup_iff.mpr hmem
  unfold weapon
  cases hws : k.weapons with
  | none =>
    rw [hws] at hlook
    cases hlook
  | some ws =>
    rw [hws] at hlook
    exact hlook

theorem bestWeaponUID_some (h : k.bestWeaponUID ≠ 0) :
    ∃ s wp, k.weapon s = some wp ∧ wp.unique = k.bestWeaponUID := by
  unfold bestWeaponUID at h ⊢
  cases hf : [slotPrimary1, slotPrimary2, slotSecondary].findSome? fun slot =>
      (k.weapon slot).bind fun wp => if wp.unique ≠ 0 then some wp.unique else none with
  | none =>
    rw [hf] at h
    exact absurd rfl h
  | some u =>
    obtain ⟨s, -, hs⟩ := List.exists_of_findSome?_eq_some hf
    obtain ⟨wp, hwp, hu⟩ := Option.bind_eq_some_iff.mp hs
    rw [Option.ite_none_right_eq_some, Option.some.injEq] at hu
    exact ⟨s, wp, hwp, hu.2⟩

theorem kept_lastWall {u : Nat} (h : k.Kept w) (hnone : k.weapon slotBuilding = none)
    (honly : k.Only slotBuilding u)
    (hhand : k.itemOnHand = u → k.isWeaponUID k.heldBeforeGloo = true ∨ k.bestWeaponUID ≠ 0) :
    (k.consumeGloo u 1).1.Kept w := by
  obtain ⟨target, htarget⟩ : ∃ target, (if k.isWeaponUID k.heldBeforeGloo then k.heldBeforeGloo
    else k.bestWeaponUID) = target := ⟨_, rfl⟩
  have harmed : target ≠ 0 → ∃ s wp, k.weapon s = some wp ∧ wp.unique = target := by
    intro hne
    rw [← htarget] at hne ⊢
    split
    · rename_i hw
      exact (isWeaponUID_some hw).2
    · rename_i hw
      rw [if_neg hw] at hne
      exact bestWeaponUID_some hne
  have hsafe : target ≠ 0 → target ≠ u ∧ k.clientUIDs.lookup target ≠ none := by
    intro hne
    obtain ⟨s, wp, hwp, rfl⟩ := harmed hne
    obtain ⟨hworn, -, -, -⟩ := h.rack.armed s wp hwp
    obtain ⟨it, hit, -⟩ := h.rack.tracked s _ hworn hne
    refine ⟨fun heq => ?_, fun hx => absurd (hx.symm.trans hit) (Option.some_ne_none it).symm⟩
    have hs : s = slotBuilding := honly _ (mem_of_wornAt hworn) heq
    rw [hs, hnone] at hwp
    cases hwp
  have hbare := @Kept.bare _ _ slotBuilding h (by decide) hnone
  have hheld : Kept w { { k with equipment := unslotted k.equipment slotBuilding } with
      itemOnHand := if target ≠ 0 then target else k.itemOnHand
      heldBeforeGloo := 0 } := by
    refine ⟨hbare.slots, hbare.melee, hbare.rack.hold fun hne => ?_⟩
    split
    · exact (hsafe (by assumption)).2
    · rename_i hz
      rw [if_neg hz] at hne
      exact h.rack.hand hne
  have hlast := @Kept.untrack _ _ u hheld (fun s y hy _ heq => ?_) fun hne => ?_
  · rw [← htarget] at hlast
    unfold consumeGloo
    rw [if_pos rfl]
    exact hlast
  · have hy : wornAt (unslotted k.equipment slotBuilding) s = some y := hy
    rw [wornAt_unslotted] at hy
    split at hy
    · cases hy
    · rename_i hs
      exact hs ((slot_of_wornAt hy).symm.trans (honly y (mem_of_wornAt hy) heq))
  · change (if target ≠ 0 then target else k.itemOnHand) ≠ u
    split
    · exact (hsafe (by assumption)).1
    · rename_i hz
      rw [not_not] at hz
      intro heq
      rw [← htarget] at hz
      rcases hhand heq with hw | hbest
      · rw [if_pos hw] at hz
        exact (isWeaponUID_some hw).1 hz
      · split at hz
        · rename_i hw
          exact (isWeaponUID_some hw).1 hz
        · exact hbest hz

theorem kept_gloo (h : k.Kept w) (hs : k.KeepsOrder w x .gloo) (hsome : (k.glooCount x.order).2 ≠ 0) :
    (k.apply x .gloo).Kept w := by
  change (k.placeGloo x.order).Kept w
  have hs : (k.glooCount x.order).2 = 1 → k.weapon slotBuilding = none ∧
      k.Only slotBuilding (k.glooCount x.order).1 ∧
      (k.itemOnHand = (k.glooCount x.order).1 →
        k.isWeaponUID k.heldBeforeGloo = true ∨ k.bestWeaponUID ≠ 0) := hs
  obtain ⟨it, hit, hdata, hcount⟩ := (@glooCount_cases k x.order).resolve_left hsome
  obtain ⟨hown, hne⟩ := h.rack.own _ it hit
  unfold placeGloo
  by_cases hone : (k.glooCount x.order).2 = 1
  · obtain ⟨hnone, honly, hhand⟩ := hs hone
    rw [hone]
    exact kept_lastWall h hnone honly hhand
  · unfold consumeGloo
    rw [if_neg (by omega), hit]
    dsimp only
    rw [← hown]
    refine @Kept.track _ _ { it with count := (k.glooCount x.order).2 - 1 } h (hown ▸ hne)
      fun y hy => ?_
    have hy : k.clientUIDs.lookup it.unique = some y := hy
    rw [hown, hit] at hy
    rw [← Option.some.inj hy]

theorem kept_equip_tracked {dst : Nat} {occupant : Option Equipment} (h : k.Kept w)
    (hfree : k.equipSlotOf unique = none) (hit : k.clientUIDs.lookup unique = some it)
    (harms : ¬ w.Arms it.data) (hocc : k.equipAt dst = occupant) :
    (Core.moveItem k dst unique it.data slotNone occupant).Kept w := by
  have hweapon : (Core.moveItem k dst unique it.data slotNone occupant).weapon =
      update k.weapon dst none := by
    funext s
    rw [weapon_moveItem, if_pos rfl, update_apply]
    by_cases hs : s = dst
    · rw [if_pos hs]
      cases occupant with
      | none =>
        rw [hs, weapon_of_free h hocc]
        simp
      | some e => simp [hs]
    · rw [if_neg hs, if_neg fun hp => hs hp.2]
  obtain ⟨ws, hmove⟩ := @moveItem_eq k unique dst it.data slotNone occupant
  have hes : reslotted k.equipment dst unique it.data slotNone occupant =
      slotted k.equipment dst it.data unique := by
    unfold reslotted
    cases occupant <;> simp
  rw [hmove, hes] at hweapon ⊢
  have hfits : k.rack.Fits w dst ⟨dst, it.data, unique⟩ none :=
    ⟨rfl, fun _ => ⟨it, hit, rfl⟩, fun hz => absurd hz (h.rack.own unique it hit).2, nofun,
      fun _ ha => absurd ha harms,
      fun _ s e he heu => absurd heu (equipSlotOf_none hfree e (mem_of_wornAt he))⟩
  refine ⟨nodup_slotted h.slots, ?_, (h.rack.set hfits).of_eq (Rack.ext wornAt_slotted_eq hweapon rfl rfl)⟩
  change wornAt (slotted k.equipment dst it.data unique) slotMelee ≠ none
  rw [wornAt_slotted]
  split
  · exact Option.some_ne_none _
  · exact h.melee

theorem kept_equip_worn {dst : Nat} {occupant : Option Equipment} {e : Equipment} (h : k.Kept w)
    (he : k.worn e.slot = some e) (hslot : e.slot ≠ slotNone) (hne : e.slot ≠ dst)
    (hocc : k.equipAt dst = occupant) (hmelee : e.slot = slotMelee → occupant ≠ none) :
    (Core.moveItem k dst e.unique e.data e.slot occupant).Kept w := by
  have hweapon : (Core.moveItem k dst e.unique e.data e.slot occupant).weapon =
      update (update k.weapon e.slot (occupant.bind fun _ =>
        (k.weapon dst).map fun wp => { wp with slot := e.slot })) dst
        ((k.weapon e.slot).map fun wp => { wp with slot := dst }) := by
    funext s
    rw [weapon_moveItem, if_neg hslot, update_apply, update_apply]
    cases occupant with
    | some o => simp
    | none =>
      have hdst := weapon_of_free h hocc
      by_cases hs : s = dst
      · rw [hs]
        cases hw : k.weapon e.slot with
        | some wp => simp
        | none => simp [hdst, Ne.symm hne]
      · by_cases hs' : s = e.slot
        · rw [hs']
          cases hw : k.weapon e.slot with
          | some wp => simp
          | none => simp [hne]
        · simp [hs, hs']
  obtain ⟨ws, hmove⟩ := @moveItem_eq k e.unique dst e.data e.slot occupant
  rw [hmove] at hweapon ⊢
  have hworn : wornAt (reslotted k.equipment dst e.unique e.data e.slot occupant) =
      update (update k.worn e.slot (occupant.map fun o => ⟨e.slot, o.data, o.unique⟩)) dst
        (some ⟨dst, e.data, e.unique⟩) := by
    funext s
    rw [wornAt_reslotted, update_apply, update_apply]
    simp [hslot]
    rfl
  refine ⟨nodup_reslotted h.slots, ?_, ?_⟩
  · change wornAt (reslotted k.equipment dst e.unique e.data e.slot occupant) slotMelee ≠ none
    rw [hworn, update_apply, update_apply]
    split
    · exact Option.some_ne_none _
    · split
      · rename_i hs
        rw [ne_eq, Option.map_eq_none_iff]
        exact hmelee hs.symm
      · exact h.melee
  · cases occupant with
    | none =>
      have hfits := @Rack.Ordered.moved _ (k.rack.clear e.slot) dst _ _ _ h.rack he rfl fun hu s y hy heq => by
        rw [Rack.clear, Rack.worn_set] at hy
        split at hy
        · cases hy
        · rename_i hs
          exact absurd (h.rack.apart _ _ _ _ he hy hu heq) hs
      exact (h.rack.clear.set hfits).of_eq (Rack.ext hworn hweapon rfl rfl)
    | some o =>
      obtain ⟨ho, hou⟩ := equipAt_some h hocc
      have hoslot : o.slot = dst := slot_of_wornAt ho
      have hgone : ∀ s y, ((k.rack.clear dst).clear e.slot).worn s = some y →
          s ≠ dst ∧ s ≠ e.slot ∧ k.rack.worn s = some y := by
        intro s y hy
        rw [Rack.clear, Rack.worn_set] at hy
        split at hy
        · cases hy
        · rw [Rack.clear, Rack.worn_set] at hy
          split at hy
          · cases hy
          · exact ⟨by assumption, by assumption, hy⟩
      have hback := @Rack.Ordered.moved _ ((k.rack.clear dst).clear e.slot) e.slot _ _ _ h.rack ho rfl
        fun hu s y hy heq => absurd (h.rack.apart _ _ _ _ ho (hgone s y hy).2.2 hu heq) (hgone s y hy).1
      have hset := h.rack.clear.clear.set hback
      have hforth := @Rack.Ordered.moved _ (((k.rack.clear dst).clear e.slot).set e.slot
        (some ⟨e.slot, o.data, o.unique⟩) ((k.weapon dst).map fun wp => { wp with slot := e.slot }))
        dst _ _ _ h.rack he rfl fun hu s y hy heq => by
          rw [Rack.worn_set] at hy
          split at hy
          · rename_i hs
            obtain rfl := Option.some.inj hy
            exact absurd (h.rack.apart _ _ _ _ he ho hu heq) (Ne.symm hne)
          · exact absurd (h.rack.apart _ _ _ _ he (hgone s y hy).2.2 hu heq) (hgone s y hy).2.1
      refine (hset.set hforth).of_eq (Rack.ext ?_ ?_ rfl rfl)
      · refine hworn.trans ?_
        funext s
        change _ = update (update (update (update k.worn dst none) e.slot none) e.slot _) dst _ s
        simp only [update_apply, Option.map_some]
        split
        · rfl
        · split <;> rfl
      · refine hweapon.trans ?_
        funext s
        change _ = update (update (update (update k.weapon dst none) e.slot none) e.slot _) dst _ s
        simp only [update_apply, Option.bind_some]
        split
        · rfl
        · split <;> rfl

theorem kept_equip {dst : Nat} (h : k.Kept w) (hs : k.KeepsOrder w x (.equip dst unique)) :
    (k.apply x (.equip dst unique)).Kept w := by
  change (k.equip dst unique).Kept w
  have hs : ∀ target ∈ k.target unique, target.1 ≠ dst →
      if target.1 = slotNone then k.equipSlotOf unique = none ∧ ¬ w.Arms target.2
      else target.1 = slotMelee → k.equipAt dst ≠ none := hs
  unfold equip
  cases htarget : k.target unique with
  | none => exact h
  | some target =>
    obtain ⟨oldSlot, data⟩ := target
    have hguard := hs _ htarget
    dsimp only at hguard ⊢
    split
    · exact h
    · rename_i hne
      have hguard := hguard hne
      rcases target_cases htarget with ⟨e, he, rfl, rfl⟩ | ⟨hfree, rfl, it, hit, rfl⟩
      · obtain ⟨hmem, rfl⟩ := equipSlotOf_some he
        have hslot : e.slot ≠ slotNone := by
          intro hz
          rw [if_pos hz, he] at hguard
          exact absurd hguard.1 (Option.some_ne_none e)
        rw [if_neg hslot] at hguard
        exact kept_equip_worn h ((wornAt_iff h.slots).mpr ⟨hmem, rfl⟩) hslot hne rfl hguard
      · rw [if_pos rfl] at hguard
        exact kept_equip_tracked h hfree hit hguard.2 rfl

theorem kept_bare (hes : k.equipment = [⟨slotMelee, 0, 0⟩]) (hws : k.weapons = some ∅)
    (hgoods : k.clientUIDs = ∅) (hhand : k.itemOnHand = 0) : k.Kept w := by
  have hfits : Rack.empty.Fits w slotMelee ⟨slotMelee, 0, 0⟩ none :=
    ⟨rfl, fun hne => absurd rfl hne, fun _ => rfl, nofun, fun hne => absurd rfl hne,
      fun hne => absurd rfl hne⟩
  refine ⟨?_, ?_, (Rack.Ordered.empty.set hfits).of_eq (Rack.ext ?_ ?_ ?_ hhand)⟩
  · rw [hes]
    exact List.nodup_singleton slotMelee
  · rw [worn, hes]
    exact Option.some_ne_none _
  · funext s
    change wornAt k.equipment s = update (fun _ => none) slotMelee (some ⟨slotMelee, 0, 0⟩) s
    rw [hes, update_apply]
    by_cases hs : s = slotMelee
    · rw [if_pos hs, hs]
      rfl
    · rw [if_neg hs]
      exact List.find?_eq_none.mpr (by simp [Ne.symm hs])
  · funext s
    change k.weapon s = update (fun _ => none) slotMelee none s
    rw [update_apply, ite_self, weapon, hws]
    rfl
  · change (fun u => k.clientUIDs.lookup u) = fun _ => none
    rw [hgoods]
    rfl

theorem kept_wiped (hu : k.ammoUID ≠ 0) : k.wiped.Kept w := by
  have hbare : Kept w { k.wiped with clientUIDs := ∅ } := kept_bare rfl rfl rfl rfl
  exact @Fresh.track _ _ ⟨k.ammoUID, medkitData, 2, 2⟩ ⟨hu, rfl⟩ hbare

theorem kept_armed {slots : List Nat} (hzero : 0 ∉ k.minted w slots false false)
    (hn : (k.minted w slots false false).Nodup) : (k.armed w slots).Kept w := by
  simp only [minted, Bool.false_eq_true, if_false, List.append_nil, List.nodup_cons,
    List.mem_cons, List.not_mem_nil, or_false, not_or, List.nodup_nil, and_true,
    not_false_eq_true] at hzero hn
  obtain ⟨hm, hg, hr⟩ := hzero
  obtain ⟨⟨hmg, hmr⟩, hgr⟩ := hn
  have hwiped := kept_wiped (w := w) (Ne.symm hm)
  have hgun : (k.wiped.trackItem ⟨k.nextUID, uspData, 1, gunMag w slots⟩).Kept w :=
    Fresh.track ⟨Ne.symm hg, lookup_wiped (Ne.symm hmg)⟩ hwiped
  have hammo : ((k.wiped.trackItem ⟨k.nextUID, uspData, 1, gunMag w slots⟩).trackItem
      ⟨k.reserveUID w, pistolAmmo, ammoReserveTotal pistolAmmo, 0⟩).Kept w :=
    Fresh.track ⟨Ne.symm hr,
      (AList.lookup_insert_ne (Ne.symm hgr)).trans (lookup_wiped (Ne.symm hmr))⟩ hgun
  refine @kept_arm _ slotSecondary _ _ _ _ pistolAmmo ∅ hammo.slots
    (fun _ => hammo.melee) hammo.rack rfl (Ne.symm hg) (@arms_of_class _ _ false rfl)
    ((AList.lookup_insert_ne hgr).trans (AList.lookup_insert _)) rfl (fun s e he heu => ?_)
    (k.reserveUID w)
  have he : wornAt [⟨slotMelee, 0, 0⟩] s = some e := he
  obtain rfl := List.mem_singleton.mp (mem_of_wornAt he)
  exact absurd heu hg

theorem kept_based {slots : List Nat} {noLoadout : Bool}
    (hzero : 0 ∉ k.minted w slots noLoadout false) (hn : (k.minted w slots noLoadout false).Nodup) :
    (k.based w slots noLoadout).Kept w := by
  cases noLoadout with
  | true => exact kept_wiped fun hz => hzero (hz ▸ List.mem_cons_self)
  | false => exact kept_armed hzero hn

theorem kept_issue {coins : Option Nat} {noLoadout infiniteGloo : Bool} (hw : x.w = w)
    (hs : k.KeepsOrder w x (.issue coins noLoadout infiniteGloo)) :
    (k.apply x (.issue coins noLoadout infiniteGloo)).Kept w := by
  subst hw
  obtain ⟨hn, hzero, hwall⟩ := hs
  rw [minted_eq] at hn hzero
  rw [List.mem_append, not_or] at hzero
  obtain ⟨j, hj⟩ : ∃ j, j = { k with coins := coins.getD k.coins } := ⟨_, rfl⟩
  have hbase : (j.based x.w x.slots noLoadout).Kept x.w := by
    rw [hj]
    exact kept_based (k := { k with coins := coins.getD k.coins }) hzero.1 (List.Nodup.of_append_left hn)
  have hnext : (j.based x.w x.slots noLoadout).nextUID = (k.based x.w x.slots noLoadout).nextUID := by
    rw [hj]
    cases noLoadout <;> rfl
  change (Kit.issue x k coins noLoadout infiniteGloo).Kept x.w
  unfold issue
  rw [baseLoadout_eq, ← hj]
  cases infiniteGloo with
  | false => exact hbase
  | true =>
    have hu : (j.based x.w x.slots noLoadout).Fresh (j.based x.w x.slots noLoadout).nextUID := by
      rw [hnext]
      refine ⟨fun hz => hzero.2 (hz ▸ List.mem_singleton_self _), ?_⟩
      rw [hj]
      refine lookup_based (k := { k with coins := coins.getD k.coins }) fun hmem => ?_
      exact (List.nodup_append.mp hn).2.2 _ hmem _ (List.mem_singleton_self _) rfl
    have htracked := @Fresh.track _ _ ⟨_, glooDataID, 5, 0⟩ hu hbase
    have hworn := @Kept.wear _ _ slotBuilding _ _ _ htracked (AList.lookup_insert _) rfl (hwall rfl)
      (by cases noLoadout <;> rfl) fun s e he heu => absurd heu (hu.unworn hbase.rack he)
    have hes : slotted (j.based x.w x.slots noLoadout).equipment slotBuilding glooDataID
        (j.based x.w x.slots noLoadout).nextUID = (j.based x.w x.slots noLoadout).glooed.equipment := by
      cases noLoadout <;> rfl
    change ((j.based x.w x.slots noLoadout).glooed).Kept x.w
    exact ⟨hes ▸ hworn.slots, by rw [worn, ← hes]; exact hworn.melee,
      hworn.rack.of_eq (Rack.ext (congrArg wornAt hes.symm) rfl rfl rfl)⟩

theorem weapons_issue {coins : Option Nat} {noLoadout infiniteGloo : Bool} :
    (k.apply x (.issue coins noLoadout infiniteGloo)).weapons ≠ none := by
  change (Kit.issue x k coins noLoadout infiniteGloo).weapons ≠ none
  unfold issue
  rw [baseLoadout_eq]
  cases infiniteGloo <;> cases noLoadout <;> exact Option.some_ne_none _

theorem weapons_moveWeaponSlot {a b : Nat} (h : k.weapons ≠ none) :
    (k.moveWeaponSlot a b).weapons ≠ none := by
  unfold moveWeaponSlot
  split
  · exact h
  · split
    · exact weapons_putWeapon.mpr (weapons_eraseWeapon.mpr h)
    · exact h

theorem weapons_swapWeaponSlots {a b : Nat} (h : k.weapons ≠ none) :
    (k.swapWeaponSlots a b).weapons ≠ none := by
  unfold swapWeaponSlots
  dsimp only
  cases k.weapon b with
  | none =>
    have herased : (k.eraseWeapon a).weapons ≠ none := weapons_eraseWeapon.mpr h
    cases k.weapon a with
    | none => exact weapons_eraseWeapon.mpr herased
    | some wp => exact weapons_putWeapon.mpr herased
  | some wb =>
    have hput : ((k.putWeapon a { wb with slot := a }).getD k).weapons ≠ none := weapons_putWeapon.mpr h
    cases k.weapon a with
    | none => exact weapons_eraseWeapon.mpr hput
    | some wp => exact weapons_putWeapon.mpr hput

theorem weapons_setEquip {data : Nat} : (k.setEquip slot data unique).weapons = k.weapons := by
  rw [setEquip_eq]

theorem weapons_moveItem {dst data oldSlot : Nat} {occupant : Option Equipment} (h : k.weapons ≠ none) :
    (Core.moveItem k dst unique data oldSlot occupant).weapons ≠ none := by
  unfold Core.moveItem
  cases occupant with
  | none =>
    refine weapons_moveWeaponSlot ?_
    rw [weapons_setEquip]
    split <;> exact h
  | some e =>
    dsimp only
    split
    · refine weapons_swapWeaponSlots ?_
      rw [weapons_setEquip, weapons_setEquip]
      exact h
    · refine weapons_moveWeaponSlot ?_
      rw [weapons_setEquip]
      exact weapons_eraseWeapon.mpr h

theorem weapons_removeTracked (h : k.weapons ≠ none) : (k.removeTracked order unique).weapons ≠ none := by
  rw [removeTracked_eq]
  dsimp only
  split
  · rw [ne_eq, Option.map_eq_none_iff]
    exact h
  · exact h

theorem weapons_purchase {slots : List Nat} {now : Int} {item : ShopItem} {qty : Nat} {w : World}
    (h : k.weapons ≠ none) : (k.purchase w order slots now item qty).weapons ≠ none := by
  have hadded : (k.addPurchasedItem w order slots item qty).1.weapons ≠ none := by
    by_cases hwpn : (placeItem item).isWeapon = true
    · obtain ⟨ws, hws⟩ := Option.ne_none_iff_exists'.mp h
      rw [addPurchasedItem_weapon hwpn, addWeapon_some hws]
      exact Option.some_ne_none _
    · have hwpn := Bool.eq_false_iff.mpr hwpn
      cases hs : k.stackOf order item with
      | none =>
        rw [addPurchasedItem_new hwpn hs]
        exact h
      | some stack =>
        rw [@addPurchasedItem_merge _ _ _ _ stack.1 stack.2 _ _ hwpn hs]
        exact h
  unfold purchase
  split
  · exact h
  · split
    · rename_i heq
      rw [heq] at hadded
      exact hadded
    · rename_i heq
      rw [heq] at hadded
      split
      · unfold equipArmor
        split
        · exact hadded
        · split <;> exact hadded
      · exact hadded

theorem weapons_syncArmor (h : k.weapons ≠ none) : (k.syncArmor slot).weapons ≠ none := by
  unfold syncArmor
  split
  · exact h
  · dsimp only
    split
    · exact h
    · rw [weapons_setEquip]
      exact h

theorem weapons_apply {op : Op} (h : k.weapons ≠ none) : (k.apply x op).weapons ≠ none := by
  cases op with
  | fund coins => exact h
  | pay aw => exact h
  | round => exact h
  | issue coins noLoadout infiniteGloo => exact weapons_issue
  | reissue =>
    change (k.reissued x.w x.order x.slots).1.weapons ≠ none
    rw [reissued_eq]
    split <;> exact h
  | buy item qty =>
    obtain ⟨coins, hcoins⟩ := @charged_eq x k item qty
    refine weapons_purchase ?_
    rw [hcoins]
    exact h
  | install it isPrimary =>
    obtain ⟨ws, hcleared⟩ := Option.ne_none_iff_exists'.mp (@weapons_cleared k it isPrimary h)
    change (k.install x it isPrimary).weapons ≠ none
    rw [install_eq hcleared]
    exact Option.some_ne_none _
  | take it =>
    change (k.take x.order it).weapons ≠ none
    unfold take
    split
    · exact h
    · dsimp only
      rw [repoint_eq]
      exact weapons_removeTracked h
  | drop unique => exact weapons_removeTracked h
  | equip dst unique =>
    change (k.equip dst unique).weapons ≠ none
    unfold equip
    split
    · exact h
    · split
      · exact h
      · exact weapons_moveItem h
  | wear bodyPart netDmg =>
    change (k.wear bodyPart netDmg).weapons ≠ none
    unfold Kit.wear
    split
    · split
      · exact weapons_syncArmor h
      · exact h
    · split
      · split
        · exact weapons_syncArmor h
        · exact h
      · exact h
  | gloo =>
    change (k.placeGloo x.order).weapons ≠ none
    unfold placeGloo consumeGloo
    split
    · exact h
    · split <;> exact h
  | hold unique => exact h
  | use unique =>
    change (k.useUp unique).weapons ≠ none
    unfold useUp
    split <;> exact h

theorem kept_act {op : Op} (h : op.issues = true ∨ k.weapons ≠ none ∧ k.Kept w) (hw : x.w = w)
    (hsound : k.Sound x op) (hs : k.KeepsOrder w x op) :
    (k.apply x op).weapons ≠ none ∧ (k.apply x op).Kept w := by
  cases op with
  | issue coins noLoadout infiniteGloo => exact ⟨weapons_issue, kept_issue hw hs⟩
  | _ =>
    obtain ⟨hws, h⟩ := h.resolve_left Bool.false_ne_true
    refine ⟨weapons_apply hws, ?_⟩
    first
    | exact ⟨h.slots, h.melee, h.rack⟩
    | exact kept_reissue h hs
    | exact kept_install h hws hs hsound
    | exact kept_take h hs
    | exact kept_drop h hs
    | exact kept_equip h hs
    | exact kept_wear h hs
    | exact kept_gloo h hs hsound
    | exact kept_hold h hs
    | exact kept_use h
    | exact kept_buy h hws hs (hw ▸ hsound.2.2.2)

theorem Kept.coherent (h : k.Kept w) : k.Coherent w where
  slots := h.slots
  melee := by
    obtain ⟨e, he⟩ := Option.ne_none_iff_exists'.mp h.melee
    exact slot_of_wornAt he ▸ List.mem_map_of_mem (mem_of_wornAt he)
  tracked e he hu := h.rack.tracked e.slot e ((wornAt_iff h.slots).mpr ⟨he, rfl⟩) hu
  armed slot wp hwp := by
    obtain ⟨hworn, hslot, -, harms⟩ := h.rack.armed slot wp hwp
    exact ⟨⟨_, mem_of_wornAt hworn, rfl, rfl, rfl⟩, harms, hslot⟩
  drawn e he hu harms := by
    have hworn : k.worn e.slot = some e := (wornAt_iff h.slots).mpr ⟨he, rfl⟩
    obtain ⟨wp, hwp⟩ := Option.ne_none_iff_exists'.mp (h.rack.drawn e.slot e hworn hu harms)
    have hsame : k.worn e.slot = _ := (h.rack.armed e.slot wp hwp).1
    have heq := Option.some.inj (hworn.symm.trans hsame)
    exact ⟨wp, hwp, by rw [heq], by rw [heq]⟩
  apart u u' it it' hu hu' heq := by
    rw [← (h.rack.own u it hu).1, ← (h.rack.own u' it' hu').1, heq]
  hand := by
    by_cases hz : k.itemOnHand = 0
    · exact Or.inl hz
    · exact Or.inr (Option.ne_none_iff_exists'.mp (h.rack.hand hz))

end Kit

namespace Server

variable {w : World} {v : Server} {es : List Event} {s : SessionId}

-- From its first giveLoadout on, every operation on the session's kit is within the guard.
def OrderKept (w : World) (v : Server) (es : List Event) (s : SessionId) : Prop :=
  ∀ y ∈ v.trail w s es, (y.1.weapons ≠ none ∨ y.2.2.issues = true) →
    y.1.KeepsOrder w y.2.1 y.2.2

theorem coherent_of_issue (h : Run (Step w) start es v) (hok : start.OrderKept w es s)
    (hissued : ∃ y ∈ start.trail w s es, y.2.2.issues = true) : (v.core.ss s).kit.Coherent w := by
  refine Kit.Kept.coherent (((@follows_run w v s es h).inv
    (I := fun t k => (∃ y ∈ t, y.2.2.issues = true) → k.weapons ≠ none ∧ k.Kept w)
    (P := fun _ y => ((y.1.weapons ≠ none ∨ y.2.2.issues = true) → y.1.KeepsOrder w y.2.1 y.2.2) ∧
      y.1.Sound y.2.1 y.2.2 ∧ y.2.1.w = w)
    (fun t k k' hr hI ht => ?_) (fun hno => ?_) (fun t k a hI ha ht => ?_)
    (each_of_forall fun y hy => ⟨hok y hy, trail_sound hy⟩)) hissued).2
  · obtain ⟨hws, hk⟩ := hI ht
    have hrec : k'.rack = k.rack := (congrArg Kit.rack hr :)
    have hes : k'.equipment = k.equipment := (congrArg Kit.equipment hr :)
    have hweapons : k'.weapons = k.weapons := (congrArg Kit.weapons hr :)
    refine ⟨hweapons ▸ hws, hes ▸ hk.slots, ?_, hk.rack.of_eq hrec⟩
    rw [Kit.worn, hes]
    exact hk.melee
  · obtain ⟨y, hy, -⟩ := hno
    exact absurd hy List.not_mem_nil
  · obtain ⟨hguard, hsound, hw⟩ := ha
    by_cases hi : a.2.issues = true
    · exact Kit.kept_act (Or.inl hi) hw hsound (hguard (Or.inr hi))
    · have hbefore : ∃ y ∈ t, y.2.2.issues = true := by
        obtain ⟨y, hy, hyi⟩ := ht
        rcases List.mem_append.mp hy with hy | hy
        · exact ⟨y, hy, hyi⟩
        · rw [List.mem_singleton.mp hy] at hyi
          exact absurd hyi hi
      obtain ⟨hws, hk⟩ := hI hbefore
      exact Kit.kept_act (Or.inr ⟨hws, hk⟩) hw hsound (hguard (Or.inl hws))

-- cmd 119 and cmd 108.
def equipRequest (dst unique : Nat) : Packet := ⟨1, 119, 1, UInt8.ofNat dst :: le32 unique⟩

def holdRequest (unique : Nat) : Packet := ⟨1, 108, 1, le32 0 ++ le32 unique⟩

instance : DecidablePred shopWorld.Arms := fun data =>
  decidable_of_iff (weaponClass data ≠ none ∨
    (shelf.find? fun item => item.itemID == data).any (fun item => (placeItem item).isWeapon) = true) <| by
    unfold World.Arms
    refine or_congr Iff.rfl ⟨fun h => ?_, fun ⟨settings, id, item, hitem, hid, hwpn⟩ => ?_⟩
    · obtain ⟨item, hitem, hwpn⟩ := (Option.any_eq_true _ _).mp h
      exact ⟨zeroSettings, data, item, hitem, by simpa using List.find?_some hitem, hwpn⟩
    · have hsold : item.itemID = id := by simpa using List.find?_some hitem
      obtain rfl : id = data := hsold.symm.trans hid
      exact (Option.any_eq_true _ _).mpr ⟨item, hitem, hwpn⟩

instance (es : List Event) (s : SessionId) : Decidable (start.OrderKept shopWorld es s) := by
  unfold OrderKept
  infer_instance

-- The host buys a vest, moves the pistol to another slot and back, draws it, drops it and takes
-- it up again.
def pistolMoved : List Event :=
  toShop ++ sends 8000000000 0 0 (buyRequest 302 1) ++ sends 8100000000 0 0 (equipRequest 0 1) ++
    sends 8200000000 0 0 (equipRequest 2 1) ++ sends 8300000000 0 0 (holdRequest 1) ++
    sends 8400000000 0 0 (dropRequest 1) ++ sends 8500000000 0 0 (Core.pickupRequest 1)

theorem coherent_of_issue_pistol : ∃ v, Run (Step shopWorld) start pistolMoved v ∧
    (v.core.ss 0).kit.Coherent shopWorld := by
  have hrun : ((pistolMoved.foldlM (step shopWorld) start).map fun v =>
      ((v.core.ss 0).kit.weapon slotSecondary).map fun wp => wp.unique) = some (some 1) := by
    decide +kernel
  obtain ⟨v, hv, -⟩ := Option.map_eq_some_iff.mp hrun
  have hok : start.OrderKept shopWorld pistolMoved 0 := by
    decide +kernel
  have hissued : ∃ y ∈ start.trail shopWorld 0 pistolMoved, y.2.2.issues = true := by
    decide +kernel
  exact ⟨v, run_of_foldlM hv, coherent_of_issue (run_of_foldlM hv) hok hissued⟩

-- The medkit pushes the pistol out of its slot, and the pistol comes back without its weapon.
theorem pistol_unarmed : ¬ ∀ w es v s, Run (Step w) start es v →
    (∃ y ∈ start.trail w s es, y.2.2.issues = true) → (v.core.ss s).kit.Coherent w := by
  intro hall
  obtain ⟨es, hes⟩ : ∃ es, es = toShop ++ sends 8000000000 0 0 (equipRequest slotSecondary 2) ++
      sends 8100000000 0 0 (equipRequest slotSecondary 1) := ⟨_, rfl⟩
  have hrun : ((es.foldlM (step shopWorld) start).map fun v : Server =>
      ((v.core.ss 0).kit.equipment, (v.core.ss 0).kit.weapon slotSecondary)) =
      some ([⟨slotMelee, 0, 0⟩, ⟨slotSecondary, uspData, 1⟩], none) := by
    rw [hes]
    decide +kernel
  have hissued : ∃ y ∈ start.trail shopWorld 0 es, y.2.2.issues = true := by
    rw [hes]
    decide +kernel
  obtain ⟨v, hv, hd⟩ := Option.map_eq_some_iff.mp hrun
  obtain ⟨hequipped, hnone⟩ := Prod.mk.inj hd
  have hdrawn := (hall shopWorld es v 0 (run_of_foldlM hv) hissued).drawn ⟨slotSecondary, uspData, 1⟩
    (by rw [hequipped]; exact List.mem_cons_of_mem _ List.mem_cons_self) (by decide)
    (Or.inl (by decide))
  obtain ⟨wp, hwp, -⟩ := hdrawn
  rw [hnone] at hwp
  cases hwp

end Server

end MatchServer

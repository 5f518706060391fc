import Madoka.MatchServer.Goods
import Madoka.MatchServer.Rosters

namespace MatchServer

open Lib

theorem kit_of_keeps {F : List Part} {c d : Core} (h : Keeps F c d) (hF : Part.kit ∉ F)
    (s : SessionId) : (d.ss s).kit = (c.ss s).kit :=
  ((h _ hF).2.1 s).symm

namespace Kit

variable (w : World) (order : List Nat) (slots : List Nat) (now : Int) (k k' : Kit)

def purchase (item : ShopItem) (qty : Nat) : Kit :=
  if item.itemID = itemMushroom then k.grantMushroom now
  else
    match k.addPurchasedItem w order slots item qty with
    | (k, none) => k
    | (k, some _) =>
      match armorSlot item.itemID with
      | some slot => k.equipArmor item.itemID slot
      | none => k

-- How many weapons of a DataID are tracked under a unique that was not: a weapon counts one.
def newGuns (data : Nat) : Nat :=
  (k'.clientUIDs.keys.filter fun u => decide (k.clientUIDs.lookup u = none) &&
    ((k'.clientUIDs.lookup u).any fun it => it.data == data && it.count == 1)).length

-- Exactly `qty` units of the item are added, and no other item is touched where it is no weapon.
def Receives (item : ShopItem) (qty : Nat) : Prop :=
  if item.itemID = itemMushroom then
    k'.mushrooms = k.mushrooms + qty ∧ k'.mushrooms ≤ mushroomsPerRound ∧
      k'.ep.val = min (k.ep.val + qty * epPerMushroom) maxEP
  else if (placeItem item).isWeapon then k.newGuns k' item.itemID = qty
  else
    (∃ u it, k.clientUIDs.lookup u = some it ∧ it.data = item.itemID ∧
      ∀ x, k'.clientUIDs.lookup x =
        if x = u then some { it with count := it.count + qty } else k.clientUIDs.lookup x) ∨
    ∃ u runtime, k.clientUIDs.lookup u = none ∧
      ∀ x, k'.clientUIDs.lookup x =
        if x = u then some ⟨u, item.itemID, qty, runtime⟩ else k.clientUIDs.lookup x

-- When the grant of an accepted purchase goes right, told from the kit before it.
def Grants (item : ShopItem) (qty : Nat) : Prop :=
  if item.itemID = itemMushroom then qty = 1
  else if (placeItem item).isWeapon then
    qty = 1 ∧ k.weapons ≠ none ∧ k.clientUIDs.lookup k.nextUID = none ∧
      ∀ old, k.weapon (if (placeItem item).isPrimary then k.pickPrimarySlot else (placeItem item).slot) =
        some old → old.unique ≠ k.nextUID
  else
    match k.stackOf order item with
    | some (_, it) => it.count + qty < 2 ^ 32
    | none => ∀ it, k.clientUIDs.lookup k.nextUID = some it → it = k.newPiece item 0

variable {w order slots now k k'} {item : ShopItem} {qty : Nat}

theorem newGuns_congr {j j' : Kit} {data : Nat} (h : j.clientUIDs = k.clientUIDs)
    (h' : j'.clientUIDs = k'.clientUIDs) : j.newGuns j' data = k.newGuns k' data := by
  unfold newGuns
  rw [h, h']

theorem length_filter_eq_one {l : List Nat} {p : Nat → Bool} {a : Nat} (hl : l.Nodup)
    (h : ∀ x, (x ∈ l ∧ p x = true) ↔ x = a) : (l.filter p).length = 1 := by
  have hperm : (l.filter p).Perm [a] :=
    (List.perm_ext_iff_of_nodup (hl.filter p) (List.nodup_singleton a)).mpr fun x => by
      rw [List.mem_filter, h, List.mem_singleton]
  rw [hperm.length_eq]
  rfl

theorem ammoUID_ne : k.ammoUID ≠ k.nextUID := by
  unfold ammoUID nextUID
  omega

theorem ammo_count_ne_one (ammo : Nat) : ammoReserveTotal ammo ≠ 1 := by
  unfold ammoReserveTotal
  split <;> decide

theorem lookup_stocked {ammo x : Nat} (hx : x ≠ k.nextUID) :
    (k.stocked w slots item ammo).lookup x = k.clientUIDs.lookup x ∨
      (k.stocked w slots item ammo).lookup x = some (k.ammoItem ammo) := by
  unfold stocked
  by_cases ha : ammo ≠ 0
  · rw [if_pos ha]
    by_cases hu : x = k.ammoUID
    · rw [hu, AList.lookup_insert]
      exact Or.inr rfl
    · rw [AList.lookup_insert_ne hu, AList.lookup_insert_ne hx]
      exact Or.inl rfl
  · rw [if_neg ha, AList.lookup_insert_ne hx]
    exact Or.inl rfl

theorem lookup_stocked_self {ammo : Nat} :
    (k.stocked w slots item ammo).lookup k.nextUID = some (k.gunItem w slots item) := by
  unfold stocked
  by_cases ha : ammo ≠ 0
  · rw [if_pos ha, AList.lookup_insert_ne ammoUID_ne.symm, AList.lookup_insert]
  · rw [if_neg ha, AList.lookup_insert]

theorem newGuns_addWeapon {ws : GoMap CsWeapon} {slot ammo : Nat} (h : k.weapons = some ws) :
    k.newGuns (k.addWeapon w slots item qty slot ammo).1 item.itemID =
      if k.clientUIDs.lookup k.nextUID = none ∧
        ∀ old, k.weapon slot = some old → old.unique ≠ k.nextUID then 1 else 0 := by
  have hweapon : k.weapon slot = ws.lookup slot := by simp [weapon, h]
  have hT : ∃ T : GoMap InvItem, (k.addWeapon w slots item qty slot ammo).1.clientUIDs = T ∧
      ∀ x, T.lookup x = if ∃ old, k.weapon slot = some old ∧ old.unique = x then none
        else (k.stocked w slots item ammo).lookup x := by
    refine ⟨_, rfl, fun x => ?_⟩
    rw [addWeapon_some h]
    dsimp only
    rw [hweapon]
    cases hold : ws.lookup slot with
    | none => simp
    | some old =>
      dsimp only
      by_cases hx : old.unique = x
      · rw [if_pos ⟨old, rfl, hx⟩, ← hx, AList.lookup_erase]
      · rw [if_neg (by simpa using hx), AList.lookup_erase_ne (fun heq => hx heq.symm)]
  obtain ⟨T, hT, hlook⟩ := hT
  unfold newGuns
  rw [hT]
  have hmem : ∀ x, (x ∈ T.keys ∧ (decide (k.clientUIDs.lookup x = none) &&
      ((T.lookup x).any fun it => it.data == item.itemID && it.count == 1)) = true) ↔
      x = k.nextUID ∧ k.clientUIDs.lookup k.nextUID = none ∧
        ∀ old, k.weapon slot = some old → old.unique ≠ k.nextUID := by
    intro x
    rw [← AList.mem_keys, ← AList.lookup_isSome, hlook]
    by_cases hx : x = k.nextUID
    · subst hx
      by_cases hold : ∃ old, k.weapon slot = some old ∧ old.unique = k.nextUID
      · rw [if_pos hold]
        obtain ⟨old, hold, hu⟩ := hold
        simp only [Option.isSome_none, Bool.false_eq_true, false_and, true_and, false_iff, not_and]
        exact fun _ hall => hall old hold hu
      · rw [if_neg hold, lookup_stocked_self]
        simp only [Option.isSome_some, true_and, Option.any_some, gunItem, beq_self_eq_true,
          Bool.and_self, Bool.and_true, decide_eq_true_eq]
        exact ⟨fun hfree => ⟨hfree, fun old ho hu => hold ⟨old, ho, hu⟩⟩, fun h => h.1⟩
    · simp only [hx, false_and, iff_false, not_and, Bool.and_eq_true, decide_eq_true_eq]
      intro _ hfree
      split
      · simp
      · rcases @lookup_stocked w slots _ item ammo _ hx with h1 | h1
        · rw [h1, hfree]
          simp
        · rw [h1]
          simp [ammoItem, ammo_count_ne_one]
  split
  · rename_i hgood
    refine length_filter_eq_one T.nodupKeys (a := k.nextUID) fun x => ?_
    rw [hmem]
    exact ⟨fun h => h.1, fun h => ⟨h, hgood⟩⟩
  · rename_i hbad
    rw [List.length_eq_zero_iff, List.filter_eq_nil_iff]
    intro x hx hp
    exact hbad ((hmem x).mp ⟨hx, hp⟩).2

theorem clientUIDs_equipArmor {data slot : Nat} :
    (k.equipArmor data slot).clientUIDs = k.clientUIDs := by
  unfold equipArmor
  split
  · rfl
  · split <;> rfl

theorem coins_equipArmor {data slot : Nat} : (k.equipArmor data slot).coins = k.coins := by
  unfold equipArmor
  split
  · rfl
  · split <;> rfl

theorem clientUIDs_purchase (hm : item.itemID ≠ itemMushroom) :
    (k.purchase w order slots now item qty).clientUIDs =
      (k.addPurchasedItem w order slots item qty).1.clientUIDs := by
  unfold purchase
  rw [if_neg hm]
  split
  · rename_i heq
    rw [heq]
  · rename_i heq
    rw [heq]
    dsimp only
    split
    · exact clientUIDs_equipArmor
    · rfl

theorem coins_addPurchasedItem : (k.addPurchasedItem w order slots item qty).1.coins = k.coins := by
  by_cases hwpn : (placeItem item).isWeapon = true
  · rw [addPurchasedItem_weapon hwpn]
    cases hws : k.weapons with
    | none => exact (addWeapon_none hws).2
    | some ws => rw [addWeapon_some hws]
  · rw [Bool.not_eq_true] at hwpn
    cases hs : k.stackOf order item with
    | none => rw [addPurchasedItem_new hwpn hs]
    | some x => rw [@addPurchasedItem_merge _ _ _ _ x.1 x.2 _ _ hwpn hs]

theorem coins_purchase : (k.purchase w order slots now item qty).coins = k.coins := by
  have hadd := @coins_addPurchasedItem w order slots k item qty
  unfold purchase
  split
  · rfl
  · split
    · rename_i heq
      rw [← hadd, heq]
    · rename_i heq
      rw [← hadd, heq]
      split
      · exact coins_equipArmor
      · rfl

theorem receives_mushroom (hm : item.itemID = itemMushroom) (hlimit : k.mushrooms < mushroomsPerRound) :
    k.Receives (k.purchase w order slots now item qty) item qty ↔ qty = 1 := by
  unfold Receives purchase
  rw [if_pos hm, if_pos hm]
  have hep : (k.ep.val + epPerMushroom) % 65536 = k.ep.val + epPerMushroom :=
    Nat.mod_eq_of_lt (by have := k.ep.isLt; unfold epPerMushroom maxEP at *; omega)
  simp only [grantMushroom, hep]
  unfold mushroomsPerRound at *
  constructor
  · rintro ⟨hcount, -⟩
    omega
  · rintro rfl
    exact ⟨rfl, by omega, by rw [Nat.one_mul]⟩

theorem receives_weapon (hm : item.itemID ≠ itemMushroom) (hwpn : (placeItem item).isWeapon = true)
    (hq : 0 < qty) (hws : k.weapons ≠ none) :
    k.Receives (k.purchase w order slots now item qty) item qty ↔ k.Grants order item qty := by
  obtain ⟨ws, hws'⟩ := Option.ne_none_iff_exists'.mp hws
  unfold Receives Grants
  rw [if_neg hm, if_pos hwpn, if_neg hm, if_pos hwpn,
    newGuns_congr rfl (clientUIDs_purchase hm), addPurchasedItem_weapon hwpn,
    newGuns_addWeapon hws']
  constructor
  · intro hone
    by_cases hgood : k.clientUIDs.lookup k.nextUID = none ∧ ∀ old,
        k.weapon (if (placeItem item).isPrimary then k.pickPrimarySlot else (placeItem item).slot) =
          some old → old.unique ≠ k.nextUID
    · rw [if_pos hgood] at hone
      exact ⟨hone.symm, hws, hgood⟩
    · rw [if_neg hgood] at hone
      omega
  · rintro ⟨rfl, -, hgood⟩
    rw [if_pos hgood]

theorem receives_merge {u : Nat} {it : InvItem} (hm : item.itemID ≠ itemMushroom)
    (hwpn : (placeItem item).isWeapon = false) (hq : 0 < qty)
    (hs : k.stackOf order item = some (u, it)) :
    k.Receives (k.purchase w order slots now item qty) item qty ↔ it.count + qty < 2 ^ 32 := by
  have hlook : k.clientUIDs.lookup u = some it ∧ it.data = item.itemID := by
    unfold stackOf at hs
    rw [Option.ite_none_left_eq_some] at hs
    obtain ⟨hu, -, hd⟩ := trackedByData_some hs.2
    exact ⟨hu, hd⟩
  have hkit : ∀ x, (k.purchase w order slots now item qty).clientUIDs.lookup x =
      if x = u then some (grown it qty) else k.clientUIDs.lookup x := by
    intro x
    rw [clientUIDs_purchase hm, addPurchasedItem_merge hwpn hs]
    by_cases hx : x = u
    · rw [hx, if_pos rfl, AList.lookup_insert]
    · rw [if_neg hx, AList.lookup_insert_ne hx]
  unfold Receives
  rw [if_neg hm, if_neg (by rw [hwpn]; decide)]
  constructor
  · rintro (⟨u', it', hu', -, hall⟩ | ⟨u', r, hu', hall⟩)
    · have hx := hall u'
      rw [hkit, if_pos rfl] at hx
      by_cases heq : u' = u
      · rw [if_pos heq, Option.some.injEq] at hx
        rw [heq, hlook.1, Option.some.injEq] at hu'
        rw [← hu'] at hx
        have hcount : (it.count + qty) % 2 ^ 32 = it.count + qty := congrArg InvItem.count hx
        rw [← hcount]
        exact Nat.mod_lt _ (by decide)
      · rw [if_neg heq, hu', Option.some.injEq] at hx
        have hcount := congrArg InvItem.count hx
        dsimp only at hcount
        omega
    · have hx := hall u'
      rw [hkit, if_pos rfl] at hx
      by_cases heq : u' = u
      · rw [heq, hlook.1] at hu'
        cases hu'
      · rw [if_neg heq, hu'] at hx
        cases hx
  · intro hlt
    refine Or.inl ⟨u, it, hlook.1, hlook.2, fun x => ?_⟩
    rw [hkit]
    unfold grown
    rw [Nat.mod_eq_of_lt hlt]

theorem receives_new (hm : item.itemID ≠ itemMushroom) (hwpn : (placeItem item).isWeapon = false)
    (hq : 0 < qty) (hs : k.stackOf order item = none) :
    k.Receives (k.purchase w order slots now item qty) item qty ↔
      ∀ it, k.clientUIDs.lookup k.nextUID = some it → it = k.newPiece item 0 := by
  have hkit : ∀ x, (k.purchase w order slots now item qty).clientUIDs.lookup x =
      if x = k.nextUID then some (k.newPiece item qty) else k.clientUIDs.lookup x := by
    intro x
    rw [clientUIDs_purchase hm, addPurchasedItem_new hwpn hs]
    by_cases hx : x = k.nextUID
    · rw [hx, if_pos rfl, AList.lookup_insert]
    · rw [if_neg hx, AList.lookup_insert_ne hx]
  unfold Receives
  rw [if_neg hm, if_neg (by rw [hwpn]; decide)]
  constructor
  · rintro (⟨u', it', hu', -, hall⟩ | ⟨u', r, hu', hall⟩) it hit
    · have hx := hall u'
      rw [hkit, if_pos rfl] at hx
      by_cases heq : u' = k.nextUID
      · rw [if_pos heq, Option.some.injEq] at hx
        rw [heq, hit, Option.some.injEq] at hu'
        rw [← hu'] at hx
        have hcount := congrArg InvItem.count hx
        have hunique := congrArg InvItem.unique hx
        have hdata := congrArg InvItem.data hx
        have hruntime := congrArg InvItem.runtime hx
        simp only [newPiece] at hcount hunique hdata hruntime
        have hzero : it.count = 0 := by omega
        obtain ⟨_, _, _, _⟩ := it
        simp only [newPiece, InvItem.mk.injEq]
        exact ⟨hunique.symm, hdata.symm, hzero, hruntime.symm⟩
      · rw [if_neg heq, hu', Option.some.injEq] at hx
        have hcount := congrArg InvItem.count hx
        dsimp only at hcount
        omega
    · have hx := hall u'
      rw [hkit, if_pos rfl] at hx
      by_cases heq : u' = k.nextUID
      · rw [heq, hit] at hu'
        cases hu'
      · rw [if_neg heq, hu'] at hx
        cases hx
  · intro hfree
    cases hit : k.clientUIDs.lookup k.nextUID with
    | none => exact Or.inr ⟨k.nextUID, _, hit, hkit⟩
    | some it =>
      refine Or.inl ⟨k.nextUID, it, hit, congrArg InvItem.data (hfree it hit), fun x => ?_⟩
      rw [hkit, hfree it hit]
      simp [newPiece]

theorem receives_iff (hq : 0 < qty) (hlimit : item.itemID = itemMushroom → k.mushrooms < mushroomsPerRound)
    (hready : item.itemID ≠ itemMushroom → (placeItem item).isWeapon = true → k.weapons ≠ none) :
    k.Receives (k.purchase w order slots now item qty) item qty ↔ k.Grants order item qty := by
  by_cases hm : item.itemID = itemMushroom
  · rw [receives_mushroom hm (hlimit hm)]
    unfold Grants
    rw [if_pos hm]
  · by_cases hwpn : (placeItem item).isWeapon = true
    · exact receives_weapon hm hwpn hq (hready hm hwpn)
    · rw [Bool.not_eq_true] at hwpn
      unfold Grants
      rw [if_neg hm, if_neg (by rw [hwpn]; decide)]
      cases hs : k.stackOf order item with
      | none => exact receives_new hm hwpn hq hs
      | some x => exact @receives_merge _ _ _ _ _ _ _ _ x.2 hm hwpn hq hs

end Kit

namespace Core

variable (w : World) (c : Core) (s : SessionId) (m : MatchRef) (p : Packet)

def accepts : Option (ShopItem × Nat) :=
  if p.payload.length < 6 then none
  else
    let qty := if u16le p.payload 0 = 0 then 1 else u16le p.payload 0
    (c.ss s).matchRef.bind fun m =>
      (w.shopItemByID (c.ms m).settings (u16le p.payload 2)).bind fun item =>
        if item.itemID = itemMushroom ∧ mushroomsPerRound ≤ (c.ss s).kit.mushrooms then none
        else if w.cfg.unlimitedMoneyTest = false ∧ (c.ss s).kit.coins < item.price * qty % 2 ^ 32 then
          none
        else some (item, qty)

-- A request that is ignored or denied changes nothing of the player's kit; one that is accepted is
-- charged in full, granted in full and confirmed.
def AllOrNothing : Prop :=
  let k := (c.ss s).kit
  let d := c.handleCSPurchase w s p
  let k' := (d.ss s).kit
  match c.accepts w s p with
  | none => k' = k
  | some (item, qty) =>
    k'.coins + item.price * qty = k.coins ∧ k.Receives k' item qty ∧
      ∃ msgs, d.out = c.out ++ msgs ∧ (s, .purchaseResult purchaseOK k'.coins) ∈ msgs

variable {w : World} {c d : Core} {s : SessionId} {m : MatchRef} {p : Packet} {item : ShopItem}
  {qty : Nat}

@[simp] theorem onKit_ss (f : Kit → Kit) (s' : SessionId) :
    (c.onKit s f).ss s' = if s' = s then { c.ss s with kit := f (c.ss s).kit } else c.ss s' :=
  onSession_ss _ _

theorem onKit_kit (f : Kit → Kit) (s' : SessionId) :
    ((c.onKit s f).ss s').kit = if s' = s then f (c.ss s).kit else (c.ss s').kit := by
  rw [onKit_ss]
  split <;> rfl

@[simp] theorem onKit_ms (f : Kit → Kit) : (c.onKit s f).ms = c.ms := rfl

@[simp] theorem broadcastToOthers_ss (msg : Msg) : (c.broadcastToOthers s m msg).ss = c.ss := rfl

theorem out_foldl {β : Type} {f : Core → β → Core} (hf : ∀ d x, d.out <+: (f d x).out)
    (l : List β) (d : Core) : d.out <+: (l.foldl f d).out := by
  induction l generalizing d with
  | nil => exact List.prefix_rfl
  | cons x l ih => exact (hf d x).trans (ih (f d x))

theorem out_broadcastEquipDiff {before : GoMap Nat} :
    c.out <+: (c.broadcastEquipDiff s m before).out := by
  refine List.IsPrefix.trans (out_foldl (fun d e => ?_) _ c) (out_foldl (fun d e => ?_) _ _)
  · dsimp only
    split
    · exact List.prefix_rfl
    · exact List.prefix_append _ _
  · dsimp only
    split
    · exact List.prefix_rfl
    · exact List.prefix_append _ _

theorem out_dropToGround {it : InvItem} {pos : Vec3} : c.out <+: (c.dropToGround m it pos).out := by
  unfold dropToGround
  split
  · exact List.prefix_rfl
  · split
    · exact List.prefix_append _ _
    · exact List.prefix_append _ _

theorem kit_buy (s' : SessionId) : ((c.buy w s m item qty).ss s').kit =
    if s' = s then (c.ss s).kit.purchase w c.order (c.ss s).player.cosmetics.slots c.now item qty
    else (c.ss s').kit := by
  unfold buy Kit.purchase
  by_cases hm : item.itemID = itemMushroom
  · rw [if_pos hm, if_pos hm]
    simp only [sendMushroomCount, send_ss]
    exact onKit_kit _ s'
  · rw [if_neg hm, if_neg hm]
    generalize (c.ss s).kit.addPurchasedItem w c.order (c.ss s).player.cosmetics.slots item qty = r
    obtain ⟨k, b⟩ := r
    cases b with
    | none => exact onKit_kit _ s'
    | some b =>
      dsimp only
      rw [kit_of_keeps (keeps_dropOverriddenAfterEquip (s := s)) (by decide),
        kit_of_keeps keeps_broadcastEquipDiff (by decide)]
      simp only [broadcastData_ss, send_ss, onKit_kit, if_true]
      by_cases hs : s' = s
      · refine (if_pos hs).trans (Eq.trans ?_ (if_pos hs).symm)
        rfl
      · rw [if_neg hs, if_neg hs, if_neg hs]

theorem out_buy_none
    (hb : item.itemID ≠ itemMushroom ∧ ((c.ss s).kit.addPurchasedItem w c.order
      (c.ss s).player.cosmetics.slots item qty).2 = none) : (c.buy w s m item qty).out = c.out := by
  obtain ⟨hm, hb⟩ := hb
  unfold buy
  rw [if_neg hm]
  generalize (c.ss s).kit.addPurchasedItem w c.order (c.ss s).player.cosmetics.slots item qty = r at hb
  obtain ⟨k, b⟩ := r
  obtain rfl : b = none := hb
  rfl

theorem out_buy_some
    (hb : item.itemID = itemMushroom ∨ ((c.ss s).kit.addPurchasedItem w c.order
      (c.ss s).player.cosmetics.slots item qty).2 ≠ none) :
    c.out ++ [(s, .purchaseResult purchaseOK (c.ss s).kit.coins)] <+: (c.buy w s m item qty).out := by
  unfold buy
  by_cases hm : item.itemID = itemMushroom
  · rw [if_pos hm]
    exact List.prefix_append _ _
  · replace hb := hb.resolve_left hm
    rw [if_neg hm]
    generalize (c.ss s).kit.addPurchasedItem w c.order (c.ss s).player.cosmetics.slots item qty = r at hb
    obtain ⟨k, b⟩ := r
    cases b with
    | none => exact absurd rfl hb
    | some b =>
      dsimp only
      refine List.IsPrefix.trans ?_ (out_foldl (fun d x => out_dropToGround) _ _)
      refine List.IsPrefix.trans ?_ out_broadcastEquipDiff
      exact List.prefix_append _ _

variable (w c s) in
def charge (item : ShopItem) (qty : Nat) : Core :=
  if w.cfg.unlimitedMoneyTest then c
  else c.onKit s fun k => { k with coins := k.coins - item.price * qty % 2 ^ 32 }

theorem handleCSPurchase_cases :
    (c.accepts w s p = none ∧ (c.handleCSPurchase w s p).ss = c.ss) ∨
    ∃ m item qty, c.accepts w s p = some (item, qty) ∧ (c.ss s).matchRef = some m ∧
      w.shopItemByID (c.ms m).settings (u16le p.payload 2) = some item ∧ 0 < qty ∧
      (item.itemID = itemMushroom → (c.ss s).kit.mushrooms < mushroomsPerRound) ∧
      (w.cfg.unlimitedMoneyTest = false → item.price * qty % 2 ^ 32 ≤ (c.ss s).kit.coins) ∧
      c.handleCSPurchase w s p = (c.charge w s item qty).buy w s m item qty := by
  unfold handleCSPurchase accepts withMatch
  by_cases hlen : p.payload.length < 6
  · rw [if_pos hlen, if_pos hlen]
    exact Or.inl ⟨rfl, rfl⟩
  rw [if_neg hlen, if_neg hlen]
  have hq : 0 < (if u16le p.payload 0 = 0 then 1 else u16le p.payload 0) := by
    split
    · exact Nat.one_pos
    · exact Nat.pos_of_ne_zero ‹_›
  dsimp only
  generalize (if u16le p.payload 0 = 0 then 1 else u16le p.payload 0) = qty at hq
  cases hm : (c.ss s).matchRef with
  | none => exact Or.inl ⟨rfl, rfl⟩
  | some m =>
    dsimp only [Option.bind_some]
    cases hitem : w.shopItemByID (c.ms m).settings (u16le p.payload 2) with
    | none => exact Or.inl ⟨rfl, rfl⟩
    | some item =>
      dsimp only [Option.bind_some]
      by_cases hlimit : item.itemID = itemMushroom ∧ mushroomsPerRound ≤ (c.ss s).kit.mushrooms
      · rw [if_pos hlimit, if_pos hlimit]
        exact Or.inl ⟨rfl, rfl⟩
      rw [if_neg hlimit, if_neg hlimit]
      have hbelow : item.itemID = itemMushroom → (c.ss s).kit.mushrooms < mushroomsPerRound :=
        fun h => Nat.lt_of_not_le fun hle => hlimit ⟨h, hle⟩
      by_cases hfree : w.cfg.unlimitedMoneyTest = true
      · rw [if_pos hfree, if_neg (by simp [hfree])]
        exact Or.inr ⟨m, item, qty, rfl, rfl, hitem, hq, hbelow, by simp [hfree],
          by rw [charge, if_pos hfree]⟩
      · rw [if_neg hfree]
        have hpays : w.cfg.unlimitedMoneyTest = false := by simpa using hfree
        by_cases hpoor : (c.ss s).kit.coins < item.price * qty % 2 ^ 32
        · rw [if_pos hpoor, if_pos ⟨hpays, hpoor⟩]
          exact Or.inl ⟨rfl, rfl⟩
        · rw [if_neg hpoor, if_neg fun h => hpoor h.2]
          exact Or.inr ⟨m, item, qty, rfl, rfl, hitem, hq, hbelow, fun _ => Nat.le_of_not_lt hpoor,
            by rw [charge, if_neg hfree]⟩

theorem answered_iff : (item.itemID = itemMushroom ∨ ((c.ss s).kit.addPurchasedItem w c.order
      (c.ss s).player.cosmetics.slots item qty).2 ≠ none) ↔
    (item.itemID ≠ itemMushroom → (placeItem item).isWeapon = true → (c.ss s).kit.weapons ≠ none) := by
  by_cases hm : item.itemID = itemMushroom
  · simp [hm]
  · by_cases hwpn : (placeItem item).isWeapon = true
    · rw [Kit.addPurchasedItem_weapon hwpn]
      cases hws : (c.ss s).kit.weapons with
      | none => simp [hm, hwpn, (Kit.addWeapon_none hws).1]
      | some ws =>
        rw [Kit.addWeapon_some hws]
        simp
    · rw [Bool.not_eq_true] at hwpn
      cases hs : (c.ss s).kit.stackOf c.order item with
      | none =>
        rw [Kit.addPurchasedItem_new hwpn hs]
        simp [hwpn]
      | some x =>
        rw [@Kit.addPurchasedItem_merge _ _ _ _ x.1 x.2 _ _ hwpn hs]
        simp [hwpn]

-- Every accepted purchase is charged, granted and confirmed in full exactly when its price does
-- not wrap and its grant goes right.
theorem purchase_all_or_nothing (h : w.cfg.unlimitedMoneyTest = false) :
    c.AllOrNothing w s p ↔ ∀ item qty, c.accepts w s p = some (item, qty) →
      item.price * qty < 2 ^ 32 ∧ (c.ss s).kit.Grants c.order item qty := by
  unfold AllOrNothing
  rcases handleCSPurchase_cases (w := w) (c := c) (s := s) (p := p) with
    ⟨hacc, hss⟩ | ⟨m, item, qty, hacc, -, -, hq, hlimit, hpaid, hbuy⟩
  · rw [hacc]
    dsimp only
    rw [hss]
    simp
  rw [hacc]
  simp only [Option.some.injEq, Prod.mk.injEq]
  have hcharge : c.charge w s item qty =
      c.onKit s fun k => { k with coins := k.coins - item.price * qty % 2 ^ 32 } := by
    unfold charge
    rw [h]
    rfl
  have hkit : ((c.charge w s item qty).ss s).kit =
      { (c.ss s).kit with coins := (c.ss s).kit.coins - item.price * qty % 2 ^ 32 } := by
    rw [hcharge, onKit_kit, if_pos rfl]
  have hafter := @kit_buy w (c.charge w s item qty) s m item qty s
  rw [if_pos rfl] at hafter
  have hcoins : (((c.handleCSPurchase w s p).ss s).kit).coins =
      (c.ss s).kit.coins - item.price * qty % 2 ^ 32 := by
    rw [hbuy, hafter, Kit.coins_purchase, hkit]
  have hpaid := hpaid h
  have hdue : (c.ss s).kit.coins - item.price * qty % 2 ^ 32 + item.price * qty = (c.ss s).kit.coins ↔
      item.price * qty < 2 ^ 32 := by
    constructor
    · intro heq
      have hmod : item.price * qty % 2 ^ 32 = item.price * qty := by omega
      rw [← hmod]
      exact Nat.mod_lt _ (by decide)
    · intro hlt
      rw [Nat.mod_eq_of_lt hlt] at hpaid ⊢
      omega
  have hout : (c.charge w s item qty).out = c.out := by
    rw [hcharge]
    rfl
  have hready := @answered_iff w (c.charge w s item qty) s item qty
  have hweapons : ((c.charge w s item qty).ss s).kit.weapons = (c.ss s).kit.weapons := by rw [hkit]
  rw [hweapons] at hready
  have hreceives : (item.itemID ≠ itemMushroom → (placeItem item).isWeapon = true →
        (c.ss s).kit.weapons ≠ none) →
      ((c.ss s).kit.Receives ((c.handleCSPurchase w s p).ss s).kit item qty ↔
        (c.ss s).kit.Grants c.order item qty) := by
    intro hw
    have hiff := @Kit.receives_iff w (c.charge w s item qty).order
      ((c.charge w s item qty).ss s).player.cosmetics.slots (c.charge w s item qty).now
      ((c.charge w s item qty).ss s).kit _ _ hq
      (by rw [hkit]; exact hlimit) (by rw [hweapons]; exact hw)
    rw [← hafter, ← hbuy, hkit, hcharge] at hiff
    exact hiff
  have hdued := hdue
  rw [← hcoins] at hdued
  constructor
  · rintro ⟨hc, hr, msgs, hmsgs, hmem⟩ _ _ ⟨rfl, rfl⟩
    have hw : item.itemID ≠ itemMushroom → (placeItem item).isWeapon = true →
        (c.ss s).kit.weapons ≠ none := by
      refine hready.mp ?_
      by_contra hsilent
      rw [not_or, not_not] at hsilent
      rw [hbuy, out_buy_none hsilent, hout, List.self_eq_append_right] at hmsgs
      rw [hmsgs] at hmem
      exact absurd hmem List.not_mem_nil
    exact ⟨hdued.mp hc, (hreceives hw).mp hr⟩
  · intro hall
    obtain ⟨hlt, hg⟩ := hall item qty ⟨rfl, rfl⟩
    have hw : item.itemID ≠ itemMushroom → (placeItem item).isWeapon = true →
        (c.ss s).kit.weapons ≠ none := by
      intro hm hwpn
      unfold Kit.Grants at hg
      rw [if_neg hm, if_pos hwpn] at hg
      exact hg.2.1
    refine ⟨hdued.mpr hlt, (hreceives hw).mpr hg, ?_⟩
    obtain ⟨msgs, hmsgs⟩ := out_buy_some (m := m) (hready.mpr hw)
    rw [hout, ← hbuy] at hmsgs
    refine ⟨_ :: msgs, by rw [← hmsgs, List.append_assoc]; rfl, ?_⟩
    rw [hcoins, hkit]
    exact List.mem_cons_self

end Core

-- A G18, a lvl2 vest, a gloo wall and a mushroom.
def shelf : List ShopItem :=
  [⟨10, 100, 1, 0, true, "", 0⟩, ⟨302, 200, 2, 0, false, "", 0⟩, ⟨1201, 100, 4, 2, false, "", 0⟩,
    ⟨itemMushroom, 100, 4, 2, false, "", 0⟩]

def shopWorld : World :=
  { signedWorld with shopItemByID := fun _ id => shelf.find? fun item => item.itemID == id }

-- cmd 408.
def buyRequest (id qty : Nat) : Packet :=
  ⟨1, 408, 1, (le32 qty).take 2 ++ (le32 id).take 2 ++ [0, 0]⟩

-- The host of a custom room up to its first buy phase.
def toShop : List Event :=
  opens 1 0 0 (joinWith hostToken) ++ [event 1000000000 (.tick 0), event 3000000000 (.tick 0),
    event 7000000000 (.tick 0)]

namespace Server

theorem one_gun_granted : ∃ v, Run (Step shopWorld) start toShop v ∧
    v.core.AllOrNothing shopWorld 0 (buyRequest 10 1) := by
  have hrun : ((toShop.foldlM (step shopWorld) start).map fun v =>
      (v.core.accepts shopWorld 0 (buyRequest 10 1),
        (v.core.ss 0).kit.clientUIDs.lookup (v.core.ss 0).kit.nextUID,
        ((v.core.ss 0).kit.weapon slotSecondary).map fun old =>
          decide (old.unique = (v.core.ss 0).kit.nextUID))) =
      some (some (⟨10, 100, 1, 0, true, "", 0⟩, 1), none, some false) := by
    decide +kernel
  obtain ⟨v, hv, hd⟩ := Option.map_eq_some_iff.mp hrun
  simp only [Prod.mk.injEq] at hd
  obtain ⟨hacc, hfree, hold⟩ := hd
  refine ⟨v, run_of_foldlM hv, (Core.purchase_all_or_nothing (by decide)).mpr fun item qty h => ?_⟩
  rw [hacc, Option.some.injEq, Prod.mk.injEq] at h
  obtain ⟨rfl, rfl⟩ := h
  obtain ⟨old, hw, hne⟩ := Option.map_eq_some_iff.mp hold
  refine ⟨by decide, rfl, fun hnil => ?_, hfree, fun old' hw' => ?_⟩
  · rw [Kit.weapon, hnil] at hw
    cases hw
  · rw [show old' = old from Option.some.inj (hw'.symm.trans hw)]
    exact of_decide_eq_false hne

-- Two pistols are paid for and one is granted.
theorem two_guns_for_one : ¬ ∀ w es v s p, Run (Step w) start es v → (v.core.ss s).joined = true →
    w.cfg.unlimitedMoneyTest = false → v.core.AllOrNothing w s p := by
  intro hall
  have hrun : ((toShop.foldlM (step shopWorld) start).map fun v =>
      ((v.core.ss 0).joined, v.core.accepts shopWorld 0 (buyRequest 10 2),
        (v.core.ss 0).kit.newGuns
          ((v.core.handleCSPurchase shopWorld 0 (buyRequest 10 2)).ss 0).kit 10)) =
      some (true, some (⟨10, 100, 1, 0, true, "", 0⟩, 2), 1) := by
    decide +kernel
  obtain ⟨v, hv, hd⟩ := Option.map_eq_some_iff.mp hrun
  simp only [Prod.mk.injEq] at hd
  obtain ⟨hjoined, hacc, hguns⟩ := hd
  have hbad := hall shopWorld toShop v 0 (buyRequest 10 2) (run_of_foldlM hv) hjoined (by decide)
  unfold Core.AllOrNothing at hbad
  rw [hacc] at hbad
  have htwo : Kit.newGuns _ _ 10 = 2 := hbad.2.1
  rw [hguns] at htwo
  exact absurd htwo (by decide)

end Server

end MatchServer

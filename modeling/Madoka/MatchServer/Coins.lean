import Madoka.MatchServer.KitHistory

namespace MatchServer

open Lib

def botFaction : Nat := 1

-- The own wins in the low byte, the opponents' in the high one.
def packScore (ownWins oppoWins : Nat) : Nat := ownWins + 2 ^ 8 * oppoWins

def capByte (v : Nat) : Nat := min v 255

-- The per-player state of a cmd 900 block, under the fields' wire types.
structure PRIState where
  curHP : Nat
  maxHP : Nat
  coins : Nat
  earnedCoin : Nat
  score : Nat
  vestDur : Nat
  helmetDur : Nat
  itemOnHand : Nat
  faction : Nat
  kills : Nat
  deaths : Nat
  fireState : Nat
  sighting : Nat
  curEP : Nat
  damage : Nat
  speedScale : Nat
  jumpScale : Nat
  obCount : Nat
  deriving DecidableEq, Repr

namespace Kit

variable (x : Setting) (k : Kit)

-- What a kit holds besides goods.
def purse : Nat × Nat × Nat := (k.coins, k.award, k.mushrooms)

variable {x k} {slot data unique : Nat} {order : List Nat}

theorem purse_setEquip : (k.setEquip slot data unique).purse = k.purse := by
  rw [setEquip_eq]
  rfl

theorem purse_removeTracked : (k.removeTracked order unique).purse = k.purse := by
  have hhand : ∀ j : Kit, (if j.itemOnHand = unique then { j with itemOnHand := 0 } else j).purse =
      j.purse := by
    intro j
    split <;> rfl
  unfold removeTracked
  dsimp only
  rw [hhand]
  split
  · rfl
  · split <;> rfl

theorem purse_removeWeapon {wp : CsWeapon} : (k.removeWeapon slot wp).purse = k.purse := by
  unfold removeWeapon
  dsimp only
  split <;> rfl

theorem purse_putWeapon {wp : CsWeapon} {j : Kit} (h : k.putWeapon slot wp = some j) :
    j.purse = k.purse := by
  obtain ⟨ws, -, rfl⟩ := Option.map_eq_some_iff.mp h
  rfl

theorem purse_putWeapon_getD {wp : CsWeapon} : ((k.putWeapon slot wp).getD k).purse = k.purse := by
  cases h : k.putWeapon slot wp with
  | none => rfl
  | some j => exact purse_putWeapon h

theorem purse_swapWeaponSlots {a b : Nat} : (k.swapWeaponSlots a b).purse = k.purse := by
  unfold swapWeaponSlots
  dsimp only
  split
  · rw [purse_putWeapon_getD]
    split
    · exact purse_putWeapon_getD
    · rfl
  · split
    · exact purse_putWeapon_getD
    · rfl

theorem purse_moveWeaponSlot {src dst : Nat} : (k.moveWeaponSlot src dst).purse = k.purse := by
  unfold moveWeaponSlot
  split
  · rfl
  · split
    · exact purse_putWeapon_getD
    · rfl

theorem purse_moveItem {dst targetData oldSlot : Nat} {occupant : Option Equipment} :
    (Core.moveItem k dst unique targetData oldSlot occupant).purse = k.purse := by
  unfold Core.moveItem
  split
  · split
    · rw [purse_swapWeaponSlots, purse_setEquip, purse_setEquip]
    · rw [purse_moveWeaponSlot, purse_setEquip]
      rfl
  · dsimp only
    rw [purse_moveWeaponSlot, purse_setEquip]
    split <;> rfl

theorem purse_equip {dst : Nat} : (k.equip dst unique).purse = k.purse := by
  unfold equip
  split
  · rfl
  · split
    · rfl
    · exact purse_moveItem

theorem purse_cleared {it : InvItem} {isPrimary : Bool} :
    (k.cleared it isPrimary).purse = k.purse := by
  unfold cleared
  dsimp only
  split
  · exact purse_removeWeapon
  · rfl

theorem purse_install {it : InvItem} {isPrimary : Bool} : (k.install x it isPrimary).purse = k.purse := by
  unfold install
  dsimp only
  split
  · rename_i j hput
    refine Eq.trans ?_ ((purse_putWeapon hput).trans purse_cleared)
    rw [setEquip_eq]
    rfl
  · rfl

theorem purse_take {it : InvItem} : (k.take order it).purse = k.purse := by
  have hrepoint : ∀ (u : Nat) (it : InvItem) (j : Kit), (k.repoint u it j).purse = j.purse := by
    intro u it j
    unfold repoint
    cases k.equipSlotOf u with
    | none =>
      dsimp only
      split <;> rfl
    | some e =>
      dsimp only
      rw [setEquip_eq]
      split <;> rfl
  unfold take
  split
  · rfl
  · rename_i u existing _
    exact (hrepoint u { it with count := (it.count + existing.count) % 2 ^ 32 }
      (k.removeTracked order u)).trans purse_removeTracked

theorem purse_syncArmor : (k.syncArmor slot).purse = k.purse := by
  unfold syncArmor
  split
  · rfl
  · dsimp only
    split
    · rfl
    · exact purse_setEquip

theorem purse_wear {bodyPart netDmg : Nat} : (k.wear bodyPart netDmg).purse = k.purse := by
  unfold wear
  split
  · split
    · exact purse_syncArmor
    · rfl
  · split
    · split
      · exact purse_syncArmor
      · rfl
    · rfl

theorem purse_placeGloo : (k.placeGloo order).purse = k.purse := by
  unfold placeGloo consumeGloo
  split
  · rfl
  · split <;> rfl

theorem purse_useUp : (k.useUp unique).purse = k.purse := by
  unfold useUp
  split <;> rfl

theorem purse_reissued {w : World} {slots : List Nat} :
    (k.reissued w order slots).1.purse = k.purse := by
  rw [reissued_eq]
  split <;> rfl

theorem purse_baseLoadout {w : World} {slots : List Nat} {noLoadout infiniteGloo : Bool} :
    (k.baseLoadout w slots noLoadout infiniteGloo).1.purse = k.purse := by
  rw [baseLoadout_eq]
  cases infiniteGloo <;> cases noLoadout <;> rfl

theorem purse_equipArmor : (k.equipArmor data slot).purse = k.purse := by
  unfold equipArmor
  split
  · rfl
  · split <;> rfl

theorem purse_addWeapon {w : World} {slots : List Nat} {item : ShopItem} {qty ammo : Nat} :
    (k.addWeapon w slots item qty slot ammo).1.purse = k.purse := by
  cases hws : k.weapons with
  | some ws =>
    rw [addWeapon_some hws]
    rfl
  | none =>
    unfold addWeapon
    by_cases ha : ammo = 0
    · simp [ha, hws, weapon, attachItems, putWeapon, trackItem, withUID, purse]
    · simp [ha, hws, weapon, giveAmmoStacks, attachItems, putWeapon, trackItem, withUID, purse]

theorem purse_addPurchasedItem {w : World} {slots : List Nat} {item : ShopItem} {qty : Nat} :
    (k.addPurchasedItem w order slots item qty).1.purse = k.purse := by
  by_cases hwpn : (placeItem item).isWeapon = true
  · rw [addPurchasedItem_weapon hwpn]
    exact purse_addWeapon
  · rw [Bool.not_eq_true] at hwpn
    cases hs : k.stackOf order item with
    | none =>
      rw [addPurchasedItem_new hwpn hs]
      rfl
    | some y =>
      rw [@addPurchasedItem_merge _ _ _ _ y.1 y.2 _ _ hwpn hs]
      rfl

theorem purse_purchase {w : World} {slots : List Nat} {now : Int} {item : ShopItem} {qty : Nat} :
    (k.purchase w order slots now item qty).purse = if item.itemID = itemMushroom then
      (k.coins, k.award, k.mushrooms + 1) else k.purse := by
  unfold purchase
  split
  · rfl
  · rw [← @purse_addPurchasedItem k order w slots item qty]
    split
    · rename_i heq
      rw [heq]
    · rename_i heq
      rw [heq]
      split
      · exact purse_equipArmor
      · rfl

theorem purse_apply (op : Op) : (k.apply x op).purse =
    match op with
    | .fund coins => (coins, k.award, k.mushrooms)
    | .pay aw => ((k.coins + aw) % 2 ^ 32, aw % 2 ^ 32, k.mushrooms)
    | .round => (k.coins, k.award, 0)
    | .issue coins _ _ => (coins.getD k.coins, k.award, k.mushrooms)
    | .buy item qty => ((k.charged x item qty).coins, k.award,
        if item.itemID = itemMushroom then k.mushrooms + 1 else k.mushrooms)
    | _ => k.purse := by
  cases op with
  | fund coins => rfl
  | pay aw => rfl
  | round => rfl
  | issue coins noLoadout infiniteGloo => exact purse_baseLoadout
  | reissue => exact purse_reissued
  | buy item qty =>
    refine purse_purchase.trans ?_
    unfold charged
    by_cases hm : item.itemID = itemMushroom
    · simp only [if_pos hm]
      split <;> rfl
    · simp only [if_neg hm]
      split <;> rfl
  | install it isPrimary => exact purse_install
  | take it => exact purse_take
  | drop unique => exact purse_removeTracked
  | equip dst unique => exact purse_equip
  | wear bodyPart netDmg => exact purse_wear
  | gloo => exact purse_placeGloo
  | hold unique => rfl
  | use unique => exact purse_useUp

def settled (b : Int) : Op → Int
  | .fund coins => coins
  | .issue (some coins) _ _ => coins
  | .pay aw => b + aw
  | .buy item qty => b - (item.price * qty : Nat)
  | _ => b

def balance (t : List (Kit × Setting × Op)) : Int := (t.map fun y => y.2.2).foldl settled 0

-- The wallet stays below 2^16, and no price wraps.
def Affords (k : Kit) : Op → Prop
  | .fund coins => coins < 2 ^ 16
  | .issue (some coins) _ _ => coins < 2 ^ 16
  | .pay aw => k.coins + aw < 2 ^ 16
  | .buy item qty => item.price * qty < 2 ^ 32
  | _ => True

instance (k : Kit) (op : Op) : Decidable (k.Affords op) := by
  unfold Affords
  split <;> infer_instance

theorem balance_snoc {t : List (Kit × Setting × Op)} {y : Kit × Setting × Op} :
    balance (t ++ [y]) = settled (balance t) y.2.2 := by
  simp [balance]

theorem coins_settled {b : Int} {op : Op} (hb : (k.coins : Int) = b) (hlt : k.coins < 2 ^ 16)
    (haw : k.award < 2 ^ 16) (hfree : x.w.cfg.unlimitedMoneyTest = false) (hs : k.Sound x op)
    (ha : k.Affords op) : ((k.apply x op).coins : Int) = settled b op ∧
      (k.apply x op).coins < 2 ^ 16 ∧ (k.apply x op).award < 2 ^ 16 := by
  have hp := purse_apply (x := x) (k := k) op
  cases op with
  | pay aw =>
    obtain ⟨hc, hw, -⟩ := Prod.mk.inj hp |>.imp id Prod.mk.inj
    have hsum : k.coins + aw < 2 ^ 16 := ha
    rw [hc, hw, Nat.mod_eq_of_lt (by omega), Nat.mod_eq_of_lt (by omega)]
    refine ⟨?_, hsum, by omega⟩
    rw [settled, ← hb]
    omega
  | buy item qty =>
    obtain ⟨hc, hw, -⟩ := Prod.mk.inj hp |>.imp id Prod.mk.inj
    have hprice : item.price * qty < 2 ^ 32 := ha
    have hpaid := hs.2.2.1 hfree
    have hcharged : (k.charged x item qty).coins = k.coins - item.price * qty := by
      unfold charged
      rw [hfree, if_neg (by decide), Nat.mod_eq_of_lt hprice]
    rw [Nat.mod_eq_of_lt hprice] at hpaid
    rw [hc, hw, hcharged]
    refine ⟨?_, by omega, haw⟩
    rw [settled, ← hb]
    omega
  | fund coins =>
    obtain ⟨hc, hw, -⟩ := Prod.mk.inj hp |>.imp id Prod.mk.inj
    rw [hc, hw]
    exact ⟨rfl, ha, haw⟩
  | issue coins noLoadout infiniteGloo =>
    obtain ⟨hc, hw, -⟩ := Prod.mk.inj hp |>.imp id Prod.mk.inj
    rw [hc, hw]
    cases coins with
    | none => exact ⟨hb, hlt, haw⟩
    | some coins => exact ⟨rfl, ha, haw⟩
  | round =>
    obtain ⟨hc, hw, -⟩ := Prod.mk.inj hp |>.imp id Prod.mk.inj
    rw [hc, hw]
    exact ⟨hb, hlt, haw⟩
  | _ =>
    obtain ⟨hc, hw, -⟩ := Prod.mk.inj hp |>.imp id Prod.mk.inj
    rw [hc, hw]
    exact ⟨hb, hlt, haw⟩

end Kit

namespace Core

variable (w : World) (c : Core) (m : MatchRef)

def entityHP (entity : Nat) : Nat :=
  ((c.ms m).hp.lookup entity).getD (c.ms m).settings.maxHP

def obCount (entity : Nat) : Nat :=
  min ((c.ms m).players.countP fun p => (c.ss p).observing == entity) 255

def playerBlock (p : SessionId) : PRIState :=
  let g := c.ms m
  let q := c.ss p
  { curHP := c.entityHP m q.entityID
    maxHP := g.settings.maxHP
    coins := if w.cfg.unlimitedMoneyTest then 9999 else q.kit.coins % 2 ^ 16
    earnedCoin := q.kit.award % 2 ^ 16
    score := packScore (ofTeam q.team g.teamScore) (ofTeam (3 - q.team) g.teamScore)
    vestDur := q.kit.vestDur
    helmetDur := q.kit.helmetDur
    itemOnHand := q.kit.itemOnHand * 2 ^ 32 + q.kit.heldWeaponData
    faction := q.faction
    kills := capByte ((g.kills.lookup q.entityID).getD 0)
    deaths := capByte ((g.deaths.lookup q.entityID).getD 0)
    fireState := if q.firing then 2 else 0
    sighting := if q.sighting then 534 else 0
    curEP := q.kit.ep
    damage := (g.damage.lookup q.entityID).getD 0
    speedScale := g.settings.speedScale
    jumpScale := g.settings.jumpScale
    obCount := c.obCount m q.entityID }

def botBlock : PRIState :=
  let g := c.ms m
  { curHP := c.entityHP m g.botEntity
    maxHP := g.settings.maxHP
    coins := 0
    earnedCoin := 0
    score := packScore g.teamScore.2 g.teamScore.1
    vestDur := 0
    helmetDur := 0
    itemOnHand := 0
    faction := botFaction
    kills := capByte ((g.kills.lookup g.botEntity).getD 0)
    deaths := capByte ((g.deaths.lookup g.botEntity).getD 0)
    fireState := 0
    sighting := 0
    curEP := 0
    damage := (g.damage.lookup g.botEntity).getD 0
    speedScale := g.settings.speedScale
    jumpScale := g.settings.jumpScale
    obCount := 0 }

def priPayload : List (Nat × PRIState) :=
  ((c.ms m).players.map fun p => ((c.ss p).repID, c.playerBlock w m p)) ++
    if (c.ms m).botEntity ≠ 0 ∧ 0 < c.entityHP m (c.ms m).botEntity then
      [(botRepID, c.botBlock m)]
    else []

-- Every block shows the wallet of its player, or the most that the field holds.
def ShowsWallets : Prop :=
  ∀ p ∈ (c.ms m).players, ((c.ss p).repID, c.playerBlock w m p) ∈ c.priPayload w m ∧
    (c.playerBlock w m p).coins = min (c.ss p).kit.coins (2 ^ 16 - 1) ∧
    (c.playerBlock w m p).earnedCoin = min (c.ss p).kit.award (2 ^ 16 - 1)

end Core

namespace Server

variable {w : World} {v : Server} {es : List Event}

-- The wallets are exact on the run that leads here, and every block that may be sent shows them.
def Exact (w : World) (es : List Event) (v : Server) : Prop :=
  (∀ s, ((v.core.ss s).kit.coins : Int) = Kit.balance (start.trail w s es)) ∧
    ∀ m, v.core.ShowsWallets w m

theorem coins_exact (hfree : w.cfg.unlimitedMoneyTest = false) (h : Run (Step w) start es v)
    (hok : ∀ s, ∀ y ∈ start.trail w s es, y.1.Affords y.2.2) : Exact w es v := by
  have hkit : ∀ s, ((v.core.ss s).kit.coins : Int) = Kit.balance (start.trail w s es) ∧
      (v.core.ss s).kit.coins < 2 ^ 16 ∧ (v.core.ss s).kit.award < 2 ^ 16 := by
    intro s
    refine (follows_run h (s := s)).inv
      (I := fun t k => (k.coins : Int) = Kit.balance t ∧ k.coins < 2 ^ 16 ∧ k.award < 2 ^ 16)
      (P := fun _ y => y.1.Affords y.2.2 ∧ y.1.Sound y.2.1 y.2.2 ∧ y.2.1.w = w)
      (fun t k k' hr hI => ?_) ⟨rfl, by decide, by decide⟩ (fun t k a hI ha => ?_)
      (each_of_forall fun y hy => ⟨hok s y hy, trail_sound hy⟩)
    · have hc : k'.coins = k.coins := (congrArg Kit.coins hr :)
      have hw : k'.award = k.award := (congrArg Kit.award hr :)
      rw [hc, hw]
      exact hI
    · rw [Kit.balance_snoc]
      exact Kit.coins_settled hI.1 hI.2.1 hI.2.2 (by rw [ha.2.2]; exact hfree) ha.2.1 ha.1
  refine ⟨fun s => (hkit s).1, fun m p hp => ⟨?_, ?_, ?_⟩⟩
  · exact List.mem_append_left _ (List.mem_map.mpr ⟨p, hp, rfl⟩)
  · have hlt := (hkit p).2.1
    simp only [Core.playerBlock, hfree, Bool.false_eq_true, if_false]
    omega
  · have hlt := (hkit p).2.2
    simp only [Core.playerBlock]
    omega

-- The host buys a pistol.
def firstBuy : List Event := toShop ++ sends 8000000000 0 0 (buyRequest 10 1)

theorem coins_exact_after_buy : ∃ v, Run (Step shopWorld) start firstBuy v ∧ Exact shopWorld firstBuy v := by
  have hrun : ((firstBuy.foldlM (step shopWorld) start).map fun v => (v.core.ss 0).kit.coins) =
      some 400 := by
    decide +kernel
  obtain ⟨v, hv, -⟩ := Option.map_eq_some_iff.mp hrun
  have hok : ∀ s ∈ start.dealtTo shopWorld firstBuy, ∀ y ∈ start.trail shopWorld s firstBuy,
      y.1.Affords y.2.2 := by
    decide +kernel
  exact ⟨v, run_of_foldlM hv, coins_exact (by decide) (run_of_foldlM hv) (forall_trail hok)⟩

-- The host of the room hands out 70000 coins at the start.
def richWorld : World :=
  { signedWorld with
    settings := fun mid =>
      if mid = 7 then some (some ⟨0, 0, [70000], [], 0, 0, 0, 0, [], none⟩) else none }

-- 70000 coins are shown as 4464.
theorem coins_cut : ¬ ∀ w es v, w.cfg.unlimitedMoneyTest = false → Run (Step w) start es v →
    Exact w es v := by
  intro hall
  have hrun : ((toShop.foldlM (step richWorld) start).map fun v =>
      ((v.core.ms 0).players, (v.core.ss 0).kit.coins, (v.core.playerBlock richWorld 0 0).coins)) =
      some ([0], 70000, 4464) := by
    decide +kernel
  obtain ⟨v, hv, hd⟩ := Option.map_eq_some_iff.mp hrun
  simp only [Prod.mk.injEq] at hd
  obtain ⟨hplayers, hcoins, hblock⟩ := hd
  have hshown := ((hall richWorld toShop v (by decide) (run_of_foldlM hv)).2 0 0
    (by rw [hplayers]; exact List.mem_singleton_self 0)).2.1
  rw [hcoins, hblock] at hshown
  exact absurd hshown (by decide)

end Server

end MatchServer

import Madoka.Lib.Weight
import Madoka.MatchServer.Coins
import Madoka.MatchServer.Runs

namespace MatchServer

open Lib

-- Between the reset behind the black screen and the opening of the next round.
def CsPhase.between : CsPhase → Bool
  | .postReviveBind | .postBlack => true
  | _ => false

namespace Core

variable {w : World} {c d : Core} {s : SessionId} {m : MatchRef}

theorem phase_of_keeps {F : List Part} (h : Keeps F c d) (hF : Part.phase ∉ F) (m : MatchRef) :
    (d.ms m).phase = (c.ms m).phase := by
  have hs : Part.phase.sameMatch (c.ms m) (d.ms m) := (h _ hF).1 m
  simp only [Part.sameMatch, Prod.mk.injEq] at hs
  exact hs.1.symm

theorem phase_enter {ph : CsPhase} {dur : Int} : ((c.enter m ph dur).ms m).phase = ph := by
  simp [enter, onMatch]

theorem phase_sendPull : ((c.sendPull m).ms m).phase = (c.ms m).phase :=
  congrArg Field.phase (turns_refl.sendPull (c := c) (m := m)).eq

theorem phase_startBuyPhase : ((c.startBuyPhase w m).ms m).phase = .prepare := phase_enter

theorem phase_enterPrepare : ((c.enterPrepare w m).ms m).phase = .prepare := by
  unfold enterPrepare
  dsimp only
  split
  · exact phase_enter
  · split
    · split
      · exact phase_startBuyPhase
      · exact phase_enter
    · exact phase_startBuyPhase

theorem phase_tearDown : ((c.tearDown m).ms m).phase = (c.ms m).phase :=
  phase_of_keeps keeps_tearDown (by decide) m

theorem phase_endFight : ((c.endFight w m).ms m).phase.between = false := by
  obtain ⟨ph, hph, ht⟩ := turns_endFight (w := w) (c := c) (m := m)
  have hphase : ((c.endFight w m).ms m).phase = ph := congrArg Field.phase ht.eq
  rw [hphase]
  rcases hph with rfl | rfl <;> rfl

theorem between_phaseEdge : ((c.phaseEdge w m).ms m).phase.between =
    ((c.ms m).phase == .postBanner || (c.ms m).phase == .postReviveBind) := by
  unfold phaseEdge
  cases hphase : (c.ms m).phase with
  | setupBind => exact congrArg CsPhase.between phase_enter
  | setupGap => exact congrArg CsPhase.between phase_enter
  | setupWait => exact congrArg CsPhase.between phase_enterPrepare
  | prepare =>
    dsimp only
    split
    · refine congrArg CsPhase.between (?_ : _ = CsPhase.fight)
      unfold startFight
      rw [phase_of_keeps (Frame.note (keeps_startZone.mono (by decide)) (F := [.zone, .deeds])
        (by decide)) (by decide)]
      exact phase_enter
    · split
      · exact congrArg CsPhase.between phase_startBuyPhase
      · exact congrArg CsPhase.between phase_enter
  | fight =>
    dsimp only
    rw [hphase]
    rfl
  | matchEndPause => exact congrArg CsPhase.between phase_enter
  | postBanner =>
    dsimp only
    unfold postBannerEdge
    dsimp only
    split
    · exact congrArg CsPhase.between phase_enter
    · rw [phase_sendPull]
      exact congrArg CsPhase.between phase_enter
  | postReviveBind =>
    dsimp only
    unfold postReviveEdge
    rw [phase_sendPull]
    exact congrArg CsPhase.between phase_enter
  | postBlack => exact congrArg CsPhase.between phase_enter
  | introWait =>
    dsimp only
    rw [phase_sendPull]
    exact congrArg CsPhase.between phase_enter
  | intro => exact congrArg CsPhase.between phase_enterPrepare
  | matchEnd =>
    dsimp only
    rw [phase_tearDown, hphase]
    rfl
  | cancelled =>
    dsimp only
    rw [phase_tearDown]
    exact congrArg CsPhase.between hphase

-- What a tick does to the place between two rounds.
def crossing (ph : CsPhase) (due : Bool) : Bool :=
  if due then ph == .postBanner || ph == .postReviveBind else ph.between

theorem between_tick (h : (c.ms m).players ≠ []) : ((c.tick w m).ms m).phase.between =
    crossing (c.ms m).phase (c.due m) := by
  rw [phase_of_keeps (keeps_after h) (by decide)]
  unfold advancePhase crossing
  split
  · rename_i hf
    rw [hf]
    split
    · rw [phase_endFight]
      split <;> rfl
    · rw [hf]
      split <;> rfl
  · split
    · rename_i hp
      rw [hp.1, phase_startBuyPhase]
      split <;> rfl
    · split
      · exact between_phaseEdge
      · rfl

theorem round_tick (h : (c.ms m).players ≠ []) (hphase : (c.ms m).phase = .postBlack)
    (hdue : c.due m = true) : ((c.tick w m).ms m).round = (c.ms m).round + 1 := by
  have hround : ∀ {F : List Part} {c d : Core}, Keeps F c d → Part.result ∉ F →
      (d.ms m).round = (c.ms m).round := by
    intro F c d hk hF
    have hs : Part.result.sameMatch (c.ms m) (d.ms m) := (hk _ hF).1 m
    simp only [Part.sameMatch, Prod.mk.injEq] at hs
    exact hs.2.2.1.symm
  rw [hround (keeps_after h) (by decide)]
  unfold advancePhase
  rw [if_neg (by rw [hphase]; decide), if_neg (fun hp => absurd (hphase.symm.trans hp.1) (by decide)),
    if_pos hdue]
  unfold phaseEdge
  rw [hphase]
  dsimp only
  rw [hround (keeps_enter (m := m)) (by decide)]
  simp [broadcastZoneIndex, broadcastData, openRound, onMatch]

theorem asks_ne_round {p : Packet} {q : SessionId} {op : Kit.Op} (h : c.asks w s p = some (q, op)) :
    op ≠ .round := by
  unfold asks at h
  cases hc : cmdOf p.cmd <;> simp only [hc, reduceCtorEq] at h
  case csPurchase =>
    obtain ⟨x, -, heq⟩ := Option.map_eq_some_iff.mp h
    cases heq
    exact Kit.Op.noConfusion
  case addIcewall =>
    obtain ⟨req, -, h⟩ := Option.bind_eq_some_iff.mp h
    obtain ⟨m, -, h⟩ := Option.bind_eq_some_iff.mp h
    rw [Option.ite_none_left_eq_some, Option.some.injEq, Prod.mk.injEq] at h
    obtain ⟨-, -, rfl⟩ := h
    exact Kit.Op.noConfusion
  case pickupInventory =>
    obtain ⟨u, -, h⟩ := Option.bind_eq_some_iff.mp h
    obtain ⟨m, -, h⟩ := Option.bind_eq_some_iff.mp h
    obtain ⟨loot, -, h⟩ := Option.map_eq_some_iff.mp h
    split at h <;> cases h <;> exact Kit.Op.noConfusion
  case dropInventory =>
    obtain ⟨u, -, h⟩ := Option.bind_eq_some_iff.mp h
    rw [Option.ite_none_left_eq_some, Option.some.injEq, Prod.mk.injEq] at h
    obtain ⟨-, -, rfl⟩ := h
    exact Kit.Op.noConfusion
  case takeDamage =>
    obtain ⟨req, -, h⟩ := Option.bind_eq_some_iff.mp h
    obtain ⟨m, -, h⟩ := Option.bind_eq_some_iff.mp h
    obtain ⟨x, -, heq⟩ := Option.map_eq_some_iff.mp h
    cases heq
    exact Kit.Op.noConfusion
  case changeHeldItem =>
    rw [Option.ite_none_left_eq_some, Option.some.injEq, Prod.mk.injEq] at h
    obtain ⟨-, -, rfl⟩ := h
    exact Kit.Op.noConfusion
  case equip =>
    obtain ⟨x, -, heq⟩ := Option.map_eq_some_iff.mp h
    cases heq
    exact Kit.Op.noConfusion
  case useInventory =>
    obtain ⟨x, -, heq⟩ := Option.map_eq_some_iff.mp h
    cases heq
    exact Kit.Op.noConfusion

theorem issues_ne_round {reset : Bool} {o : SessionId × Kit.Op} (h : o ∈ c.issues w s reset) :
    o.2 ≠ .round := by
  unfold issues at h
  split at h
  · rw [List.mem_singleton.mp h]
    exact Kit.Op.noConfusion
  · cases h

theorem income_ne_round {winner base first : Nat} {ps : List SessionId} {o : SessionId × Kit.Op}
    (h : o ∈ income m winner base first ps c) : o.2 ≠ .round := by
  induction ps generalizing c with
  | nil => cases h
  | cons q ps ih =>
    rcases List.mem_cons.mp h with rfl | h
    · exact Kit.Op.noConfusion
    · exact ih h

theorem count_round_eq_zero {ops : List (SessionId × Kit.Op)} (h : ∀ o ∈ ops, o.2 ≠ .round) :
    (opsOf s ops).count .round = 0 := by
  refine List.count_eq_zero.mpr fun hmem => ?_
  obtain ⟨o, ho, heq⟩ := List.mem_map.mp hmem
  exact h o (List.mem_filter.mp ho).1 heq

theorem count_round_players {ps : List SessionId} (h : ps.Nodup) :
    (opsOf s (ps.map fun p => (p, .round))).count .round = if s ∈ ps then 1 else 0 := by
  have hops : opsOf s (ps.map fun p => (p, .round)) =
      (ps.filter fun p => decide (p = s)).map fun _ => Kit.Op.round := by
    unfold opsOf
    rw [List.filter_map, List.map_map]
    rfl
  rw [hops, List.map_const', List.count_replicate_self]
  split
  · rename_i hs
    rw [← List.countP_eq_length_filter]
    exact (List.count_eq_one_of_mem h hs :)
  · rename_i hs
    rw [List.length_eq_zero_iff, List.filter_eq_nil_iff]
    intro p hp heq
    exact hs (of_decide_eq_true heq ▸ hp)

theorem count_round_edge (h : (c.ms m).players.Nodup) : (opsOf s (c.edgeOps w m)).count .round =
    if (c.ms m).phase = .postBanner ∧ s ∈ (c.ms m).players then 1 else 0 := by
  have hreissue : ∀ o ∈ (c.ms m).players.map fun p => (p, Kit.Op.reissue), o.2 ≠ .round := by
    intro o ho
    obtain ⟨p, -, rfl⟩ := List.mem_map.mp ho
    exact Kit.Op.noConfusion
  unfold edgeOps
  cases hphase : (c.ms m).phase with
  | postBanner =>
    dsimp only
    rw [opsOf_append, List.count_append, count_round_players h]
    simp only [true_and]
    rw [count_round_eq_zero, Nat.add_zero]
    intro o ho
    split at ho
    · exact hreissue o ho
    · cases ho
  | postReviveBind =>
    refine (count_round_eq_zero fun o ho => ?_).trans (if_neg fun hp => CsPhase.noConfusion hp.1).symm
    obtain ⟨p, -, ho⟩ := List.mem_flatMap.mp ho
    split at ho
    · exact issues_ne_round ho
    · rw [List.mem_singleton.mp ho]
      exact Kit.Op.noConfusion
  | setupWait =>
    exact (count_round_eq_zero fun o ho => issues_ne_round ho).trans
      (if_neg fun hp => CsPhase.noConfusion hp.1).symm
  | _ => exact (if_neg fun hp => CsPhase.noConfusion hp.1).symm

theorem count_round_tick (h : (c.ms m).players.Nodup) : (opsOf s (c.tickOps w m)).count .round =
    if (c.ms m).phase = .postBanner ∧ c.due m = true ∧ s ∈ (c.ms m).players then 1 else 0 := by
  unfold tickOps phaseOps
  split
  · rename_i hnil
    rw [hnil]
    exact (if_neg fun hp => absurd hp.2.2 List.not_mem_nil).symm
  · by_cases hphase : (c.ms m).phase = .postBanner
    · have hprepare : ¬ ((c.ms m).phase = .prepare ∧ (c.ms m).started = false ∧ c.teamsReady m = true) :=
        fun hp => absurd (hphase.symm.trans hp.1) (by decide)
      rw [if_neg (by rw [hphase]; decide), if_neg hprepare]
      cases hdue : c.due m with
      | false => exact (if_neg fun hp => absurd hp.2.1 Bool.false_ne_true).symm
      | true =>
        rw [if_pos rfl, count_round_edge h]
        simp only [hphase, true_and]
    · have hnone : ∀ ops, (opsOf s ops).count .round = 0 → (opsOf s ops).count .round =
          if (c.ms m).phase = .postBanner ∧ c.due m = true ∧ s ∈ (c.ms m).players then 1 else 0 :=
        fun ops hops => hops.trans (if_neg fun hp => hphase hp.1).symm
      refine hnone _ ?_
      split
      · split
        · exact count_round_eq_zero fun o ho => income_ne_round ho
        · rfl
      · split
        · rfl
        · split
          · rw [count_round_edge h]
            exact if_neg fun hp => hphase hp.1
          · rfl

end Core

namespace Kit

def units (k : Kit) (data : Nat) : Nat :=
  weight (fun it : InvItem => if it.data = data then it.count else 0) k.clientUIDs

-- What a purchase hands out: mushrooms by their counter, weapons by the gun, the rest by the unit.
def gained (x : Setting) (k : Kit) (item : ShopItem) (qty : Nat) : Nat :=
  let k' := k.apply x (.buy item qty)
  if item.itemID = itemMushroom then k'.mushrooms - k.mushrooms
  else if (placeItem item).isWeapon then k.newGuns k' item.itemID
  else k'.units item.itemID - k.units item.itemID

-- What a request asks for: of a mushroom or a weapon one, whatever its quantity says.
def wanted (item : ShopItem) (qty : Nat) : Nat :=
  if item.itemID = itemMushroom ∨ (placeItem item).isWeapon then 1 else qty

-- The sum over the purchases of one item in the round that a history ends in.
def perRound (f : Kit → Setting → ShopItem → Nat → Nat) (data : Nat)
    (t : List (Kit × Setting × Op)) : Nat :=
  t.foldl (fun n y =>
    match y.2.2 with
    | .round => 0
    | .buy item qty => if item.itemID = data then n + f y.1 y.2.1 item qty else n
    | _ => n) 0

def obtained : Nat → List (Kit × Setting × Op) → Nat :=
  perRound fun k x item qty => k.gained x item qty

def asked : Nat → List (Kit × Setting × Op) → Nat := perRound fun _ _ item qty => wanted item qty

-- No more than the cap of an item is obtained in a round.
def Capped (t : List (Kit × Setting × Op)) (y : Kit × Setting × Op) : Prop :=
  match y.2.2 with
  | .buy item _ => item.limitation ≠ 0 → obtained item.itemID (t ++ [y]) ≤ item.limitation
  | _ => True

-- The requests of the round stay within the cap of their item; the mushroom's count does it alone.
def Within (t : List (Kit × Setting × Op)) (y : Kit × Setting × Op) : Prop :=
  match y.2.2 with
  | .buy item qty => item.limitation = 0 ∨
      (item.itemID = itemMushroom ∧ mushroomsPerRound ≤ item.limitation) ∨
      asked item.itemID t + wanted item qty ≤ item.limitation
  | _ => True

instance (t : List (Kit × Setting × Op)) (y : Kit × Setting × Op) : Decidable (Within t y) := by
  unfold Within
  split <;> infer_instance

instance (t : List (Kit × Setting × Op)) (y : Kit × Setting × Op) : Decidable (Capped t y) := by
  unfold Capped
  split <;> infer_instance

variable {x : Setting} {k : Kit} {item : ShopItem} {qty : Nat} {t : List (Kit × Setting × Op)}
  {y : Kit × Setting × Op}

theorem newGuns_addWeapon_le {w : World} {slots : List Nat} {slot ammo : Nat} :
    k.newGuns (k.addWeapon w slots item qty slot ammo).1 item.itemID ≤ 1 := by
  cases h : k.weapons with
  | some ws =>
    rw [newGuns_addWeapon h]
    split
    · exact Nat.le_refl 1
    · exact Nat.zero_le 1
  | none =>
    unfold newGuns
    rw [addWeapon_nil h]
    dsimp only
    have hnodup := ((k.stocked w slots item ammo).nodupKeys : List.Nodup _).filter fun u =>
      decide (k.clientUIDs.lookup u = none) &&
        ((k.stocked w slots item ammo).lookup u).any fun it => it.data == item.itemID && it.count == 1
    refine (@List.subperm_of_subset _ _ [k.nextUID] hnodup fun u hu => ?_).length_le
    obtain ⟨-, hp⟩ := List.mem_filter.mp hu
    rw [Bool.and_eq_true, decide_eq_true_eq] at hp
    rw [List.mem_singleton]
    by_contra hne
    rcases @lookup_stocked w slots _ item ammo _ hne with h1 | h1
    · rw [h1, hp.1] at hp
      exact absurd hp.2 (by simp)
    · rw [h1] at hp
      exact absurd hp.2 (by simp [ammoItem, ammo_count_ne_one])

theorem units_addPurchasedItem_le {w : World} {order slots : List Nat}
    (h : (placeItem item).isWeapon = false) :
    (k.addPurchasedItem w order slots item qty).1.units item.itemID ≤ qty + k.units item.itemID := by
  cases hs : k.stackOf order item with
  | none =>
    rw [addPurchasedItem_new h hs]
    refine Nat.le_trans weight_insert_le ?_
    rw [if_pos (show (k.newPiece item qty).data = item.itemID from rfl)]
    exact Nat.le_refl _
  | some stack =>
    obtain ⟨u, it⟩ := stack
    rw [addPurchasedItem_merge h hs]
    have hfound := hs
    unfold stackOf at hfound
    rw [Option.ite_none_left_eq_some] at hfound
    obtain ⟨hu, -, hdata⟩ := trackedByData_some hfound.2
    have hrep := weight_replace (f := fun it : InvItem => if it.data = item.itemID then it.count else 0)
      (b := grown it qty) hu
    rw [if_pos hdata, if_pos (show (grown it qty).data = item.itemID from hdata)] at hrep
    have hle : (grown it qty).count ≤ it.count + qty := Nat.mod_le _ _
    change weight _ (k.clientUIDs.insert u (grown it qty)) ≤ qty + weight _ k.clientUIDs
    omega

theorem gained_le : k.gained x item qty ≤ wanted item qty := by
  have hcharged : (k.charged x item qty).clientUIDs = k.clientUIDs := by
    unfold charged
    split <;> rfl
  unfold gained wanted
  dsimp only
  by_cases hm : item.itemID = itemMushroom
  · rw [if_pos hm, if_pos (Or.inl hm)]
    obtain ⟨-, -, hmush⟩ := Prod.mk.inj (purse_apply (x := x) (k := k) (.buy item qty)) |>.imp id
      Prod.mk.inj
    rw [hmush, if_pos hm]
    omega
  rw [if_neg hm]
  have hgoods : (k.apply x (.buy item qty)).clientUIDs = ((k.charged x item qty).addPurchasedItem x.w
      x.order x.slots item qty).1.clientUIDs := clientUIDs_purchase hm
  by_cases hwpn : (placeItem item).isWeapon = true
  · rw [if_pos hwpn, if_pos (Or.inr hwpn), newGuns_congr hcharged.symm hgoods,
      addPurchasedItem_weapon hwpn]
    exact newGuns_addWeapon_le
  · rw [if_neg hwpn, if_neg (by rintro (h | h) <;> contradiction)]
    have hle := @units_addPurchasedItem_le (k.charged x item qty) _ qty x.w x.order x.slots
      (Bool.eq_false_iff.mpr hwpn)
    unfold units at hle ⊢
    rw [hgoods, ← hcharged]
    omega

theorem perRound_snoc {f : Kit → Setting → ShopItem → Nat → Nat} {data : Nat} :
    perRound f data (t ++ [y]) =
      match y.2.2 with
      | .round => 0
      | .buy item qty =>
        if item.itemID = data then perRound f data t + f y.1 y.2.1 item qty else perRound f data t
      | _ => perRound f data t := by
  simp [perRound]

theorem obtained_le (data : Nat) (t : List (Kit × Setting × Op)) : obtained data t ≤ asked data t := by
  induction t using List.reverseRecOn with
  | nil => exact Nat.le_refl 0
  | append_singleton t y ih =>
    unfold obtained asked at ih ⊢
    rw [perRound_snoc, perRound_snoc]
    cases y.2.2 with
    | round => exact Nat.le_refl 0
    | buy item qty =>
      dsimp only
      split
      · exact Nat.add_le_add ih gained_le
      · exact ih
    | _ => exact ih

theorem obtained_mushrooms (h : obtained itemMushroom t ≤ y.1.mushrooms) :
    obtained itemMushroom (t ++ [y]) ≤ (Kit.act y.2 y.1).mushrooms := by
  have hp := purse_apply (x := y.2.1) (k := y.1) y.2.2
  have hact : Kit.act y.2 y.1 = y.1.apply y.2.1 y.2.2 := rfl
  unfold obtained at h ⊢
  rw [perRound_snoc, hact]
  cases hop : y.2.2 with
  | round => exact Nat.zero_le _
  | buy item qty =>
    rw [hop] at hp
    obtain ⟨-, -, hmush⟩ := Prod.mk.inj hp |>.imp id Prod.mk.inj
    dsimp only
    by_cases hm : item.itemID = itemMushroom
    · have hgained : y.1.gained y.2.1 item qty =
          (y.1.apply y.2.1 (.buy item qty)).mushrooms - y.1.mushrooms := if_pos hm
      rw [if_pos hm] at hmush ⊢
      rw [hgained, hmush]
      omega
    · rw [if_neg hm] at hmush ⊢
      rw [hmush]
      exact h
  | _ =>
    rw [hop] at hp
    obtain ⟨-, -, hmush⟩ := Prod.mk.inj hp |>.imp id Prod.mk.inj
    rw [hmush]
    exact h

theorem capped_of_within (hw : Within t y) (hs : y.1.Sound y.2.1 y.2.2)
    (hm : obtained itemMushroom t ≤ y.1.mushrooms) : Capped t y := by
  have hle := fun data => obtained_le data (t ++ [y])
  unfold Within at hw
  unfold Capped
  cases hop : y.2.2 with
  | buy item qty =>
    rw [hop] at hw hs
    dsimp only at hw ⊢
    intro hlimit
    rcases hw with hzero | ⟨hmush, hcap⟩ | hwithin
    · exact absurd hzero hlimit
    · have hgot := obtained_mushrooms hm
      have hp := purse_apply (x := y.2.1) (k := y.1) y.2.2
      rw [hop] at hp
      obtain ⟨-, -, hcount⟩ := Prod.mk.inj hp |>.imp id Prod.mk.inj
      have hact : (Kit.act y.2 y.1).mushrooms = y.1.mushrooms + 1 := by
        change (y.1.apply y.2.1 y.2.2).mushrooms = _
        rw [hop, hcount, if_pos hmush]
      have hbefore := hs.2.1 hmush
      rw [hmush]
      omega
    · refine Nat.le_trans (hle item.itemID) ?_
      unfold asked at hwithin ⊢
      rw [perRound_snoc, hop]
      dsimp only
      rwa [if_pos rfl]
  | _ => trivial

end Kit

namespace Server

variable {w : World} {v v' : Server} {e : Event} {s : SessionId} {m : MatchRef} {es : List Event}

def passes (v : Server) (e : Event) (m : MatchRef) (ph : CsPhase) : Bool :=
  decide (e.act = .tick m) && decide ((v.core.ms m).players ≠ []) &&
    decide ((v.core.ms m).phase = ph) && (v.core.atMoment e.moment (some m)).due m

def passed (w : World) (v : Server) (m : MatchRef) (ph : CsPhase) (es : List Event) : Nat :=
  (logged (step w) (fun v e => if v.passes e m ph then [e] else []) v es).length

def resetBy (v : Server) (e : Event) : List SessionId :=
  match e.act with
  | .tick m => if v.passes e m .postBanner then (v.core.ms m).players else []
  | _ => []

-- The counters are reset once a round: at each reset exactly the roster's, each once, and between
-- two resets of a match it opens one round.
structure ResetsOnce (w : World) (es : List Event) (v : Server) : Prop where
  resets : ∀ e s, (opsOf s (v.dealt w e)).count .round = if s ∈ v.resetBy e then 1 else 0
  rounds : ∀ m, start.passed w m .postBanner es =
    start.passed w m .postBlack es + if (v.core.ms m).phase.between then 1 else 0
  opens : ∀ e v' m, v.Step w e v' → v.passes e m .postBlack →
    (v'.core.ms m).round = (v.core.ms m).round + 1

theorem passes_tick {ph : CsPhase} (h : v.passes e m ph = true) : e.act = .tick m ∧
    (v.core.ms m).players ≠ [] ∧ (v.core.ms m).phase = ph ∧
      (v.core.atMoment e.moment (some m)).due m = true := by
  simp only [passes, Bool.and_eq_true, decide_eq_true_eq] at h
  exact ⟨h.1.1.1, h.1.1.2, h.1.2, h.2⟩

theorem count_round (hv : v.Sound) :
    (opsOf s (v.dealt w e)).count .round = if s ∈ v.resetBy e then 1 else 0 := by
  obtain ⟨act, t⟩ := e
  cases act with
  | dispatch q p =>
    refine Core.count_round_eq_zero fun o ho => ?_
    unfold dealt at ho
    dsimp only at ho
    split at ho
    · cases ho
    · exact Core.asks_ne_round (Option.mem_toList.mp ho)
  | letIn a => rfl
  | start m =>
    refine Core.count_round_eq_zero fun o ho => ?_
    rw [List.mem_singleton.mp ho]
    exact Kit.Op.noConfusion
  | exec m =>
    refine Core.count_round_eq_zero fun o ho => ?_
    cases hm : v.mail m with
    | nil => simp [dealt, hm] at ho
    | cons job rest =>
      cases job with
      | route q p =>
        simp only [dealt, hm] at ho
        exact Core.asks_ne_round (Option.mem_toList.mp ho)
      | admitLater q =>
        simp only [dealt, hm] at ho
        exact Core.issues_ne_round ho
      | resyncWalls q => simp [dealt, hm] at ho
  | stop m => rfl
  | tick m =>
    refine (Core.count_round_tick (c := v.core.atMoment t (some m)) (hv.seats.nodup m)).trans ?_
    have hreset : s ∈ v.resetBy ⟨.tick m, t⟩ ↔ (v.core.ms m).phase = .postBanner ∧
        (v.core.atMoment t (some m)).due m = true ∧ s ∈ (v.core.ms m).players := by
      change s ∈ (if v.passes ⟨.tick m, t⟩ m .postBanner then (v.core.ms m).players else []) ↔ _
      constructor
      · intro hs
        split at hs
        · rename_i hp
          obtain ⟨-, -, hphase, hdue⟩ := passes_tick hp
          exact ⟨hphase, hdue, hs⟩
        · cases hs
      · rintro ⟨hphase, hdue, hs⟩
        rw [if_pos]
        · exact hs
        · simp only [passes, Bool.and_eq_true, decide_eq_true_eq]
          exact ⟨⟨⟨trivial, List.ne_nil_of_mem hs⟩, hphase⟩, hdue⟩
    by_cases hs : s ∈ v.resetBy ⟨.tick m, t⟩
    · exact (if_pos (hreset.mp hs)).trans (if_pos hs).symm
    · exact (if_neg (mt hreset.mpr hs)).trans (if_neg hs).symm

theorem between_step (h : v.Step w e v') (hj : v.JoinsOnce e) (hv : v.Sound)
    (hsetup : (v.core.field m).begun = false → (v.core.ms m).phase = .setupBind) :
    (v'.core.ms m).phase.between = if v.passes e m .postBanner then true
      else if v.passes e m .postBlack then false else (v.core.ms m).phase.between := by
  by_cases htick : e.act = .tick m ∧ (v.core.ms m).players ≠ []
  · obtain ⟨act, t⟩ := e
    obtain ⟨rfl, hplayers⟩ := htick
    have hf := fires_of_step h
    cases hf with
    | tick hfree =>
      change ((((v.core.atMoment t (some m)).tick w m)).ms m).phase.between = _
      rw [Core.between_tick (c := v.core.atMoment t (some m)) hplayers]
      have hpasses : ∀ ph, v.passes ⟨.tick m, t⟩ m ph = (decide ((v.core.ms m).phase = ph) &&
          (v.core.atMoment t (some m)).due m) := by
        simp [passes, hplayers]
      rw [hpasses, hpasses]
      unfold Core.crossing
      change (if _ then (v.core.ms m).phase == CsPhase.postBanner ||
        (v.core.ms m).phase == CsPhase.postReviveBind else (v.core.ms m).phase.between) = _
      cases (v.core.atMoment t (some m)).due m <;> cases (v.core.ms m).phase <;> rfl
  · have hquiet : ∀ ph, v.passes e m ph = false := by
      intro ph
      by_contra hp
      obtain ⟨hact, hplayers, -⟩ := passes_tick (Bool.not_eq_false _ ▸ hp)
      exact htick ⟨hact, hplayers⟩
    rw [hquiet, hquiet]
    by_cases hact : e.act = .tick m
    · have hnil : (v.core.ms m).players = [] := by
        by_contra hne
        exact htick ⟨hact, hne⟩
      obtain ⟨act, t⟩ := e
      obtain rfl : act = .tick m := hact
      have hf := fires_of_step h
      cases hf with
      | tick hfree =>
        have htick' : (v.core.atMoment t (some m)).tick w m =
            (v.core.atMoment t (some m)).stopLoop m := if_pos hnil
        change ((((v.core.atMoment t (some m)).tick w m)).ms m).phase.between = _
        rw [htick', Core.phase_of_keeps Core.keeps_stopLoop (by decide)]
        rfl
    · refine step_invariant (I := fun f => f.phase.between = (v.core.ms m).phase.between) hv h hj rfl
        fun {f l g} hwhy _ _ hf hmove => ?_
      have hstage : g.stage = f.stage → g.phase.between = (v.core.ms m).phase.between :=
        fun hs => (congrArg (fun x => x.phase.between) hs).trans hf
      cases hwhy with
      | handler _ _ hl =>
        cases hl with
        | report =>
          cases hmove
          exact hstage Field.stage_applyDamage
        | startRescue =>
          cases hmove
          exact hstage Field.stage_startRescue
        | stopRescue =>
          cases hmove
          exact hstage Field.stage_stopRescue
        | quit =>
          cases hmove
          exact hf
      | setup =>
        cases hmove
        exact hf
      | begin_ =>
        cases hmove with
        | begin_ hb =>
          rw [hsetup hb]
          rfl
      | join =>
        cases hmove
        refine (congrArg (fun x : Field.Stage => x.phase.between)
          (Field.stage_join (f := v.core.field m))).trans ?_
        exact hf
      | tick ha _ _ => exact absurd ha hact

theorem setupBind_of_run {C : Server → Event → Prop} (h : Run (Guarded (Step w) C) start es v)
    (hC : ∀ v e, C v e → v.JoinsOnce e) (m : MatchRef) :
    (v.core.field m).begun = false → (v.core.field m).phase = .setupBind := by
  refine field_invariant (I := fun f => f.begun = false → f.phase = .setupBind) h hC
    (fun f hf _ => hf.phase) (fun {v e m f l g} _ _ _ _ _ hup _ hmove hb => ?_) m
  by_cases hs : l = .setup
  · subst hs
    cases hmove with
    | setup hf _ => exact hf.phase
  · by_cases hb' : l = .begin_
    · subst hb'
      cases hmove
      rfl
    · exact absurd ((Field.begun_of_move hmove (hup hs hb')).symm.trans hb) (by decide)

theorem resets_once (h : Run (Guarded (Step w) JoinsOnce) start es v) : ResetsOnce w es v := by
  have hsound := sound_of_run h fun _ _ hj => hj
  refine ⟨fun e s => count_round hsound, fun m => ?_, fun e v' m hs hp => ?_⟩
  · induction h with
    | start => rfl
    | @next es v v' e hr hs ih =>
      have hv := sound_of_run hr fun _ _ hj => hj
      have hstep := between_step hs.1 hs.2 hv (setupBind_of_run hr (fun _ _ hj => hj) m)
      have hbefore := ih hv
      have hlog : ∀ ph, start.passed w m ph (es ++ [e]) =
          start.passed w m ph es + if v.passes e m ph then 1 else 0 := by
        intro ph
        unfold passed
        rw [logged_snoc (guarded_run hr), List.length_append]
        split <;> rfl
      rw [hlog, hlog, hstep]
      cases hbanner : v.passes e m .postBanner with
      | true =>
        obtain ⟨-, -, hphase, -⟩ := passes_tick hbanner
        have hblack : v.passes e m .postBlack = false := by
          by_contra hp
          obtain ⟨-, -, hphase', -⟩ := passes_tick (Bool.not_eq_false _ ▸ hp)
          exact absurd (hphase.symm.trans hphase') (by decide)
        rw [hphase] at hbefore
        rw [hblack]
        simp only [CsPhase.between, Bool.false_eq_true, if_false, if_true] at hbefore ⊢
        omega
      | false =>
        cases hblack : v.passes e m .postBlack with
        | true =>
          obtain ⟨-, -, hphase, -⟩ := passes_tick hblack
          rw [hphase] at hbefore
          simp only [CsPhase.between, Bool.false_eq_true, if_false, if_true] at hbefore ⊢
          omega
        | false =>
          simp only [Bool.false_eq_true, if_false]
          omega
  · obtain ⟨hact, hplayers, hphase, hdue⟩ := passes_tick hp
    obtain ⟨act, t⟩ := e
    obtain rfl : act = .tick m := hact
    have hf := fires_of_step hs
    cases hf with
    | tick hfree => exact Core.round_tick hplayers hphase hdue

theorem each_trail {P : List (Kit × Kit.Setting × Kit.Op) → Kit × Kit.Setting × Kit.Op → Prop}
    (h : ∀ s ∈ v.dealtTo w es, Each P (v.trail w s es)) (s : SessionId) : Each P (v.trail w s es) := by
  by_cases hs : s ∈ v.dealtTo w es
  · exact h s hs
  · rw [trail_eq_nil hs]
    exact each_nil

theorem caps_kept (h : Run (Guarded (Step w) JoinsOnce) start es v) :
    (∀ s, Each Kit.Within (start.trail w s es) → Each Kit.Capped (start.trail w s es)) ∧
      ResetsOnce w es v := by
  refine ⟨fun s hok => ?_, resets_once h⟩
  have hsound : Each (fun _ y => y.1.Sound y.2.1 y.2.2) (start.trail w s es) :=
    each_of_forall fun y hy => (trail_sound hy).1
  refine ((follows_run (guarded_run h) (s := s)).inv
    (I := fun t k => Each Kit.Capped t ∧ Kit.obtained itemMushroom t ≤ k.mushrooms)
    (P := fun t y => Kit.Within t y ∧ y.1.Sound y.2.1 y.2.2)
    (fun t k k' hr hI => ?_) ⟨each_nil, Nat.zero_le _⟩ (fun t k a hI ha => ?_)
    fun pre y post heq => ⟨hok pre y post heq, hsound pre y post heq⟩).1
  · have hm : k'.mushrooms = k.mushrooms := (congrArg Kit.mushrooms hr :)
    exact ⟨hI.1, hm ▸ hI.2⟩
  · have hcap : Kit.Capped t (k, a) := Kit.capped_of_within ha.1 ha.2 hI.2
    exact ⟨each_snoc.mpr ⟨hI.1, hcap⟩, Kit.obtained_mushrooms (y := (k, a)) hI.2⟩

-- Two gloo walls and a mushroom, in three requests of the first round.
def threeBuys : List Event :=
  toShop ++ sends 8000000000 0 0 (buyRequest 1201 1) ++ sends 8100000000 0 0 (buyRequest 1201 1) ++
    sends 8200000000 0 0 (buyRequest itemMushroom 1)

theorem caps_kept_by_three_buys : ∃ v, Run (Guarded (Step shopWorld) JoinsOnce) start threeBuys v ∧
    (∀ s, Each Kit.Capped (start.trail shopWorld s threeBuys)) ∧
    ResetsOnce shopWorld threeBuys v := by
  have hrun : ((threeBuys.foldlM (fun v e => if JoinsOnce v e then step shopWorld v e else none)
      start).map fun v : Server => (v.core.ss 0).kit.coins) = some 200 := by
    decide +kernel
  obtain ⟨v, hv, -⟩ := Option.map_eq_some_iff.mp hrun
  have hok : ∀ s ∈ start.dealtTo shopWorld threeBuys,
      Each Kit.Within (start.trail shopWorld s threeBuys) := by
    decide +kernel
  obtain ⟨hcaps, hresets⟩ := caps_kept (run_of_checked hv)
  exact ⟨v, run_of_checked hv, fun s => hcaps s (each_trail hok s), hresets⟩

-- One request for three gloo walls is granted, with a cap of two.
theorem three_walls_at_once : ¬ ∀ w es v, Run (Step w) start es v →
    (∀ s, Each Kit.Capped (start.trail w s es)) ∧ ResetsOnce w es v := by
  intro hall
  have hrun : (((toShop ++ sends 8000000000 0 0 (buyRequest 1201 3)).foldlM (step shopWorld)
      start).map fun v : Server => (v.core.ss 0).kit.coins) = some 200 := by
    decide +kernel
  obtain ⟨v, hv, -⟩ := Option.map_eq_some_iff.mp hrun
  have hbroken : ¬ ∀ y ∈ (start.trail shopWorld 0
      (toShop ++ sends 8000000000 0 0 (buyRequest 1201 3))).getLast?,
      Kit.Capped (start.trail shopWorld 0
        (toShop ++ sends 8000000000 0 0 (buyRequest 1201 3))).dropLast y := by
    decide +kernel
  refine hbroken fun y hy => ?_
  refine (hall shopWorld _ v (run_of_foldlM hv)).1 0 _ y [] ?_
  exact (List.dropLast_append_getLast? y hy).symm

end Server

end MatchServer

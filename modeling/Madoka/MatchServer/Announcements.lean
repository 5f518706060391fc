import Madoka.Lib.Mirror
import Madoka.MatchServer.Server

namespace MatchServer

open Lib

-- What a client keeps a picture of, next to the players.
inductive Topic where
  | walls
  | flags
  deriving DecidableEq, Repr

def BattleFlagEntry.sign (e : BattleFlagEntry) : Sign Nat :=
  if e.active then .shown e.objectId else .hidden e.objectId

-- cmd 218 and 221 are about walls, cmd 277 is about flags.
def Msg.signs (x : Topic) : Msg → List (Sign Nat)
  | .addIcewall wall => if x = .walls then [.shown wall.id] else []
  | .removeIcewall id => if x = .walls then [.hidden id] else []
  | .battleFlagSync entries => if x = .flags then entries.map BattleFlagEntry.sign else []
  | _ => []

def Match.shows (x : Topic) (g : Match) : Finset Nat :=
  match x with
  | .walls => (g.walls.map IceWall.id).toFinset
  | .flags => (g.flags.entries.map fun e => e.2.id).toFinset

-- The handlers of cmd 122 and 123, whose file is not in the repository, are about attachments.
def World.AttachesOnly (w : World) : Prop :=
  ∀ q p, ∀ msg ∈ w.attachRes q p, ∀ x, msg.signs x = []

namespace Core

def signs (c : Core) (x : Topic) (p : SessionId) : List (Sign Nat) :=
  c.out.flatMap fun o => if o.1 = p then o.2.signs x else []

def Mute (x : Topic) (c d : Core) : Prop :=
  ∃ out, d.out = c.out ++ out ∧ ∀ o ∈ out, o.2.signs x = []

variable {w : World} {c d e : Core} {s : SessionId} {m : MatchRef} {x : Topic} {p : Packet}
  {msg : Msg}

theorem signs_broadcastData (p : SessionId) : (c.broadcastData m msg).signs x p =
    c.signs x p ++ (List.replicate ((c.ms m).players.count p) (msg.signs x)).flatten := by
  unfold signs broadcastData
  rw [List.flatMap_append]
  congr 1
  induction (c.ms m).players with
  | nil => rfl
  | cons q l ih =>
    rw [List.map_cons, List.flatMap_cons, ih]
    by_cases hq : q = p
    · rw [hq, List.count_cons_self, List.replicate_succ, List.flatten_cons, if_pos rfl]
    · rw [List.count_cons_of_ne hq, if_neg hq, List.nil_append]

namespace Mute

theorem of_out (h : d.out = c.out) : Mute x c d :=
  ⟨[], h.trans (List.append_nil _).symm, fun _ ho => absurd ho List.not_mem_nil⟩

theorem refl : Mute x c c := of_out rfl

theorem trans (h : Mute x c d) (h' : Mute x d e) : Mute x c e := by
  obtain ⟨out, hd, hmute⟩ := h
  obtain ⟨out', he, hmute'⟩ := h'
  refine ⟨out ++ out', by rw [he, hd, List.append_assoc], fun o ho => ?_⟩
  exact (List.mem_append.mp ho).elim (hmute o) (hmute' o)

theorem signs (h : Mute x c d) (p : SessionId) : d.signs x p = c.signs x p := by
  obtain ⟨out, hd, hmute⟩ := h
  have hnil : (out.flatMap fun o => if o.1 = p then o.2.signs x else []) = [] := by
    rw [List.flatMap_eq_nil_iff]
    intro o ho
    rw [hmute o ho, ite_self]
  unfold Core.signs
  rw [hd, List.flatMap_append, hnil, List.append_nil]

theorem kept (h : Mute x c d) {o : SessionId × Msg} (ho : o ∈ c.out) : o ∈ d.out := by
  obtain ⟨out, hd, -⟩ := h
  exact hd ▸ List.mem_append_left out ho

theorem ite {a : Prop} [Decidable a] (hd : a → Mute x c d) (he : ¬ a → Mute x c e) :
    Mute x c (if a then d else e) := by
  split
  · exact hd ‹_›
  · exact he ‹_›

theorem foldl {β : Type} {f : Core → β → Core} (h : ∀ c b, Mute x c (f c b)) (l : List β) :
    Mute x c (l.foldl f c) := by
  induction l generalizing c with
  | nil => exact refl
  | cons b l ih => exact (h c b).trans ih

theorem withMatch {f : MatchRef → Core} (h : ∀ m, Mute x c (f m)) : Mute x c (c.withMatch s f) := by
  unfold Core.withMatch
  split
  · exact h _
  · exact refl

theorem onMatch (h : Mute x c d) {f : Match → Match} : Mute x c (d.onMatch m f) := h

theorem onSession (h : Mute x c d) {f : Session → Session} : Mute x c (d.onSession s f) := h

theorem onKit (h : Mute x c d) {f : Kit → Kit} : Mute x c (d.onKit s f) := h

theorem note (h : Mute x c d) {a : Deed} : Mute x c (d.note m a) := h

theorem enqueue (h : Mute x c d) {job : Job} : Mute x c (d.enqueue m job) := h

theorem send (h : Mute x c d) (hm : msg.signs x = []) : Mute x c (d.send s msg) := by
  refine h.trans ⟨[(s, msg)], rfl, fun o ho => ?_⟩
  rwa [List.mem_singleton.mp ho]

theorem sends {kind : Msg → Prop} (h : Mute x c d) (hs : d.Sends kind e)
    (hkind : ∀ msg, kind msg → msg.signs x = []) : Mute x c e := by
  obtain ⟨out, hout, rfl⟩ := hs
  exact h.trans ⟨out, rfl, fun o ho => hkind o.2 (hout o ho)⟩

theorem toAll (h : Mute x c d) {l : List SessionId} (hm : msg.signs x = []) :
    Mute x c { d with out := d.out ++ l.map fun p => (p, msg) } := by
  refine h.trans ⟨l.map fun p => (p, msg), rfl, fun o ho => ?_⟩
  obtain ⟨q, -, rfl⟩ := List.mem_map.mp ho
  exact hm

theorem broadcastData (h : Mute x c d) (hm : msg.signs x = []) :
    Mute x c (d.broadcastData m msg) := h.toAll hm

theorem broadcastToOthers (h : Mute x c d) (hm : msg.signs x = []) :
    Mute x c (d.broadcastToOthers s m msg) := h.toAll hm

end Mute

section Combat

variable {victim attacker killer dmg bodyPart entity team target : Nat}

theorem mute_resendEquipTo {target : SessionId} : Mute x c (c.resendEquipTo s target) :=
  Mute.foldl (fun _ _ => Mute.ite (fun _ => Mute.refl) fun _ => Mute.refl.send rfl) _

theorem mute_repointSpectator {prefer : Nat} {sp : SessionId} :
    Mute x c (repointSpectator m prefer c sp) :=
  Mute.ite (fun _ => Mute.refl.onSession.send rfl) fun _ => Mute.refl.onSession

theorem mute_repointSpectators {gone prefer : Nat} :
    Mute x c (c.repointSpectators m gone prefer) :=
  Mute.foldl (fun _ _ => mute_repointSpectator) _

theorem mute_watch {observe : Nat} : Mute x c (c.watch m victim observe) := by
  unfold watch
  split
  · dsimp only
    split
    · exact Mute.refl.onSession.trans mute_resendEquipTo
    · exact Mute.refl.onSession
  · exact Mute.refl

theorem mute_emitDeath {observe : Nat} {weapon skin : Int} {pos : Vec3} {system pending : Bool} :
    Mute x c (c.emitDeath m victim killer weapon skin observe bodyPart pos system pending) :=
  Mute.ite
    (fun _ => ((Mute.refl.broadcastData rfl).trans mute_watch).trans mute_repointSpectators)
    fun _ => Mute.refl.broadcastData rfl

theorem mute_creditDeath : Mute x c (c.creditDeath m victim killer) := by
  unfold creditDeath
  refine Mute.ite (fun _ => ?_) fun _ => Mute.refl.onMatch.note
  dsimp only
  split
  · exact Mute.refl.onMatch.note.onMatch.note.onSession
  · exact Mute.refl.onMatch.note.onMatch.note

theorem mute_finalizeKnock {ks : KnockState} : Mute x c (c.finalizeKnock m entity ks) :=
  (mute_creditDeath.onMatch.note).trans mute_emitDeath

theorem mute_teamFellToZero : Mute x c (c.teamFellToZero m team) := by
  refine Mute.onMatch (Mute.foldl (fun d e => ?_) _)
  unfold finalizeFallen
  split
  · exact Mute.ite (fun _ => mute_finalizeKnock) fun _ => Mute.refl
  · exact Mute.refl

theorem mute_knockPlayer : Mute x c (c.knockPlayer w m victim attacker bodyPart) :=
  Mute.broadcastData Mute.refl.onMatch.note rfl

theorem mute_killEntity : Mute x c (c.killEntity w m victim killer bodyPart) :=
  (mute_creditDeath.onMatch.note).trans mute_emitDeath

theorem mute_downOrKill : Mute x c (c.downOrKill w m victim attacker bodyPart) :=
  Mute.trans Mute.refl.note (Mute.ite (fun _ => mute_killEntity) fun _ =>
    Mute.ite (fun _ => mute_knockPlayer.trans mute_teamFellToZero) fun _ => mute_knockPlayer)

theorem mute_creditDamage : Mute x c (c.creditDamage m victim attacker dmg) :=
  Mute.ite (fun _ => Mute.refl.onMatch.note) fun _ => Mute.refl

theorem mute_damageKnocked : Mute x c (c.damageKnocked m victim attacker dmg) := by
  unfold damageKnocked
  split
  · exact Mute.refl
  · exact Mute.ite (fun _ => mute_creditDamage.onMatch.trans mute_finalizeKnock)
      fun _ => mute_creditDamage.onMatch

theorem mute_syncArmor {slot : Nat} : Mute x c (c.syncArmor s slot) := by
  unfold syncArmor
  dsimp only
  split
  · exact Mute.refl
  · refine Mute.ite (fun _ => ?_) fun _ => Mute.ite (fun _ => ?_) fun _ => ?_
    · exact (Mute.refl.onKit.send rfl).send rfl
    · exact (((Mute.refl.onKit.send rfl).send rfl).send rfl).send rfl
    · exact ((Mute.refl.onKit.send rfl).send rfl).send rfl

theorem mute_wearArmor {netDmg : Nat} : Mute x c (c.wearArmor s bodyPart netDmg) :=
  Mute.ite
    (fun _ => Mute.ite (fun _ => Mute.refl.onKit.trans mute_syncArmor) fun _ => Mute.refl)
    fun _ => Mute.ite
      (fun _ => Mute.ite (fun _ => Mute.refl.onKit.trans mute_syncArmor) fun _ => Mute.refl)
      fun _ => Mute.refl

theorem mute_sendAll {l : List SessionId} (hm : msg.signs x = []) : Mute x c (c.sendAll l msg) :=
  Mute.foldl (fun _ _ => Mute.refl.send hm) _

theorem mute_reportHit : Mute x c (c.reportHit w m victim attacker dmg bodyPart) := by
  have hshow : Mute x c (c.showDamage w m victim attacker dmg bodyPart) :=
    Mute.ite (fun _ => mute_sendAll rfl) fun _ => Mute.refl
  refine Mute.broadcastData (hshow.trans ?_) rfl
  unfold hurtVictim
  dsimp only
  split
  · exact (mute_wearArmor.send rfl).trans (mute_sendAll rfl)
  · exact mute_sendAll rfl

theorem mute_applyDamage : Mute x c (c.applyDamage w m victim attacker dmg bodyPart) := by
  unfold applyDamage
  refine Mute.ite (fun _ => Mute.refl) fun _ => ?_
  split
  · exact mute_damageKnocked
  · exact Mute.refl
  · split
    · exact Mute.refl
    · refine Mute.ite (fun _ => Mute.refl) fun _ => ?_
      have hhit : ∀ left, Mute x c (((c.onMatch m fun g => { g with
          hp := g.hp.insert victim left }).creditDamage m victim attacker dmg).reportHit w m victim
          attacker dmg bodyPart) := fun _ =>
        (Mute.refl.onMatch.trans mute_creditDamage).trans mute_reportHit
      exact Mute.ite (fun _ => (hhit _).trans mute_downOrKill) fun _ => hhit _

theorem mute_stepKnock : Mute x c (c.stepKnock m) := by
  refine Mute.foldl (fun d e => ?_) _
  unfold bleed
  split
  · exact Mute.refl
  · exact Mute.ite (fun _ => Mute.refl) fun _ =>
      Mute.ite (fun _ => mute_finalizeKnock) fun _ => Mute.refl.onMatch

theorem mute_reviveAll : Mute x c (c.reviveAll m) :=
  Mute.onMatch (Mute.foldl (fun _ _ => Mute.refl.onMatch.onSession) _)

theorem mute_respawnPlayer : Mute x c (respawnPlayer m c s) :=
  Mute.refl.onSession.broadcastData rfl

theorem mute_startRescue {reviver startMs : Nat} :
    Mute x c (c.startRescue m reviver target startMs) :=
  Mute.ite (fun _ => Mute.refl) fun _ => Mute.ite (fun _ => Mute.refl) fun _ =>
    Mute.refl.onMatch.broadcastData rfl

theorem mute_stopRescue {reviver : Nat} : Mute x c (c.stopRescue m reviver target) := by
  unfold stopRescue
  split
  · exact Mute.ite (fun _ => Mute.refl.onMatch) fun _ => Mute.refl
  · exact Mute.refl

theorem mute_stepRescue : Mute x c (c.stepRescue m) := by
  refine Mute.foldl (fun d e => ?_) _
  unfold rescueTick
  split
  · exact Mute.refl
  · exact Mute.ite (fun _ => Mute.refl.onMatch) fun _ => Mute.ite (fun _ => Mute.refl)
      fun _ => Mute.broadcastData Mute.refl.onMatch.onMatch.note.note rfl

end Combat

section Inventory

variable {it : InvItem} {k : Kit}

theorem mute_broadcastEquipDiff {before : GoMap Nat} :
    Mute x c (c.broadcastEquipDiff s m before) := by
  refine Mute.trans (Mute.foldl (fun d e => ?_) _) (Mute.foldl (fun d slot => ?_) _)
  · exact Mute.ite (fun _ => Mute.refl) fun _ => Mute.refl.broadcastToOthers rfl
  · exact Mute.ite (fun _ => Mute.refl) fun _ => Mute.refl.broadcastToOthers rfl

theorem mute_dropToGround {pos : Vec3} : Mute x c (c.dropToGround m it pos) := by
  unfold dropToGround
  refine Mute.ite (fun _ => Mute.refl) fun _ => ?_
  split
  · exact Mute.refl.onMatch.onMatch.broadcastData rfl
  · exact Mute.refl.onMatch.broadcastData rfl

theorem mute_removeTrackedItem {unique : Nat} : Mute x c (c.removeTrackedItem s unique) :=
  Mute.refl.onKit.send rfl

theorem mute_dropOverriddenAfterEquip {outgoing : List InvItem} :
    Mute x c (c.dropOverriddenAfterEquip s m outgoing) :=
  Mute.foldl (fun _ _ => mute_dropToGround) _

theorem mute_buy {item : ShopItem} {qty : Nat} : Mute x c (c.buy w s m item qty) := by
  unfold buy
  refine Mute.ite (fun _ => (Mute.refl.onKit.send rfl).send rfl) fun _ => ?_
  dsimp only
  split
  · exact Mute.refl.onKit
  · exact (((Mute.refl.onKit.onKit.send rfl).broadcastData rfl).trans
      mute_broadcastEquipDiff).trans mute_dropOverriddenAfterEquip

theorem mute_handleCSPurchase : Mute x c (c.handleCSPurchase w s p) := by
  unfold handleCSPurchase
  refine Mute.ite (fun _ => Mute.refl) fun _ => Mute.withMatch fun m => ?_
  dsimp only
  split
  · exact Mute.refl
  · exact Mute.ite (fun _ => Mute.refl.send rfl) fun _ => Mute.ite (fun _ => mute_buy)
      fun _ => Mute.ite (fun _ => Mute.refl.send rfl) fun _ => Mute.refl.onKit.trans mute_buy

theorem mute_installWeapon {isPrimary : Bool} (h : c.installWeapon w s m it isPrimary = some d) :
    Mute x c d := by
  unfold installWeapon at h
  dsimp only at h
  generalize (((c.ss s).kit.weapon ((c.ss s).kit.pickupWeaponSlot isPrimary)).filter
    fun old => decide (old.unique ≠ it.unique)) = displaced at h
  cases displaced with
  | none =>
    dsimp only at h
    split at h
    · cases h
    · cases h
      exact Mute.refl.onKit.send rfl
  | some old =>
    dsimp only at h
    split at h
    · cases h
    · cases h
      exact ((Mute.refl.onKit.send rfl).onKit.send rfl).trans mute_dropToGround

theorem mute_takeItem : Mute x c (c.takeItem s it).1 := by
  have hfold : Mute x c (c.foldStack s it).1 := by
    unfold foldStack
    dsimp only
    split
    · exact Mute.refl
    · exact mute_removeTrackedItem.onKit
  exact hfold.onKit.send rfl

theorem mute_leaveGround {box : Nat} : Mute x c (c.leaveGround m box it) := by
  unfold leaveGround
  dsimp only
  split
  · exact Mute.ite (fun _ => (Mute.refl.broadcastData rfl).onMatch.broadcastData rfl)
      fun _ => Mute.refl.broadcastData rfl
  · exact Mute.refl.broadcastData rfl

theorem mute_handlePickup : Mute x c (c.handlePickup w s p) := by
  unfold handlePickup
  split
  · exact Mute.refl
  · refine Mute.withMatch fun m => ?_
    split
    · exact Mute.refl
    · dsimp only
      split
      · split
        · rename_i h
          exact ((Mute.refl.onMatch.trans (mute_installWeapon h)).trans mute_leaveGround).trans
            mute_broadcastEquipDiff
        · exact Mute.refl.onMatch
      · exact ((Mute.refl.onMatch.trans mute_takeItem).trans mute_leaveGround).trans
          mute_broadcastEquipDiff

theorem mute_handleDrop : Mute x c (c.handleDrop s p) := by
  unfold handleDrop
  split
  · exact Mute.refl
  · refine Mute.ite (fun _ => Mute.refl) fun _ => ?_
    split
    · exact Mute.refl
    · split
      · exact (mute_removeTrackedItem.trans mute_dropToGround).trans mute_broadcastEquipDiff
      · exact Mute.refl.onKit

theorem mute_handleEquip : Mute x c (c.handleEquip s p) := by
  unfold handleEquip
  split
  · exact Mute.refl
  · dsimp only
    split
    · exact Mute.refl
    · refine Mute.ite (fun _ => Mute.refl) fun _ => ?_
      split
      · unfold equipMoved
        refine Mute.ite (fun _ => Mute.broadcastData (Mute.broadcastData ?_ rfl) rfl)
          fun _ => Mute.broadcastData ?_ rfl
        · exact Mute.ite (fun _ => Mute.refl.onKit.broadcastData rfl) fun _ => Mute.refl.onKit
        · exact Mute.ite (fun _ => Mute.refl.onKit.broadcastData rfl) fun _ => Mute.refl.onKit
      · exact Mute.refl.onKit

theorem mute_giveLoadout {resetCoins : Bool} : Mute x c (c.giveLoadout w s resetCoins) := by
  unfold giveLoadout
  refine Mute.withMatch fun m => ?_
  dsimp only
  refine Mute.trans (Mute.broadcastData (Mute.trans ?_
    (Mute.foldl (fun _ _ => Mute.refl.broadcastData rfl) _)) rfl) mute_broadcastEquipDiff
  exact Mute.ite (fun _ => Mute.refl.onMatch.onKit.send rfl) fun _ => Mute.refl.onMatch.onKit

theorem mute_reissueLoadout : Mute x c (c.reissueLoadout w s) := Mute.refl.onKit.send rfl

theorem mute_sendCSShop : Mute x c (c.sendCSShop s) :=
  Mute.withMatch fun _ => (Mute.refl.send rfl).send rfl

theorem mute_kickObserverWheel : Mute x c (c.kickObserverWheel s) :=
  Mute.ite (fun _ => Mute.refl) fun _ => (Mute.refl.send rfl).send rfl

end Inventory

section Roster

theorem mute_setupMatch : Mute x c (c.setupMatch w s m) := by
  unfold setupMatch
  generalize (if w.cfg.fixedSpawn.isSome then (noArena, (c.ms m).arenasUsed)
    else c.chooseArena w m) = chosen
  obtain ⟨arena, used⟩ := chosen
  refine Mute.onMatch ?_
  split
  · exact Mute.refl.onMatch.onSession.onMatch.onSession
  · exact Mute.refl.onMatch.onSession.onMatch.onSession

theorem mute_bindAll : Mute x c (c.bindAll m) :=
  Mute.foldl (fun _ _ => Mute.refl.send rfl) _

theorem mute_startCSMatch : Mute x c (c.startCSMatch s) :=
  Mute.ite (fun _ => Mute.refl) fun _ => Mute.trans Mute.refl.onSession
    (Mute.withMatch fun _ => Mute.refl.onMatch)

theorem mute_joinRes : Mute x c (c.joinRes s m) := (Mute.refl.send rfl).send rfl

theorem mute_admitFirst : Mute x c (c.admitFirst w s m) :=
  Mute.trans (Mute.broadcastData (Mute.send ((Mute.refl.onMatch.trans mute_setupMatch).trans
    mute_joinRes) rfl) rfl) mute_startCSMatch

theorem mute_retireBot : Mute x c (c.retireBot m) :=
  Mute.ite (fun _ => Mute.refl) fun _ => Mute.note (Mute.onMatch (Mute.refl.broadcastData rfl))

theorem mute_admitLater : Mute x c (c.admitLater w s m) := by
  unfold admitLater
  refine Mute.withMatch fun _ => ?_
  refine Mute.trans (Mute.trans ?_ mute_giveLoadout) mute_sendCSShop
  refine Mute.trans ?_ mute_bindAll
  refine Mute.trans (Mute.send ?_ rfl) (Mute.foldl (fun _ _ => Mute.refl.send rfl) _)
  refine Mute.trans ?_ (Mute.foldl (fun _ _ => (Mute.refl.send rfl).trans mute_resendEquipTo) _)
  refine Mute.trans (Mute.trans ?_ mute_joinRes) (Mute.foldl (fun _ _ => Mute.refl.send rfl) _)
  exact Mute.trans Mute.refl.onSession.onMatch.onSession.onMatch.note mute_retireBot

theorem mute_removePlayer : Mute x c (c.removePlayer s m) :=
  Mute.ite (fun _ => Mute.refl) fun _ => Mute.trans (Mute.note (Mute.onMatch
    (Mute.trans (Mute.refl.broadcastData rfl) mute_emitDeath))) mute_repointSpectators

theorem mute_admitSession {fresh : Bool} : Mute x c (c.admitSession w s m fresh) :=
  Mute.ite (fun _ => Mute.refl.onSession.trans mute_admitFirst)
    fun _ => Mute.refl.onSession.onSession.enqueue

end Roster

section Handlers

theorem mute_deductGloo {uid count : Nat} : Mute x c (c.deductGloo s m uid count) :=
  Mute.ite (fun _ => (Mute.refl.onKit.send rfl).broadcastData rfl)
    fun _ => Mute.refl.onKit.send rfl

theorem signs_addIcewall {wall : IceWall} (h : x ≠ .walls) : (Msg.addIcewall wall).signs x = [] :=
  if_neg h

theorem signs_removeIcewall {id : Nat} (h : x ≠ .walls) : (Msg.removeIcewall id).signs x = [] :=
  if_neg h

theorem signs_battleFlagSync {entries : List BattleFlagEntry} (h : x ≠ .flags) :
    (Msg.battleFlagSync entries).signs x = [] := if_neg h

theorem mute_handlePlaceIcewall (h : x ≠ .walls) : Mute x c (c.handlePlaceIcewall w s p) := by
  unfold handlePlaceIcewall
  split
  · exact Mute.refl
  · have hplace : ∀ {d : Core} {m req}, Mute x d (d.placeWall s m req) := fun {_ _ _} =>
      Mute.trans (Mute.refl.onMatch.broadcastData (signs_addIcewall h))
        (Mute.foldl (fun _ _ => Mute.refl.broadcastData (signs_removeIcewall h)) _)
    dsimp only
    exact Mute.ite (fun _ => Mute.refl) fun _ => Mute.withMatch fun m =>
      Mute.ite (fun _ => hplace) fun _ => mute_deductGloo.trans hplace

theorem mute_handleIcewallDamage (h : x ≠ .walls) : Mute x c (c.handleIcewallDamage s p) := by
  unfold handleIcewallDamage
  split
  · exact Mute.refl
  · refine Mute.withMatch fun m => ?_
    split
    · exact Mute.refl
    · exact Mute.ite (fun _ => Mute.refl.onMatch.broadcastData (signs_removeIcewall h))
        fun _ => Mute.refl.onMatch

theorem mute_handleBattleFlagReq (h : x ≠ .flags) : Mute x c (c.handleBattleFlagReq s p) := by
  unfold handleBattleFlagReq
  split
  · exact Mute.refl
  · exact Mute.withMatch fun _ => Mute.refl.onMatch.broadcastData (signs_battleFlagSync h)

theorem mute_stepFlags (h : x ≠ .flags) : Mute x c (c.stepFlags m) := by
  refine Mute.foldl (fun d owner => ?_) _
  unfold expireFlag
  split
  · exact Mute.refl
  · exact Mute.ite (fun _ => Mute.refl.onMatch.broadcastData (signs_battleFlagSync h))
      fun _ => Mute.refl

theorem mute_clearFlag {owner : Nat} (h : x ≠ .flags) : Mute x c (c.clearFlag m owner) := by
  unfold clearFlag
  split
  · exact Mute.refl
  · exact Mute.refl.onMatch.broadcastData (signs_battleFlagSync h)

theorem mute_endHealChannel : Mute x c (c.endHealChannel s) :=
  Mute.ite (fun _ => Mute.trans Mute.refl.onSession
    (Mute.withMatch fun _ => Mute.refl.broadcastData rfl)) fun _ => Mute.refl

theorem mute_handleTryUseInventory : Mute x c (c.handleTryUseInventory s p) :=
  Mute.ite (fun _ => Mute.refl) fun _ => Mute.trans Mute.refl.onSession
    (Mute.withMatch fun _ => Mute.refl.broadcastData rfl)

theorem mute_handleUseInventory : Mute x c (c.handleUseInventory s p) := by
  unfold handleUseInventory
  split
  · exact Mute.refl
  · split
    · exact Mute.refl
    · exact Mute.ite (fun _ => Mute.refl.onKit.trans mute_endHealChannel)
        fun _ => (Mute.refl.onKit.trans mute_endHealChannel).onSession

theorem mute_stepHeal : Mute x c (c.stepHeal s) :=
  Mute.ite (fun _ => Mute.withMatch fun _ => Mute.ite (fun _ => Mute.refl.onSession) fun _ =>
    Mute.ite (fun _ => Mute.ite (fun _ => Mute.refl.onMatch.onSession.onSession)
      fun _ => Mute.refl.onMatch.onSession)
      fun _ => Mute.ite (fun _ => Mute.refl.onSession) fun _ => Mute.refl) fun _ => Mute.refl

theorem mute_stepEP : Mute x c (c.stepEP s) := by
  refine Mute.ite (fun _ => Mute.refl) fun _ => Mute.withMatch fun m =>
    Mute.ite (fun _ => Mute.refl.onKit) fun _ => ?_
  unfold regen
  refine Mute.ite (fun _ => Mute.refl) fun _ => ?_
  dsimp only
  exact Mute.ite (fun _ => Mute.refl.onKit) fun _ => Mute.refl.onKit.onMatch.onKit

theorem mute_stepHealChannel : Mute x c (c.stepHealChannel s) :=
  Mute.ite (fun _ => Mute.withMatch fun _ =>
    Mute.ite (fun _ => mute_endHealChannel) fun _ => Mute.refl) fun _ => Mute.refl

theorem mute_relay : Mute x c (c.relay s p) :=
  Mute.withMatch fun _ => Mute.refl.broadcastToOthers rfl

theorem mute_handleWeaponAction : Mute x c (c.handleWeaponAction s p) :=
  Mute.ite (fun _ => Mute.refl) fun _ => Mute.ite
    (fun _ => ((Mute.refl.onSession.trans mute_relay).trans mute_relay).trans mute_relay)
    fun _ => mute_relay

theorem mute_handleEmote : Mute x c (c.handleEmote s p) := by
  unfold handleEmote
  split
  · exact Mute.refl
  · exact Mute.withMatch fun _ => Mute.refl.broadcastToOthers rfl

theorem mute_handleTakeDamage : Mute x c (c.handleTakeDamage w s p) := by
  unfold handleTakeDamage
  split
  · exact Mute.refl
  · exact Mute.withMatch fun _ => mute_applyDamage

theorem mute_sendEach {l : List Msg} (h : ∀ msg ∈ l, msg.signs x = []) :
    Mute x c (l.foldl (fun c msg => c.send s msg) c) := by
  induction l generalizing c with
  | nil => exact Mute.refl
  | cons msg l ih =>
    exact Mute.trans (Mute.refl.send (h msg List.mem_cons_self))
      (ih fun msg' hm => h msg' (List.mem_cons_of_mem _ hm))

theorem mute_reseedRoster : Mute x c (c.reseedRoster m) := by
  refine Mute.foldl (fun d recv => mute_sendEach fun msg hm => ?_) _
  simp only [List.mem_append, List.mem_map, List.mem_singleton] at hm
  obtain (⟨q, -, rfl⟩ | hbot) | rfl := hm
  · rfl
  · split at hbot
    · rw [List.mem_singleton.mp hbot]
      rfl
    · exact absurd hbot List.not_mem_nil
  · rfl

theorem mute_reseedJoinBurst : Mute x c (c.reseedJoinBurst m) :=
  Mute.ite (fun _ => Mute.refl) fun _ => Mute.ite (fun _ => Mute.refl) fun _ =>
    Mute.ite (fun _ => (Mute.refl.onMatch.trans mute_reseedRoster).trans
      (Mute.foldl (fun _ _ => mute_kickObserverWheel) _))
      fun _ => Mute.refl.onMatch.trans mute_reseedRoster

theorem mute_handleClientPos : Mute x c (c.handleClientPos s p) :=
  Mute.ite (fun _ => Mute.refl) fun _ => Mute.trans Mute.refl.onSession
    (Mute.withMatch fun _ => mute_reseedJoinBurst)

theorem mute_handlePlayerQuit (h : x ≠ .flags) : Mute x c (c.handlePlayerQuit s) :=
  Mute.trans (Mute.refl.onSession.send rfl)
    (Mute.withMatch fun _ => (mute_clearFlag h).trans mute_removePlayer)

theorem mute_handleAttachment (hw : w.AttachesOnly) : Mute x c (c.handleAttachment w s p) :=
  mute_sendEach fun msg hm => hw _ _ msg hm x

theorem mute_handleHello : Mute x c (c.handleHello w s p) := by
  have hsent : Mute x c (c.send s .helloRes) := Mute.refl.send rfl
  unfold handleHello
  refine Mute.ite (fun _ => ?_) fun _ => hsent
  dsimp only
  refine Mute.enqueue (Mute.trans (Mute.trans ?_ mute_setupMatch) mute_startCSMatch)
  exact hsent

theorem mute_handleJoinMatchPost : Mute x c (c.handleJoinMatchPost w s p) := by
  unfold handleJoinMatchPost pickMatch
  dsimp only
  split
  · exact Mute.of_out rfl
  · exact Mute.of_out rfl

def mutes (x : Topic) : Cmd → Bool
  | .addIcewall | .icewallTakeDamage => x != .walls
  | .battleFlagReq | .playerQuitReq => x != .flags
  | _ => true

def attaches (cmd : Cmd) : Prop := cmd = .equipAttachment ∨ cmd = .unequipAttachment

theorem mute_route (hw : attaches (cmdOf p.cmd) → w.AttachesOnly)
    (h : mutes x (cmdOf p.cmd) = true) : Mute x c (c.route w s p) := by
  unfold route
  cases hc : cmdOf p.cmd with
  | hello => exact mute_handleHello
  | reconnect => exact mute_handleHello
  | ping => exact Mute.refl.send rfl
  | joinMatchPrepare => exact Mute.ite (fun _ => Mute.refl) fun _ => Mute.refl.onSession
  | joinMatchPost => exact mute_handleJoinMatchPost
  | csPurchase => exact mute_handleCSPurchase
  | addIcewall => exact mute_handlePlaceIcewall (by simpa [mutes, hc] using h)
  | icewallTakeDamage => exact mute_handleIcewallDamage (by simpa [mutes, hc] using h)
  | takeDamage => exact mute_handleTakeDamage
  | weaponAction => exact mute_handleWeaponAction
  | stopFire => exact Mute.withMatch fun _ => mute_relay.onSession
  | startSniper => exact Mute.refl.onSession.trans mute_relay
  | stopSniper => exact Mute.refl.onSession.trans mute_relay
  | changeHeldItem => exact Mute.ite (fun _ => Mute.refl) fun _ => Mute.refl.onKit
  | equip => exact mute_handleEquip
  | pickupInventory => exact mute_handlePickup
  | dropInventory => exact mute_handleDrop
  | useInventory => exact mute_handleUseInventory
  | tryUseInventory => exact mute_handleTryUseInventory
  | emote => exact mute_handleEmote
  | battleFlagReq => exact mute_handleBattleFlagReq (by simpa [mutes, hc] using h)
  | equipAttachment => exact mute_handleAttachment (hw (Or.inl hc))
  | unequipAttachment => exact mute_handleAttachment (hw (Or.inr hc))
  | clientPos => exact mute_handleClientPos
  | playerQuitReq => exact mute_handlePlayerQuit (by simpa [mutes, hc] using h)
  | startRescue => exact Mute.ite (fun _ => Mute.refl) fun _ => Mute.withMatch fun _ => mute_startRescue
  | stopRescue => exact Mute.ite (fun _ => Mute.refl) fun _ => Mute.withMatch fun _ => mute_stopRescue
  | reloadStart => exact mute_relay
  | reloadFinish => exact mute_relay
  | projectileThrow => exact mute_relay
  | projectileExplode => exact mute_relay
  | startGrenade => exact mute_relay
  | stopGrenade => exact mute_relay
  | ack => exact Mute.refl
  | unknown => exact Mute.refl

theorem kept_sendEach {l : List Msg} {o : SessionId × Msg} (ho : o ∈ c.out) :
    o ∈ (l.foldl (fun c msg => c.send s msg) c).out := by
  induction l generalizing c with
  | nil => exact ho
  | cons msg l ih => exact ih (List.mem_append_left _ ho)

theorem kept_route {o : SessionId × Msg} (ho : o ∈ c.out) : o ∈ (c.route w s p).out := by
  have htopic : ∃ x, mutes x (cmdOf p.cmd) = true := by
    cases cmdOf p.cmd <;> first | exact ⟨.walls, rfl⟩ | exact ⟨.flags, rfl⟩
  obtain ⟨x, hx⟩ := htopic
  by_cases ha : attaches (cmdOf p.cmd)
  · have hroute : c.route w s p = c.handleAttachment w s p := by
      unfold route
      rcases ha with ha | ha <;> rw [ha]
    rw [hroute]
    exact kept_sendEach ho
  · exact (mute_route (fun h => absurd h ha) hx).kept ho

end Handlers

section Loop

variable {ph : CsPhase} {dur : Int}

theorem mute_enter : Mute x c (c.enter m ph dur) := Mute.refl.onMatch

theorem mute_initHP : Mute x c (c.initHP m) :=
  Mute.onMatch (Mute.trans Mute.refl.onMatch (Mute.foldl (fun _ _ => Mute.refl.onMatch.onSession) _))

theorem mute_runStart : Mute x c (c.runStart w m) :=
  Mute.trans (Mute.trans Mute.refl.onKit.onMatch mute_initHP) mute_enter

theorem mute_startBuyPhase : Mute x c (c.startBuyPhase w m) := Mute.refl.onMatch.trans mute_enter

theorem mute_spawnFallbackBot : Mute x c (c.spawnFallbackBot w m) :=
  (Mute.broadcastData Mute.refl.onMatch.note rfl).trans mute_bindAll

theorem mute_enterPrepare : Mute x c (c.enterPrepare w m) := by
  have hpull : Mute x c (c.onMatch m fun g => { g with pull := none }) := Mute.refl.onMatch
  unfold enterPrepare
  refine Mute.ite (fun _ => hpull.onMatch.trans mute_enter) fun _ => Mute.ite (fun _ =>
    Mute.ite (fun _ => Mute.trans ?_ mute_startBuyPhase) fun _ => hpull.trans mute_enter)
    fun _ => hpull.trans mute_startBuyPhase
  exact Mute.ite (fun _ => hpull.trans mute_spawnFallbackBot) fun _ => hpull

theorem mute_enterCancel : Mute x c (c.enterCancel m) := Mute.refl.onMatch.trans mute_enter

theorem mute_startZone : Mute x c (c.startZone w m) :=
  Mute.ite (fun _ => Mute.refl) fun _ => Mute.refl.onMatch

theorem mute_stepZone : Mute x c (c.stepZone w m) :=
  Mute.ite (fun _ => Mute.ite (fun _ => Mute.refl.onMatch) fun _ =>
    Mute.refl.onMatch.onMatch.trans (Mute.foldl (fun _ _ =>
      Mute.ite (fun _ => mute_applyDamage) fun _ => Mute.refl) _)) fun _ => Mute.refl

theorem mute_roundResult {winner : Nat} : Mute x c (w.roundFlow.roundResult c m winner) := by
  refine Mute.refl.sends (w.roundFlow.roundResult_sends c m winner) ?_
  rintro _ ⟨_, rfl⟩
  rfl

theorem mute_respawnBot : Mute x c (c.respawnBot w m) := by
  refine Mute.ite (fun _ => ?_) fun _ => Mute.refl
  obtain ⟨_, hs⟩ := w.roundFlow.respawnBot_sends c m
  refine Mute.sends Mute.refl.onMatch hs ?_
  rintro _ (⟨_, rfl⟩ | ⟨_, _, _, _, rfl⟩) <;> rfl

theorem mute_nextRound {localWon : Bool} {winner : Nat} :
    Mute x c (c.nextRound w m localWon winner) := by
  unfold nextRound
  dsimp only
  exact Mute.trans (Mute.onMatch (Mute.trans mute_roundResult.onMatch
    (Mute.foldl (fun _ _ => Mute.refl.onSession) _))) mute_enter

theorem mute_endFight : Mute x c (c.endFight w m) := by
  have hpaid : ∀ {localWon winner base first}, Mute x c
      ((((c.scoreRound m localWon).ms m).players.foldl (payRound m winner base first)
        (c.scoreRound m localWon)).onMatch m fun g => { g with firstBlood := 0 }) := by
    refine Mute.onMatch (Mute.trans ?_ (Mute.foldl (fun d p => ?_) _))
    · exact Mute.refl.onMatch
    · exact Mute.refl.onSession.onKit
  exact Mute.ite (fun _ => hpaid.onMatch.trans mute_enter) fun _ => hpaid.trans mute_nextRound

theorem mute_sendPull : Mute x c (c.sendPull m) :=
  Mute.ite (fun _ => Mute.refl) fun _ =>
    Mute.foldl (fun _ _ => Mute.refl.onMatch.broadcastData rfl) _

theorem mute_resetPlayer : Mute x c (resetPlayer c s) := Mute.refl.onSession.onKit.send rfl

theorem mute_matchEnd : Mute x c (c.matchEnd w m) := by
  have hpub : Mute x c (c.publishResult w.cfg m) :=
    Mute.ite (fun _ => Mute.of_out rfl) fun _ => Mute.refl
  refine hpub.sends (w.roundFlow.matchEnd_sends w.cfg c m) ?_
  rintro _ ⟨_, rfl⟩
  rfl

theorem mute_startFight : Mute x c (c.startFight w m) :=
  Mute.note (mute_enter.trans mute_startZone)

theorem mute_tearDown : Mute x c (c.tearDown m) :=
  Mute.ite (fun _ => Mute.refl) fun _ => Mute.refl.onMatch.note

theorem mute_sweepFrom {ps : List SessionId} : Mute x c (sweepFrom m ps c) := by
  induction ps generalizing c with
  | nil => exact Mute.refl
  | cons p ps ih =>
    refine Mute.ite (fun _ => ih) fun _ =>
      Mute.ite (fun _ => Mute.refl.onSession.trans ih) fun _ => ?_
    have hgone : Mute x c (if (c.ss p).disconnected then c
        else c.onSession p fun q => { q with disconnected := true, disconnectedAt := c.now }) :=
      Mute.ite (fun _ => Mute.refl) fun _ => Mute.refl.onSession
    exact Mute.ite (fun _ => hgone.trans mute_removePlayer) fun _ => hgone.trans ih

theorem mute_stepPlayer : Mute x c (stepPlayer c s) :=
  (mute_stepHeal.trans mute_stepEP).trans mute_stepHealChannel

theorem mute_stopLoop : Mute x c (c.stopLoop m) := Mute.of_out rfl

theorem mute_ackIfReliable : Mute x c (c.ackIfReliable s p) :=
  Mute.ite (fun _ => Mute.refl.send rfl) fun _ => Mute.refl

theorem mute_dispatch (h : (c.ss s).syncStarted ∨ cmdOf p.cmd = .ack ∨ cmdOf p.cmd = .ping) :
    Mute x c (c.dispatch w s p) := by
  have hack : Mute x c ((c.touch s).ackIfReliable s p) :=
    Mute.trans Mute.refl.onSession mute_ackIfReliable
  have hsync : (((c.touch s).ackIfReliable s p).ss s).syncStarted = (c.ss s).syncStarted := by
    unfold ackIfReliable touch
    split <;> simp [onSession, Core.send]
  unfold dispatch
  dsimp only
  split
  · exact Mute.refl.onSession
  · exact hack.send rfl
  · rw [if_pos (by rw [hsync]; exact h.resolve_right (by tauto))]
    exact hack.trans (Mute.withMatch fun m => Mute.refl.enqueue)

end Loop

end Core

end MatchServer

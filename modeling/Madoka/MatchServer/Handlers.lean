import Madoka.MatchServer.Roster

namespace MatchServer

open Lib

def glooMaxHP : Nat := 750

def glooCrackHP : Nat := 330

def glooLifetime : Int := 90000000000

def glooWallCap : Nat := 3

def wallEntityBase : Nat := 0x03000000

def wallBroken : Nat := 0

def wallCracked : Nat := 1

def wallIntact : Nat := 2

def flagEntityBase : Nat := 0x04000000

def flagLifetime : Int := 60000000000

def medkitSteps : Nat := 75

def medkitInterval : Int := 66666666

def medkitChannelTimeout : Int := 6000000000

def epInterval : Int := 250000000

def moveCoreLen : Nat := 36

def reseedMax : Nat := 12

def reseedEvery : Int := 1000000000

def wallStateForHP (hp : Nat) : Nat :=
  if hp = 0 then wallBroken else if hp ≤ glooCrackHP then wallCracked else wallIntact

def ownerWallCount (owner : Nat) (walls : List IceWall) : Nat :=
  walls.countP fun x => x.owner == owner

-- `n` times popOldestWall, with the ids of the walls it pops.
def popOldestWalls (owner : Nat) : Nat → List IceWall → List IceWall × List Nat
  | 0, walls => (walls, [])
  | n + 1, walls =>
    match walls.find? fun x => x.owner == owner with
    | none => (walls, [])
    | some oldest =>
      let (kept, ids) := popOldestWalls owner n (walls.eraseP fun x => x.owner == owner)
      (kept, oldest.id :: ids)

-- One gloo wall less, and the weapon to switch to when it was the last.
def Kit.consumeGloo (k : Kit) (uid count : Nat) : Kit × Nat :=
  if count - 1 = 0 then
    let k := (k.untrack uid).clearEquip slotBuilding
    let target := if k.isWeaponUID k.heldBeforeGloo then k.heldBeforeGloo else k.bestWeaponUID
    ({ k with
      itemOnHand := if target ≠ 0 then target else k.itemOnHand
      heldBeforeGloo := 0 }, target)
  else
    match k.clientUIDs.lookup uid with
    | some it => ({ k with clientUIDs := k.clientUIDs.insert uid { it with count := count - 1 } }, 0)
    | none => (k, 0)

def Kit.hold (k : Kit) (unique : Nat) : Kit :=
  { k with
    heldBeforeGloo :=
      if k.isGloo unique ∧ k.isWeaponUID k.itemOnHand then k.itemOnHand else k.heldBeforeGloo
    itemOnHand := unique }

namespace Core

variable (w : World) (c : Core) (s : SessionId) (m : MatchRef) (p : Packet)

def deductGloo (uid count : Nat) : Core :=
  let (k, autoSwitch) := (c.ss s).kit.consumeGloo uid count
  let c := (c.onKit s fun _ => k).send s (.dropInventoryRes uid (count - 1))
  if autoSwitch ≠ 0 then c.broadcastData m (.changeInventoryOnHand (c.entity s) autoSwitch) else c

def placeWall (req : PlaceIcewallReq) : Core :=
  let seq := ((c.ms m).wallSeq + 1) % 2 ^ 32
  let id := wallEntityBase ||| seq
  let owner := (c.ss s).entityID
  let wall : IceWall := ⟨id, id, owner, req.pos, req.rot, req.wallType, glooMaxHP, wallIntact, c.now⟩
  let walls := (c.ms m).walls ++ [wall]
  let (kept, popped) := popOldestWalls owner (ownerWallCount owner walls - glooWallCap) walls
  let c := (c.onMatch m fun g => { g with wallSeq := seq, walls := kept }).broadcastData m
    (.addIcewall wall)
  popped.foldl (fun c id => c.broadcastData m (.removeIcewall id)) c

def handlePlaceIcewall : Core :=
  match parsePlaceIcewallReq p.payload with
  | none => c
  | some req =>
    let (uid, count) := (c.ss s).kit.glooCount c.order
    if count = 0 then c
    else
      c.withMatch s fun m =>
        if w.cfg.infiniteGloo ∨ (c.ms m).settings.unlimitedAmmo then c.placeWall s m req
        else (c.deductGloo s m uid count).placeWall s m req

def damageWall (m : MatchRef) (wall : IceWall) (dmg : Nat) : Core :=
  let dmg := if dmg = 0 then 25 else dmg
  let hp := wall.hp - dmg
  if hp = 0 then
    (c.onMatch m fun g => { g with walls := g.walls.eraseP fun x => x.id == wall.id }).broadcastData m
      (.removeIcewall wall.id)
  else
    c.onMatch m fun g => { g with
      walls := g.walls.replaceF fun x =>
        if x.id = wall.id then some { wall with hp := hp, state := wallStateForHP hp } else none }

def handleIcewallDamage : Core :=
  match parseIcewallDamageReq p.payload with
  | none => c
  | some req =>
    c.withMatch s fun m =>
      match (c.ms m).walls.find? fun x => x.id == req.wallID with
      | none => c
      | some wall => c.damageWall m wall (req.damage % 65536)

-- sweepWalls, clearWalls and resyncWalls are a session's, and see the match it points at.
def sweepWalls : Core :=
  c.withMatch s fun m =>
    let stale := (c.ms m).walls.filter fun x => decide (glooLifetime ≤ c.now - x.placedAt)
    let c := c.onMatch m fun g => { g with
      walls := g.walls.filter fun x => decide (c.now - x.placedAt < glooLifetime) }
    stale.foldl (fun c x => c.broadcastData m (.removeIcewall x.id)) c

def clearWalls : Core :=
  c.withMatch s fun m =>
    let stale := (c.ms m).walls
    let c := c.onMatch m fun g => { g with walls := [] }
    stale.foldl (fun c x => c.broadcastData m (.removeIcewall x.id)) c

def resyncWalls : Core :=
  c.withMatch s fun m =>
    if (c.ms m).walls = [] then c else c.send s (.resyncIcewalls (c.ms m).walls)

def gone (owner : Nat) (fo : FlagObject) : BattleFlagEntry := ⟨owner, fo.id, false, origin, 0⟩

def handleBattleFlagReq : Core :=
  match parseBattleFlagReq p.payload with
  | none => c
  | some req =>
    c.withMatch s fun m =>
      let owner := c.entity s
      let old := ((c.ms m).flags.lookup owner).map (gone owner)
      let seq := ((c.ms m).flagSeq + 1) % 2 ^ 32
      let id := flagEntityBase ||| seq
      (c.onMatch m fun g => { g with
        flagSeq := seq
        flags := g.flags.insert owner ⟨id, c.now⟩ }).broadcastData m
        (.battleFlagSync (old.toList ++ [⟨owner, id, true, req.pos, req.configId⟩]))

def expireFlag (c : Core) (owner : Nat) : Core :=
  match (c.ms m).flags.lookup owner with
  | none => c
  | some fo =>
    if flagLifetime ≤ c.now - fo.born then
      (c.onMatch m fun g => { g with flags := g.flags.erase owner }).broadcastData m
        (.battleFlagSync [gone owner fo])
    else c

def stepFlags : Core :=
  (visit c.order (c.ms m).flags.keys).foldl (expireFlag m) c

def clearFlag (owner : Nat) : Core :=
  match (c.ms m).flags.lookup owner with
  | none => c
  | some fo =>
    (c.onMatch m fun g => { g with flags := g.flags.erase owner }).broadcastData m
      (.battleFlagSync [gone owner fo])

def clearAllFlags : Core :=
  if (c.ms m).flags.keys = [] then c
  else
    let entries := (visit c.order (c.ms m).flags.keys).filterMap fun owner =>
      ((c.ms m).flags.lookup owner).map (gone owner)
    (c.onMatch m fun g => { g with flags := ∅ }).broadcastData m (.battleFlagSync entries)

def handleTryUseInventory : Core :=
  if p.payload.length < 8 then c
  else
    let c := c.onSession s fun q => { q with healChanneling := true, healChannelStart := c.now }
    c.withMatch s fun m => c.broadcastData m (.doAction (c.entity s) true)

def endHealChannel : Core :=
  if (c.ss s).healChanneling then
    let c := c.onSession s fun q => { q with healChanneling := false }
    c.withMatch s fun m => c.broadcastData m (.doAction (c.entity s) false)
  else c

def handleUseInventory : Core :=
  match parseUseInventory p.payload with
  | none => c
  | some unique =>
    match (c.ss s).kit.clientUIDs.lookup unique with
    | none => c
    | some it =>
      let nilMatch := (c.ss s).healChanneling ∧ (c.ss s).matchRef = none
      let c := c.onKit s fun k =>
        { k with clientUIDs := k.clientUIDs.insert unique { it with count := it.count - 1 } }
      let c := c.endHealChannel s
      -- With no match the end of the channel panics before the heal is armed.
      if nilMatch ∨ it.data ≠ medkitData then c
      else c.onSession s fun q =>
        { q with healActive := true, healStart := c.now, healApplied := 0 }

def stepHeal : Core :=
  if (c.ss s).healActive then
    c.withMatch s fun m =>
      let e := (c.ss s).entityID
      let applied := (c.ss s).healApplied
      let maxHP := (c.ms m).settings.maxHP
      if (c.ms m).lifeOf e ≠ .alive then c.onSession s fun q => { q with healActive := false }
      else
        let hp := ((c.ms m).hp.lookup e).getD 0
        let want := min ((c.now - (c.ss s).healStart).tdiv medkitInterval).toNat medkitSteps
        let gained := min ((hp + (want - applied)) % 65536) maxHP
        if applied < want then
          let c := (c.onMatch m fun g => { g with hp := g.hp.insert e gained }).onSession s
            fun q => { q with healApplied := want }
          if medkitSteps ≤ want ∨ maxHP ≤ gained then
            c.onSession s fun q => { q with healActive := false }
          else c
        else if medkitSteps ≤ applied ∨ maxHP ≤ hp then
          c.onSession s fun q => { q with healActive := false }
        else c
  else c

def regen (m : MatchRef) (e hp maxHP : Nat) : Core :=
  let k := (c.ss s).kit
  let steps := (c.now - k.epLast).tdiv epInterval
  if steps ≤ 0 then c
  else
    let gain := min (steps.toNat % 65536) k.ep.val
    let gain := if maxHP < (hp + gain) % 65536 then maxHP - hp else gain
    let c := c.onKit s fun k => { k with epLast := k.epLast + steps * epInterval }
    if gain = 0 then c
    else
      (c.onMatch m fun g => { g with hp := g.hp.insert e ((hp + gain) % 65536) }).onKit s
        fun k => { k with ep := ⟨k.ep.val - gain, Nat.lt_of_le_of_lt (Nat.sub_le _ _) k.ep.isLt⟩ }

def stepEP : Core :=
  if (c.ss s).kit.ep = 0 then c
  else
    c.withMatch s fun m =>
      let e := (c.ss s).entityID
      let hp := ((c.ms m).hp.lookup e).getD 0
      let maxHP := (c.ms m).settings.maxHP
      if (c.ms m).lifeOf e ≠ .alive ∨ hp = 0 ∨ maxHP ≤ hp then
        c.onKit s fun k => { k with epLast := c.now }
      else c.regen s m e hp maxHP

def stepHealChannel : Core :=
  if (c.ss s).healChanneling then
    c.withMatch s fun m =>
      if (c.ms m).lifeOf (c.ss s).entityID ≠ .alive ∨
          medkitChannelTimeout < c.now - (c.ss s).healChannelStart then c.endHealChannel s
      else c
  else c

def relay : Core :=
  c.withMatch s fun m => c.broadcastToOthers s m (.relay p.cmd p.payload)

def handleReloadRelay : Core := c.relay s p

def handleProjectileRelay : Core := c.relay s p

def isStartFire (p : Packet) : Bool := u32le p.payload 12 == 2

def handleWeaponAction : Core :=
  if p.payload.length < 16 then c
  else if isStartFire p then
    ((((c.onSession s fun q => { q with firing := true }).relay s p).relay s p).relay s p)
  else c.relay s p

-- With no match the relay panics before the trigger is released.
def handleStopFire : Core :=
  c.withMatch s fun _ => (c.relay s p).onSession s fun q => { q with firing := false }

def handleStartSniper : Core :=
  (c.onSession s fun q => { q with sighting := true }).relay s p

def handleStopSniper : Core :=
  (c.onSession s fun q => { q with sighting := false }).relay s p

def handleEmote : Core :=
  match parseEmoteReq p.payload with
  | none => c
  | some req =>
    c.withMatch s fun m =>
      c.broadcastToOthers s m (.emote (c.entity s) req.emoteID req.effIdx req.isLooping)

def handleTakeDamage : Core :=
  match parseTakeDamage p.payload with
  | none => c
  | some req => c.withMatch s fun m => c.applyDamage w m req.victim req.attacker req.dmg req.bodyPart

def handleChangeHeldItem : Core :=
  if p.payload.length < 8 then c else c.onKit s fun k => k.hold (u32le p.payload 4)

def reseedRoster : Core :=
  let roster := (c.ms m).players
  let bot := if (c.ms m).botEntity ≠ 0 then [Msg.playerJoin (c.ms m).bot] else []
  roster.foldl (fun c recv =>
    let joins := (recv :: roster.filter fun q => decide (q ≠ recv)).map
      fun q => Msg.playerJoin (c.ss q).player
    (joins ++ bot ++ [Msg.observerJoin (c.ss recv).player.accountID (c.ss recv).entityID]).foldl
      (fun c msg => c.send recv msg) c) c

def reseedJoinBurst : Core :=
  if reseedMax ≤ (c.ms m).reseedCount then c
  else if 0 < (c.ms m).reseedCount ∧ c.now - (c.ms m).lastReseed < reseedEvery then c
  else
    let kick := !(c.ms m).wheelKicked && (c.ms m).started
    let c := (c.onMatch m fun g => { g with
      lastReseed := c.now
      reseedCount := g.reseedCount + 1
      wheelKicked := g.wheelKicked || kick }).reseedRoster m
    if kick then (c.ms m).players.foldl (fun c p => c.kickObserverWheel p) c else c

def handleClientPos : Core :=
  let b := p.payload
  if b.length < 16 then c
  else
    let c := c.onSession s fun q => { q with
      playerPos := vec3At b 4
      moveBody :=
        if 4 + moveCoreLen ≤ b.length then (b.drop 4).take moveCoreLen ++ [b.getD (4 + moveCoreLen) 0]
        else q.moveBody
      moveBase := if 45 ≤ b.length ∧ q.moveBase = 0 then u32le b 41 else q.moveBase }
    c.withMatch s fun m => c.reseedJoinBurst m

def handlePlayerQuit : Core :=
  let c := (c.onSession s fun q => { q with stopped := true }).send s .playerQuitRes
  c.withMatch s fun m => (c.clearFlag m (c.ss s).entityID).removePlayer s m

def handleStartRescue : Core :=
  if p.payload.length < 12 then c
  else c.withMatch s fun m =>
    c.startRescue m (c.ss s).entityID (u32le p.payload 0) (u64le p.payload 4)

def handleStopRescue : Core :=
  if p.payload.length < 4 then c
  else c.withMatch s fun m => c.stopRescue m (c.ss s).entityID (u32le p.payload 0)

-- The attachment handlers' file is not in the repository; they answer the sender.
def handleAttachment : Core :=
  (w.attachRes (c.ss s) p).foldl (fun c msg => c.send s msg) c

def handlePing : Core := c.send s (.ping p.payload)

def handleHello : Core :=
  let c := c.send s .helloRes
  if cmdOf p.cmd = .reconnect ∧ (c.ss s).matchRef = none then
    let c := c.onSession s fun q => { q with
      player := if q.player.accountID = 0 then fallbackPlayer else q.player
      joined := true }
    let (m, c) := c.newMatch s
    (((c.register m).setupMatch w s m).startCSMatch s).enqueue m (.resyncWalls s)
  else c

def handleJoinMatchPrepare : Core :=
  if p.payload.length < 4 then c
  else
    let declared := u32le p.payload 0
    let chunk := p.payload.drop 4
    c.onSession s fun q => { q with
      prep439 := if 0 < declared ∧ declared < chunk.length then chunk.take declared else chunk }

-- The join up to the release of the manager's lock.
def handleJoinMatchPost : Core :=
  let c := c.onSession s fun q => { q with
    player := resolvePlayer w c.now (prepareToken q.prep439 p.payload)
    joined := true }
  let ((m, fresh), c) := c.pickMatch s
  { c with admits := c.admits ++ [⟨s, m, fresh, c.loop⟩] }

def route : Core :=
  match cmdOf p.cmd with
  | .hello | .reconnect => c.handleHello w s p
  | .ack => c
  | .ping => c.handlePing s p
  | .joinMatchPrepare => c.handleJoinMatchPrepare s p
  | .joinMatchPost => c.handleJoinMatchPost w s p
  | .csPurchase => c.handleCSPurchase w s p
  | .addIcewall => c.handlePlaceIcewall w s p
  | .icewallTakeDamage => c.handleIcewallDamage s p
  | .takeDamage => c.handleTakeDamage w s p
  | .weaponAction => c.handleWeaponAction s p
  | .stopFire => c.handleStopFire s p
  | .reloadStart | .reloadFinish => c.handleReloadRelay s p
  | .projectileThrow | .projectileExplode | .startGrenade | .stopGrenade =>
    c.handleProjectileRelay s p
  | .startSniper => c.handleStartSniper s p
  | .stopSniper => c.handleStopSniper s p
  | .changeHeldItem => c.handleChangeHeldItem s p
  | .equip => c.handleEquip s p
  | .pickupInventory => c.handlePickup w s p
  | .dropInventory => c.handleDrop s p
  | .useInventory => c.handleUseInventory s p
  | .tryUseInventory => c.handleTryUseInventory s p
  | .emote => c.handleEmote s p
  | .battleFlagReq => c.handleBattleFlagReq s p
  | .equipAttachment | .unequipAttachment => c.handleAttachment w s p
  | .clientPos => c.handleClientPos s p
  | .playerQuitReq => c.handlePlayerQuit s
  | .startRescue => c.handleStartRescue s p
  | .stopRescue => c.handleStopRescue s p
  | .unknown => c

end Core

-- The parts that the handler of a command may write.
def writes : Cmd → List Part
  | .reconnect =>
    [.identity, .seat, .slots, .roster, .body, .bot, .phase, .result, .run, .registry, .posts]
  | .joinMatchPrepare => [.token]
  | .joinMatchPost => [.identity, .seat, .body, .registry, .roster, .slots]
  | .csPurchase | .pickupInventory | .dropInventory => [.kit, .ground]
  | .addIcewall => [.kit, .walls]
  | .icewallTakeDamage => [.walls]
  | .takeDamage => Core.combatParts
  | .weaponAction | .stopFire | .startSniper | .stopSniper | .tryUseInventory => [.body]
  | .changeHeldItem | .equip => [.kit]
  | .useInventory => [.kit, .body]
  | .battleFlagReq => [.flags]
  | .clientPos => [.body, .reseed]
  | .playerQuitReq => [.net, .flags, .body, .roster, .hp, .life, .knock, .deeds]
  | .startRescue | .stopRescue => [.rescues]
  | _ => []

namespace Core

variable {w : World} {c : Core} {s : SessionId} {m : MatchRef} {p : Packet}

theorem keeps_deductGloo {uid count : Nat} : Keeps [.kit] c (c.deductGloo s m uid count) := by
  unfold deductGloo
  dsimp only
  exact Frame.ite (fun _ => ((Frame.refl c).onKit (by decide)).send.broadcastData)
    fun _ => ((Frame.refl c).onKit (by decide)).send

theorem keeps_walls {walls : Match → List IceWall} {seq : Match → Nat} :
    Keeps [.walls] c (c.onMatch m fun g => { g with walls := walls g, wallSeq := seq g }) := by
  refine (Frame.refl c).onMatch fun x => ?_
  cases x <;> first | exact Or.inr fun _ => rfl | exact Or.inl (by decide)

theorem keeps_placeWall {req : PlaceIcewallReq} : Keeps [.walls] c (c.placeWall s m req) := by
  unfold placeWall
  dsimp only
  exact Frame.trans keeps_walls.broadcastData
    (Frame.foldl (fun _ _ => (Frame.refl _).broadcastData) _ _)

theorem keeps_handlePlaceIcewall : Keeps [.kit, .walls] c (c.handlePlaceIcewall w s p) := by
  unfold handlePlaceIcewall
  split
  · exact Frame.refl c
  · dsimp only
    refine Frame.ite (fun _ => Frame.refl c) fun _ => Frame.withMatch fun m => ?_
    exact Frame.ite (fun _ => keeps_placeWall.mono (by decide)) fun _ =>
      (keeps_deductGloo.mono (by decide)).trans (keeps_placeWall.mono (by decide))

theorem keeps_damageWall {wall : IceWall} {dmg : Nat} :
    Keeps [.walls] c (c.damageWall m wall dmg) :=
  Frame.ite (fun _ => keeps_walls.broadcastData) fun _ => keeps_walls

theorem keeps_handleIcewallDamage : Keeps [.walls] c (c.handleIcewallDamage s p) := by
  unfold handleIcewallDamage
  split
  · exact Frame.refl c
  · refine Frame.withMatch fun m => ?_
    split
    · exact Frame.refl c
    · exact keeps_damageWall

theorem keeps_sweepWalls : Keeps [.walls] c (c.sweepWalls s) :=
  Frame.withMatch fun _ => Frame.trans keeps_walls
    (Frame.foldl (fun _ _ => (Frame.refl _).broadcastData) _ _)

theorem keeps_clearWalls : Keeps [.walls] c (c.clearWalls s) :=
  Frame.withMatch fun _ => Frame.trans keeps_walls
    (Frame.foldl (fun _ _ => (Frame.refl _).broadcastData) _ _)

theorem keeps_resyncWalls : Keeps [] c (c.resyncWalls s) :=
  Frame.withMatch fun _ => Frame.ite (fun _ => Frame.refl c) fun _ => (Frame.refl c).send

theorem keeps_flags {flags : Match → GoMap FlagObject} {seq : Match → Nat} :
    Keeps [.flags] c (c.onMatch m fun g => { g with flags := flags g, flagSeq := seq g }) := by
  refine (Frame.refl c).onMatch fun x => ?_
  cases x <;> first | exact Or.inr fun _ => rfl | exact Or.inl (by decide)

theorem keeps_handleBattleFlagReq : Keeps [.flags] c (c.handleBattleFlagReq s p) := by
  unfold handleBattleFlagReq
  split
  · exact Frame.refl c
  · exact Frame.withMatch fun _ => keeps_flags.broadcastData

theorem keeps_stepFlags : Keeps [.flags] c (c.stepFlags m) := by
  refine Frame.foldl (fun d owner => ?_) _ _
  unfold expireFlag
  split
  · exact Frame.refl d
  · exact Frame.ite (fun _ => keeps_flags.broadcastData) fun _ => Frame.refl d

theorem keeps_clearFlag {owner : Nat} : Keeps [.flags] c (c.clearFlag m owner) := by
  unfold clearFlag
  split
  · exact Frame.refl c
  · exact keeps_flags.broadcastData

theorem keeps_clearAllFlags : Keeps [.flags] c (c.clearAllFlags m) :=
  Frame.ite (fun _ => Frame.refl c) fun _ => keeps_flags.broadcastData

theorem keeps_handleTryUseInventory : Keeps [.body] c (c.handleTryUseInventory s p) := by
  refine Frame.ite (fun _ => Frame.refl c) fun _ => ?_
  refine Frame.trans ?_ (Frame.withMatch fun _ => (Frame.refl _).broadcastData)
  refine (Frame.refl c).onSession fun x => ?_
  cases x <;> first | exact Or.inr fun _ => rfl | exact Or.inl (by decide)

theorem keeps_endHealChannel : Keeps [.body] c (c.endHealChannel s) := by
  refine Frame.ite (fun _ => ?_) fun _ => Frame.refl c
  refine Frame.trans ?_ (Frame.withMatch fun _ => (Frame.refl _).broadcastData)
  refine (Frame.refl c).onSession fun x => ?_
  cases x <;> first | exact Or.inr fun _ => rfl | exact Or.inl (by decide)

theorem keeps_handleUseInventory : Keeps [.kit, .body] c (c.handleUseInventory s p) := by
  unfold handleUseInventory
  split
  · exact Frame.refl c
  · split
    · exact Frame.refl c
    · have hend : ∀ f : Kit → Kit, Keeps [.kit, .body] c ((c.onKit s f).endHealChannel s) :=
        fun f => ((Frame.refl c).onKit (by decide)).trans (keeps_endHealChannel.mono (by decide))
      refine Frame.ite (fun _ => hend _) fun _ => (hend _).onSession fun x => ?_
      cases x <;> first | exact Or.inr fun _ => rfl | exact Or.inl (by decide)

theorem keeps_healActive {on : Bool} :
    Keeps [.body] c (c.onSession s fun q => { q with healActive := on }) := by
  refine (Frame.refl c).onSession fun x => ?_
  cases x <;> first | exact Or.inr fun _ => rfl | exact Or.inl (by decide)

theorem keeps_healApplied {want : Nat} :
    Keeps [.body] c (c.onSession s fun q => { q with healApplied := want }) := by
  refine (Frame.refl c).onSession fun x => ?_
  cases x <;> first | exact Or.inr fun _ => rfl | exact Or.inl (by decide)

theorem keeps_stepHeal : Keeps [.body, .hp] c (c.stepHeal s) := by
  have hstop : ∀ {d : Core}, Keeps [.body, .hp] d
      (d.onSession s fun q => { q with healActive := false }) := keeps_healActive.mono (by decide)
  refine Frame.ite (fun _ => Frame.withMatch fun m => ?_) fun _ => Frame.refl c
  refine Frame.ite (fun _ => hstop) fun _ => Frame.ite (fun _ => ?_)
    fun _ => Frame.ite (fun _ => hstop) fun _ => Frame.refl c
  have hstep : ∀ (hp : GoMap Nat → GoMap Nat) (want : Nat), Keeps [.body, .hp] c ((c.onMatch m fun g =>
      { g with hp := hp g.hp }).onSession s fun q => { q with healApplied := want }) := by
    intro hp want
    refine Frame.trans ((Frame.refl c).onMatch fun x => ?_) (keeps_healApplied.mono (by decide))
    cases x <;> first | exact Or.inr fun _ => rfl | exact Or.inl (by decide)
  exact Frame.ite (fun _ => (hstep (fun hp => hp.insert _ _) _).trans hstop)
    fun _ => hstep (fun hp => hp.insert _ _) _

theorem keeps_regen {e hp maxHP : Nat} : Keeps [.hp, .kit] c (c.regen s m e hp maxHP) := by
  unfold regen
  refine Frame.ite (fun _ => Frame.refl c) fun _ => ?_
  dsimp only
  refine Frame.ite (fun _ => (Frame.refl c).onKit (by decide)) fun _ => ?_
  refine Frame.onKit (Frame.onMatch ((Frame.refl c).onKit (by decide)) fun x => ?_) (by decide)
  cases x <;> first | exact Or.inr fun _ => rfl | exact Or.inl (by decide)

theorem keeps_stepEP : Keeps [.hp, .kit] c (c.stepEP s) :=
  Frame.ite (fun _ => Frame.refl c) fun _ => Frame.withMatch fun _ =>
    Frame.ite (fun _ => (Frame.refl c).onKit (by decide)) fun _ => keeps_regen

theorem keeps_stepHealChannel : Keeps [.body] c (c.stepHealChannel s) :=
  Frame.ite (fun _ => Frame.withMatch fun _ =>
    Frame.ite (fun _ => keeps_endHealChannel) fun _ => Frame.refl c) fun _ => Frame.refl c

theorem keeps_relay : Keeps [] c (c.relay s p) :=
  Frame.withMatch fun _ => (Frame.refl c).broadcastToOthers

theorem keeps_handleWeaponAction : Keeps [.body] c (c.handleWeaponAction s p) := by
  have hrelay : ∀ d : Core, Keeps [.body] d (d.relay s p) := fun d => keeps_relay.mono (by decide)
  refine Frame.ite (fun _ => Frame.refl c) fun _ => Frame.ite (fun _ => ?_) fun _ => hrelay c
  refine Frame.trans (Frame.trans (Frame.trans ?_ (hrelay _)) (hrelay _)) (hrelay _)
  refine (Frame.refl c).onSession fun x => ?_
  cases x <;> first | exact Or.inr fun _ => rfl | exact Or.inl (by decide)

theorem keeps_handleStopFire : Keeps [.body] c (c.handleStopFire s p) := by
  refine Frame.withMatch fun _ => Frame.onSession (keeps_relay.mono (by decide)) fun x => ?_
  cases x <;> first | exact Or.inr fun _ => rfl | exact Or.inl (by decide)

theorem keeps_handleStartSniper : Keeps [.body] c (c.handleStartSniper s p) := by
  refine Frame.trans ?_ (keeps_relay.mono (by decide))
  refine (Frame.refl c).onSession fun x => ?_
  cases x <;> first | exact Or.inr fun _ => rfl | exact Or.inl (by decide)

theorem keeps_handleStopSniper : Keeps [.body] c (c.handleStopSniper s p) := by
  refine Frame.trans ?_ (keeps_relay.mono (by decide))
  refine (Frame.refl c).onSession fun x => ?_
  cases x <;> first | exact Or.inr fun _ => rfl | exact Or.inl (by decide)

theorem keeps_handleEmote : Keeps [] c (c.handleEmote s p) := by
  unfold handleEmote
  split
  · exact Frame.refl c
  · exact Frame.withMatch fun _ => (Frame.refl c).broadcastToOthers

theorem keeps_handleTakeDamage : Keeps combatParts c (c.handleTakeDamage w s p) := by
  unfold handleTakeDamage
  split
  · exact Frame.refl c
  · exact Frame.withMatch fun _ => keeps_applyDamage

theorem keeps_handleChangeHeldItem : Keeps [.kit] c (c.handleChangeHeldItem s p) :=
  Frame.ite (fun _ => Frame.refl c) fun _ => (Frame.refl c).onKit (by decide)

theorem keeps_reseedRoster : Keeps [] c (c.reseedRoster m) :=
  Frame.foldl (fun _ _ => Frame.foldl (fun _ _ => (Frame.refl _).send) _ _) _ _

theorem keeps_reseedJoinBurst : Keeps [.reseed] c (c.reseedJoinBurst m) := by
  refine Frame.ite (fun _ => Frame.refl c) fun _ => Frame.ite (fun _ => Frame.refl c) fun _ => ?_
  have hroster : ∀ kick, Keeps [.reseed] c ((c.onMatch m fun g => { g with
      lastReseed := c.now
      reseedCount := g.reseedCount + 1
      wheelKicked := g.wheelKicked || kick }).reseedRoster m) := by
    intro kick
    refine Frame.trans ((Frame.refl c).onMatch fun x => ?_) (keeps_reseedRoster.mono (by decide))
    cases x <;> first | exact Or.inr fun _ => rfl | exact Or.inl (by decide)
  exact Frame.ite (fun _ => (hroster _).trans
    (Frame.foldl (fun _ _ => keeps_kickObserverWheel.mono (by decide)) _ _)) fun _ => hroster _

theorem keeps_handleClientPos : Keeps [.body, .reseed] c (c.handleClientPos s p) := by
  refine Frame.ite (fun _ => Frame.refl c) fun _ => ?_
  refine Frame.trans ?_ (Frame.withMatch fun _ => keeps_reseedJoinBurst.mono (by decide))
  refine (Frame.refl c).onSession fun x => ?_
  cases x <;> first | exact Or.inr fun _ => rfl | exact Or.inl (by decide)

theorem keeps_handlePlayerQuit :
    Keeps [.net, .flags, .body, .roster, .hp, .life, .knock, .deeds] c (c.handlePlayerQuit s) := by
  refine Frame.trans (Frame.send ?_) (Frame.withMatch fun _ =>
    (keeps_clearFlag.mono (by decide)).trans (keeps_removePlayer.mono (by decide)))
  refine (Frame.refl c).onSession fun x => ?_
  cases x <;> first | exact Or.inr fun _ => rfl | exact Or.inl (by decide)

theorem keeps_handleStartRescue : Keeps [.rescues] c (c.handleStartRescue s p) :=
  Frame.ite (fun _ => Frame.refl c) fun _ => Frame.withMatch fun _ => keeps_startRescue

theorem keeps_handleStopRescue : Keeps [.rescues] c (c.handleStopRescue s p) :=
  Frame.ite (fun _ => Frame.refl c) fun _ => Frame.withMatch fun _ => keeps_stopRescue

theorem keeps_handleAttachment : Keeps [] c (c.handleAttachment w s p) :=
  Frame.foldl (fun _ _ => (Frame.refl _).send) _ _

theorem keeps_hello (h : cmdOf p.cmd = .hello) : Keeps [] c (c.handleHello w s p) := by
  unfold handleHello
  rw [h]
  exact (Frame.refl c).send

theorem keeps_handleHello :
    Keeps [.identity, .seat, .slots, .roster, .body, .bot, .phase, .result, .run, .registry, .posts] c
      (c.handleHello w s p) := by
  unfold handleHello
  refine Frame.ite (fun _ => ?_) fun _ => (Frame.refl c).send
  dsimp only
  refine Frame.enqueue (Frame.trans (Frame.trans (Frame.trans (Frame.trans ?_
    (keeps_newMatch.mono (by decide))) (keeps_register.mono (by decide)))
    (keeps_setupMatch.mono (by decide))) (keeps_startCSMatch.mono (by decide))) (by decide)
  refine (Frame.refl c).send.onSession fun x => ?_
  cases x
  case seat => exact Or.inl (by decide)
  case body => exact Or.inl (by decide)
  case identity => exact Or.inl (by decide)
  all_goals exact Or.inr fun _ => rfl

theorem keeps_handleJoinMatchPrepare : Keeps [.token] c (c.handleJoinMatchPrepare s p) := by
  refine Frame.ite (fun _ => Frame.refl c) fun _ => ?_
  refine (Frame.refl c).onSession fun x => ?_
  cases x <;> first | exact Or.inr fun _ => rfl | exact Or.inl (by decide)

theorem keeps_handleJoinMatchPost :
    Keeps [.identity, .seat, .body, .registry, .roster, .slots] c
      (c.handleJoinMatchPost w s p) := by
  unfold handleJoinMatchPost
  dsimp only
  refine Frame.trans (Frame.trans ?_ (keeps_pickMatch.mono (by decide)))
    (keeps_registry.mono (by decide))
  refine (Frame.refl c).onSession fun x => ?_
  cases x
  case seat => exact Or.inl (by decide)
  case body => exact Or.inl (by decide)
  case identity => exact Or.inl (by decide)
  all_goals exact Or.inr fun _ => rfl

theorem keeps_route : Keeps (writes (cmdOf p.cmd)) c (c.route w s p) := by
  unfold route
  cases hc : cmdOf p.cmd with
  | hello => exact keeps_hello hc
  | reconnect => exact keeps_handleHello
  | ping => exact (Frame.refl c).send
  | joinMatchPrepare => exact keeps_handleJoinMatchPrepare
  | joinMatchPost => exact keeps_handleJoinMatchPost
  | csPurchase => exact keeps_handleCSPurchase
  | addIcewall => exact keeps_handlePlaceIcewall
  | icewallTakeDamage => exact keeps_handleIcewallDamage
  | takeDamage => exact keeps_handleTakeDamage
  | weaponAction => exact keeps_handleWeaponAction
  | stopFire => exact keeps_handleStopFire
  | startSniper => exact keeps_handleStartSniper
  | stopSniper => exact keeps_handleStopSniper
  | changeHeldItem => exact keeps_handleChangeHeldItem
  | equip => exact keeps_handleEquip
  | pickupInventory => exact keeps_handlePickup
  | dropInventory => exact keeps_handleDrop
  | useInventory => exact keeps_handleUseInventory
  | tryUseInventory => exact keeps_handleTryUseInventory
  | emote => exact keeps_handleEmote
  | battleFlagReq => exact keeps_handleBattleFlagReq
  | equipAttachment => exact keeps_handleAttachment
  | unequipAttachment => exact keeps_handleAttachment
  | clientPos => exact keeps_handleClientPos
  | playerQuitReq => exact keeps_handlePlayerQuit
  | startRescue => exact keeps_handleStartRescue
  | stopRescue => exact keeps_handleStopRescue
  | reloadStart => exact keeps_relay
  | reloadFinish => exact keeps_relay
  | projectileThrow => exact keeps_relay
  | projectileExplode => exact keeps_relay
  | startGrenade => exact keeps_relay
  | stopGrenade => exact keeps_relay
  | ack => exact Frame.refl c
  | unknown => exact Frame.refl c

end Core

end MatchServer

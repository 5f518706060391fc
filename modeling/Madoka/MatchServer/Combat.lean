import Madoka.MatchServer.Footprint
import Madoka.MatchServer.Kit

namespace MatchServer

open Lib

def localTeamID : Nat := 1

def enemyTeamID : Nat := 2

def botEntityID : Nat := 0x02000002

def bodyHead : Nat := 1

def bodyChest : Nat := 2

def killCauseDamageZone : Int := -20

def knockdownHP : Nat := 200

def knockBleedAmt : Nat := 10

def knockBleedEvery : Int := 1500000000

def reviveHP : Nat := 20

def reviveDuration : Int := 4000000000

def reviveDurationMs : Nat := 4000

-- The team is the high byte of an entity id.
def teamOf (entity : Nat) : Nat := entity / 2 ^ 24 % 256

def otherTeam (team : Nat) : Nat := (259 - team) % 256

def incr (counts : GoMap Nat) (entity by_ modulus : Nat) : GoMap Nat :=
  counts.insert entity (((counts.lookup entity).getD 0 + by_) % modulus)

def Match.lifeOf (g : Match) (entity : Nat) : LifeState := (g.life.lookup entity).getD .alive

namespace Core

variable (w : World) (c : Core) (s : SessionId) (m : MatchRef)

def sessionByEntity (entity : Nat) : Option SessionId :=
  (c.ms m).players.find? fun p => (c.ss p).entityID == entity

def teamSize (team : Nat) : Nat :=
  ((c.ms m).players.countP fun p => (c.ss p).team == team) +
    if team = enemyTeamID ∧ (c.ms m).botEntity ≠ 0 then 1 else 0

def teamAlive (team : Nat) : Nat :=
  ((c.ms m).players.countP fun p =>
    (c.ss p).team == team && (c.ms m).lifeOf (c.ss p).entityID == .alive) +
    if team = enemyTeamID ∧ (c.ms m).botEntity ≠ 0 ∧
      (c.ms m).lifeOf (c.ms m).botEntity = .alive then 1 else 0

def tally : Core := c.note m (.standing (c.teamAlive m localTeamID) (c.teamAlive m enemyTeamID))

def resolveKillWeapon (killer : Nat) : Int × Int :=
  if killer = 0 then (killCauseDamageZone, 0)
  else
    match c.sessionByEntity m killer with
    | some k =>
      let held := (c.ss k).kit.heldWeaponData
      let data := if held = 0 then 1 else held
      (signed 32 data, signed 32 (w.skinForWeapon data (c.ss k).player.cosmetics.slots))
    | none => (1, 0)

def deathPos (entity : Nat) : Vec3 :=
  if (c.ms m).botEntity ≠ 0 ∧ entity = (c.ms m).botEntity then (c.ms m).bot.spawnPos
  else
    match c.sessionByEntity m entity with
    | some v =>
      if (c.ss v).playerPos ≠ origin then (c.ss v).playerPos else (c.ss v).player.spawnPos
    | none => origin

def spectatorsOf (entity : Nat) : List SessionId :=
  (c.ms m).players.filter fun p => (c.ss p).observing == entity

def firstAlive (team except : Nat) : Nat :=
  match (c.ms m).players.find? fun p => (c.ss p).entityID != except && (c.ss p).team == team &&
      (c.ms m).lifeOf (c.ss p).entityID == .alive with
  | some p => (c.ss p).entityID
  | none =>
    if team = enemyTeamID ∧ (c.ms m).botEntity ≠ 0 ∧ (c.ms m).botEntity ≠ except ∧
      (c.ms m).lifeOf (c.ms m).botEntity = .alive then (c.ms m).botEntity
    else 0

def spectateFor (victim : Nat) : Nat :=
  let e := c.firstAlive m (teamOf victim) victim
  if e ≠ 0 then e else c.firstAlive m (otherTeam (teamOf victim)) victim

def deadHumans : List SessionId :=
  (c.ms m).players.filter fun p => (c.ms m).lifeOf (c.ss p).entityID != .alive

def resendEquipTo (target : SessionId) : Core :=
  (c.ss s).kit.equipment.foldl (fun c e =>
    if e.unique = 0 then c
    else c.send target (.equipmentChanged (c.ss s).player.entityID e.slot 0 e.unique e.data
      ((c.ss s).kit.slotRuntime e.slot))) c

def repointSpectator (prefer : Nat) (c : Core) (sp : SessionId) : Core :=
  let target :=
    if prefer = 0 ∨ (c.ms m).lifeOf prefer ≠ .alive then c.spectateFor m (c.ss sp).entityID
    else prefer
  let c := c.onSession sp fun p => { p with observing := target }
  if target ≠ 0 then c.send sp (.switchObserve target) else c

def repointSpectators (gone prefer : Nat) : Core :=
  (c.spectatorsOf m gone).foldl (repointSpectator m prefer) c

-- The dead client watches `observe`, which shows it that player's equipment again.
def watch (victim observe : Nat) : Core :=
  match c.sessionByEntity m victim with
  | some spectator =>
    let c := c.onSession spectator fun p => { p with observing := observe }
    match c.sessionByEntity m observe with
    | some watched => c.resendEquipTo watched spectator
    | none => c
  | none => c

def emitDeath (victim killer : Nat) (weapon skin : Int) (observe bodyPart : Nat) (pos : Vec3)
    (system pendingRevive : Bool) : Core :=
  let c := c.broadcastData m
    (.playerDead victim killer weapon skin observe bodyPart pos system pendingRevive)
  if observe ≠ 0 then (c.watch m victim observe).repointSpectators m victim observe else c

def creditDeath (victim killer : Nat) : Core :=
  let c := c.onMatch m fun g => { g with deaths := incr g.deaths victim 1 65536 }
  let c := c.note m (.died victim killer)
  if killer ≠ 0 ∧ teamOf killer ≠ teamOf victim then
    let c := c.onMatch m fun g => { g with
      kills := incr g.kills killer 1 65536
      firstBlood := if g.firstBlood = 0 then killer else g.firstBlood }
    let c := c.note m (.killed victim killer (c.sessionByEntity m killer))
    match c.sessionByEntity m killer with
    | some k => c.onSession k fun p => { p with roundKills := (p.roundKills + 1) % 2 ^ 32 }
    | none => c
  else c

def finalizeKnock (entity : Nat) (ks : KnockState) : Core :=
  let c := c.creditDeath m entity ks.killer
  let c := c.onMatch m fun g => { g with
    life := g.life.insert entity .dead
    hp := g.hp.insert entity 0
    knock := g.knock.erase entity
    rescues := g.rescues.erase entity }
  let c := c.tally m
  let pendingRevive := (c.sessionByEntity m entity).isSome
  let observe := if pendingRevive then c.spectateFor m entity else 0
  c.emitDeath m entity ks.killer ks.weapon ks.weaponSkin observe ks.bodyPart ks.pos false
    pendingRevive

def finalizeFallen (team : Nat) (c : Core) (entity : Nat) : Core :=
  match (c.ms m).knock.lookup entity with
  | some ks =>
    if teamOf entity = team ∧ (c.ms m).lifeOf entity = .knocked then c.finalizeKnock m entity ks
    else c
  | none => c

def teamFellToZero (team : Nat) : Core :=
  let c := (visit c.order (c.ms m).knock.keys).foldl (finalizeFallen m team) c
  c.onMatch m fun g => { g with lastTeamFell := team }

def knockPlayer (victim attacker bodyPart : Nat) : Core :=
  let (weapon, skin) := c.resolveKillWeapon w m attacker
  let ks : KnockState := ⟨knockdownHP, c.now + knockBleedEvery, attacker, weapon, skin, bodyPart,
    c.deathPos m victim⟩
  let c := c.onMatch m fun g => { g with
    life := g.life.insert victim .knocked
    knock := g.knock.insert victim ks
    hp := g.hp.insert victim knockdownHP }
  let c := c.tally m
  c.broadcastData m (.knockDown victim attacker weapon skin bodyPart (bodyPart == 1))

def killEntity (victim killer bodyPart : Nat) : Core :=
  let c := c.creditDeath m victim killer
  let (weapon, skin) := c.resolveKillWeapon w m killer
  let c := c.onMatch m fun g => { g with
    life := g.life.insert victim .dead
    hp := g.hp.insert victim 0 }
  let c := c.tally m
  let pendingRevive := (c.sessionByEntity m victim).isSome
  let observe := if pendingRevive then c.spectateFor m victim else 0
  c.emitDeath m victim killer weapon skin observe bodyPart (c.deathPos m victim) false pendingRevive

def downOrKill (victim attacker bodyPart : Nat) : Core :=
  let c := c.note m (.struck victim attacker)
  let team := teamOf victim
  if c.teamSize m team ≤ 1 then c.killEntity w m victim attacker bodyPart
  else
    let c := c.knockPlayer w m victim attacker bodyPart
    if c.teamAlive m team = 0 then c.teamFellToZero m team else c

def creditDamage (victim attacker dmg : Nat) : Core :=
  if attacker ≠ 0 ∧ teamOf attacker ≠ teamOf victim then
    (c.onMatch m fun g => { g with damage := incr g.damage attacker dmg (2 ^ 32) }).note m
      (.hurt attacker victim dmg)
  else c

def damageKnocked (victim attacker dmg : Nat) : Core :=
  match (c.ms m).knock.lookup victim with
  | none => c
  | some ks =>
    let c := c.creditDamage m victim attacker dmg
    if ks.hp ≤ dmg then
      (c.onMatch m fun g => { g with hp := g.hp.insert victim 0 }).finalizeKnock m victim ks
    else
      c.onMatch m fun g => { g with
        knock := g.knock.insert victim { ks with hp := ks.hp - dmg }
        hp := g.hp.insert victim (ks.hp - dmg) }

def syncArmor (slot : Nat) : Core :=
  let k := (c.ss s).kit
  let entity := (c.ss s).player.entityID
  match k.equipAt slot with
  | none => c
  | some e =>
    let dur := k.slotRuntime slot
    if dur = 0 then
      ((c.onKit s fun k => (k.clearEquip slot).untrack e.unique).send s
        (.equipmentChanged entity slot e.unique 0 0 0)).send s
        (.removeInventoryList entity [e.unique])
    else
      let newUID := k.nextUID
      let it : InvItem := ⟨newUID, e.data, 1, dur⟩
      let c := c.onKit s fun k =>
        ((k.withUID.untrack e.unique).trackItem it).setEquip slot e.data newUID
      let c := ((c.send s (.syncInventory entity [it] [] [] k.itemOnHand)).send s
        (.equipmentChanged entity slot e.unique newUID e.data dur)).send s
        (.removeInventoryList entity [e.unique])
      if k.itemOnHand ≠ 0 ∧ ¬ k.isWeaponUID k.itemOnHand then
        c.send s (.changeInventoryOnHand entity k.itemOnHand)
      else c

def wearArmor (bodyPart netDmg : Nat) : Core :=
  if bodyPart = bodyHead then
    if 0 < (c.ss s).kit.helmetDur then
      (c.onKit s fun k => k.wearHelmet netDmg).syncArmor s slotHelmet
    else c
  else if bodyPart = bodyChest then
    if 0 < (c.ss s).kit.vestDur then (c.onKit s fun k => k.wearVest netDmg).syncArmor s slotVest
    else c
  else c

def sendAll (c : Core) (to_ : List SessionId) (msg : Msg) : Core :=
  to_.foldl (fun c p => c.send p msg) c

-- cmd 168 to the shooter and to whoever watches the shooter.
def showDamage (victim attacker dmg bodyPart : Nat) : Core :=
  if attacker ≠ 0 ∧ teamOf attacker ≠ teamOf victim then
    c.sendAll ((c.sessionByEntity m attacker).toList ++ c.spectatorsOf m attacker)
      (.showDamage attacker victim dmg (c.resolveKillWeapon w m attacker).1 (bodyPart == bodyHead))
  else c

-- cmd 106 to the victim, whose armour wears, and to whoever watches the victim.
def hurtVictim (victim attacker dmg bodyPart : Nat) : Core :=
  let msg := Msg.takeDamage victim attacker (c.resolveKillWeapon w m attacker).1 dmg bodyPart
  match c.sessionByEntity m victim with
  | some v => ((c.wearArmor v bodyPart dmg).send v msg).sendAll (c.spectatorsOf m victim) msg
  | none => c.sendAll (c.spectatorsOf m victim) msg

def reportHit (victim attacker dmg bodyPart : Nat) : Core :=
  ((c.showDamage w m victim attacker dmg bodyPart).hurtVictim w m victim attacker dmg
    bodyPart).broadcastData m (.hurtAnim victim (if attacker = 0 then victim else attacker))

def applyDamage (victim attacker dmg bodyPart : Nat) : Core :=
  if (c.ms m).roundOver then c
  else
    match (c.ms m).lifeOf victim with
    | .knocked => c.damageKnocked m victim attacker dmg
    | .dead => c
    | .alive =>
      match (c.ms m).hp.lookup victim with
      | none => c
      | some cur =>
        if cur = 0 then c
        else
          let left := if cur ≤ dmg then 0 else cur - dmg
          let c := c.onMatch m fun g => { g with hp := g.hp.insert victim left }
          let c := (c.creditDamage m victim attacker dmg).reportHit w m victim attacker dmg bodyPart
          if left = 0 then c.downOrKill w m victim attacker bodyPart else c

def bleed (c : Core) (entity : Nat) : Core :=
  match (c.ms m).knock.lookup entity with
  | none => c
  | some ks =>
    if c.now < ks.deadline then c
    else if ks.hp ≤ knockBleedAmt then c.finalizeKnock m entity ks
    else
      c.onMatch m fun g => { g with
        knock := g.knock.insert entity
          { ks with deadline := ks.deadline + knockBleedEvery, hp := ks.hp - knockBleedAmt }
        hp := g.hp.insert entity (ks.hp - knockBleedAmt) }

def stepKnock : Core :=
  (visit c.order (c.ms m).knock.keys).foldl (bleed m) c

def revivePlayer (c : Core) (p : SessionId) : Core :=
  (c.onMatch m fun g => { g with
    life := g.life.insert (c.ss p).entityID .alive
    hp := g.hp.insert (c.ss p).entityID g.settings.maxHP }).onSession p
    fun q => { q with observing := 0 }

def reviveAll : Core :=
  let c := (c.ms m).players.foldl (revivePlayer m) c
  c.onMatch m fun g => { g with
    life := if g.botEntity ≠ 0 then g.life.insert g.botEntity .alive else g.life
    hp := if g.botEntity ≠ 0 then g.hp.insert g.botEntity g.settings.maxHP else g.hp
    knock := ∅
    rescues := ∅
    roundOver := false
    deeds := g.deeds ++ [.reset] }

def respawnPlayer (c : Core) (p : SessionId) : Core :=
  (c.onSession p fun q => { q with observing := 0 }).broadcastData m
    (.notifyRevive (c.ss p).entityID (c.ss p).player.spawnPos)

def startRescue (reviver target startMs : Nat) : Core :=
  if (c.ms m).lifeOf target ≠ .knocked ∨ (c.ms m).lifeOf reviver ≠ .alive ∨
      teamOf reviver ≠ teamOf target then c
  else if ((c.ms m).rescues.lookup target).isSome then c
  else
    (c.onMatch m fun g => { g with
      rescues := g.rescues.insert target ⟨reviver, target, startMs, c.now + reviveDuration⟩ }).broadcastData
      m (.rescueProgress reviver target startMs ((startMs + reviveDurationMs) % 2 ^ 64))

def stopRescue (reviver target : Nat) : Core :=
  match (c.ms m).rescues.lookup target with
  | some r =>
    if r.reviver = reviver then
      c.onMatch m fun g => { g with rescues := g.rescues.erase target }
    else c
  | none => c

def completeRescue (r : RescueState) : Core :=
  let c := c.onMatch m fun g => { g with
    life := g.life.insert r.target .alive
    hp := g.hp.insert r.target reviveHP
    knock := g.knock.erase r.target }
  ((c.note m (.rescued r.target r.reviver)).tally m).broadcastData m
    (.knockRevive r.target r.reviver)

def rescueTick (c : Core) (target : Nat) : Core :=
  match (c.ms m).rescues.lookup target with
  | none => c
  | some r =>
    if (c.ms m).lifeOf target ≠ .knocked ∨ (c.ms m).lifeOf r.reviver ≠ .alive then
      c.onMatch m fun g => { g with rescues := g.rescues.erase target }
    else if c.now < r.completeAt then c
    else (c.onMatch m fun g => { g with rescues := g.rescues.erase target }).completeRescue m r

def stepRescue : Core :=
  (visit c.order (c.ms m).rescues.keys).foldl (rescueTick m) c

variable {w : World} {c : Core} {s : SessionId} {m : MatchRef}

theorem keeps_resendEquipTo {target : SessionId} : Keeps [] c (c.resendEquipTo s target) :=
  Frame.foldl (fun _ _ => Frame.ite (fun _ => Frame.refl _) fun _ => (Frame.refl _).send) _ _

theorem keeps_observing {e : Nat} :
    Keeps [.body] c (c.onSession s fun p => { p with observing := e }) := by
  refine (Frame.refl c).onSession fun x => ?_
  cases x <;> first | exact Or.inr fun _ => rfl | exact Or.inl (by decide)

theorem keeps_repointSpectator {prefer : Nat} {sp : SessionId} :
    Keeps [.body] c (repointSpectator m prefer c sp) :=
  Frame.ite (fun _ => keeps_observing.send) fun _ => keeps_observing

theorem keeps_repointSpectators {gone prefer : Nat} :
    Keeps [.body] c (c.repointSpectators m gone prefer) :=
  Frame.foldl (fun _ _ => keeps_repointSpectator) _ _

theorem keeps_watch {victim observe : Nat} : Keeps [.body] c (c.watch m victim observe) := by
  unfold watch
  split
  · dsimp only
    split
    · exact keeps_observing.trans (keeps_resendEquipTo.mono (by decide))
    · exact keeps_observing
  · exact Frame.refl c

theorem keeps_emitDeath {victim killer observe bodyPart : Nat} {weapon skin : Int} {pos : Vec3}
    {system pending : Bool} : Keeps [.body] c
      (c.emitDeath m victim killer weapon skin observe bodyPart pos system pending) :=
  Frame.ite
    (fun _ => ((Frame.refl c).broadcastData.trans keeps_watch).trans keeps_repointSpectators)
    fun _ => (Frame.refl c).broadcastData

theorem keeps_tally : Keeps [.deeds] c (c.tally m) := (Frame.refl c).note (by decide)

theorem keeps_creditDeath {victim killer : Nat} :
    Keeps [.score, .roundKills, .deeds] c (c.creditDeath m victim killer) := by
  have hd : Keeps [.score, .roundKills, .deeds] c ((c.onMatch m fun g => { g with
      deaths := incr g.deaths victim 1 65536 }).note m (.died victim killer)) := by
    refine Frame.note ((Frame.refl c).onMatch fun x => ?_) (by decide)
    cases x <;> first | exact Or.inr fun _ => rfl | exact Or.inl (by decide)
  unfold creditDeath
  refine Frame.ite (fun _ => ?_) fun _ => hd
  dsimp only
  have hk : Keeps [.score, .roundKills, .deeds] c (((c.onMatch m fun g => { g with
      deaths := incr g.deaths victim 1 65536 }).note m (.died victim killer)).onMatch m
      fun g => { g with
        kills := incr g.kills killer 1 65536
        firstBlood := if g.firstBlood = 0 then killer else g.firstBlood }) := by
    refine hd.onMatch fun x => ?_
    cases x <;> first | exact Or.inr fun _ => rfl | exact Or.inl (by decide)
  split
  · refine (hk.note (by decide)).onSession fun x => ?_
    cases x <;> first | exact Or.inr fun _ => rfl | exact Or.inl (by decide)
  · exact hk.note (by decide)

theorem keeps_finalizeKnock {entity : Nat} {ks : KnockState} :
    Keeps [.score, .roundKills, .life, .hp, .knock, .rescues, .body, .deeds] c
      (c.finalizeKnock m entity ks) := by
  refine Frame.trans ?_ (keeps_emitDeath.mono (by decide))
  refine Frame.note (Frame.onMatch (keeps_creditDeath.mono (by decide)) fun x => ?_) (by decide)
  cases x <;> first | exact Or.inr fun _ => rfl | exact Or.inl (by decide)

theorem keeps_teamFellToZero {team : Nat} :
    Keeps [.score, .roundKills, .life, .hp, .knock, .rescues, .body, .deeds, .fell] c
      (c.teamFellToZero m team) := by
  have hfold : Keeps [.score, .roundKills, .life, .hp, .knock, .rescues, .body, .deeds] c
      ((visit c.order (c.ms m).knock.keys).foldl (finalizeFallen m team) c) := by
    refine Frame.foldl (fun d e => ?_) _ _
    unfold finalizeFallen
    split
    · exact Frame.ite (fun _ => keeps_finalizeKnock) fun _ => Frame.refl d
    · exact Frame.refl d
  unfold teamFellToZero
  refine (hfold.mono (by decide)).onMatch fun x => ?_
  cases x <;> first | exact Or.inr fun _ => rfl | exact Or.inl (by decide)

theorem keeps_knockPlayer {victim attacker bodyPart : Nat} :
    Keeps [.life, .knock, .hp, .deeds] c (c.knockPlayer w m victim attacker bodyPart) := by
  refine Frame.broadcastData (Frame.note ?_ (by decide))
  refine (Frame.refl c).onMatch fun x => ?_
  cases x <;> first | exact Or.inr fun _ => rfl | exact Or.inl (by decide)

theorem keeps_killEntity {victim killer bodyPart : Nat} :
    Keeps [.score, .roundKills, .life, .hp, .body, .deeds] c
      (c.killEntity w m victim killer bodyPart) := by
  refine Frame.trans ?_ (keeps_emitDeath.mono (by decide))
  refine Frame.note (Frame.onMatch (keeps_creditDeath.mono (by decide)) fun x => ?_) (by decide)
  cases x <;> first | exact Or.inr fun _ => rfl | exact Or.inl (by decide)

theorem keeps_downOrKill {victim attacker bodyPart : Nat} :
    Keeps [.score, .roundKills, .life, .hp, .knock, .rescues, .body, .deeds, .fell] c
      (c.downOrKill w m victim attacker bodyPart) := by
  have hstruck : Keeps [.score, .roundKills, .life, .hp, .knock, .rescues, .body, .deeds, .fell] c
      (c.note m (.struck victim attacker)) := (Frame.refl c).note (by decide)
  refine hstruck.trans ?_
  exact Frame.ite (fun _ => keeps_killEntity.mono (by decide)) fun _ =>
    Frame.ite (fun _ => (keeps_knockPlayer.mono (by decide)).trans keeps_teamFellToZero)
      fun _ => keeps_knockPlayer.mono (by decide)

theorem keeps_creditDamage {victim attacker dmg : Nat} :
    Keeps [.score, .deeds] c (c.creditDamage m victim attacker dmg) := by
  refine Frame.ite (fun _ => ?_) fun _ => Frame.refl c
  refine Frame.note ((Frame.refl c).onMatch fun x => ?_) (by decide)
  cases x <;> first | exact Or.inr fun _ => rfl | exact Or.inl (by decide)

theorem keeps_damageKnocked {victim attacker dmg : Nat} :
    Keeps [.score, .roundKills, .life, .hp, .knock, .rescues, .body, .deeds] c
      (c.damageKnocked m victim attacker dmg) := by
  unfold damageKnocked
  split
  · exact Frame.refl c
  · refine Frame.ite (fun _ => Frame.trans ?_ keeps_finalizeKnock) fun _ => ?_
    · refine Frame.onMatch (keeps_creditDamage.mono (by decide)) fun x => ?_
      cases x <;> first | exact Or.inr fun _ => rfl | exact Or.inl (by decide)
    · refine (keeps_creditDamage.mono (by decide)).onMatch fun x => ?_
      cases x <;> first | exact Or.inr fun _ => rfl | exact Or.inl (by decide)

theorem keeps_syncArmor {slot : Nat} : Keeps [.kit] c (c.syncArmor s slot) := by
  unfold syncArmor
  dsimp only
  split
  · exact Frame.refl c
  · refine Frame.ite (fun _ => ?_) fun _ => Frame.ite (fun _ => ?_) fun _ => ?_
    · exact ((Frame.refl c).onKit (by decide)).send.send
    · exact ((Frame.refl c).onKit (by decide)).send.send.send.send
    · exact ((Frame.refl c).onKit (by decide)).send.send.send

theorem keeps_wearArmor {bodyPart netDmg : Nat} :
    Keeps [.kit] c (c.wearArmor s bodyPart netDmg) :=
  Frame.ite
    (fun _ => Frame.ite (fun _ => ((Frame.refl c).onKit (by decide)).trans keeps_syncArmor)
      fun _ => Frame.refl c)
    fun _ => Frame.ite
      (fun _ => Frame.ite (fun _ => ((Frame.refl c).onKit (by decide)).trans keeps_syncArmor)
        fun _ => Frame.refl c)
      fun _ => Frame.refl c

theorem keeps_sendAll {F : List Part} {l : List SessionId} {msg : Msg} :
    Keeps F c (c.sendAll l msg) :=
  Frame.foldl (fun _ _ => (Frame.refl _).send) _ _

theorem keeps_reportHit {victim attacker dmg bodyPart : Nat} :
    Keeps [.kit] c (c.reportHit w m victim attacker dmg bodyPart) := by
  have hshow : Keeps [.kit] c (c.showDamage w m victim attacker dmg bodyPart) :=
    Frame.ite (fun _ => keeps_sendAll) fun _ => Frame.refl c
  refine Frame.broadcastData (hshow.trans ?_)
  unfold hurtVictim
  dsimp only
  split
  · exact keeps_wearArmor.send.trans keeps_sendAll
  · exact keeps_sendAll

def woundParts : List Part :=
  [.score, .roundKills, .life, .hp, .knock, .rescues, .body, .fell, .deeds]

def combatParts : List Part := .kit :: woundParts

theorem keeps_applyDamage {victim attacker dmg bodyPart : Nat} :
    Keeps combatParts c (c.applyDamage w m victim attacker dmg bodyPart) := by
  unfold applyDamage
  refine Frame.ite (fun _ => Frame.refl c) fun _ => ?_
  split
  · exact keeps_damageKnocked.mono (by decide)
  · exact Frame.refl c
  · split
    · exact Frame.refl c
    · refine Frame.ite (fun _ => Frame.refl c) fun _ => ?_
      have hhit : ∀ left, Keeps combatParts c (((c.onMatch m fun g => { g with
          hp := g.hp.insert victim left }).creditDamage m victim attacker dmg).reportHit w m victim
          attacker dmg bodyPart) := by
        intro left
        refine Frame.trans (Frame.trans ?_ (keeps_creditDamage.mono (by decide)))
          (keeps_reportHit.mono (by decide))
        refine (Frame.refl c).onMatch fun x => ?_
        cases x <;> first | exact Or.inr fun _ => rfl | exact Or.inl (by decide)
      exact Frame.ite (fun _ => (hhit _).trans (keeps_downOrKill.mono (by decide)))
        fun _ => hhit _

theorem keeps_bleed {e : Nat} : Keeps woundParts c (bleed m c e) := by
  unfold bleed
  split
  · exact Frame.refl c
  · refine Frame.ite (fun _ => Frame.refl c) fun _ => Frame.ite
      (fun _ => keeps_finalizeKnock.mono (by decide)) fun _ => ?_
    refine (Frame.refl c).onMatch fun x => ?_
    cases x <;> first | exact Or.inr fun _ => rfl | exact Or.inl (by decide)

theorem keeps_stepKnock : Keeps woundParts c (c.stepKnock m) :=
  Frame.foldl (fun _ _ => keeps_bleed) _ _

theorem keeps_reviveAll : Keeps woundParts c (c.reviveAll m) := by
  have hfold : Keeps woundParts c ((c.ms m).players.foldl (revivePlayer m) c) := by
    refine Frame.foldl (fun d p => ?_) _ _
    refine Frame.trans ?_ (keeps_observing.mono (by decide))
    refine (Frame.refl d).onMatch fun x => ?_
    cases x <;> first | exact Or.inr fun _ => rfl | exact Or.inl (by decide)
  unfold reviveAll
  refine hfold.onMatch fun x => ?_
  cases x <;> first | exact Or.inr fun _ => rfl | exact Or.inl (by decide)

theorem keeps_respawnPlayer {p : SessionId} : Keeps [.body] c (respawnPlayer m c p) :=
  keeps_observing.broadcastData

theorem keeps_startRescue {reviver target startMs : Nat} :
    Keeps [.rescues] c (c.startRescue m reviver target startMs) := by
  refine Frame.ite (fun _ => Frame.refl c) fun _ => Frame.ite (fun _ => Frame.refl c) fun _ => ?_
  refine Frame.broadcastData ((Frame.refl c).onMatch fun x => ?_)
  cases x <;> first | exact Or.inr fun _ => rfl | exact Or.inl (by decide)

theorem keeps_dropRescue {target : Nat} :
    Keeps [.rescues] c (c.onMatch m fun g => { g with rescues := g.rescues.erase target }) := by
  refine (Frame.refl c).onMatch fun x => ?_
  cases x <;> first | exact Or.inr fun _ => rfl | exact Or.inl (by decide)

theorem keeps_stopRescue {reviver target : Nat} :
    Keeps [.rescues] c (c.stopRescue m reviver target) := by
  unfold stopRescue
  split
  · exact Frame.ite (fun _ => keeps_dropRescue) fun _ => Frame.refl c
  · exact Frame.refl c

theorem keeps_rescueTick {target : Nat} :
    Keeps [.rescues, .life, .hp, .knock, .deeds] c (rescueTick m c target) := by
  unfold rescueTick
  split
  · exact Frame.refl c
  · refine Frame.ite (fun _ => keeps_dropRescue.mono (by decide)) fun _ =>
      Frame.ite (fun _ => Frame.refl c) fun _ => ?_
    refine Frame.broadcastData (Frame.note (Frame.note
      ((keeps_dropRescue.mono (by decide)).onMatch fun x => ?_) (by decide)) (by decide))
    cases x <;> first | exact Or.inr fun _ => rfl | exact Or.inl (by decide)

theorem keeps_stepRescue : Keeps [.rescues, .life, .hp, .knock, .deeds] c (c.stepRescue m) :=
  Frame.foldl (fun _ _ => keeps_rescueTick) _ _

end Core

end MatchServer

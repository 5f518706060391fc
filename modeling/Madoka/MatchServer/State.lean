import Mathlib.Data.List.AList
import Mathlib.Data.List.Dedup
import Mathlib.Data.Rat.Floor
import Mathlib.Logic.Function.Basic

namespace MatchServer

abbrev SessionId := Nat

abbrev MatchRef := Nat

abbrev GoMap (β : Type) := AList (fun _ : Nat => β)

-- A range over a map: every key once, in an order that the runtime picks.
def visit (order keys : List Nat) : List Nat :=
  order.dedup.filter (fun k => decide (k ∈ keys)) ++ keys.filter fun k => decide (k ∉ order)

-- Positions and radii are in millimetres, the unit of the wire; instants are nanoseconds.
structure Vec3 where
  x : Int
  y : Int
  z : Int
  deriving DecidableEq, Repr

def origin : Vec3 := ⟨0, 0, 0⟩

structure Packet where
  sendOption : Nat
  cmd : Nat
  seqID : Nat
  payload : List UInt8
  deriving DecidableEq, Repr

structure ShowClaim where
  avatar : Nat
  color : Nat
  head : Nat
  banner : Nat
  clothes : List Nat
  slots : List Nat
  emotes : List Nat
  shows : List Nat
  battleFlag : Nat
  deriving DecidableEq, Repr

structure PlayerInfo where
  accountID : Nat
  entityID : Nat
  name : String
  role : Nat
  matchID : Nat
  cosmetics : ShowClaim
  teamIdx : Nat
  preferTeam : Nat
  spawnPos : Vec3
  spawnFace : Vec3
  deriving DecidableEq, Repr

structure InvItem where
  unique : Nat
  data : Nat
  count : Nat
  runtime : Nat
  deriving DecidableEq, Repr

structure Equipment where
  slot : Nat
  data : Nat
  unique : Nat
  deriving DecidableEq, Repr

structure CsWeapon where
  slot : Nat
  data : Nat
  unique : Nat
  ammo : Nat
  deriving DecidableEq, Repr

structure Container where
  id : Nat
  pos : Vec3
  items : List InvItem
  deriving DecidableEq, Repr

structure IceWall where
  id : Nat
  repID : Nat
  owner : Nat
  pos : Vec3
  rot : List Int
  wallType : Int
  hp : Nat
  state : Nat
  placedAt : Int
  deriving DecidableEq, Repr

structure FlagObject where
  id : Nat
  born : Int
  deriving DecidableEq, Repr

inductive LifeState where
  | alive
  | knocked
  | dead
  deriving DecidableEq, Repr

structure KnockState where
  hp : Nat
  deadline : Int
  killer : Nat
  weapon : Int
  weaponSkin : Int
  bodyPart : Nat
  pos : Vec3
  deriving DecidableEq, Repr

structure RescueState where
  reviver : Nat
  target : Nat
  startMs : Nat
  completeAt : Int
  deriving DecidableEq, Repr

structure ShopItem where
  itemID : Nat
  price : Nat
  filter : Nat
  limitation : Nat
  bonus : Bool
  slotKind : String
  ammo : Nat
  deriving DecidableEq, Repr

structure CsEvents where
  winRound : Nat
  perKill : Nat
  lossRound : Nat
  lossStreak2 : Nat
  lossStreak3 : Nat
  firstBlood : Nat
  deriving DecidableEq, Repr

structure MatchSettings where
  maxRound : Nat
  roundsToWin : Nat
  baseCoins : List Nat
  maxHP : Nat
  noLoadout : Bool
  isCustom : Bool
  unlimitedAmmo : Bool
  speedScale : Nat
  jumpScale : Nat
  roomSetting : Nat
  roomSetting2 : Nat
  shopItems : Option (List ShopItem)
  events : CsEvents
  deriving DecidableEq, Repr

structure Arena where
  city : String
  zoneID : Nat
  deriving DecidableEq, Repr

inductive CsPhase where
  | setupBind
  | setupGap
  | setupWait
  | prepare
  | fight
  | matchEndPause
  | postBanner
  | postReviveBind
  | postBlack
  | introWait
  | intro
  | matchEnd
  | cancelled
  deriving DecidableEq, Repr

structure BattleFlagEntry where
  owner : Nat
  objectId : Nat
  active : Bool
  pos : Vec3
  configId : Nat
  deriving DecidableEq, Repr

-- Outbound packets with the data they carry; the replication streams (cmd 900, 901, 1000, 1012,
-- 117) are computed from the state and not kept.
inductive Msg where
  | helloRes
  | ping (payload : List UInt8)
  | ack (seq : Nat)
  | relay (cmd : Nat) (payload : List UInt8)
  | joinMatchRes (roomSetting roomSetting2 : Nat)
  | playerJoin (player : PlayerInfo)
  | joinMatchFinished
  | bindPRI (entries : List (Nat × Nat))
  | zoneIndex (zone : Nat) (entries : List (Nat × Nat))
  | teleport (entity seq : Nat) (pos face : Vec3)
  | observerJoin (account entity : Nat)
  | playerDead (victim killer : Nat) (weapon weaponSkin : Int) (observe bodyPart : Nat) (pos : Vec3)
      (system pendingRevive : Bool)
  | knockDown (victim attacker : Nat) (weapon skin : Int) (bodyPart : Nat) (head : Bool)
  | knockRevive (target reviver : Nat)
  | rescueProgress (reviver target startMs endMs : Nat)
  | notifyRevive (entity : Nat) (pos : Vec3)
  | hurtAnim (victim src : Nat)
  | showDamage (attacker victim dmg : Nat) (weapon : Int) (crit : Bool)
  | takeDamage (victim attacker : Nat) (weapon : Int) (dmg bodyPart : Nat)
  | switchObserve (target : Nat)
  | playerQuit (entity : Nat)
  | playerQuitRes
  | roundResult (winner : Nat)
  | matchEnd (win : Bool)
  | returnToLobby
  | battleFlagSync (entries : List BattleFlagEntry)
  | emote (entity emoteID effIdx loop : Nat)
  | csShop (items : Option (List ShopItem))
  | purchaseResult (code coins : Nat)
  | shopPurchaseCount (item count limit : Nat)
  | syncInventory (entity : Nat) (inv attach : List InvItem) (equip : List Equipment) (onHand : Nat)
  | removeInventoryList (entity : Nat) (uniques : List Nat)
  | equipmentChanged (entity slot oldUID newUID data runtime : Nat)
  | changeInventoryOnHand (entity unique : Nat)
  | doAction (entity : Nat) (start : Bool)
  | dropInventoryRes (unique remaining : Nat)
  | addPickup (item : InvItem) (container : Nat) (pos : Vec3)
  | delPickup (item : InvItem) (container : Nat)
  | delContainer (container : Nat)
  | addIcewall (wall : IceWall)
  | removeIcewall (id : Nat)
  | resyncIcewalls (walls : List IceWall)
  deriving DecidableEq, Repr

def maxEP : Nat := 200

instance (priority := high) ep_bound : NeZero (maxEP + 1) := ⟨Nat.succ_ne_zero maxEP⟩

-- A player's wallet and inventory. A nil map reads as empty; writing to a nil `weapons` panics.
structure Kit where
  coins : Nat
  award : Nat
  mushrooms : Nat
  ep : Fin (maxEP + 1)
  epLast : Int
  uidCounter : Nat
  clientUIDs : GoMap InvItem
  weapons : Option (GoMap CsWeapon)
  equipment : List Equipment
  itemOnHand : Nat
  heldBeforeGloo : Nat
  vestData : Nat
  vestDur : Nat
  helmetData : Nat
  helmetDur : Nat

structure Session where
  player : PlayerInfo
  matchRef : Option MatchRef
  joined : Bool
  syncStarted : Bool
  stopped : Bool
  prep439 : List UInt8
  entityID : Nat
  repID : Nat
  faction : Nat
  team : Nat
  slot : Nat
  lastSeen : Int
  disconnected : Bool
  disconnectedAt : Int
  roundKills : Nat
  kit : Kit
  healActive : Bool
  healStart : Int
  healApplied : Nat
  healChanneling : Bool
  healChannelStart : Int
  observing : Nat
  firing : Bool
  sighting : Bool
  playerPos : Vec3
  moveBody : List UInt8
  moveBase : Nat

inductive LoopState where
  | idle
  | spawned
  | running
  | stopped
  deriving DecidableEq, Repr

-- What happened in a match, in order: entities by id, `by_` the session that a kill counts for,
-- `one` and `two` the members of each team that stand. No function of the server reads it.
inductive Deed where
  | reset
  | seated (entity : Nat)
  | hurt (attacker victim dmg : Nat)
  | struck (victim attacker : Nat)
  | died (victim killer : Nat)
  | killed (victim killer : Nat) (by_ : Option SessionId)
  | rescued (target reviver : Nat)
  | standing (one two : Nat)
  | fight (one two : Nat)
  | scored (round winner : Nat)
  | opened (round : Nat)
  | closed
  deriving DecidableEq, Repr

structure Match where
  s : SessionId
  players : List SessionId
  nextSlot : Nat
  reserved : Nat
  phase : CsPhase
  deadline : Option Int
  pull : Option Vec3
  revive : Bool
  matchWon : Bool
  winnerTeam : Nat
  loop : LoopState
  lastStream : Option Int
  done : Bool
  round : Nat
  teamScore : Nat × Nat
  lossStreak : Nat × Nat
  firstBlood : Nat
  reseedCount : Nat
  lastReseed : Int
  wheelKicked : Bool
  settings : MatchSettings
  matchStart : Int
  tpSeq : Nat
  arena : Arena
  bot : PlayerInfo
  botEntity : Nat
  hp : GoMap Nat
  kills : GoMap Nat
  deaths : GoMap Nat
  damage : GoMap Nat
  walls : List IceWall
  wallSeq : Nat
  containers : GoMap Container
  nextContainerID : Nat
  flags : GoMap FlagObject
  flagSeq : Nat
  zoneOn : Bool
  zoneCenter : Vec3
  zoneOuterR : Int
  zoneWaitEnd : Int
  zoneShrink : Bool
  zoneShrinkStart : Int
  zoneLastDmg : Int
  life : GoMap LifeState
  knock : GoMap KnockState
  rescues : GoMap RescueState
  lastTeamFell : Nat
  roundOver : Bool
  ended : Bool
  started : Bool
  tearingDown : Bool
  revived : List SessionId
  arenasUsed : List Arena
  deeds : List Deed

inductive Job where
  | route (s : SessionId) (p : Packet)
  | admitLater (s : SessionId)
  | resyncWalls (s : SessionId)
  deriving DecidableEq, Repr

structure PlayerResult where
  accountId : Nat
  coins : Int
  kills : Nat
  deaths : Nat
  win : Bool
  xp : Int
  damage : Int
  deriving DecidableEq, Repr

structure MatchResult where
  matchId : String
  players : List PlayerResult
  deriving DecidableEq, Repr

-- A join past the manager's lock: the session is still to be wired into the match. `loop` is the
-- match loop the join runs on; none: the receive goroutine of the session.
structure Admission where
  s : SessionId
  m : MatchRef
  fresh : Bool
  loop : Option MatchRef
  deriving DecidableEq, Repr

-- What the handlers and the match loops share. `now`, `order`, `pick` and `loop` are the clock, the
-- map orders, the random choice and the goroutine of the step in progress; `posts` are the handlers
-- it enqueues.
structure Core where
  ss : SessionId → Session
  ms : MatchRef → Match
  live : List MatchRef
  nextRef : MatchRef
  admits : List Admission
  posts : List (MatchRef × Job)
  out : List (SessionId × Msg)
  published : List MatchResult
  now : Int
  order : List Nat
  pick : Nat
  loop : Option MatchRef

structure Claims where
  accountID : Nat
  name : String
  role : Nat
  matchID : Nat
  team : Nat
  cosmetics : Option ShowClaim
  expiry : Int
  deriving DecidableEq, Repr

instance roundCount_bound : NeZero 256 := ⟨by decide⟩

instance maxHP_bound : NeZero 65536 := ⟨by decide⟩

structure WireSettings where
  roundCount : Fin 256
  maxHP : Fin 65536
  economy : List Nat
  flags : List (String × Bool)
  roomSetting : Nat
  roomSetting2 : Nat
  speedMul : Float
  jumpMul : Float
  shopItems : List ShopItem
  events : Option CsEvents

structure Config where
  jwtSecret : String
  buyPhase : Int
  holdPrepare : Bool
  fixedSpawn : Option (Vec3 × Vec3)
  zoneTest : Bool
  unlimitedMoneyTest : Bool
  infiniteGloo : Bool
  noZone : Bool
  zoneStatic : Bool
  matchBot : Bool
  bus : Bool
  nodeID : String

namespace Core

variable (c : Core) (s : SessionId) (m : MatchRef)

def onSession (f : Session → Session) : Core :=
  { c with ss := Function.update c.ss s (f (c.ss s)) }

def onKit (f : Kit → Kit) : Core :=
  c.onSession s fun p => { p with kit := f p.kit }

def onMatch (f : Match → Match) : Core :=
  { c with ms := Function.update c.ms m (f (c.ms m)) }

def note (d : Deed) : Core :=
  c.onMatch m fun g => { g with deeds := g.deeds ++ [d] }

def send (msg : Msg) : Core :=
  { c with out := c.out ++ [(s, msg)] }

def broadcastData (msg : Msg) : Core :=
  { c with out := c.out ++ (c.ms m).players.map fun p => (p, msg) }

def broadcastToOthers (msg : Msg) : Core :=
  { c with out := c.out ++ ((c.ms m).players.filter fun p => decide (p ≠ s)).map fun p => (p, msg) }

-- A nil match panics at its first use; what was done before stays.
def withMatch (f : MatchRef → Core) : Core :=
  match (c.ss s).matchRef with
  | some m => f m
  | none => c

def enqueue (job : Job) : Core :=
  { c with posts := c.posts ++ [(m, job)] }

end Core

end MatchServer

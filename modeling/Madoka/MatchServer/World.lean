import Madoka.MatchServer.State

namespace MatchServer

def signed (bits n : Nat) : Int :=
  if n < 2 ^ (bits - 1) then (n : Int) else (n : Int) - 2 ^ bits

def settleCoinPerKill : Nat := 50

def settleWinCoins : Nat := 200

def settleXPPerKill : Nat := 10

def settleWinXP : Nat := 100

def settleLoseXP : Nat := 40

-- publishResult for one player of the roster.
def playerResult (g : Match) (p : Session) : PlayerResult :=
  let win := p.team == g.winnerTeam
  let kills := (g.kills.lookup p.entityID).getD 0
  { accountId := p.player.accountID
    coins := (kills * settleCoinPerKill + if win then settleWinCoins else 0 : Nat)
    kills := kills
    deaths := (g.deaths.lookup p.entityID).getD 0
    win := win
    xp := (kills * settleXPPerKill + if win then settleWinXP else settleLoseXP : Nat)
    damage := signed 32 ((g.damage.lookup p.entityID).getD 0) }

namespace Core

variable (cfg : Config) (c : Core) (m : MatchRef)

-- The settlement key: the first token mid on the roster, else the node and the match's start.
def matchIDString : String :=
  match (c.ms m).players.find? fun p => (c.ss p).player.matchID != 0 with
  | some p => toString (c.ss p).player.matchID
  | none => cfg.nodeID ++ "-" ++ toString (c.ms m).matchStart

def publishResult : Core :=
  if cfg.bus then
    { c with published := c.published ++ [⟨c.matchIDString cfg m,
      (c.ms m).players.map fun p => playerResult (c.ms m) (c.ss p)⟩] }
  else c

-- `d` is what is left of `c` after packets of one kind were sent, and nothing else was done.
def Sends (kind : Msg → Prop) (c d : Core) : Prop :=
  ∃ out : List (SessionId × Msg), (∀ o ∈ out, kind o.2) ∧ d = { c with out := c.out ++ out }

end Core

-- cmd 103.
def Msg.IsMatchEnd (msg : Msg) : Prop := ∃ win, msg = .matchEnd win

-- cmd 409.
def Msg.IsRoundResult (msg : Msg) : Prop := ∃ winner, msg = .roundResult winner

-- cmd 101 and cmd 145.
def Msg.IsRespawn (msg : Msg) : Prop :=
  (∃ player, msg = .playerJoin player) ∨ ∃ entity seq pos face, msg = .teleport entity seq pos face

-- The three functions of round.go that the match loop calls. The file is not in the repository;
-- the hypotheses are what the loop relies on and what the documents say of it: matchEnd sends cmd
-- 103 to every player and publishes the settlement, roundResult sends cmd 409, and respawnBot
-- joins and teleports the bot's entity again.
structure RoundFlow where
  matchEnd : Config → Core → MatchRef → Core
  roundResult : Core → MatchRef → Nat → Core
  respawnBot : Core → MatchRef → Core
  matchEnd_sends : ∀ (cfg : Config) (c : Core) (m : MatchRef),
    (c.publishResult cfg m).Sends Msg.IsMatchEnd (matchEnd cfg c m)
  roundResult_sends : ∀ (c : Core) (m : MatchRef) (winner : Nat),
    c.Sends Msg.IsRoundResult (roundResult c m winner)
  respawnBot_sends : ∀ (c : Core) (m : MatchRef), ∃ seq,
    (c.onMatch m fun g => { g with tpSeq := seq }).Sends Msg.IsRespawn (respawnBot c m)

-- The configuration, the Redis keys match:<mid>:settings, and the functions whose Go files are
-- not in the repository.
structure World where
  cfg : Config
  settings : Nat → Option (Option WireSettings)
  hmac : String → String → String
  claims : String → Option Claims
  shopItemByID : MatchSettings → Nat → Option ShopItem
  loadedMagFor : Nat → Nat → Nat
  skinForWeapon : Nat → List Nat → Nat
  weaponAttachments : Nat → Nat → Nat → List InvItem × Nat
  allArenas : List Arena
  spawnFor : Arena → Nat → Vec3 × Vec3
  faceToward : Vec3 → Vec3 → Vec3
  zoneGeometry : Match → Vec3 × Int
  outOfZone : Match → Int → Vec3 → Bool
  nextArena : List Arena → Nat → Arena × List Arena
  attachRes : Session → Packet → List Msg
  roundFlow : RoundFlow
  zoneWaitDur : Int
  zoneDamageEvery : Int
  zoneDamage : Nat
  introReveal : Int
  postToBlack : Int
  postBlackHold : Int

end MatchServer

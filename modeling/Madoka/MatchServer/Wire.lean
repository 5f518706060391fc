import Madoka.MatchServer.World

namespace MatchServer

def u8 (b : List UInt8) (i : Nat) : Nat := (b.getD i 0).toNat

def u16le (b : List UInt8) (i : Nat) : Nat := u8 b i + 256 * u8 b (i + 1)

def u32le (b : List UInt8) (i : Nat) : Nat := u16le b i + 65536 * u16le b (i + 2)

def u64le (b : List UInt8) (i : Nat) : Nat := u32le b i + 4294967296 * u32le b (i + 4)

def vec3At (b : List UInt8) (i : Nat) : Vec3 :=
  ⟨signed 32 (u32le b i), signed 32 (u32le b (i + 4)), signed 32 (u32le b (i + 8))⟩

-- The commands a client sends.
inductive Cmd where
  | hello
  | ack
  | ping
  | reconnect
  | weaponAction
  | stopFire
  | takeDamage
  | changeHeldItem
  | pickupInventory
  | dropInventory
  | useInventory
  | equip
  | equipAttachment
  | unequipAttachment
  | tryUseInventory
  | reloadStart
  | reloadFinish
  | startSniper
  | stopSniper
  | startRescue
  | stopRescue
  | projectileThrow
  | projectileExplode
  | startGrenade
  | stopGrenade
  | playerQuitReq
  | addIcewall
  | icewallTakeDamage
  | battleFlagReq
  | emote
  | csPurchase
  | joinMatchPrepare
  | joinMatchPost
  | clientPos
  | unknown
  deriving DecidableEq, Repr

def cmdOf : Nat → Cmd
  | 1 => .hello
  | 2 => .ack
  | 3 => .ping
  | 5 => .reconnect
  | 104 => .weaponAction
  | 105 => .stopFire
  | 106 => .takeDamage
  | 108 => .changeHeldItem
  | 111 => .pickupInventory
  | 112 => .dropInventory
  | 113 => .useInventory
  | 119 => .equip
  | 122 => .equipAttachment
  | 123 => .unequipAttachment
  | 131 => .tryUseInventory
  | 133 => .reloadStart
  | 134 => .reloadFinish
  | 137 => .startSniper
  | 138 => .stopSniper
  | 142 => .startRescue
  | 143 => .stopRescue
  | 160 => .projectileThrow
  | 161 => .projectileExplode
  | 162 => .startGrenade
  | 163 => .stopGrenade
  | 191 => .playerQuitReq
  | 218 => .addIcewall
  | 219 => .icewallTakeDamage
  | 276 => .battleFlagReq
  | 369 => .emote
  | 408 => .csPurchase
  | 439 => .joinMatchPrepare
  | 440 => .joinMatchPost
  | 1001 => .clientPos
  | _ => .unknown

def isReliable (cmd sendOption : Nat) : Bool :=
  if cmd = 2 then false else sendOption == 1 || sendOption == 2 || sendOption == 5

structure TakeDamageReq where
  victim : Nat
  dmg : Nat
  bodyPart : Nat
  attacker : Nat
  deriving DecidableEq, Repr

def parseTakeDamage (b : List UInt8) : Option TakeDamageReq :=
  if b.length < 14 then none
  else some ⟨u32le b 0, u16le b 4, u8 b 9, u32le b 10⟩

structure PlaceIcewallReq where
  wallType : Int
  pos : Vec3
  rot : List Int
  deriving DecidableEq, Repr

def parsePlaceIcewallReq (b : List UInt8) : Option PlaceIcewallReq :=
  if b.length < 29 then none
  else some {
    wallType := signed 32 (u32le b 4)
    pos := vec3At b 8
    rot := [signed 16 (u16le b 20), signed 16 (u16le b 22), signed 16 (u16le b 24),
      signed 16 (u16le b 26)] }

structure IcewallDamageReq where
  wallID : Nat
  damage : Nat
  deriving DecidableEq, Repr

def parseIcewallDamageReq (b : List UInt8) : Option IcewallDamageReq :=
  if b.length < 10 then none else some ⟨u32le b 0, u32le b 6⟩

structure BattleFlagReq where
  pos : Vec3
  configId : Nat
  deriving DecidableEq, Repr

def parseBattleFlagReq (b : List UInt8) : Option BattleFlagReq :=
  if b.length < 20 then none else some ⟨vec3At b 4, u32le b 16⟩

structure EmoteReq where
  emoteID : Nat
  effIdx : Nat
  isLooping : Nat
  deriving DecidableEq, Repr

def parseEmoteReq (b : List UInt8) : Option EmoteReq :=
  if b.length < 6 then none else some ⟨u32le b 0, u8 b 4, u8 b 5⟩

structure EquipReq where
  slot : Nat
  unique : Nat
  deriving DecidableEq, Repr

def parseEquipReq (b : List UInt8) : Option EquipReq :=
  if b.length < 5 then none else some ⟨u8 b 0, u32le b 1⟩

def parseUseInventory (b : List UInt8) : Option Nat :=
  if b.length < 4 then none else some (u32le b 0)

def parsePickupReq (b : List UInt8) : Option Nat :=
  if b.length < 8 then none else some (u32le b 4)

def parseDropReq (b : List UInt8) : Option Nat :=
  if b.length < 8 then none else some (u32le b 0)

-- The prepare_token, as text over the bytes of the payload.
def textOf (b : List UInt8) : String :=
  String.ofList (b.map fun x => Char.ofNat x.toNat)

def jwtHeaderMarker : List UInt8 :=
  "eyJhbGciOiJIUzI1NiIsInR5cCI6IkpXVCJ9".toList.map fun ch => UInt8.ofNat ch.toNat

def isJWTChar (x : UInt8) : Bool :=
  (65 ≤ x && x ≤ 90) || (97 ≤ x && x ≤ 122) || (48 ≤ x && x ≤ 57) || x == 46 || x == 45 || x == 95

-- bytes.Index of the header marker, and from there the longest run of token characters.
def extractJWT : List UInt8 → List UInt8
  | [] => []
  | x :: b =>
    if jwtHeaderMarker.isPrefixOf (x :: b) then (x :: b).takeWhile isJWTChar else extractJWT b

def dot : UInt8 := 46

def maxTokenLen : Nat := 4096

def isCompleteJWT (t : List UInt8) : Bool :=
  t.count dot == 2 && decide (43 ≤ (t.reverse.takeWhile fun x => x ≠ dot).length)

structure JwtField where
  start : Nat
  len : Nat
  deriving DecidableEq, Repr

def fieldAt (b : List UInt8) (i : Nat) : Option JwtField :=
  let n := u32le b i
  if n < 1 ∨ maxTokenLen < n ∨ b.length < i + 4 + n then none
  else if ((b.drop (i + 4)).take n).all isJWTChar then some ⟨i + 4, n⟩ else none

def lastField (best f : Option JwtField) : Option JwtField :=
  match best, f with
  | best, none => best
  | none, some f => some f
  | some g, some f => if g.start + g.len < f.start + f.len then some f else some g

def lastJWTField (b : List UInt8) : List UInt8 :=
  match (List.range (b.length - 3)).foldl (fun best i => lastField best (fieldAt b i)) none with
  | none => []
  | some f => (b.drop f.start).take f.len

-- ParseJoinMatchReq reads the token behind a fixed header of 22 bytes.
def joinReqToken (b : List UInt8) : List UInt8 :=
  if b.length < 26 then []
  else
    let n := u32le b 22
    if n = 0 ∨ maxTokenLen < n ∨ b.length < 26 + n then [] else (b.drop 26).take n

def prepareToken (prep439 payload440 : List UInt8) : List UInt8 :=
  if prep439 ≠ [] then
    let found := extractJWT prep439
    let tok := if found = [] then prep439 else found
    if isCompleteJWT tok then tok else tok ++ lastJWTField payload440
  else
    let tok := extractJWT payload440
    if tok ≠ [] then tok else joinReqToken payload440

def unixSeconds (now : Int) : Int := now / 1000000000

-- Verify: three segments, the HS256 signature over the first two, the claims, the expiry.
def verify (w : World) (now : Int) (tok : List UInt8) : Option Claims :=
  match (tok.splitOn dot).map textOf with
  | [header, payload, signature] =>
    if w.hmac w.cfg.jwtSecret (header ++ "." ++ payload) = signature then
      match w.claims payload with
      | some claims =>
        if claims.expiry ≠ 0 ∧ claims.expiry < unixSeconds now then none else some claims
      | none => none
    else none
  | _ => none

def fallbackAccountID : Nat := 10000001

def fallbackName : String := "foices"

def playerEntityID : Nat := 0x01000001

def playerRepID : Nat := 1000

def botRepID : Nat := 1001

def defaultBattleFlag : Nat := 1410000001

def noCosmetics : ShowClaim := ⟨0, 0, 0, 0, [], [], [], [], 0⟩

def fallbackPlayer : PlayerInfo where
  accountID := fallbackAccountID
  entityID := playerEntityID
  name := fallbackName
  role := 0
  matchID := 0
  cosmetics := { noCosmetics with battleFlag := defaultBattleFlag }
  teamIdx := 0
  preferTeam := 0
  spawnPos := origin
  spawnFace := origin

def claimedPlayer (claims : Claims) : PlayerInfo :=
  { fallbackPlayer with
    accountID := if claims.accountID ≠ 0 then claims.accountID else fallbackAccountID
    matchID := claims.matchID
    preferTeam := claims.team
    role := claims.role
    name := if claims.name ≠ "" then claims.name else fallbackName
    cosmetics :=
      match claims.cosmetics with
      | none => { noCosmetics with battleFlag := defaultBattleFlag }
      | some show_ =>
        { show_ with
          battleFlag := if show_.battleFlag ≠ 0 then show_.battleFlag else defaultBattleFlag } }

def resolvePlayer (w : World) (now : Int) (tok : List UInt8) : PlayerInfo :=
  if tok = [] then fallbackPlayer
  else
    match verify w now tok with
    | none => fallbackPlayer
    | some claims => claimedPlayer claims

end MatchServer

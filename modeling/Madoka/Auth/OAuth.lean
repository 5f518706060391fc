import Madoka.Lib.Latest
import Madoka.Lib.Run
import Madoka.Lib.Utf16
import Mathlib.Logic.Function.Basic

namespace OAuth

open Lib Utf16

def ACCESS_TTL_SECONDS : Int := 1296000

def REFRESH_TTL_SECONDS : Int := 2592000

-- A row of guests without the Discord columns.
structure User where
  openId : Text
  uid : Nat
  accessToken : Option Text
  refreshToken : Option Text
  accessExpiry : Option Int
  refreshExpiry : Option Int
  createTime : Option Int
  renovation : Bool
  deriving DecidableEq, Repr

structure TokenSet where
  access : Text
  refresh : Text
  accessExpiry : Int
  refreshExpiry : Int
  createTime : Int
  deriving DecidableEq, Repr

def issueTokens (access refresh : Text) (now : Int) : TokenSet where
  access := access
  refresh := refresh
  accessExpiry := now + ACCESS_TTL_SECONDS
  refreshExpiry := now + REFRESH_TTL_SECONDS
  createTime := now

inductive Kind where
  | access
  | refresh
  deriving DecidableEq, Repr

def Kind.ttl : Kind → Int
  | .access => ACCESS_TTL_SECONDS
  | .refresh => REFRESH_TTL_SECONDS

def User.token (u : User) : Kind → Option Text
  | .access => u.accessToken
  | .refresh => u.refreshToken

def User.expiry (u : User) : Kind → Option Int
  | .access => u.accessExpiry
  | .refresh => u.refreshExpiry

section Guests

variable (guests : List User)

def findByOpenId (openId : Text) : Option User := guests.find? fun u => u.openId == openId

-- findByAccessToken and findByRefreshToken
def findByToken (k : Kind) (token : Text) : Option User :=
  if token.isEmpty then none else guests.find? fun u => u.token k == some token

def findByAccessAndRefreshToken (access refresh : Text) : Option User :=
  if access.isEmpty || refresh.isEmpty then none
  else guests.find? fun u => u.accessToken == some access && u.refreshToken == some refresh

def insertUser (openId : Text) (uid : Nat) : Option (List User) :=
  if guests.any fun u => u.openId == openId || u.uid == uid then none
  else some (guests ++ [⟨openId, uid, none, none, none, none, none, false⟩])

def updateGuest (openId : Text) (f : User → User) : List User :=
  guests.map fun u => if u.openId = openId then f u else u

def setTokens (openId : Text) (t : TokenSet) : List User :=
  updateGuest guests openId fun u =>
    { u with accessToken := some t.access, refreshToken := some t.refresh,
             accessExpiry := some t.accessExpiry, refreshExpiry := some t.refreshExpiry,
             createTime := some t.createTime }

def refreshAccessToken (openId access : Text) (accessExpiry : Int) : List User :=
  updateGuest guests openId fun u =>
    { u with accessToken := some access, accessExpiry := some accessExpiry }

def clearTokens (openId : Text) : List User :=
  updateGuest guests openId fun u => { u with accessToken := none, refreshToken := none }

end Guests

-- A parameter of a request: not there, not a string, or a string.
inductive Param where
  | absent
  | other
  | text (t : Text)
  deriving DecidableEq, Repr

def Param.falsy : Param → Bool
  | .absent => true
  | .other => false
  | .text t => t.isEmpty

def Param.or (p q : Param) : Param := if p.falsy then q else p

-- The answer of a validation; the tokens of the account of `renovation` are cleared before it.
inductive Verdict where
  | ok (user : User)
  | missing
  | unknown
  | renovation (openId : Text)
  | expired
  deriving DecidableEq, Repr

-- validateAccessToken and validateRefreshToken
def validate (guests : List User) (k : Kind) (token : Param) (now : Int) : Verdict :=
  match token with
  | .text (c :: t) =>
    match findByToken guests k (c :: t) with
    | none => .unknown
    | some user =>
      if user.renovation then .renovation user.openId
      else
        match user.expiry k with
        | none => .expired
        | some expiry => if now > expiry then .expired else .ok user
  | _ => .missing

structure Inspected where
  expiryTime : Option Int
  uid : Nat
  openId : Text
  createTime : Option Int
  deriving DecidableEq, Repr

structure Exchanged where
  accessToken : Option Text
  createTime : Option Int
  expiresIn : Int
  expiryTime : Option Int
  openId : Text
  refreshExpiryTime : Option Int
  refreshToken : Option Text
  uid : Nat
  deriving DecidableEq, Repr

structure Debugged where
  dataAccessExpiresAt : Option Int
  expiresAt : Option Int
  userId : Nat
  deriving DecidableEq, Repr

structure Refreshed where
  accessToken : Text
  expiryTime : Int
  openId : Text
  refreshToken : Option Text
  refreshExpiryTime : Option Int
  uid : Nat
  deriving DecidableEq, Repr

inductive Answer where
  | invalidGrant
  | graphError (code httpStatus : Nat) (message : String)
  | debugInvalid (code : Nat) (message : String)
  | inspected (body : Inspected)
  | exchanged (body : Exchanged)
  | debugged (body : Debugged)
  | next (user : User)
  | success
  | result
  deriving DecidableEq, Repr

-- The routes that read an access token: inspect, facebook/exchange, withUser and debug_token.
inductive Route where
  | inspect
  | exchange
  | withUser
  | debugToken
  deriving DecidableEq, Repr

def Route.welcome (user : User) : Route → Answer
  | .inspect => .inspected ⟨user.accessExpiry, user.uid, user.openId, user.createTime⟩
  | .exchange => .exchanged ⟨user.accessToken, user.createTime, 1296000, user.accessExpiry, user.openId,
      user.refreshExpiry, user.refreshToken, user.uid⟩
  | .withUser => .next user
  | .debugToken => .debugged ⟨user.accessExpiry, user.accessExpiry, user.uid⟩

def Route.reject (token : Param) (v : Verdict) : Route → Answer
  | .inspect => .invalidGrant
  | .exchange => .invalidGrant
  | .withUser =>
    if token.falsy then .graphError 104 400 "Missing access_token"
    else
      match v with
      | .renovation _ => .invalidGrant
      | .expired => .invalidGrant
      | _ => .graphError 190 401 "Invalid OAuth access token"
  | .debugToken =>
    if token.falsy then .graphError 104 400 "Missing input_token"
    else
      match v with
      | .renovation _ => .invalidGrant
      | .expired => .invalidGrant
      | _ => .debugInvalid 190 "Invalid OAuth access token"

-- The login gate of the game server; `enabled` is authStore.isEnabled.
structure Gate where
  enforceRegistration : Bool
  enforceLoginToken : Bool
  allowGuest : Bool
  guestOpenId : Text
  enabled : Bool
  deriving DecidableEq, Repr

structure Decision where
  status : Nat
  reason : String
  kick : Bool
  deriving DecidableEq, Repr

def guestByOpenId (guests : List User) (openId : Text) : Option User :=
  if openId.isEmpty then none else findByOpenId guests openId

-- `reached` is false when the query throws.
def Gate.checkRegistration (A : Gate) (guests : List User) (reached : Bool) (openId loginToken : Text) :
    Option Decision :=
  if !A.enforceRegistration then none
  else if !A.enabled then none
  else if A.allowGuest && openId == A.guestOpenId then none
  else if !reached then none
  else
    match guestByOpenId guests openId with
    | none => some ⟨403, "open_id not registered on auth server", false⟩
    | some g =>
      if g.renovation then some ⟨403, "account blocked (renovation)", true⟩
      else if A.enforceLoginToken then
        if loginToken.isEmpty || some loginToken != g.accessToken then
          some ⟨403, "login_token does not match auth server", true⟩
        else none
      else none

-- Whether the gate asks the auth store for the token.
def Gate.strict (A : Gate) (reached : Bool) (openId : Text) : Bool :=
  A.enforceRegistration && A.enabled && A.enforceLoginToken && reached &&
    !(A.allowGuest && openId == A.guestOpenId)

-- What the parties did, oldest first; an answer is kept with the account whose token was accepted.
inductive Mark where
  | issued (openId access refresh : Text) (now : Int)
  | opened (r : Nat) (user : User) (token : Text) (now : Int)
  | rotated (r : Nat) (now : Int) (body : Refreshed)
  | cleared (openId : Text) (answer : Answer)
  | answered (account : Option Text) (token : Param) (now : Int) (answer : Answer)
  | gated (A : Gate) (reached : Bool) (openId loginToken : Text) (decision : Option Decision)
  deriving DecidableEq, Repr

-- A request between two statements: it is about to clear tokens or to write an access token.
inductive Stage where
  | clearing (openId : Text) (answer : Answer)
  | rotating (user : User)
  deriving DecidableEq, Repr

structure Server where
  guests : List User
  requests : Nat → Option Stage
  log : List Mark

-- Each event is one statement of the store with the code around it. `renovate` is the operator's,
-- `give up` a request whose statement failed.
inductive Event where
  | insertUser (openId : Text) (uid : Nat)
  | renovate (openId : Text) (renovation : Bool)
  | login (openId access refresh : Text) (now : Int)
  | present (r : Nat) (route : Route) (token : Param) (now : Int)
  | refresh (r : Nat) (body query : Param) (now : Int)
  | logout (r : Nat) (accessToken refreshToken : Param) (now : Int)
  | clear (r : Nat)
  | rotate (r : Nat) (access : Text) (now : Int)
  | giveUp (r : Nat)
  | gate (A : Gate) (reached : Bool) (openId loginToken : Text)
  deriving DecidableEq, Repr

namespace Server

variable (v : Server)

def tell (m : Mark) : Server := { v with log := v.log ++ [m] }

def wait (r : Nat) (stage : Option Stage) : Server :=
  { v with requests := Function.update v.requests r stage }

def present (r : Nat) (route : Route) (token : Param) (now : Int) : Server :=
  match validate v.guests .access token now with
  | .ok user => v.tell (.answered (some user.openId) token now (route.welcome user))
  | .renovation openId =>
    v.wait r (some (.clearing openId (route.reject token (.renovation openId))))
  | verdict => v.tell (.answered none token now (route.reject token verdict))

-- POST /oauth/token up to its second statement.
def refresh (r : Nat) (token : Param) (now : Int) : Server :=
  match validate v.guests .refresh token now with
  | .ok user =>
    let given := match token with
      | .text t => t
      | _ => []
    (v.wait r (some (.rotating user))).tell (.opened r user given now)
  | .renovation openId => v.wait r (some (.clearing openId .invalidGrant))
  | _ => v.tell (.answered none token now .invalidGrant)

def logout (r : Nat) (accessToken refreshToken : Param) (now : Int) : Server :=
  match accessToken, refreshToken with
  | .text access, .text refresh =>
    match findByAccessAndRefreshToken v.guests access refresh with
    | none => v.tell (.answered none accessToken now .success)
    | some user => v.wait r (some (.clearing user.openId .result))
  | _, _ => v.tell (.answered none accessToken now .success)

def rotated (user : User) (access : Text) (now : Int) : Refreshed where
  accessToken := access
  expiryTime := now + ACCESS_TTL_SECONDS
  openId := user.openId
  refreshToken := user.refreshToken
  refreshExpiryTime := user.refreshExpiry
  uid := user.uid

def step : Event → Option Server
  | .insertUser openId uid => (OAuth.insertUser v.guests openId uid).map fun g => { v with guests := g }
  | .renovate openId renovation =>
    some { v with guests := updateGuest v.guests openId fun u => { u with renovation := renovation } }
  | .login openId access refresh now =>
    some ({ v with guests := setTokens v.guests openId (issueTokens access refresh now) }.tell
      (.issued openId access refresh now))
  | .present r route token now =>
    match v.requests r with
    | none => some (v.present r route token now)
    | some _ => none
  | .refresh r body query now =>
    match v.requests r with
    | none => some (v.refresh r (body.or query) now)
    | some _ => none
  | .logout r accessToken refreshToken now =>
    match v.requests r with
    | none => some (v.logout r accessToken refreshToken now)
    | some _ => none
  | .clear r =>
    match v.requests r with
    | some (.clearing openId answer) =>
      some (({ v with guests := clearTokens v.guests openId }.wait r none).tell (.cleared openId answer))
    | _ => none
  | .rotate r access now =>
    match v.requests r with
    | some (.rotating user) =>
      let body := rotated user access now
      some (({ v with guests :=
        refreshAccessToken v.guests user.openId access body.expiryTime }.wait r none).tell
          (.rotated r now body))
    | _ => none
  | .giveUp r =>
    match v.requests r with
    | some _ => some (v.wait r none)
    | none => none
  | .gate A reached openId loginToken =>
    some (v.tell (.gated A reached openId loginToken
      (A.checkRegistration v.guests reached openId loginToken)))

def Step (v : Server) (e : Event) (v' : Server) : Prop := v.step e = some v'

def start : Server := ⟨[], fun _ => none, []⟩

end Server

end OAuth

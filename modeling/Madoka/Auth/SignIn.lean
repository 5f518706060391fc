import Mathlib
import Madoka.Auth.Pairings
import Madoka.Lib.Run
import Madoka.Tokens.Prepare

namespace SignIn

open Lib Utf16

def DEFAULT_MAX_AGE_SECONDS : Int := 600

def PAIRING_TTL_SECONDS : Int := 600

def DATA_ACCESS_OFFSET_SECONDS : Int := 5183716

def GRANTED_SCOPES : String := "user_friends%2Cemail%2Copenid%2Cpublic_profile%2Cbasic_info"

def DEFAULT_REDIRECT_URI : Text := text "fbconnect://success"

def ALLOWED_REDIRECT_URIS : List Text := [text "fbconnect://success"]

def normalizeRedirectUri (uri : Text) : Text :=
  if uri ∈ ALLOWED_REDIRECT_URIS then uri else DEFAULT_REDIRECT_URI

def standardDigit (x : UInt8) : UInt8 :=
  if x = 45 then 43 else if x = 95 then 47 else x

def base64UrlDecode (bytes : List UInt8) : List UInt8 :=
  Base64.decodeLenient Base64.standard
    (bytes.map standardDigit ++ List.replicate ((4 - bytes.length % 4) % 4) Base64.equalsSign)

-- The secrets of the login server, HMAC-SHA256 and JSON.
structure Keys where
  mac : Tokens.Mac
  json : Tokens.JsonText
  stateSecret : List UInt8
  appSecret : List UInt8
  appId : Text

def stateBody (redirectUri pairId nonce : Text) (now : Int) : Json :=
  .obj ([("r", .str redirectUri), ("n", .str nonce), ("t", .int now)] ++
    if pairId = [] then [] else [("p", .str pairId)])

-- What signState signs, and the state it returns, as the bytes of its characters.
def encodedState (K : Keys) (redirectUri pairId nonce : Text) (now : Int) : List UInt8 :=
  Tokens.b64url (K.json.stringify (stateBody redirectUri pairId nonce now))

def signState (K : Keys) (redirectUri pairId nonce : Text) (now : Int) : List UInt8 :=
  let encoded := encodedState K redirectUri pairId nonce now
  encoded ++ Tokens.dot :: Tokens.b64url (K.mac.digest K.stateSecret encoded)

inductive Verdict where
  | ok (redirectUri : Text) (pairId : Option Text)
  | malformed
  | signature
  | expired
  deriving DecidableEq, Repr

def cut (state : List UInt8) : Option (List UInt8 × List UInt8) :=
  match state.dropWhile (· ≠ Tokens.dot) with
  | [] => none
  | _ :: sigPart => some (state.takeWhile (· ≠ Tokens.dot), sigPart)

-- The part of a state that its signature holds for.
def signedPart (K : Keys) (state : List UInt8) : Option (List UInt8) :=
  (cut state).bind fun (encoded, sigPart) =>
    if base64UrlDecode sigPart = K.mac.digest K.stateSecret encoded then some encoded else none

def pairOf (o : List (String × Json)) : Option Text :=
  match o.lookup "p" with
  | some (.str (c :: p)) => some (c :: p)
  | _ => none

def readBody (K : Keys) (encoded : List UInt8) (now : Int) : Verdict :=
  match K.json.parse (base64UrlDecode encoded) with
  | some (.obj o) =>
    match o.lookup "t", o.lookup "r" with
    | some (.num m k), some (.str (c :: r)) =>
      if now * 10 ^ k - m > DEFAULT_MAX_AGE_SECONDS * 10 ^ k then .expired else .ok (c :: r) (pairOf o)
    | _, _ => .malformed
  | _ => .malformed

def verifyState (K : Keys) (state : List UInt8) (now : Int) : Verdict :=
  match cut state with
  | none => .malformed
  | some _ =>
    match signedPart K state with
    | none => .signature
    | some encoded => readBody K encoded now

structure Ticket where
  uid : Text
  accessToken : Text
  createTime : Int
  deriving DecidableEq, Repr

def requestBody (K : Keys) (t : Ticket) : Json :=
  .obj [("algorithm", .str (text "HMAC-SHA256")), ("issued_at", .int t.createTime), ("user_id", .str t.uid),
    ("code", .str t.accessToken), ("app_id", .str K.appId),
    ("page", .obj [("id", .null), ("admin", .bool false), ("liked", .bool false)])]

def buildSignedRequest (K : Keys) (t : Ticket) : List UInt8 :=
  let encoded := Tokens.b64url (K.json.stringify (requestBody K t))
  Tokens.b64url (K.mac.digest K.appSecret encoded) ++ Tokens.dot :: encoded

def verifySignedRequest (K : Keys) (signedRequest : List UInt8) : Option Json :=
  (cut signedRequest).bind fun (sigPart, encoded) =>
    if base64UrlDecode sigPart = K.mac.digest K.appSecret encoded then
      K.json.parse (base64UrlDecode encoded)
    else none

def widen (bytes : List UInt8) : Text := bytes.map fun b => UInt16.ofNat b.toNat

def redirectUrl (K : Keys) (redirectUri : Text) (t : Ticket) : Text :=
  redirectUri ++ text "#granted_scopes=" ++ text GRANTED_SCOPES ++ text "&denied_scopes=" ++
    text "&signed_request=" ++ widen (buildSignedRequest K t) ++ text "&access_token=" ++ t.accessToken ++
    text "&data_access_expiration_time=" ++ text (toString (t.createTime + DATA_ACCESS_OFFSET_SECONDS)) ++
    text "&expires_in=1296000"

-- What completeDiscordLogin returns; it throws when a statement of it fails.
inductive Flow where
  | ok (ticket : Ticket)
  | renovation
  | threw
  deriving DecidableEq, Repr

-- A callback between two awaits.
inductive Stage where
  | findByPairId (redirectUri pairId : Text)
  | exchangeCode (redirectUri pairId : Text)
  | completeDiscordLogin (redirectUri pairId user : Text)
  | markCompleted (pairId url : Text)
  | markFailed (pairId error : Text)
  deriving DecidableEq, Repr

inductive Mark where
  | minted (pairId redirectUri nonce : Text) (now : Int)
  | verified (c : Nat) (redirectUri pairId : Text) (now : Int)
  | found (c : Nat) (row : Auth.Pairing)
  | identified (c : Nat) (user : Text)
  | signedIn (c : Nat) (user : Text) (ticket : Ticket)
  | completed (c : Nat) (pairId url : Text)
  | polled (pairId : Text) (reply : Auth.Reply)
  deriving DecidableEq, Repr

-- The pairings by their id, the callbacks under way and the number of the next one.
structure System where
  stores : Text → Auth.Store
  callbacks : Nat → Option Stage
  next : Nat
  log : List Mark

inductive Event where
  | dialog (pairId redirectUri nonce : Text) (created now : Int)
  | callback (state : List UInt8) (now : Int)
  | findByPairId (c : Nat) (now : Int)
  | exchangeCode (c : Nat) (user : Option Text)
  | completeDiscordLogin (c : Nat) (flow : Flow)
  | mark (c : Nat) (now : Int)
  | giveUp (c : Nat)
  | poll (pairId : Text) (op : Auth.Op) (now : Int)
  deriving DecidableEq, Repr

namespace System

variable (K : Keys) (b : Auth.Backend) (v : System)

def tell (m : Mark) : System := { v with log := v.log ++ [m] }

def put (pairId : Text) (s : Auth.Store) : System :=
  { v with stores := Function.update v.stores pairId s }

def goto (c : Nat) (stage : Option Stage) : System :=
  { v with callbacks := Function.update v.callbacks c stage }

def dialog (pairId redirectUri nonce : Text) (created now : Int) : System :=
  match (v.stores pairId).row with
  | some _ => v
  | none =>
    let uri := normalizeRedirectUri redirectUri
    (v.put pairId ((v.stores pairId).createPending created uri PAIRING_TTL_SECONDS)).tell
      (.minted pairId uri nonce now)

def callback (state : List UInt8) (now : Int) : System :=
  match verifyState K state now with
  | .ok redirectUri (some pairId) =>
    let v' := v.goto v.next (some (.findByPairId redirectUri pairId))
    { v' with next := v.next + 1 }.tell (.verified v.next redirectUri pairId now)
  | _ => v

def findByPairId (c : Nat) (redirectUri pairId : Text) (now : Int) : System :=
  match b.sees now (v.stores pairId).row with
  | some row =>
    if row.status = .pending then
      (v.goto c (some (.exchangeCode redirectUri pairId))).tell (.found c row)
    else v.goto c none
  | none => v.goto c none

def exchangeCode (c : Nat) (redirectUri pairId : Text) : Option Text → System
  | some user => (v.goto c (some (.completeDiscordLogin redirectUri pairId user))).tell (.identified c user)
  | none => v.goto c (some (.markFailed pairId (text "discord_api")))

def completeDiscordLogin (c : Nat) (redirectUri pairId user : Text) : Flow → System
  | .ok ticket =>
    (v.goto c (some (.markCompleted pairId (redirectUrl K redirectUri ticket)))).tell
      (.signedIn c user ticket)
  | .renovation => v.goto c (some (.markFailed pairId (text "renovation")))
  | .threw => v.goto c none

-- markCompleted tells whether the row was pending.
def markCompleted (c : Nat) (pairId url : Text) (now : Int) : System :=
  let s := v.stores pairId
  let v' := (v.put pairId (s.markCompleted b now url)).goto c none
  match b.sees now s.row with
  | some row => if row.status = .pending then v'.tell (.completed c pairId url) else v'
  | none => v'

def poll (pairId : Text) (op : Auth.Op) (now : Int) : Option System :=
  let s := v.stores pairId
  let s' := Auth.step b s ⟨now, op⟩
  let replies := (s'.answers.drop s.answers.length).map fun a => Mark.polled pairId a.reply
  match op with
  | .read _ => some { v.put pairId s' with log := v.log ++ replies }
  | .take _ => some { v.put pairId s' with log := v.log ++ replies }
  | .expire => some (v.put pairId s')
  | _ => none

def step : Event → Option System
  | .dialog pairId redirectUri nonce created now => some (v.dialog pairId redirectUri nonce created now)
  | .callback state now => some (v.callback K state now)
  | .findByPairId c now =>
    match v.callbacks c with
    | some (.findByPairId redirectUri pairId) => some (v.findByPairId b c redirectUri pairId now)
    | _ => none
  | .exchangeCode c user =>
    match v.callbacks c with
    | some (.exchangeCode redirectUri pairId) => some (v.exchangeCode c redirectUri pairId user)
    | _ => none
  | .completeDiscordLogin c flow =>
    match v.callbacks c with
    | some (.completeDiscordLogin redirectUri pairId user) =>
      some (v.completeDiscordLogin K c redirectUri pairId user flow)
    | _ => none
  | .mark c now =>
    match v.callbacks c with
    | some (.markCompleted pairId url) => some (v.markCompleted b c pairId url now)
    | some (.markFailed pairId error) =>
      some ((v.put pairId ((v.stores pairId).markFailed b now error)).goto c none)
    | _ => none
  | .giveUp c =>
    match v.callbacks c with
    | some _ => some (v.goto c none)
    | none => none
  | .poll pairId op now => v.poll b pairId op now

def Step (v : System) (e : Event) (v' : System) : Prop := v.step K b e = some v'

def start : System := ⟨fun _ => .empty, fun _ => none, 0, []⟩

end System

end SignIn

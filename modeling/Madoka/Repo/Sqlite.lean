import Madoka.Repo.Interface

namespace Repo.Sqlite

open Account

variable {ω : Type}

-- The stored document with the columns over it.
def rowToAccount (uid : Nat) (row : Row (Body ω)) : Document ω :=
  { row.state with
    uid := some uid
    openId := row.openId.or row.state.openId
    token := row.token.or row.state.token
    tokenCreatedAt := row.tokenCreatedAt.or row.state.tokenCreatedAt }

def getFriendIds (s : Store ω) (uid : Nat) : List Nat :=
  match s.getById rowToAccount uid with
  | none => []
  | some a => a.friends.getD []

def getRequestIds (s : Store ω) (uid : Nat) : List Nat :=
  match s.getById rowToAccount uid with
  | none => []
  | some a => a.requests.getD []

def pushNew (l : List Nat) (n : Nat) : List Nat :=
  if n ∈ l then l else l ++ [n]

def addRequest (now : Int) (s : Store ω) (target fro : Nat) : Store ω :=
  if target = 0 ∨ fro = 0 ∨ target = fro then s
  else
    match s.getById rowToAccount target with
    | none => s
    | some t =>
      if fro ∈ t.requests.getD [] then s
      else s.update now (t.setRequests (pushNew (t.requests.getD []) fro))

def removeRequest (now : Int) (s : Store ω) (target fro : Nat) : Store ω :=
  match s.getById rowToAccount target with
  | none => s
  | some t =>
    match t.requests with
    | none => s
    | some l =>
      if (l.filter (· ≠ fro)).length = l.length then s
      else s.update now (t.setRequests (l.filter (· ≠ fro)))

-- One side of addFriendship, and one of removeFriendship.
def befriend (now : Int) (s : Store ω) (self other : Nat) : Store ω :=
  match s.getById rowToAccount self with
  | none => s
  | some acc =>
    s.update now ((acc.setRequests ((acc.requests.getD []).filter (· ≠ other))).setFriends
      (pushNew (acc.friends.getD []) other))

def unfriend (now : Int) (s : Store ω) (self other : Nat) : Store ω :=
  match s.getById rowToAccount self with
  | none => s
  | some acc =>
    match acc.friends with
    | none => s
    | some l => s.update now (acc.setFriends (l.filter (· ≠ other)))

def addFriendship (now : Int) (s : Store ω) (a b : Nat) : Store ω :=
  if a = 0 ∨ b = 0 ∨ a = b then s else befriend now (befriend now s a b) b a

def removeFriendship (now : Int) (s : Store ω) (a b : Nat) : Store ω :=
  if a = 0 ∨ b = 0 then s else unfriend now (unfriend now s a b) b a

def getByToken (s : Store ω) (token : String) : Option (Document ω) :=
  if token = "" then none
  else (s.idsWhere fun row => row.token = some token).head?.bind (s.getById rowToAccount)

def handle (others : ω) (now : Int) (s : Store ω) : Call ω → Reply ω × Store ω
  | .createFromLogin req =>
    (.account (some (s.createFromLogin rowToAccount others now req).1),
      (s.createFromLogin rowToAccount others now req).2)
  | .getById uid => (.account (s.getById rowToAccount uid), s)
  | .getByOpenId openId => (.account (s.getByOpenId rowToAccount openId), s)
  | .getByToken token => (.account (getByToken s token), s)
  | .getByIds ids => (.accounts (ids.filterMap (s.getById rowToAccount)), s)
  | .save acc =>
    if acc.uid.getD 0 = 0 then (.thrown, s) else (.account (some (stored now acc)), s.update now acc)
  | .addRequest target fro => (.done, addRequest now s target fro)
  | .removeRequest target fro => (.done, removeRequest now s target fro)
  | .addFriendship a b => (.done, addFriendship now s a b)
  | .removeFriendship a b => (.done, removeFriendship now s a b)
  | .getFriendIds uid => (.ids (getFriendIds s uid), s)
  | .getRequestIds uid => (.ids (getRequestIds s uid), s)

end Repo.Sqlite

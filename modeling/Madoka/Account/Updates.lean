import Mathlib.Data.List.Perm.Basic
import Madoka.Lib.ReadModifyWrite
import Madoka.Account.Doc

namespace Account

open Lib

variable {ρ ι : Type}

def defaultPlayer (others : ρ) : Doc ρ where
  uid := some 0
  openId := none
  nickname := some "Player"
  role := some 1
  banned := some false
  banReason := none
  token := none
  tokenCreatedAt := some 0
  deviceId := none
  clientVersion := none
  lastLoginAt := none
  coins := some (.int 999999)
  rest := some others

-- `others` is the rest of DEFAULT_PLAYER; an empty document is replaced by the default one.
def rowToAccount [DecidableEq ρ] (others : ρ) (uid : Nat) (row : Row ρ) : Doc ρ :=
  let acc := if row.state = Doc.empty then defaultPlayer others else row.state
  { acc with
    uid := some uid
    openId := row.openId.or acc.openId
    token := row.token.or acc.token
    tokenCreatedAt := row.tokenCreatedAt.or acc.tokenCreatedAt }

def orInt (x : Option Int) (d : Int) : Int :=
  match x with
  | some n => if n = 0 then d else n
  | none => d

def stored (now : Int) (doc : Doc ρ) : Doc ρ :=
  { doc with lastLoginAt := some (orInt doc.lastLoginAt now) }

-- The UPDATE of save: every column but open_id, and the whole document.
def save (now : Int) (doc : Doc ρ) (row : Row ρ) : Row ρ where
  openId := row.openId
  token := doc.token
  tokenCreatedAt := some (doc.tokenCreatedAt.getD 0)
  state := stored now doc

-- An endpoint's handler: the document it leaves behind when it calls savePlayer.
structure Handler (ρ : Type) where
  run : Doc ρ → Option (Doc ρ)
  keeps : ∀ d d', run d = some d' → d'.uid = d.uid

structure LoginReq where
  openId : String
  deviceId : String
  clientVersion : String
  deriving DecidableEq, Repr

inductive Op (ρ : Type) where
  | http (token : String) (handler : Handler ρ)
  | majorLogin (req : LoginReq) (newToken : String) (nowSecs : Int) (enforceBans authBanned : Bool)
  | setRole (uid : Nat) (role : Int)
  | ban (uid : Nat) (reason : String)
  | unban (uid : Nat)

def Op.selects : Op ρ → Nat → Row ρ → Prop
  | .http token _, _, row => token ≠ "" ∧ row.token = some token
  | .majorLogin req _ _ _ _, _, row => req.openId ≠ "" ∧ row.openId = some req.openId
  | .setRole uid _, k, _ => uid ≠ 0 ∧ k = uid
  | .ban uid _, k, _ => uid ≠ 0 ∧ k = uid
  | .unban uid, k, _ => uid ≠ 0 ∧ k = uid

def checkBan (enforceBans authBanned : Bool) (doc : Doc ρ) : Bool :=
  enforceBans && (doc.banned == some true || authBanned)

def orElse (s : String) (old : Option String) : Option String :=
  if s = "" then old else some s

def Op.change : Op ρ → Doc ρ → Option (Doc ρ)
  | .http _ handler, doc => handler.run doc
  | .majorLogin req newToken nowSecs enforceBans authBanned, doc =>
    if checkBan enforceBans authBanned doc then none
    else some { doc with
      token := some newToken
      tokenCreatedAt := some nowSecs
      deviceId := orElse req.deviceId doc.deviceId
      clientVersion := orElse req.clientVersion doc.clientVersion }
  | .setRole _ role, doc => some { doc with role := some role }
  | .ban _ reason, doc => some { doc with
      banned := some true
      banReason := some (if reason = "" then "banned by admin" else reason) }
  | .unban _, doc =>
    if doc.banned = some true then some { doc with banned := some false, banReason := none }
    else none

theorem change_uid {op : Op ρ} {d d' : Doc ρ} (h : op.change d = some d') : d'.uid = d.uid := by
  cases op with
  | http token handler => exact handler.keeps d d' h
  | majorLogin req newToken nowSecs enforceBans authBanned =>
    simp only [Op.change] at h
    split at h
    · cases h
    · cases h
      rfl
  | unban uid =>
    simp only [Op.change] at h
    split at h
    · cases h
      rfl
    · cases h
  | _ =>
    cases h
    rfl

-- Requests, logins and admin commands save whole documents; a settlement credit is the
-- jsonb_set of one field, run in its transaction.
def access [DecidableEq ρ] (others : ρ) : Access Nat (Row ρ) (Doc ρ) (Nat × Op ρ) Int Int where
  selects := fun op k row => k = op.1 ∧ op.2.selects k row
  view := fun op row => op.2.change (rowToAccount others op.1 row)
  write := save
  change := fun coins row => (creditCoins row.state coins).map fun state => { row with state := state }

end Account

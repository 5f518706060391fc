import Madoka.Account.Store

namespace Repo

open Account

variable {ω : Type}

-- The calls of getRepo() on the account stores; an id that is no number is 0.
inductive Call (ω : Type) where
  | createFromLogin (req : LoginObj)
  | getById (uid : Nat)
  | getByOpenId (openId : String)
  | getByToken (token : String)
  | getByIds (ids : List Nat)
  | save (acc : Document ω)
  | addRequest (target fro : Nat)
  | removeRequest (target fro : Nat)
  | addFriendship (a b : Nat)
  | removeFriendship (a b : Nat)
  | getFriendIds (uid : Nat)
  | getRequestIds (uid : Nat)
  deriving DecidableEq

inductive Reply (ω : Type) where
  | account (acc : Option (Document ω))
  | accounts (accs : List (Document ω))
  | ids (l : List Nat)
  | done
  | thrown
  deriving DecidableEq

-- A document without its timestamps and its own copies of the friend lists.
def bare (d : Document ω) : Document ω :=
  ({ d with lastLoginAt := none } : Document ω).onBody fun b =>
    { b with createdAt := none, friends := none, requests := none }

-- Two replies that differ in list order, timestamps and the documents' friend lists at most.
def Reply.Agrees : Reply ω → Reply ω → Prop
  | .account a, .account b => a.map bare = b.map bare
  | .accounts l, .accounts m => (l.map bare).Perm (m.map bare)
  | .ids l, .ids m => l.Perm m
  | .done, .done => True
  | .thrown, .thrown => True
  | _, _ => False

-- A friend relation is symmetric and irreflexive.
structure Mutual (ids : Nat → List Nat) : Prop where
  symm : ∀ a b, b ∈ ids a → a ∈ ids b
  irrefl : ∀ a, a ∉ ids a

-- What a document keeps of itself in the columns of its row.
def columns (openId : Option String) (d : Document ω) : Document ω :=
  { d with openId := openId.or d.openId, tokenCreatedAt := some (d.tokenCreatedAt.getD 0) }

section

variable {d e : Document ω} {l : List Nat}

theorem bare_stored (now : Int) : bare (stored now d) = bare d := rfl

theorem bare_columns (openId : Option String) : bare (columns openId d) = columns openId (bare d) := rfl

theorem uid_of_bare (h : bare d = bare e) : d.uid = e.uid := by
  have huid := congrArg Doc.uid h
  exact huid

theorem token_of_bare (h : bare d = bare e) : d.token = e.token := by
  have htoken := congrArg Doc.token h
  exact htoken

theorem bare_refreshed (req : LoginObj) (h : bare d = bare e) :
    bare (refreshed req d) = bare (refreshed req e) := by
  have hd : ∀ d : Document ω, bare (refreshed req d) = refreshed req (bare d) := fun _ => rfl
  rw [hd, hd, h]

end

end Repo

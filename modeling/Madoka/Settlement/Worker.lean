import Mathlib.Algebra.Group.Nat.Defs
import Mathlib.Logic.Function.Basic
import Madoka.Lib.Run
import Madoka.Account.Doc

namespace Settlement

open Lib Account

structure PlayerResult where
  accountId : Nat
  coins : Option Int
  kills : Option Int
  deaths : Option Int
  win : Option Bool
  rankPoints : Option Int
  xp : Option Int
  deriving DecidableEq, Repr

structure MatchResult where
  matchId : String
  players : Option (List PlayerResult)
  deriving DecidableEq, Repr

structure LedgerRow where
  coins : Int
  kills : Int
  deaths : Int
  win : Bool
  rankPoints : Int
  xp : Int
  settledAt : Int
  deriving DecidableEq, Repr

abbrev Key := String × Nat

-- `x | 0` in the source: undefined counts as 0, any other number is wrapped to 32 bits.
def orZero (x : Option Int) : Int :=
  Int.bmod (x.getD 0) (2 ^ 32)

def rowOf (pr : PlayerResult) (now : Int) : LedgerRow where
  coins := orZero pr.coins
  kills := orZero pr.kills
  deaths := orZero pr.deaths
  win := pr.win.getD false
  rankPoints := orZero pr.rankPoints
  xp := orZero pr.xp
  settledAt := now

structure Job where
  matchId : String
  pr : PlayerResult
  rest : List PlayerResult
  credited : Nat
  deriving DecidableEq, Repr

def Job.key (j : Job) : Key := (j.matchId, j.pr.accountId)

variable {ρ W : Type}

-- A worker between two awaits of handleMatchResult; `now` is the Date.now() of its INSERT.
inductive Worker (ρ : Type) where
  | idle
  | players (matchId : String) (rest : List PlayerResult) (credited : Nat)
  | begun (j : Job)
  | conflict (j : Job) (now : Int)
  | inserted (j : Job) (now : Int)
  | updated (j : Job) (now : Int) (row : Row ρ)
  deriving DecidableEq, Repr

def Worker.insertion : Worker ρ → Option (Key × LedgerRow)
  | .inserted j now => some (j.key, rowOf j.pr now)
  | .updated j now _ => some (j.key, rowOf j.pr now)
  | _ => none

def Worker.update : Worker ρ → Option (Nat × Row ρ)
  | .updated j _ row => some (j.pr.accountId, row)
  | _ => none

def Worker.attempt : Worker ρ → Option (Job × Int)
  | .conflict j now => some (j, now)
  | .inserted j now => some (j, now)
  | .updated j now _ => some (j, now)
  | _ => none

structure Db (ρ : Type) where
  matchResults : List (Key × LedgerRow)
  accounts : Nat → Option (Row ρ)

def Db.commit (db : Db ρ) (w : Worker ρ) : Db ρ where
  matchResults := db.matchResults ++ w.insertion.toList
  accounts := match w.update with
    | none => db.accounts
    | some (a, row) => Function.update db.accounts a (some row)

def Db.credit (db : Db ρ) (accountId : Nat) (n : Int) : Option (Row ρ) := do
  let row ← db.accounts accountId
  let state ← creditCoins row.state n
  some { row with state := state }

structure State (ρ W : Type) where
  db : Db ρ
  workers : W → Worker ρ

inductive Event where
  | deliver (mr : MatchResult)
  | commit (k : Key) (r : LedgerRow)
  | internal
  deriving DecidableEq, Repr

def handleMatchResult (mr : MatchResult) : Worker ρ :=
  match mr.players with
  | some prs => if mr.matchId = "" then .idle else .players mr.matchId prs 0
  | none => .idle

variable [DecidableEq W]

def State.goto (s : State ρ W) (w : W) (pc : Worker ρ) : State ρ W :=
  { s with workers := Function.update s.workers w pc }

def Keyed (s : State ρ W) (w : W) (k : Key) : Prop :=
  ∃ r, (s.workers w).insertion = some (k, r)

def Holds (s : State ρ W) (w : W) (a : Nat) : Prop :=
  ∃ row, (s.workers w).update = some (a, row)

-- The transaction is ready for COMMIT: no coins to credit, or the UPDATE has run.
def Worker.done : Worker ρ → Prop
  | .conflict _ _ => True
  | .inserted j _ => orZero j.pr.coins ≤ 0
  | .updated _ _ _ => True
  | _ => False

def Worker.inTx : Worker ρ → Prop
  | .begun _ => True
  | .conflict _ _ => True
  | .inserted _ _ => True
  | .updated _ _ _ => True
  | _ => False

def Worker.returned : Worker ρ → Worker ρ
  | .conflict j _ => .players j.matchId j.rest j.credited
  | .inserted j _ => .players j.matchId j.rest j.credited
  | .updated j _ _ => .players j.matchId j.rest (j.credited + 1)
  | w => w

inductive Step : State ρ W → Event → State ρ W → Prop where
  | deliver {s : State ρ W} (w : W) (mr : MatchResult) (h : s.workers w = .idle) :
      Step s (.deliver mr) (s.goto w (handleMatchResult mr))
  | skip {s : State ρ W} {w : W} {m : String} {pr : PlayerResult} {rest : List PlayerResult}
      {c : Nat} (h : s.workers w = .players m (pr :: rest) c) (h0 : pr.accountId = 0) :
      Step s .internal (s.goto w (.players m rest c))
  | begin {s : State ρ W} {w : W} {m : String} {pr : PlayerResult} {rest : List PlayerResult}
      {c : Nat} (h : s.workers w = .players m (pr :: rest) c) (h0 : pr.accountId ≠ 0) :
      Step s .internal (s.goto w (.begun ⟨m, pr, rest, c⟩))
  | conflict {s : State ρ W} {w : W} {j : Job} (now : Int) (h : s.workers w = .begun j)
      (hk : j.key ∈ s.db.matchResults.map Prod.fst) :
      Step s .internal (s.goto w (.conflict j now))
  -- An INSERT waits while another open transaction has inserted the same key; the foreign key
  -- needs the account.
  | insert {s : State ρ W} {w : W} {j : Job} (now : Int) (h : s.workers w = .begun j)
      (hk : j.key ∉ s.db.matchResults.map Prod.fst) (hfree : ∀ w', ¬ Keyed s w' j.key)
      (hfk : (s.db.accounts j.pr.accountId).isSome) :
      Step s .internal (s.goto w (.inserted j now))
  -- The UPDATE waits for the row lock and then reads the row as last committed.
  | update {s : State ρ W} {w : W} {j : Job} {now : Int} {row : Row ρ}
      (h : s.workers w = .inserted j now) (hc : 0 < orZero j.pr.coins)
      (hfree : ∀ w', ¬ Holds s w' j.pr.accountId)
      (hrow : s.db.credit j.pr.accountId (orZero j.pr.coins) = some row) :
      Step s .internal (s.goto w (.updated j now row))
  | commit {s : State ρ W} {w : W} {j : Job} {now : Int} (hd : (s.workers w).done)
      (ha : (s.workers w).attempt = some (j, now)) :
      Step s (.commit j.key (rowOf j.pr now))
        { db := s.db.commit (s.workers w)
          workers := Function.update s.workers w (s.workers w).returned }
  -- The server committed but the reply was lost: the handler throws.
  | commitLost {s : State ρ W} {w : W} {j : Job} {now : Int} (hd : (s.workers w).done)
      (ha : (s.workers w).attempt = some (j, now)) :
      Step s (.commit j.key (rowOf j.pr now))
        { db := s.db.commit (s.workers w)
          workers := Function.update s.workers w .idle }
  -- A statement that fails, a lost connection or a crash before COMMIT takes effect.
  | abort {s : State ρ W} {w : W} (h : (s.workers w).inTx) :
      Step s .internal (s.goto w .idle)
  | crash {s : State ρ W} {w : W} {m : String} {rest : List PlayerResult} {c : Nat}
      (h : s.workers w = .players m rest c) : Step s .internal (s.goto w .idle)
  | finish {s : State ρ W} {w : W} {m : String} {c : Nat} (h : s.workers w = .players m [] c) :
      Step s .internal (s.goto w .idle)

def start (accounts : Nat → Option (Row ρ)) : State ρ W where
  db := ⟨[], accounts⟩
  workers := fun _ => .idle

def commits (es : List Event) : List (Key × LedgerRow) :=
  es.filterMap fun
    | .commit k r => some (k, r)
    | _ => none

def delivered (es : List Event) : List MatchResult :=
  es.filterMap fun
    | .deliver mr => some mr
    | _ => none

end Settlement

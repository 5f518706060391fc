import Mathlib.Data.Finset.Insert
import Mathlib.Logic.Function.Basic
import Madoka.Lib.Run

namespace Bus

open Lib

variable {β C : Type}

structure Entry (β : Type) where
  id : Nat
  env : Option β
  deriving DecidableEq, Repr

inductive Consumer (β : Type) where
  | stopped
  | reading
  | batch (xs : List (Entry β))
  | acking (x : Entry β) (xs : List (Entry β))
  deriving DecidableEq, Repr

-- `acked` and `dropped` record which XACK calls took effect and why they were sent.
structure State (β C : Type) where
  entries : List (Entry β)
  next : Nat
  created : Bool
  lastDelivered : Nat
  pending : List Nat
  acked : Finset Nat
  dropped : Finset Nat
  consumers : C → Consumer β

inductive Impl where
  | node
  | go
  deriving DecidableEq, Repr

inductive Reply where
  | ok
  | lost
  | failed
  deriving DecidableEq, Repr

def Reply.took : Reply → Bool
  | .failed => false
  | _ => true

inductive Event (β C : Type) where
  | publish (env : Option β) (trim : Nat)
  | subscribe (c : C) (ok : Bool)
  | read (c : C)
  | readLost (c : C)
  | handle (c : C) (ok : Bool)
  | drop (c : C) (r : Reply)
  | ack (c : C) (r : Reply)
  | again (c : C)
  | stop (c : C)

def streamMaxLen : Nat := 100000

def count : Nat := 32

def State.unread (s : State β C) : List (Entry β) :=
  s.entries.filter fun x => s.lastDelivered < x.id

def Consumer.held : Consumer β → List (Entry β)
  | .batch xs => xs
  | .acking x xs => x :: xs
  | _ => []

variable [DecidableEq C]

def State.goto (s : State β C) (c : C) (pc : Consumer β) : State β C :=
  { s with consumers := Function.update s.consumers c pc }

-- XREADGROUP with id '>': only entries past the group's cursor, which it moves.
def State.readGroup (s : State β C) : State β C :=
  let xs := s.unread.take count
  { s with
    lastDelivered := (xs.getLast?.map Entry.id).getD s.lastDelivered
    pending := s.pending ++ xs.map Entry.id }

def State.xack (s : State β C) (id : Nat) (r : Reply) : State β C :=
  if r.took then { s with pending := s.pending.erase id } else s

-- In the Node loop the XACK of an undecodable entry stands outside the try: its error ends
-- the loop. The Go loop ignores the error.
def afterDrop (impl : Impl) (r : Reply) (xs : List (Entry β)) : Consumer β :=
  match impl, r with
  | _, .ok => .batch xs
  | .node, _ => .stopped
  | .go, _ => .batch xs

def step (impl : Impl) (s : State β C) : Event β C → Option (State β C)
  | .publish env trim =>
    if trim = 0 ∨ trim + streamMaxLen ≤ s.entries.length + 1 then
      some { s with
        entries := (s.entries ++ [Entry.mk s.next env]).drop trim
        next := s.next + 1 }
    else none
  | .subscribe c ok =>
    match s.consumers c with
    | .stopped => some { s.goto c .reading with created := s.created || ok }
    | _ => none
  | .read c =>
    match s.consumers c with
    | .reading =>
      if s.created = true ∧ s.unread ≠ [] then
        some (s.readGroup.goto c (.batch (s.unread.take count)))
      else none
    | _ => none
  | .readLost c =>
    match s.consumers c with
    | .reading => if s.created = true ∧ s.unread ≠ [] then some s.readGroup else none
    | _ => none
  | .handle c ok =>
    match s.consumers c with
    | .batch (x :: xs) =>
      if x.env.isSome then some (s.goto c (if ok then .acking x xs else .batch xs)) else none
    | _ => none
  | .drop c r =>
    match s.consumers c with
    | .batch (x :: xs) =>
      if x.env.isSome then none
      else some { (s.goto c (afterDrop impl r xs)).xack x.id r with
        dropped := if r.took then insert x.id s.dropped else s.dropped }
    | _ => none
  | .ack c r =>
    match s.consumers c with
    | .acking x xs => some { (s.goto c (.batch xs)).xack x.id r with
        acked := if r.took then insert x.id s.acked else s.acked }
    | _ => none
  | .again c =>
    match s.consumers c with
    | .batch [] => some (s.goto c .reading)
    | _ => none
  | .stop c => some (s.goto c .stopped)

def Step (impl : Impl) (s : State β C) (e : Event β C) (t : State β C) : Prop :=
  step impl s e = some t

def start : State β C where
  entries := []
  next := 1
  created := false
  lastDelivered := 0
  pending := []
  acked := ∅
  dropped := ∅
  consumers := fun _ => .stopped

def Published (s : State β C) (id : Nat) : Prop := 1 ≤ id ∧ id < s.next

def Settled (s : State β C) (id : Nat) : Prop := id ∈ s.acked ∨ id ∈ s.dropped

def Readable (s : State β C) (id : Nat) : Prop := id ∈ s.unread.map Entry.id

instance (s : State β C) (id : Nat) : Decidable (Published s id) :=
  inferInstanceAs (Decidable (_ ∧ _))

instance (s : State β C) (id : Nat) : Decidable (Settled s id) :=
  inferInstanceAs (Decidable (_ ∨ _))

instance (s : State β C) (id : Nat) : Decidable (Readable s id) :=
  inferInstanceAs (Decidable (_ ∈ _))

def InHand (s : State β C) (id : Nat) : Prop := ∃ c, id ∈ (s.consumers c).held.map Entry.id

def AtLeastOnce (s : State β C) : Prop :=
  ∀ id, Published s id → Settled s id ∨ Readable s id ∨ InHand s id

-- What the environment must not do for the loops to lose nothing.
def Harmless (impl : Impl) (s : State β C) : Event β C → Prop
  | .publish env trim => ∀ x ∈ (s.entries ++ [Entry.mk s.next env]).take trim, x.id ≤ s.lastDelivered
  | .readLost _ => False
  | .handle _ ok => ok = true
  | .drop c r => r.took = true ∧ (impl = .node → r ≠ .ok → (s.consumers c).held.length ≤ 1)
  | .ack _ r => r.took = true
  | .stop c => (s.consumers c).held = []
  | _ => True

end Bus

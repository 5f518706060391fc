import Mathlib.Logic.Function.Basic
import Madoka.Lib.Run

namespace Sessions

inductive Command where
  | auth
  | heartbeat
  | app (protocol : Nat)
  deriving DecidableEq, Repr

structure ClientFrame where
  cmd : Command
  region : Nat
  payload : List UInt8
  deriving DecidableEq, Repr

structure Account where
  uid : Nat
  banned : Bool
  openId : Option String
  deriving DecidableEq, Repr

structure Entry where
  socket : Nat
  account : Account
  region : Nat
  lastSeen : Nat
  deriving DecidableEq, Repr

-- Where handleFrame is suspended.
inductive Await where
  | idle
  | getByToken (f : ClientFrame)
  | isBanned (f : ClientFrame) (account : Account)
  deriving DecidableEq, Repr

-- A connection: what handleConnection captures, the chunks and frames that its promise chain
-- still has to process, and the state of the socket.
structure Conn where
  buf : List UInt8
  entry : Option Entry
  chunks : List (List UInt8)
  frames : List ClientFrame
  await : Await
  doomed : Bool
  destroyed : Bool
  closed : Bool
  deriving DecidableEq, Repr

structure State where
  sessions : Nat → Option Entry
  conns : Nat → Option Conn

-- decrypt and the UTF-8 reading of a token; none: it throws.
structure World where
  decrypt : List UInt8 → Option String
  enforceBans : Bool
  authEnabled : Bool

-- A row of the auth store.
structure AuthAccount where
  banned : Bool
  authorized : Bool
  deriving DecidableEq, Repr

inductive Event where
  | connect (s : Nat)
  | data (s : Nat) (chunk : List UInt8)
  | next (s : Nat) (now : Nat)
  | token (s : Nat) (account : Option Account)
  | gate (s : Nat) (row : Option AuthAccount) (now : Nat)
  | reject (s : Nat)
  | kick (uid : Nat)
  | timer (s : Nat)
  | close (s : Nat)
  deriving DecidableEq, Repr

def cmdOf (b : Nat) : Command :=
  if b = 1 then .auth else if b = 2 then .heartbeat else .app b

def byteAt (b : List UInt8) (i : Nat) : Nat := (b.getD i 0).toNat

def readUInt32BE (b : List UInt8) (i : Nat) : Nat :=
  ((byteAt b i * 256 + byteAt b (i + 1)) * 256 + byteAt b (i + 2)) * 256 + byteAt b (i + 3)

-- Every turn of the loop takes two bytes or more: the length of the buffer is fuel enough.
def parseFrames : Nat → List UInt8 → List ClientFrame × List UInt8
  | 0, buf => ([], buf)
  | fuel + 1, buf =>
    if buf.length < 2 then ([], buf)
    else
      let cmd := cmdOf (byteAt buf 0)
      let region := byteAt buf 1
      if cmd = .heartbeat then
        let parsed := parseFrames fuel (buf.drop 2)
        (⟨cmd, region, []⟩ :: parsed.1, parsed.2)
      else if buf.length < 6 then ([], buf)
      else
        let len := readUInt32BE buf 2
        if buf.length < 6 + len then ([], buf)
        else
          let parsed := parseFrames fuel (buf.drop (6 + len))
          (⟨cmd, region, (buf.drop 6).take len⟩ :: parsed.1, parsed.2)

def parseClientFrames (buf : List UInt8) : List ClientFrame × List UInt8 :=
  parseFrames buf.length buf

def connection : Conn := ⟨[], none, [], [], .idle, false, false, false⟩

namespace State

variable (st : State) (s : Nat)

def put (c : Conn) : State := { st with conns := Function.update st.conns s (some c) }

def onConn (f : Conn → Conn) : State :=
  match st.conns s with
  | some c => st.put s (f c)
  | none => st

def destroy : State := st.onConn s fun c => { c with destroyed := true }

-- The former socket of the account goes, the new entry takes its place in the table.
def register (e : Entry) : State :=
  let st :=
    match st.sessions e.account.uid with
    | some prev => if prev.socket ≠ e.socket then st.destroy prev.socket else st
    | none => st
  { st with sessions := Function.update st.sessions e.account.uid (some e) }

-- entry.lastSeen = Date.now(): the entry of the connection and that of the table are one object.
def touch (now : Nat) : State :=
  match (st.conns s).bind fun c => c.entry with
  | none => st
  | some e =>
    let seen := { e with lastSeen := now }
    let st := st.onConn s fun c => { c with entry := some seen }
    if st.sessions e.account.uid = some e then
      { st with sessions := Function.update st.sessions e.account.uid (some seen) }
    else st

end State

variable (w : World)

-- No row: there is none, or the auth store failed, which lets the account through.
def isBanned (account : Account) (row : Option AuthAccount) : Bool :=
  if w.enforceBans = false then false
  else if account.banned then true
  else if w.authEnabled = false ∨ account.openId = none then false
  else row.any fun a => a.banned || !a.authorized

-- handleFrame up to its first await.
def handleFrame (st : State) (s now : Nat) (f : ClientFrame) : State :=
  match f.cmd with
  | .heartbeat => st.touch s now
  | .auth =>
    match w.decrypt f.payload with
    | none => st.destroy s
    -- The empty token is no account without asking the database.
    | some token =>
      if token = "" then st.destroy s else st.onConn s fun c => { c with await := .getByToken f }
  | .app _ => st.touch s now

-- The promise chain goes on: the next frame, or the next chunk.
def proceed (st : State) (s now : Nat) (c : Conn) : Option State :=
  if c.await ≠ .idle then none
  else
    match c.frames, c.chunks with
    | f :: fs, _ => some (handleFrame w (st.put s { c with frames := fs }) s now f)
    | [], chunk :: rest =>
      let parsed := parseClientFrames (c.buf ++ chunk)
      some (st.put s { c with chunks := rest, frames := parsed.1, buf := parsed.2 })
    | [], [] => none

def step (st : State) : Event → Option State
  | .connect s =>
    match st.conns s with
    | none => some (st.put s connection)
    | some _ => none
  | .data s chunk =>
    (st.conns s).bind fun c =>
      if c.destroyed ∨ c.closed then none else some (st.put s { c with chunks := c.chunks ++ [chunk] })
  | .next s now => (st.conns s).bind (proceed w st s now)
  | .token s account =>
    (st.conns s).bind fun c =>
      match c.await, account with
      | .getByToken f, some account => some (st.put s { c with await := .isBanned f account })
      | .getByToken _, none => some (st.put s { c with await := .idle, destroyed := true })
      | _, _ => none
  | .gate s row now =>
    (st.conns s).bind fun c =>
      match c.await with
      | .isBanned f account =>
        if isBanned w account row then some (st.put s { c with await := .idle, doomed := true })
        else
          let e : Entry := ⟨s, account, f.region, now⟩
          some ((st.register e).onConn s fun c => { c with await := .idle, entry := some e })
      | _ => none
  | .reject s =>
    (st.conns s).bind fun c =>
      match c.await with
      | .getByToken _ => some (st.put s { c with await := .idle })
      | _ => none
  | .kick uid => (st.sessions uid).map fun e => st.onConn e.socket fun c => { c with doomed := true }
  | .timer s =>
    (st.conns s).bind fun c => if c.doomed then some (st.put s { c with destroyed := true }) else none
  | .close s =>
    (st.conns s).bind fun c =>
      if c.closed then none
      else
        let st := st.put s { c with closed := true, destroyed := true }
        match c.entry with
        | some e =>
          if (st.sessions e.account.uid).map Entry.socket = some s then
            some { st with sessions := Function.update st.sessions e.account.uid none }
          else some st
        | none => some st

def Step (st : State) (e : Event) (st' : State) : Prop := step w st e = some st'

def start : State := ⟨fun _ => none, fun _ => none⟩

end Sessions

import Mathlib.Logic.Function.Basic
import Madoka.Lib.Run
import Madoka.Rooms.Record

namespace Rooms

inductive Op where
  | create (account : Account) (req : CreateReq) (now : Nat)
  | join (account : Account) (req : JoinReq)
  | leave (accountId : Nat)
  | kick (ownerId roomId targetId : Nat)
  | change (accountId : Nat) (req : ChangeReq)
  | setReady (accountId : Nat) (ready : Bool)
  | switchSeat (accountId : Nat) (req : SwitchSeatReq)
  | startMatch (ownerId roomId : Nat)
  | reenter (roomId : Nat)
  deriving DecidableEq, Repr

inductive Cmd where
  | setRoom (room : Room)
  | delRoom (roomId : Nat)
  | setMember (accountId roomId : Nat)
  | delMember (accountId : Nat)
  deriving DecidableEq, Repr

inductive Outcome where
  | ok
  | error (e : RoomErr)
  | failed
  deriving DecidableEq, Repr

-- An operation between two awaits. `done` and `todo` are the writes of its body.
inductive Pc where
  | resolve (op : Op)
  | incr (op : Op)
  | lock (op : Op) (roomId : Nat)
  | load (op : Op) (roomId : Nat)
  | body (op : Op) (roomId : Nat) (done todo : List Cmd)
  | release (op : Op) (roomId : Nat) (out : Outcome)
  | finished (op : Op) (out : Outcome)
  deriving DecidableEq, Repr

structure State where
  rooms : Nat → Option Room
  members : Nat → Option Nat
  seq : Nat
  locks : Nat → Option Nat
  ops : Nat → Option Pc

inductive Event where
  | call (i : Nat) (op : Op)
  | next (i : Nat)
  | timeout (i : Nat)
  | fail (i : Nat)
  | expire (roomId : Nat)
  deriving DecidableEq, Repr

def joinBody (account : Account) (req : JoinReq) : Option Room → Except RoomErr (List Cmd)
  | none => .error .noRoom
  | some room =>
    if room.state ≠ .waiting then .error .roomInGame
    else if req.code ≠ "" ∧ room.code ≠ "" ∧ req.code ≠ room.code then .error .invalidCode
    else if account.uid ∈ room.ids then .error .alreadyInRoom
    else if room.maxMemberNum ≤ room.members.length then .error .reachMaxMembers
    else .ok [.setRoom (joined room account), .setMember account.uid room.id]

-- The HDEL of the leaver comes before the room is tested for null.
def leaveBody (accountId : Nat) : Option Room → Except RoomErr (List Cmd)
  | none => .ok [.delMember accountId]
  | some room =>
    if room.owner = accountId ∨ room.members.length ≤ 1 then
      .ok (.delMember accountId :: .delRoom room.id ::
        (room.ids.filter (· ≠ accountId)).map .delMember)
    else .ok [.delMember accountId, .setRoom (without room accountId)]

def kickBody (ownerId targetId : Nat) : Option Room → Except RoomErr (List Cmd)
  | none => .error .noRoom
  | some room =>
    if room.owner ≠ ownerId then .error .notOwner
    else if targetId = ownerId then .error .cannotKick
    else if targetId ∉ room.ids then .error .notInRoom
    else .ok [.setRoom (without room targetId), .delMember targetId]

def changeBody (accountId : Nat) (req : ChangeReq) : Option Room → Except RoomErr (List Cmd)
  | none => .error .noRoom
  | some room =>
    if room.owner ≠ accountId then .error .notOwner
    else if room.state ≠ .waiting then .error .roomInGame
    else .ok [.setRoom (changed room req)]

def setReadyBody (accountId : Nat) (ready : Bool) : Option Room → Except RoomErr (List Cmd)
  | none => .error .notInRoom
  | some room =>
    if accountId ∉ room.ids then .error .notInRoom
    else .ok [.setRoom (readied room accountId ready)]

def switchSeatBody (accountId : Nat) (req : SwitchSeatReq) :
    Option Room → Except RoomErr (List Cmd)
  | none => .error .noRoom
  | some room =>
    if room.state ≠ .waiting then .error .roomInGame
    else if accountId ∉ room.ids then .error .notInRoom
    else
      let group := req.toRoomPos + 1
      if group < 1 ∨ (numTeams : Int) < group ∨ req.toGroupPos < 0 ∨
          (perTeamCap room : Int) ≤ req.toGroupPos then .error .cannotSwitchSeat
      else if room.members.any fun m =>
          m.accountId ≠ accountId ∧ m.group = group.toNat ∧ m.seat = req.toGroupPos.toNat then
        .error .seatOccupied
      else .ok [.setRoom (seated room accountId group.toNat req.toGroupPos.toNat)]

def startMatchBody (ownerId : Nat) : Option Room → Except RoomErr (List Cmd)
  | none => .error .noRoom
  | some room =>
    if room.owner ≠ ownerId then .error .notOwner
    else if room.state ≠ .waiting then .error .roomInGame
    else .ok [.setRoom { room with state := .inGame }]

def reenterBody : Option Room → Except RoomErr (List Cmd)
  | none => .ok []
  | some room =>
    if room.state = .inGame then .ok [.setRoom { room with state := .waiting }] else .ok []

def Op.body : Op → Option Room → Except RoomErr (List Cmd)
  | .create _ _ _ => fun _ => .ok []
  | .join account req => joinBody account req
  | .leave accountId => leaveBody accountId
  | .kick ownerId _ targetId => kickBody ownerId targetId
  | .change accountId req => changeBody accountId req
  | .setReady accountId ready => setReadyBody accountId ready
  | .switchSeat accountId req => switchSeatBody accountId req
  | .startMatch ownerId _ => startMatchBody ownerId
  | .reenter _ => reenterBody

def createCmds (account : Account) (req : CreateReq) (id now : Nat) : List Cmd :=
  [.setRoom (newRoom account req id now), .setMember account.uid id]

def Op.call : Op → Pc
  | .create account req now => .resolve (.create account req now)
  | .join account req =>
    if req.roomId ≠ 0 then .lock (.join account req) req.roomId
    else if req.code ≠ "" then .resolve (.join account req)
    else .finished (.join account req) (.error .noRoom)
  | .leave accountId => .resolve (.leave accountId)
  | .kick ownerId roomId targetId => .lock (.kick ownerId roomId targetId) roomId
  | .change accountId req => .lock (.change accountId req) req.roomId
  | .setReady accountId ready => .resolve (.setReady accountId ready)
  | .switchSeat accountId req =>
    if req.roomId ≠ 0 then .lock (.switchSeat accountId req) req.roomId
    else .resolve (.switchSeat accountId req)
  | .startMatch ownerId roomId => .lock (.startMatch ownerId roomId) roomId
  | .reenter roomId => .lock (.reenter roomId) roomId

-- HGETALL rooms: the keys are integers, which the client lists in ascending order.
def State.allRooms (s : State) : List Room :=
  (List.range (s.seq + 1)).filterMap s.rooms

-- The reads made before the lock is taken.
def resolve (s : State) : Op → Pc
  | .create account req now =>
    match s.members account.uid with
    | some _ => .finished (.create account req now) (.error .alreadyInRoom)
    | none => .incr (.create account req now)
  | .join account req =>
    match s.allRooms.find? fun r => r.code ≠ "" ∧ r.code = req.code with
    | some r => .lock (.join account req) r.id
    | none => .finished (.join account req) (.error .noRoom)
  | .leave accountId =>
    match s.members accountId with
    | some roomId => .lock (.leave accountId) roomId
    | none => .finished (.leave accountId) .ok
  | .setReady accountId ready =>
    match s.members accountId with
    | some roomId => .lock (.setReady accountId ready) roomId
    | none => .finished (.setReady accountId ready) (.error .notInRoom)
  | .switchSeat accountId req =>
    match s.members accountId with
    | some roomId => .lock (.switchSeat accountId req) roomId
    | none => .finished (.switchSeat accountId req) (.error .notInRoom)
  | op => .finished op .ok

def State.write (s : State) : Cmd → State
  | .setRoom room => { s with rooms := Function.update s.rooms room.id (some room) }
  | .delRoom roomId => { s with rooms := Function.update s.rooms roomId none }
  | .setMember accountId roomId =>
    { s with members := Function.update s.members accountId (some roomId) }
  | .delMember accountId => { s with members := Function.update s.members accountId none }

def State.goto (s : State) (i : Nat) (pc : Pc) : State :=
  { s with ops := Function.update s.ops i (some pc) }

-- releaseLock compares the token before it deletes the key.
def State.unlock (s : State) (i roomId : Nat) : State :=
  if s.locks roomId = some i then { s with locks := Function.update s.locks roomId none } else s

-- create runs outside withRoomLock; every other body releases its lease at the end.
def ended (op : Op) (roomId : Nat) (out : Outcome) : Pc :=
  match op with
  | .create _ _ _ => .finished op out
  | _ => .release op roomId out

def bodyPc (op : Op) (roomId : Nat) (done todo : List Cmd) : Pc :=
  match todo with
  | [] => ended op roomId .ok
  | _ :: _ => .body op roomId done todo

def stepOp (s : State) (i : Nat) : Pc → Option State
  | .resolve op => some (s.goto i (resolve s op))
  | .incr (.create account req now) =>
    let id := s.seq + 1
    some (State.goto { s with seq := id } i
      (.body (.create account req now) id [] (createCmds account req id now)))
  | .incr _ => none
  | .lock op roomId =>
    if s.locks roomId = none then
      some (State.goto { s with locks := Function.update s.locks roomId (some i) } i
        (.load op roomId))
    else none
  | .load op roomId =>
    match op.body (s.rooms roomId) with
    | .ok cmds => some (s.goto i (bodyPc op roomId [] cmds))
    | .error e => some (s.goto i (.release op roomId (.error e)))
  | .body op roomId done (c :: todo) =>
    some ((s.write c).goto i (bodyPc op roomId (done ++ [c]) todo))
  | .body _ _ _ [] => none
  | .release op roomId out =>
    some ((s.unlock i roomId).goto i (.finished op out))
  | .finished _ _ => none

-- A command that throws: the error leaves the body through the release of the lease.
def failOp (s : State) (i : Nat) : Pc → Option State
  | .load op roomId => some (s.goto i (.release op roomId .failed))
  | .body op roomId _ _ => some (s.goto i (ended op roomId .failed))
  | .release op _ out => some (s.goto i (.finished op out))
  | .finished _ _ => none
  | .resolve op => some (s.goto i (.finished op .failed))
  | .incr op => some (s.goto i (.finished op .failed))
  | .lock op _ => some (s.goto i (.finished op .failed))

def step (s : State) : Event → Option State
  | .call i op => if s.ops i = none then some (s.goto i op.call) else none
  | .next i => (s.ops i).bind (stepOp s i)
  | .timeout i =>
    match s.ops i with
    | some (.lock op _) => some (s.goto i (.finished op .failed))
    | _ => none
  | .fail i => (s.ops i).bind (failOp s i)
  | .expire roomId => some { s with locks := Function.update s.locks roomId none }

def Step (s : State) (e : Event) (t : State) : Prop := step s e = some t

def start : State where
  rooms := fun _ => none
  members := fun _ => none
  seq := 0
  locks := fun _ => none
  ops := fun _ => none

end Rooms

import Madoka.Rooms.Gateway

namespace Rooms

structure PlayerInfo where
  groupId : Nat
  accountId : Nat
  nickname : String
  headPic : Nat
  bannerId : Nat
  ready : Bool
  role : Nat
  pinId : Nat
  rank : Nat
  csRank : Nat
  availableMaps : List Nat
  deriving DecidableEq, Repr

structure GroupInfo where
  id : Nat
  name : String
  abbrName : String
  members : List PlayerInfo
  deriving DecidableEq, Repr

-- The full projection of a record, with the join code.
structure RoomInfo where
  id : Nat
  name : String
  owner : Nat
  mapId : Nat
  gameMode : Nat
  groupMode : Nat
  maxMemberNum : Nat
  maxSpectatorNum : Nat
  state : RoomState
  code : String
  groups : List GroupInfo
  enableDeathSpectate : Bool
  roomType : Nat
  levelVisualStyle : Nat
  roomSetting : Nat
  roomSetting2 : Nat
  isCsAdvanced : Bool
  csAdvancedSetting : List UInt8
  enoughRoomCard : Bool
  ownerOnline : Bool
  deriving DecidableEq, Repr

structure BasicInfo where
  id : Nat
  name : String
  mapId : Nat
  gameMode : Nat
  groupMode : Nat
  curMemberNum : Nat
  maxMemberNum : Nat
  maxSpectatorNum : Nat
  state : RoomState
  needCode : Bool
  roomType : Nat
  levelVisualStyle : Nat
  isCsAdvanced : Bool
  roomSetting : Nat
  deriving DecidableEq, Repr

structure MatchmakingSussNtf where
  matchId : Nat
  serverAddr : String
  secret : String
  prepareToken : String
  mapId : Nat
  gameMode : Nat
  groupMode : Nat
  matchMode : Nat
  levelVisualStyle : Nat
  deriving DecidableEq, Repr

inductive Message where
  | empty
  | roomInfo (info : RoomInfo)
  | roomList (rooms : List BasicInfo)
  | joinNtf (joinPlayerList : List PlayerInfo) (info : RoomInfo)
  | leaveNtf (leaver : Option PlayerInfo) (info : RoomInfo)
  | kickNtf (kicked : Option PlayerInfo) (info : RoomInfo)
  | setReadyNtf (roomId : Nat) (players : List PlayerInfo)
  | dismissNtf (leaverId roomId reason : Nat)
  | countDownNtf (seconds : Nat)
  | matchmakingSussNtf (suss : MatchmakingSussNtf)
  deriving DecidableEq, Repr

def Message.info : Message → Option RoomInfo
  | .roomInfo info => some info
  | .joinNtf _ info => some info
  | .leaveNtf _ info => some info
  | .kickNtf _ info => some info
  | _ => none

inductive ERoom where
  | joinNtf
  | leaveNtf
  | dismissNtf
  | kickNtf
  | changeNtf
  | matchmakingSussNtf
  | switchSeatNtf
  | setReadyNtf
  | countDownNtf
  deriving DecidableEq, Repr

structure Push where
  accountId : Nat
  cmd : ERoom
  message : Message
  deriving DecidableEq, Repr

def roleAdmin : Nat := 100

def playerInfo (m : Member) (mapId : Nat) : PlayerInfo where
  groupId := m.groupId
  accountId := m.accountId
  nickname := m.nickname
  headPic := m.headPic
  bannerId := m.bannerId
  ready := true
  role := if m.accountRole = roleAdmin then roleAdmin else orNat (some m.role) roleMember
  pinId := if m.accountRole = roleAdmin then roleAdmin else 0
  rank := m.rank
  csRank := m.csRank
  availableMaps := if mapId = 0 then [] else [mapId]

def emptySeat (gid : Nat) : PlayerInfo :=
  ⟨gid, 0, "", 0, 0, false, 0, 0, 0, 0, []⟩

-- The explicit seat of a member, or the first empty one where that is out of range or taken.
def placed (mapId : Nat) (seats : List PlayerInfo) (m : Member) : List PlayerInfo :=
  let s :=
    if (seats[m.seat]?).map PlayerInfo.accountId = some 0 then m.seat
    else (seats.findIdx? fun x => x.accountId = 0).getD 0
  seats.set s (playerInfo m mapId)

def groupInfo (room : Room) (gid : Nat) : GroupInfo where
  id := gid
  name := "Team " ++ toString gid
  abbrName := "T" ++ toString gid
  members := (room.members.filter fun m => m.group = gid).foldl (placed room.mapId)
    (List.replicate (perTeamCap room) (emptySeat gid))

def toRoomInfo (room : Room) : RoomInfo where
  id := room.id
  name := room.name
  owner := room.owner
  mapId := room.mapId
  gameMode := room.gameMode
  groupMode := room.groupMode
  maxMemberNum := room.maxMemberNum
  maxSpectatorNum := room.maxSpectatorNum
  state := room.state
  code := room.code
  groups := [groupInfo room 1, groupInfo room 2]
  enableDeathSpectate := room.enableDeathSpectate
  roomType := room.roomType
  levelVisualStyle := room.levelVisualStyle
  roomSetting := room.roomSetting
  roomSetting2 := room.roomSetting2
  isCsAdvanced := room.isCsAdvanced
  csAdvancedSetting := room.csAdvanced
  enoughRoomCard := true
  ownerOnline := true

def toBasicInfo (room : Room) : BasicInfo where
  id := room.id
  name := room.name
  mapId := room.mapId
  gameMode := room.gameMode
  groupMode := room.groupMode
  curMemberNum := room.members.length
  maxMemberNum := room.maxMemberNum
  maxSpectatorNum := room.maxSpectatorNum
  state := room.state
  needCode := room.code ≠ ""
  roomType := room.roomType
  levelVisualStyle := room.levelVisualStyle
  isCsAdvanced := room.isCsAdvanced
  roomSetting := room.roomSetting

def dismissNormal : Nat := 1

def matchSecret : String := "00112233445566778899aabbccddeeff"

def roomMatchMode : Nat := 3

-- What START takes from the matchmaker, the fleet and the account table.
structure World where
  matchId : Nat
  serverAddr : String
  prepareToken : Nat → Nat → Nat → String
  known : Nat → Bool

inductive Request where
  | create (req : CreateReq) (now : Nat)
  | list
  | join (req : JoinReq)
  | leave
  | kick (kickAccountId : Nat)
  | change (req : ChangeReq)
  | setReady (ready : Bool)
  | switchSeat (req : SwitchSeatReq)
  | start
  | info
  | countDown (seconds : Nat)
  deriving DecidableEq, Repr

-- The writes of a request, the reply to the caller, the pushes, and the code in ctx.ret.
structure Served where
  cmds : List Cmd
  reply : Option Message
  pushes : List Push
  ret : Option RoomErr

def broadcast (room : Room) (exceptId : Nat) (cmd : ERoom) (message : Message) : List Push :=
  (room.ids.filter (· ≠ exceptId)).map fun a => ⟨a, cmd, message⟩

def runOp (body : Except RoomErr (List Cmd)) (reply : Option Message) (pushes : List Push) : Served :=
  match body with
  | .ok cmds => ⟨cmds, reply, pushes, none⟩
  | .error e => ⟨[], some .empty, [], some e⟩

-- Number(null) is 0: a broadcast to all skips nobody but an account 0.
def toAll : Nat := 0

def joinNtf (room : Room) (joiner : Option Member) : Message :=
  .joinNtf (joiner.toList.map (playerInfo · room.mapId)) (toRoomInfo room)

def leaveNtf (room : Room) (leaver : Option Member) : Message :=
  .leaveNtf (leaver.map (playerInfo · 0)) (toRoomInfo room)

def kickNtf (room : Room) (target : Option Member) : Message :=
  .kickNtf (target.map (playerInfo · 0)) (toRoomInfo room)

-- members.map(playerInfo) hands the index of each member over as the map id.
def setReadyNtf (room : Room) : Message :=
  .setReadyNtf room.id (room.members.mapIdx fun i m => playerInfo m i)

def Room.memberOf (room : Room) (accountId : Nat) : Option Member :=
  room.members.find? fun m => m.accountId = accountId

def suss (w : World) (room : Room) (m : Member) : Push where
  accountId := m.accountId
  cmd := .matchmakingSussNtf
  message := .matchmakingSussNtf {
    matchId := w.matchId
    serverAddr := w.serverAddr
    secret := matchSecret
    prepareToken := w.prepareToken m.accountId w.matchId m.groupId
    mapId := room.mapId
    gameMode := room.gameMode
    groupMode := room.groupMode
    matchMode := roomMatchMode
    levelVisualStyle := room.levelVisualStyle }

def roomCreate (caller : Account) (req : CreateReq) (id now : Nat) : Served :=
  ⟨createCmds caller req id now, some (.roomInfo (toRoomInfo (newRoom caller req id now))), [], none⟩

def roomList (rooms : List Room) : Served :=
  ⟨[], some (.roomList ((rooms.filter fun room => room.state = .waiting).map toBasicInfo)), [], none⟩

def roomJoin (caller : Account) (req : JoinReq) (room : Option Room) : Served :=
  runOp (joinBody caller req room) none <| room.elim [] fun room =>
    let room := joined room caller
    broadcast room toAll .joinNtf (joinNtf room room.members.getLast?)

def roomLeave (caller : Account) : Option Room → Served
  | none => { runOp (leaveBody caller.uid none) (some .empty) [] with ret := some .notInRoom }
  | some room =>
    runOp (leaveBody caller.uid (some room)) (some .empty) <|
      if room.owner = caller.uid ∨ room.members.length ≤ 1 then
        broadcast room caller.uid .dismissNtf (.dismissNtf caller.uid room.id dismissNormal)
      else
        let after := without room caller.uid
        broadcast after caller.uid .leaveNtf (leaveNtf after (room.memberOf caller.uid))

def roomKick (caller : Account) (targetId : Nat) (room : Option Room) : Served :=
  runOp (kickBody caller.uid targetId room) none <| room.elim [] fun room =>
    let after := without room targetId
    let ntf := kickNtf after (room.memberOf targetId)
    ⟨targetId, .kickNtf, ntf⟩ :: broadcast after toAll .kickNtf ntf

def roomChange (caller : Account) (req : ChangeReq) (room : Option Room) : Served :=
  runOp (changeBody caller.uid req room) none <| room.elim [] fun room =>
    let room := changed room req
    broadcast room toAll .changeNtf (.roomInfo (toRoomInfo room))

def roomSetReady (caller : Account) (ready : Bool) (room : Option Room) : Served :=
  runOp (setReadyBody caller.uid ready room) none <| room.elim [] fun room =>
    let room := readied room caller.uid ready
    broadcast room toAll .setReadyNtf (setReadyNtf room)

def roomSwitchSeat (caller : Account) (req : SwitchSeatReq) (room : Option Room) : Served :=
  runOp (switchSeatBody caller.uid req room) (some .empty) <| room.elim [] fun room =>
    let room := seated room caller.uid (req.toRoomPos + 1).toNat req.toGroupPos.toNat
    broadcast room toAll .switchSeatNtf (.roomInfo (toRoomInfo room))

def roomStart (w : World) (caller : Account) (room : Option Room) : Served :=
  runOp (startMatchBody caller.uid room) none <| room.elim [] fun room =>
    (room.members.filter fun m =>
      m.accountId ≠ 0 ∧ (m.accountId = caller.uid ∨ w.known m.accountId)).map (suss w room)

def roomInfo : Option Room → Served
  | none => ⟨[], some .empty, [], some .noRoom⟩
  | some room =>
    let after := if room.state = .inGame then { room with state := .waiting } else room
    runOp (reenterBody (some room)) (some (.roomInfo (toRoomInfo after))) []

def roomCountDown (caller : Account) (seconds : Nat) : Option Room → Served
  | none => ⟨[], none, [], some .noRoom⟩
  | some room =>
    if room.owner ≠ caller.uid then ⟨[], none, [], some .notOwner⟩
    else ⟨[], none, broadcast room toAll .countDownNtf (.countDownNtf seconds), none⟩

-- The handler of a request that has resolved its room to r; for create, r is the id from INCR.
def handle (w : World) (s : State) (caller : Account) (r : Nat) : Request → Served
  | .create req now => roomCreate caller req r now
  | .list => roomList s.allRooms
  | .join req => roomJoin caller req (s.rooms r)
  | .leave => roomLeave caller (s.rooms r)
  | .kick targetId => roomKick caller targetId (s.rooms r)
  | .change req => roomChange caller req (s.rooms r)
  | .setReady ready => roomSetReady caller ready (s.rooms r)
  | .switchSeat req => roomSwitchSeat caller req (s.rooms r)
  | .start => roomStart w caller (s.rooms r)
  | .info => roomInfo (s.rooms r)
  | .countDown seconds => roomCountDown caller seconds (s.rooms r)

def State.after (s : State) (cmds : List Cmd) : State := cmds.foldl State.write s

def Served.sent (served : Served) (caller : Account) : List (Nat × Message) :=
  served.reply.toList.map (Prod.mk caller.uid) ++ served.pushes.map fun p => (p.accountId, p.message)

end Rooms

import Mathlib.Logic.Basic

namespace Rooms

inductive RoomState where
  | waiting
  | starting
  | inGame
  deriving DecidableEq, Repr

inductive RoomErr where
  | noRoom
  | roomInGame
  | invalidCode
  | alreadyInRoom
  | reachMaxMembers
  | notOwner
  | cannotKick
  | notInRoom
  | cannotSwitchSeat
  | seatOccupied
  deriving DecidableEq, Repr

structure Account where
  uid : Nat
  role : Nat
  nickname : String
  headPic : Nat
  bannerId : Nat
  rank : Nat
  csRank : Nat
  deriving DecidableEq, Repr

structure Member where
  accountId : Nat
  accountRole : Nat
  nickname : String
  headPic : Nat
  bannerId : Nat
  role : Nat
  groupId : Nat
  seat : Nat
  ready : Bool
  rank : Nat
  csRank : Nat
  deriving DecidableEq, Repr

structure Room where
  id : Nat
  name : String
  owner : Nat
  code : String
  mapId : Nat
  gameMode : Nat
  groupMode : Nat
  maxMemberNum : Nat
  maxSpectatorNum : Nat
  state : RoomState
  roomType : Nat
  enableDeathSpectate : Bool
  levelVisualStyle : Nat
  roomSetting : Nat
  roomSetting2 : Nat
  isCsAdvanced : Bool
  csAdvanced : List UInt8
  members : List Member
  createdAt : Nat
  deriving DecidableEq, Repr

structure CreateReq where
  roomName : Option String
  code : Option String
  mapId : Option Nat
  gameMode : Option Nat
  groupMode : Option Nat
  maxMemberNum : Option Nat
  maxSpectatorNum : Option Nat
  roomType : Option Nat
  enableDeathSpectate : Option Bool
  levelVisualStyle : Option Nat
  roomSetting : Option Nat
  roomSetting2 : Option Nat
  isCsAdvanced : Option Bool
  csAdvancedSetting : Option (List UInt8)
  deriving DecidableEq, Repr

structure JoinReq where
  roomId : Nat
  code : String
  deriving DecidableEq, Repr

structure ChangeReq where
  roomId : Nat
  roomName : Option String
  mapId : Option Nat
  gameMode : Option Nat
  maxMemberNum : Option Nat
  maxSpectatorNum : Option Nat
  enableDeathSpectate : Option Bool
  levelVisualStyle : Option Nat
  roomSetting : Option Nat
  roomSetting2 : Option Nat
  csAdvancedSetting : Option (List UInt8)
  deriving DecidableEq, Repr

structure SwitchSeatReq where
  roomId : Nat
  toRoomPos : Int
  toGroupPos : Int
  deriving DecidableEq, Repr

def roleMember : Nat := 1

def defaultMaxMembers : Nat := 8

def numTeams : Nat := 2

def Room.ids (room : Room) : List Nat := room.members.map Member.accountId

-- `x || d` for numbers and strings: an absent or empty value takes the default.
def orNat (x : Option Nat) (d : Nat) : Nat :=
  match x with
  | some n => if n = 0 then d else n
  | none => d

def orString (x : Option String) (d : String) : String :=
  match x with
  | some v => if v = "" then d else v
  | none => d

def memberFromAccount (account : Account) (groupId seat role : Nat) : Member where
  accountId := account.uid
  accountRole := account.role
  nickname := orString (some account.nickname) "Player"
  headPic := account.headPic
  bannerId := account.bannerId
  role := role
  groupId := groupId
  seat := seat
  ready := false
  rank := account.rank
  csRank := account.csRank

def Member.group (m : Member) : Nat := if m.groupId = 0 then 1 else m.groupId

def teamCount (room : Room) (g : Nat) : Nat :=
  (room.members.filter fun m => m.group = g).length

def pickTeam (room : Room) : Nat :=
  if teamCount room 2 < teamCount room 1 then 2 else 1

def perTeamCap (room : Room) : Nat :=
  max 1 ((orNat (some room.maxMemberNum) defaultMaxMembers + numTeams - 1) / numTeams)

def freeSeat (room : Room) (groupId : Nat) : Option Nat :=
  let taken := (room.members.filter fun m => m.group = groupId).map Member.seat
  (List.range (perTeamCap room)).find? fun s => s ∉ taken

def newRoom (account : Account) (req : CreateReq) (id now : Nat) : Room where
  id := id
  name := orString req.roomName (orString (some account.nickname) "Player" ++ "'s room")
  owner := account.uid
  code := orString req.code ""
  mapId := req.mapId.getD 0
  gameMode := req.gameMode.getD 0
  groupMode := req.groupMode.getD 0
  maxMemberNum := orNat req.maxMemberNum defaultMaxMembers
  maxSpectatorNum := req.maxSpectatorNum.getD 0
  state := .waiting
  roomType := req.roomType.getD 0
  enableDeathSpectate := req.enableDeathSpectate.getD false
  levelVisualStyle := req.levelVisualStyle.getD 0
  roomSetting := req.roomSetting.getD 0
  roomSetting2 := req.roomSetting2.getD 0
  isCsAdvanced := req.isCsAdvanced.getD false
  csAdvanced := req.csAdvancedSetting.getD []
  members := [memberFromAccount account 1 0 roleMember]
  createdAt := now

def joined (room : Room) (account : Account) : Room :=
  let groupId := pickTeam room
  let joiner := memberFromAccount account groupId ((freeSeat room groupId).getD 0) roleMember
  { room with members := room.members ++ [joiner] }

-- findIndex then splice: the first entry of that account.
def without (room : Room) (accountId : Nat) : Room :=
  { room with members := room.members.eraseP fun m => m.accountId = accountId }

def changed (room : Room) (req : ChangeReq) : Room :=
  let room := { room with
    name := orString req.roomName room.name
    mapId := req.mapId.getD room.mapId
    gameMode := req.gameMode.getD room.gameMode
    maxMemberNum := orNat req.maxMemberNum room.maxMemberNum
    maxSpectatorNum := req.maxSpectatorNum.getD room.maxSpectatorNum
    enableDeathSpectate := req.enableDeathSpectate.getD room.enableDeathSpectate
    levelVisualStyle := req.levelVisualStyle.getD room.levelVisualStyle
    roomSetting := req.roomSetting.getD 0
    roomSetting2 := req.roomSetting2.getD 0 }
  match req.csAdvancedSetting with
  | some (b :: bs) => { room with csAdvanced := b :: bs, isCsAdvanced := true }
  | _ => room

-- The member records are objects of the list: find returns the first one and the assignment
-- changes it in place.
def updateFirst (accountId : Nat) (f : Member → Member) : List Member → List Member
  | [] => []
  | m :: ms => if m.accountId = accountId then f m :: ms else m :: updateFirst accountId f ms

def readied (room : Room) (accountId : Nat) (ready : Bool) : Room :=
  { room with members := updateFirst accountId (fun m => { m with ready := ready }) room.members }

def seated (room : Room) (accountId groupId seat : Nat) : Room :=
  { room with
    members := updateFirst accountId (fun m => { m with groupId := groupId, seat := seat })
      room.members }

theorem ids_updateFirst (accountId : Nat) (f : Member → Member)
    (hf : ∀ m, (f m).accountId = m.accountId) (ms : List Member) :
    (updateFirst accountId f ms).map Member.accountId = ms.map Member.accountId := by
  induction ms with
  | nil => rfl
  | cons m ms ih =>
    simp only [updateFirst]
    split <;> simp [hf, ih]

@[simp] theorem ids_joined (room : Room) (account : Account) :
    (joined room account).ids = room.ids ++ [account.uid] := by
  simp [joined, Room.ids, memberFromAccount]

@[simp] theorem ids_readied (room : Room) (accountId : Nat) (ready : Bool) :
    (readied room accountId ready).ids = room.ids :=
  ids_updateFirst accountId (fun m => { m with ready := ready }) (fun _ => rfl) room.members

@[simp] theorem ids_seated (room : Room) (accountId groupId seat : Nat) :
    (seated room accountId groupId seat).ids = room.ids :=
  ids_updateFirst accountId (fun m => { m with groupId := groupId, seat := seat }) (fun _ => rfl)
    room.members

@[simp] theorem ids_changed (room : Room) (req : ChangeReq) : (changed room req).ids = room.ids := by
  unfold changed
  split <;> rfl

@[simp] theorem ids_without (room : Room) (accountId : Nat) :
    (without room accountId).ids = room.ids.erase accountId := by
  unfold without Room.ids
  induction room.members with
  | nil => rfl
  | cons m ms ih =>
    by_cases h : m.accountId = accountId
    · simp [h]
    · simp [h, ih]

theorem without_of_not_mem {room : Room} {accountId : Nat} (h : accountId ∉ room.ids) :
    without room accountId = room := by
  unfold without
  rw [List.eraseP_of_forall_not]
  intro m hm he
  exact h (List.mem_map.mpr ⟨m, hm, by simpa using he⟩)

@[simp] theorem ids_newRoom (account : Account) (req : CreateReq) (id now : Nat) :
    (newRoom account req id now).ids = [account.uid] := rfl

@[simp] theorem id_joined (room : Room) (account : Account) : (joined room account).id = room.id := rfl

@[simp] theorem id_without (room : Room) (accountId : Nat) : (without room accountId).id = room.id := rfl

@[simp] theorem id_readied (room : Room) (accountId : Nat) (ready : Bool) :
    (readied room accountId ready).id = room.id := rfl

@[simp] theorem id_seated (room : Room) (accountId groupId seat : Nat) :
    (seated room accountId groupId seat).id = room.id := rfl

@[simp] theorem id_changed (room : Room) (req : ChangeReq) : (changed room req).id = room.id := by
  unfold changed
  split <;> rfl

end Rooms

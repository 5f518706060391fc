import Madoka.Rooms.Visible

namespace Rooms

def Message.players : Message → List PlayerInfo
  | .joinNtf joinPlayerList _ => joinPlayerList
  | .leaveNtf leaver _ => leaver.toList
  | .kickNtf kicked _ => kicked.toList
  | .setReadyNtf _ players => players
  | _ => []

-- The member at place i has one entry in the three notifications and on its seat, when its turn
-- comes to be seated.
structure Alike (room : Room) (i : Nat) (m : Member) : Prop where
  ready : (setReadyNtf room).players[i]? = some (playerInfo m room.mapId)
  join : (joinNtf room (some m)).players = [playerInfo m room.mapId]
  kick : (kickNtf (without room m.accountId) (some m)).players = [playerInfo m room.mapId]
  seat : ∀ pre post, room.team m.group = pre ++ m :: post →
    playerInfo m room.mapId ∈ room.seatsAfter m.group (pre ++ [m])

variable {room : Room} {i : Nat} {m : Member}

theorem playerInfo_inj {a b : Nat} : playerInfo m a = playerInfo m b ↔ a = b := by
  constructor
  · intro h
    have hmaps : (if a = 0 then [] else [a]) = if b = 0 then [] else [b] :=
      congrArg PlayerInfo.availableMaps h
    split_ifs at hmaps with ha hb hb
    · rw [ha, hb]
    · exact List.singleton_inj.mp hmaps
  · rintro rfl
    rfl

theorem ready_players (h : room.members[i]? = some m) :
    (setReadyNtf room).players[i]? = some (playerInfo m i) := by
  change (room.members.mapIdx _)[i]? = _
  rw [List.getElem?_mapIdx, h]
  rfl

theorem ready_alike (h : room.members[i]? = some m) :
    (setReadyNtf room).players[i]? = some (playerInfo m room.mapId) ↔ i = room.mapId := by
  rw [ready_players h, Option.some.injEq]
  exact playerInfo_inj

theorem kick_alike : (kickNtf (without room m.accountId) (some m)).players = [playerInfo m room.mapId] ↔
    room.mapId = 0 := by
  change [playerInfo m 0] = _ ↔ _
  rw [List.singleton_inj]
  exact playerInfo_inj.trans eq_comm

theorem placed_mem {mapId : Nat} {seats : List PlayerInfo} (h : 0 < seats.length) :
    playerInfo m mapId ∈ placed mapId seats m := by
  unfold placed
  apply List.mem_set
  split
  · next hown =>
    obtain ⟨x, hx, -⟩ := Option.map_eq_some_iff.mp hown
    exact (List.getElem?_eq_some_iff.mp hx).1
  · cases hfind : seats.findIdx? fun x => x.accountId = 0 with
    | none => exact h
    | some i => exact (List.findIdx?_eq_some_iff_getElem.mp hfind).1

theorem seat_alike {pre : List Member} {gid : Nat} :
    playerInfo m room.mapId ∈ room.seatsAfter gid (pre ++ [m]) := by
  have hlen := length_seatsAfter room gid pre
  have hcap : 1 ≤ perTeamCap room := Nat.le_max_left ..
  unfold Room.seatsAfter at hlen ⊢
  rw [List.foldl_append, List.foldl_cons, List.foldl_nil]
  exact placed_mem (by omega)

-- A kick names no map and readiness the place in the list: only the first member of a room without
-- a map is the same everywhere.
theorem described_alike (h : room.members[i]? = some m) : Alike room i m ↔ room.mapId = 0 ∧ i = 0 := by
  constructor
  · intro halike
    have hmap := kick_alike.mp halike.kick
    exact ⟨hmap, ((ready_alike h).mp halike.ready).trans hmap⟩
  · rintro ⟨hmap, rfl⟩
    constructor
    · exact (ready_alike h).mpr hmap.symm
    · rfl
    · exact kick_alike.mpr hmap
    · exact fun pre post _ => seat_alike

def onMap (mapId : Nat) : Room :=
  newRoom (guest 1) { plain with mapId := some mapId } 1 0

theorem described_alike_without_map : (onMap 0).ids = [1] ∧
    Alike (onMap 0) 0 (memberFromAccount (guest 1) 1 0 roleMember) :=
  ⟨rfl, (described_alike rfl).mpr ⟨rfl, rfl⟩⟩

theorem described_otherwise :
    ¬ ∀ room i m, room.members[i]? = some m → Alike room i m := by
  intro hall
  have halike := hall (onMap 7) 0 (memberFromAccount (guest 1) 1 0 roleMember) rfl
  have hplace : (0 : Nat) = 7 := (ready_alike rfl).mp halike.ready
  cases hplace

end Rooms

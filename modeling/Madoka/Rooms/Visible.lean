import Madoka.Rooms.Handlers
import Madoka.Rooms.Seats

namespace Rooms

open Lib

def RoomInfo.seats (info : RoomInfo) : List PlayerInfo := info.groups.flatMap GroupInfo.members

def Room.team (room : Room) (gid : Nat) : List Member := room.members.filter fun m => m.group = gid

def Room.seatsAfter (room : Room) (gid : Nat) (ms : List Member) : List PlayerInfo :=
  ms.foldl (placed room.mapId) (List.replicate (perTeamCap room) (emptySeat gid))

-- Two groups of perTeam seats each, every member on one seat, on its own where that is one of the
-- team's and still empty when its turn comes, and nothing but members and placeholders.
structure Visible (room : Room) : Prop where
  groups : (toRoomInfo room).groups.map GroupInfo.id = [1, 2]
  size : ∀ g ∈ (toRoomInfo room).groups, g.members.length = perTeamCap room
  once : ∀ m ∈ room.members,
    ((toRoomInfo room).seats.filter fun x => x.accountId = m.accountId) = [playerInfo m room.mapId]
  own : ∀ g ∈ (toRoomInfo room).groups, ∀ pre m post, room.team g.id = pre ++ m :: post →
    (room.seatsAfter g.id pre)[m.seat]? = some (emptySeat g.id) →
      g.members[m.seat]? = some (playerInfo m room.mapId)
  rest : ∀ g ∈ (toRoomInfo room).groups, ∀ x ∈ g.members,
    x = emptySeat g.id ∨ ∃ m ∈ room.members, m.group = g.id ∧ x = playerInfo m room.mapId

-- What every record has whose members have an account.
structure Enlisted (room : Room) : Prop where
  nodup : room.ids.Nodup
  named : 0 ∉ room.ids
  group : ∀ m ∈ room.members, m.group = 1 ∨ m.group = 2

variable {room : Room} {mapId gid : Nat} {m : Member} {ms : List Member} {seats : List PlayerInfo}
  {x : PlayerInfo}

def Taken (x : PlayerInfo) : Prop := x.accountId ≠ 0

instance (x : PlayerInfo) : Decidable (Taken x) := inferInstanceAs (Decidable (_ ≠ _))

theorem filter_set {α : Type} {p : α → Prop} [DecidablePred p] {l : List α} {i : Nat} {a b : α}
    (hi : l[i]? = some b) (hb : ¬ p b) (ha : p a) : ((l.set i a).filter p).Perm (a :: l.filter p) := by
  induction l generalizing i with
  | nil => cases hi
  | cons y ys ih =>
    cases i with
    | zero =>
      obtain rfl := Option.some.inj hi
      rw [List.set_cons_zero, List.filter_cons_of_pos (by simpa using ha),
        List.filter_cons_of_neg (by simpa using hb)]
    | succ i =>
      rw [List.set_cons_succ, List.filter_cons, List.filter_cons]
      split
      · exact ((ih hi).cons y).trans (List.Perm.swap a y _)
      · exact ih hi

-- The seats hold these members, and placeholders.
structure Seating (gid mapId : Nat) (ms : List Member) (seats : List PlayerInfo) : Prop where
  taken : (seats.filter Taken).Perm (ms.map (playerInfo · mapId))
  free : ∀ x ∈ seats, ¬ Taken x → x = emptySeat gid

theorem seating_nil (cap : Nat) : Seating gid mapId [] (List.replicate cap (emptySeat gid)) := by
  constructor
  · rw [List.filter_eq_nil_iff.mpr]
    · rfl
    · intro x hx
      rw [List.eq_of_mem_replicate hx]
      simp [Taken, emptySeat]
  · exact fun x hx _ => List.eq_of_mem_replicate hx

theorem placed_eq (h : ∃ x ∈ seats, ¬ Taken x) : ∃ i x, seats[i]? = some x ∧ ¬ Taken x ∧
    (∀ y, seats[m.seat]? = some y → ¬ Taken y → i = m.seat) ∧
      placed mapId seats m = seats.set i (playerInfo m mapId) := by
  unfold placed
  by_cases hown : (seats[m.seat]?).map PlayerInfo.accountId = some 0
  · obtain ⟨x, hx, hid⟩ := Option.map_eq_some_iff.mp hown
    exact ⟨m.seat, x, hx, not_not.mpr hid, fun _ _ _ => rfl, by rw [if_pos hown]⟩
  · rw [if_neg hown]
    cases hfind : seats.findIdx? fun x => x.accountId = 0 with
    | none =>
      obtain ⟨x, hx, hid⟩ := h
      have hall := List.findIdx?_eq_none_iff.mp hfind x hx
      exact absurd (not_not.mp hid) (of_decide_eq_false hall)
    | some i =>
      obtain ⟨hi, hid, -⟩ := List.findIdx?_eq_some_iff_getElem.mp hfind
      refine ⟨i, seats[i], List.getElem?_eq_getElem hi, not_not.mpr (of_decide_eq_true hid), ?_, rfl⟩
      intro y hy hfree
      exact absurd (by rw [hy, Option.map_some, not_not.mp hfree]) hown

@[simp] theorem length_placed : (placed mapId seats m).length = seats.length := by
  unfold placed
  exact List.length_set

theorem length_seatsAfter (room : Room) (gid : Nat) (ms : List Member) :
    (room.seatsAfter gid ms).length = perTeamCap room := by
  unfold Room.seatsAfter
  induction ms using List.reverseRecOn with
  | nil => exact List.length_replicate
  | append_singleton ms m ih =>
    rw [List.foldl_append, List.foldl_cons, List.foldl_nil, length_placed, ih]

theorem Seating.empty_seat (h : Seating gid mapId ms seats) (hroom : ms.length < seats.length) :
    ∃ x ∈ seats, ¬ Taken x := by
  by_contra hfull
  have hall : seats.filter Taken = seats := by
    refine List.filter_eq_self.mpr fun x hx => decide_eq_true ?_
    by_contra hx'
    exact hfull ⟨x, hx, hx'⟩
  have hlen := h.taken.length_eq
  rw [hall, List.length_map] at hlen
  omega

theorem Seating.place (h : Seating gid mapId ms seats) (hroom : ms.length < seats.length)
    (hm : m.accountId ≠ 0) : Seating gid mapId (ms ++ [m]) (placed mapId seats m) := by
  obtain ⟨i, x, hi, hx, -, hplaced⟩ := @placed_eq mapId m seats (h.empty_seat hroom)
  rw [hplaced]
  constructor
  · rw [List.map_append, List.map_singleton]
    have hset := filter_set hi hx (show Taken (playerInfo m mapId) from hm)
    exact hset.trans ((h.taken.cons _).trans (List.perm_append_singleton _ _).symm)
  · intro y hy hfree
    rcases List.mem_or_eq_of_mem_set hy with hy | rfl
    · exact h.free y hy hfree
    · exact absurd hm hfree

theorem seating_after (hfits : ms.length ≤ perTeamCap room) (hnamed : ∀ m ∈ ms, m.accountId ≠ 0) :
    Seating gid room.mapId ms (room.seatsAfter gid ms) := by
  induction ms using List.reverseRecOn with
  | nil => exact seating_nil _
  | append_singleton ms m ih =>
    rw [List.length_append, List.length_singleton] at hfits
    have hseating := ih (by omega) fun m' hm' => hnamed m' (List.mem_append_left _ hm')
    have hlen := length_seatsAfter room gid ms
    unfold Room.seatsAfter at hseating hlen ⊢
    rw [List.foldl_append, List.foldl_cons, List.foldl_nil]
    exact hseating.place (by omega) (hnamed m (List.mem_append_right _ (List.mem_singleton_self m)))

theorem seat_kept {i : Nat} (hfree : ∃ x ∈ seats, ¬ Taken x) (hi : seats[i]? = some x) (hx : Taken x) :
    (placed mapId seats m)[i]? = some x := by
  obtain ⟨j, y, hj, hy, -, hplaced⟩ := @placed_eq mapId m seats hfree
  have hne : j ≠ i := by
    rintro rfl
    obtain rfl := Option.some.inj (hi.symm.trans hj)
    exact hy hx
  rw [hplaced, List.getElem?_set_ne hne]
  exact hi

theorem seat_after {i : Nat} {pre post : List Member} (hfits : (pre ++ post).length ≤ perTeamCap room)
    (hnamed : ∀ m ∈ pre ++ post, m.accountId ≠ 0) (hi : (room.seatsAfter gid pre)[i]? = some x)
    (hx : Taken x) : (room.seatsAfter gid (pre ++ post))[i]? = some x := by
  induction post using List.reverseRecOn with
  | nil => rwa [List.append_nil]
  | append_singleton post m ih =>
    rw [← List.append_assoc] at hfits hnamed ⊢
    rw [List.length_append, List.length_singleton] at hfits
    have hnamed' : ∀ m' ∈ pre ++ post, m'.accountId ≠ 0 := fun m' hm' =>
      hnamed m' (List.mem_append_left _ hm')
    have hkept := ih (by omega) hnamed'
    have hseating := @seating_after room gid _ (by omega) hnamed'
    have hlen := length_seatsAfter room gid (pre ++ post)
    have hfree := hseating.empty_seat (by omega)
    unfold Room.seatsAfter at hkept hfree ⊢
    rw [List.foldl_append, List.foldl_cons, List.foldl_nil]
    exact seat_kept hfree hkept hx

theorem groupInfo_members (room : Room) (gid : Nat) :
    (groupInfo room gid).members = room.seatsAfter gid (room.team gid) := rfl

theorem named_team (h : Enlisted room) : ∀ m ∈ room.team gid, m.accountId ≠ 0 := by
  intro m hm hid
  exact h.named (List.mem_map.mpr ⟨m, List.mem_of_mem_filter hm, hid⟩)

theorem length_team (room : Room) (gid : Nat) : (room.team gid).length = teamCount room gid := rfl

theorem perm_teams (h : Enlisted room) : (room.team 1 ++ room.team 2).Perm room.members := by
  have htwo : room.team 2 = room.members.filter fun m => !decide (m.group = 1) := by
    refine List.filter_congr fun m hm => ?_
    rcases h.group m hm with hg | hg
    · rw [hg]
      rfl
    · rw [hg]
      rfl
  rw [htwo]
  exact List.filter_append_perm _ _

def Fits (room : Room) : Prop := teamCount room 1 ≤ perTeamCap room ∧ teamCount room 2 ≤ perTeamCap room

instance (room : Room) : Decidable (Fits room) := inferInstanceAs (Decidable (_ ∧ _))

theorem seats_eq (room : Room) : (toRoomInfo room).seats =
    room.seatsAfter 1 (room.team 1) ++ room.seatsAfter 2 (room.team 2) := by
  change _ ++ (_ ++ []) = _
  rw [List.append_nil]
  rfl

theorem taken_seats (h : Enlisted room) (hfits : Fits room) :
    ((toRoomInfo room).seats.filter Taken).Perm (room.members.map (playerInfo · room.mapId)) := by
  have h1 := @seating_after room 1 (room.team 1) hfits.1 (named_team h)
  have h2 := @seating_after room 2 (room.team 2) hfits.2 (named_team h)
  rw [seats_eq, List.filter_append]
  refine (h1.taken.append h2.taken).trans ?_
  rw [← List.map_append]
  exact (perm_teams h).map _

theorem filter_members (hnodup : (ms.map Member.accountId).Nodup) (hm : m ∈ ms) :
    (ms.map (playerInfo · mapId)).filter (fun x => x.accountId = m.accountId) = [playerInfo m mapId] := by
  induction ms with
  | nil => cases hm
  | cons m' ms ih =>
    rw [List.map_cons, List.nodup_cons] at hnodup
    rw [List.map_cons, List.filter_cons]
    rcases List.mem_cons.mp hm with rfl | hm
    · have hnone : (ms.map (playerInfo · mapId)).filter (fun x => x.accountId = m.accountId) = [] := by
        refine List.filter_eq_nil_iff.mpr fun x hx hid => hnodup.1 ?_
        obtain ⟨m', hm', rfl⟩ := List.mem_map.mp hx
        exact List.mem_map.mpr ⟨m', hm', of_decide_eq_true hid⟩
      rw [if_pos (show decide ((playerInfo m mapId).accountId = m.accountId) = true from decide_eq_true rfl),
        hnone]
    · have hne : ¬ m'.accountId = m.accountId := fun heq =>
        hnodup.1 (heq ▸ List.mem_map.mpr ⟨m, hm, rfl⟩)
      rw [if_neg (show ¬ decide ((playerInfo m' mapId).accountId = m.accountId) = true from
        fun h => hne (of_decide_eq_true h))]
      exact ih hnodup.2 hm

theorem shown_once (h : Enlisted room) (hfits : Fits room) (hm : m ∈ room.members) :
    ((toRoomInfo room).seats.filter fun x => x.accountId = m.accountId) = [playerInfo m room.mapId] := by
  have hid : m.accountId ≠ 0 := fun hid => h.named (List.mem_map.mpr ⟨m, hm, hid⟩)
  have hsub : ((toRoomInfo room).seats.filter fun x => x.accountId = m.accountId) =
      ((toRoomInfo room).seats.filter Taken).filter fun x => x.accountId = m.accountId := by
    rw [List.filter_filter]
    refine List.filter_congr fun x _ => ?_
    by_cases hx : x.accountId = m.accountId
    · simp [Taken, hx, hid]
    · simp [hx]
  have hperm := (taken_seats h hfits).filter fun x => x.accountId = m.accountId
  rw [filter_members h.nodup hm] at hperm
  rw [hsub]
  exact List.perm_singleton.mp hperm

theorem seatsAfter_cases (room : Room) (gid : Nat) (ms : List Member) : ∀ x ∈ room.seatsAfter gid ms,
    x = emptySeat gid ∨ ∃ m ∈ ms, x = playerInfo m room.mapId := by
  induction ms using List.reverseRecOn with
  | nil => exact fun x hx => Or.inl (List.eq_of_mem_replicate hx)
  | append_singleton ms m ih =>
    intro x hx
    unfold Room.seatsAfter at hx
    rw [List.foldl_append, List.foldl_cons, List.foldl_nil] at hx
    unfold placed at hx
    rcases List.mem_or_eq_of_mem_set hx with hx | rfl
    · rcases ih x hx with hx | ⟨m', hm', rfl⟩
      · exact Or.inl hx
      · exact Or.inr ⟨m', List.mem_append_left _ hm', rfl⟩
    · exact Or.inr ⟨m, List.mem_append_right _ (List.mem_singleton_self m), rfl⟩

theorem forall_groups {P : GroupInfo → Prop} :
    (∀ g ∈ (toRoomInfo room).groups, P g) ↔ P (groupInfo room 1) ∧ P (groupInfo room 2) := by
  constructor
  · intro h
    exact ⟨h _ List.mem_cons_self, h _ (List.mem_cons_of_mem _ List.mem_cons_self)⟩
  · rintro ⟨h1, h2⟩ g hg
    rcases List.mem_cons.mp hg with rfl | hg
    · exact h1
    · obtain rfl := List.mem_singleton.mp hg
      exact h2

theorem group_size (room : Room) (gid : Nat) : (groupInfo room gid).members.length = perTeamCap room :=
  length_seatsAfter room gid _

theorem group_rest (room : Room) (gid : Nat) : ∀ x ∈ (groupInfo room gid).members,
    x = emptySeat gid ∨ ∃ m ∈ room.members, m.group = gid ∧ x = playerInfo m room.mapId := by
  intro x hx
  rcases seatsAfter_cases room gid _ x hx with hx | ⟨m, hm, rfl⟩
  · exact Or.inl hx
  · obtain ⟨hmem, hg⟩ := List.mem_filter.mp hm
    exact Or.inr ⟨m, hmem, of_decide_eq_true hg, rfl⟩

theorem group_own (h : Enlisted room) (hfits : teamCount room gid ≤ perTeamCap room)
    {pre post : List Member} (hteam : room.team gid = pre ++ m :: post)
    (hfree : (room.seatsAfter gid pre)[m.seat]? = some (emptySeat gid)) :
    (groupInfo room gid).members[m.seat]? = some (playerInfo m room.mapId) := by
  have hsplit : room.team gid = (pre ++ [m]) ++ post := by
    rw [hteam, List.append_assoc, List.singleton_append]
  have hnamed := @named_team room gid h
  have hm : m.accountId ≠ 0 := hnamed m (by
    rw [hteam]
    exact List.mem_append_right _ List.mem_cons_self)
  have hseat : (room.seatsAfter gid (pre ++ [m]))[m.seat]? = some (playerInfo m room.mapId) := by
    have hlt := (List.getElem?_eq_some_iff.mp hfree).1
    have hempty : ∃ x ∈ room.seatsAfter gid pre, ¬ Taken x :=
      ⟨_, List.mem_of_getElem? hfree, not_not.mpr rfl⟩
    obtain ⟨i, x, -, -, hown, hplaced⟩ := @placed_eq room.mapId m _ hempty
    have hi : i = m.seat := hown _ hfree (not_not.mpr rfl)
    unfold Room.seatsAfter at hplaced hlt ⊢
    rw [List.foldl_append, List.foldl_cons, List.foldl_nil, hplaced, hi, List.getElem?_set_self hlt]
  rw [groupInfo_members, hsplit]
  rw [← length_team, hsplit] at hfits
  rw [hsplit] at hnamed
  exact seat_after hfits hnamed hseat hm

theorem visible_of_fits (h : Enlisted room) (hfits : Fits room) : Visible room := by
  constructor
  · rfl
  · exact forall_groups.mpr ⟨group_size room 1, group_size room 2⟩
  · exact fun m hm => shown_once h hfits hm
  · refine forall_groups.mpr ⟨?_, ?_⟩
    · exact fun pre m post hteam hfree => group_own h hfits.1 hteam hfree
    · exact fun pre m post hteam hfree => group_own h hfits.2 hteam hfree
  · exact forall_groups.mpr ⟨group_rest room 1, group_rest room 2⟩

theorem member_of_id (h : Enlisted room) {m m' : Member} (hm : m ∈ room.members) (hm' : m' ∈ room.members)
    (hid : m.accountId = m'.accountId) : m = m' :=
  List.inj_on_of_nodup_map h.nodup hm hm' hid

theorem shown_in_group (h : Enlisted room) (hvis : Visible room) {g : GroupInfo}
    (hg : g ∈ (toRoomInfo room).groups) (hm : m ∈ room.team g.id) :
    playerInfo m room.mapId ∈ g.members := by
  obtain ⟨hmem, hteam⟩ := List.mem_filter.mp hm
  have hseat : playerInfo m room.mapId ∈ (toRoomInfo room).seats := by
    have hin : playerInfo m room.mapId ∈
        (toRoomInfo room).seats.filter fun x => x.accountId = m.accountId := by
      rw [hvis.once m hmem]
      exact List.mem_singleton_self _
    exact List.mem_of_mem_filter hin
  obtain ⟨g', hg', hx⟩ := List.mem_flatMap.mp hseat
  have hgroup : m.group = g'.id := by
    rcases hvis.rest g' hg' _ hx with hempty | ⟨m', hm', hg, heq⟩
    · have hid : m.accountId = 0 := congrArg PlayerInfo.accountId hempty
      exact absurd (List.mem_map.mpr ⟨m, hmem, hid⟩) h.named
    · rw [member_of_id h hmem hm' (congrArg PlayerInfo.accountId heq)]
      exact hg
  have hsame : g' = g := by
    have hown : ∀ g ∈ (toRoomInfo room).groups, g = groupInfo room g.id := forall_groups.mpr ⟨rfl, rfl⟩
    rw [hown g hg, hown g' hg', ← hgroup, ← of_decide_eq_true hteam]
  exact hsame ▸ hx

theorem team_seats (h : Enlisted room) (hvis : Visible room) {g : GroupInfo}
    (hg : g ∈ (toRoomInfo room).groups) : teamCount room g.id ≤ g.members.length := by
  have hnodup : ((room.team g.id).map Member.accountId).Nodup :=
    h.nodup.sublist (List.filter_sublist.map _)
  have hsub : (room.team g.id).map Member.accountId ⊆ g.members.map PlayerInfo.accountId := by
    intro a ha
    obtain ⟨m, hm, rfl⟩ := List.mem_map.mp ha
    exact List.mem_map.mpr ⟨_, shown_in_group h hvis hg hm, rfl⟩
  have hle := (hnodup.subperm hsub).length_le
  rwa [List.length_map, List.length_map] at hle

theorem fits_of_visible (h : Enlisted room) (hvis : Visible room) : Fits room := by
  have hall : ∀ g ∈ (toRoomInfo room).groups, teamCount room g.id ≤ perTeamCap room := fun g hg =>
    hvis.size g hg ▸ team_seats h hvis hg
  exact forall_groups.mp hall

-- The account of a caller has a uid: they are counted from FIRST_UID.
def Op.Named : Op → Prop
  | .create account _ _ => account.uid ≠ 0
  | .join account _ => account.uid ≠ 0
  | _ => True

instance (op : Op) : Decidable op.Named := by
  unfold Op.Named
  split <;> infer_instance

def Identified (_ : State) : Event → Prop
  | .call _ op => op.Named
  | _ => True

instance (s : State) (e : Event) : Decidable (Identified s e) := by
  unfold Identified
  split <;> infer_instance

def Pc.op : Pc → Op
  | .resolve op => op
  | .incr op => op
  | .lock op _ => op
  | .load op _ => op
  | .body op _ _ _ => op
  | .release op _ _ => op
  | .finished op _ => op

theorem op_call (op : Op) : op.call.op = op := by
  cases op with
  | join account req =>
    simp only [Op.call]
    split_ifs <;> rfl
  | switchSeat accountId req =>
    simp only [Op.call]
    split_ifs <;> rfl
  | _ => rfl

theorem op_resolve (s : State) (op : Op) : (resolve s op).op = op := by
  cases op <;> simp only [resolve] <;> first | rfl | (split <;> rfl)

theorem op_ended (op : Op) (r : Nat) (out : Outcome) : (ended op r out).op = op := by
  cases op <;> rfl

theorem op_bodyPc (op : Op) (r : Nat) (done todo : List Cmd) : (bodyPc op r done todo).op = op := by
  cases todo with
  | nil => exact op_ended op r .ok
  | cons c todo => rfl

section runs

variable {s t : State} {e : Event} {i : Nat}

def Called (s : State) : Prop := ∀ i pc, s.ops i = some pc → pc.op.Named

theorem called_goto {u : State} {pc : Pc} (h : Called s) (hu : u.ops = s.ops) (hpc : pc.op.Named) :
    Called (u.goto i pc) := by
  intro j pc' hj
  rcases ops_goto hj with ⟨-, rfl⟩ | hold
  · exact hpc
  · exact h j pc' (hu ▸ hold)

theorem ops_unlock (r : Nat) : (s.unlock i r).ops = s.ops := by
  unfold State.unlock
  split <;> rfl

theorem called_next {pc : Pc} (h : Called s) (hpc : pc.op.Named) (hs : stepOp s i pc = some t) :
    Called t := by
  cases pc with
  | resolve op =>
    obtain rfl := Option.some.inj hs
    exact called_goto h rfl ((op_resolve s op).symm ▸ hpc)
  | incr op =>
    cases op with
    | create account req now =>
      obtain rfl := Option.some.inj hs
      exact called_goto h rfl hpc
    | _ => cases hs
  | lock op r =>
    simp only [stepOp] at hs
    split at hs
    · obtain rfl := Option.some.inj hs
      exact called_goto h rfl hpc
    · cases hs
  | load op r =>
    simp only [stepOp] at hs
    split at hs
    · obtain rfl := Option.some.inj hs
      exact called_goto h rfl ((op_bodyPc op r [] _).symm ▸ hpc)
    · obtain rfl := Option.some.inj hs
      exact called_goto h rfl hpc
  | body op r done todo =>
    cases todo with
    | nil => cases hs
    | cons c todo =>
      obtain rfl := Option.some.inj hs
      exact called_goto h (ops_write c) ((op_bodyPc op r _ todo).symm ▸ hpc)
  | release op r out =>
    obtain rfl := Option.some.inj hs
    exact called_goto h (ops_unlock r) hpc
  | finished op out => cases hs

theorem called_fail {pc : Pc} (h : Called s) (hpc : pc.op.Named) (hs : failOp s i pc = some t) :
    Called t := by
  cases pc with
  | body op r done todo =>
    obtain rfl := Option.some.inj hs
    exact called_goto h rfl ((op_ended op r .failed).symm ▸ hpc)
  | finished op out => cases hs
  | _ =>
    obtain rfl := Option.some.inj hs
    exact called_goto h rfl hpc

theorem called_step (h : Called s) (hs : Guarded Step Identified s e t) : Called t := by
  obtain ⟨hstep, hnamed⟩ := hs
  cases e with
  | call i op =>
    simp only [Step, step] at hstep
    split at hstep
    · obtain rfl := Option.some.inj hstep
      exact called_goto h rfl ((op_call op).symm ▸ hnamed)
    · cases hstep
  | next i =>
    obtain ⟨pc, hpc, hnext⟩ := Option.bind_eq_some_iff.mp hstep
    exact called_next h (h i pc hpc) hnext
  | timeout i =>
    simp only [Step, step] at hstep
    split at hstep
    · next op r hpc =>
      obtain rfl := Option.some.inj hstep
      have hnamed : op.Named := h i _ hpc
      exact called_goto h rfl hnamed
    · cases hstep
  | fail i =>
    obtain ⟨pc, hpc, hfail⟩ := Option.bind_eq_some_iff.mp hstep
    exact called_fail h (h i pc hpc) hfail
  | expire r =>
    obtain rfl := Option.some.inj hstep
    exact fun j pc hj => h j pc hj

theorem called_start : Called start := by
  intro i pc hi
  cases hi

theorem run_called {es : List Event} (h : Run (Guarded Step Identified) start es s) :
    Run (Guarded Step fun s _ => Called s) start es s := by
  have hall : Called s ∧ Run (Guarded Step fun s _ => Called s) start es s := by
    induction h with
    | start => exact ⟨called_start, Run.start⟩
    | next hrun hs ih => exact ⟨called_step ih.1 hs, Run.next ih.2 ⟨hs.1, ih.1⟩⟩
  exact hall.2

end runs

theorem enlisted_newRoom {account : Account} (h : account.uid ≠ 0) (req : CreateReq) (id now : Nat) :
    Enlisted (newRoom account req id now) := by
  constructor
  · exact List.nodup_singleton _
  · exact fun h0 => h (List.mem_singleton.mp h0).symm
  · intro m hm
    obtain rfl := List.mem_singleton.mp hm
    exact Or.inl rfl

theorem group_updateFirst {a : Nat} {f : Member → Member} (h : ∀ m ∈ room.members, m.group = 1 ∨ m.group = 2)
    (hf : ∀ m, (m.group = 1 ∨ m.group = 2) → (f m).group = 1 ∨ (f m).group = 2) :
    ∀ m ∈ updateFirst a f room.members, m.group = 1 ∨ m.group = 2 := by
  intro m hm
  rcases mem_updateFirst hm with hold | ⟨m₀, hm₀, -, rfl⟩
  · exact h m hold
  · exact hf m₀ (h m₀ hm₀)

theorem enlisted_edit {op : Op} {rec : Room} (h : Enlisted room) (hnamed : op.Named)
    (hedit : Edit room op rec) : Enlisted rec := by
  have hids : 0 ∉ rec.ids := fun h0 => by
    rcases edit_ids hedit h0 with hold | ⟨account, req, rfl, huid⟩
    · exact h.named hold
    · exact hnamed huid
  cases hedit with
  | @join account req hw hcode hnew hfree =>
    refine ⟨?_, hids, fun m hm => ?_⟩
    · rw [ids_joined]
      refine List.Nodup.append h.nodup (List.nodup_singleton _) ?_
      simpa using hnew
    · rcases List.mem_append.mp hm with hm | hm
      · exact h.group m hm
      · obtain rfl := List.mem_singleton.mp hm
        change Member.group ⟨_, _, _, _, _, _, pickTeam room, _, _, _, _⟩ = 1 ∨ _
        rcases @pickTeam_cases room with hteam | hteam
        · rw [hteam]
          exact Or.inl rfl
        · rw [hteam]
          exact Or.inr rfl
  | leave hne hmore =>
    refine ⟨?_, hids, fun m hm => h.group m (List.mem_of_mem_eraseP hm)⟩
    rw [ids_without]
    exact h.nodup.erase _
  | kick howner hne hin =>
    refine ⟨?_, hids, fun m hm => h.group m (List.mem_of_mem_eraseP hm)⟩
    rw [ids_without]
    exact h.nodup.erase _
  | change howner hw =>
    refine ⟨?_, hids, ?_⟩
    · rw [ids_changed]
      exact h.nodup
    · rw [(@members_changed room _).1]
      exact h.group
  | setReady hin =>
    refine ⟨?_, hids, group_updateFirst h.group fun m hm => hm⟩
    rw [ids_readied]
    exact h.nodup
  | switchSeat hw hin hg hseat hfree =>
    refine ⟨?_, hids, group_updateFirst h.group fun m _ => ?_⟩
    · rw [ids_seated]
      exact h.nodup
    · rcases hg with rfl | rfl
      · exact Or.inl rfl
      · exact Or.inr rfl
  | startMatch howner hw => exact ⟨h.nodup, hids, h.group⟩
  | reenter hgame => exact ⟨h.nodup, hids, h.group⟩

theorem records_enlisted {es : List Event} {s : State} {r : Nat}
    (h : Run (Guarded Step Identified) start es s) (hr : s.rooms r = some room) : Enlisted room := by
  refine held_invariant ?_ ?_ (run_called h) (Or.inl ⟨r, hr⟩)
  · exact fun s i account req now hcalled hop => enlisted_newRoom (hcalled i _ hop) req _ now
  · exact fun s i r op room rec hcalled hop _ hroom hedit => enlisted_edit hroom (hcalled i _ hop) hedit

theorem Sound.team_le (h : Sound room) (gid : Nat) : teamCount room gid ≤ perTeamCap room := by
  have hnodup : ((room.team gid).map Member.seat).Nodup := by
    refine List.Nodup.map_on ?_ (h.nodup.of_map.sublist List.filter_sublist)
    intro m hm m' hm' hseat
    obtain ⟨hmem, hg⟩ := List.mem_filter.mp hm
    obtain ⟨hmem', hg'⟩ := List.mem_filter.mp hm'
    refine List.inj_on_of_nodup_map h.apart hmem hmem' (Prod.ext ?_ hseat)
    change m.groupId = m'.groupId
    rw [← h.group_eq hmem, ← h.group_eq hmem', of_decide_eq_true hg, of_decide_eq_true hg']
  have hsub : (room.team gid).map Member.seat ⊆ List.range (perTeamCap room) := by
    intro seat hseat
    obtain ⟨m, hm, rfl⟩ := List.mem_map.mp hseat
    exact List.mem_range.mpr (h.seat m (List.mem_of_mem_filter hm))
  have hle := (hnodup.subperm hsub).length_le
  rwa [List.length_map, List.length_range] at hle

-- Every member of a stored record is shown exactly while both teams fit their seats, and they fit
-- as long as no change takes a seat away from under a member.
theorem members_visible {es : List Event} {s : State} {r : Nat}
    (h : Run (Guarded Step Identified) start es s) (hr : s.rooms r = some room) :
    (Visible room ↔ Fits room) ∧ (Run (Guarded Step Roomy) start es s → Visible room) := by
  have henlisted := records_enlisted h hr
  refine ⟨⟨fits_of_visible henlisted, visible_of_fits henlisted⟩, fun hroomy => ?_⟩
  have hsound := records_sound hroomy hr
  exact visible_of_fits henlisted ⟨hsound.team_le 1, hsound.team_le 2⟩

theorem members_visible_of_two : ∃ s room, Run (Guarded Step Identified) start (shrinks 2) s ∧
    s.rooms 1 = some room ∧ room.ids = [1, 2] ∧ Visible room := by
  have hrun : (((shrinks 2).foldlM (fun s e => if Roomy s e then step s e else none) start).bind
      fun s => (s.rooms 1).map Room.ids) = some [1, 2] := by
    decide
  have hnamed : ((shrinks 2).foldlM (fun s e => if Identified s e then step s e else none) start).isSome := by
    decide
  obtain ⟨s, hs, hids⟩ := Option.bind_eq_some_iff.mp hrun
  obtain ⟨room, hroom, hids⟩ := Option.map_eq_some_iff.mp hids
  obtain ⟨s', hs'⟩ := Option.isSome_iff_exists.mp hnamed
  have hsame : s' = s := by
    have h := foldlM_of_run (run_mono (run_of_checked hs) fun h => h.1)
    exact Option.some.inj ((foldlM_of_run (run_mono (run_of_checked hs') fun h => h.1)).symm.trans h)
  have hrun' := run_of_checked (hsame ▸ hs')
  exact ⟨s, room, hrun', hroom, hids, (members_visible hrun' hroom).2 (run_of_checked hs)⟩

-- Two guests join, the second on the team of the owner, and the owner leaves one seat a team.
def crowds : List Event :=
  [.call 0 (.create (guest 1) plain 0), .next 0, .next 0, .next 0, .next 0,
    .call 1 (.join (guest 2) ⟨1, ""⟩), .next 1, .next 1, .next 1, .next 1, .next 1,
    .call 2 (.join (guest 3) ⟨1, ""⟩), .next 2, .next 2, .next 2, .next 2, .next 2,
    .call 3 (.change 1 (resized 2)), .next 3, .next 3, .next 3, .next 3]

theorem member_hidden : ¬ ∀ es s r room, Run (Guarded Step Identified) start es s →
    s.rooms r = some room → Visible room := by
  intro hall
  have hrun : ((crowds.foldlM (fun s e => if Identified s e then step s e else none) start).bind
      fun s => (s.rooms 1).map fun room => decide (Fits room)) = some false := by
    decide
  obtain ⟨s, hs, hfits⟩ := Option.bind_eq_some_iff.mp hrun
  obtain ⟨room, hroom, hfits⟩ := Option.map_eq_some_iff.mp hfits
  have hrun' := run_of_checked hs
  have hvis := hall crowds s 1 room hrun' hroom
  exact of_decide_eq_false hfits (fits_of_visible (records_enlisted hrun' hroom) hvis)

end Rooms

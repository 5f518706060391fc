import Mathlib.Data.List.Nodup
import Madoka.Rooms.Gateway

namespace Rooms

open Lib

def Op.isCreate : Op → Bool
  | .create _ _ _ => true
  | _ => false

def Pc.locked : Pc → Option Nat
  | .load _ roomId => some roomId
  | .body op roomId _ _ => if op.isCreate then none else some roomId
  | _ => none

-- Nobody takes the lease of a room while an operation on which it has run out still relies on it.
def Calm (s : State) : Event → Prop
  | .next i => ∀ op r, s.ops i = some (.lock op r) → ∀ j pc, s.ops j = some pc → pc.locked ≠ some r
  | _ => True

structure Valid (room : Room) : Prop where
  nodup : room.ids.Nodup
  owner : room.owner ∈ room.ids

inductive Plan (room : Room) : Op → List Cmd → Prop where
  | keep (op : Op) : Plan room op []
  | edit {op : Op} {rec : Room} (hop : ∀ a, op ≠ .leave a) (hid : rec.id = room.id)
      (hids : rec.ids = room.ids) (howner : rec.owner = room.owner) : Plan room op [.setRoom rec]
  | join {account : Account} {req : JoinReq} (h : account.uid ∉ room.ids) :
      Plan room (.join account req)
        [.setRoom (joined room account), .setMember account.uid room.id]
  | kick {ownerId roomId targetId : Nat} (hne : targetId ≠ room.owner) (h : targetId ∈ room.ids) :
      Plan room (.kick ownerId roomId targetId)
        [.setRoom (without room targetId), .delMember targetId]
  | dismiss {a : Nat} (h : room.owner = a ∨ room.members.length ≤ 1) :
      Plan room (.leave a) (.delMember a :: .delRoom room.id ::
        (room.ids.filter (· ≠ a)).map .delMember)
  | leave {a : Nat} (hne : room.owner ≠ a) (h : 1 < room.members.length) :
      Plan room (.leave a) [.delMember a, .setRoom (without room a)]

theorem body_plan {op : Op} {room : Room} {cmds : List Cmd} (hc : op.isCreate = false)
    (h : op.body (some room) = .ok cmds) : Plan room op cmds := by
  cases op with
  | create account req now => cases hc
  | join account req =>
    simp only [Op.body, joinBody] at h
    split_ifs at h with h1 h2 h3 h4
    cases h
    exact .join h3
  | leave a =>
    simp only [Op.body, leaveBody] at h
    split_ifs at h with h1
    · cases h
      exact .dismiss h1
    · cases h
      exact .leave (fun he => h1 (Or.inl he)) (by omega)
  | kick ownerId roomId targetId =>
    simp only [Op.body, kickBody] at h
    split_ifs at h with h1 h2 h3
    cases h
    simp only [ne_eq, not_not] at h1 h3
    exact .kick (by rw [h1]; exact h2) h3
  | change a req =>
    simp only [Op.body, changeBody] at h
    split_ifs at h with h1 h2
    cases h
    exact .edit (by simp) (id_changed _ _) (ids_changed _ _) (by unfold changed; split <;> rfl)
  | setReady a ready =>
    simp only [Op.body, setReadyBody] at h
    split_ifs at h with h1
    cases h
    exact .edit (by simp) rfl (ids_readied _ _ _) rfl
  | switchSeat a req =>
    simp only [Op.body, switchSeatBody] at h
    split_ifs at h with h1 h2 h3 h4
    cases h
    exact .edit (by simp) rfl (ids_seated _ _ _ _) rfl
  | startMatch ownerId roomId =>
    simp only [Op.body, startMatchBody] at h
    split_ifs at h with h1 h2
    cases h
    exact .edit (by simp) rfl rfl rfl
  | reenter roomId =>
    simp only [Op.body, reenterBody] at h
    split_ifs at h with h1
    · cases h
      exact .edit (by simp) rfl rfl rfl
    · cases h
      exact .keep _

theorem body_gone {op : Op} {cmds : List Cmd} (hc : op.isCreate = false)
    (h : op.body none = .ok cmds) :
    cmds = [] ∨ ∃ a, op = .leave a ∧ cmds = [.delMember a] := by
  cases op with
  | create account req now => cases hc
  | leave a =>
    cases h
    exact Or.inr ⟨a, rfl, rfl⟩
  | reenter roomId =>
    cases h
    exact Or.inl rfl
  | _ => cases h

def Cmd.roomId : Cmd → Option Nat
  | .setRoom room => some room.id
  | .delRoom r => some r
  | _ => none

def Cmd.onRoom (acc : Option Room) : Cmd → Option Room
  | .setRoom room => some room
  | .delRoom _ => none
  | _ => acc

def roomAfter (room : Room) (done : List Cmd) : Option Room :=
  done.foldl Cmd.onRoom (some room)

theorem foldl_onRoom {acc : Option Room} {cmds : List Cmd} (h : ∀ c ∈ cmds, c.roomId = none) :
    cmds.foldl Cmd.onRoom acc = acc := by
  induction cmds with
  | nil => rfl
  | cons c cmds ih =>
    have hc := h c (List.mem_cons_self ..)
    have hkeep : Cmd.onRoom acc c = acc := by cases c <;> first | rfl | cases hc
    rw [List.foldl_cons, hkeep]
    exact ih fun c' hc' => h c' (List.mem_cons_of_mem _ hc')

inductive Body (s : State) (r : Nat) : Op → List Cmd → List Cmd → Prop where
  | create {account : Account} {req : CreateReq} {now : Nat} {done todo : List Cmd}
      (h : done ++ todo = createCmds account req r now) (hr : r ≤ s.seq)
      (hfresh : done = [] → s.rooms r = none) : Body s r (.create account req now) done todo
  | gone {a : Nat} (h : s.rooms r = none) : Body s r (.leave a) [] [.delMember a]
  | plan {op : Op} {done todo : List Cmd} {room : Room} (hc : op.isCreate = false)
      (hs : r ≤ s.seq) (hid : room.id = r) (hv : Valid room) (hp : Plan room op (done ++ todo))
      (hr : s.rooms r = roomAfter room done) : Body s r op done todo

-- Room r has been numbered and its first record is already stored.
def Created (s : State) (r : Nat) : Prop :=
  r ≤ s.seq ∧ ∀ j op todo, op.isCreate = true → s.ops j ≠ some (.body op r [] todo)

def Pc.leaving : Pc → Option (Nat × Nat)
  | .lock (.leave a) r => some (a, r)
  | .load (.leave a) r => some (a, r)
  | .body (.leave a) r _ _ => some (a, r)
  | _ => none

structure Inv (s : State) : Prop where
  valid : ∀ r room, s.rooms r = some room → room.id = r ∧ Valid room ∧ r ≤ s.seq
  lease : ∀ i j pc pc' r, s.ops i = some pc → s.ops j = some pc' → pc.locked = some r →
    pc'.locked = some r → i = j
  body : ∀ i op r done todo, s.ops i = some (.body op r done todo) → Body s r op done todo
  distinct : ∀ i j op op' r done done' todo todo', op.isCreate = true → op'.isCreate = true →
    s.ops i = some (.body op r done todo) → s.ops j = some (.body op' r done' todo') → i = j
  members : ∀ a r, s.members a = some r → Created s r
  leaving : ∀ i pc a r, s.ops i = some pc → pc.leaving = some (a, r) → Created s r

theorem inv_start : Inv start := by
  constructor <;> simp [start]

variable {s t : State} {i : Nat} {pc : Pc} {e : Event}

theorem ops_update (h : t.ops = Function.update s.ops i (some pc)) {j : Nat} {pc' : Pc}
    (hj : t.ops j = some pc') : (j = i ∧ pc' = pc) ∨ (j ≠ i ∧ s.ops j = some pc') := by
  rw [h] at hj
  by_cases he : j = i
  · subst he
    rw [Function.update_self] at hj
    exact Or.inl ⟨rfl, (Option.some.inj hj).symm⟩
  · rw [Function.update_of_ne he] at hj
    exact Or.inr ⟨he, hj⟩

-- A step that writes neither hash: op i moves to `pc`, the locks of the others stay.
structure Moves (s t : State) (i : Nat) (pc : Pc) : Prop where
  rooms : t.rooms = s.rooms
  members : t.members = s.members
  seq : s.seq ≤ t.seq
  ops : t.ops = Function.update s.ops i (some pc)
  locks : ∀ j r, j ≠ i → s.locks r = some j → t.locks r = some j

theorem body_moves {r : Nat} {op : Op} {done todo : List Cmd} (hrooms : t.rooms r = s.rooms r)
    (hseq : s.seq ≤ t.seq) (h : Body s r op done todo) : Body t r op done todo := by
  cases h with
  | create h hr hfresh => exact .create h (Nat.le_trans hr hseq) (fun hd => hrooms.trans (hfresh hd))
  | gone h => exact .gone (hrooms.trans h)
  | plan hc hs hid hv hp hr => exact .plan hc (Nat.le_trans hs hseq) hid hv hp (hrooms.trans hr)

theorem inv_moves (hi : Inv s) (h : Moves s t i pc)
    (hlock : ∀ r, pc.locked = some r → ∀ j pc', j ≠ i → s.ops j = some pc' → pc'.locked ≠ some r)
    (hbody : ∀ op r done todo, pc = .body op r done todo → Body t r op done todo)
    (hfresh : ∀ op r done todo, pc = .body op r done todo → op.isCreate = true → s.seq < r)
    (hleave : ∀ a r, pc.leaving = some (a, r) → Created s r) : Inv t := by
  have hcreated : ∀ r, Created s r → Created t r := by
    rintro r ⟨hr, hno⟩
    refine ⟨Nat.le_trans hr h.seq, fun j op todo hc hj => ?_⟩
    rcases ops_update h.ops hj with ⟨_, hpc⟩ | ⟨_, hj⟩
    · have := hfresh op r [] todo hpc.symm hc
      omega
    · exact hno j op todo hc hj
  have hbound : ∀ j op r done todo, op.isCreate = true →
      s.ops j = some (.body op r done todo) → r ≤ s.seq := by
    intro j op r done todo hc hj
    cases hi.body j op r done todo hj with
    | create _ hr _ => exact hr
    | gone _ => cases hc
    | plan hc' _ _ _ _ _ => simp [hc] at hc'
  refine ⟨?_, ?_, ?_, ?_, ?_, ?_⟩
  · intro r room hr
    rw [h.rooms] at hr
    obtain ⟨h1, h2, h3⟩ := hi.valid r room hr
    exact ⟨h1, h2, Nat.le_trans h3 h.seq⟩
  · intro j k pc1 pc2 r hj hk hl1 hl2
    rcases ops_update h.ops hj with ⟨rfl, rfl⟩ | ⟨hne, hj⟩
    · rcases ops_update h.ops hk with ⟨rfl, -⟩ | ⟨hne, hk⟩
      · rfl
      · exact absurd hl2 (hlock r hl1 k pc2 hne hk)
    · rcases ops_update h.ops hk with ⟨rfl, rfl⟩ | ⟨-, hk⟩
      · exact absurd hl1 (hlock r hl2 j pc1 hne hj)
      · exact hi.lease j k pc1 pc2 r hj hk hl1 hl2
  · intro j op r done todo hj
    rcases ops_update h.ops hj with ⟨_, hpc⟩ | ⟨_, hj⟩
    · exact hbody op r done todo hpc.symm
    · exact body_moves (congrFun h.rooms r) h.seq (hi.body j op r done todo hj)
  · intro j k op op' r done done' todo todo' hc hc' hj hk
    rcases ops_update h.ops hj with ⟨rfl, hpc⟩ | ⟨_, hj⟩
    · rcases ops_update h.ops hk with ⟨rfl, _⟩ | ⟨_, hk⟩
      · rfl
      · have := hfresh op r done todo hpc.symm hc
        have := hbound k op' r done' todo' hc' hk
        omega
    · rcases ops_update h.ops hk with ⟨rfl, hpc⟩ | ⟨_, hk⟩
      · have := hfresh op' r done' todo' hpc.symm hc'
        have := hbound j op r done todo hc hj
        omega
      · exact hi.distinct j k op op' r done done' todo todo' hc hc' hj hk
  · intro a r ha
    rw [h.members] at ha
    exact hcreated r (hi.members a r ha)
  · intro j pc' a r hj hl
    rcases ops_update h.ops hj with ⟨_, rfl⟩ | ⟨_, hj⟩
    · exact hcreated r (hleave a r hl)
    · exact hcreated r (hi.leaving j pc' a r hj hl)

structure Idle (pc : Pc) : Prop where
  locked : pc.locked = none
  body : ∀ op r done todo, pc ≠ .body op r done todo

theorem idle_ended (op : Op) (r : Nat) (out : Outcome) :
    Idle (ended op r out) ∧ (ended op r out).leaving = none := by
  cases op <;> exact ⟨⟨rfl, by rintro _ _ _ _ ⟨⟩⟩, rfl⟩

theorem bodyPc_nil {op op' : Op} {r r' : Nat} {done done' todo' : List Cmd} :
    bodyPc op r done [] ≠ .body op' r' done' todo' :=
  (idle_ended op r .ok).1.body op' r' done' todo'

theorem idle_call (op : Op) : Idle op.call ∧ op.call.leaving = none := by
  cases op with
  | join account req =>
    simp only [Op.call]
    split_ifs <;> exact ⟨⟨rfl, by rintro _ _ _ _ ⟨⟩⟩, rfl⟩
  | switchSeat a req =>
    simp only [Op.call]
    split_ifs <;> exact ⟨⟨rfl, by rintro _ _ _ _ ⟨⟩⟩, rfl⟩
  | _ => exact ⟨⟨rfl, by rintro _ _ _ _ ⟨⟩⟩, rfl⟩

theorem idle_resolve (s : State) (op : Op) : Idle (resolve s op) ∧
    ∀ a r, (resolve s op).leaving = some (a, r) → s.members a = some r := by
  cases op with
  | kick | change | startMatch | reenter =>
    exact ⟨⟨rfl, by rintro _ _ _ _ ⟨⟩⟩, by rintro a r ⟨⟩⟩
  | leave a =>
    simp only [resolve]
    split
    · next r hr =>
      refine ⟨⟨rfl, by rintro _ _ _ _ ⟨⟩⟩, ?_⟩
      rintro a' r' ⟨⟩
      exact hr
    · exact ⟨⟨rfl, by rintro _ _ _ _ ⟨⟩⟩, by rintro a r ⟨⟩⟩
  | _ =>
    simp only [resolve]
    split <;> exact ⟨⟨rfl, by rintro _ _ _ _ ⟨⟩⟩, by rintro a r ⟨⟩⟩

theorem inv_idle (hi : Inv s) (h : Moves s t i pc) (hp : Idle pc)
    (hleave : ∀ a r, pc.leaving = some (a, r) → Created s r) : Inv t := by
  refine inv_moves hi h ?_ (fun op r done todo hb => (hp.body op r done todo hb).elim)
    (fun op r done todo hb => (hp.body op r done todo hb).elim) hleave
  intro r hr
  rw [hp.locked] at hr
  cases hr

theorem moves_goto (s : State) (i : Nat) (pc : Pc) : Moves s (s.goto i pc) i pc :=
  ⟨rfl, rfl, Nat.le_refl _, rfl, fun _ _ _ h => h⟩

theorem moves_unlock (s : State) (i r : Nat) (pc : Pc) : Moves s ((s.unlock i r).goto i pc) i pc := by
  unfold State.unlock
  split
  · next h =>
    refine ⟨rfl, rfl, Nat.le_refl _, rfl, fun j r' hj hl => ?_⟩
    have hne : r' ≠ r := by
      rintro rfl
      rw [h] at hl
      exact hj (Option.some.inj hl).symm
    simpa [State.goto, hne] using hl
  · exact moves_goto s i pc

theorem moves_incr (s : State) (i : Nat) (pc : Pc) :
    Moves s (State.goto { s with seq := s.seq + 1 } i pc) i pc :=
  ⟨rfl, rfl, Nat.le_succ _, rfl, fun _ _ _ h => h⟩

theorem inv_incr (hi : Inv s) (account : Account) (req : CreateReq) (now : Nat) :
    Inv (State.goto { s with seq := s.seq + 1 } i (.body (.create account req now) (s.seq + 1) []
      (createCmds account req (s.seq + 1) now))) := by
  refine inv_moves hi (moves_incr s i _) ?_ ?_ ?_ ?_
  · rintro r ⟨⟩
  · rintro op r done todo ⟨⟩
    refine .create rfl (Nat.le_refl _) fun _ => ?_
    cases hr : s.rooms (s.seq + 1) with
    | none => exact hr
    | some room => exact absurd (hi.valid _ room hr).2.2 (Nat.not_succ_le_self _)
  · rintro op r done todo ⟨⟩ _
    exact Nat.lt_succ_self _
  · rintro a r ⟨⟩

theorem moves_lock {op : Op} {r : Nat} (hfree : s.locks r = none) :
    Moves s (State.goto { s with locks := Function.update s.locks r (some i) } i (.load op r)) i
      (.load op r) := by
  refine ⟨rfl, rfl, Nat.le_refl _, rfl, fun j r' _ hl => ?_⟩
  have hne : r' ≠ r := by
    rintro rfl
    rw [hfree] at hl
    cases hl
  simpa [State.goto, hne] using hl

theorem inv_lock (hi : Inv s) {op : Op} {r : Nat} (hj : s.ops i = some (.lock op r))
    (hfree : s.locks r = none) (hc : Calm s (.next i)) :
    Inv (State.goto { s with locks := Function.update s.locks r (some i) } i (.load op r)) := by
  refine inv_moves hi (moves_lock hfree) ?_ ?_ ?_ ?_
  · rintro r' ⟨⟩ j pc _ hk
    exact hc op r hj j pc hk
  · rintro op' r' done todo ⟨⟩
  · rintro op' r' done todo ⟨⟩
  · intro a r' hl
    refine hi.leaving i _ a r' hj ?_
    cases op <;> exact hl

theorem body_of_load (hi : Inv s) {op : Op} {r : Nat} {c : Cmd} {cmds : List Cmd}
    (hc : op.isCreate = false) (hb : op.body (s.rooms r) = .ok (c :: cmds)) :
    Body s r op [] (c :: cmds) := by
  cases hr : s.rooms r with
  | none =>
    rw [hr] at hb
    rcases body_gone hc hb with he | ⟨a, rfl, he⟩
    · cases he
    · rw [he]
      exact .gone hr
  | some room =>
    rw [hr] at hb
    obtain ⟨hid, hv, hs⟩ := hi.valid r room hr
    exact .plan hc hs hid hv (body_plan hc hb) hr

theorem inv_load (hi : Inv s) {op : Op} {r : Nat} {cmds : List Cmd}
    (hj : s.ops i = some (.load op r)) (hb : op.body (s.rooms r) = .ok cmds) :
    Inv (s.goto i (bodyPc op r [] cmds)) := by
  cases cmds with
  | nil =>
    obtain ⟨hp, hl⟩ := idle_ended op r .ok
    exact inv_idle hi (moves_goto s i _) hp fun a r' h => by
      rw [bodyPc, hl] at h
      cases h
  | cons c cmds =>
    have hc : op.isCreate = false := by
      cases op with
      | create => cases hb
      | _ => rfl
    refine inv_moves hi (moves_goto s i _) ?_ ?_ ?_ ?_
    · intro r' hr' j pc hne hk hl
      obtain rfl : r = r' := by simpa [bodyPc, Pc.locked, hc] using hr'
      exact hne (hi.lease j i pc _ r hk hj hl rfl)
    · rintro op' r' done todo ⟨⟩
      exact body_moves (s := s) rfl (Nat.le_refl _) (body_of_load hi hc hb)
    · rintro op' r' done todo ⟨⟩ hc'
      rw [hc] at hc'
      cases hc'
    · intro a r' hl
      refine hi.leaving i _ a r' hj ?_
      cases op <;> exact hl

theorem locked_body {op : Op} {r : Nat} {done todo : List Cmd} (hc : op.isCreate = false) :
    Pc.locked (.body op r done todo) = some r := by
  simp [Pc.locked, hc]

theorem plan_roomId {room : Room} {op : Op} {cmds : List Cmd} (h : Plan room op cmds) :
    ∀ c ∈ cmds, c.roomId = none ∨ c.roomId = some room.id := by
  intro c hc
  cases h with
  | keep => cases hc
  | edit hop hid hids howner =>
    obtain rfl := List.mem_singleton.mp hc
    exact Or.inr (congrArg some hid)
  | join h =>
    rcases List.mem_pair.mp hc with rfl | rfl
    · exact Or.inr rfl
    · exact Or.inl rfl
  | kick hne h =>
    rcases List.mem_pair.mp hc with rfl | rfl
    · exact Or.inr rfl
    · exact Or.inl rfl
  | dismiss h =>
    rcases List.mem_cons.mp hc with rfl | hc
    · exact Or.inl rfl
    · rcases List.mem_cons.mp hc with rfl | hc
      · exact Or.inr rfl
      · obtain ⟨m, _, rfl⟩ := List.mem_map.mp hc
        exact Or.inl rfl
  | leave hne h =>
    rcases List.mem_pair.mp hc with rfl | rfl
    · exact Or.inl rfl
    · exact Or.inr rfl

theorem body_roomId {r : Nat} {op : Op} {done todo : List Cmd} (h : Body s r op done todo) :
    ∀ c ∈ todo, c.roomId = none ∨ c.roomId = some r := by
  intro c hc
  cases h with
  | create h _ _ =>
    have hmem : c ∈ done ++ todo := List.mem_append_right _ hc
    rw [h, createCmds] at hmem
    rcases List.mem_pair.mp hmem with rfl | rfl
    · exact Or.inr rfl
    · exact Or.inl rfl
  | gone _ =>
    obtain rfl := List.mem_singleton.mp hc
    exact Or.inl rfl
  | plan _ _ hid _ hp _ => exact hid ▸ plan_roomId hp c (List.mem_append_right _ hc)

theorem rooms_write (c : Cmd) (r : Nat) :
    (s.write c).rooms r = if c.roomId = some r then c.onRoom (s.rooms r) else s.rooms r := by
  cases c <;> simp only [State.write, Cmd.roomId, Cmd.onRoom, Function.update_apply,
    Option.some.injEq, eq_comm, reduceCtorEq, if_false]

theorem plan_valid {room rec : Room} {op : Op} {cmds : List Cmd} (hv : Valid room)
    (h : Plan room op cmds) (hm : .setRoom rec ∈ cmds) : rec.id = room.id ∧ Valid rec := by
  cases h with
  | keep => cases hm
  | edit hop hid hids howner =>
    obtain rfl : rec = _ := by simpa using hm
    exact ⟨hid, hids ▸ hv.nodup, by rw [howner, hids]; exact hv.owner⟩
  | join h =>
    obtain rfl : rec = _ := by simpa using hm
    refine ⟨rfl, ?_, ?_⟩
    · rw [ids_joined, List.nodup_append]
      refine ⟨hv.nodup, List.nodup_singleton _, ?_⟩
      rintro x hx y hy rfl
      obtain rfl := List.mem_singleton.mp hy
      exact h hx
    · rw [ids_joined]
      exact List.mem_append_left _ hv.owner
  | kick hne h =>
    obtain rfl : rec = _ := by simpa using hm
    refine ⟨rfl, ?_, ?_⟩
    · rw [ids_without]
      exact hv.nodup.erase _
    · rw [ids_without]
      exact (List.mem_erase_of_ne hne.symm).mpr hv.owner
  | dismiss h => simp at hm
  | leave hne h =>
    obtain rfl : rec = _ := by simpa using hm
    refine ⟨rfl, ?_, ?_⟩
    · rw [ids_without]
      exact hv.nodup.erase _
    · rw [ids_without]
      exact (List.mem_erase_of_ne hne).mpr hv.owner

theorem roomAfter_isSome {room : Room} {done : List Cmd} (h : ∀ r, .delRoom r ∉ done) :
    (roomAfter room done).isSome := by
  induction done using List.reverseRecOn with
  | nil => rfl
  | append_singleton done c ih =>
    have hd := ih fun r hr => h r (List.mem_append_left _ hr)
    simp only [roomAfter, List.foldl_append, List.foldl_cons, List.foldl_nil] at hd ⊢
    cases c with
    | delRoom r => exact absurd (List.mem_append_right _ (List.mem_singleton_self _)) (h r)
    | setRoom rec => rfl
    | _ => exact hd

theorem plan_none {room : Room} {op : Op} {done todo : List Cmd} (h : Plan room op (done ++ todo))
    (hr : roomAfter room done = none) : ∃ a, op = .leave a := by
  have hdel : ∃ r, .delRoom r ∈ done ++ todo := by
    by_contra hno
    have hsome : (roomAfter room done).isSome := roomAfter_isSome fun r hm =>
      hno ⟨r, List.mem_append_left _ hm⟩
    simp [hr] at hsome
  obtain ⟨r, hm⟩ := hdel
  generalize done ++ todo = cmds at h hm
  cases h with
  | dismiss h => exact ⟨_, rfl⟩
  | keep => cases hm
  | _ => simp at hm

theorem created_of_none (hi : Inv s) {op : Op} {r : Nat} {done todo : List Cmd}
    (hc : op.isCreate = false) (hj : s.ops i = some (.body op r done todo))
    (hr : s.rooms r = none) : Created s r := by
  cases hi.body i op r done todo hj with
  | create => cases hc
  | gone => exact hi.leaving i _ _ r hj rfl
  | plan _ _ _ _ hp hafter =>
    obtain ⟨a, rfl⟩ := plan_none hp (hafter.symm.trans hr)
    exact hi.leaving i _ a r hj rfl

def State.wrote (s : State) (i : Nat) (op : Op) (r : Nat) (done : List Cmd) (c : Cmd)
    (todo : List Cmd) : State :=
  (s.write c).goto i (bodyPc op r (done ++ [c]) todo)

@[simp] theorem seq_write (c : Cmd) : (s.write c).seq = s.seq := by cases c <;> rfl

@[simp] theorem locks_write (c : Cmd) : (s.write c).locks = s.locks := by cases c <;> rfl

@[simp] theorem ops_write (c : Cmd) : (s.write c).ops = s.ops := by cases c <;> rfl

section write

variable {op : Op} {r : Nat} {done todo : List Cmd} {c : Cmd}

theorem ops_wrote : (s.wrote i op r done c todo).ops =
    Function.update s.ops i (some (bodyPc op r (done ++ [c]) todo)) := by
  simp [State.wrote, State.goto]

theorem body_wrote {j : Nat} {op' : Op} {r' : Nat} {done' todo' : List Cmd}
    (h : (s.wrote i op r done c todo).ops j = some (.body op' r' done' todo')) :
    (j = i ∧ op' = op ∧ r' = r ∧ done' = done ++ [c] ∧ todo' = todo) ∨
      (j ≠ i ∧ s.ops j = some (.body op' r' done' todo')) := by
  rcases ops_update ops_wrote h with ⟨hj, hpc⟩ | hj
  · refine Or.inl ⟨hj, ?_⟩
    cases todo with
    | nil => exact absurd hpc.symm bodyPc_nil
    | cons c' todo =>
      rw [bodyPc] at hpc
      cases hpc
      exact ⟨rfl, rfl, rfl, rfl⟩
  · exact Or.inr hj

theorem created_wrote {r' : Nat} (h : Created s r') : Created (s.wrote i op r done c todo) r' := by
  refine ⟨by simpa [State.wrote, State.goto] using h.1, fun j op' todo' hc hj => ?_⟩
  rcases body_wrote hj with ⟨_, _, _, hd, _⟩ | ⟨_, hj⟩
  · simp at hd
  · exact h.2 j op' todo' hc hj

theorem rooms_wrote (r' : Nat) : (s.wrote i op r done c todo).rooms r' =
    if c.roomId = some r' then c.onRoom (s.rooms r') else s.rooms r' :=
  rooms_write c r'

theorem rooms_wrote_self (hi : Inv s) (hj : s.ops i = some (.body op r done (c :: todo))) :
    (s.wrote i op r done c todo).rooms r = c.onRoom (s.rooms r) := by
  rw [rooms_wrote]
  rcases body_roomId (hi.body i op r done _ hj) c (by simp) with h | h
  · have : c.onRoom (s.rooms r) = s.rooms r := by cases c <;> first | rfl | cases h
    rw [h, this]
    simp
  · simp [h]

theorem rooms_wrote_other (hi : Inv s) (hj : s.ops i = some (.body op r done (c :: todo)))
    {r' : Nat} (hne : r' ≠ r) : (s.wrote i op r done c todo).rooms r' = s.rooms r' := by
  rw [rooms_wrote]
  rcases body_roomId (hi.body i op r done _ hj) c (by simp) with h | h
  · simp [h]
  · simp [h, hne.symm]

theorem create_done (h : Body s r op done (c :: todo)) (hc : op.isCreate = true) :
    (done = [] ∧ s.rooms r = none) ∨ c.roomId = none := by
  cases h with
  | @create account req now _ _ h _ hfresh =>
    cases done with
    | nil => exact Or.inl ⟨rfl, hfresh rfl⟩
    | cons d done =>
      refine Or.inr ?_
      rw [createCmds, List.cons_append, List.cons.injEq] at h
      have hc' : c ∈ [Cmd.setMember account.uid r] := by
        rw [← h.2]
        simp
      obtain rfl := List.mem_singleton.mp hc'
      rfl
  | gone => cases hc
  | plan hc' => simp [hc] at hc'

theorem alone (hi : Inv s) (hj : s.ops i = some (.body op r done (c :: todo)))
    (hroom : c.roomId ≠ none) {k : Nat} {op' : Op} {done' todo' : List Cmd} (hne : k ≠ i)
    (hk : s.ops k = some (.body op' r done' todo')) : op'.isCreate = true ∧ done' ≠ [] := by
  cases hc : op.isCreate with
  | true =>
    obtain ⟨rfl, hnone⟩ := (create_done (hi.body i op r done _ hj) hc).resolve_right hroom
    cases hc' : op'.isCreate with
    | true => exact absurd (hi.distinct k i _ _ r _ _ _ _ hc' hc hk hj) hne
    | false => exact absurd hj ((created_of_none hi hc' hk hnone).2 i op _ hc)
  | false =>
    cases hc' : op'.isCreate with
    | true =>
      refine ⟨rfl, ?_⟩
      rintro rfl
      cases hi.body k op' r [] todo' hk with
      | create _ _ hfresh => exact absurd hk ((created_of_none hi hc hj (hfresh rfl)).2 k _ _ hc')
      | gone => cases hc'
      | plan hc'' => simp [hc'] at hc''
    | false =>
      exact absurd (hi.lease k i _ _ r hk hj (locked_body hc') (locked_body hc)) hne

theorem rooms_kept (hi : Inv s) (hj : s.ops i = some (.body op r done (c :: todo)))
    {k : Nat} {op' : Op} {r' : Nat} {done' todo' : List Cmd} (hne : k ≠ i)
    (hk : s.ops k = some (.body op' r' done' todo')) :
    (s.wrote i op r done c todo).rooms r' = s.rooms r' ∨ (op'.isCreate = true ∧ done' ≠ []) := by
  by_cases hr : r' = r
  · subst hr
    by_cases hroom : c.roomId = none
    · left
      rw [rooms_wrote]
      simp [hroom]
    · exact Or.inr (alone hi hj hroom hne hk)
  · exact Or.inl (rooms_wrote_other hi hj hr)

theorem body_wrote_self (hi : Inv s) (hj : s.ops i = some (.body op r done (c :: todo))) :
    Body (s.wrote i op r done c todo) r op (done ++ [c]) todo ∨ todo = [] := by
  have hroom := rooms_wrote_self hi hj
  have hseq : (s.wrote i op r done c todo).seq = s.seq := by simp [State.wrote, State.goto]
  cases hi.body i op r done _ hj with
  | create h hr hfresh =>
    exact Or.inl (.create (by simpa using h) (by rw [hseq]; exact hr) (by simp))
  | gone h => exact Or.inr rfl
  | plan hc hs hid hv hp hr =>
    refine Or.inl (.plan hc (by rw [hseq]; exact hs) hid hv (by simpa using hp) ?_)
    rw [hroom, hr]
    simp [roomAfter]

theorem valid_written (hi : Inv s) (hj : s.ops i = some (.body op r done (c :: todo)))
    {room : Room} (h : (s.wrote i op r done c todo).rooms r = some room) :
    room.id = r ∧ Valid room ∧ r ≤ s.seq := by
  rw [rooms_wrote_self hi hj] at h
  cases c with
  | setMember | delMember => exact hi.valid r room h
  | delRoom => cases h
  | setRoom rec =>
    obtain rfl : rec = room := by simpa [Cmd.onRoom] using h
    cases hi.body i op r done _ hj with
    | @create account req now _ _ h hr _ =>
      have hmem : Cmd.setRoom rec ∈ createCmds account req r now := by
        rw [← h]
        simp
      obtain rfl : rec = newRoom account req r now := by simpa [createCmds] using hmem
      refine ⟨rfl, ⟨by simp, ?_⟩, hr⟩
      simp [newRoom, Room.ids, memberFromAccount]
    | plan hc hs hid hv hp hr =>
      obtain ⟨h1, h2⟩ := plan_valid hv hp (by simp : Cmd.setRoom rec ∈ _)
      exact ⟨h1.trans hid, h2, hs⟩

theorem setMember_created (hi : Inv s) {a r' : Nat}
    (hj : s.ops i = some (.body op r done (.setMember a r' :: todo))) : r' = r ∧
      Created (s.wrote i op r done (.setMember a r') todo) r := by
  cases hi.body i op r done _ hj with
  | @create account req now _ _ h hr hfresh =>
    have hmem : Cmd.setMember a r' ∈ createCmds account req r now := by
      rw [← h]
      simp
    obtain ⟨rfl, rfl⟩ : a = account.uid ∧ r' = r := by simpa [createCmds] using hmem
    refine ⟨rfl, by simpa [State.wrote, State.goto] using hr, fun k op' todo' hc hk => ?_⟩
    rcases body_wrote hk with ⟨_, _, _, hd, _⟩ | ⟨hne, hk⟩
    · simp at hd
    · exact hne (hi.distinct k i _ _ r' _ _ _ _ hc rfl hk hj)
  | @plan _ _ _ room hc hs hid hv hp hr =>
    have hroom : (s.rooms r).isSome ∧ r' = r := by
      generalize hcmds : done ++ Cmd.setMember a r' :: todo = cmds at hp
      have hmem : Cmd.setMember a r' ∈ cmds := by
        rw [← hcmds]
        simp
      cases hp with
      | join h =>
        refine ⟨?_, ?_⟩
        · rw [hr]
          refine roomAfter_isSome fun r'' hm => ?_
          have hdel := List.mem_append_left (Cmd.setMember a r' :: todo) hm
          rw [hcmds] at hdel
          simp at hdel
        · obtain ⟨_, rfl⟩ : a = _ ∧ r' = room.id := by simpa using hmem
          exact hid
      | _ => simp at hmem
    obtain ⟨room', hroom'⟩ := Option.isSome_iff_exists.mp hroom.1
    refine ⟨hroom.2, created_wrote ⟨hs, fun k op' todo' hc' hk => ?_⟩⟩
    cases hi.body k op' r [] todo' hk with
    | create _ _ hfresh =>
      rw [hfresh rfl] at hroom'
      cases hroom'
    | gone => cases hc'
    | plan hc'' => simp [hc'] at hc''

theorem locked_wrote {k r' : Nat} {pc : Pc} (hj : s.ops i = some (.body op r done (c :: todo)))
    (hk : (s.wrote i op r done c todo).ops k = some pc) (hl : pc.locked = some r') :
    ∃ pc', s.ops k = some pc' ∧ pc'.locked = some r' := by
  rcases ops_update ops_wrote hk with ⟨rfl, rfl⟩ | ⟨_, hk⟩
  · cases todo with
    | nil =>
      rw [bodyPc, (idle_ended op r .ok).1.locked] at hl
      cases hl
    | cons c' todo => exact ⟨_, hj, hl⟩
  · exact ⟨pc, hk, hl⟩

theorem inv_write (hi : Inv s) (hj : s.ops i = some (.body op r done (c :: todo))) :
    Inv (s.wrote i op r done c todo) where
  valid := by
    intro r' room hr
    rw [show (s.wrote i op r done c todo).seq = s.seq by simp [State.wrote, State.goto]]
    by_cases he : r' = r
    · subst he
      exact valid_written hi hj hr
    · rw [rooms_wrote_other hi hj he] at hr
      exact hi.valid r' room hr
  lease := by
    intro j k pc pc' r' hj' hk hl hl'
    obtain ⟨pc1, hj1, hl1⟩ := locked_wrote hj hj' hl
    obtain ⟨pc2, hk2, hl2⟩ := locked_wrote hj hk hl'
    exact hi.lease j k pc1 pc2 r' hj1 hk2 hl1 hl2
  body := by
    intro k op' r' done' todo' hk
    rcases body_wrote hk with ⟨rfl, rfl, rfl, rfl, rfl⟩ | ⟨hne, hk⟩
    · rcases body_wrote_self hi hj with h | rfl
      · exact h
      · rcases ops_update ops_wrote hk with ⟨_, hpc⟩ | ⟨hne, _⟩
        · exact absurd hpc.symm bodyPc_nil
        · exact absurd rfl hne
    · have hseq : (s.wrote i op r done c todo).seq = s.seq := by simp [State.wrote, State.goto]
      rcases rooms_kept hi hj hne hk with h | ⟨hc, hd⟩
      · exact body_moves h (Nat.le_of_eq hseq.symm) (hi.body k op' r' done' todo' hk)
      · cases hi.body k op' r' done' todo' hk with
        | create h hr _ => exact .create h (by rw [hseq]; exact hr) (fun h => absurd h hd)
        | gone => cases hc
        | plan hc' => simp [hc] at hc'
  distinct := by
    intro k l op1 op2 r' d1 d2 t1 t2 hc1 hc2 hk hl
    rcases body_wrote hk with ⟨e1, rfl, rfl, _, _⟩ | ⟨_, hk'⟩
    · rcases body_wrote hl with ⟨e2, _⟩ | ⟨_, hl'⟩
      · exact e1.trans e2.symm
      · exact e1.trans (hi.distinct _ _ _ _ _ _ _ _ _ hc1 hc2 hj hl')
    · rcases body_wrote hl with ⟨e2, rfl, rfl, _, _⟩ | ⟨_, hl'⟩
      · exact (hi.distinct _ _ _ _ _ _ _ _ _ hc1 hc2 hk' hj).trans e2.symm
      · exact hi.distinct _ _ _ _ _ _ _ _ _ hc1 hc2 hk' hl'
  members := by
    intro a r' ha
    cases c with
    | setRoom | delRoom => exact created_wrote (hi.members a r' ha)
    | setMember b r'' =>
      obtain ⟨rfl, hcreated⟩ := setMember_created hi hj
      by_cases hab : a = b
      · subst hab
        obtain rfl : r'' = r' := by simpa [State.wrote, State.goto, State.write] using ha
        exact hcreated
      · refine created_wrote (hi.members a r' ?_)
        simpa [State.wrote, State.goto, State.write, hab] using ha
    | delMember b =>
      by_cases hab : a = b
      · subst hab
        simp [State.wrote, State.goto, State.write] at ha
      · refine created_wrote (hi.members a r' ?_)
        simpa [State.wrote, State.goto, State.write, hab] using ha
  leaving := by
    intro k pc a r' hk hl
    rcases ops_update ops_wrote hk with ⟨rfl, rfl⟩ | ⟨_, hk⟩
    · cases todo with
      | nil =>
        rw [bodyPc, (idle_ended op r .ok).2] at hl
        cases hl
      | cons c' todo =>
        refine created_wrote (hi.leaving k _ a r' hj ?_)
        cases op <;> exact hl
    · exact created_wrote (hi.leaving k pc a r' hk hl)

end write

-- Who relies on the lease of a room holds it.
def Leased (s : State) : Prop :=
  ∀ i pc r, s.ops i = some pc → pc.locked = some r → s.locks r = some i

theorem leased_moves (hl : Leased s) (h : Moves s t i pc)
    (hlock : ∀ r, pc.locked = some r → t.locks r = some i) : Leased t := by
  intro j pc' r hj hr
  rcases ops_update h.ops hj with ⟨rfl, rfl⟩ | ⟨hne, hj⟩
  · exact hlock r hr
  · exact h.locks j r hne (hl j pc' r hj hr)

theorem leased_load (hl : Leased s) {op : Op} {r : Nat} {cmds : List Cmd}
    (hj : s.ops i = some (.load op r)) : Leased (s.goto i (bodyPc op r [] cmds)) := by
  refine leased_moves hl (moves_goto s i _) fun r' hr => ?_
  cases cmds with
  | nil =>
    rw [bodyPc, (idle_ended op r .ok).1.locked] at hr
    cases hr
  | cons c cmds =>
    simp only [bodyPc, Pc.locked] at hr
    split at hr
    · cases hr
    · cases hr
      exact hl i _ r hj rfl

inductive Moved (s : State) : Event → State → Prop where
  | move {e : Event} {i : Nat} {pc : Pc} {t : State} (h : Moves s t i pc)
      (hnew : ∀ op r done todo, pc = .body op r done todo → done = [] ∧ (op.isCreate = true ∨
        (e = .next i ∧ s.ops i = some (.load op r) ∧ op.body (s.rooms r) = .ok todo)))
      (hold : ∀ op r done todo, s.ops i = some (.body op r done todo) → e = .fail i)
      (hinv : Calm s e → Inv s → Inv t) (hleased : Leased s → Leased t) : Moved s e t
  | write {i r : Nat} {op : Op} {done todo : List Cmd} {c : Cmd}
      (hj : s.ops i = some (.body op r done (c :: todo))) :
      Moved s (.next i) (s.wrote i op r done c todo)
  | expire (r : Nat) :
      Moved s (.expire r) { s with locks := Function.update s.locks r none }

theorem moved_idle {t : State} (h : Moves s t i pc) (hp : Idle pc)
    (hold : ∀ op r done todo, s.ops i = some (.body op r done todo) → e = .fail i)
    (hleave : ∀ a r, pc.leaving = some (a, r) → Inv s → Created s r) : Moved s e t :=
  .move h (fun op r done todo hb => (hp.body op r done todo hb).elim) hold
    (fun _ hi => inv_idle hi h hp fun a r hl => hleave a r hl hi)
    fun hl => leased_moves hl h fun r hr => by
      rw [hp.locked] at hr
      cases hr

theorem moved_next (hs : Step s (.next i) t) : Moved s (.next i) t := by
  obtain ⟨pc, hpc, hstep⟩ := Option.bind_eq_some_iff.mp hs
  have hother : ∀ op r done todo, pc ≠ .body op r done todo →
      s.ops i = some (.body op r done todo) → Event.next i = .fail i := by
    intro op r done todo hne hj
    rw [hpc] at hj
    exact absurd (Option.some.inj hj) hne
  cases pc with
  | resolve op =>
    cases hstep
    obtain ⟨hp, hl⟩ := idle_resolve s op
    exact moved_idle (moves_goto s i _) hp (fun _ _ _ _ => hother _ _ _ _ (by rintro ⟨⟩))
      fun a r h hi => hi.members a r (hl a r h)
  | incr op =>
    cases op with
    | create account req now =>
      cases hstep
      refine .move (moves_incr s i _) ?_ (fun _ _ _ _ => hother _ _ _ _ (by rintro ⟨⟩))
        (fun _ hi => inv_incr hi account req now)
        fun hl => leased_moves hl (moves_incr s i _) (by rintro r ⟨⟩)
      rintro op r done todo ⟨⟩
      exact ⟨rfl, Or.inl rfl⟩
    | _ => cases hstep
  | lock op r =>
    simp only [stepOp] at hstep
    split at hstep
    · next hfree =>
      cases hstep
      refine .move (moves_lock hfree) (by rintro op' r' done todo ⟨⟩)
        (fun _ _ _ _ => hother _ _ _ _ (by rintro ⟨⟩)) (fun hc hi => inv_lock hi hpc hfree hc)
        fun hl => leased_moves hl (moves_lock hfree) ?_
      rintro r' ⟨⟩
      simp [State.goto]
    · cases hstep
  | load op r =>
    simp only [stepOp] at hstep
    split at hstep
    · next cmds hb =>
      cases hstep
      refine .move (moves_goto s i _) ?_ (fun _ _ _ _ => hother _ _ _ _ (by rintro ⟨⟩))
        (fun _ hi => inv_load hi hpc hb) fun hl => leased_load hl hpc
      intro op' r' done todo h
      cases cmds with
      | nil => exact absurd h bodyPc_nil
      | cons c cmds =>
        cases h
        exact ⟨rfl, Or.inr ⟨rfl, hpc, hb⟩⟩
    · cases hstep
      refine moved_idle (moves_goto s i _) ⟨rfl, by rintro _ _ _ _ ⟨⟩⟩
        (fun _ _ _ _ => hother _ _ _ _ (by rintro ⟨⟩)) ?_
      rintro a r' ⟨⟩
  | body op r done todo =>
    cases todo with
    | nil => cases hstep
    | cons c todo =>
      cases hstep
      exact .write hpc
  | release op r out =>
    cases hstep
    refine moved_idle (moves_unlock s i r _) ⟨rfl, by rintro _ _ _ _ ⟨⟩⟩
      (fun _ _ _ _ => hother _ _ _ _ (by rintro ⟨⟩)) ?_
    rintro a r' ⟨⟩
  | finished op out => cases hstep

theorem moved_fail (hs : Step s (.fail i) t) : Moved s (.fail i) t := by
  obtain ⟨pc, hpc, hstep⟩ := Option.bind_eq_some_iff.mp hs
  cases pc with
  | body op r done todo =>
    cases hstep
    obtain ⟨hp, hl⟩ := idle_ended op r .failed
    exact moved_idle (moves_goto s i _) hp (fun _ _ _ _ _ => rfl) (by simp [hl])
  | finished op out => cases hstep
  | _ =>
    cases hstep
    exact moved_idle (moves_goto s i _) ⟨rfl, by rintro _ _ _ _ ⟨⟩⟩ (fun _ _ _ _ _ => rfl)
      (by rintro a r ⟨⟩)

theorem moved_step (hs : Step s e t) : Moved s e t := by
  cases e with
  | call i op =>
    simp only [Step, step] at hs
    split at hs
    · next hnone =>
      cases hs
      obtain ⟨hp, hl⟩ := idle_call op
      refine moved_idle (moves_goto s i _) hp ?_ (by simp [hl])
      intro op' r done todo hj
      rw [hnone] at hj
      cases hj
    · cases hs
  | next i => exact moved_next hs
  | timeout i =>
    simp only [Step, step] at hs
    split at hs
    · next op r hj =>
      cases hs
      refine moved_idle (moves_goto s i _) ⟨rfl, by rintro _ _ _ _ ⟨⟩⟩ ?_ (by rintro a r ⟨⟩)
      intro op' r' done todo hj'
      rw [hj] at hj'
      cases hj'
    · cases hs
  | fail i => exact moved_fail hs
  | expire r =>
    cases hs
    exact .expire r

theorem inv_expire (hi : Inv s) {r : Nat} : Inv { s with locks := Function.update s.locks r none } := by
  refine ⟨hi.valid, hi.lease, ?_, hi.distinct, hi.members, hi.leaving⟩
  intro j op r' done todo hj
  exact body_moves (s := s) rfl (Nat.le_refl _) (hi.body j op r' done todo hj)

theorem inv_step (hi : Inv s) (hs : Step s e t) (hc : Calm s e) : Inv t := by
  cases moved_step hs with
  | move h hnew hold hinv => exact hinv hc hi
  | write hj => exact inv_write hi hj
  | expire r => exact inv_expire hi

theorem run_inv {es : List Event} (h : Run (Guarded Step Calm) start es s) : Inv s :=
  run_invariant h inv_start fun hi ⟨hs, hc⟩ => inv_step hi hs hc

theorem calm_of_leased (hl : Leased s) (hs : Step s e t) : Calm s e := by
  cases e with
  | next i =>
    intro op r hi j pc hj hr
    rw [Step, step, hi, Option.bind_some, stepOp, if_neg] at hs
    · cases hs
    · rw [hl j pc r hj hr]
      rintro ⟨⟩
  | _ => trivial

theorem leased_step (hl : Leased s) (hs : Step s e t) (he : ∀ r, e ≠ .expire r) : Leased t := by
  cases moved_step hs with
  | move h hnew hold hinv hleased => exact hleased hl
  | expire r => exact absurd rfl (he r)
  | @write i r op done todo c hj =>
    intro k pc r' hk hr
    obtain ⟨pc', hk', hr'⟩ := locked_wrote hj hk hr
    rw [show (s.wrote i op r done c todo).locks = s.locks by simp [State.wrote, State.goto]]
    exact hl k pc' r' hk' hr'

theorem calm_of_run {c : State → Event → Prop} {es : List Event}
    (h : Run (Guarded Step fun s e => (∀ r, e ≠ .expire r) ∧ c s e) start es s) :
    Run (Guarded Step fun s e => Calm s e ∧ c s e) start es s := by
  have hall : Leased s ∧ Run (Guarded Step fun s e => Calm s e ∧ c s e) start es s :=
    run_history (I := fun es s => Leased s ∧ Run (Guarded Step fun s e => Calm s e ∧ c s e) start es s) h
      ⟨by rintro i pc r ⟨⟩, .start⟩ fun ⟨hl, hrun⟩ ⟨hs, he, hc⟩ =>
        ⟨leased_step hl hs he, hrun.next ⟨hs, calm_of_leased hl hs, hc⟩⟩
  exact hall.2

end Rooms

import Madoka.Rooms.Membership

namespace Rooms

open Lib

variable {s t : State} {e : Event}

structure Proper (s : State) (e : Event) (t : State) : Prop where
  deletes : ∀ r room, s.rooms r = some room → t.rooms r = none →
    ∃ i a done todo, e = .next i ∧ s.ops i = some (.body (.leave a) r done todo) ∧
      (room.owner = a ∨ room.ids = [a])
  stale : ∀ i a r done todo room, e = .next i → s.ops i = some (.body (.leave a) r done todo) →
    s.rooms r = some room → a ∉ room.ids → t.rooms = s.rooms

-- A leave that loads an existing room finds its account listed there, or two members.
def Attended (s : State) (e : Event) : Prop :=
  Calm s e ∧ ∀ i a r room, e = .next i → s.ops i = some (.load (.leave a) r) →
    s.rooms r = some room → a ∈ room.ids ∨ 2 ≤ room.members.length

def Ready (s : State) : Prop :=
  ∀ i a r done todo room, s.ops i = some (.body (.leave a) r done todo) →
    s.rooms r = some room → a ∈ room.ids ∨ 2 ≤ room.members.length

theorem mem_ids_length {room : Room} : room.ids.length = room.members.length := by
  simp [Room.ids]

theorem ids_eq_singleton {room : Room} {a : Nat} (h : a ∈ room.ids) (hl : room.members.length ≤ 1) :
    room.ids = [a] := by
  rw [← mem_ids_length] at hl
  cases hm : room.ids with
  | nil => simp [hm] at h
  | cons x xs =>
    rw [hm] at h hl
    have hxs : xs = [] := by simpa using hl
    subst hxs
    simpa [eq_comm] using h

theorem leave_room {r a : Nat} {done todo : List Cmd} {room : Room}
    (h : Body s r (.leave a) done todo) (hr : s.rooms r = some room) (ht : todo ≠ []) :
    Plan room (.leave a) (done ++ todo) ∧ room.id = r := by
  cases h with
  | gone h => simp [h] at hr
  | @plan _ _ _ room₀ hc hs hid hv hp hafter =>
    suffices room₀ = room by
      subst this
      exact ⟨hp, hid⟩
    rw [hr] at hafter
    generalize hcmds : done ++ todo = cmds at hp
    cases done with
    | nil => exact (Option.some.inj hafter).symm
    | cons c done =>
      cases hp with
      | keep => cases hcmds
      | edit hop => exact absurd rfl (hop a)
      | dismiss h =>
        obtain ⟨rfl, hrest⟩ := List.cons.inj hcmds
        cases done with
        | nil => exact (Option.some.inj hafter).symm
        | cons c done =>
          obtain ⟨rfl, hdrop⟩ := List.cons.inj hrest
          have hdels : ∀ c ∈ done, c.roomId = none := by
            intro c hc
            have hc' : c ∈ (room₀.ids.filter (· ≠ a)).map Cmd.delMember := by
              rw [← hdrop]
              exact List.mem_append_left _ hc
            obtain ⟨m, _, rfl⟩ := List.mem_map.mp hc'
            rfl
          have hnone : roomAfter room₀ (Cmd.delMember a :: Cmd.delRoom room₀.id :: done) = none :=
            foldl_onRoom hdels
          rw [hnone] at hafter
          cases hafter
      | leave hne h =>
        obtain ⟨rfl, hrest⟩ := List.cons.inj hcmds
        cases done with
        | nil => exact (Option.some.inj hafter).symm
        | cons c done =>
          obtain ⟨_, hnil⟩ := List.cons.inj hrest
          exact absurd (List.append_eq_nil_iff.mp hnil).2 ht

theorem ready_start : Ready start := by
  intro i a r done todo room hj
  simp [start] at hj

theorem leave_setRoom {r a : Nat} {done todo : List Cmd} {rec : Room}
    (h : Body s r (.leave a) done (.setRoom rec :: todo)) : todo = [] := by
  cases h with
  | plan hc hs hid hv hp hr =>
    generalize hcmds : done ++ Cmd.setRoom rec :: todo = cmds at hp
    cases hp with
    | keep => simp at hcmds
    | edit hop => exact absurd rfl (hop a)
    | dismiss h =>
      have hmem : Cmd.setRoom rec ∈ done ++ Cmd.setRoom rec :: todo := by simp
      rw [hcmds] at hmem
      simp at hmem
    | leave hne h =>
      cases done with
      | nil => simp at hcmds
      | cons c done =>
        obtain ⟨_, hrest⟩ := List.cons.inj hcmds
        cases done with
        | nil => exact (List.cons.inj hrest).2
        | cons c done => simp at hrest

theorem ready_step (hi : Inv s) (hr : Ready s) (hs : Step s e t) (hc : Attended s e) : Ready t := by
  intro j a r done todo room hj hroom
  cases moved_step hs with
  | @move _ i pc _ h hnew hold hinv =>
    rw [h.rooms] at hroom
    rcases ops_update h.ops hj with ⟨rfl, hpc⟩ | ⟨_, hj⟩
    · obtain ⟨_, hcr | ⟨he, hload, _⟩⟩ := hnew _ _ _ _ hpc.symm
      · cases hcr
      · exact hc.2 j a r room he hload hroom
    · exact hr j a r done todo room hj hroom
  | @write i r' op done' todo' c hi' =>
    rcases body_wrote hj with ⟨rfl, rfl, rfl, rfl, rfl⟩ | ⟨hne, hj'⟩
    · rw [rooms_wrote_self hi hi'] at hroom
      cases c with
      | delRoom => cases hroom
      | setRoom rec =>
        obtain rfl := leave_setRoom (hi.body j _ r done' _ hi')
        rcases ops_update ops_wrote hj with ⟨_, hpc⟩ | ⟨hne, _⟩
        · exact absurd hpc.symm bodyPc_nil
        · exact absurd rfl hne
      | _ => exact hr j a r done' _ room hi' hroom
    · rcases rooms_kept hi hi' hne hj' with h | ⟨hc', _⟩
      · rw [h] at hroom
        exact hr j a r done todo room hj' hroom
      · cases hc'
  | expire r' => exact hr j a r done todo room hj hroom

theorem run_ready {es : List Event} (h : Run (Guarded Step Attended) start es s) :
    Inv s ∧ Ready s :=
  run_invariant (I := fun s => Inv s ∧ Ready s) h ⟨inv_start, ready_start⟩
    fun ⟨hi, hr⟩ ⟨hs, hc⟩ => ⟨inv_step hi hs hc.1, ready_step hi hr hs hc⟩

theorem delRoom_leave {i r r' : Nat} {op : Op} {done todo : List Cmd} {room : Room} (hi : Inv s)
    (hj : s.ops i = some (.body op r done (.delRoom r' :: todo))) (hr : s.rooms r = some room) :
    ∃ a, op = .leave a ∧ (room.owner = a ∨ room.members.length ≤ 1) := by
  cases hi.body i op r done _ hj with
  | create h =>
    have hmem : Cmd.delRoom r' ∈ done ++ Cmd.delRoom r' :: todo := by simp
    rw [h] at hmem
    simp [createCmds] at hmem
  | @plan _ _ _ room₀ hc hs hid hv hp hafter =>
    have hop : ∃ a, op = .leave a := by
      generalize hcmds : done ++ Cmd.delRoom r' :: todo = cmds at hp
      have hmem : Cmd.delRoom r' ∈ cmds := by
        rw [← hcmds]
        simp
      cases hp with
      | dismiss h => exact ⟨_, rfl⟩
      | keep => cases hmem
      | _ => simp at hmem
    obtain ⟨a, rfl⟩ := hop
    refine ⟨a, rfl, ?_⟩
    obtain ⟨hp', _⟩ := leave_room (hi.body i _ r done _ hj) hr (by simp)
    generalize hcmds : done ++ Cmd.delRoom r' :: todo = cmds at hp'
    have hmem : Cmd.delRoom r' ∈ cmds := by
      rw [← hcmds]
      simp
    cases hp' with
    | dismiss h => exact h
    | keep => cases hmem
    | _ => simp at hmem

theorem rooms_of_roomId_none {i r : Nat} {op : Op} {done todo : List Cmd} {c : Cmd}
    (h : c.roomId = none) : (s.wrote i op r done c todo).rooms = s.rooms := by
  funext r'
  rw [rooms_wrote, h]
  simp

theorem leave_deletes {i r a r' : Nat} {done todo : List Cmd} {room : Room} (hi : Inv s)
    (hr : Ready s) (hj : s.ops i = some (.body (.leave a) r done (.delRoom r' :: todo)))
    (hroom : s.rooms r = some room) : room.owner = a ∨ room.ids = [a] := by
  obtain ⟨b, he, h⟩ := delRoom_leave hi hj hroom
  cases he
  rcases h with h | hlen
  · exact Or.inl h
  · refine Or.inr (ids_eq_singleton ?_ hlen)
    rcases hr i a r done _ room hj hroom with h | h
    · exact h
    · omega

theorem leave_stores {i r a : Nat} {done todo : List Cmd} {room rec : Room} (hi : Inv s)
    (hj : s.ops i = some (.body (.leave a) r done (.setRoom rec :: todo)))
    (hroom : s.rooms r = some room) : rec = without room a ∧ room.id = r := by
  obtain ⟨hp, hid⟩ := leave_room (hi.body i _ r done _ hj) hroom (by simp)
  refine ⟨?_, hid⟩
  generalize hcmds : done ++ Cmd.setRoom rec :: todo = cmds at hp
  have hmem : Cmd.setRoom rec ∈ cmds := by
    rw [← hcmds]
    simp
  cases hp with
  | keep => cases hmem
  | edit hop => exact absurd rfl (hop a)
  | dismiss h => simp at hmem
  | leave hne h => simpa using hmem

theorem proper_of_ready (hi : Inv s) (hr : Ready s) (hs : Step s e t) : Proper s e t := by
  cases moved_step hs with
  | move h hnew hold hinv =>
    refine ⟨fun r room hroom hnone => ?_, fun _ _ _ _ _ _ _ _ _ _ => h.rooms⟩
    rw [h.rooms, hroom] at hnone
    cases hnone
  | expire r =>
    refine ⟨fun r room hroom hnone => ?_, fun _ _ _ _ _ _ _ _ _ _ => rfl⟩
    rw [hroom] at hnone
    cases hnone
  | @write i r op done todo c hj =>
    refine ⟨fun r' room hroom hnone => ?_, fun i' a r' done' todo' room he hj' hroom hna => ?_⟩
    · have hrr : r' = r := by
        by_contra hne
        rw [rooms_wrote_other hi hj hne, hroom] at hnone
        cases hnone
      subst hrr
      rw [rooms_wrote_self hi hj, hroom] at hnone
      cases c with
      | delRoom r'' =>
        obtain ⟨a, rfl, _⟩ := delRoom_leave hi hj hroom
        exact ⟨i, a, done, _, rfl, hj, leave_deletes hi hr hj hroom⟩
      | _ => cases hnone
    · cases he
      obtain ⟨rfl, rfl, rfl, rfl⟩ :
          op = .leave a ∧ r = r' ∧ done = done' ∧ c :: todo = todo' := by
        simpa using hj.symm.trans hj'
      cases c with
      | setMember | delMember => exact rooms_of_roomId_none rfl
      | setRoom rec =>
        obtain ⟨rfl, hid⟩ := leave_stores hi hj hroom
        rw [without_of_not_mem hna]
        funext r'
        simp only [State.wrote, State.goto, State.write, hid]
        by_cases hrr : r' = r
        · subst hrr
          simp [hroom]
        · simp [hrr]
      | delRoom r'' =>
        rcases leave_deletes hi hr hj hroom with h | h
        · exact absurd (h ▸ (hi.valid r room hroom).2.1.owner) hna
        · exact absurd (by simp [h]) hna

theorem step_write {i r : Nat} {op : Op} {done todo : List Cmd} {c : Cmd}
    (hj : s.ops i = some (.body op r done (c :: todo))) :
    Step s (.next i) (s.wrote i op r done c todo) := by
  simp only [Step, step, hj, Option.bind_some, stepOp, State.wrote]

theorem wrote_ops_self {i r : Nat} {op : Op} {done todo : List Cmd} {c : Cmd} :
    (s.wrote i op r done c todo).ops i = some (bodyPc op r (done ++ [c]) todo) := by
  rw [ops_wrote, Function.update_self]

theorem unattended_deletes {i a r : Nat} {room : Room} (hi : Inv s)
    (hj : s.ops i = some (.load (.leave a) r)) (hroom : s.rooms r = some room) (hna : a ∉ room.ids)
    (hl : room.members.length < 2) :
    ∃ u v, Run Step s [.next i, .next i] u ∧ Step u (.next i) v ∧ ¬ Proper u (.next i) v := by
  obtain ⟨hid, hv, _⟩ := hi.valid r room hroom
  have hbody : Op.body (.leave a) (s.rooms r) = .ok (.delMember a :: .delRoom room.id ::
      (room.ids.filter (· ≠ a)).map .delMember) := by
    rw [hroom]
    exact if_pos (Or.inr (by omega))
  generalize (room.ids.filter (· ≠ a)).map Cmd.delMember = dels at hbody
  have h1 : Step s (.next i) (s.goto i (.body (.leave a) r [] (.delMember a :: .delRoom room.id ::
      dels))) := by
    simp only [Step, step, hj, Option.bind_some, stepOp, hbody, bodyPc]
  generalize hs1 : s.goto i _ = s1 at h1
  have hj1 : s1.ops i = some (.body (.leave a) r [] (.delMember a :: .delRoom room.id :: dels)) := by
    rw [← hs1]
    simp [State.goto]
  have h2 := Run.next (run_single h1) (step_write hj1)
  generalize hs2 : s1.wrote i _ _ _ _ _ = s2 at h2
  have hj2 : s2.ops i = some (.body (.leave a) r [.delMember a] (.delRoom room.id :: dels)) := by
    rw [← hs2, wrote_ops_self]
    rfl
  have hroom2 : s2.rooms r = some room := by
    rw [← hs2, ← hs1]
    exact hroom
  refine ⟨s2, _, h2, step_write hj2, fun hp => ?_⟩
  have hsame := congrFun (hp.stale i a r _ _ room rfl hj2 hroom2 hna) r
  rw [rooms_wrote, hroom2] at hsame
  simp [Cmd.roomId, Cmd.onRoom, hid] at hsame

theorem leave_dismisses_properly {es : List Event} (h : Run (Guarded Step Attended) start es s) :
    (∀ e t, Step s e t → Proper s e t) ∧
    (∀ i a r room, s.ops i = some (.load (.leave a) r) → s.rooms r = some room → a ∉ room.ids →
      room.members.length < 2 →
      ∃ u v, Run Step s [.next i, .next i] u ∧ Step u (.next i) v ∧ ¬ Proper u (.next i) v) :=
  ⟨fun _ _ hs => proper_of_ready (run_ready h).1 (run_ready h).2 hs,
    fun _ _ _ _ hj hroom hna hl => unattended_deletes (run_ready h).1 hj hroom hna hl⟩

theorem ownerLeave_run : ∃ es s done todo, Run (Guarded Step Attended) start es s ∧
    s.ops 1 = some (.body (.leave 1) 1 done (.delRoom 1 :: todo)) ∧ s.rooms 1 ≠ none := by
  have h0 : Run (Guarded Step fun s e => (∀ r, e ≠ .expire r) ∧ ∀ i a r room, e = .next i →
      s.ops i = some (.load (.leave a) r) → s.rooms r = some room →
      a ∈ room.ids ∨ 2 ≤ room.members.length) start [] start := .start
  have h1 := h0.next (show Guarded _ _ _ (.call 0 (.create (guest 1) plain 0)) _ from
    ⟨rfl, by rintro _ ⟨⟩, by rintro i a r room ⟨⟩⟩)
  have h2 := h1.next (show Guarded _ _ _ (.next 0) _ from
    ⟨rfl, by rintro _ ⟨⟩, by rintro i a r room ⟨⟩ ⟨⟩⟩)
  have h3 := h2.next (show Guarded _ _ _ (.next 0) _ from
    ⟨rfl, by rintro _ ⟨⟩, by rintro i a r room ⟨⟩ ⟨⟩⟩)
  have h4 := h3.next (show Guarded _ _ _ (.next 0) _ from
    ⟨rfl, by rintro _ ⟨⟩, by rintro i a r room ⟨⟩ ⟨⟩⟩)
  have h5 := h4.next (show Guarded _ _ _ (.next 0) _ from
    ⟨rfl, by rintro _ ⟨⟩, by rintro i a r room ⟨⟩ ⟨⟩⟩)
  have h6 := h5.next (show Guarded _ _ _ (.call 1 (.leave 1)) _ from
    ⟨rfl, by rintro _ ⟨⟩, by rintro i a r room ⟨⟩⟩)
  have h7 := h6.next (show Guarded _ _ _ (.next 1) _ from
    ⟨rfl, by rintro _ ⟨⟩, by rintro i a r room ⟨⟩ ⟨⟩⟩)
  have h8 := h7.next (show Guarded _ _ _ (.next 1) _ from
    ⟨rfl, by rintro _ ⟨⟩, by rintro i a r room ⟨⟩ ⟨⟩⟩)
  have h9 := h8.next (show Guarded _ _ _ (.next 1) _ from
    ⟨rfl, by rintro _ ⟨⟩, by rintro i a r room ⟨⟩ ⟨⟩ ⟨⟩; exact Or.inl (by decide)⟩)
  have h10 := h9.next (show Guarded _ _ _ (.next 1) _ from
    ⟨rfl, by rintro _ ⟨⟩, by rintro i a r room ⟨⟩ ⟨⟩⟩)
  exact ⟨_, _, _, _, calm_of_run h10, rfl, by rintro ⟨⟩⟩

theorem owner_leave_dismisses : ∃ s t, Step s (.next 1) t ∧ s.rooms 1 ≠ none ∧
    t.rooms 1 = none ∧ Proper s (.next 1) t := by
  obtain ⟨es, s, done, todo, h, hj, hroom⟩ := ownerLeave_run
  have hs := step_write hj
  refine ⟨s, _, hs, hroom, ?_, (leave_dismisses_properly h).1 _ _ hs⟩
  rw [rooms_wrote]
  rfl

def staleLeave : List Event :=
  [.call 0 (.create (guest 1) plain 0), .next 0, .next 0, .next 0, .next 0,
    .call 1 (.join (guest 2) ⟨1, ""⟩), .next 1, .next 1, .next 1, .next 1, .next 1,
    .call 2 (.leave 2), .next 2, .call 3 (.leave 2), .next 3,
    .next 2, .next 2, .next 2, .next 2, .next 2, .next 3, .next 3, .next 3]

theorem staleLeave_run : ∃ s room done todo t, staleLeave.foldlM step start = some s ∧
    s.rooms 1 = some room ∧ s.ops 3 = some (.body (.leave 2) 1 done todo) ∧ room.ids = [1] ∧
    step s (.next 3) = some t ∧ t.rooms 1 = none :=
  ⟨_, _, _, _, _, rfl, rfl, rfl, rfl, rfl, rfl⟩

theorem stale_leave_dismisses :
    ¬ ∀ es s e t, Run Step start es s → Step s e t → Proper s e t := by
  intro hall
  obtain ⟨s, room, done, todo, t, hrun, hroom, hj, hids, hs, hnone⟩ := staleLeave_run
  have hp := hall staleLeave s (.next 3) t (run_of_foldlM hrun) hs
  have hrooms := hp.stale 3 2 1 done todo room rfl hj hroom (by simp [hids])
  rw [hrooms, hroom] at hnone
  cases hnone

end Rooms

import Madoka.Rooms.Lease

namespace Rooms

open Lib

def Held (s : State) (rec : Room) : Prop :=
  (∃ r, s.rooms r = some rec) ∨
    ∃ i op r done todo, s.ops i = some (.body op r done todo) ∧ .setRoom rec ∈ todo

-- Where a step makes a record: a room is created, or an operation has loaded one and changed it.
inductive Made (s : State) : Event → Room → Prop where
  | created {i now : Nat} {account : Account} {req : CreateReq}
      (h : s.ops i = some (.incr (.create account req now))) :
      Made s (.next i) (newRoom account req (s.seq + 1) now)
  | edited {i r : Nat} {op : Op} {room rec : Room} {cmds : List Cmd}
      (h : s.ops i = some (.load op r)) (hr : s.rooms r = some room)
      (hb : op.body (some room) = .ok cmds) (hrec : .setRoom rec ∈ cmds) : Made s (.next i) rec

-- What an operation other than create may store in place of the record that it loaded.
inductive Edit (room : Room) : Op → Room → Prop where
  | join {account : Account} {req : JoinReq} (hw : room.state = .waiting)
      (hcode : req.code ≠ "" → room.code ≠ "" → req.code = room.code) (hnew : account.uid ∉ room.ids)
      (hfree : room.members.length < room.maxMemberNum) :
      Edit room (.join account req) (joined room account)
  | leave {a : Nat} (hne : room.owner ≠ a) (hmore : 1 < room.members.length) :
      Edit room (.leave a) (without room a)
  | kick {owner r a : Nat} (howner : room.owner = owner) (hne : a ≠ owner) (hin : a ∈ room.ids) :
      Edit room (.kick owner r a) (without room a)
  | change {a : Nat} {req : ChangeReq} (howner : room.owner = a) (hw : room.state = .waiting) :
      Edit room (.change a req) (changed room req)
  | setReady {a : Nat} {ready : Bool} (hin : a ∈ room.ids) :
      Edit room (.setReady a ready) (readied room a ready)
  | switchSeat {a : Nat} {req : SwitchSeatReq} {g seat : Nat} (hw : room.state = .waiting)
      (hin : a ∈ room.ids) (hg : g = 1 ∨ g = 2) (hseat : seat < perTeamCap room)
      (hfree : ∀ m ∈ room.members, m.accountId ≠ a → m.group = g → m.seat ≠ seat) :
      Edit room (.switchSeat a req) (seated room a g seat)
  | startMatch {a r : Nat} (howner : room.owner = a) (hw : room.state = .waiting) :
      Edit room (.startMatch a r) { room with state := .inGame }
  | reenter {r : Nat} (hgame : room.state = .inGame) :
      Edit room (.reenter r) { room with state := .waiting }

theorem edit_of_body {op : Op} {room rec : Room} {cmds : List Cmd}
    (h : op.body (some room) = .ok cmds) (hrec : .setRoom rec ∈ cmds) : Edit room op rec := by
  cases op with
  | create account req now =>
    cases h
    cases hrec
  | join account req =>
    simp only [Op.body, joinBody] at h
    split_ifs at h with h1 h2 h3 h4
    cases h
    obtain rfl : rec = joined room account := by simpa using hrec
    refine .join (not_not.mp h1) (fun hc hr => ?_) h3 (by omega)
    by_contra hne
    exact h2 ⟨hc, hr, hne⟩
  | leave a =>
    simp only [Op.body, leaveBody] at h
    split_ifs at h with h1
    · cases h
      simp at hrec
    · cases h
      obtain rfl : rec = without room a := by simpa using hrec
      exact .leave (fun he => h1 (Or.inl he)) (by omega)
  | kick owner r a =>
    simp only [Op.body, kickBody] at h
    split_ifs at h with h1 h2 h3
    cases h
    obtain rfl : rec = without room a := by simpa using hrec
    exact .kick (not_not.mp h1) h2 h3
  | change a req =>
    simp only [Op.body, changeBody] at h
    split_ifs at h with h1 h2
    cases h
    obtain rfl : rec = changed room req := by simpa using hrec
    exact .change (not_not.mp h1) (not_not.mp h2)
  | setReady a ready =>
    simp only [Op.body, setReadyBody] at h
    split_ifs at h with h1
    cases h
    obtain rfl : rec = readied room a ready := by simpa using hrec
    exact .setReady h1
  | switchSeat a req =>
    simp only [Op.body, switchSeatBody] at h
    split_ifs at h with h1 h2 h3 h4
    cases h
    rw [not_or, not_or, not_or] at h3
    obtain ⟨hlow, hhigh, hpos, hcap⟩ := h3
    have hteams : (numTeams : Int) = 2 := rfl
    obtain rfl : rec = seated room a (req.toRoomPos + 1).toNat req.toGroupPos.toNat := by
      simpa using hrec
    refine .switchSeat (not_not.mp h1) h2 (by omega) (by omega) fun m hm hne hgroup hs => ?_
    refine h4 (List.any_eq_true.mpr ⟨m, hm, ?_⟩)
    simp [hne, hgroup, hs]
  | startMatch a r =>
    simp only [Op.body, startMatchBody] at h
    split_ifs at h with h1 h2
    cases h
    obtain rfl : rec = { room with state := .inGame } := by simpa using hrec
    exact .startMatch (not_not.mp h1) (not_not.mp h2)
  | reenter r =>
    simp only [Op.body, reenterBody] at h
    split_ifs at h with h1
    · cases h
      obtain rfl : rec = { room with state := .waiting } := by simpa using hrec
      exact .reenter h1
    · cases h
      cases hrec

theorem edit_same {op : Op} {room rec : Room} (h : Edit room op rec) :
    rec.id = room.id ∧ rec.owner = room.owner ∧ rec.code = room.code := by
  cases h with
  | @change a req howner hw =>
    unfold changed
    split <;> exact ⟨rfl, rfl, rfl⟩
  | _ => exact ⟨rfl, rfl, rfl⟩

theorem edit_ids {op : Op} {room rec : Room} {a : Nat} (h : Edit room op rec) (ha : a ∈ rec.ids) :
    a ∈ room.ids ∨ ∃ account req, op = .join account req ∧ account.uid = a := by
  cases h with
  | @join account req hw hcode hnew hfree =>
    rw [ids_joined, List.mem_append, List.mem_singleton] at ha
    exact ha.imp_right fun heq => ⟨account, req, rfl, heq.symm⟩
  | leave hne hmore => exact Or.inl (List.mem_of_mem_erase (ids_without room _ ▸ ha))
  | kick howner hne hin => exact Or.inl (List.mem_of_mem_erase (ids_without room _ ▸ ha))
  | change howner hw => exact Or.inl (ids_changed room _ ▸ ha)
  | setReady hin => exact Or.inl (ids_readied room _ _ ▸ ha)
  | switchSeat hw hin hg hseat hfree => exact Or.inl (ids_seated room _ _ _ ▸ ha)
  | startMatch howner hw => exact Or.inl ha
  | reenter hgame => exact Or.inl ha

variable {s t : State} {e : Event} {i : Nat} {rec : Room}

theorem ops_goto {pc : Pc} {j : Nat} {pc' : Pc} (h : (s.goto i pc).ops j = some pc') :
    (j = i ∧ pc' = pc) ∨ s.ops j = some pc' := by
  rcases ops_update (t := s.goto i pc) rfl h with hnew | ⟨-, hold⟩
  · exact Or.inl hnew
  · exact Or.inr hold

theorem failed_idle {pc : Pc} (hpc : s.ops i = some pc) (h : failOp s i pc = some t) :
    ∃ pc', t = s.goto i pc' ∧ Idle pc' := by
  have hplain : ∀ {pc' : Pc}, (∀ op r done todo, pc' ≠ .body op r done todo) → pc'.locked = none →
      ∃ pc'', s.goto i pc' = s.goto i pc'' ∧ Idle pc'' := fun hb hl => ⟨_, rfl, hl, hb⟩
  cases pc with
  | body op r done todo =>
    obtain rfl := Option.some.inj h
    exact ⟨_, rfl, (idle_ended op r .failed).1⟩
  | finished op out => cases h
  | _ =>
    obtain rfl := Option.some.inj h
    exact hplain (by rintro _ _ _ _ ⟨⟩) rfl

-- Where an operation that is in its body comes from.
inductive Begun (s : State) (i : Nat) : Op → Nat → List Cmd → Event → Prop where
  | same {e : Event} {op : Op} {r : Nat} {done todo : List Cmd}
      (h : s.ops i = some (.body op r done todo)) : Begun s i op r todo e
  | wrote {e : Event} {op : Op} {r : Nat} {c : Cmd} {done todo : List Cmd}
      (h : s.ops i = some (.body op r done (c :: todo))) : Begun s i op r todo e
  | loaded {op : Op} {r : Nat} {todo : List Cmd} (h : s.ops i = some (.load op r))
      (hb : op.body (s.rooms r) = .ok todo) : Begun s i op r todo (.next i)
  | created {now : Nat} {account : Account} {req : CreateReq}
      (h : s.ops i = some (.incr (.create account req now))) :
      Begun s i (.create account req now) (s.seq + 1) (createCmds account req (s.seq + 1) now)
        (.next i)

theorem begun_next {k r : Nat} {op : Op} {done todo : List Cmd} (hs : Step s (.next k) t)
    (hj : t.ops i = some (.body op r done todo)) : Begun s i op r todo (.next k) := by
  obtain ⟨pc, hpc, hstep⟩ := Option.bind_eq_some_iff.mp hs
  have hidle : ∀ {u : State} {pc' : Pc}, u.ops = s.ops → (∀ op r done todo, pc' ≠ .body op r done todo) →
      (u.goto k pc').ops i = some (.body op r done todo) → Begun s i op r todo (.next k) := by
    intro u pc' hu hb h
    rcases ops_goto h with ⟨-, heq⟩ | hold
    · exact absurd heq.symm (hb op r done todo)
    · exact .same (hu ▸ hold)
  cases pc with
  | resolve op' =>
    obtain rfl := Option.some.inj hstep
    exact hidle rfl (idle_resolve s op').1.body hj
  | incr op' =>
    cases op' with
    | create account req now =>
      obtain rfl := Option.some.inj hstep
      rcases ops_goto hj with ⟨rfl, heq⟩ | hold
      · cases heq
        exact .created hpc
      · exact .same hold
    | _ => cases hstep
  | lock op' r' =>
    simp only [stepOp] at hstep
    split at hstep
    · obtain rfl := Option.some.inj hstep
      exact hidle rfl (by rintro _ _ _ _ ⟨⟩) hj
    · cases hstep
  | load op' r' =>
    simp only [stepOp] at hstep
    split at hstep
    · next cmds hb =>
      obtain rfl := Option.some.inj hstep
      rcases ops_goto hj with ⟨rfl, heq⟩ | hold
      · cases cmds with
        | nil => exact absurd heq.symm bodyPc_nil
        | cons c cmds =>
          cases heq
          exact .loaded hpc hb
      · exact .same hold
    · obtain rfl := Option.some.inj hstep
      exact hidle rfl (by rintro _ _ _ _ ⟨⟩) hj
  | body op' r' done' todo' =>
    cases todo' with
    | nil => cases hstep
    | cons c todo' =>
      obtain rfl := Option.some.inj hstep
      rcases body_wrote hj with ⟨rfl, rfl, rfl, -, rfl⟩ | ⟨-, hold⟩
      · exact .wrote hpc
      · exact .same hold
  | release op' r' out =>
    obtain rfl := Option.some.inj hstep
    refine hidle ?_ (by rintro _ _ _ _ ⟨⟩) hj
    unfold State.unlock
    split <;> rfl
  | finished op' out => cases hstep

theorem begun_step {r : Nat} {op : Op} {done todo : List Cmd} (hs : Step s e t)
    (hj : t.ops i = some (.body op r done todo)) : Begun s i op r todo e := by
  have hidle : ∀ {k : Nat} {pc : Pc}, Idle pc → (s.goto k pc).ops i = some (.body op r done todo) →
      Begun s i op r todo e := by
    intro k pc hp h
    rcases ops_goto h with ⟨-, heq⟩ | hold
    · exact absurd heq.symm (hp.body op r done todo)
    · exact .same hold
  cases e with
  | call k op' =>
    simp only [Step, step] at hs
    split at hs
    · obtain rfl := Option.some.inj hs
      exact hidle (idle_call op').1 hj
    · cases hs
  | next k => exact begun_next hs hj
  | timeout k =>
    simp only [Step, step] at hs
    split at hs
    · obtain rfl := Option.some.inj hs
      exact hidle ⟨rfl, by rintro _ _ _ _ ⟨⟩⟩ hj
    · cases hs
  | fail k =>
    obtain ⟨pc, hpc, hfail⟩ := Option.bind_eq_some_iff.mp hs
    obtain ⟨pc', rfl, hp⟩ := failed_idle hpc hfail
    exact hidle hp hj
  | expire r' =>
    obtain rfl := Option.some.inj hs
    exact .same hj

theorem held_step (hs : Step s e t) (h : Held t rec) : Held s rec ∨ Made s e rec := by
  rcases h with ⟨r, hr⟩ | ⟨i, op, r, done, todo, hj, hrec⟩
  · refine Or.inl ?_
    cases moved_step hs with
    | move h => exact Or.inl ⟨r, h.rooms ▸ hr⟩
    | expire r' => exact Or.inl ⟨r, hr⟩
    | @write k r' op done todo c hj =>
      rw [rooms_wrote] at hr
      cases c with
      | setRoom room =>
        simp only [Cmd.roomId, Cmd.onRoom, Option.some.injEq] at hr
        by_cases hid : room.id = r
        · rw [if_pos hid] at hr
          obtain rfl := Option.some.inj hr
          exact Or.inr ⟨_, _, _, _, _, hj, List.mem_cons_self⟩
        · rw [if_neg hid] at hr
          exact Or.inl ⟨r, hr⟩
      | delRoom r'' =>
        simp only [Cmd.roomId, Cmd.onRoom, Option.some.injEq] at hr
        by_cases hid : r'' = r
        · rw [if_pos hid] at hr
          cases hr
        · rw [if_neg hid] at hr
          exact Or.inl ⟨r, hr⟩
      | setMember a r'' => exact Or.inl ⟨r, hr⟩
      | delMember a => exact Or.inl ⟨r, hr⟩
  · cases begun_step hs hj with
    | same h => exact Or.inl (Or.inr ⟨_, _, _, _, _, h, hrec⟩)
    | wrote h => exact Or.inl (Or.inr ⟨_, _, _, _, _, h, List.mem_cons_of_mem _ hrec⟩)
    | loaded h hb =>
      refine Or.inr ?_
      cases hr : s.rooms r with
      | some room => exact .edited h hr (hr ▸ hb) hrec
      | none =>
        rw [hr] at hb
        cases op with
        | create account req now =>
          cases hb
          cases hrec
        | _ =>
          rcases body_gone rfl hb with rfl | ⟨a, -, rfl⟩
          · cases hrec
          · simp at hrec
    | created h =>
      obtain rfl : rec = newRoom _ _ (s.seq + 1) _ := by simpa [createCmds] using hrec
      exact Or.inr (.created h)

theorem not_held_start : ¬ Held start rec := by
  rintro (⟨r, hr⟩ | ⟨i, op, r, done, todo, hj, -⟩)
  · cases hr
  · cases hj

-- What every new room has and every operation that the guard lets through keeps is true of every
-- record, stored or on its way, whatever becomes of the leases.
theorem held_invariant {P : Room → Prop} {G : State → Event → Prop} {es : List Event}
    (hnew : ∀ s i account req now, G s (.next i) → s.ops i = some (.incr (.create account req now)) →
      P (newRoom account req (s.seq + 1) now))
    (hedit : ∀ s i r op room rec, G s (.next i) → s.ops i = some (.load op r) →
      s.rooms r = some room → P room → Edit room op rec → P rec)
    (h : Run (Guarded Step G) start es s) (hrec : Held s rec) : P rec := by
  have hall : ∀ rec, Held s rec → P rec := by
    refine run_invariant (I := fun s => ∀ rec, Held s rec → P rec) h
      (fun rec hrec => absurd hrec not_held_start) fun ih hs rec hrec => ?_
    rcases held_step hs.1 hrec with hold | hmade
    · exact ih rec hold
    · cases hmade with
      | created h => exact hnew _ _ _ _ _ hs.2 h
      | edited h hr hb hin =>
        exact hedit _ _ _ _ _ rec hs.2 h hr (ih _ (Or.inl ⟨_, hr⟩)) (edit_of_body hb hin)
  exact hall rec hrec

end Rooms

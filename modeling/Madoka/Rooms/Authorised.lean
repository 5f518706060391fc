import Madoka.Rooms.Handlers
import Madoka.Rooms.Membership
import Madoka.Rooms.Records

namespace Rooms

open Lib

def Request.ownerOnly : Request → Prop
  | .kick _ => True
  | .change _ => True
  | .start => True
  | .countDown _ => True
  | _ => False

def Request.enters : Request → Prop
  | .create _ _ => True
  | .join _ => True
  | _ => False

structure Authorised (w : World) (s : State) (caller : Account) (r : Nat) (rq : Request) : Prop where
  changes : ∀ r', (s.after (handle w s caller r rq).cmds).rooms r' ≠ s.rooms r' →
    Listed s caller.uid r' ∨
      (rq.enters ∧ Listed (s.after (handle w s caller r rq).cmds) caller.uid r')
  owned : rq.ownerOnly → (handle w s caller r rq).cmds ≠ [] ∨ (handle w s caller r rq).pushes ≠ [] →
    ∃ room, s.rooms r = some room ∧ room.owner = caller.uid
  disclosed : ∀ n ∈ (handle w s caller r rq).sent caller, ∀ info ∈ n.2.info,
    Listed s n.1 info.id ∨ Listed (s.after (handle w s caller r rq).cmds) n.1 info.id

-- The caller is not in the room that it asks about, or that its leave dismisses.
def Unchecked (s : State) (caller : Account) (r : Nat) : Request → Prop
  | .info => ∃ room, s.rooms r = some room ∧ caller.uid ∉ room.ids
  | .leave => ∃ room, s.rooms r = some room ∧ caller.uid ∉ room.ids ∧ room.members.length ≤ 1
  | _ => False

variable {w : World} {s t : State} {caller : Account} {r : Nat} {rq : Request} {room rec : Room}

-- A room is stored under its own id, with its owner in it.
structure Stored (s : State) (r : Nat) (room : Room) : Prop where
  here : s.rooms r = some room
  id : room.id = r
  owner : room.owner ∈ room.ids

theorem owner_edit {op : Op} (h : Edit room op rec) (howner : room.owner ∈ room.ids) :
    rec.owner ∈ rec.ids := by
  rw [(edit_same h).2.1]
  cases h with
  | join => exact ids_joined room _ ▸ List.mem_append_left _ howner
  | leave hne => exact ids_without room _ ▸ (List.mem_erase_of_ne hne).mpr howner
  | kick heq hne => exact ids_without room _ ▸ (List.mem_erase_of_ne (heq ▸ hne.symm)).mpr howner
  | change => exact ids_changed room _ ▸ howner
  | setReady => exact ids_readied room _ _ ▸ howner
  | switchSeat => exact ids_seated room _ _ _ ▸ howner
  | startMatch => exact howner
  | reenter => exact howner

theorem id_step {e : Event} (h : ∀ r room, s.rooms r = some room → room.id = r) (hs : Step s e t) :
    ∀ r room, t.rooms r = some room → room.id = r := by
  intro r room hr
  cases moved_step hs with
  | move hm => exact h r room (hm.rooms ▸ hr)
  | expire => exact h r room hr
  | write hj =>
    rw [rooms_wrote] at hr
    split at hr
    · next c hc =>
      cases c with
      | setRoom rec =>
        cases hr
        exact Option.some.inj hc
      | delRoom => cases hr
      | setMember => exact h r room hr
      | delMember => exact h r room hr
    · exact h r room hr

theorem run_stored {es : List Event} (h : Run Step start es s) (hr : s.rooms r = some room) :
    Stored s r room := by
  have hguarded : Run (Guarded Step fun _ _ => True) start es s := run_mono h fun hs => ⟨hs, trivial⟩
  refine ⟨hr, ?_, ?_⟩
  · exact run_invariant (I := fun s => ∀ r room, s.rooms r = some room → room.id = r) h nofun
      (fun ih hs => id_step ih hs) r room hr
  · exact held_invariant (P := fun room => room.owner ∈ room.ids)
      (fun _ _ _ _ _ _ _ => List.mem_singleton_self _)
      (fun _ _ _ _ _ _ _ _ _ howner he => owner_edit he howner) hguarded (Or.inl ⟨r, hr⟩)

theorem mem_sent {served : Served} {n : Nat × Message} (h : n ∈ served.sent caller) :
    (∃ message, served.reply = some message ∧ n = (caller.uid, message)) ∨
      ∃ p ∈ served.pushes, n = (p.accountId, p.message) := by
  rcases List.mem_append.mp h with h | h
  · obtain ⟨message, hm, rfl⟩ := List.mem_map.mp h
    exact Or.inl ⟨message, Option.mem_toList.mp hm, rfl⟩
  · obtain ⟨p, hp, rfl⟩ := List.mem_map.mp h
    exact Or.inr ⟨p, hp, rfl⟩

theorem mem_broadcast {exceptId : Nat} {cmd : ERoom} {message : Message} {p : Push}
    (h : p ∈ broadcast room exceptId cmd message) : p.accountId ∈ room.ids ∧ p.message = message := by
  obtain ⟨a, ha, rfl⟩ := List.mem_map.mp h
  exact ⟨(List.mem_filter.mp ha).1, rfl⟩

-- Every projection that is sent is one of room r, and goes to one of these accounts.
def Discloses (served : Served) (caller : Account) (r : Nat) (who : Nat → Prop) : Prop :=
  ∀ n ∈ served.sent caller, ∀ info ∈ n.2.info, info.id = r ∧ who n.1

theorem discloses_of {served : Served} {who : Nat → Prop}
    (hreply : ∀ message ∈ served.reply, ∀ info ∈ message.info, info.id = r ∧ who caller.uid)
    (hpushes : ∀ p ∈ served.pushes, ∀ info ∈ p.message.info, info.id = r ∧ who p.accountId) :
    Discloses served caller r who := by
  intro n hn
  rcases mem_sent hn with ⟨message, hm, rfl⟩ | ⟨p, hp, rfl⟩
  · exact hreply message hm
  · exact hpushes p hp

theorem discloses_refused {e : RoomErr} {reply : Option Message} {pushes : List Push} {who : Nat → Prop} :
    Discloses (runOp (.error e) reply pushes) caller r who := by
  refine discloses_of ?_ fun p hp => absurd hp List.not_mem_nil
  rintro message ⟨⟩ info ⟨⟩

theorem authorised_kept (hrooms : (s.after (handle w s caller r rq).cmds).rooms = s.rooms)
    (howned : rq.ownerOnly → (handle w s caller r rq).cmds ≠ [] ∨ (handle w s caller r rq).pushes ≠ [] →
      ∃ room, s.rooms r = some room ∧ room.owner = caller.uid)
    (hsent : Discloses (handle w s caller r rq) caller r fun a => Listed s a r) :
    Authorised w s caller r rq := by
  refine ⟨fun r' hr' => absurd (congrFun hrooms r') hr', howned, fun n hn info hinfo => ?_⟩
  obtain ⟨hid, hto⟩ := hsent n hn info hinfo
  exact Or.inl (hid ▸ hto)

theorem authorised_stored (hr : s.rooms r = some room)
    (hrooms : (s.after (handle w s caller r rq).cmds).rooms = Function.update s.rooms r (some rec))
    (hcaller : caller.uid ∈ room.ids ∨ (rq.enters ∧ caller.uid ∈ rec.ids))
    (howned : rq.ownerOnly → room.owner = caller.uid)
    (hsent : Discloses (handle w s caller r rq) caller r fun a => a ∈ room.ids ∨ a ∈ rec.ids) :
    Authorised w s caller r rq := by
  have hafter : (s.after (handle w s caller r rq).cmds).rooms r = some rec := by
    rw [hrooms, Function.update_self]
  refine ⟨fun r' hr' => ?_, fun ho _ => ⟨room, hr, howned ho⟩, fun n hn info hinfo => ?_⟩
  · by_cases heq : r' = r
    · subst heq
      exact hcaller.imp (fun h => ⟨room, hr, h⟩) fun h => ⟨h.1, rec, hafter, h.2⟩
    · rw [hrooms, Function.update_of_ne heq] at hr'
      exact absurd rfl hr'
  · obtain ⟨rfl, hto⟩ := hsent n hn info hinfo
    exact hto.imp (fun h => ⟨room, hr, h⟩) fun h => ⟨rec, hafter, h⟩

theorem authorised_refused {e : RoomErr} {reply : Option Message} {pushes : List Push}
    (h : handle w s caller r rq = runOp (.error e) reply pushes) : Authorised w s caller r rq := by
  refine authorised_kept ?_ (fun _ hne => ?_) ?_
  · rw [h]
    rfl
  · rw [h] at hne
    simp [runOp] at hne
  · rw [h]
    exact discloses_refused

theorem discloses_broadcast {cmds : List Cmd} {reply : Option Message} {exceptId : Nat} {cmd : ERoom}
    {message : Message} {who : Nat → Prop} (hreply : ∀ message ∈ reply, message.info = none)
    (hid : ∀ info ∈ message.info, info.id = r) (hto : ∀ a ∈ rec.ids, who a) :
    Discloses (runOp (.ok cmds) reply (broadcast rec exceptId cmd message)) caller r who := by
  refine discloses_of (fun message hm info hinfo => ?_) fun p hp info hinfo => ?_
  · rw [hreply message hm] at hinfo
    cases hinfo
  · obtain ⟨hmem, rfl⟩ := mem_broadcast hp
    exact ⟨hid info hinfo, hto p.accountId hmem⟩

theorem discloses_reply {served : Served} {message : Message} {who : Nat → Prop}
    (hreply : served.reply = some message) (hpushes : served.pushes = [])
    (h : ∀ info ∈ message.info, info.id = r ∧ who caller.uid) : Discloses served caller r who := by
  refine discloses_of (fun message' hm info hinfo => ?_) fun p hp => ?_
  · rw [hreply] at hm
    cases hm
    exact h info hinfo
  · rw [hpushes] at hp
    cases hp

theorem rooms_after_kept {cmds : List Cmd} (h : ∀ c ∈ cmds, c.roomId = none) :
    (s.after cmds).rooms = s.rooms := by
  induction cmds generalizing s with
  | nil => rfl
  | cons c cmds ih =>
    have htail := ih (s := s.write c) fun c' hc' => h c' (List.mem_cons_of_mem _ hc')
    refine htail.trans (funext fun r' => ?_)
    rw [rooms_write, h c List.mem_cons_self]
    rfl

theorem rooms_after_one : (s.after [.setRoom rec]).rooms = Function.update s.rooms rec.id (some rec) := rfl

theorem rooms_after_setRoom {cmds : List Cmd} (h : ∀ c ∈ cmds, c.roomId = none) :
    (s.after (.setRoom rec :: cmds)).rooms = Function.update s.rooms rec.id (some rec) :=
  rooms_after_kept (s := s.write (.setRoom rec)) h

theorem authorised_create (req : CreateReq) (now : Nat) :
    Authorised w s caller r (.create req now) := by
  have hrooms : (s.after (createCmds caller req r now)).rooms =
      Function.update s.rooms r (some (newRoom caller req r now)) :=
    rooms_after_setRoom (by simp [Cmd.roomId])
  have hlisted : Listed (s.after (createCmds caller req r now)) caller.uid r :=
    ⟨_, by rw [hrooms, Function.update_self], List.mem_singleton_self _⟩
  refine ⟨fun r' hr' => Or.inr ⟨trivial, ?_⟩, False.elim, fun n hn info hinfo => Or.inr ?_⟩
  · by_cases heq : r' = r
    · exact heq ▸ hlisted
    · refine absurd ?_ hr'
      change (s.after (createCmds caller req r now)).rooms r' = _
      rw [hrooms, Function.update_of_ne heq]
  · rcases mem_sent hn with ⟨message, hm, rfl⟩ | ⟨p, hp, -⟩
    · cases hm
      cases hinfo
      exact hlisted
    · cases hp

theorem authorised_list : Authorised w s caller r .list := by
  refine authorised_kept rfl False.elim (discloses_of ?_ fun p hp => absurd hp List.not_mem_nil)
  rintro message ⟨⟩ info ⟨⟩

-- What a body writes for a caller that it lets through, and what its handler sends.
structure Permitted (caller : Account) (rq : Request) (room rec : Room) (cmds : List Cmd)
    (served : Served) : Prop where
  writes : ∃ rest, cmds = .setRoom rec :: rest ∧ ∀ c ∈ rest, c.roomId = none
  id : rec.id = room.id
  member : caller.uid ∈ room.ids ∨ (rq.enters ∧ caller.uid ∈ rec.ids)
  owned : rq.ownerOnly → room.owner = caller.uid
  sent : Discloses served caller room.id fun a => a ∈ room.ids ∨ a ∈ rec.ids

theorem authorised_op {op : Op} {reply : Option Message} {pushes : Room → List Push}
    (hs : ∀ room, s.rooms r = some room → Stored s r room)
    (hhandle : handle w s caller r rq =
      runOp (op.body (s.rooms r)) reply ((s.rooms r).elim [] pushes))
    (hgone : ∃ e, op.body none = .error e)
    (hok : ∀ room cmds, room.owner ∈ room.ids → op.body (some room) = .ok cmds →
      ∃ rec, Permitted caller rq room rec cmds (runOp (.ok cmds) reply (pushes room))) :
    Authorised w s caller r rq := by
  cases hr : s.rooms r with
  | none =>
    obtain ⟨e, he⟩ := hgone
    exact authorised_refused (by rw [hhandle, hr, he])
  | some room =>
    rw [hr] at hhandle
    cases hb : op.body (some room) with
    | error e => exact authorised_refused (by rw [hhandle, hb])
    | ok cmds =>
      obtain ⟨hr, rfl, howner⟩ := hs room hr
      obtain ⟨rec, hwrites, hid, hcaller, howned, hsent⟩ := hok room cmds howner hb
      obtain ⟨rest, rfl, hrest⟩ := hwrites
      rw [hb] at hhandle
      refine authorised_stored hr ?_ hcaller howned (hhandle ▸ hsent)
      rw [hhandle, ← hid]
      exact rooms_after_setRoom hrest

theorem authorised_join (hs : ∀ room, s.rooms r = some room → Stored s r room) (req : JoinReq) :
    Authorised w s caller r (.join req) := by
  refine @authorised_op _ _ _ _ _ (.join caller req) _ _ hs rfl ⟨_, rfl⟩ fun room cmds howner hb => ?_
  simp only [Op.body, joinBody] at hb
  split_ifs at hb
  cases hb
  refine ⟨joined room caller, ⟨_, rfl, by simp [Cmd.roomId]⟩, rfl, Or.inr ⟨trivial, by simp⟩,
    False.elim, ?_⟩
  refine discloses_broadcast (by rintro _ ⟨⟩) ?_ fun a ha => Or.inr ha
  rintro info ⟨⟩
  rfl

theorem authorised_kick (hs : ∀ room, s.rooms r = some room → Stored s r room) (targetId : Nat) :
    Authorised w s caller r (.kick targetId) := by
  refine @authorised_op _ _ _ _ _ (.kick caller.uid r targetId) _ _ hs rfl ⟨_, rfl⟩ fun room cmds howner hb => ?_
  simp only [Op.body, kickBody] at hb
  split_ifs at hb with h1 h2 h3
  cases hb
  have hcaller : room.owner = caller.uid := not_not.mp h1
  refine ⟨without room targetId, ⟨_, rfl, by simp [Cmd.roomId]⟩, rfl, Or.inl (hcaller ▸ howner),
    fun _ => hcaller, ?_⟩
  refine discloses_of (by rintro _ ⟨⟩) fun p hp info hinfo => ?_
  rcases List.mem_cons.mp hp with rfl | hp
  · cases hinfo
    exact ⟨rfl, Or.inl h3⟩
  · obtain ⟨hmem, hmessage⟩ := mem_broadcast hp
    rw [hmessage] at hinfo
    cases hinfo
    exact ⟨rfl, Or.inr hmem⟩

theorem authorised_change (hs : ∀ room, s.rooms r = some room → Stored s r room) (req : ChangeReq) :
    Authorised w s caller r (.change req) := by
  refine @authorised_op _ _ _ _ _ (.change caller.uid req) _ _ hs rfl ⟨_, rfl⟩ fun room cmds howner hb => ?_
  simp only [Op.body, changeBody] at hb
  split_ifs at hb with h1 h2
  cases hb
  have hcaller : room.owner = caller.uid := not_not.mp h1
  refine ⟨changed room req, ⟨_, rfl, fun c hc => absurd hc List.not_mem_nil⟩, id_changed room req, Or.inl (hcaller ▸ howner),
    fun _ => hcaller, ?_⟩
  refine discloses_broadcast (by rintro _ ⟨⟩) ?_ fun a ha => Or.inr ha
  rintro info ⟨⟩
  exact id_changed room req

theorem authorised_setReady (hs : ∀ room, s.rooms r = some room → Stored s r room) (ready : Bool) :
    Authorised w s caller r (.setReady ready) := by
  refine @authorised_op _ _ _ _ _ (.setReady caller.uid ready) _ _ hs rfl ⟨_, rfl⟩ fun room cmds howner hb => ?_
  simp only [Op.body, setReadyBody] at hb
  split_ifs at hb with h1
  cases hb
  refine ⟨readied room caller.uid ready, ⟨_, rfl, fun c hc => absurd hc List.not_mem_nil⟩, rfl, Or.inl h1, False.elim, ?_⟩
  refine discloses_broadcast (by rintro _ ⟨⟩) ?_ fun a ha => Or.inr ha
  rintro info ⟨⟩

theorem authorised_switchSeat (hs : ∀ room, s.rooms r = some room → Stored s r room)
    (req : SwitchSeatReq) : Authorised w s caller r (.switchSeat req) := by
  refine @authorised_op _ _ _ _ _ (.switchSeat caller.uid req) _ _ hs rfl ⟨_, rfl⟩ fun room cmds howner hb => ?_
  simp only [Op.body, switchSeatBody] at hb
  split_ifs at hb with h1 h2
  cases hb
  refine ⟨seated room caller.uid (req.toRoomPos + 1).toNat req.toGroupPos.toNat, ⟨_, rfl, fun c hc => absurd hc List.not_mem_nil⟩, rfl,
    Or.inl h2, False.elim, ?_⟩
  refine discloses_broadcast ?_ ?_ fun a ha => Or.inr ha
  · rintro message ⟨⟩
    rfl
  · rintro info ⟨⟩
    rfl

theorem authorised_start (hs : ∀ room, s.rooms r = some room → Stored s r room) :
    Authorised w s caller r .start := by
  refine @authorised_op _ _ _ _ _ (.startMatch caller.uid r) _ _ hs rfl ⟨_, rfl⟩ fun room cmds howner hb => ?_
  simp only [Op.body, startMatchBody] at hb
  split_ifs at hb with h1 h2
  cases hb
  have hcaller : room.owner = caller.uid := not_not.mp h1
  refine ⟨{ room with state := .inGame }, ⟨_, rfl, fun c hc => absurd hc List.not_mem_nil⟩, rfl, Or.inl (hcaller ▸ howner),
    fun _ => hcaller, ?_⟩
  refine discloses_of (by rintro _ ⟨⟩) fun p hp info hinfo => ?_
  obtain ⟨m, -, rfl⟩ := List.mem_map.mp hp
  cases hinfo

theorem countDown_silent (seconds : Nat) (room : Option Room) :
    (roomCountDown caller seconds room).cmds = [] ∧ (roomCountDown caller seconds room).reply = none ∧
      ∀ p ∈ (roomCountDown caller seconds room).pushes,
        (∃ rec, room = some rec ∧ rec.owner = caller.uid) ∧ p.message.info = none := by
  cases room with
  | none => exact ⟨rfl, rfl, fun p hp => absurd hp List.not_mem_nil⟩
  | some room =>
    simp only [roomCountDown]
    split_ifs with h1
    · exact ⟨rfl, rfl, fun p hp => absurd hp List.not_mem_nil⟩
    · refine ⟨rfl, rfl, fun p hp => ⟨⟨room, rfl, not_not.mp h1⟩, ?_⟩⟩
      rw [(mem_broadcast hp).2]
      rfl

theorem authorised_countDown (seconds : Nat) : Authorised w s caller r (.countDown seconds) := by
  obtain ⟨hcmds, hreply, hpushes⟩ := @countDown_silent caller seconds (s.rooms r)
  refine authorised_kept ?_ (fun _ hne => ?_) (discloses_of (fun message hm => ?_) fun p hp info hinfo => ?_)
  · rw [handle, hcmds]
    rfl
  · obtain ⟨p, hp⟩ := List.exists_mem_of_ne_nil _ (hne.resolve_left (absurd hcmds))
    exact (hpushes p hp).1
  · rw [handle, hreply] at hm
    cases hm
  · rw [(hpushes p hp).2] at hinfo
    cases hinfo

theorem rooms_after_dismiss {cmds : List Cmd} (h : ∀ c ∈ cmds, c.roomId = none) (a : Nat) :
    (s.after (.delMember a :: .delRoom r :: cmds)).rooms = Function.update s.rooms r none :=
  rooms_after_kept (s := (s.write (.delMember a)).write (.delRoom r)) h

theorem handle_dismisses (hr : s.rooms r = some room)
    (hd : room.owner = caller.uid ∨ room.members.length ≤ 1) :
    handle w s caller r .leave = runOp (.ok (.delMember caller.uid :: .delRoom room.id ::
        (room.ids.filter (· ≠ caller.uid)).map .delMember)) (some .empty)
      (broadcast room caller.uid .dismissNtf (.dismissNtf caller.uid room.id dismissNormal)) := by
  simp only [handle, hr, roomLeave, leaveBody, if_pos hd]

theorem authorised_dismissed (hr : s.rooms r = some room) (hid : room.id = r)
    (hd : room.owner = caller.uid ∨ room.members.length ≤ 1) (hcaller : caller.uid ∈ room.ids) :
    Authorised w s caller r .leave := by
  have hhandle := handle_dismisses (w := w) hr hd
  rw [hid] at hhandle
  refine ⟨fun r' hr' => Or.inl ?_, False.elim, ?_⟩
  · by_cases heq : r' = r
    · exact ⟨room, heq ▸ hr, hcaller⟩
    · refine absurd ?_ hr'
      rw [hhandle]
      refine (congrFun (rooms_after_dismiss (s := s) (fun c hc => ?_) caller.uid) r').trans
        (Function.update_of_ne heq _ _)
      obtain ⟨a, -, rfl⟩ := List.mem_map.mp hc
      rfl
  · intro n hn info hinfo
    have hsent : Discloses (handle w s caller r .leave) caller r fun _ => False := by
      rw [hhandle]
      refine discloses_of ?_ fun p hp info hinfo => ?_
      · rintro message ⟨⟩ info ⟨⟩
      · rw [(mem_broadcast hp).2] at hinfo
        cases hinfo
    exact (hsent n hn info hinfo).2.elim

theorem authorised_left (hr : s.rooms r = some room) (hid : room.id = r)
    (hd : ¬ (room.owner = caller.uid ∨ room.members.length ≤ 1)) :
    Authorised w s caller r .leave := by
  have hhandle : handle w s caller r .leave = runOp (leaveBody caller.uid (some room)) (some .empty)
      (broadcast (without room caller.uid) caller.uid .leaveNtf
        (leaveNtf (without room caller.uid) (room.memberOf caller.uid))) := by
    simp only [handle, hr, roomLeave, if_neg hd]
  rw [leaveBody, if_neg hd] at hhandle
  have hrooms : (s.after (handle w s caller r .leave).cmds).rooms =
      Function.update s.rooms r (some (without room caller.uid)) := by
    rw [hhandle, ← hid]
    exact rooms_after_one (s := s.write (.delMember caller.uid))
  have hsent : ∀ who : Nat → Prop, (∀ a ∈ (without room caller.uid).ids, who a) →
      Discloses (handle w s caller r .leave) caller r who := by
    intro who hwho
    rw [hhandle]
    refine discloses_broadcast ?_ ?_ hwho
    · rintro message ⟨⟩
      rfl
    · rintro info ⟨⟩
      exact hid
  by_cases hcaller : caller.uid ∈ room.ids
  · exact authorised_stored hr hrooms (Or.inl hcaller) False.elim (hsent _ fun a ha => Or.inr ha)
  · have hsame := without_of_not_mem hcaller
    rw [hsame, ← hr, Function.update_eq_self] at hrooms
    refine authorised_kept hrooms False.elim (hsent _ fun a ha => ⟨room, hr, ?_⟩)
    exact hsame ▸ ha

theorem authorised_leave (hs : ∀ room, s.rooms r = some room → Stored s r room)
    (hc : ¬ Unchecked s caller r .leave) : Authorised w s caller r .leave := by
  cases hr : s.rooms r with
  | none =>
    have hhandle : handle w s caller r .leave =
        ⟨[.delMember caller.uid], some .empty, [], some .notInRoom⟩ := by
      rw [handle, hr]
      rfl
    refine authorised_kept (by rw [hhandle]; rfl) False.elim ?_
    rw [hhandle]
    exact discloses_reply rfl rfl nofun
  | some room =>
    obtain ⟨-, hid, howner⟩ := hs room hr
    by_cases hd : room.owner = caller.uid ∨ room.members.length ≤ 1
    · refine authorised_dismissed hr hid hd ?_
      rcases hd with heq | hl
      · exact heq ▸ howner
      · by_contra hnot
        exact hc ⟨room, hr, hnot, hl⟩
    · exact authorised_left hr hid hd

theorem handle_reopens (hr : s.rooms r = some room) (hgame : room.state = .inGame) :
    handle w s caller r .info = runOp (.ok [.setRoom { room with state := .waiting }])
      (some (.roomInfo (toRoomInfo { room with state := .waiting }))) [] := by
  simp only [handle, hr, roomInfo, reenterBody, if_pos hgame]

theorem handle_answers (hr : s.rooms r = some room) (hgame : room.state ≠ .inGame) :
    handle w s caller r .info = runOp (.ok []) (some (.roomInfo (toRoomInfo room))) [] := by
  simp only [handle, hr, roomInfo, reenterBody, if_neg hgame]

theorem authorised_info (hs : ∀ room, s.rooms r = some room → Stored s r room)
    (hc : ¬ Unchecked s caller r .info) : Authorised w s caller r .info := by
  cases hr : s.rooms r with
  | none =>
    have hhandle : handle w s caller r .info = ⟨[], some .empty, [], some .noRoom⟩ := by
      rw [handle, hr]
      rfl
    refine authorised_kept (by rw [hhandle]; rfl) False.elim ?_
    rw [hhandle]
    exact discloses_reply rfl rfl nofun
  | some room =>
    obtain ⟨-, hid, howner⟩ := hs room hr
    have hcaller : caller.uid ∈ room.ids := by
      by_contra hnot
      exact hc ⟨room, hr, hnot⟩
    by_cases hgame : room.state = .inGame
    · have hhandle := @handle_reopens w _ caller _ _ hr hgame
      refine @authorised_stored _ _ _ _ _ _ ({ room with state := .waiting }) hr ?_ (Or.inl hcaller)
        False.elim ?_
      · rw [hhandle, ← hid]
        exact rooms_after_one
      · rw [hhandle]
        refine discloses_reply rfl rfl ?_
        rintro info ⟨⟩
        exact ⟨hid, Or.inl hcaller⟩
    · have hhandle := @handle_answers w _ caller _ _ hr hgame
      refine authorised_kept (by rw [hhandle]; rfl) False.elim ?_
      rw [hhandle]
      refine discloses_reply rfl rfl ?_
      rintro info ⟨⟩
      exact ⟨hid, room, hr, hcaller⟩

theorem info_discloses (h : Unchecked s caller r .info)
    (hid : ∀ room, s.rooms r = some room → room.id = r) : ¬ Authorised w s caller r .info := by
  intro hauth
  obtain ⟨room, hr, hnot⟩ := h
  have hnone : ¬ Listed s caller.uid room.id := fun hl => hnot ((listed_iff (hid room hr ▸ hr)).mp hl)
  by_cases hgame : room.state = .inGame
  · have hhandle := @handle_reopens w _ caller _ _ hr hgame
    have hdisclosed := hauth.disclosed (caller.uid, .roomInfo (toRoomInfo { room with state := .waiting }))
      (by rw [hhandle]; exact List.mem_singleton_self _) _ rfl
    refine hdisclosed.elim hnone fun ⟨rec, hrec, hin⟩ => hnot ?_
    rw [hhandle] at hrec
    change (s.after [.setRoom { room with state := .waiting }]).rooms room.id = some rec at hrec
    rw [rooms_after_one, Function.update_self] at hrec
    cases hrec
    exact hin
  · have hhandle := @handle_answers w _ caller _ _ hr hgame
    have hdisclosed := hauth.disclosed (caller.uid, .roomInfo (toRoomInfo room))
      (by rw [hhandle]; exact List.mem_singleton_self _) _ rfl
    rw [hhandle] at hdisclosed
    exact hdisclosed.elim hnone hnone

theorem leave_dismisses (h : Unchecked s caller r .leave)
    (hid : ∀ room, s.rooms r = some room → room.id = r) : ¬ Authorised w s caller r .leave := by
  intro hauth
  obtain ⟨room, hr, hnot, hl⟩ := h
  have hafter : (s.after (handle w s caller r .leave).cmds).rooms r = none := by
    rw [handle_dismisses hr (Or.inr hl), hid room hr]
    refine (congrFun (rooms_after_dismiss (fun c hc => ?_) caller.uid) r).trans (Function.update_self _ _ _)
    obtain ⟨a, -, rfl⟩ := List.mem_map.mp hc
    rfl
  rcases hauth.changes r (by rw [hafter, hr]; nofun) with hlisted | ⟨hf, -⟩
  · exact hnot ((listed_iff hr).mp hlisted)
  · exact hf

theorem requests_authorised {es : List Event} (h : Run Step start es s) :
    ∀ w caller r rq, Authorised w s caller r rq ↔ ¬ Unchecked s caller r rq := by
  intro w caller r rq
  have hs : ∀ room, s.rooms r = some room → Stored s r room := fun room hr => run_stored h hr
  cases rq with
  | create req now => exact iff_of_true (authorised_create req now) id
  | list => exact iff_of_true authorised_list id
  | join req => exact iff_of_true (authorised_join hs req) id
  | leave => exact ⟨fun ha hc => leave_dismisses hc (fun room hr => (hs room hr).id) ha, authorised_leave hs⟩
  | kick targetId => exact iff_of_true (authorised_kick hs targetId) id
  | change req => exact iff_of_true (authorised_change hs req) id
  | setReady ready => exact iff_of_true (authorised_setReady hs ready) id
  | switchSeat req => exact iff_of_true (authorised_switchSeat hs req) id
  | start => exact iff_of_true (authorised_start hs) id
  | info => exact ⟨fun ha hc => info_discloses hc (fun room hr => (hs room hr).id) ha, authorised_info hs⟩
  | countDown seconds => exact iff_of_true (authorised_countDown seconds) id

def offline : World := ⟨7, "", fun _ _ _ => "", fun _ => true⟩

-- The owner opens a room with a code and starts the match.
def started : List Event :=
  [.call 0 (.create (guest 1) { plain with code := some "77" } 0), .next 0, .next 0, .next 0, .next 0,
    .call 1 (.startMatch 1 1), .next 1, .next 1, .next 1, .next 1]

theorem started_run : ∃ s room, Run Step start started s ∧ s.rooms 1 = some room ∧ room.ids = [1] ∧
    room.state = .inGame := by
  have hrun : ((started.foldlM step start).bind fun s =>
      (s.rooms 1).map fun room => (room.ids, room.state)) = some ([1], .inGame) := by
    decide
  obtain ⟨s, hs, hroom⟩ := Option.bind_eq_some_iff.mp hrun
  obtain ⟨room, hr, hnums⟩ := Option.map_eq_some_iff.mp hroom
  rw [Prod.mk.injEq] at hnums
  exact ⟨s, room, run_of_foldlM hs, hr, hnums.1, hnums.2⟩

theorem requests_authorised_after_start : ∃ s, Run Step start started s ∧
    Authorised offline s (guest 1) 1 .info ∧ ¬ Authorised offline s (guest 9) 1 .info := by
  obtain ⟨s, room, hrun, hr, hids, -⟩ := started_run
  refine ⟨s, hrun, (requests_authorised hrun _ _ _ _).mpr ?_, fun h => ?_⟩
  · rintro ⟨room', hr', hnot⟩
    rw [hr] at hr'
    cases hr'
    exact hnot (by rw [hids]; decide)
  · exact (requests_authorised hrun _ _ _ _).mp h ⟨room, hr, by rw [hids]; decide⟩

theorem stranger_reopens : ¬ ∀ es s, Run Step start es s →
    ∀ w caller r rq, Authorised w s caller r rq := by
  intro hall
  obtain ⟨s, room, hrun, hr, hids, hgame⟩ := started_run
  have hauth := hall started s hrun offline (guest 9) 1 .info
  have hid := (run_stored hrun hr).id
  have hafter : (s.after (handle offline s (guest 9) 1 .info).cmds).rooms 1 ≠ s.rooms 1 := by
    rw [handle_reopens hr hgame, hr]
    change (s.after [.setRoom { room with state := .waiting }]).rooms 1 ≠ some room
    rw [rooms_after_one, ← hid, Function.update_self]
    intro heq
    have hstate := congrArg Room.state (Option.some.inj heq)
    rw [hgame] at hstate
    cases hstate
  rcases hauth.changes 1 hafter with hlisted | ⟨hf, -⟩
  · have hin := (listed_iff hr).mp hlisted
    rw [hids] at hin
    exact absurd hin (by decide)
  · exact hf

end Rooms

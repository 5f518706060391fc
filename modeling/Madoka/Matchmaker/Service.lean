import Madoka.Lib.Batches
import Madoka.Lib.Lease
import Madoka.Lib.Run

namespace Matchmaker

open Lib

structure MatchmakingStartReq where
  mapIds : List Nat
  gameMode : Nat
  matchMode : Nat
  difficulty : Nat
  deriving DecidableEq, Repr

structure Mode where
  mapId : Nat
  gameMode : Nat
  matchMode : Nat
  difficulty : Nat
  deriving DecidableEq, Repr

-- `a || b` on numbers.
def orElse (a b : Nat) : Nat := if a = 0 then b else a

-- The mode that MatchmakingStart queues for.
def MatchmakingStartReq.mode (req : MatchmakingStartReq) : Mode where
  mapId := orElse (req.mapIds.head?.getD 0) 1
  gameMode := orElse req.gameMode 15
  matchMode := orElse req.matchMode 1
  difficulty := orElse req.difficulty 0

def modeKey (m : Mode) : String :=
  toString m.matchMode ++ ":" ++ toString m.gameMode ++ ":" ++ toString m.mapId ++ ":" ++
    toString m.difficulty

-- A field of the hash mmqueue, and what is in it.
structure Entry where
  accountId : Nat
  node : String
  mode : Mode
  joinedAt : Int
  deriving DecidableEq, Repr

def Entry.key (e : Entry) : String := modeKey e.mode

structure Tuning where
  minPlayers : Nat
  timeoutMs : Int
  matchSize : Nat
  leaseMs : Int
  lease_pos : 0 < leaseMs

-- The defaults of the environment variables.
def defaultTuning : Tuning := ⟨2, 10000, 50, 15000, by decide⟩

abbrev Queue := List Entry

def hset (q : Queue) (e : Entry) : Queue := q.filter (fun x => decide (x.accountId ≠ e.accountId)) ++ [e]

def hdel (q : Queue) (ids : List Nat) : Queue := q.filter fun x => decide (x.accountId ∉ ids)

-- What the tick forms of one group.
def batch (t : Tuning) (now : Int) (entries : List Entry) : Option (List Entry) :=
  if t.minPlayers ≤ entries.length ∨ entries.any (fun e => decide (t.timeoutMs ≤ now - e.joinedAt)) then
    some (oldest Entry.joinedAt t.matchSize entries)
  else none

def plan (t : Tuning) (now : Int) (snapshot : List Entry) : List (List Entry) :=
  (groups Entry.key snapshot).filterMap fun g => batch t now g.2

-- A leadership command: sent to Redis, or answered.
inductive Call where
  | renewing
  | renewed (ok : Bool)
  | acquiring
  | acquired (ok : Bool)
  | releasing
  | released
  deriving DecidableEq, Repr

-- A tick between two of its awaits; `now` is its Date.now(), `rest` the batches after this one.
inductive Job where
  | idle
  | reading
  | numbering (now : Int) (entries : List Entry) (rest : List (List Entry))
  | claiming (now : Int) (matchId : Nat) (serverAddr : String) (entries : List Entry)
      (rest : List (List Entry))
  | pushing (now : Int) (matchId : Nat) (serverAddr : String) (mode : Mode) (entries : List Entry)
      (rest : List (List Entry))
  deriving DecidableEq, Repr

def Job.next (now : Int) : List (List Entry) → Job
  | [] => .idle
  | entries :: rest => .numbering now entries rest

structure Replica where
  up : Bool
  isLeader : Bool
  calls : List Call
  job : Job
  deriving DecidableEq, Repr

def standby : Replica := ⟨true, false, [], .idle⟩

-- Redis and the replicas. `ends` is when the last lease that Redis granted a replica runs out;
-- the code keeps no such time.
structure System where
  queue : Queue
  seq : Nat
  leader : Option (Lease Nat)
  now : Int
  ends : Nat → Option Int
  replicas : Nat → Replica

def start : System := ⟨[], 0, none, 0, fun _ => none, fun _ => standby⟩

inductive Action where
  -- a gateway
  | enqueue (accountId : Nat) (node : String) (req : MatchmakingStartReq) (date : Int)
  | cancel (accountId : Nat)
  -- a room that starts
  | nextMatchId
  -- the lease timer, a leadership command at Redis, its reply, its failure, and SIGTERM
  | leadership (r : Nat)
  | exec (r i : Nat)
  | reply (r i : Nat)
  | lose (r i : Nat)
  | stop (r : Nat)
  -- the tick timer, the awaits of a tick at Redis, and a failure of one
  | tick (r : Nat)
  | read (r : Nat) (snapshot : List Entry) (date : Int)
  | number (r : Nat) (serverAddr : String)
  | claim (r : Nat)
  | push (r : Nat) (found : Bool)
  | fail (r : Nat)
  | crash (r : Nat)
  deriving DecidableEq, Repr

-- An action at a time of Redis.
structure Event where
  act : Action
  now : Int
  deriving DecidableEq, Repr

def Action.leads : Action → Bool
  | .leadership _ | .exec .. | .reply .. | .lose .. | .stop _ => true
  | _ => false

namespace System

variable (t : Tuning) (v : System)

def onReplica (r : Nat) (f : Replica → Replica) : System :=
  { v with replicas := Function.update v.replicas r (f (v.replicas r)) }

def onJob (r : Nat) (job : Job) : System := v.onReplica r fun x => { x with job := job }

def setCall (r i : Nat) (c : Call) : System :=
  v.onReplica r fun x => { x with calls := x.calls.set i c }

def dropCall (r i : Nat) : System := v.onReplica r fun x => { x with calls := x.calls.eraseIdx i }

-- Redis executes acquireLock or renewLock.
def grant (r : Nat) (res : Option (Lease Nat) × Bool) : System :=
  { v with
    leader := res.1
    ends := if res.2 then Function.update v.ends r (some (v.now + t.leaseMs)) else v.ends }

-- Redis executes releaseLock.
def free (r : Nat) (res : Option (Lease Nat) × Bool) : System :=
  { v with
    leader := res.1
    ends := if res.2 then Function.update v.ends r none else v.ends }

def execCall (r i : Nat) : Call → Option System
  | .renewing =>
    let res := Lease.renew r v.now t.leaseMs v.leader
    some ((v.grant t r res).setCall r i (.renewed res.2))
  | .acquiring =>
    let res := Lease.acquire r v.now t.leaseMs v.leader
    some ((v.grant t r res).setCall r i (.acquired res.2))
  | .releasing => some ((v.free r (Lease.release r v.now v.leader)).setCall r i .released)
  | _ => none

-- leadership and stopService behind their awaits.
def replyCall (r i : Nat) : Call → Option System
  | .renewed true => some (v.dropCall r i)
  | .renewed false =>
    some ((v.onReplica r fun x => { x with isLeader := false }).setCall r i .acquiring)
  | .acquired ok => some ((v.onReplica r fun x => { x with isLeader := x.isLeader || ok }).dropCall r i)
  | .released => some ((v.onReplica r fun x => { x with isLeader := false }).dropCall r i)
  | _ => none

-- A command that fails: only stopService goes on.
def loseCall (r i : Nat) (c : Call) : System :=
  (v.onReplica r fun x => { x with
    isLeader := x.isLeader && decide (c ≠ .releasing ∧ c ≠ .released) }).dropCall r i

def act : Action → Option System
  | .enqueue a node req date =>
    if a = 0 then none else some { v with queue := hset v.queue ⟨a, node, req.mode, date⟩ }
  | .cancel a => if a = 0 then none else some { v with queue := hdel v.queue [a] }
  | .nextMatchId => some { v with seq := v.seq + 1 }
  | .leadership r =>
    if (v.replicas r).up then
      some (v.onReplica r fun x =>
        { x with calls := x.calls ++ [if x.isLeader then .renewing else .acquiring] })
    else none
  | .exec r i => (v.replicas r).calls[i]?.bind (v.execCall t r i)
  | .reply r i => (v.replicas r).calls[i]?.bind (v.replyCall r i)
  | .lose r i => (v.replicas r).calls[i]?.map (v.loseCall r i)
  | .stop r =>
    if (v.replicas r).up then
      some (v.onReplica r fun x =>
        { x with
          up := false
          calls := if x.isLeader then x.calls ++ [.releasing] else x.calls })
    else none
  | .tick r =>
    if (v.replicas r).up ∧ (v.replicas r).isLeader ∧ (v.replicas r).job = .idle then
      some (v.onJob r .reading)
    else none
  | .read r snapshot date =>
    if (v.replicas r).job = .reading ∧ snapshot.Perm v.queue then
      some (v.onJob r (.next date (plan t date snapshot)))
    else none
  | .number r serverAddr =>
    match (v.replicas r).job with
    -- entries[0].mode of no entries throws
    | .numbering _ [] _ => some ({ v with seq := v.seq + 1 }.onJob r .idle)
    | .numbering now entries rest =>
      some ({ v with seq := v.seq + 1 }.onJob r (.claiming now (v.seq + 1) serverAddr entries rest))
    | _ => none
  | .claim r =>
    match (v.replicas r).job with
    | .claiming now matchId serverAddr (e :: entries) rest =>
      some ({ v with queue := hdel v.queue ((e :: entries).map Entry.accountId) }.onJob r
        (.pushing now matchId serverAddr e.mode (e :: entries) rest))
    | _ => none
  | .push r _ =>
    match (v.replicas r).job with
    | .pushing now matchId serverAddr mode (_ :: e :: entries) rest =>
      some (v.onJob r (.pushing now matchId serverAddr mode (e :: entries) rest))
    | .pushing now _ _ _ [_] rest => some (v.onJob r (.next now rest))
    | _ => none
  | .fail r => if (v.replicas r).job = .idle then none else some (v.onJob r .idle)
  | .crash r => some (v.onReplica r fun _ => ⟨false, false, [], .idle⟩)

def step (e : Event) : Option System := { v with now := e.now }.act t e.act

def Step (v : System) (e : Event) (v' : System) : Prop := v.step t e = some v'

variable {t : Tuning} {v v' : System} {e : Event}

@[simp] theorem onReplica_self {r : Nat} {f : Replica → Replica} :
    (v.onReplica r f).replicas r = f (v.replicas r) := Function.update_self ..

theorem onReplica_of_ne {r r' : Nat} {f : Replica → Replica} (h : r' ≠ r) :
    (v.onReplica r f).replicas r' = v.replicas r' := Function.update_of_ne h ..

structure Quiet (v v' : System) : Prop where
  queue : v'.queue = v.queue
  seq : v'.seq = v.seq
  now : v'.now = v.now
  job : ∀ r, (v'.replicas r).job = (v.replicas r).job

theorem quiet_refl : Quiet v v := ⟨rfl, rfl, rfl, fun _ => rfl⟩

theorem Quiet.onReplica {r : Nat} {f : Replica → Replica} (h : Quiet v v')
    (hf : ∀ x, (f x).job = x.job) : Quiet v (v'.onReplica r f) := by
  refine ⟨h.queue, h.seq, h.now, fun r' => ?_⟩
  by_cases hr : r' = r
  · subst hr
    rw [onReplica_self, hf, h.job]
  · rw [onReplica_of_ne hr, h.job]

theorem quiet_execCall {r i : Nat} {c : Call} (h : v.execCall t r i c = some v') : Quiet v v' := by
  unfold execCall grant free setCall at h
  cases c <;> cases h <;> exact Quiet.onReplica ⟨rfl, rfl, rfl, fun _ => rfl⟩ fun _ => rfl

theorem quiet_replyCall {r i : Nat} {c : Call} (h : v.replyCall r i c = some v') : Quiet v v' := by
  have htwo : ∀ {f g : Replica → Replica}, (∀ x, (f x).job = x.job) → (∀ x, (g x).job = x.job) →
      Quiet v ((v.onReplica r f).onReplica r g) :=
    fun hf hg => (quiet_refl.onReplica hf).onReplica hg
  unfold replyCall setCall dropCall at h
  cases c with
  | renewed ok =>
    cases ok <;> cases h
    · exact htwo (fun _ => rfl) fun _ => rfl
    · exact quiet_refl.onReplica fun _ => rfl
  | acquired ok =>
    cases h
    exact htwo (fun _ => rfl) fun _ => rfl
  | released =>
    cases h
    exact htwo (fun _ => rfl) fun _ => rfl
  | _ => cases h

theorem keys_replyCall {r i : Nat} {c : Call} (h : v.replyCall r i c = some v') :
    v'.leader = v.leader ∧ v'.ends = v.ends := by
  unfold replyCall at h
  cases c with
  | renewed ok => cases ok <;> cases h <;> exact ⟨rfl, rfl⟩
  | acquired ok =>
    cases h
    exact ⟨rfl, rfl⟩
  | released =>
    cases h
    exact ⟨rfl, rfl⟩
  | _ => cases h

inductive Fires (t : Tuning) (v : System) : Action → System → Prop where
  | enqueue {a node req date} :
    Fires t v (.enqueue a node req date) { v with queue := hset v.queue ⟨a, node, req.mode, date⟩ }
  | cancel {a} : Fires t v (.cancel a) { v with queue := hdel v.queue [a] }
  | nextMatchId : Fires t v .nextMatchId { v with seq := v.seq + 1 }
  | lead {act v'} : act.leads = true → Quiet v v' →
    ((∀ r i, act ≠ .exec r i) → v'.leader = v.leader ∧ v'.ends = v.ends) → Fires t v act v'
  | tick {r} : (v.replicas r).job = .idle → Fires t v (.tick r) (v.onJob r .reading)
  | read {r snapshot date} : (v.replicas r).job = .reading → snapshot.Perm v.queue →
    Fires t v (.read r snapshot date) (v.onJob r (.next date (plan t date snapshot)))
  | void {r serverAddr now rest} : (v.replicas r).job = .numbering now [] rest →
    Fires t v (.number r serverAddr) ({ v with seq := v.seq + 1 }.onJob r .idle)
  | number {r serverAddr now e entries rest} :
    (v.replicas r).job = .numbering now (e :: entries) rest →
    Fires t v (.number r serverAddr)
      ({ v with seq := v.seq + 1 }.onJob r (.claiming now (v.seq + 1) serverAddr (e :: entries) rest))
  | claim {r now matchId serverAddr e entries rest} :
    (v.replicas r).job = .claiming now matchId serverAddr (e :: entries) rest →
    Fires t v (.claim r) ({ v with
      queue := hdel v.queue ((e :: entries).map Entry.accountId) }.onJob r
        (.pushing now matchId serverAddr e.mode (e :: entries) rest))
  | push {r found now matchId serverAddr mode x e entries rest} :
    (v.replicas r).job = .pushing now matchId serverAddr mode (x :: e :: entries) rest →
    Fires t v (.push r found) (v.onJob r (.pushing now matchId serverAddr mode (e :: entries) rest))
  | last {r found now matchId serverAddr mode x rest} :
    (v.replicas r).job = .pushing now matchId serverAddr mode [x] rest →
    Fires t v (.push r found) (v.onJob r (.next now rest))
  | fail {r} : Fires t v (.fail r) (v.onJob r .idle)
  | crash {r} : Fires t v (.crash r) (v.onReplica r fun _ => ⟨false, false, [], .idle⟩)

theorem fires_of_act {a : Action} (h : v.act t a = some v') : Fires t v a v' := by
  unfold act at h
  cases a with
  | enqueue a node req date =>
    obtain ⟨-, hv⟩ := Option.ite_none_left_eq_some.mp h
    cases hv
    exact .enqueue
  | cancel a =>
    obtain ⟨-, hv⟩ := Option.ite_none_left_eq_some.mp h
    cases hv
    exact .cancel
  | nextMatchId =>
    cases h
    exact .nextMatchId
  | leadership r =>
    obtain ⟨-, hv⟩ := Option.ite_none_right_eq_some.mp h
    cases hv
    exact .lead rfl (quiet_refl.onReplica fun _ => rfl) fun _ => ⟨rfl, rfl⟩
  | exec r i =>
    obtain ⟨c, -, hc⟩ := Option.bind_eq_some_iff.mp h
    exact .lead rfl (quiet_execCall hc) fun hne => absurd rfl (hne r i)
  | reply r i =>
    obtain ⟨c, -, hc⟩ := Option.bind_eq_some_iff.mp h
    exact .lead rfl (quiet_replyCall hc) fun _ => keys_replyCall hc
  | lose r i =>
    obtain ⟨c, -, rfl⟩ := Option.map_eq_some_iff.mp h
    refine .lead rfl ?_ fun _ => ⟨rfl, rfl⟩
    unfold loseCall dropCall
    refine Quiet.onReplica (Quiet.onReplica quiet_refl ?_) ?_
    · exact fun _ => rfl
    · exact fun _ => rfl
  | stop r =>
    obtain ⟨-, hv⟩ := Option.ite_none_right_eq_some.mp h
    cases hv
    exact .lead rfl (quiet_refl.onReplica fun _ => rfl) fun _ => ⟨rfl, rfl⟩
  | tick r =>
    obtain ⟨⟨-, -, hidle⟩, hv⟩ := Option.ite_none_right_eq_some.mp h
    cases hv
    exact .tick hidle
  | read r snapshot date =>
    obtain ⟨⟨hjob, hperm⟩, hv⟩ := Option.ite_none_right_eq_some.mp h
    cases hv
    exact .read hjob hperm
  | number r serverAddr =>
    dsimp only at h
    split at h
    · rename_i hjob
      cases h
      exact .void hjob
    · rename_i entries rest hne hjob
      cases h
      cases entries with
      | nil => exact absurd rfl hne
      | cons e entries => exact .number hjob
    · cases h
  | claim r =>
    dsimp only at h
    split at h
    · rename_i hjob
      cases h
      exact .claim hjob
    · cases h
  | push r found =>
    dsimp only at h
    split at h
    · rename_i hjob
      cases h
      exact .push hjob
    · rename_i hjob
      cases h
      exact .last hjob
    · cases h
  | fail r =>
    obtain ⟨-, hv⟩ := Option.ite_none_left_eq_some.mp h
    cases hv
    exact .fail
  | crash r =>
    cases h
    exact .crash

theorem fires_of_step (h : v.Step t e v') : Fires t { v with now := e.now } e.act v' :=
  fires_of_act h

end System

end Matchmaker

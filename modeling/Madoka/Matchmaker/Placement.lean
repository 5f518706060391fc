import Madoka.Matchmaker.Leader
import Madoka.Matchmaker.Matches

namespace Matchmaker

open Lib

inductive Mark where
  | queued (a : Nat)
  | placed (a : Nat)
  deriving DecidableEq, Repr

def Mark.awaits (a : Nat) (b : Bool) : Mark → Bool
  | .queued a' => b || decide (a' = a)
  | .placed a' => b && decide (a' ≠ a)

-- The player has queued since he was placed last.
def waiting (marks : List Mark) (a : Nat) : Bool := marks.foldl (Mark.awaits a) false

-- A place in a match is owed to a player who waits.
def Owed (pre : List Mark) : Mark → Prop
  | .queued _ => True
  | .placed a => waiting pre a = true

instance {pre : List Mark} {m : Mark} : Decidable (Owed pre m) :=
  match m with
  | .queued _ => isTrue trivial
  | .placed a => inferInstanceAs (Decidable (waiting pre a = true))

section Marks

variable {marks : List Mark} {a b : Nat} {l : List Nat}

theorem waiting_queued : waiting (marks ++ [.queued b]) a = (waiting marks a || decide (b = a)) :=
  List.foldl_concat ..

theorem waiting_placed : waiting (marks ++ [.placed b]) a = (waiting marks a && decide (b ≠ a)) :=
  List.foldl_concat ..

theorem waiting_others (h : a ∉ l) : waiting (marks ++ l.map .placed) a = waiting marks a := by
  induction l using List.reverseRecOn with
  | nil => rw [List.map_nil, List.append_nil]
  | append_singleton l b ih =>
    rw [List.mem_append, not_or, List.mem_singleton] at h
    have hne : b ≠ a := fun hb => h.2 hb.symm
    rw [List.map_append, List.map_singleton, ← List.append_assoc, waiting_placed, ih h.1]
    simp [hne]

theorem owed_placed (h : Each Owed marks) (hd : l.Nodup) (hw : ∀ a ∈ l, waiting marks a = true) :
    Each Owed (marks ++ l.map .placed) := by
  refine each_append h fun pre y post hsplit => ?_
  obtain ⟨l1, l2, rfl, rfl, htail⟩ := List.map_eq_append_iff.mp hsplit
  obtain ⟨b, l3, rfl, rfl, -⟩ := List.map_eq_cons_iff.mp htail
  have hb : b ∉ l1 := fun hin => (List.nodup_append.mp hd).2.2 b hin b List.mem_cons_self rfl
  exact (waiting_others hb).trans (hw b (List.mem_append_right _ List.mem_cons_self))

end Marks

def Job.pending : Job → List Entry
  | .idle => []
  | .reading => []
  | .numbering _ entries rest => entries ++ rest.flatten
  | .claiming _ _ _ entries rest => entries ++ rest.flatten
  | .pushing _ _ _ _ _ rest => rest.flatten

theorem pending_next {now : Int} {rest : List (List Entry)} :
    (Job.next now rest).pending = rest.flatten := by
  cases rest with
  | nil => rfl
  | cons b rest => rfl

def Action.replica : Action → Option Nat
  | .enqueue .. | .cancel _ | .nextMatchId => none
  | .leadership r | .exec r _ | .reply r _ | .lose r _ | .stop r => some r
  | .tick r | .read r _ _ | .number r _ | .claim r | .push r _ | .fail r | .crash r => some r

-- A tick that is not through with Redis.
def Job.claims (job : Job) : Bool := decide (job = .reading) || !job.pending.isEmpty

theorem claims_of_pending {job : Job} (h : job.pending ≠ []) : job.claims = true := by
  unfold Job.claims
  rw [Bool.or_eq_true]
  exact Or.inr (by simpa using h)

theorem plan_subperm {t : Tuning} {now : Int} {snapshot : List Entry} :
    (plan t now snapshot).flatten.Subperm snapshot := by
  have hgroups : ∀ gs : List (String × List Entry),
      (gs.filterMap fun g => batch t now g.2).flatten.Subperm (gs.flatMap Prod.snd) := fun gs => by
    induction gs with
    | nil => exact List.Subperm.refl _
    | cons g gs ih =>
      rw [List.filterMap_cons, List.flatMap_cons]
      split
      · exact ih.trans (List.sublist_append_right _ _).subperm
      · rename_i b hb
        obtain ⟨-, rfl⟩ := Option.ite_none_right_eq_some.mp hb |>.imp_right Option.some.inj
        obtain ⟨l, hp, hs⟩ := @oldest_subperm _ Entry.joinedAt t.matchSize g.2
        obtain ⟨l', hp', hs'⟩ := ih
        exact ⟨l ++ l', hp.append hp', hs.append hs'⟩
  exact (hgroups _).trans perm_groups.subperm

namespace System

variable {t : Tuning} {v v' : System} {e : Event} {es : List Event} {marks : List Mark}

def placing (v : System) (e : Event) : List Mark :=
  match e.act with
  | .enqueue a .. => [.queued a]
  | .claim r =>
    match (v.replicas r).job with
    | .claiming _ _ _ entries _ => (entries.map Entry.accountId).map .placed
    | _ => []
  | _ => []

def placements (t : Tuning) (es : List Event) : List Mark := logged (step t) placing start es

-- No tick outlives the lease of its replica.
def Prompt (v : System) (e : Event) : Prop :=
  v.Clocked e ∧ ∀ r, (v.replicas r).job.claims = true → ∃ x, v.ends r = some x ∧ e.now < x

structure Placing (v : System) (marks : List Mark) : Prop where
  owed : Each Owed marks
  queued : ∀ x ∈ v.queue, waiting marks x.accountId = true
  pending : ∀ r, ∀ x ∈ (v.jobs r).pending, waiting marks x.accountId = true
  sole : ∀ r r', (v.jobs r).pending ≠ [] → (v.jobs r').pending ≠ [] → r = r'
  once : ∀ r, ((v.jobs r).pending.map Entry.accountId).Nodup

theorem Placing.shrink {r : Nat} {job : Job} (h : Placing v marks)
    (hjobs : v'.jobs = Function.update v.jobs r job) (hq : v'.queue = v.queue)
    (hsub : job.pending.Sublist (v.jobs r).pending) : Placing v' marks := by
  have hall : ∀ r', (v'.jobs r').pending.Sublist (v.jobs r').pending := fun r' => by
    rw [hjobs]
    by_cases hr : r' = r
    · subst hr
      rw [Function.update_self]
      exact hsub
    · rw [Function.update_of_ne hr]
  have hne : ∀ r', (v'.jobs r').pending ≠ [] → (v.jobs r').pending ≠ [] := fun r' hp hnil =>
    hp (List.sublist_nil.mp (hnil ▸ hall r'))
  exact {
    owed := h.owed
    queued := fun x hx => h.queued x (hq ▸ hx)
    pending := fun r' x hx => h.pending r' x ((hall r').subset hx)
    sole := fun r1 r2 h1 h2 => h.sole r1 r2 (hne r1 h1) (hne r2 h2)
    once := fun r' => (h.once r').sublist ((hall r').map _) }

theorem sole_claims {r r' : Nat} {terms : List (Lease.Mark Nat)}
    (hb : Lease.Books t.leaseMs v.now v.leader v.ends terms)
    (hp : v.Prompt e) (h : (v.replicas r).job.claims = true)
    (h' : (v.replicas r').job.claims = true) : r = r' := by
  obtain ⟨x, hx, hlt⟩ := hp.2 r h
  obtain ⟨x', hx', hlt'⟩ := hp.2 r' h'
  exact (hb.sole.later hp.1).eq hx hlt hx' hlt'

theorem placing_fires {a : Action} {now : Int} (h : Fires t v a v') (hq : Single v.queue)
    (hsole : ∀ r r', (v.jobs r).claims = true → (v.jobs r').claims = true → r = r')
    (hi : Placing v marks) : Placing v' (marks ++ v.placing ⟨a, now⟩) := by
  have hquiet : v.placing ⟨a, now⟩ = [] → Placing v' marks → Placing v' (marks ++ v.placing ⟨a, now⟩) :=
    fun hp ht => by
      rw [hp, List.append_nil]
      exact ht
  have hjob : ∀ {r job}, (v.replicas r).job = job → v.jobs r = job := fun h => h
  cases h with
  | @enqueue a node req date =>
    change Placing _ (marks ++ [.queued a])
    have hmono : ∀ b, waiting marks b = true → waiting (marks ++ [.queued a]) b = true := fun b hb => by
      rw [waiting_queued, hb, Bool.true_or]
    refine ⟨each_snoc.mpr ⟨hi.owed, trivial⟩, fun x hx => ?_,
      fun r x hx => hmono _ (hi.pending r x hx), hi.sole, hi.once⟩
    rcases List.mem_append.mp hx with hx | hx
    · exact hmono _ (hi.queued x (List.mem_filter.mp hx).1)
    · rw [List.mem_singleton] at hx
      rw [hx, waiting_queued]
      simp
  | cancel =>
    refine hquiet rfl ⟨hi.owed, fun x hx => hi.queued x (List.mem_filter.mp hx).1, hi.pending, hi.sole,
      hi.once⟩
  | nextMatchId => exact hquiet rfl ⟨hi.owed, hi.queued, hi.pending, hi.sole, hi.once⟩
  | lead hleads hq' _ =>
    have hjobs : v'.jobs = v.jobs := funext hq'.job
    have ht : Placing v' marks := by
      refine ⟨hi.owed, fun x hx => hi.queued x (hq'.queue ▸ hx), ?_, ?_, ?_⟩
      · rw [hjobs]
        exact hi.pending
      · rw [hjobs]
        exact hi.sole
      · rw [hjobs]
        exact hi.once
    cases a <;> first | exact hquiet rfl ht | exact Bool.noConfusion hleads
  | tick _ => exact hquiet rfl (hi.shrink jobs_onJob rfl (List.nil_sublist _))
  | @read r snapshot date hread hperm =>
    have hreads : (v.jobs r).claims = true := by
      rw [hjob hread]
      rfl
    have hnone : ∀ r', r' ≠ r → (v.jobs r').pending = [] := fun r' hr => by
      by_contra hne
      exact hr (hsole r' r (claims_of_pending hne) hreads)
    have hplan : (Job.next date (plan t date snapshot)).pending.Subperm v.queue := by
      rw [pending_next]
      exact plan_subperm.trans hperm.subperm
    have hpend : ∀ r', (Function.update v.jobs r (.next date (plan t date snapshot)) r').pending ≠ [] →
        r' = r := fun r' hne => by
      by_contra hr
      rw [Function.update_of_ne hr] at hne
      exact hne (hnone r' hr)
    refine hquiet rfl ⟨hi.owed, hi.queued, fun r' x hx => ?_, ?_, fun r' => ?_⟩
    · rw [jobs_onJob] at hx
      obtain rfl := hpend r' (List.ne_nil_of_mem hx)
      rw [Function.update_self] at hx
      exact hi.queued x (hplan.subset hx)
    · rw [jobs_onJob]
      exact fun r1 r2 h1 h2 => (hpend r1 h1).trans (hpend r2 h2).symm
    · rw [jobs_onJob]
      by_cases hr : r' = r
      · subst hr
        rw [Function.update_self]
        obtain ⟨l, hperm', hl⟩ := hplan
        exact (hperm'.map Entry.accountId).nodup_iff.mp (hq.sublist (hl.map Entry.accountId))
      · rw [Function.update_of_ne hr]
        exact hi.once r'
  | void hrun => exact hquiet rfl (hi.shrink jobs_onJob rfl (List.nil_sublist _))
  | number hrun =>
    refine hquiet rfl (hi.shrink jobs_onJob rfl ?_)
    rw [hjob hrun]
    exact List.Sublist.refl _
  | @claim r now' id addr x entries rest hrun =>
    have hp : v.placing ⟨.claim r, now⟩ = ((x :: entries).map Entry.accountId).map .placed := by
      unfold placing
      simp only [hrun]
    have hpend : (v.jobs r).pending = (x :: entries) ++ rest.flatten := by rw [hjob hrun]; rfl
    have honce := hi.once r
    rw [hpend, List.map_append] at honce
    obtain ⟨hmine, hrest, hapart⟩ := List.nodup_append.mp honce
    have hnone : ∀ r', r' ≠ r → (v.jobs r').pending = [] := fun r' hr => by
      by_contra hne
      exact hr (hi.sole r' r hne (by rw [hpend]; simp))
    have hkept : ∀ y : Entry, y.accountId ∉ (x :: entries).map Entry.accountId →
        waiting marks y.accountId = true →
          waiting (marks ++ ((x :: entries).map Entry.accountId).map .placed) y.accountId = true :=
      fun y hy hw => (waiting_others hy).trans hw
    have hafter : ∀ r', (Function.update v.jobs r (.pushing now' id addr x.mode (x :: entries) rest)
        r').pending ≠ [] → r' = r := fun r' hne => by
      by_contra hr
      rw [Function.update_of_ne hr] at hne
      exact hne (hnone r' hr)
    rw [hp]
    refine ⟨owed_placed hi.owed hmine fun a ha => ?_, fun y hy => ?_, fun r' y hy => ?_, ?_,
      fun r' => ?_⟩
    · obtain ⟨y, hy, rfl⟩ := List.mem_map.mp ha
      exact hi.pending r y (by rw [hpend]; exact List.mem_append_left _ hy)
    · obtain ⟨hin, hout⟩ := List.mem_filter.mp hy
      exact hkept y (by simpa using hout) (hi.queued y hin)
    · rw [jobs_onJob] at hy
      obtain rfl := hafter r' (List.ne_nil_of_mem hy)
      rw [Function.update_self] at hy
      refine hkept y (fun hin => ?_) (hi.pending r' y (by rw [hpend]; exact List.mem_append_right _ hy))
      exact hapart _ hin _ (List.mem_map_of_mem hy) rfl
    · rw [jobs_onJob]
      exact fun r1 r2 h1 h2 => (hafter r1 h1).trans (hafter r2 h2).symm
    · rw [jobs_onJob]
      by_cases hr : r' = r
      · subst hr
        rw [Function.update_self]
        exact hrest
      · rw [Function.update_of_ne hr]
        exact hi.once r'
  | push hrun =>
    refine hquiet rfl (hi.shrink jobs_onJob rfl ?_)
    rw [hjob hrun]
    exact List.Sublist.refl _
  | last hrun =>
    refine hquiet rfl (hi.shrink jobs_onJob rfl ?_)
    rw [hjob hrun, pending_next]
    exact List.Sublist.refl _
  | fail => exact hquiet rfl (hi.shrink jobs_onJob rfl (List.nil_sublist _))
  | crash => exact hquiet rfl (hi.shrink jobs_onReplica rfl (List.nil_sublist _))

theorem placing_start : Placing start [] where
  owed := each_nil
  queued := fun _ h => absurd h List.not_mem_nil
  pending := fun _ _ h => absurd h List.not_mem_nil
  sole := fun _ _ h => absurd rfl h
  once := fun _ => List.nodup_nil

theorem placing_of_run (h : Run (Guarded (Step t) Prompt) start es v) :
    Placing v (placements t es) := by
  have hinv := run_history (I := fun es v => Run (Guarded (Step t) Prompt) start es v ∧
    Placing v (placements t es)) h ⟨.start, placing_start⟩
    fun {es v e v'} ⟨hr, hi⟩ hs => ⟨hr.next hs, ?_⟩
  · exact hinv.2
  · have hplain : Run (Step t) start es v := guarded_run hr
    have hb := books_of_run (run_mono hr fun hg => ⟨hg.1, hg.2.1⟩)
    have hsnoc : placements t (es ++ [e]) = placements t es ++ v.placing e := logged_snoc hplain
    have hq : Single v.queue := single_of_run hplain
    have hsole : ∀ r r', (v.jobs r).claims = true → (v.jobs r').claims = true → r = r' :=
      fun r r' h1 h2 => sole_claims hb hs.2 h1 h2
    rw [hsnoc]
    exact placing_fires (v := { v with now := e.now }) (fires_of_step hs.1) hq hsole
      ⟨hi.owed, hi.queued, hi.pending, hi.sole, hi.once⟩

-- As long as no tick outlives its lease, a player gets one place for every time he queues.
theorem placed_once (h : Run (Guarded (Step t) Prompt) start es v) : Each Owed (placements t es) :=
  (placing_of_run h).owed

-- The first replica is alone, and in time.
def Solo (v : System) (e : Event) : Prop :=
  v.Clocked e ∧ (e.act.replica = none ∨ e.act.replica = some 0) ∧
    ((v.replicas 0).job.claims = true → (v.ends 0).any (fun x => decide (e.now < x)) = true)

instance : Decidable (v.Solo e) :=
  inferInstanceAs (Decidable (v.Clocked e ∧ (e.act.replica = none ∨ e.act.replica = some 0) ∧
    ((v.replicas 0).job.claims = true → (v.ends 0).any (fun x => decide (e.now < x)) = true)))

theorem jobs_others {a : Action} {r : Nat} (h : Fires t v a v') (hr : a.replica ≠ some r) :
    v'.jobs r = v.jobs r := by
  have hne : ∀ {r' job}, a.replica = some r' → Function.update v.jobs r' job r = v.jobs r :=
    fun {r' job} hr' => Function.update_of_ne (fun heq => hr (hr'.trans (congrArg some heq.symm))) ..
  cases h with
  | lead _ hquiet _ => exact hquiet.job r
  | crash =>
    rw [jobs_onReplica]
    exact hne rfl
  | enqueue => rfl
  | cancel => rfl
  | nextMatchId => rfl
  | _ =>
    rw [jobs_onJob]
    exact hne rfl

theorem solo_step (h : v.Step t e v') (hs : v.Solo e) (hidle : ∀ r, r ≠ 0 → v.jobs r = .idle) :
    v.Prompt e ∧ ∀ r, r ≠ 0 → v'.jobs r = .idle := by
  obtain ⟨hclock, hmine, hlive⟩ := hs
  refine ⟨⟨hclock, fun r hc => ?_⟩, fun r hr => ?_⟩
  · by_cases hr : r = 0
    · subst hr
      obtain ⟨x, hx, hlt⟩ := (Option.any_eq_true _ _).mp (hlive hc)
      exact ⟨x, hx, of_decide_eq_true hlt⟩
    · have hjob : (v.replicas r).job = .idle := hidle r hr
      rw [hjob] at hc
      exact Bool.noConfusion hc
  · have hother : e.act.replica ≠ some r := fun ha => by
      rw [ha] at hmine
      rcases hmine with hm | hm
      · exact Option.some_ne_none r hm
      · exact hr (Option.some.inj hm)
    exact (jobs_others (fires_of_step h) hother).trans (hidle r hr)

theorem prompt_of_solo (h : Run (Guarded (Step t) Solo) start es v) :
    Run (Guarded (Step t) Prompt) start es v ∧ ∀ r, r ≠ 0 → v.jobs r = .idle := by
  induction h with
  | start => exact ⟨.start, fun _ _ => rfl⟩
  | next _ hs ih =>
    have hsolo := solo_step hs.1 hs.2 ih.2
    exact ⟨ih.1.next ⟨hs.1, hsolo.1⟩, hsolo.2⟩

-- Both players are claimed, and one of them queues again.
def twice : List Event :=
  takes 0 0 ++ [⟨.enqueue 7 "gw-1" request 10, 10⟩, ⟨.enqueue 8 "gw-1" request 20, 20⟩, ⟨.tick 0, 1000⟩,
    ⟨.read 0 [queued 8 20, queued 7 10] 1000, 1000⟩, ⟨.number 0 "match:10100", 1001⟩, ⟨.claim 0, 1002⟩,
    ⟨.enqueue 7 "gw-2" request 1003, 1003⟩, ⟨.push 0 true, 1004⟩, ⟨.push 0 false, 1005⟩]

theorem twice_placed_once : ∃ v, Run (Guarded (Step defaultTuning) Prompt) start twice v ∧
    placements defaultTuning twice = [.queued 7, .queued 8, .placed 7, .placed 8, .queued 7] ∧
    Each Owed (placements defaultTuning twice) := by
  have hrun : ((twice.foldlM (fun v e => if Solo v e then step defaultTuning v e else none) start).map
      fun v => v.seq) = some 1 := by
    decide +kernel
  obtain ⟨v, hv, -⟩ := Option.map_eq_some_iff.mp hrun
  have h := (prompt_of_solo (run_of_checked hv)).1
  exact ⟨v, h, by decide +kernel, placed_once h⟩

end System

end Matchmaker

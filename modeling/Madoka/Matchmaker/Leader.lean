import Madoka.Matchmaker.Service

namespace Matchmaker

open Lib

namespace System

variable {t : Tuning} {v v' : System} {e : Event} {es : List Event} {marks : List (Lease.Mark Nat)}

-- What Redis answers a leadership command with.
def grantsTo (t : Tuning) (v : System) (now : Int) (r : Nat) : Call → List (Lease.Mark Nat)
  | .renewing => if (Lease.renew r now t.leaseMs v.leader).2 then [.granted r now] else []
  | .acquiring => if (Lease.acquire r now t.leaseMs v.leader).2 then [.granted r now] else []
  | .releasing => if (Lease.release r now v.leader).2 then [.freed r] else []
  | _ => []

def grants (t : Tuning) (v : System) (e : Event) : List (Lease.Mark Nat) :=
  match e.act with
  | .exec r i => ((v.replicas r).calls[i]?.map (v.grantsTo t e.now r)).getD []
  | _ => []

def tenures (t : Tuning) (es : List Event) : List (Lease.Mark Nat) :=
  logged (step t) (grants t) start es

def Clocked (v : System) (e : Event) : Prop := v.now ≤ e.now

instance : Decidable (v.Clocked e) := inferInstanceAs (Decidable (v.now ≤ e.now))

theorem books_exec {r i : Nat} {c : Call} (h : v.execCall t r i c = some v')
    (hb : Lease.Books t.leaseMs v.now v.leader v.ends marks) :
    Lease.Books t.leaseMs v'.now v'.leader v'.ends (marks ++ v.grantsTo t v.now r c) := by
  unfold execCall at h
  unfold grantsTo
  cases c with
  | renewing =>
    cases h
    cases ha : (Lease.renew r v.now t.leaseMs v.leader).2 with
    | true => simpa [setCall, onReplica, grant, ha] using hb.renew ha
    | false => simpa [setCall, onReplica, grant, ha, Lease.renew_failed ha] using hb
  | acquiring =>
    cases h
    cases ha : (Lease.acquire r v.now t.leaseMs v.leader).2 with
    | true => simpa [setCall, onReplica, grant, ha] using hb.acquire ha
    | false => simpa [setCall, onReplica, grant, ha, Lease.acquire_failed ha] using hb
  | releasing =>
    cases h
    cases ha : (Lease.release r v.now v.leader).2 with
    | true => simpa [setCall, onReplica, free, ha] using hb.release
    | false => simpa [setCall, onReplica, free, ha, Lease.release_failed ha] using hb
  | _ => cases h

theorem keys_of_fires {a : Action} (h : Fires t v a v') (ha : ∀ r i, a ≠ .exec r i) :
    v'.leader = v.leader ∧ v'.ends = v.ends ∧ v'.now = v.now := by
  cases h with
  | lead _ hq hk => exact ⟨(hk ha).1, (hk ha).2, hq.now⟩
  | _ => exact ⟨rfl, rfl, rfl⟩

theorem books_step (h : v.Step t e v') (hc : v.Clocked e)
    (hb : Lease.Books t.leaseMs v.now v.leader v.ends marks) :
    Lease.Books t.leaseMs v'.now v'.leader v'.ends (marks ++ v.grants t e) := by
  have hlater := hb.later hc
  by_cases hexec : ∃ r i, e.act = .exec r i
  · obtain ⟨r, i, hact⟩ := hexec
    unfold Step step at h
    rw [hact] at h
    obtain ⟨c, hcall, hx⟩ := Option.bind_eq_some_iff.mp h
    have hcall' : (v.replicas r).calls[i]? = some c := hcall
    have hg : v.grants t e = ({ v with now := e.now } : System).grantsTo t e.now r c := by
      unfold grants
      rw [hact]
      simp only [hcall', Option.map_some, Option.getD_some]
      rfl
    rw [hg]
    exact books_exec hx hlater
  · have hne : ∀ r i, e.act ≠ .exec r i := fun r i hact => hexec ⟨r, i, hact⟩
    have hg : v.grants t e = [] := by
      unfold grants
      split
      · rename_i hact
        exact absurd hact (hne _ _)
      · rfl
    obtain ⟨hl, hends, hnow⟩ := keys_of_fires (fires_of_step h) hne
    rw [hg, List.append_nil, hl, hends, hnow]
    exact hlater

theorem books_of_run (h : Run (Guarded (Step t) Clocked) start es v) :
    Lease.Books t.leaseMs v.now v.leader v.ends (tenures t es) := by
  have hinv := run_history (I := fun es v => Run (Step t) start es v ∧
    Lease.Books t.leaseMs v.now v.leader v.ends (tenures t es)) h
    ⟨.start, Lease.books_start⟩ fun {es v e v'} ⟨hr, hb⟩ ⟨hs, hc⟩ => ⟨hr.next hs, ?_⟩
  · exact hinv.2
  · have hsnoc : tenures t (es ++ [e]) = tenures t es ++ v.grants t e := logged_snoc hr
    rw [hsnoc]
    exact books_step hs hc hb

def Replica.crowned (x : Replica) : Prop := x.isLeader = true ∨ .acquired true ∈ x.calls

theorem crowned_onReplica {r r' : Nat} {f : Replica → Replica}
    (hf : ∀ x : Replica, Replica.crowned (f x) → Replica.crowned x)
    (h : Replica.crowned ((v.onReplica r f).replicas r')) : Replica.crowned (v.replicas r') := by
  by_cases hr : r' = r
  · subst hr
    rw [onReplica_self] at h
    exact hf _ h
  · rwa [onReplica_of_ne hr] at h

theorem crowned_setCall {r r' i : Nat} {c : Call} (hne : c ≠ .acquired true)
    (h : Replica.crowned ((v.setCall r i c).replicas r')) : Replica.crowned (v.replicas r') := by
  refine crowned_onReplica (r := r) (f := fun x => { x with calls := x.calls.set i c })
    (fun x hx => hx.imp_right fun hm => ?_) h
  exact (List.mem_or_eq_of_mem_set hm).resolve_right fun heq => hne heq.symm

theorem crowned_dropCall {r r' i : Nat} (h : Replica.crowned ((v.dropCall r i).replicas r')) :
    Replica.crowned (v.replicas r') :=
  crowned_onReplica (r := r) (f := fun x => { x with calls := x.calls.eraseIdx i })
    (fun _ hx => hx.imp_right List.mem_of_mem_eraseIdx) h

theorem crowned_execCall {r r' i : Nat} {c : Call} (h : v.execCall t r i c = some v')
    (hc : Replica.crowned (v'.replicas r')) : Replica.crowned (v.replicas r') ∨
      ∃ now, .granted r' now ∈ v.grantsTo t v.now r c := by
  unfold execCall at h
  cases c with
  | renewing =>
    cases h
    exact Or.inl (crowned_setCall Call.noConfusion hc)
  | acquiring =>
    cases h
    cases ha : (Lease.acquire r v.now t.leaseMs v.leader).2 with
    | false =>
      rw [ha] at hc
      exact Or.inl (crowned_setCall (by decide) hc)
    | true =>
      by_cases hr : r' = r
      · subst hr
        refine Or.inr ⟨v.now, ?_⟩
        unfold grantsTo
        rw [if_pos ha]
        exact List.mem_singleton_self _
      · refine Or.inl ?_
        unfold setCall at hc
        rw [onReplica_of_ne hr] at hc
        exact hc
  | releasing =>
    cases h
    exact Or.inl (crowned_setCall Call.noConfusion hc)
  | _ => cases h

theorem crowned_replyCall {r r' i : Nat} {c : Call} (hin : (v.replicas r).calls[i]? = some c)
    (h : v.replyCall r i c = some v') (hc : Replica.crowned (v'.replicas r')) :
    Replica.crowned (v.replicas r') := by
  have hdemote : ∀ {r''}, Replica.crowned ((v.onReplica r fun x =>
      { x with isLeader := false }).replicas r'') → Replica.crowned (v.replicas r'') := fun hx =>
    crowned_onReplica (f := fun x => { x with isLeader := false })
      (fun _ hx => Or.inr (hx.resolve_left fun hf => Bool.noConfusion hf)) hx
  unfold replyCall at h
  cases c with
  | renewed ok =>
    cases ok with
    | true =>
      cases h
      exact crowned_dropCall hc
    | false =>
      cases h
      exact hdemote (crowned_setCall Call.noConfusion hc)
  | acquired ok =>
    cases h
    have hx := crowned_dropCall hc
    by_cases hr : r' = r
    · subst hr
      rw [onReplica_self] at hx
      rcases hx with hx | hx
      · rw [Bool.or_eq_true] at hx
        rcases hx with hx | rfl
        · exact Or.inl hx
        · exact Or.inr (List.mem_of_getElem? hin)
      · exact Or.inr hx
    · rwa [onReplica_of_ne hr] at hx
  | released =>
    cases h
    exact hdemote (crowned_dropCall hc)
  | _ => cases h

theorem crowned_act {a : Action} {r' : Nat} (h : v.act t a = some v')
    (hc : Replica.crowned (v'.replicas r')) : Replica.crowned (v.replicas r') ∨
      ∃ now, .granted r' now ∈ v.grants t ⟨a, v.now⟩ := by
  have hjob : ∀ {u : System} {r : Nat} {job : Job}, u.replicas = v.replicas →
      Replica.crowned ((u.onJob r job).replicas r') → Replica.crowned (v.replicas r') :=
    fun {u r job} hu hx => by
      rw [← hu]
      exact crowned_onReplica (f := fun x => { x with job := job }) (fun _ hx => hx) hx
  unfold act at h
  cases a with
  | enqueue a node req date =>
    obtain ⟨-, hv⟩ := Option.ite_none_left_eq_some.mp h
    cases hv
    exact Or.inl hc
  | cancel a =>
    obtain ⟨-, hv⟩ := Option.ite_none_left_eq_some.mp h
    cases hv
    exact Or.inl hc
  | nextMatchId =>
    cases h
    exact Or.inl hc
  | leadership r =>
    obtain ⟨-, hv⟩ := Option.ite_none_right_eq_some.mp h
    cases hv
    refine Or.inl (crowned_onReplica (f := fun x =>
      { x with calls := x.calls ++ [if x.isLeader then .renewing else .acquiring] })
      (fun x hx => hx.imp_right fun hm => ?_) hc)
    refine (List.mem_append.mp hm).resolve_right fun hlast => ?_
    rw [List.mem_singleton] at hlast
    split at hlast
    · cases hlast
    · cases hlast
  | exec r i =>
    obtain ⟨c, hin, hx⟩ := Option.bind_eq_some_iff.mp h
    refine (crowned_execCall hx hc).imp_right fun ⟨now, hg⟩ => ⟨now, ?_⟩
    unfold grants
    simp only [hin, Option.map_some, Option.getD_some]
    exact hg
  | reply r i =>
    obtain ⟨c, hin, hx⟩ := Option.bind_eq_some_iff.mp h
    exact Or.inl (crowned_replyCall hin hx hc)
  | lose r i =>
    obtain ⟨c, -, rfl⟩ := Option.map_eq_some_iff.mp h
    refine Or.inl (crowned_onReplica (r := r) (f := fun x => { x with
      isLeader := x.isLeader && decide (c ≠ .releasing ∧ c ≠ .released) })
      (fun x hx => hx.imp_left fun hl => ?_) (crowned_dropCall hc))
    rw [Bool.and_eq_true] at hl
    exact hl.1
  | stop r =>
    obtain ⟨-, hv⟩ := Option.ite_none_right_eq_some.mp h
    cases hv
    refine Or.inl (crowned_onReplica (f := fun x => { x with
      up := false, calls := if x.isLeader then x.calls ++ [.releasing] else x.calls })
      (fun x hx => hx.imp_right fun hm => ?_) hc)
    dsimp only at hm
    split at hm
    · exact (List.mem_append.mp hm).resolve_right fun hlast => Call.noConfusion (List.mem_singleton.mp hlast)
    · exact hm
  | tick r =>
    obtain ⟨-, hv⟩ := Option.ite_none_right_eq_some.mp h
    cases hv
    exact Or.inl (hjob rfl hc)
  | read r snapshot date =>
    obtain ⟨-, hv⟩ := Option.ite_none_right_eq_some.mp h
    cases hv
    exact Or.inl (hjob rfl hc)
  | number r serverAddr =>
    dsimp only at h
    split at h
    · cases h
      exact Or.inl (hjob rfl hc)
    · cases h
      exact Or.inl (hjob rfl hc)
    · cases h
  | claim r =>
    dsimp only at h
    split at h
    · cases h
      exact Or.inl (hjob rfl hc)
    · cases h
  | push r found =>
    dsimp only at h
    split at h
    · cases h
      exact Or.inl (hjob rfl hc)
    · cases h
      exact Or.inl (hjob rfl hc)
    · cases h
  | fail r =>
    obtain ⟨-, hv⟩ := Option.ite_none_left_eq_some.mp h
    cases hv
    exact Or.inl (hjob rfl hc)
  | crash r =>
    cases h
    refine Or.inl (crowned_onReplica (f := fun _ => ⟨false, false, [], .idle⟩) (fun x hx => ?_) hc)
    rcases hx with hx | hx
    · exact Bool.noConfusion hx
    · exact absurd hx List.not_mem_nil

theorem crowned_of_run (h : Run (Step t) start es v) (r : Nat) (hc : Replica.crowned (v.replicas r)) :
    ∃ now, .granted r now ∈ tenures t es := by
  have hinv := run_history (I := fun es v => Run (Step t) start es v ∧
    ∀ r, Replica.crowned (v.replicas r) → ∃ now, .granted r now ∈ tenures t es) h
    ⟨.start, fun r hx => ?_⟩ fun {es v e v'} ⟨hr, hi⟩ hs => ⟨hr.next hs, fun r hx => ?_⟩
  · exact hinv.2 r hc
  · rcases hx with hx | hx
    · exact Bool.noConfusion hx
    · exact absurd hx List.not_mem_nil
  · have hsnoc : tenures t (es ++ [e]) = tenures t es ++ v.grants t e := logged_snoc hr
    rw [hsnoc]
    rcases crowned_act (v := { v with now := e.now }) hs hx with hold | ⟨now, hg⟩
    · obtain ⟨now, hin⟩ := hi r hold
      exact ⟨now, List.mem_append_left _ hin⟩
    · exact ⟨now, List.mem_append_right _ hg⟩

-- The leadership passes on only when its lease has run out or was given back, and nobody takes
-- himself for the leader who was not granted it.
theorem leases_apart (h : Run (Guarded (Step t) Clocked) start es v) :
    Each (Lease.Apart t.leaseMs) (tenures t es) ∧
      ∀ r, (v.replicas r).isLeader = true → ∃ now, .granted r now ∈ tenures t es :=
  ⟨(books_of_run h).apart, fun r hl => crowned_of_run (guarded_run h) r (Or.inl hl)⟩

-- A replica takes the lease.
def takes (now : Int) (r : Nat) : List Event :=
  [⟨.leadership r, now⟩, ⟨.exec r 0, now⟩, ⟨.reply r 0, now⟩]

-- The first leader does not renew; both take themselves for the leader.
theorem leases_of_two : ∃ v, Run (Guarded (Step defaultTuning) Clocked) start
      (takes 0 0 ++ takes 15000 1) v ∧
    (v.replicas 0).isLeader = true ∧ (v.replicas 1).isLeader = true ∧
    tenures defaultTuning (takes 0 0 ++ takes 15000 1) = [.granted 0 0, .granted 1 15000] ∧
    Each (Lease.Apart defaultTuning.leaseMs) (tenures defaultTuning (takes 0 0 ++ takes 15000 1)) := by
  have hrun : ((takes 0 0 ++ takes 15000 1).foldlM (fun v e =>
      if Clocked v e then step defaultTuning v e else none) start).map
      (fun v => ((v.replicas 0).isLeader, (v.replicas 1).isLeader)) = some (true, true) := by
    decide +kernel
  obtain ⟨v, hv, hl⟩ := Option.map_eq_some_iff.mp hrun
  obtain ⟨hl0, hl1⟩ := Prod.mk.inj hl
  have h := run_of_checked hv
  exact ⟨v, h, hl0, hl1, by decide +kernel, (leases_apart h).1⟩

end System

end Matchmaker

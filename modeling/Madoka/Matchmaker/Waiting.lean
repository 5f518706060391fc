import Madoka.Matchmaker.Placement

namespace Matchmaker

open Lib

-- Those of the mode who have waited as long as this player.
def Entry.ahead (e x : Entry) : Bool :=
  decide (x.key = e.key ∧ x.accountId ≠ e.accountId ∧ x.joinedAt ≤ e.joinedAt)

def lineAhead (e : Entry) (q : Queue) : Queue := q.filter e.ahead

-- The line ahead without the players of a batch.
def lineWithout (e : Entry) (b : List Entry) (q : Queue) : Queue :=
  lineAhead e (hdel q (b.map Entry.accountId))

def touches (e : Entry) (b : List Entry) : Bool := b.any fun x => decide (x.key = e.key)

section Line

variable {t : Tuning} {now : Int} {e x : Entry} {b : List Entry} {q q' snapshot : Queue}

theorem line_without_le : (lineWithout e b q).length ≤ (lineAhead e q).length :=
  (List.filter_sublist.filter _).length_le

theorem line_hset (h : e.joinedAt < x.joinedAt) : (lineAhead e (hset q x)).Sublist (lineAhead e q) := by
  unfold lineAhead hset
  rw [List.filter_append]
  have hx : [x].filter e.ahead = [] := by
    refine List.filter_eq_nil_iff.mpr fun y hy => ?_
    rw [List.mem_singleton] at hy
    subst hy
    unfold Entry.ahead
    rw [decide_eq_true_eq]
    exact fun ha => absurd ha.2.2 (Int.not_le.mpr h)
  rw [hx, List.append_nil]
  exact List.filter_sublist.filter _

theorem line_shorter (hd : (b.map Entry.accountId).Nodup) (hb : ∀ y ∈ b, y ∈ lineAhead e q) :
    b.length + (lineWithout e b q).length ≤ (lineAhead e q).length := by
  have hsub : b.Subperm ((lineAhead e q).filter fun y => decide (y.accountId ∈ b.map Entry.accountId)) := by
    refine List.subperm_of_subset hd.of_map fun y hy => ?_
    rw [List.mem_filter, decide_eq_true_eq]
    exact ⟨hb y hy, List.mem_map_of_mem hy⟩
  have hrest : lineWithout e b q =
      (lineAhead e q).filter fun y => !decide (y.accountId ∈ b.map Entry.accountId) := by
    unfold lineWithout lineAhead hdel
    rw [List.filter_filter, List.filter_filter]
    refine List.filter_congr fun y _ => ?_
    rw [decide_not, Bool.and_comm]
  have hsplit := List.length_eq_length_filter_add (l := lineAhead e q)
    (fun y => decide (y.accountId ∈ b.map Entry.accountId))
  rw [hrest, hsplit]
  exact Nat.add_le_add_right hsub.length_le _

theorem batch_passes (hq : System.Single snapshot) (he : e ∈ snapshot) (hb : b ∈ plan t now snapshot)
    (hkey : touches e b = true) (hout : e ∉ b) :
    b.length = t.matchSize ∧ ∀ y ∈ b, y ∈ lineAhead e snapshot := by
  obtain ⟨⟨key, entries⟩, hg, hbatch⟩ := List.mem_filterMap.mp hb
  obtain ⟨hentries, -⟩ := mem_groups.mp hg
  obtain ⟨-, rfl⟩ := Option.ite_none_right_eq_some.mp hbatch |>.imp_right Option.some.inj
  have hmem : ∀ y ∈ oldest Entry.joinedAt t.matchSize entries, y ∈ snapshot ∧ y.key = key := fun y hy => by
    have hy' := mem_of_oldest hy
    rw [hentries, List.mem_filter, decide_eq_true_eq] at hy'
    exact hy'
  obtain ⟨z, hz, hzkey⟩ := List.any_eq_true.mp hkey
  rw [decide_eq_true_eq] at hzkey
  have hekey : e.key = key := hzkey.symm.trans (hmem z hz).2
  have hin : e ∈ entries := by
    rw [hentries, List.mem_filter, decide_eq_true_eq]
    exact ⟨he, hekey⟩
  obtain ⟨hlen, hle⟩ := bypassed hin hout
  refine ⟨hlen, fun y hy => ?_⟩
  obtain ⟨hys, hyk⟩ := hmem y hy
  refine List.mem_filter.mpr ⟨hys, ?_⟩
  unfold Entry.ahead
  rw [decide_eq_true_eq]
  refine ⟨hyk.trans hekey.symm, fun hacc => hout ?_, hle y hy⟩
  exact (List.inj_on_of_nodup_map hq hys he hacc) ▸ hy

theorem mem_batch {entries : List Entry} (hb : batch t now entries = some b) (hx : x ∈ b) :
    x ∈ entries := by
  obtain ⟨-, rfl⟩ := Option.ite_none_right_eq_some.mp hb |>.imp_right Option.some.inj
  exact mem_of_oldest hx

theorem plan_apart : (plan t now snapshot).Pairwise fun b b' => ∀ x ∈ b, ∀ y ∈ b', x.key ≠ y.key := by
  have hkeys : (groups Entry.key snapshot).Pairwise fun g g' => g.1 ≠ g'.1 :=
    List.pairwise_map.mp nodup_groups
  refine List.pairwise_filterMap.mpr (hkeys.imp_of_mem fun {g g'} hg hg' hne b hb b' hb' x hx y hy => ?_)
  have hkey : ∀ {g : String × List Entry} {b : List Entry} {x : Entry}, g ∈ groups Entry.key snapshot →
      batch t now g.2 = some b → x ∈ b → x.key = g.1 := fun {g b x} hg hb hx => by
    obtain ⟨hentries, -⟩ := mem_groups.mp hg
    have hx' := mem_batch hb hx
    rw [hentries, List.mem_filter, decide_eq_true_eq] at hx'
    exact hx'.2
  rw [hkey hg hb hx, hkey hg' hb' hy]
  exact hne

theorem plan_due (he : e ∈ snapshot) (hsize : 0 < t.matchSize) (hlate : t.timeoutMs ≤ now - e.joinedAt) :
    ∃ b ∈ plan t now snapshot, touches e b = true := by
  have hin : e ∈ snapshot.filter fun x => decide (x.key = e.key) :=
    List.mem_filter.mpr ⟨he, decide_eq_true rfl⟩
  have hgroup : (e.key, snapshot.filter fun x => decide (x.key = e.key)) ∈ groups Entry.key snapshot :=
    mem_groups.mpr ⟨rfl, List.ne_nil_of_mem hin⟩
  have hbatch : batch t now (snapshot.filter fun x => decide (x.key = e.key)) =
      some (oldest Entry.joinedAt t.matchSize (snapshot.filter fun x => decide (x.key = e.key))) :=
    if_pos (Or.inr (List.any_eq_true.mpr ⟨e, hin, decide_eq_true hlate⟩))
  refine ⟨_, List.mem_filterMap.mpr ⟨_, hgroup, hbatch⟩, ?_⟩
  have hpos : 0 < (oldest Entry.joinedAt t.matchSize
      (snapshot.filter fun x => decide (x.key = e.key))).length := by
    rw [length_oldest]
    exact Nat.lt_min.mpr ⟨hsize, List.length_pos_of_mem hin⟩
  obtain ⟨y, hy⟩ := List.exists_mem_of_length_pos hpos
  exact List.any_eq_true.mpr ⟨y, hy, (List.mem_filter.mp (mem_of_oldest hy)).2⟩

end Line

def Job.batches : Job → List (List Entry)
  | .numbering _ entries rest => entries :: rest
  | .claiming _ _ _ entries rest => entries :: rest
  | .pushing _ _ _ _ _ rest => rest
  | _ => []

theorem batches_next {now : Int} {rest : List (List Entry)} : (Job.next now rest).batches = rest := by
  cases rest with
  | nil => rfl
  | cons b rest => rfl

theorem pending_of_batches {job : Job} {b : List Entry} {x : Entry} (hb : b ∈ job.batches)
    (hx : x ∈ b) : job.pending ≠ [] := by
  have hin : x ∈ job.batches.flatten := List.mem_flatten.mpr ⟨b, hb, hx⟩
  have heq : job.pending = job.batches.flatten := by
    cases job <;> rfl
  rw [heq]
  exact List.ne_nil_of_mem hin

theorem touches_mem {e : Entry} {b : List Entry} (h : touches e b = true) : ∃ x ∈ b, x.key = e.key := by
  obtain ⟨x, hx, hkey⟩ := List.any_eq_true.mp h
  exact ⟨x, hx, of_decide_eq_true hkey⟩

namespace System

variable {t : Tuning} {v v' : System} {e : Entry} {ev : Event} {es es' : List Event} {n N : Nat}
  {marks : List Mark}

def passing (e : Entry) (v : System) (ev : Event) : List Match :=
  (v.formed ev).filter fun m => touches e m.entries && decide (e ∉ m.entries)

-- He stays in the queue, and whoever queues after him does so later.
def Patient (e : Entry) (v : System) (ev : Event) : Prop :=
  v.Prompt ev ∧ e ∈ v.queue ∧
    ∀ a node req date, ev.act = .enqueue a node req date → e.joinedAt < date

-- The line ahead after `n` matches without him, and what the batches under way take of it.
structure Passed (size : Nat) (e : Entry) (N n : Nat) (v : System) : Prop where
  line : size * n + (lineAhead e v.queue).length ≤ N + size
  under : ∀ r, ∀ b ∈ (v.jobs r).batches, touches e b = true → e ∉ b →
    size * (n + 1) + (lineWithout e b v.queue).length ≤ N + size
  apart : ∀ r, (v.jobs r).batches.Pairwise fun b b' => ∀ x ∈ b, ∀ y ∈ b', x.key ≠ y.key

theorem Passed.shrink {size : Nat} (h : Passed size e N n v)
    (hline : (lineAhead e v'.queue).length ≤ (lineAhead e v.queue).length)
    (hwithout : ∀ b, (lineWithout e b v'.queue).length ≤ (lineWithout e b v.queue).length)
    (hjobs : ∀ r, (v'.jobs r).batches.Sublist (v.jobs r).batches) : Passed size e N n v' where
  line := (Nat.add_le_add_left hline _).trans h.line
  under := fun r b hb hkey hout => (Nat.add_le_add_left (hwithout b) _).trans
    (h.under r b ((hjobs r).subset hb) hkey hout)
  apart := fun r => (h.apart r).sublist (hjobs r)

theorem batches_update {r r' : Nat} {job : Job} (h : job.batches.Sublist (v.jobs r).batches) :
    (Function.update v.jobs r job r').batches.Sublist (v.jobs r').batches := by
  by_cases hr : r' = r
  · subst hr
    rw [Function.update_self]
    exact h
  · rw [Function.update_of_ne hr]

theorem line_hdel {ids : List Nat} {q : Queue} :
    (lineAhead e (hdel q ids)).length ≤ (lineAhead e q).length :=
  (List.filter_sublist.filter _).length_le

theorem without_hdel {ids : List Nat} {q : Queue} {b : List Entry} :
    (lineWithout e b (hdel q ids)).length ≤ (lineWithout e b q).length :=
  ((List.filter_sublist.filter _).filter _).length_le

theorem without_hset {x : Entry} {q : Queue} {b : List Entry} (h : e.joinedAt < x.joinedAt) :
    (lineWithout e b (hset q x)).length ≤ (lineWithout e b q).length := by
  have hcomm : ∀ q, lineWithout e b q =
      (lineAhead e q).filter fun y => decide (y.accountId ∉ b.map Entry.accountId) := fun q => by
    unfold lineWithout lineAhead hdel
    rw [List.filter_filter, List.filter_filter]
    exact List.filter_congr fun y _ => Bool.and_comm ..
  rw [hcomm, hcomm]
  exact ((line_hset h).filter _).length_le

theorem batches_jobs {r : Nat} {job : Job} (hjobs : v'.jobs = Function.update v.jobs r job)
    (h : job.batches.Sublist (v.jobs r).batches) (r' : Nat) :
    (v'.jobs r').batches.Sublist (v.jobs r').batches := by
  rw [hjobs]
  exact batches_update h

theorem batches_fires {a : Action} (h : Fires t v a v') (hread : ∀ r q d, a ≠ .read r q d) (r : Nat) :
    (v'.jobs r).batches.Sublist (v.jobs r).batches := by
  have hjob : ∀ {r job}, (v.replicas r).job = job → v.jobs r = job := fun h => h
  cases h with
  | enqueue => exact List.Sublist.refl _
  | cancel => exact List.Sublist.refl _
  | nextMatchId => exact List.Sublist.refl _
  | lead _ hquiet _ =>
    have hsame : v'.jobs r = v.jobs r := hquiet.job r
    rw [hsame]
  | tick _ => exact batches_jobs (v := v) jobs_onJob (show Job.reading.batches.Sublist _ from
    List.nil_sublist _) r
  | read _ _ => exact absurd rfl (hread _ _ _)
  | void _ => exact batches_jobs (v := v) jobs_onJob (show Job.idle.batches.Sublist _ from
    List.nil_sublist _) r
  | number hrun =>
    refine batches_jobs (v := v) jobs_onJob ?_ r
    rw [hjob hrun]
    exact List.Sublist.refl _
  | claim hrun =>
    refine batches_jobs (v := v) jobs_onJob ?_ r
    rw [hjob hrun]
    exact List.sublist_cons_self _ _
  | push hrun =>
    refine batches_jobs (v := v) jobs_onJob ?_ r
    rw [hjob hrun]
    exact List.Sublist.refl _
  | last hrun =>
    refine batches_jobs (v := v) jobs_onJob ?_ r
    rw [hjob hrun, batches_next]
    exact List.Sublist.refl _
  | fail => exact batches_jobs (v := v) jobs_onJob (show Job.idle.batches.Sublist _ from
    List.nil_sublist _) r
  | crash => exact batches_jobs (v := v) jobs_onReplica (show Job.idle.batches.Sublist _ from
    List.nil_sublist _) r

theorem passed_read {r : Nat} {snapshot : List Entry} {date : Int} (hq : Single v.queue)
    (hperm : snapshot.Perm v.queue) (he : e ∈ v.queue) (hp : Passed t.matchSize e N n v) :
    Passed t.matchSize e N n (v.onJob r (.next date (plan t date snapshot))) := by
  have hsingle : Single snapshot := (hperm.map Entry.accountId).nodup_iff.mpr hq
  refine ⟨hp.line, fun r' b hb hkey hout => ?_, fun r' => ?_⟩
  · rw [jobs_onJob] at hb
    by_cases hr : r' = r
    · subst hr
      rw [Function.update_self, batches_next] at hb
      obtain ⟨hlen, hahead⟩ := batch_passes hsingle (hperm.mem_iff.mpr he) hb hkey hout
      have hshort := line_shorter (formable_plan hsingle hb).once fun y hy =>
        ((hperm.filter e.ahead).mem_iff.mp (hahead y hy) : y ∈ lineAhead e v.queue)
      have hline := hp.line
      change t.matchSize * (n + 1) + (lineWithout e b v.queue).length ≤ N + t.matchSize
      rw [Nat.mul_succ]
      omega
    · rw [Function.update_of_ne hr] at hb
      exact hp.under r' b hb hkey hout
  · rw [jobs_onJob]
    by_cases hr : r' = r
    · subst hr
      rw [Function.update_self, batches_next]
      exact plan_apart
    · rw [Function.update_of_ne hr]
      exact hp.apart r'

theorem passed_claim {r id : Nat} {now : Int} {addr : String} {x : Entry} {entries : List Entry}
    {rest : List (List Entry)} (hi : Placing v marks) (hp : Passed t.matchSize e N n v)
    (hjob : v.jobs r = .claiming now id addr (x :: entries) rest) (hkey : touches e (x :: entries) = true)
    (hout : e ∉ x :: entries) : Passed t.matchSize e N (n + 1) ({ v with
      queue := hdel v.queue ((x :: entries).map Entry.accountId) }.onJob r
        (.pushing now id addr x.mode (x :: entries) rest)) := by
  have hbatches : (v.jobs r).batches = (x :: entries) :: rest := by rw [hjob]; rfl
  have hapart := hp.apart r
  rw [hbatches, List.pairwise_cons] at hapart
  refine ⟨?_, fun r' b hb hkey' _ => ?_, fun r' => ?_⟩
  · exact hp.under r (x :: entries) (by rw [hbatches]; exact List.mem_cons_self) hkey hout
  · obtain ⟨y, hy, hye⟩ := touches_mem hkey
    obtain ⟨z, hz, hze⟩ := touches_mem hkey'
    rw [jobs_onJob] at hb
    by_cases hr : r' = r
    · subst hr
      rw [Function.update_self] at hb
      exact absurd (hye.trans hze.symm) (hapart.1 b hb y hy z hz)
    · rw [Function.update_of_ne hr] at hb
      have hother : (v.jobs r').pending ≠ [] := pending_of_batches hb hz
      have hmine : (v.jobs r).pending ≠ [] :=
        pending_of_batches (b := x :: entries) (by rw [hbatches]; exact List.mem_cons_self) hy
      exact absurd (hi.sole r' r hother hmine) hr
  · rw [jobs_onJob]
    by_cases hr : r' = r
    · subst hr
      rw [Function.update_self]
      exact hapart.2
    · rw [Function.update_of_ne hr]
      exact hp.apart r'

theorem passed_fires {a : Action} {now : Int} (h : Fires t v a v') (hq : Single v.queue)
    (hi : Placing v marks) (he : e ∈ v.queue)
    (hlater : ∀ b node req date, a = .enqueue b node req date → e.joinedAt < date)
    (hp : Passed t.matchSize e N n v) :
    Passed t.matchSize e N (n + (v.passing e ⟨a, now⟩).length) v' := by
  have hsame : v.passing e ⟨a, now⟩ = [] → Passed t.matchSize e N n v' →
      Passed t.matchSize e N (n + (v.passing e ⟨a, now⟩).length) v' := fun hnil ht => by
    rw [hnil]
    exact ht
  have hkeep : v'.queue = v.queue → v.passing e ⟨a, now⟩ = [] → (∀ r q d, a ≠ .read r q d) →
      Passed t.matchSize e N (n + (v.passing e ⟨a, now⟩).length) v' := fun hqueue hnil hread =>
    hsame hnil (hp.shrink (by rw [hqueue]) (fun b => by rw [hqueue]) fun r => batches_fires h hread r)
  have hbatches := batches_fires h
  cases h with
  | enqueue =>
    refine hsame rfl (hp.shrink ?_ (fun b => ?_) (hbatches (by rintro _ _ _ ⟨⟩)))
    · exact (line_hset (hlater _ _ _ _ rfl)).length_le
    · exact without_hset (hlater _ _ _ _ rfl)
  | cancel => exact hsame rfl (hp.shrink line_hdel (fun _ => without_hdel) (hbatches (by rintro _ _ _ ⟨⟩)))
  | read _ hperm => exact hsame rfl (passed_read hq hperm he hp)
  | @claim r now' id addr x entries rest hrun =>
    have hformed : v.formed ⟨.claim r, now⟩ = [⟨id, addr, now', x :: entries⟩] := by
      unfold formed
      simp only [hrun]
    by_cases hcount : touches e (x :: entries) = true ∧ e ∉ x :: entries
    · have hone : v.passing e ⟨.claim r, now⟩ = [⟨id, addr, now', x :: entries⟩] := by
        unfold passing
        rw [hformed, List.filter_singleton]
        simp only [hcount.1, hcount.2, not_false_eq_true, decide_true, Bool.and_self, cond_true]
      rw [hone]
      exact passed_claim hi hp hrun hcount.1 hcount.2
    · have hnone : v.passing e ⟨.claim r, now⟩ = [] := by
        unfold passing
        rw [hformed]
        refine List.filter_eq_nil_iff.mpr fun m hm => ?_
        rw [List.mem_singleton] at hm
        subst hm
        rw [Bool.and_eq_true, decide_eq_true_eq]
        exact hcount
      exact hsame hnone (hp.shrink line_hdel (fun _ => without_hdel) (hbatches (by rintro _ _ _ ⟨⟩)))
  | lead hleads hquiet _ =>
    cases a <;> first
      | exact Bool.noConfusion hleads
      | exact hkeep hquiet.queue rfl (by rintro _ _ _ ⟨⟩)
  | _ => exact hkeep rfl rfl (by rintro _ _ _ ⟨⟩)

theorem apart_of_run (h : Run (Step t) start es v) (r : Nat) :
    (v.jobs r).batches.Pairwise fun b b' => ∀ x ∈ b, ∀ y ∈ b', x.key ≠ y.key := by
  refine run_invariant (I := fun v => ∀ r, (v.jobs r).batches.Pairwise fun b b' =>
    ∀ x ∈ b, ∀ y ∈ b', x.key ≠ y.key) h (fun _ => List.Pairwise.nil) (fun {a ev b} hi hs r => ?_) r
  have hfire := fires_of_step hs
  by_cases hread : ∃ r q d, ev.act = .read r q d
  · obtain ⟨r', q, d, hact⟩ := hread
    rw [hact] at hfire
    cases hfire with
    | lead hleads _ _ => exact Bool.noConfusion hleads
    | read _ _ =>
      rw [jobs_onJob]
      by_cases hr : r = r'
      · subst hr
        rw [Function.update_self, batches_next]
        exact plan_apart
      · rw [Function.update_of_ne hr]
        exact hi r
  · exact (hi r).sublist (batches_fires hfire (fun r q d hact => hread ⟨r, q, d, hact⟩) r)

-- While a player waits, the matches of his mode that are formed without him are as many as fit into
-- the line ahead of him and one more; a tick that sees him wait too long forms one with him, or a
-- full one of those ahead of him.
theorem passed_over (h : Run (Guarded (Step t) Prompt) start es v)
    (hw : Run (Guarded (Step t) (Patient e)) v es' v') :
    t.matchSize * (logged (step t) (passing e) v es').length ≤
      (lineAhead e v.queue).length + t.matchSize ∧
    ∀ snapshot date, snapshot.Perm v'.queue → e ∈ v'.queue → 0 < t.matchSize →
      t.timeoutMs ≤ date - e.joinedAt → ∃ b ∈ plan t date snapshot, touches e b = true ∧
        (e ∈ b ∨ b.length = t.matchSize ∧ b ⊆ lineAhead e v'.queue) := by
  have hinv := run_history (I := fun es' v' => Run (Step t) v es' v' ∧
    Run (Guarded (Step t) Prompt) start (es ++ es') v' ∧ Passed t.matchSize e
      (lineAhead e v.queue).length (logged (step t) (passing e) v es').length v') hw
    ⟨.start, by rwa [List.append_nil], ?_⟩ fun {es' a ev b} ⟨hr, hall, hp⟩ ⟨hs, hc⟩ =>
      ⟨hr.next hs, ?_, ?_⟩
  · refine ⟨(Nat.le_add_right _ _).trans hinv.2.2.line, fun snapshot date hperm he hsize hlate => ?_⟩
    obtain ⟨b, hb, hkey⟩ := plan_due (hperm.mem_iff.mpr he) hsize hlate
    have hq : Single v'.queue := single_of_run (guarded_run hinv.2.1)
    refine ⟨b, hb, hkey, or_iff_not_imp_left.mpr fun hout => ?_⟩
    obtain ⟨hlen, hahead⟩ := batch_passes ((hperm.map Entry.accountId).nodup_iff.mpr hq)
      (hperm.mem_iff.mpr he) hb hkey hout
    exact ⟨hlen, fun y hy => (hperm.filter e.ahead).mem_iff.mp (hahead y hy)⟩
  · refine ⟨?_, fun r b _ _ _ => ?_, apart_of_run (guarded_run h)⟩
    · change t.matchSize * 0 + (lineAhead e v.queue).length ≤ _
      omega
    · have hle := @line_without_le e b v.queue
      change t.matchSize * 1 + _ ≤ _
      omega
  · rw [← List.append_assoc]
    exact hall.next ⟨hs, hc.1⟩
  · have hsnoc : logged (step t) (passing e) v (es' ++ [ev]) =
        logged (step t) (passing e) v es' ++ a.passing e ev := logged_snoc hr
    have hq : Single a.queue := single_of_run (guarded_run hall)
    have hi := placing_of_run hall
    rw [hsnoc, List.length_append]
    exact passed_fires (v := { a with now := ev.now }) (fires_of_step hs) hq
      ⟨hi.owed, hi.queued, hi.pending, hi.sole, hi.once⟩ hc.2.1 hc.2.2 ⟨hp.line, hp.under, hp.apart⟩

-- Matches of two.
def pairs : Tuning := { defaultTuning with matchSize := 2 }

def inLine : List Event :=
  takes 0 0 ++ [⟨.enqueue 7 "gw-1" request 10, 10⟩, ⟨.enqueue 8 "gw-1" request 20, 20⟩,
    ⟨.enqueue 9 "gw-1" request 30, 30⟩]

def passedBy : List Event :=
  [⟨.tick 0, 1000⟩, ⟨.read 0 [queued 9 30, queued 8 20, queued 7 10] 1000, 1000⟩,
    ⟨.number 0 "match:10100", 1001⟩, ⟨.claim 0, 1002⟩, ⟨.enqueue 6 "gw-2" request 1003, 1003⟩]

def later (e : Entry) : Action → Bool
  | .enqueue _ _ _ date => decide (e.joinedAt < date)
  | _ => true

def Steady (e : Entry) (v : System) (ev : Event) : Prop :=
  v.Solo ev ∧ e ∈ v.queue ∧ later e ev.act = true

instance : Decidable (Steady e v ev) :=
  inferInstanceAs (Decidable (v.Solo ev ∧ e ∈ v.queue ∧ later e ev.act = true))

theorem patient_of_steady (hidle : ∀ r, r ≠ 0 → v.jobs r = .idle)
    (h : Run (Guarded (Step t) (Steady e)) v es' v') :
    Run (Guarded (Step t) (Patient e)) v es' v' ∧ ∀ r, r ≠ 0 → v'.jobs r = .idle := by
  induction h with
  | start => exact ⟨.start, hidle⟩
  | next _ hs ih =>
    obtain ⟨hstep, hsolo, hin, hlater⟩ := hs
    have hnext := solo_step hstep hsolo ih.2
    refine ⟨ih.1.next ⟨hstep, hnext.1, hin, fun a node req date hact => ?_⟩, hnext.2⟩
    rw [hact] at hlater
    exact of_decide_eq_true hlater

theorem third_passed_over : ∃ v v', Run (Guarded (Step pairs) Prompt) start inLine v ∧
    Run (Guarded (Step pairs) (Patient (queued 9 30))) v passedBy v' ∧
    (lineAhead (queued 9 30) v.queue).length = 2 ∧ pairs.matchSize = 2 ∧
    (logged (step pairs) (passing (queued 9 30)) v passedBy).length = 1 ∧
    pairs.matchSize * (logged (step pairs) (passing (queued 9 30)) v passedBy).length ≤
      (lineAhead (queued 9 30) v.queue).length + pairs.matchSize := by
  have hrun : (inLine.foldlM (fun v ev => if Solo v ev then step pairs v ev else none) start).bind
      (fun v => (passedBy.foldlM (fun v ev => if Steady (queued 9 30) v ev then step pairs v ev
        else none) v).map fun _ => ((lineAhead (queued 9 30) v.queue).length,
          (logged (step pairs) (passing (queued 9 30)) v passedBy).length)) = some (2, 1) := by
    decide +kernel
  obtain ⟨v, hv, hrest⟩ := Option.bind_eq_some_iff.mp hrun
  obtain ⟨v', hv', hcount⟩ := Option.map_eq_some_iff.mp hrest
  obtain ⟨hline, hone⟩ := Prod.mk.inj hcount
  obtain ⟨h, hidle⟩ := prompt_of_solo (run_of_checked hv)
  have hw := (patient_of_steady hidle (run_of_checked hv')).1
  exact ⟨v, v', h, hw, hline, rfl, hone, (passed_over h hw).1⟩

end System

end Matchmaker

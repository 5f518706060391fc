import Madoka.Auth.Pairings

namespace Auth

open Lib Utf16

def Op.poll : Op → Option Nat
  | .read p => some p
  | .take p => some p
  | _ => none

section runs

variable {b : Backend} {s : Store} {es fs : List Event}

theorem run_append : run b s (es ++ fs) = run b (run b s es) fs :=
  List.foldl_append

theorem orderly_append : Orderly b s (es ++ fs) ↔ Orderly b s es ∧ Orderly b (run b s es) fs := by
  induction es generalizing s with
  | nil => exact ⟨fun h => ⟨trivial, h⟩, And.right⟩
  | cons e es ih =>
    change Timely b s e ∧ Orderly b (step b s e) (es ++ fs) ↔
      (Timely b s e ∧ Orderly b (step b s e) es) ∧ Orderly b (run b (step b s e) es) fs
    rw [ih, and_assoc]

end runs

def Aside (a : Answer) (s s' : Store) : Prop :=
  ∃ l l', s.answers = l ++ l' ∧ s' = { s with answers := l ++ a :: l' }

namespace Aside

variable {b : Backend} {a : Answer} {s s' : Store} {e : Event} {es : List Event} {now : Int} {p : Nat}

theorem answer {l l' : List Answer} (hs : s.answers = l ++ l') (x : Answer) :
    Aside a (s.answer x) (Store.answer { s with answers := l ++ a :: l' } x) := by
  refine ⟨l, l' ++ [x], ?_, ?_⟩
  · change s.answers ++ [x] = _
    rw [hs, List.append_assoc]
  · unfold Store.answer
    rw [List.append_assoc, List.cons_append]

theorem started {l l' : List Answer} (hs : s.answers = l ++ l') (hp : p ≠ a.poll) :
    Store.started { s with answers := l ++ a :: l' } p = s.started p := by
  unfold Store.started
  dsimp only
  rw [hs, List.any_append, List.any_append, List.any_cons]
  have hne : (a.poll == p) = false := beq_false_of_ne (Ne.symm hp)
  rw [hne, Bool.false_or]

theorem timely (h : Aside a s s') : Timely b s' e ↔ Timely b s e := by
  obtain ⟨l, l', -, rfl⟩ := h
  exact Iff.rfl

theorem mark (h : Aside a s s') (f : Pairing → Pairing) : Aside a (s.mark b now f) (s'.mark b now f) := by
  obtain ⟨l, l', hs, rfl⟩ := h
  unfold Store.mark
  dsimp only
  split
  · split
    · exact ⟨l, l', hs, rfl⟩
    · exact ⟨l, l', hs, rfl⟩
  · exact ⟨l, l', hs, rfl⟩

theorem step (h : Aside a s s') (hp : e.op.poll ≠ some a.poll) :
    Aside a (step b s e) (step b s' e) := by
  obtain ⟨now, op⟩ := e
  cases op with
  | createPending uri ttl =>
    obtain ⟨l, l', hs, rfl⟩ := h
    change Aside a (s.createPending now uri ttl) (Store.createPending _ now uri ttl)
    unfold Store.createPending
    dsimp only
    split
    · exact ⟨l, l', hs, rfl⟩
    · exact ⟨l, l', hs, rfl⟩
  | findByPairId =>
    obtain ⟨l, l', hs, rfl⟩ := h
    change Aside a (s.findByPairId b now) (Store.findByPairId b _ now)
    unfold Store.findByPairId
    dsimp only
    split
    · exact ⟨l, l', hs, rfl⟩
    · exact ⟨l, l', hs, rfl⟩
  | markCompleted url => exact h.mark _
  | markFailed error => exact h.mark _
  | expire =>
    obtain ⟨l, l', hs, rfl⟩ := h
    change Aside a (s.expire now) (Store.expire _ now)
    unfold Store.expire
    dsimp only
    split
    · split
      · exact ⟨l, l', hs, rfl⟩
      · exact ⟨l, l', hs, rfl⟩
    · exact ⟨l, l', hs, rfl⟩
  | read p =>
    obtain ⟨l, l', hs, rfl⟩ := h
    have hne : p ≠ a.poll := fun hp' => hp (congrArg some hp')
    change Aside a (s.read b now p) (Store.read b _ now p)
    unfold Store.read
    rw [started hs hne]
    dsimp only
    split
    · exact ⟨l, l', hs, rfl⟩
    split
    · exact answer hs _
    · split
      · exact answer hs _
      · exact ⟨l, l', hs, rfl⟩
  | take p =>
    obtain ⟨l, l', hs, rfl⟩ := h
    have hrow : ∀ row x, Aside a (Store.answer { s with row := row } x)
        (Store.answer { s with row := row, answers := l ++ a :: l' } x) := fun row x =>
      @answer a { s with row := row } l l' hs x
    change Aside a (s.take b now p) (Store.take b _ now p)
    unfold Store.take
    dsimp only
    split
    · exact ⟨l, l', hs, rfl⟩
    · cases b with
      | mongo => exact hrow _ _
      | pg =>
        dsimp only
        split
        · exact hrow _ _
        · exact hrow _ _

theorem run (h : Aside a s s') (hp : ∀ e ∈ es, e.op.poll ≠ some a.poll) :
    Aside a (run b s es) (run b s' es) ∧ (Orderly b s es → Orderly b s' es) := by
  induction es generalizing s s' with
  | nil => exact ⟨h, id⟩
  | cons e es ih =>
    obtain ⟨hrun, horderly⟩ := ih (h.step (hp e (List.mem_cons_self ..))) fun e he =>
      hp e (List.mem_cons_of_mem _ he)
    exact ⟨hrun, fun ho => ⟨h.timely.mpr ho.1, horderly ho.2⟩⟩

end Aside

section reads

variable {b : Backend} {s : Store} {now : Int} {r : Pairing} {p : Nat}

theorem read_gone (hs : s.started p = false) (hr : b.sees now s.row = none) :
    s.read b now p = s.answer ⟨p, now, now, .expired, none⟩ := by
  unfold Store.read
  rw [hs, hr]
  rfl

theorem read_pending (hs : s.started p = false) (hr : b.sees now s.row = some r) (hp : r.status = .pending) :
    s.read b now p = s.answer ⟨p, now, now, .pending, none⟩ := by
  unfold Store.read
  rw [hs, hr]
  exact if_pos hp

theorem read_terminal (hs : s.started p = false) (hr : b.sees now s.row = some r) (hp : r.status ≠ .pending) :
    s.read b now p = { s with polls := Function.update s.polls p (some ⟨now, r⟩) } := by
  unfold Store.read
  rw [hs, hr]
  exact if_neg hp

theorem read_take (hs : s.started p = false) (hr : s.row = some r) (hp : r.status ≠ .pending) :
    (s.read .mongo now p).take .mongo now p =
      Store.answer { s with row := none } ⟨p, now, now, r.reply, some r⟩ := by
  have hq : Store.polls { s with polls := Function.update s.polls p (some ⟨now, r⟩) } p = some ⟨now, r⟩ :=
    Function.update_self p _ s.polls
  have hrow : Store.row { s with polls := Function.update s.polls p (some ⟨now, r⟩) } = some r := hr
  rw [@read_terminal .mongo _ now r p hs hr hp, take_hit hq hrow rfl]
  unfold Store.answer
  dsimp only
  rw [Function.update_idem]

end reads

-- The same reply, given while the first call was under way.
structure Within (a a' : Answer) : Prop where
  poll : a'.poll = a.poll
  reply : a'.reply = a.reply
  began : a.began ≤ a'.began
  ended : a'.ended ≤ a.ended

structure Agree (l l' : List Answer) : Prop where
  left : ∀ a ∈ l, ∃ a' ∈ l', Within a a'
  right : ∀ a' ∈ l', ∃ a ∈ l, Within a a'

theorem Agree.snoc {l l' k k' : List Answer} {a a' : Answer} (h : Agree l (k ++ k')) (hw : Within a a')
    (hl : l' = k ++ a' :: k') : Agree (l ++ [a]) l' where
  left := fun x hx => by
    rw [hl]
    rcases List.mem_append.mp hx with hx | hx
    · obtain ⟨x', hx', hwx⟩ := h.left x hx
      refine ⟨x', ?_, hwx⟩
      rcases List.mem_append.mp hx' with hx' | hx'
      · exact List.mem_append_left _ hx'
      · exact List.mem_append_right _ (List.mem_cons_of_mem _ hx')
    · obtain rfl := List.mem_singleton.mp hx
      exact ⟨a', List.mem_append_right _ (List.mem_cons_self ..), hw⟩
  right := fun x hx => by
    rw [hl] at hx
    have hold : x ∈ k ++ k' → ∃ y ∈ l ++ [a], Within y x := fun hx => by
      obtain ⟨y, hy, hwy⟩ := h.right x hx
      exact ⟨y, List.mem_append_left _ hy, hwy⟩
    rcases List.mem_append.mp hx with hx | hx
    · exact hold (List.mem_append_left _ hx)
    · rcases List.mem_cons.mp hx with rfl | hx
      · exact ⟨a, List.mem_append_right _ (List.mem_singleton_self _), hw⟩
      · exact hold (List.mem_append_right _ hx)

-- What the store of Postgres at time `t` has to do with the one of Mongo, whose row was last gone
-- at `gap`: Mongo's calls begin and end at once, and Mongo's row may have been removed before.
structure Follows (s v : Store) (t gap : Int) : Prop where
  idle : ∀ p, v.polls p = none
  row : v.row = s.row ∨ v.row = none ∧ ∃ r, s.row = some r ∧ r.expiresAt ≤ t
  next : v.next = s.next
  marks : v.marks = s.marks
  answers : Agree s.answers v.answers
  held : ∀ p q, s.polls p = some q → q.began ≤ t ∧ (s.row = some q.doc ∨ q.began ≤ gap)

namespace Follows

variable {s v : Store} {t gap now : Int} {r : Pairing} {p : Nat} {q : Poll}

theorem later (h : Follows s v t gap) (hle : t ≤ now) : Follows s v now gap :=
  { h with
    row := h.row.imp_right fun hr => by
      obtain ⟨hv, r, hs, hexp⟩ := hr
      exact ⟨hv, r, hs, Int.le_trans hexp hle⟩
    held := fun p q hq => ⟨Int.le_trans (h.held p q hq).1 hle, (h.held p q hq).2⟩ }

theorem regap (h : Follows s v t gap) : Follows s v t t :=
  { h with held := fun p q hq => ⟨(h.held p q hq).1, Or.inr (h.held p q hq).1⟩ }

theorem live (h : Follows s v t gap) (hle : t ≤ now) (hr : s.row = some r) (hnow : now < r.expiresAt) :
    v.row = some r := by
  rcases h.row with hv | ⟨-, r', hs, hexp⟩
  · exact hv.trans hr
  · obtain rfl := Option.some.inj (hr.symm.trans hs)
    omega

theorem gone (h : Follows s v t gap) (hr : s.row = none) : v.row = none := by
  rcases h.row with hv | ⟨-, r, hs, -⟩
  · exact hv.trans hr
  · cases hr.symm.trans hs

theorem not_started (h : Follows s v t gap) (hp : ∀ a ∈ s.answers, a.poll ≠ p) : v.started p = false := by
  unfold Store.started
  rw [h.idle p, Option.isSome_none, Bool.false_or, List.any_eq_false]
  intro a' ha' hp'
  obtain ⟨a, ha, hw⟩ := h.answers.right a' ha'
  exact hp a ha (hw.poll.symm.trans (beq_iff_eq.mp hp'))

theorem createPending (h : Follows s v t gap) (hr : s.row = none) {uri : Text} {ttl : Int} :
    Follows (s.createPending now uri ttl) (v.createPending now uri ttl) t t := by
  have hv := h.gone hr
  unfold Store.createPending
  rw [hr, hv]
  exact
    { h with
      row := Or.inl (by rw [h.next])
      next := congrArg (· + 1) h.next
      held := fun p q hq => ⟨(h.held p q hq).1, Or.inr (h.held p q hq).1⟩ }

theorem mark (h : Follows s v t gap) (hle : t ≤ now) (hsound : Sound s) (f : Pairing → Pairing)
    (hr : s.row = some r) (hnow : now < r.expiresAt) (hp : r.status = .pending) :
    Follows (s.mark .pg now f) (v.mark .mongo now f) t gap := by
  have hv := h.live hle hr hnow
  have hsees : Backend.sees .pg now s.row = some r := by
    change s.row.filter _ = _
    rw [hr, Option.filter_some, if_pos (decide_eq_true hnow)]
  have hseen : Backend.sees .mongo now v.row = some r := hv
  unfold Store.mark
  rw [hsees, hseen]
  dsimp only
  rw [if_pos hp, if_pos hp]
  exact
    { h with
      row := Or.inl rfl
      marks := by rw [h.marks]
      held := fun p q hq => by
        refine ⟨(h.held p q hq).1, Or.inr ?_⟩
        rcases (h.held p q hq).2 with hrow | hgap
        · obtain rfl := Option.some.inj (hr.symm.trans hrow)
          exact absurd hp (hsound.held p q hq).1
        · exact hgap }

theorem answer (h : Follows s v t gap) {a a' : Answer} (hw : Within a a') :
    Follows (s.answer a) (v.answer a') t gap where
  idle := fun p => by
    change Function.update v.polls _ none p = none
    by_cases hp : p = a'.poll
    · rw [hp, Function.update_self]
    · rw [Function.update_of_ne hp]
      exact h.idle p
  row := h.row
  next := h.next
  marks := h.marks
  answers := by
    have hagree := h.answers
    rw [← List.append_nil v.answers] at hagree
    exact hagree.snoc hw rfl
  held := fun p q hq => h.held p q (Sound.polls_answer hq).2

theorem expired (h : Follows s v t gap) (hle : t ≤ now) (hs : ∀ r, s.row = some r → r.expiresAt ≤ now) :
    v.expire now = { v with row := none } ∧ Follows s { v with row := none } now gap := by
  have hv : ∀ r, v.row = some r → r.expiresAt ≤ now := fun r hr => by
    rcases h.row with hsame | ⟨hnone, -⟩
    · exact hs r (hsame.symm.trans hr)
    · cases hnone.symm.trans hr
  constructor
  · unfold Store.expire
    cases hr : v.row with
    | none =>
      dsimp only
      rw [← hr]
    | some r =>
      dsimp only
      rw [if_pos (hv r hr)]
  · have hlater := h.later hle
    exact
      { hlater with
        row := by
          cases hr : s.row with
          | none => exact Or.inl rfl
          | some r => exact Or.inr ⟨rfl, r, rfl, hs r hr⟩ }

end Follows

theorem started_answer {s : Store} {a : Answer} {p : Nat} (hp : p ≠ a.poll) :
    (s.answer a).started p = s.started p := by
  have hne : (a.poll == p) = false := beq_false_of_ne (Ne.symm hp)
  unfold Store.started Store.answer
  dsimp only
  rw [Function.update_of_ne hp, List.any_append, List.any_cons, hne, Bool.false_or, List.any_nil,
    Bool.or_false]

theorem started_step {b : Backend} {s : Store} {e : Event} {p : Nat} (hp : e.op.poll ≠ some p) :
    (step b s e).started p = s.started p := by
  obtain ⟨now, op⟩ := e
  cases op with
  | createPending uri ttl =>
    change (s.createPending now uri ttl).started p = _
    unfold Store.createPending
    split
    · rfl
    · rfl
  | findByPairId =>
    change (s.findByPairId b now).started p = _
    unfold Store.findByPairId
    split
    · rfl
    · rfl
  | markCompleted url =>
    change (s.mark b now _).started p = _
    unfold Store.mark
    split
    · split
      · rfl
      · rfl
    · rfl
  | markFailed error =>
    change (s.mark b now _).started p = _
    unfold Store.mark
    split
    · split
      · rfl
      · rfl
    · rfl
  | expire =>
    change (s.expire now).started p = _
    unfold Store.expire
    split
    · split
      · rfl
      · rfl
    · rfl
  | read x =>
    have hne : p ≠ x := fun h => hp (congrArg some h.symm)
    change (s.read b now x).started p = _
    unfold Store.read
    split
    · rfl
    split
    · exact started_answer hne
    · split
      · exact started_answer hne
      · unfold Store.started
        dsimp only
        rw [Function.update_of_ne hne]
  | take x =>
    have hne : p ≠ x := fun h => hp (congrArg some h.symm)
    have hrow : ∀ row a, a.poll = x → (Store.answer { s with row := row } a).started p = s.started p := by
      intro row a ha
      rw [started_answer (by rw [ha]; exact hne)]
      rfl
    change (s.take b now x).started p = _
    unfold Store.take
    split
    · rfl
    · cases b with
      | mongo => exact hrow _ _ rfl
      | pg =>
        dsimp only
        split
        · exact hrow _ _ rfl
        · exact hrow _ _ rfl

theorem started_run {b : Backend} {s : Store} {es : List Event} {p : Nat}
    (hp : ∀ e ∈ es, e.op.poll ≠ some p) : (run b s es).started p = s.started p := by
  induction es generalizing s with
  | nil => rfl
  | cons e es ih =>
    exact (ih fun e he => hp e (List.mem_cons_of_mem _ he)).trans
      (started_step (hp e (List.mem_cons_self ..)))

-- A run of Mongo up to time `t`, whose row was last gone after `es`.
structure Script (t : Int) (es fs : List Event) (gap : Int) : Prop where
  early : Orderly .mongo .empty es
  late : Orderly .mongo (run .mongo .empty es) fs
  gone : (run .mongo .empty es).row = none
  before : ∀ e ∈ es, e.now ≤ gap
  after : ∀ e ∈ fs, gap ≤ e.now ∧ e.now ≤ t
  gap_le : gap ≤ t
  sorted : es.Pairwise fun e f => e.now ≤ f.now
  sorted_late : fs.Pairwise fun e f => e.now ≤ f.now

namespace Script

variable {t gap now : Int} {es fs ds : List Event}

theorem push (h : Script t es fs gap) (hle : t ≤ now) (hat : ∀ e ∈ ds, e.now = now)
    (ho : Orderly .mongo (run .mongo (run .mongo .empty es) fs) ds) : Script now es (fs ++ ds) gap :=
  { h with
    late := orderly_append.mpr ⟨h.late, ho⟩
    after := fun e he => by
      have hgap := h.gap_le
      rcases List.mem_append.mp he with he | he
      · obtain ⟨h1, h2⟩ := h.after e he
        exact ⟨h1, Int.le_trans h2 hle⟩
      · have hnow := hat e he
        exact ⟨by omega, by omega⟩
    gap_le := Int.le_trans h.gap_le hle
    sorted_late := by
      refine List.pairwise_append.mpr ⟨h.sorted_late, ?_, fun e he f hf => ?_⟩
      · exact List.pairwise_of_forall_mem_list fun e he f hf =>
          Int.le_of_eq ((hat e he).trans (hat f hf).symm)
      · rw [hat f hf]
        exact Int.le_trans (h.after e he).2 hle }

theorem rebase (h : Script t es fs gap) (hv : (run .mongo (run .mongo .empty es) fs).row = none) :
    Script t (es ++ fs) [] t where
  early := orderly_append.mpr ⟨h.early, h.late⟩
  late := trivial
  gone := by
    rw [run_append]
    exact hv
  before := fun e he => by
    rcases List.mem_append.mp he with he | he
    · exact Int.le_trans (h.before e he) h.gap_le
    · exact (h.after e he).2
  after := fun _ h => nomatch h
  gap_le := Int.le_refl _
  sorted := List.pairwise_append.mpr ⟨h.sorted, h.sorted_late, fun e he f hf =>
    Int.le_trans (h.before e he) (h.after f hf).1⟩
  sorted_late := .nil

end Script

-- The script stands for what Postgres has done by time `t`.
structure Replay (s : Store) (t : Int) (es fs : List Event) (gap : Int) : Prop where
  script : Script t es fs gap
  follows : Follows s (run .mongo (run .mongo .empty es) fs) t gap
  mentioned : ∀ e ∈ es ++ fs, ∀ p, e.op.poll = some p → ∃ a ∈ s.answers, a.poll = p

namespace Replay

variable {s s' : Store} {t gap now : Int} {es fs ds : List Event} {p : Nat} {began : Int}

theorem start (t : Int) : Replay .empty t [] [] t where
  script :=
    { early := trivial
      late := trivial
      gone := rfl
      before := fun _ h => nomatch h
      after := fun _ h => nomatch h
      gap_le := Int.le_refl _
      sorted := .nil
      sorted_late := .nil }
  follows :=
    { idle := fun _ => rfl
      row := Or.inl rfl
      next := rfl
      marks := rfl
      answers := ⟨fun _ h => (nomatch h), fun _ h => (nomatch h)⟩
      held := fun _ _ h => nomatch h }
  mentioned := fun _ h => nomatch h

theorem mention (h : Replay s t es fs gap) (hold : ∀ a ∈ s.answers, ∃ a' ∈ s'.answers, a'.poll = a.poll)
    (hnew : ∀ e ∈ ds, ∀ p, e.op.poll = some p → ∃ a ∈ s'.answers, a.poll = p) :
    ∀ e ∈ es ++ (fs ++ ds), ∀ p, e.op.poll = some p → ∃ a ∈ s'.answers, a.poll = p := by
  intro e he p hp
  rw [← List.append_assoc] at he
  rcases List.mem_append.mp he with he | he
  · obtain ⟨a, ha, hap⟩ := h.mentioned e he p hp
    obtain ⟨a', ha', heq⟩ := hold a ha
    exact ⟨a', ha', heq.trans hap⟩
  · exact hnew e he p hp

theorem push (h : Replay s t es fs gap) (hle : t ≤ now) (hat : ∀ e ∈ ds, e.now = now)
    (ho : Orderly .mongo (run .mongo (run .mongo .empty es) fs) ds)
    (hf : Follows s' (run .mongo (run .mongo (run .mongo .empty es) fs) ds) now gap)
    (hold : ∀ a ∈ s.answers, ∃ a' ∈ s'.answers, a'.poll = a.poll)
    (hnew : ∀ e ∈ ds, ∀ p, e.op.poll = some p → ∃ a ∈ s'.answers, a.poll = p) :
    Replay s' now es (fs ++ ds) gap where
  script := h.script.push hle hat ho
  follows := by
    rw [run_append]
    exact hf
  mentioned := h.mention hold hnew

theorem push_gone (h : Replay s t es fs gap) (hle : t ≤ now) (hat : ∀ e ∈ ds, e.now = now)
    (ho : Orderly .mongo (run .mongo (run .mongo .empty es) fs) ds)
    (hgone : (run .mongo (run .mongo (run .mongo .empty es) fs) ds).row = none)
    (hf : Follows s' (run .mongo (run .mongo (run .mongo .empty es) fs) ds) now now)
    (hold : ∀ a ∈ s.answers, ∃ a' ∈ s'.answers, a'.poll = a.poll)
    (hnew : ∀ e ∈ ds, ∀ p, e.op.poll = some p → ∃ a ∈ s'.answers, a.poll = p) :
    Replay s' now (es ++ (fs ++ ds)) [] now where
  script := by
    refine (h.script.push hle hat ho).rebase ?_
    rw [run_append]
    exact hgone
  follows := by
    rw [run_append, run_append]
    exact hf
  mentioned := by
    rw [List.append_nil]
    exact h.mention hold hnew

theorem rebase (h : Replay s t es fs gap) (hv : (run .mongo (run .mongo .empty es) fs).row = none) :
    Replay s t (es ++ fs) [] t where
  script := h.script.rebase hv
  follows := by
    rw [run_append]
    exact h.follows.regap
  mentioned := by
    rw [List.append_nil]
    exact h.mentioned

-- A poll that found its row replaced is answered when the row was gone.
theorem insert (h : Replay s t es fs gap) (hle : t ≤ now) (hp : ∀ a ∈ s.answers, a.poll ≠ p)
    (hb : began ≤ gap) :
    Replay (s.answer ⟨p, began, now, .expired, none⟩) now (es ++ [⟨gap, .read p⟩]) fs gap := by
  have hfree : ∀ e ∈ es ++ fs, e.op.poll ≠ some p := fun e he heq => by
    obtain ⟨a, ha, hap⟩ := h.mentioned e he p heq
    exact hp a ha hap
  have hidle : (run .mongo .empty es).started p = false :=
    started_run fun e he => hfree e (List.mem_append_left _ he)
  have hpoll : (run .mongo .empty es).polls p = none :=
    (Sound.of_not_started (by rw [hidle]; exact Bool.false_ne_true)).1
  have hread : run .mongo .empty (es ++ [⟨gap, .read p⟩]) =
      (run .mongo .empty es).answer ⟨p, gap, gap, .expired, none⟩ := by
    rw [run_append]
    change (run .mongo .empty es).read .mongo gap p = _
    exact read_gone hidle h.script.gone
  have haside : Aside ⟨p, gap, gap, .expired, none⟩ (run .mongo .empty es)
      (run .mongo .empty (es ++ [⟨gap, .read p⟩])) := by
    refine ⟨(run .mongo .empty es).answers, [], (List.append_nil _).symm, ?_⟩
    rw [hread]
    unfold Store.answer
    dsimp only
    rw [← hpoll, Function.update_eq_self]
  obtain ⟨hrun, horderly⟩ := haside.run (b := .mongo) (fun e he => hfree e (List.mem_append_right _ he))
  obtain ⟨l, l', hl, hl'⟩ := hrun
  have hgap := h.script.gap_le
  have hwithin : Within ⟨p, began, now, .expired, none⟩ ⟨p, gap, gap, .expired, none⟩ :=
    ⟨rfl, rfl, hb, Int.le_trans hgap hle⟩
  exact
    { script :=
        { early := by
            refine orderly_append.mpr ⟨h.script.early, fun r hr => ?_, trivial⟩
            rw [h.script.gone] at hr
            cases hr
          late := horderly h.script.late
          gone := by
            rw [hread]
            exact h.script.gone
          before := fun e he => by
            rcases List.mem_append.mp he with he | he
            · exact h.script.before e he
            · obtain rfl := List.mem_singleton.mp he
              exact Int.le_refl _
          after := fun e he => ⟨(h.script.after e he).1, Int.le_trans (h.script.after e he).2 hle⟩
          gap_le := Int.le_trans hgap hle
          sorted := List.pairwise_append.mpr ⟨h.script.sorted, List.pairwise_singleton _ _,
            fun e he f hf => by
              obtain rfl := List.mem_singleton.mp hf
              exact h.script.before e he⟩
          sorted_late := h.script.sorted_late }
      follows := by
        have hf := h.follows.later hle
        rw [hl']
        exact
          { idle := hf.idle
            row := hf.row
            next := hf.next
            marks := hf.marks
            answers := by
              have hagree := hf.answers
              rw [hl] at hagree
              exact hagree.snoc hwithin rfl
            held := fun p q hq => hf.held p q (Sound.polls_answer hq).2 }
      mentioned := fun e he x hx => by
        have hin : e ∈ es ++ fs ∨ e = ⟨gap, .read p⟩ := by
          rcases List.mem_append.mp he with he | he
          · exact (List.mem_append.mp he).imp (List.mem_append_left _) List.mem_singleton.mp
          · exact Or.inl (List.mem_append_right _ he)
        rcases hin with hin | rfl
        · obtain ⟨a, ha, hap⟩ := h.mentioned e hin x hx
          exact ⟨a, List.mem_append_left _ ha, hap⟩
        · obtain rfl := Option.some.inj hx
          exact ⟨_, List.mem_append_right _ (List.mem_singleton_self _), rfl⟩ }

theorem rest (h : Replay s t es fs gap) (hle : t ≤ now)
    (hf : Follows s' (run .mongo (run .mongo .empty es) fs) now gap)
    (hold : ∀ a ∈ s.answers, ∃ a' ∈ s'.answers, a'.poll = a.poll) : Replay s' now es fs gap := by
  have hpush := @push s s' t gap now es fs [] h hle (fun _ h => nomatch h) trivial hf hold
    (fun _ h => nomatch h)
  rwa [List.append_nil] at hpush

theorem later (h : Replay s t es fs gap) (hle : t ≤ now) : Replay s now es fs gap :=
  h.rest hle (h.follows.later hle) fun a ha => ⟨a, ha, rfl⟩

theorem createPending (h : Replay s t es fs gap) (hle : t ≤ now) {uri : Text} {ttl : Int} :
    ∃ es' fs' gap', Replay (s.createPending now uri ttl) now es' fs' gap' := by
  cases hr : s.row with
  | some r =>
    have hsame : s.createPending now uri ttl = s := by
      unfold Store.createPending
      rw [hr]
    rw [hsame]
    exact ⟨_, _, _, h.later hle⟩
  | none =>
    have hbase := h.rebase (h.follows.gone hr)
    have hanswers : (s.createPending now uri ttl).answers = s.answers := by
      unfold Store.createPending
      rw [hr]
    refine ⟨_, _, _, @push s _ t _ now _ _ [⟨now, .createPending uri ttl⟩] hbase hle ?_ ⟨trivial, trivial⟩
      ((hbase.follows.createPending hr).later hle) (fun a ha => ⟨a, hanswers ▸ ha, rfl⟩) ?_⟩
    · exact fun e he => by rw [List.mem_singleton.mp he]
    · intro e he p hp
      rw [List.mem_singleton.mp he] at hp
      cases hp

theorem mark (h : Replay s t es fs gap) (hsound : Sound s) (hle : t ≤ now) (f : Pairing → Pairing) (op : Op)
    (hop : ∀ v, Auth.step .mongo v ⟨now, op⟩ = v.mark .mongo now f) (hpoll : op.poll = none)
    (htimely : ∀ v : Store, (∀ r ∈ v.row, now < r.expiresAt) → Timely .mongo v ⟨now, op⟩) :
    ∃ es' fs' gap', Replay (s.mark .pg now f) now es' fs' gap' := by
  have hcase : (∃ r, s.row = some r ∧ now < r.expiresAt ∧ r.status = .pending) ∨ s.mark .pg now f = s := by
    unfold Store.mark
    cases hsees : Backend.sees .pg now s.row with
    | none => exact Or.inr rfl
    | some r =>
      obtain ⟨hr, hnow⟩ := mem_of_sees hsees
      by_cases hp : r.status = .pending
      · exact Or.inl ⟨r, hr, hnow rfl, hp⟩
      · exact Or.inr (if_neg hp)
  rcases hcase with ⟨r, hr, hnow, hp⟩ | hsame
  · have hv := h.follows.live hle hr hnow
    have hanswers : (s.mark .pg now f).answers = s.answers := by
      unfold Store.mark
      split
      · split
        · rfl
        · rfl
      · rfl
    have hf := (h.follows.mark hle hsound f hr hnow hp).later hle
    rw [← hop] at hf
    refine ⟨_, _, _, @push s _ t _ now _ _ [⟨now, op⟩] h hle ?_ ⟨htimely _ ?_, trivial⟩ hf
      (fun a ha => ⟨a, hanswers ▸ ha, rfl⟩) ?_⟩
    · exact fun e he => by rw [List.mem_singleton.mp he]
    · intro r' hr'
      cases hv.symm.trans hr'
      exact hnow
    · intro e he p hp
      rw [List.mem_singleton.mp he] at hp
      cases hpoll.symm.trans hp
  · rw [hsame]
    exact ⟨_, _, _, h.later hle⟩

theorem expire (h : Replay s t es fs gap) (hle : t ≤ now) :
    ∃ es' fs' gap', Replay (s.expire now) now es' fs' gap' := by
  have hcase : (∀ r, s.row = some r → r.expiresAt ≤ now) ∧ s.expire now = { s with row := none } ∨
      s.expire now = s := by
    unfold Store.expire
    cases hr : s.row with
    | none => exact Or.inr rfl
    | some r =>
      dsimp only
      split
      · rename_i hexp
        refine Or.inl ⟨fun r' hr' => ?_, rfl⟩
        obtain rfl := Option.some.inj hr'
        exact hexp
      · exact Or.inr rfl
  rcases hcase with ⟨hexp, heq⟩ | hsame
  · obtain ⟨hv, hf⟩ := h.follows.expired hle hexp
    rw [heq]
    refine ⟨_, _, _, @push_gone s _ t _ now _ _ [⟨now, .expire⟩] h hle ?_ ⟨trivial, trivial⟩ ?_ ?_
      (fun a ha => ⟨a, ha, rfl⟩) ?_⟩
    · exact fun e he => by rw [List.mem_singleton.mp he]
    · change (Store.expire _ now).row = none
      rw [hv]
    · change Follows _ (Store.expire _ now) now now
      rw [hv]
      exact
        { hf.regap with
          row := Or.inl rfl
          held := fun p q hq => ⟨(hf.held p q hq).1, Or.inr (hf.held p q hq).1⟩ }
    · intro e he p hp
      rw [List.mem_singleton.mp he] at hp
      cases hp
  · rw [hsame]
    exact ⟨_, _, _, h.later hle⟩

theorem read (h : Replay s t es fs gap) (hle : t ≤ now) :
    ∃ es' fs' gap', Replay (s.read .pg now p) now es' fs' gap' := by
  by_cases hstarted : s.started p = true
  · have hsame : s.read .pg now p = s := if_pos hstarted
    rw [hsame]
    exact ⟨_, _, _, h.later hle⟩
  obtain ⟨hfree, hnew⟩ := Sound.of_not_started hstarted
  have hidle := h.follows.not_started hnew
  have hstarted' : s.started p = false := Bool.not_eq_true _ ▸ hstarted
  have hmine : ∀ e ∈ [(⟨now, .read p⟩ : Event)], ∀ x, e.op.poll = some x → ∀ a : Answer, a.poll = p →
      ∃ a' ∈ (s.answer a).answers, a'.poll = x := fun e he x hx a ha => by
    rw [List.mem_singleton.mp he] at hx
    obtain rfl := Option.some.inj hx
    exact ⟨a, List.mem_append_right _ (List.mem_singleton_self _), ha⟩
  cases hsees : Backend.sees .pg now s.row with
  | none =>
    have hexp : ∀ r, s.row = some r → r.expiresAt ≤ now := fun r hr => by
      change s.row.filter _ = none at hsees
      rw [hr, Option.filter_some] at hsees
      by_contra hlive
      rw [if_pos (decide_eq_true (by omega))] at hsees
      cases hsees
    obtain ⟨hv, hf⟩ := h.follows.expired hle hexp
    rw [read_gone hstarted' hsees]
    refine ⟨_, _, _, @push s _ t _ now _ _ [⟨now, .expire⟩, ⟨now, .read p⟩] h hle ?_ ⟨trivial, ?_, trivial⟩ ?_
      (fun a ha => ⟨a, List.mem_append_left _ ha, rfl⟩) ?_⟩
    · intro e he
      rcases List.mem_cons.mp he with rfl | he
      · rfl
      · rw [List.mem_singleton.mp he]
    · change ∀ r ∈ (Store.expire _ now).row, now < r.expiresAt
      rw [hv]
      exact fun r hr => nomatch hr
    · change Follows _ (Store.read .mongo (Store.expire _ now) now p) now gap
      have hidle' : Store.started { run .mongo (run .mongo .empty es) fs with row := none } p = false := hidle
      rw [hv, read_gone hidle' rfl]
      exact hf.answer ⟨rfl, rfl, Int.le_refl _, Int.le_refl _⟩
    · intro e he x hx
      rcases List.mem_cons.mp he with rfl | he
      · cases hx
      · exact hmine e he x hx _ rfl
  | some r =>
    obtain ⟨hr, hnow⟩ := mem_of_sees hsees
    by_cases hp : r.status = .pending
    · have hv := h.follows.live hle hr (hnow rfl)
      rw [read_pending hstarted' hsees hp]
      refine ⟨_, _, _, @push s _ t _ now _ _ [⟨now, .read p⟩] h hle ?_ ⟨?_, trivial⟩ ?_
        (fun a ha => ⟨a, List.mem_append_left _ ha, rfl⟩) fun e he x hx => hmine e he x hx _ rfl⟩
      · exact fun e he => by rw [List.mem_singleton.mp he]
      · intro r' hr'
        cases hv.symm.trans hr'
        exact hnow rfl
      · change Follows _ (Store.read .mongo _ now p) now gap
        rw [@read_pending .mongo _ now r p hidle hv hp]
        exact (h.follows.later hle).answer ⟨rfl, rfl, Int.le_refl _, Int.le_refl _⟩
    · have hf := h.follows.later hle
      rw [read_terminal hstarted' hsees hp]
      refine ⟨_, _, _, h.rest hle ?_ fun a ha => ⟨a, ha, rfl⟩⟩
      exact
        { hf with
          held := fun x q hq => by
            by_cases hx : x = p
            · subst hx
              obtain rfl := Option.some.inj ((Function.update_self x _ s.polls).symm.trans hq)
              exact ⟨Int.le_refl _, Or.inl hr⟩
            · exact hf.held x q ((Function.update_of_ne hx _ s.polls).symm.trans hq) }

theorem take (h : Replay s t es fs gap) (hsound : Sound s) (hle : t ≤ now)
    (ht : Timely .pg s ⟨now, .take p⟩) : ∃ es' fs' gap', Replay (s.take .pg now p) now es' fs' gap' := by
  cases hq : s.polls p with
  | none =>
    have hsame : s.take .pg now p = s := by
      unfold Store.take
      rw [hq]
    rw [hsame]
    exact ⟨_, _, _, h.later hle⟩
  | some q =>
    have hnew := hsound.waiting p q hq
    obtain ⟨hbegan, hwhere⟩ := h.follows.held p q hq
    have hidle := h.follows.not_started hnew
    by_cases hhit : ∃ r, s.row = some r ∧ r.status = q.doc.status
    · obtain ⟨r, hr, hs⟩ := hhit
      have hnow := ht q hq r hr hs
      have hterm : r.status ≠ .pending := hs ▸ (hsound.held p q hq).1
      have hv := h.follows.live hle hr hnow
      have hf := h.follows.later hle
      rw [take_hit hq hr hs]
      have hread := @read_terminal .mongo _ now r p hidle hv hterm
      have htake := @read_take _ now r p hidle hv hterm
      refine ⟨_, _, _, @push_gone s _ t _ now _ _ [⟨now, .read p⟩, ⟨now, .take p⟩] h hle ?_ ⟨?_, ?_, trivial⟩
        ?_ ?_ (fun a ha => ⟨a, List.mem_append_left _ ha, rfl⟩) ?_⟩
      · intro e he
        rcases List.mem_cons.mp he with rfl | he
        · rfl
        · rw [List.mem_singleton.mp he]
      · intro r' hr'
        cases hv.symm.trans hr'
        exact hnow
      · change ∀ q ∈ (Store.read .mongo _ now p).polls p, ∃ r ∈ (Store.read .mongo _ now p).row, _
        rw [hread]
        intro q' hq'
        obtain rfl := Option.some.inj ((Function.update_self p _ _).symm.trans hq')
        exact ⟨r, hv, rfl, hnow⟩
      · change (Store.take .mongo (Store.read .mongo _ now p) now p).row = none
        rw [htake]
        rfl
      · change Follows _ (Store.take .mongo (Store.read .mongo _ now p) now p) now now
        rw [htake]
        have hgone : Follows { s with row := none }
            { run .mongo (run .mongo .empty es) fs with row := none } now now :=
          { hf.regap with
            row := Or.inl rfl
            held := fun p q hq => ⟨(hf.held p q hq).1, Or.inr (hf.held p q hq).1⟩ }
        exact hgone.answer ⟨rfl, rfl, Int.le_trans hbegan hle, Int.le_refl _⟩
      · intro e he x hx
        refine ⟨_, List.mem_append_right _ (List.mem_singleton_self _), ?_⟩
        rcases List.mem_cons.mp he with rfl | he
        · exact Option.some.inj hx
        · rw [List.mem_singleton.mp he] at hx
          exact Option.some.inj hx
    · have hmiss : ∀ r, s.row = some r → r.status ≠ q.doc.status := fun r hr hs => hhit ⟨r, hr, hs⟩
      rw [take_miss hq hmiss]
      cases hr : s.row with
      | none =>
        have hv := h.follows.gone hr
        refine ⟨_, _, _, @push s _ t _ now _ _ [⟨now, .read p⟩] h hle ?_ ⟨?_, trivial⟩ ?_
          (fun a ha => ⟨a, List.mem_append_left _ ha, rfl⟩) ?_⟩
        · exact fun e he => by rw [List.mem_singleton.mp he]
        · intro r' hr'
          cases hv.symm.trans hr'
        · change Follows _ (Store.read .mongo _ now p) now gap
          rw [@read_gone .mongo _ now p hidle hv]
          exact (h.follows.later hle).answer ⟨rfl, rfl, Int.le_trans hbegan hle, Int.le_refl _⟩
        · intro e he x hx
          rw [List.mem_singleton.mp he] at hx
          obtain rfl := Option.some.inj hx
          exact ⟨_, List.mem_append_right _ (List.mem_singleton_self _), rfl⟩
      | some r =>
        rcases hwhere with hown | hgap
        · exact absurd rfl (hmiss _ hown)
        · exact ⟨_, _, _, h.insert hle hnew hgap⟩

theorem step (h : Replay s t es fs gap) (hsound : Sound s) {e : Event} (hle : t ≤ e.now)
    (ht : Timely .pg s e) : ∃ es' fs' gap', Replay (Auth.step .pg s e) e.now es' fs' gap' := by
  obtain ⟨now, op⟩ := e
  cases op with
  | createPending uri ttl => exact h.createPending hle
  | findByPairId =>
    have hf : Follows (s.findByPairId .pg now) (run .mongo (run .mongo .empty es) fs) now gap ∧
        (s.findByPairId .pg now).answers = s.answers := by
      have hlater := h.follows.later hle
      unfold Store.findByPairId
      split
      · exact ⟨{ hlater with idle := hlater.idle }, rfl⟩
      · exact ⟨hlater, rfl⟩
    exact ⟨_, _, _, h.rest hle hf.1 fun a ha => ⟨a, hf.2 ▸ ha, rfl⟩⟩
  | markCompleted url => exact h.mark hsound hle _ (.markCompleted url) (fun _ => rfl) rfl fun _ h => h
  | markFailed error => exact h.mark hsound hle _ (.markFailed error) (fun _ => rfl) rfl fun _ h => h
  | expire => exact h.expire hle
  | read p => exact h.read hle
  | take p => exact h.take hsound hle ht

theorem run (h : Replay s t es fs gap) (hsound : Sound s) {xs : List Event} (ho : Orderly .pg s xs)
    (hfrom : ∀ e ∈ xs, t ≤ e.now) (hsorted : xs.Pairwise fun e f => e.now ≤ f.now) :
    ∃ t' es' fs' gap', Replay (Auth.run .pg s xs) t' es' fs' gap' := by
  induction xs generalizing s t es fs gap with
  | nil => exact ⟨_, _, _, _, h⟩
  | cons e xs ih =>
    obtain ⟨hfirst, hrest⟩ := List.pairwise_cons.mp hsorted
    obtain ⟨es', fs', gap', hstep⟩ := h.step hsound (hfrom e (List.mem_cons_self ..)) ho.1
    exact ih hstep (hsound.step ho.1) ho.2 hfirst hrest

end Replay

-- Of each row at most one call gets the payload, which the only mark of the row has set, and no call
-- gets a row past its time.
structure SingleUse (s : Store) : Prop where
  once : ((s.answers.filterMap Answer.source).map Pairing.id).Nodup
  first : (s.marks.map Pairing.id).Nodup
  taken : ∀ a ∈ s.answers, ∀ r, a.source = some r → r ∈ s.marks ∧ a.reply = r.reply ∧ a.ended < r.expiresAt
  unpaid : ∀ a ∈ s.answers, a.source = none → a.reply = .expired ∨ a.reply = .pending
  finds : ∀ f ∈ s.finds, f.1 < f.2.expiresAt

-- Both backends hand a payload out once, and they allow the same outcomes.
theorem pairing_single_use (b : Backend) (es : List Event) (ho : Orderly b .empty es) :
    SingleUse (run b .empty es) ∧
    (b = .mongo → Orderly .pg .empty es ∧ run .pg .empty es = run .mongo .empty es) ∧
    (b = .pg → (es.Pairwise fun e f => e.now ≤ f.now) → ∃ es', (es'.Pairwise fun e f => e.now ≤ f.now) ∧
      Orderly .mongo .empty es' ∧ Agree (run .pg .empty es).answers (run .mongo .empty es').answers ∧
      (run .mongo .empty es').marks = (run .pg .empty es).marks) := by
  have hsound := Sound.empty.run ho
  refine ⟨?_, ?_, ?_⟩
  · exact
      { once := hsound.once
        first := hsound.marks
        taken := fun a ha r hr => by
          obtain ⟨h1, h2, h3, -⟩ := hsound.taken a ha r hr
          exact ⟨h1, h2, h3⟩
        unpaid := hsound.unpaid
        finds := hsound.finds }
  · rintro rfl
    exact run_alike Sound.empty ho
  · rintro rfl hsorted
    cases es with
    | nil => exact ⟨[], .nil, trivial, ⟨fun _ h => (nomatch h), fun _ h => (nomatch h)⟩, rfl⟩
    | cons e es =>
      have hfrom : ∀ f ∈ e :: es, e.now ≤ f.now := fun f hf => by
        rcases List.mem_cons.mp hf with rfl | hf
        · exact Int.le_refl _
        · exact (List.pairwise_cons.mp hsorted).1 f hf
      obtain ⟨t, xs, ys, gap, h⟩ := (Replay.start e.now).run Sound.empty ho hfrom hsorted
      have hrun : run .mongo .empty (xs ++ ys) = run .mongo (run .mongo .empty xs) ys := run_append
      refine ⟨xs ++ ys, ?_, orderly_append.mpr ⟨h.script.early, h.script.late⟩, ?_, ?_⟩
      · exact List.pairwise_append.mpr ⟨h.script.sorted, h.script.sorted_late, fun e he f hf =>
          Int.le_trans (h.script.before e he) (h.script.after f hf).1⟩
      · rw [hrun]
        exact h.follows.answers
      · rw [hrun]
        exact h.follows.marks

def url : Text := Utf16.text "fbconnect://success"

def polledOnce : List Event :=
  [⟨0, .createPending [] 600⟩, ⟨1000, .markCompleted url⟩, ⟨2000, .read 1⟩, ⟨2001, .take 1⟩, ⟨4000, .read 2⟩]

theorem pairing_single_use_twice_polled : SingleUse (run .mongo .empty polledOnce) ∧
    (run .mongo .empty polledOnce).answers.map Answer.reply = [.completed (some url), .expired] := by
  refine ⟨(pairing_single_use .mongo polledOnce ⟨trivial, ?_, ?_, ?_, ?_, trivial⟩).1, by decide⟩
  · intro r hr
    cases hr
    decide
  · intro r hr
    cases hr
    decide
  · intro q hq
    cases hq
    exact ⟨_, rfl, rfl, by decide⟩
  · intro r hr
    cases hr

-- Both polls read the row before either deletes it.
def polledTwice : List Event :=
  [⟨0, .createPending [] 600⟩, ⟨1000, .markCompleted url⟩, ⟨2000, .read 1⟩, ⟨2000, .read 2⟩,
    ⟨2001, .take 1⟩, ⟨2001, .take 2⟩]

theorem payload_received_twice : ¬ ∀ b es, SingleUse (run b .empty es) := by
  intro hall
  have honce := (hall .mongo polledTwice).once
  revert honce
  decide

end Auth

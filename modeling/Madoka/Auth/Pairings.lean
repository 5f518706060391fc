import Mathlib.Data.List.Nodup
import Mathlib.Logic.Function.Basic
import Madoka.Lib.Utf16

namespace Auth

open Lib Utf16

inductive Status where
  | pending
  | completed
  | failed
  deriving DecidableEq, Repr

-- A document of `pairings`; `id` is its _id, which no statement of Postgres has.
structure Pairing where
  id : Nat
  redirectUri : Text
  status : Status
  redirectUrl : Option Text
  error : Option Text
  createdAt : Int
  expiresAt : Int
  deriving DecidableEq, Repr

inductive Backend where
  | mongo
  | pg
  deriving DecidableEq, Repr

inductive Reply where
  | expired
  | pending
  | completed (redirectUrl : Option Text)
  | failed (error : Option Text)
  deriving DecidableEq, Repr

-- A call of consumeIfCompleted between its two statements.
structure Poll where
  began : Int
  doc : Pairing
  deriving DecidableEq, Repr

-- What a call returned, and the row that a terminal payload was taken from.
structure Answer where
  poll : Nat
  began : Int
  ended : Int
  reply : Reply
  source : Option Pairing
  deriving DecidableEq, Repr

-- The row of one pair id, with the calls under way and what the calls have returned.
structure Store where
  row : Option Pairing
  next : Nat
  polls : Nat → Option Poll
  answers : List Answer
  finds : List (Int × Pairing)
  marks : List Pairing

def Store.empty : Store := ⟨none, 0, fun _ => none, [], [], []⟩

-- Postgres asks for expires_at > now(); in Mongo a row is there until the TTL monitor removes it.
def Backend.sees (b : Backend) (now : Int) (row : Option Pairing) : Option Pairing :=
  match b with
  | .mongo => row
  | .pg => row.filter fun r => decide (now < r.expiresAt)

def Pairing.reply (r : Pairing) : Reply :=
  match r.status with
  | .completed => .completed r.redirectUrl
  | .failed => .failed r.error
  | .pending => .expired

def Pairing.complete (url : Text) (r : Pairing) : Pairing :=
  { r with status := .completed, redirectUrl := some url }

def Pairing.fail (error : Text) (r : Pairing) : Pairing :=
  { r with status := .failed, error := some (error.take 200) }

namespace Store

variable (b : Backend) (s : Store) (now : Int)

-- The unique index on pair_id refuses a second row.
def createPending (uri : Text) (ttlSeconds : Int) : Store :=
  match s.row with
  | some _ => s
  | none =>
    { s with
      row := some ⟨s.next, uri, .pending, none, none, now, now + ttlSeconds * 1000⟩
      next := s.next + 1 }

def findByPairId : Store :=
  match b.sees now s.row with
  | some r => { s with finds := s.finds ++ [(now, r)] }
  | none => s

def mark (f : Pairing → Pairing) : Store :=
  match b.sees now s.row with
  | some r =>
    if r.status = .pending then { s with row := some (f r), marks := s.marks ++ [f r] } else s
  | none => s

def markCompleted (url : Text) : Store := s.mark b now (Pairing.complete url)

def markFailed (error : Text) : Store := s.mark b now (Pairing.fail error)

-- The TTL monitor, or the sweeper.
def expire : Store :=
  match s.row with
  | some r => if r.expiresAt ≤ now then { s with row := none } else s
  | none => s

def started (p : Nat) : Bool := (s.polls p).isSome || s.answers.any fun a => a.poll == p

def answer (a : Answer) : Store :=
  { s with answers := s.answers ++ [a], polls := Function.update s.polls a.poll none }

-- The first statement of consumeIfCompleted.
def read (p : Nat) : Store :=
  if s.started p then s
  else
    match b.sees now s.row with
    | none => s.answer ⟨p, now, now, .expired, none⟩
    | some r =>
      if r.status = .pending then s.answer ⟨p, now, now, .pending, none⟩
      else { s with polls := Function.update s.polls p (some ⟨now, r⟩) }

-- The second: deleteOne, whose result is not looked at, or DELETE .. RETURNING.
def take (p : Nat) : Store :=
  match s.polls p with
  | none => s
  | some q =>
    let hit := s.row.filter fun r => decide (r.status = q.doc.status)
    let s' := { s with row := if hit.isSome then none else s.row }
    match b with
    | .mongo => s'.answer ⟨p, q.began, now, q.doc.reply, some q.doc⟩
    | .pg =>
      match hit with
      | some r => s'.answer ⟨p, q.began, now, r.reply, some r⟩
      | none => s'.answer ⟨p, q.began, now, .expired, none⟩

end Store

inductive Op where
  | createPending (uri : Text) (ttlSeconds : Int)
  | findByPairId
  | markCompleted (url : Text)
  | markFailed (error : Text)
  | expire
  | read (p : Nat)
  | take (p : Nat)
  deriving DecidableEq, Repr

structure Event where
  now : Int
  op : Op
  deriving DecidableEq, Repr

def step (b : Backend) (s : Store) (e : Event) : Store :=
  match e.op with
  | .createPending uri ttl => s.createPending e.now uri ttl
  | .findByPairId => s.findByPairId b e.now
  | .markCompleted url => s.markCompleted b e.now url
  | .markFailed error => s.markFailed b e.now error
  | .expire => s.expire e.now
  | .read p => s.read b e.now p
  | .take p => s.take b e.now p

def run (b : Backend) (s : Store) (es : List Event) : Store := es.foldl (step b) s

-- Mongo reads no row past its time, and deletes the row that it has read; a row that Postgres
-- deletes for a poll is not past its time.
def Timely (b : Backend) (s : Store) (e : Event) : Prop :=
  match e.op, b with
  | .createPending _ _, _ => True
  | .expire, _ => True
  | .take p, .mongo => ∀ q ∈ s.polls p, ∃ r ∈ s.row, r.id = q.doc.id ∧ e.now < r.expiresAt
  | .take p, .pg => ∀ q ∈ s.polls p, ∀ r ∈ s.row, r.status = q.doc.status → e.now < r.expiresAt
  | _, .mongo => ∀ r ∈ s.row, e.now < r.expiresAt
  | _, .pg => True

def Orderly (b : Backend) : Store → List Event → Prop
  | _, [] => True
  | s, e :: es => Timely b s e ∧ Orderly b (step b s e) es

theorem mem_of_sees {b : Backend} {now : Int} {row : Option Pairing} {r : Pairing}
    (h : b.sees now row = some r) : row = some r ∧ (b = .pg → now < r.expiresAt) := by
  cases b with
  | mongo => exact ⟨h, fun h => nomatch h⟩
  | pg =>
    obtain ⟨hrow, hnow⟩ := Option.filter_eq_some_iff.mp h
    exact ⟨hrow, fun _ => of_decide_eq_true hnow⟩

structure Sound (s : Store) : Prop where
  fresh : ∀ r, s.row = some r → r.id < s.next
  marked : ∀ r, s.row = some r → r.status ≠ .pending → r ∈ s.marks
  unmarked : ∀ r, s.row = some r → r.status = .pending → ∀ r' ∈ s.marks, r'.id ≠ r.id
  minted : ∀ r ∈ s.marks, r.id < s.next
  held : ∀ p q, s.polls p = some q → q.doc.status ≠ .pending ∧ q.doc ∈ s.marks
  waiting : ∀ p q, s.polls p = some q → ∀ a ∈ s.answers, a.poll ≠ p
  taken : ∀ a ∈ s.answers, ∀ r, a.source = some r → r ∈ s.marks ∧ a.reply = r.reply ∧
    a.ended < r.expiresAt ∧ ∀ r', s.row = some r' → r'.id ≠ r.id
  unpaid : ∀ a ∈ s.answers, a.source = none → a.reply = .expired ∨ a.reply = .pending
  marks : (s.marks.map Pairing.id).Nodup
  once : ((s.answers.filterMap Answer.source).map Pairing.id).Nodup
  polled : (s.answers.map Answer.poll).Nodup
  finds : ∀ f ∈ s.finds, f.1 < f.2.expiresAt

namespace Sound

variable {b : Backend} {s : Store} {now : Int} {r : Pairing} {p : Nat}

theorem empty : Sound .empty where
  fresh := fun _ h => nomatch h
  marked := fun _ h => nomatch h
  unmarked := fun _ h => nomatch h
  minted := fun _ h => nomatch h
  held := fun _ _ h => nomatch h
  waiting := fun _ _ h => nomatch h
  taken := fun _ h => nomatch h
  unpaid := fun _ h => nomatch h
  marks := List.nodup_nil
  once := List.nodup_nil
  polled := List.nodup_nil
  finds := fun _ h => nomatch h

-- A terminal row never changes, so the same id is the same row.
theorem same (h : Sound s) {r' : Pairing} (hr : s.row = some r) (hr' : r' ∈ s.marks) (hid : r.id = r'.id) :
    r = r' := by
  have hterm : r.status ≠ .pending := fun hp => h.unmarked r hr hp r' hr' hid.symm
  exact List.inj_on_of_nodup_map h.marks (h.marked r hr hterm) hr' hid

theorem createPending (h : Sound s) {uri : Text} {ttl : Int} : Sound (s.createPending now uri ttl) := by
  unfold Store.createPending
  split
  · exact h
  · exact
      { h with
        fresh := fun r hr => by
          obtain rfl := Option.some.inj hr
          exact Nat.lt_succ_self _
        marked := fun r hr hterm => by
          obtain rfl := Option.some.inj hr
          exact absurd rfl hterm
        unmarked := fun r hr _ r' hr' => by
          obtain rfl := Option.some.inj hr
          exact Nat.ne_of_lt (h.minted r' hr')
        minted := fun r hr => Nat.lt_succ_of_lt (h.minted r hr)
        taken := fun a ha r hr => by
          obtain ⟨h1, h2, h3, -⟩ := h.taken a ha r hr
          refine ⟨h1, h2, h3, fun r' hr' => ?_⟩
          obtain rfl := Option.some.inj hr'
          exact Nat.ne_of_gt (h.minted r h1) }

theorem findByPairId (h : Sound s) (hseen : ∀ r, b.sees now s.row = some r → now < r.expiresAt) :
    Sound (s.findByPairId b now) := by
  unfold Store.findByPairId
  split
  · rename_i r hr
    exact
      { h with
        finds := fun f hf => by
          rcases List.mem_append.mp hf with hf | hf
          · exact h.finds f hf
          · obtain rfl := List.mem_singleton.mp hf
            exact hseen r hr }
  · exact h

theorem mark (h : Sound s) {f : Pairing → Pairing} (hid : ∀ r, (f r).id = r.id)
    (hterm : ∀ r, (f r).status ≠ .pending) : Sound (s.mark b now f) := by
  unfold Store.mark
  split
  · rename_i r hr
    have hrow := (mem_of_sees hr).1
    split
    · rename_i hpending
      have hnew := h.unmarked r hrow hpending
      exact
        { h with
          fresh := fun r' hr' => by
            obtain rfl := Option.some.inj hr'
            rw [hid]
            exact h.fresh r hrow
          marked := fun r' hr' _ => by
            obtain rfl := Option.some.inj hr'
            exact List.mem_append_right _ (List.mem_singleton_self _)
          unmarked := fun r' hr' hp => by
            obtain rfl := Option.some.inj hr'
            exact absurd hp (hterm r)
          minted := fun r' hr' => by
            rcases List.mem_append.mp hr' with hr' | hr'
            · exact h.minted r' hr'
            · obtain rfl := List.mem_singleton.mp hr'
              rw [hid]
              exact h.fresh r hrow
          held := fun p q hq => ⟨(h.held p q hq).1, List.mem_append_left _ (h.held p q hq).2⟩
          taken := fun a ha r' hr' => by
            obtain ⟨h1, h2, h3, h4⟩ := h.taken a ha r' hr'
            refine ⟨List.mem_append_left _ h1, h2, h3, fun r'' hr'' => ?_⟩
            obtain rfl := Option.some.inj hr''
            rw [hid]
            exact h4 r hrow
          marks := by
            rw [List.map_append, List.map_singleton, hid]
            refine h.marks.append (List.nodup_singleton _) fun x hx hx' => ?_
            obtain rfl := List.mem_singleton.mp hx'
            obtain ⟨r', hr', heq⟩ := List.mem_map.mp hx
            exact hnew r' hr' heq }
    · exact h
  · exact h

theorem drop (h : Sound s) : Sound { s with row := none } :=
  { h with
    fresh := fun _ hr => nomatch hr
    marked := fun _ hr => nomatch hr
    unmarked := fun _ hr => nomatch hr
    taken := fun a ha r hr => by
      obtain ⟨h1, h2, h3, -⟩ := h.taken a ha r hr
      exact ⟨h1, h2, h3, fun _ hr => nomatch hr⟩ }

theorem expire (h : Sound s) : Sound (s.expire now) := by
  unfold Store.expire
  split
  · split
    · exact h.drop
    · exact h
  · exact h

theorem polls_answer {a : Answer} {q : Poll} (h : (s.answer a).polls p = some q) :
    p ≠ a.poll ∧ s.polls p = some q := by
  change Function.update s.polls a.poll none p = some q at h
  by_cases hp : p = a.poll
  · subst hp
    rw [Function.update_self] at h
    cases h
  · rw [Function.update_of_ne hp] at h
    exact ⟨hp, h⟩

theorem answer (h : Sound s) {a : Answer} (hnew : ∀ a' ∈ s.answers, a'.poll ≠ a.poll)
    (hsource : ∀ r, a.source = some r → r ∈ s.marks ∧ a.reply = r.reply ∧ a.ended < r.expiresAt ∧
      (∀ r', s.row = some r' → r'.id ≠ r.id) ∧
      ∀ a' ∈ s.answers, ∀ r', a'.source = some r' → r'.id ≠ r.id)
    (hnone : a.source = none → a.reply = .expired ∨ a.reply = .pending) : Sound (s.answer a) where
  fresh := h.fresh
  marked := h.marked
  unmarked := h.unmarked
  minted := h.minted
  held := fun p q hq => h.held p q (polls_answer hq).2
  waiting := fun p q hq a' ha' => by
    obtain ⟨hp, hq'⟩ := polls_answer hq
    rcases List.mem_append.mp ha' with ha' | ha'
    · exact h.waiting p q hq' a' ha'
    · obtain rfl := List.mem_singleton.mp ha'
      exact Ne.symm hp
  taken := fun a' ha' r hr => by
    rcases List.mem_append.mp ha' with ha' | ha'
    · exact h.taken a' ha' r hr
    · obtain rfl := List.mem_singleton.mp ha'
      obtain ⟨h1, h2, h3, h4, -⟩ := hsource r hr
      exact ⟨h1, h2, h3, h4⟩
  unpaid := fun a' ha' hr => by
    rcases List.mem_append.mp ha' with ha' | ha'
    · exact h.unpaid a' ha' hr
    · obtain rfl := List.mem_singleton.mp ha'
      exact hnone hr
  marks := h.marks
  once := by
    change (((s.answers ++ [a]).filterMap Answer.source).map Pairing.id).Nodup
    rw [List.filterMap_append, List.map_append]
    cases hs : a.source with
    | none =>
      rw [List.filterMap_cons_none hs]
      simpa using h.once
    | some r =>
      rw [List.filterMap_cons_some hs]
      refine h.once.append (List.nodup_singleton _) fun x hx hx' => ?_
      obtain rfl := List.mem_singleton.mp hx'
      obtain ⟨r', hr', heq⟩ := List.mem_map.mp hx
      obtain ⟨a', ha', hr'⟩ := List.mem_filterMap.mp hr'
      exact (hsource r hs).2.2.2.2 a' ha' r' hr' heq
  polled := by
    change ((s.answers ++ [a]).map Answer.poll).Nodup
    rw [List.map_append]
    refine h.polled.append (List.nodup_singleton _) fun x hx hx' => ?_
    obtain rfl := List.mem_singleton.mp hx'
    obtain ⟨a', ha', heq⟩ := List.mem_map.mp hx
    exact hnew a' ha' heq
  finds := h.finds

theorem of_not_started (h : ¬ s.started p = true) : s.polls p = none ∧ ∀ a ∈ s.answers, a.poll ≠ p := by
  unfold Store.started at h
  rw [Bool.or_eq_true, not_or, List.any_eq_true] at h
  refine ⟨Option.not_isSome_iff_eq_none.mp h.1, fun a ha hp => h.2 ⟨a, ha, ?_⟩⟩
  rw [beq_iff_eq]
  exact hp

theorem read (h : Sound s) : Sound (s.read b now p) := by
  unfold Store.read
  split
  · exact h
  rename_i hstarted
  obtain ⟨hfree, hnew⟩ := of_not_started hstarted
  split
  · exact h.answer hnew (fun r hr => nomatch hr) fun _ => Or.inl rfl
  · rename_i r hr
    have hrow := (mem_of_sees hr).1
    split
    · exact h.answer hnew (fun r hr => nomatch hr) fun _ => Or.inr rfl
    · rename_i hterm
      exact
        { h with
          held := fun p' q hq => by
            by_cases hp : p' = p
            · subst hp
              obtain rfl := Option.some.inj ((Function.update_self p' _ s.polls).symm.trans hq)
              exact ⟨hterm, h.marked r hrow hterm⟩
            · exact h.held p' q ((Function.update_of_ne hp _ s.polls).symm.trans hq)
          waiting := fun p' q hq => by
            by_cases hp : p' = p
            · subst hp
              exact hnew
            · exact h.waiting p' q ((Function.update_of_ne hp _ s.polls).symm.trans hq) }

theorem consume (h : Sound s) (hr : s.row = some r) (hterm : r.status ≠ .pending) {began : Int}
    (hnew : ∀ a ∈ s.answers, a.poll ≠ p) (hnow : now < r.expiresAt) :
    Sound (Store.answer { s with row := none } ⟨p, began, now, r.reply, some r⟩) := by
  refine h.drop.answer hnew (fun r' hr' => ?_) fun hr' => nomatch hr'
  obtain rfl := Option.some.inj hr'
  refine ⟨h.marked r hr hterm, rfl, hnow, ?_, fun a ha r' hr' => Ne.symm ((h.taken a ha r' hr').2.2.2 r hr)⟩
  intro r' hn
  cases hn

end Sound

section steps

variable {b : Backend} {s : Store} {e : Event} {es : List Event} {now : Int} {r : Pairing} {p : Nat} {q : Poll}

theorem take_hit (hq : s.polls p = some q) (hr : s.row = some r) (hs : r.status = q.doc.status) :
    s.take b now p = Store.answer { s with row := none }
      (match b with
        | .mongo => ⟨p, q.began, now, q.doc.reply, some q.doc⟩
        | .pg => ⟨p, q.began, now, r.reply, some r⟩) := by
  have hhit : (s.row.filter fun r => decide (r.status = q.doc.status)) = some r := by
    rw [hr, Option.filter_some, if_pos (decide_eq_true hs)]
  unfold Store.take
  rw [hq]
  dsimp only
  rw [hhit]
  cases b with
  | mongo => rfl
  | pg => rfl

theorem take_miss (hq : s.polls p = some q) (hr : ∀ r, s.row = some r → r.status ≠ q.doc.status) :
    s.take .pg now p = s.answer ⟨p, q.began, now, .expired, none⟩ := by
  have hhit : (s.row.filter fun r => decide (r.status = q.doc.status)) = none := by
    cases hrow : s.row with
    | none => rfl
    | some r => rw [Option.filter_some, if_neg fun h => hr r hrow (of_decide_eq_true h)]
  unfold Store.take
  rw [hq]
  dsimp only
  rw [hhit]
  rfl

theorem take_own (h : Sound s) (hq : s.polls p = some q) (hr : s.row = some r) (hid : r.id = q.doc.id) :
    r = q.doc :=
  h.same hr (h.held p q hq).2 hid

theorem Sound.take (h : Sound s) (ht : Timely b s ⟨now, .take p⟩) : Sound (s.take b now p) := by
  cases hq : s.polls p with
  | none =>
    unfold Store.take
    rw [hq]
    exact h
  | some q =>
    have hnew := h.waiting p q hq
    obtain ⟨hterm, -⟩ := h.held p q hq
    cases b with
    | mongo =>
      obtain ⟨r, hr, hid, hnow⟩ := ht q hq
      have hown := take_own h hq hr hid
      rw [take_hit hq hr (congrArg Pairing.status hown), ← hown]
      exact h.consume hr (hown ▸ hterm) hnew hnow
    | pg =>
      cases hr : s.row with
      | none =>
        rw [take_miss hq fun r hr' => by rw [hr] at hr'; cases hr']
        exact h.answer hnew (fun r hr => nomatch hr) fun _ => Or.inl rfl
      | some r =>
        by_cases hs : r.status = q.doc.status
        · rw [take_hit hq hr hs]
          exact h.consume hr (hs ▸ hterm) hnew (ht q hq r hr hs)
        · rw [take_miss hq fun r' hr' => by rw [hr] at hr'; cases hr'; exact hs]
          exact h.answer hnew (fun r hr => nomatch hr) fun _ => Or.inl rfl

theorem sees_timely (ht : ∀ r ∈ s.row, now < r.expiresAt) : b.sees now s.row = s.row := by
  cases b with
  | mongo => rfl
  | pg =>
    change s.row.filter _ = _
    cases hr : s.row with
    | none => rfl
    | some r => rw [Option.filter_some, if_pos (decide_eq_true (ht r hr))]

theorem Sound.step (h : Sound s) (ht : Timely b s e) : Sound (step b s e) := by
  obtain ⟨now, op⟩ := e
  cases op with
  | createPending uri ttl => exact h.createPending
  | findByPairId =>
    refine h.findByPairId fun r hr => ?_
    obtain ⟨hrow, hnow⟩ := mem_of_sees hr
    cases b with
    | mongo => exact ht r hrow
    | pg => exact hnow rfl
  | markCompleted url => exact h.mark (fun _ => rfl) fun _ h => nomatch h
  | markFailed error => exact h.mark (fun _ => rfl) fun _ h => nomatch h
  | expire => exact h.expire
  | read p => exact h.read
  | take p => exact h.take ht

theorem Sound.run (h : Sound s) (ho : Orderly b s es) : Sound (run b s es) := by
  induction es generalizing s with
  | nil => exact h
  | cons e es ih => exact ih (h.step ho.1) ho.2

theorem step_alike (h : Sound s) (ht : Timely .mongo s e) :
    Timely .pg s e ∧ step .pg s e = step .mongo s e := by
  obtain ⟨now, op⟩ := e
  cases op with
  | createPending uri ttl => exact ⟨trivial, rfl⟩
  | findByPairId =>
    refine ⟨trivial, ?_⟩
    change s.findByPairId .pg now = s.findByPairId .mongo now
    unfold Store.findByPairId
    rw [sees_timely ht, sees_timely ht]
  | markCompleted url =>
    refine ⟨trivial, ?_⟩
    change s.mark .pg now _ = s.mark .mongo now _
    unfold Store.mark
    rw [sees_timely ht, sees_timely ht]
  | markFailed error =>
    refine ⟨trivial, ?_⟩
    change s.mark .pg now _ = s.mark .mongo now _
    unfold Store.mark
    rw [sees_timely ht, sees_timely ht]
  | expire => exact ⟨trivial, rfl⟩
  | read p =>
    refine ⟨trivial, ?_⟩
    change s.read .pg now p = s.read .mongo now p
    unfold Store.read
    rw [sees_timely ht, sees_timely ht]
  | take p =>
    cases hq : s.polls p with
    | none =>
      refine ⟨fun q hq' => ?_, ?_⟩
      · rw [hq] at hq'
        cases hq'
      · change s.take .pg now p = s.take .mongo now p
        unfold Store.take
        rw [hq]
    | some q =>
      obtain ⟨r, hr, hid, hnow⟩ := ht q hq
      have hown := take_own h hq hr hid
      have hs := congrArg Pairing.status hown
      refine ⟨fun q' hq' r' hr' _ => ?_, ?_⟩
      · cases hr.symm.trans hr'
        exact hnow
      · change s.take .pg now p = s.take .mongo now p
        rw [take_hit hq hr hs, take_hit hq hr hs, hown]

theorem run_alike (h : Sound s) (ho : Orderly .mongo s es) :
    Orderly .pg s es ∧ run .pg s es = run .mongo s es := by
  induction es generalizing s with
  | nil => exact ⟨trivial, rfl⟩
  | cons e es ih =>
    obtain ⟨ht, heq⟩ := step_alike h ho.1
    have hnext := ih (h.step ho.1) ho.2
    refine ⟨⟨ht, heq ▸ hnext.1⟩, ?_⟩
    change run .pg (step .pg s e) es = run .mongo (step .mongo s e) es
    rw [heq]
    exact hnext.2

end steps

end Auth

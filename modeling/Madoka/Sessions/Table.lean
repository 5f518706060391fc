import Madoka.Sessions.Socket

namespace Sessions

open Lib Function

variable {w : World} {st st' : State} {s uid now : Nat} {c : Conn} {e : Entry} {a : Event}

-- The table as the sockets have it: an entry is of an open socket, under the account that the
-- socket last authenticated as, and no socket has two.
structure Consistent (st : State) : Prop where
  live : ∀ uid e, st.sessions uid = some e →
    ∃ c, st.conns e.socket = some c ∧ c.closed = false ∧ ∃ e', c.entry = some e' ∧ e'.account.uid = uid
  once : ∀ uid uid' e e', st.sessions uid = some e → st.sessions uid' = some e' →
    e'.socket = e.socket → uid' = uid

-- A connection goes on: what it captured stays, and what goes down stays down.
structure Conn.Onward (c c' : Conn) : Prop where
  entry : c'.entry = c.entry
  closed : c'.closed = c.closed
  doomed : c.doomed = true → c'.doomed = true
  destroyed : c.destroyed = true → c'.destroyed = true

inductive Change (w : World) (st : State) : Event → State → Prop where
  | same {a : Event} : Change w st a st
  | opened {s : Nat} : st.conns s = none → Change w st (.connect s) (st.put s connection)
  | put {a : Event} {s : Nat} {c c' : Conn} : st.conns s = some c → c.Onward c' →
      Change w st a (st.put s c')
  | touched {a : Event} {s now : Nat} {c c' : Conn} : st.conns s = some c → c.Onward c' →
      Change w st a ((st.put s c').touch s now)
  | admitted {s now : Nat} {row : Option AuthAccount} {c : Conn} {f : ClientFrame} {account : Account} :
      st.conns s = some c → c.await = .isBanned f account → isBanned w account row = false →
        Change w st (.gate s row now) ((st.register ⟨s, account, f.region, now⟩).onConn s fun c =>
          { c with await := .idle, entry := some ⟨s, account, f.region, now⟩ })
  | closed {s : Nat} {c : Conn} {st' : State} : st.conns s = some c → c.closed = false →
      step w st (.close s) = some st' → Change w st (.close s) st'

theorem put_onConn {f : Conn → Conn} : (st.put s c).onConn s f = st.put s (f c) := by
  simp [State.onConn, State.put]

theorem change_onConn {f : Conn → Conn} (hf : ∀ c : Conn, c.Onward (f c)) : Change w st a (st.onConn s f) := by
  unfold State.onConn
  cases hc : st.conns s with
  | none => exact .same
  | some c => exact .put hc (hf c)

theorem change_proceed (hc : st.conns s = some c) (hs : proceed w st s now c = some st') :
    Change w st a st' := by
  unfold proceed at hs
  split at hs
  · cases hs
  · split at hs
    · rename_i f fs _
      obtain rfl := Option.some.inj hs
      unfold handleFrame
      split
      · exact .touched hc ⟨rfl, rfl, id, id⟩
      · split
        · rw [State.destroy, put_onConn]
          exact .put hc ⟨rfl, rfl, id, fun _ => rfl⟩
        · split
          · rw [State.destroy, put_onConn]
            exact .put hc ⟨rfl, rfl, id, fun _ => rfl⟩
          · rw [put_onConn]
            exact .put hc ⟨rfl, rfl, id, id⟩
      · exact .touched hc ⟨rfl, rfl, id, id⟩
    · obtain rfl := Option.some.inj hs
      exact .put hc ⟨rfl, rfl, id, id⟩
    · cases hs

theorem change_of_step (hs : Step w st a st') : Change w st a st' := by
  cases a with
  | connect s =>
    simp only [Step, step] at hs
    split at hs
    · rename_i hnew
      obtain rfl := Option.some.inj hs
      exact .opened hnew
    · cases hs
  | data s chunk =>
    obtain ⟨c, hc, hs⟩ := Option.bind_eq_some_iff.mp hs
    split at hs
    · cases hs
    · obtain rfl := Option.some.inj hs
      exact .put hc ⟨rfl, rfl, id, id⟩
  | next s now =>
    obtain ⟨c, hc, hs⟩ := Option.bind_eq_some_iff.mp hs
    exact change_proceed hc hs
  | token s account =>
    obtain ⟨c, hc, hs⟩ := Option.bind_eq_some_iff.mp hs
    split at hs
    · obtain rfl := Option.some.inj hs
      exact .put hc ⟨rfl, rfl, id, id⟩
    · obtain rfl := Option.some.inj hs
      exact .put hc ⟨rfl, rfl, id, fun _ => rfl⟩
    · cases hs
  | gate s row now =>
    obtain ⟨c, hc, hs⟩ := Option.bind_eq_some_iff.mp hs
    split at hs
    · rename_i f account hawait
      split at hs
      · obtain rfl := Option.some.inj hs
        exact .put hc ⟨rfl, rfl, fun _ => rfl, id⟩
      · rename_i hgate
        obtain rfl := Option.some.inj hs
        exact .admitted hc hawait (Bool.eq_false_iff.mpr hgate)
    · cases hs
  | reject s =>
    obtain ⟨c, hc, hs⟩ := Option.bind_eq_some_iff.mp hs
    split at hs
    · obtain rfl := Option.some.inj hs
      exact .put hc ⟨rfl, rfl, id, id⟩
    · cases hs
  | kick uid =>
    obtain ⟨e, -, rfl⟩ := Option.map_eq_some_iff.mp hs
    exact change_onConn fun c => ⟨rfl, rfl, fun _ => rfl, id⟩
  | timer s =>
    obtain ⟨c, hc, hs⟩ := Option.bind_eq_some_iff.mp hs
    split at hs
    · obtain rfl := Option.some.inj hs
      exact .put hc ⟨rfl, rfl, id, fun _ => rfl⟩
    · cases hs
  | close s =>
    obtain ⟨c, hc, hs'⟩ := Option.bind_eq_some_iff.mp hs
    split at hs'
    · cases hs'
    · rename_i hopen
      exact .closed hc (Bool.eq_false_iff.mpr hopen) hs

def Await.account : Await → Option Account
  | .isBanned _ account => some account
  | _ => none

-- An authentication that the gate lets through comes on a socket that is still open and is not in
-- the table as another account.
def Timely (w : World) (st : State) : Event → Prop
  | .gate s row _ => ∀ c ∈ st.conns s, ∀ account ∈ c.await.account, isBanned w account row = false →
      c.closed = false ∧ ∀ e ∈ c.entry, e.account.uid ≠ account.uid →
        (st.sessions e.account.uid).map Entry.socket ≠ some s
  | _ => True

instance (w : World) (st : State) (a : Event) : Decidable (Timely w st a) := by
  cases a <;> unfold Timely <;> infer_instance

def Quiet (st : State) : Prop :=
  ∀ s c, st.conns s = some c → c.await = .idle ∧ c.frames = [] ∧ c.chunks = []

-- The table and the connections hold the same objects.
structure Bound (st : State) : Prop where
  keyed : ∀ uid e, st.sessions uid = some e → e.account.uid = uid
  live : ∀ uid e, st.sessions uid = some e →
    ∃ c, st.conns e.socket = some c ∧ c.closed = false ∧ c.entry = some e
  own : ∀ s c e, st.conns s = some c → c.entry = some e → e.socket = s

theorem Bound.consistent (h : Bound st) : Consistent st := by
  constructor
  · intro uid e he
    obtain ⟨c, hc, hopen, hentry⟩ := h.live uid e he
    exact ⟨c, hc, hopen, e, hentry, h.keyed uid e he⟩
  · intro uid uid' e e' he he' hs
    obtain ⟨c, hc, -, hentry⟩ := h.live uid e he
    obtain ⟨c', hc', -, hentry'⟩ := h.live uid' e' he'
    rw [hs, hc] at hc'
    obtain rfl := Option.some.inj hc'
    obtain rfl := Option.some.inj (hentry.symm.trans hentry')
    rw [← h.keyed uid e he, h.keyed uid' e he']

def Same (st st' : State) : Prop :=
  st'.sessions = st.sessions ∧ ∀ s,
    (st'.conns s).map (fun c => (c.entry, c.closed)) = (st.conns s).map fun c => (c.entry, c.closed)

theorem same_refl : Same st st := ⟨rfl, fun _ => rfl⟩

theorem same_put {c' : Conn} (hc : st.conns s = some c) (he : c'.entry = c.entry)
    (hclosed : c'.closed = c.closed) : Same st (st.put s c') := by
  refine ⟨rfl, fun s' => ?_⟩
  unfold State.put
  dsimp only
  rw [update_apply]
  split
  · rename_i hs
    rw [hs, hc, Option.map_some, Option.map_some, he, hclosed]
  · rfl

theorem same_onConn {f : Conn → Conn} (hf : ∀ c, (f c).entry = c.entry ∧ (f c).closed = c.closed) :
    Same st (st.onConn s f) := by
  unfold State.onConn
  cases hc : st.conns s with
  | none => exact same_refl
  | some c => exact same_put hc (hf c).1 (hf c).2

theorem Same.conn (h : Same st st') {c' : Conn} (hc : st'.conns s = some c') :
    ∃ c, st.conns s = some c ∧ c'.entry = c.entry ∧ c'.closed = c.closed := by
  have hs := h.2 s
  rw [hc, Option.map_some, eq_comm, Option.map_eq_some_iff] at hs
  obtain ⟨c, hc', heq⟩ := hs
  obtain ⟨h1, h2⟩ := Prod.mk.inj heq
  exact ⟨c, hc', h1.symm, h2.symm⟩

theorem Same.conn' (h : Same st st') (hc : st.conns s = some c) :
    ∃ c', st'.conns s = some c' ∧ c'.entry = c.entry ∧ c'.closed = c.closed := by
  have hs := h.2 s
  rw [hc, Option.map_some, Option.map_eq_some_iff] at hs
  obtain ⟨c', hc', heq⟩ := hs
  obtain ⟨h1, h2⟩ := Prod.mk.inj heq
  exact ⟨c', hc', h1, h2⟩

structure Held (uid : Nat) (st : State) : Prop where
  keyed : ∀ e, st.sessions uid = some e → e.account.uid = uid
  live : ∀ e, st.sessions uid = some e →
    ∃ c, st.conns e.socket = some c ∧ c.closed = false ∧ c.entry = some e
  own : ∀ s c e, st.conns s = some c → c.entry = some e → e.socket = s

theorem bound_iff : Bound st ↔ ∀ uid, Held uid st := by
  constructor
  · exact fun h uid => ⟨h.keyed uid, h.live uid, h.own⟩
  · exact fun h => ⟨fun uid => (h uid).keyed, fun uid => (h uid).live, (h 0).own⟩

theorem held_start : Held uid start := by
  constructor
  · intro e he
    cases he
  · intro e he
    cases he
  · intro s c e hc
    cases hc

theorem bound_start : Bound start := bound_iff.mpr fun _ => held_start

-- An authentication as the account comes through on an open socket, and one as another account
-- on a socket that is not in the table under this one.
def TimelyFor (w : World) (uid : Nat) (st : State) : Event → Prop
  | .gate s row _ => ∀ c ∈ st.conns s, ∀ account ∈ c.await.account, isBanned w account row = false →
      (account.uid = uid → c.closed = false) ∧
        (account.uid ≠ uid → (st.sessions uid).map Entry.socket ≠ some s)
  | _ => True

instance (w : World) (uid : Nat) (st : State) (a : Event) : Decidable (TimelyFor w uid st a) := by
  cases a <;> unfold TimelyFor <;> infer_instance

theorem Held.captured (h : Held uid st) (hc : st.conns s = some c) (he : st.sessions uid = some e)
    (hs : e.socket = s) : c.closed = false ∧ c.entry = some e := by
  obtain ⟨c', hc', hlive⟩ := h.live e he
  rw [hs, hc] at hc'
  rw [Option.some.inj hc']
  exact hlive

theorem Timely.for (ht : Timely w st a) (h : Bound st) (uid : Nat) : TimelyFor w uid st a := by
  cases a with
  | gate s row now =>
    intro c hc account haccount hgate
    obtain ⟨hopen, hother⟩ := ht c hc account haccount hgate
    refine ⟨fun _ => hopen, fun hne hin => ?_⟩
    obtain ⟨e, he, hs⟩ := Option.map_eq_some_iff.mp hin
    have hentry := ((bound_iff.mp h uid).captured hc he hs).2
    have hkey := h.keyed uid e he
    exact hother e hentry (hkey ▸ hne.symm) (hkey ▸ hin)
  | _ => trivial

theorem Held.same (h : Held uid st) (hs : Same st st') : Held uid st' := by
  constructor
  · intro e he
    exact h.keyed e (hs.1 ▸ he)
  · intro e he
    obtain ⟨c, hc, hopen, hentry⟩ := h.live e (hs.1 ▸ he)
    obtain ⟨c', hc', hsame, hclosed⟩ := hs.conn' hc
    exact ⟨c', hc', hclosed.trans hopen, hsame.trans hentry⟩
  · intro s c' e hc' he
    obtain ⟨c, hc, hsame, -⟩ := hs.conn hc'
    exact h.own s c e hc (hsame.symm.trans he)

theorem own_update {c' : Conn} (h : Held uid st) (hown : ∀ e, c'.entry = some e → e.socket = s) :
    ∀ s' c e, update st.conns s (some c') s' = some c → c.entry = some e → e.socket = s' := by
  intro s' c e hc he
  rw [update_apply] at hc
  split at hc
  · rename_i hs
    obtain rfl := Option.some.inj hc
    exact (hown e he).trans hs.symm
  · exact h.own s' c e hc he

theorem held_aside {c' : Conn} {sessions : Nat → Option Entry} (h : Held uid st)
    (hsame : sessions uid = st.sessions uid) (hfree : ∀ e, st.sessions uid = some e → e.socket ≠ s)
    (hown : ∀ e, c'.entry = some e → e.socket = s) : Held uid ⟨sessions, update st.conns s (some c')⟩ where
  keyed := fun e he => h.keyed e (hsame.symm.trans he)
  live := fun e he => by
    have hold := hsame.symm.trans he
    obtain ⟨c, hc, hopen, hentry⟩ := h.live e hold
    exact ⟨c, (update_of_ne (hfree e hold) _ _).trans hc, hopen, hentry⟩
  own := own_update h hown

theorem held_enter {c' : Conn} {sessions : Nat → Option Entry} (h : Held uid st)
    (hin : sessions uid = some e) (hkey : e.account.uid = uid) (hsocket : e.socket = s)
    (hopen : c'.closed = false) (hentry : c'.entry = some e) :
    Held uid ⟨sessions, update st.conns s (some c')⟩ where
  keyed := fun e' he' => by
    obtain rfl := Option.some.inj (hin.symm.trans he')
    exact hkey
  live := fun e' he' => by
    obtain rfl := Option.some.inj (hin.symm.trans he')
    exact ⟨c', by rw [hsocket]; exact update_self _ _ _, hopen, hentry⟩
  own := own_update h fun e' he' => by
    obtain rfl := Option.some.inj (hentry.symm.trans he')
    exact hsocket

theorem held_touch (h : Held uid st) : Held uid (st.touch s now) := by
  unfold State.touch
  cases hc : st.conns s with
  | none => exact h
  | some c =>
    cases he : c.entry with
    | none => simpa [he] using h
    | some e =>
      have hs := h.own s c e hc he
      have hmine : ∀ e', st.sessions uid = some e' → e'.socket = s → e' = e := fun e' he' heq =>
        (Option.some.inj (he.symm.trans (h.captured hc he' heq).2)).symm
      simp only [Option.bind_some, he, State.onConn, hc, State.put]
      by_cases hin : st.sessions uid = some e
      · have hkey := h.keyed e hin
        rw [hkey, if_pos hin]
        exact held_enter h (update_self _ _ _) hkey hs (h.captured hc hin hs).1 rfl
      · have hfree : ∀ e', st.sessions uid = some e' → e'.socket ≠ s := fun e' he' heq =>
          hin (hmine e' he' heq ▸ he')
        split
        · rename_i hother
          refine held_aside h (update_of_ne (fun hkey => hin ?_) _ _) hfree fun e' he' => ?_
          · rw [hkey]
            exact hother
          · obtain rfl := Option.some.inj he'
            exact hs
        · refine held_aside h rfl hfree fun e' he' => ?_
          obtain rfl := Option.some.inj he'
          exact hs

theorem register_eq (st : State) (e : Entry) : ∃ st₁, Same st st₁ ∧
    st.register e = { st₁ with sessions := update st₁.sessions e.account.uid (some e) } := by
  refine ⟨_, ?_, rfl⟩
  split
  · split
    · exact same_onConn fun c => ⟨rfl, rfl⟩
    · exact same_refl
  · exact same_refl

theorem held_register {account : Account} {region : Nat} (h : Held uid st)
    (hc : st.conns s = some c) (hopen : account.uid = uid → c.closed = false)
    (hother : account.uid ≠ uid → (st.sessions uid).map Entry.socket ≠ some s) :
    Held uid ((st.register ⟨s, account, region, now⟩).onConn s fun c =>
      { c with await := .idle, entry := some ⟨s, account, region, now⟩ }) := by
  obtain ⟨st₁, hsame, hreg⟩ := register_eq st ⟨s, account, region, now⟩
  obtain ⟨c₁, hc₁, hentry₁, hclosed₁⟩ := hsame.conn' hc
  rw [hreg]
  simp only [State.onConn, hc₁, State.put]
  by_cases hu : account.uid = uid
  · exact held_enter (h.same hsame) (by rw [hu]; exact update_self _ _ _) hu rfl
      (hclosed₁.trans (hopen hu)) rfl
  · refine held_aside (h.same hsame) (update_of_ne (Ne.symm hu) _ _) (fun e' he' heq => ?_) fun e' he' => ?_
    · rw [hsame.1] at he'
      exact hother hu (by rw [he', Option.map_some, heq])
    · obtain rfl := Option.some.inj he'
      rfl

theorem held_close (h : Held uid st) (hc : st.conns s = some c) (hs : step w st (.close s) = some st') :
    Held uid st' := by
  simp only [step, hc, Option.bind_some] at hs
  split at hs
  · cases hs
  · obtain ⟨c', hc', hsame⟩ : ∃ c', c' = { c with closed := true, destroyed := true } ∧
        c'.entry = c.entry := ⟨_, rfl, rfl⟩
    have hown : ∀ e, c'.entry = some e → e.socket = s := fun e he => h.own s c e hc (hsame ▸ he)
    rw [← hc'] at hs
    unfold State.put at hs
    dsimp only at hs
    split at hs
    · rename_i e₀ hentry
      have hmine : ∀ e, st.sessions uid = some e → e.socket = s → e = e₀ := fun e he heq =>
        Option.some.inj ((h.captured hc he heq).2.symm.trans hentry)
      by_cases hu : e₀.account.uid = uid
      · rw [hu] at hs
        by_cases hin : (st.sessions uid).map Entry.socket = some s
        · rw [if_pos hin] at hs
          obtain rfl := Option.some.inj hs
          refine ⟨fun e he => ?_, fun e he => ?_, own_update h hown⟩
          · have hgone : update st.sessions uid none uid = some e := he
            rw [update_self] at hgone
            cases hgone
          · have hgone : update st.sessions uid none uid = some e := he
            rw [update_self] at hgone
            cases hgone
        · rw [if_neg hin] at hs
          obtain rfl := Option.some.inj hs
          exact held_aside h rfl (fun e he heq => hin (by rw [he, Option.map_some, heq])) hown
      · have hfree : ∀ e, st.sessions uid = some e → e.socket ≠ s := fun e he heq =>
          hu (hmine e he heq ▸ h.keyed e he)
        split at hs
        · obtain rfl := Option.some.inj hs
          exact held_aside h (update_of_ne (Ne.symm hu) _ _) hfree hown
        · obtain rfl := Option.some.inj hs
          exact held_aside h rfl hfree hown
    · rename_i hentry
      obtain rfl := Option.some.inj hs
      refine held_aside h rfl (fun e he heq => ?_) hown
      have hmine := (h.captured hc he heq).2
      rw [hentry] at hmine
      cases hmine

theorem held_step (h : Held uid st) (hs : Step w st a st') (ht : TimelyFor w uid st a) : Held uid st' := by
  cases change_of_step hs with
  | same => exact h
  | @opened s hnew =>
    refine held_aside h rfl (fun e he heq => ?_) nofun
    obtain ⟨c, hc, -⟩ := h.live e he
    rw [heq, hnew] at hc
    cases hc
  | put hc hon => exact h.same (same_put hc hon.entry hon.closed)
  | touched hc hon => exact held_touch (h.same (same_put hc hon.entry hon.closed))
  | admitted hc hawait hgate =>
    obtain ⟨hopen, hother⟩ := ht _ hc _ (by rw [hawait]; rfl) hgate
    exact held_register h hc hopen hother
  | closed hc _ hs => exact held_close h hc hs

theorem bound_step (h : Bound st) (hs : Step w st a st') (ht : Timely w st a) : Bound st' :=
  bound_iff.mpr fun uid => held_step (bound_iff.mp h uid) hs (ht.for h uid)

theorem table_consistent {es : List Event} (h : Run (Guarded (Step w) (Timely w)) start es st) :
    Consistent st :=
  Bound.consistent (run_invariant h bound_start fun hb hs => bound_step hb hs.1 hs.2)

def Admits (w : World) (uid : Nat) (st : State) : Event → Prop
  | .gate s row _ => ∃ c ∈ st.conns s, ∃ account ∈ c.await.account,
      account.uid = uid ∧ isBanned w account row = false
  | _ => False

theorem admits_step (ha : Admits w uid st a) (hs : Step w st a st') : ∃ c e, st.conns e.socket = some c ∧
    e.account.uid = uid ∧
      st' = (st.register e).onConn e.socket fun c => { c with await := .idle, entry := some e } := by
  cases a with
  | gate s row now =>
    obtain ⟨c, hc, account, haccount, hu, hgate⟩ := ha
    simp only [Step, step] at hs
    rw [Option.mem_def.mp hc, Option.bind_some] at hs
    split at hs
    · rename_i f account' hawait
      rw [hawait] at haccount
      obtain rfl := Option.some.inj haccount
      rw [hgate] at hs
      exact ⟨c, ⟨s, account', f.region, now⟩, hc, hu, (Option.some.inj hs).symm⟩
    · cases hs
  | _ => exact ha.elim

def plainWorld : World := ⟨fun _ => some "token", true, false⟩

-- Cmd=1 with a payload of one byte.
def authFrame : List UInt8 := [1, 0, 0, 0, 0, 1, 0]

def authenticates (s uid : Nat) : List Event :=
  [.data s authFrame, .next s 0, .next s 0, .token s (some ⟨uid, false, none⟩), .gate s none 0]

-- A second socket takes the account over, and the first one closes.
def takenOver : List Event :=
  .connect 1 :: authenticates 1 7 ++ .connect 2 :: authenticates 2 7 ++ [.close 1]

theorem table_consistent_after_takeover : ∃ st, Run (Guarded (Step plainWorld) (Timely plainWorld)) start takenOver st ∧
    Consistent st := by
  have hrun : ((takenOver.foldlM (fun st a => if Timely plainWorld st a then step plainWorld st a else none)
      start).map fun st => (st.sessions 7).map Entry.socket) = some (some 2) := by
    decide
  obtain ⟨st, hst, -⟩ := Option.map_eq_some_iff.mp hrun
  have hguarded := run_of_checked hst
  exact ⟨st, hguarded, table_consistent hguarded⟩

-- The socket closes while its token is looked up; the continuation enters it in the table.
def lateAuth : List Event :=
  [.connect 1, .data 1 authFrame, .next 1 0, .next 1 0, .close 1, .token 1 (some ⟨7, false, none⟩),
    .gate 1 none 0]

theorem lateAuth_run : ∃ st, lateAuth.foldlM (step plainWorld) start = some st ∧ Quiet st ∧
    (st.sessions 7).map Entry.socket = some 1 ∧ (st.conns 1).map Conn.closed = some true := by
  refine ⟨_, rfl, ?_, rfl, rfl⟩
  rintro (_ | _ | s) c hc
  · cases hc
  · cases hc
    exact ⟨rfl, rfl, rfl⟩
  · cases hc

theorem stale_entry : ¬ ∀ w es st, Run (Step w) start es st → Quiet st → Consistent st := by
  intro hall
  obtain ⟨st, hrun, hquiet, hin, hgone⟩ := lateAuth_run
  obtain ⟨e, he, hs⟩ := Option.map_eq_some_iff.mp hin
  obtain ⟨c, hc, hopen, -⟩ := (hall plainWorld lateAuth st (run_of_foldlM hrun) hquiet).live 7 e he
  rw [hs] at hc
  rw [hc, Option.map_some, hopen] at hgone
  cases hgone

end Sessions

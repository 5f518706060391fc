import Madoka.Sessions.Table

namespace Sessions

open Lib Function

-- The gateways while AdminCore.ban runs: what the store has answered to a getByToken that the
-- socket has not taken up yet, the flag of the account, and the session.revoke messages that a
-- gateway has yet to handle.
structure Gateways (N : Type) where
  gateways : N → State
  answers : N → Nat → Option (Option Account)
  banned : Bool
  published : Bool
  revokes : N → Nat

inductive Move (N : Type) where
  | gateway (n : N) (a : Event)
  | answer (n : N) (s : Nat) (account : Option Account)
  | save
  | publish
  | revoke (n : N)

def Await.asks : Await → Bool
  | .getByToken _ => true
  | _ => false

namespace Gateways

variable {N : Type} [DecidableEq N]

def idle : Gateways N := ⟨fun _ => start, fun _ _ => none, false, false, fun _ => 0⟩

-- A getByToken goes on with what the store has answered, and throws without an answer.
def answered (k : Gateways N) (n : N) : Event → Bool
  | .token s account => k.answers n s = some account
  | .reject s => k.answers n s = none
  | _ => true

def taken (k : Gateways N) (n : N) : Event → Nat → Option (Option Account)
  | .token s _ => update (k.answers n) s none
  | _ => k.answers n

-- sessions.has(uid) and kick.
def handleRevoke (w : World) (uid : Nat) (st : State) : State := (Sessions.step w st (.kick uid)).getD st

def step (w : World) (uid : Nat) (k : Gateways N) : Move N → Option (Gateways N)
  | .gateway n a =>
    if k.answered n a then
      (Sessions.step w (k.gateways n) a).map fun st =>
        { k with gateways := update k.gateways n st, answers := update k.answers n (k.taken n a) }
    else none
  | .answer n s account =>
    ((k.gateways n).conns s).bind fun c =>
      if c.await.asks = true ∧ k.answers n s = none ∧ ∀ a ∈ account, a.uid = uid → a.banned = k.banned then
        some { k with answers := update k.answers n (update (k.answers n) s (some account)) }
      else none
  | .save => some { k with banned := true }
  | .publish =>
    if k.banned then some { k with published := true, revokes := fun n => k.revokes n + 1 } else none
  | .revoke n =>
    match k.revokes n with
    | 0 => none
    | r + 1 =>
      some { k with
        gateways := update k.gateways n (handleRevoke w uid (k.gateways n))
        revokes := update k.revokes n r }

def Step (w : World) (uid : Nat) (k : Gateways N) (m : Move N) (k' : Gateways N) : Prop :=
  k.step w uid m = some k'

end Gateways

-- An entry of the account on a socket that is neither closed nor about to be.
def Live (uid : Nat) (st : State) : Prop :=
  ∃ e c, st.sessions uid = some e ∧ st.conns e.socket = some c ∧ c.doomed = false ∧ c.destroyed = false

-- The timers have run and the sockets that they destroy have closed.
def Settled (st : State) : Prop :=
  ∀ s c, st.conns s = some c → (c.doomed = true → c.destroyed = true) ∧ (c.destroyed = true → c.closed = true)

-- An authentication with a copy of the account from before the save comes through before the
-- gateway handles the revocation.
def Prompt {N : Type} (w : World) (uid : Nat) (k : Gateways N) : Move N → Prop
  | .gateway n (.gate s row _) => ∀ c ∈ (k.gateways n).conns s, ∀ account ∈ c.await.account,
      account.uid = uid → account.banned = false → isBanned w account row = false →
        k.published = true → 0 < k.revokes n
  | _ => True

instance {N : Type} (w : World) (uid : Nat) (k : Gateways N) (m : Move N) : Decidable (Prompt w uid k m) := by
  unfold Prompt
  split <;> infer_instance

variable {w : World} {uid s now : Nat} {st st' : State} {c c' : Conn} {a : Event} {due : Prop}

def Conn.Down (c : Conn) : Prop := c.doomed = true ∨ c.destroyed = true

theorem Conn.Onward.down (h : c.Onward c') : c.Down → c'.Down := Or.imp h.doomed h.destroyed

-- Every entry of the account is on a socket of the gateway, and once the account is due on one
-- that goes down.
def Swept (uid : Nat) (due : Prop) (st : State) : Prop :=
  ∀ e, st.sessions uid = some e → ∃ c, st.conns e.socket = some c ∧ (due → c.Down)

theorem swept_start : Swept uid due start := by
  intro e he
  cases he

theorem Swept.weaken {due' : Prop} (h : Swept uid due st) (hd : due' → due) : Swept uid due' st := by
  intro e he
  obtain ⟨c, hc, hdown⟩ := h e he
  exact ⟨c, hc, fun hdue => hdown (hd hdue)⟩

-- The sockets stay, what goes down stays down, and the account gets no entry on another socket.
structure Keeps (uid : Nat) (st st' : State) : Prop where
  onward : ∀ s c, st.conns s = some c → ∃ c', st'.conns s = some c' ∧ (c.Down → c'.Down)
  entries : ∀ e', st'.sessions uid = some e' → ∃ e, st.sessions uid = some e ∧ e'.socket = e.socket

theorem keeps_refl : Keeps uid st st := ⟨fun _ c hc => ⟨c, hc, id⟩, fun e he => ⟨e, he, rfl⟩⟩

theorem Keeps.trans {st'' : State} (h : Keeps uid st st') (h' : Keeps uid st' st'') : Keeps uid st st'' := by
  constructor
  · intro s c hc
    obtain ⟨c', hc', hdown⟩ := h.onward s c hc
    obtain ⟨c'', hc'', hdown'⟩ := h'.onward s c' hc'
    exact ⟨c'', hc'', fun hd => hdown' (hdown hd)⟩
  · intro e'' he''
    obtain ⟨e', he', hs'⟩ := h'.entries e'' he''
    obtain ⟨e, he, hs⟩ := h.entries e' he'
    exact ⟨e, he, hs'.trans hs⟩

theorem Swept.keeps (h : Swept uid due st) (hk : Keeps uid st st') : Swept uid due st' := by
  intro e' he'
  obtain ⟨e, he, hs⟩ := hk.entries e' he'
  obtain ⟨c, hc, hdown⟩ := h e he
  obtain ⟨c', hc', hdown'⟩ := hk.onward e.socket c hc
  exact ⟨c', hs ▸ hc', fun hd => hdown' (hdown hd)⟩

theorem keeps_put (hd : ∀ c, st.conns s = some c → c.Down → c'.Down) : Keeps uid st (st.put s c') := by
  constructor
  · intro s' c hc
    by_cases hs : s' = s
    · subst hs
      exact ⟨c', update_self _ _ _, hd c hc⟩
    · exact ⟨c, (update_of_ne hs _ _).trans hc, id⟩
  · intro e he
    exact ⟨e, he, rfl⟩

theorem keeps_put_of (hc : st.conns s = some c) (hd : c.Down → c'.Down) : Keeps uid st (st.put s c') := by
  refine keeps_put fun c₀ hc₀ => ?_
  obtain rfl := Option.some.inj (hc.symm.trans hc₀)
  exact hd

theorem keeps_onConn {f : Conn → Conn} (hf : ∀ c, c.Down → (f c).Down) : Keeps uid st (st.onConn s f) := by
  unfold State.onConn
  cases hc : st.conns s with
  | none => exact keeps_refl
  | some c => exact keeps_put_of hc (hf c)

theorem keeps_destroy : Keeps uid st (st.destroy s) := keeps_onConn fun _ _ => Or.inr rfl

theorem keeps_sessions {sessions : Nat → Option Entry}
    (h : ∀ e', sessions uid = some e' → ∃ e, st.sessions uid = some e ∧ e'.socket = e.socket) :
    Keeps uid st { st with sessions := sessions } :=
  ⟨fun _ c hc => ⟨c, hc, id⟩, h⟩

theorem keeps_update {uid' : Nat} {e? : Option Entry}
    (h : uid = uid' → ∀ e' ∈ e?, ∃ e, st.sessions uid = some e ∧ e'.socket = e.socket) :
    Keeps uid st { st with sessions := update st.sessions uid' e? } := by
  refine keeps_sessions fun e' he' => ?_
  rw [update_apply] at he'
  split at he'
  · rename_i hu
    exact h hu e' he'
  · exact ⟨e', he', rfl⟩

theorem keeps_touch : Keeps uid st (st.touch s now) := by
  unfold State.touch
  split
  · exact keeps_refl
  · rename_i e he
    have hconn : Keeps uid st (st.onConn s fun c => { c with entry := some { e with lastSeen := now } }) :=
      keeps_onConn fun _ hd => hd
    dsimp only
    split
    · rename_i hin
      refine hconn.trans (keeps_update fun hu e' he' => ⟨e, ?_, ?_⟩)
      · rw [hu]
        exact hin
      · obtain rfl := Option.some.inj he'
        rfl
    · exact hconn

theorem keeps_close (hc : st.conns s = some c) (hs : Step w st (.close s) st') : Keeps uid st st' := by
  simp only [Step, step, hc, Option.bind_some] at hs
  have hput : Keeps uid st (st.put s { c with closed := true, destroyed := true }) :=
    keeps_put_of hc fun _ => Or.inr rfl
  split at hs
  · cases hs
  · split at hs
    · split at hs
      · obtain rfl := Option.some.inj hs
        exact hput.trans (keeps_update fun _ _ he' => by cases he')
      · obtain rfl := Option.some.inj hs
        exact hput
    · obtain rfl := Option.some.inj hs
      exact hput

theorem register_keeps (st : State) (e : Entry) : ∃ st₁, Keeps uid st st₁ ∧
    st.register e = { st₁ with sessions := update st₁.sessions e.account.uid (some e) } := by
  refine ⟨_, ?_, rfl⟩
  split
  · split
    · exact keeps_destroy
    · exact keeps_refl
  · exact keeps_refl

theorem keeps_admit {e : Entry} {f : Conn → Conn} (hne : uid ≠ e.account.uid)
    (hf : ∀ c, c.Down → (f c).Down) : Keeps uid st ((st.register e).onConn s f) := by
  obtain ⟨st₁, hkeeps, hreg⟩ := register_keeps st e
  rw [hreg]
  have hentry : Keeps uid st₁ { st₁ with sessions := update st₁.sessions e.account.uid (some e) } :=
    keeps_update fun hu => absurd hu hne
  exact hkeeps.trans (hentry.trans (keeps_onConn hf))

theorem swept_admit {e : Entry} {f : Conn → Conn} (hc : st.conns e.socket = some c)
    (hu : e.account.uid = uid) (hf : ∀ c, c.Down → (f c).Down) :
    Swept uid False ((st.register e).onConn s f) := by
  obtain ⟨st₁, hkeeps, hreg⟩ := @register_keeps uid st e
  obtain ⟨c₁, hc₁, -⟩ := hkeeps.onward e.socket c hc
  have hentered : Swept uid False { st₁ with sessions := update st₁.sessions e.account.uid (some e) } := by
    intro e' he'
    dsimp only at he'
    rw [hu, update_self] at he'
    obtain rfl := Option.some.inj he'
    exact ⟨c₁, hc₁, False.elim⟩
  rw [hreg]
  exact hentered.keeps (keeps_onConn hf)

theorem keeps_step (hs : Step w st a st') (ha : ¬ Admits w uid st a) : Keeps uid st st' := by
  cases change_of_step hs with
  | same => exact keeps_refl
  | opened hnew =>
    refine keeps_put fun c hc => ?_
    rw [hnew] at hc
    cases hc
  | put hc hon => exact keeps_put_of hc hon.down
  | touched hc hon => exact (keeps_put_of hc hon.down).trans keeps_touch
  | @admitted s now row c f account hc hawait hgate =>
    have hne : uid ≠ account.uid := fun hu =>
      ha ⟨c, hc, account, by rw [hawait]; rfl, hu.symm, hgate⟩
    exact keeps_admit hne fun _ hd => hd
  | closed hc _ hs => exact keeps_close hc hs

theorem swept_step (h : Swept uid due st) (hs : Step w st a st') (ha : Admits w uid st a → ¬ due) :
    Swept uid due st' := by
  by_cases hin : Admits w uid st a
  · obtain ⟨c, e, hc, hu, rfl⟩ := admits_step hin hs
    have halone := swept_admit (s := e.socket)
      (f := fun c => { c with await := .idle, entry := some e }) hc hu fun _ hd => hd
    exact halone.weaken (ha hin)
  · exact h.keeps (keeps_step hs hin)

theorem swept_revoke (h : Swept uid False st) : Swept uid True (Gateways.handleRevoke w uid st) := by
  intro e he
  have hkeeps : Keeps uid st (Gateways.handleRevoke w uid st) := by
    unfold Gateways.handleRevoke
    cases hs : step w st (.kick uid) with
    | none => exact keeps_refl
    | some st' => exact keeps_step hs id
  obtain ⟨e₀, he₀, hsocket⟩ := hkeeps.entries e he
  obtain ⟨c, hc, -⟩ := h e₀ he₀
  refine ⟨{ c with doomed := true }, ?_, fun _ => Or.inl rfl⟩
  rw [hsocket]
  simp only [Gateways.handleRevoke, step, he₀, Option.map_some, Option.getD_some, State.onConn, hc]
  exact update_self _ _ _

section Ban

variable {N : Type} [DecidableEq N] {k k' : Gateways N} {m : Move N} {n : N}

-- Each gateway that the ban has reached has swept the account.
def Banned (uid : Nat) (k : Gateways N) : Prop :=
  ∀ n, Swept uid (k.published = true ∧ k.revokes n = 0) (k.gateways n)

omit [DecidableEq N] in
theorem banned_idle : Banned uid (Gateways.idle : Gateways N) := fun _ => swept_start

theorem isBanned_copy {account : Account} {row : Option AuthAccount} (hw : w.enforceBans = true)
    (h : isBanned w account row = false) : account.banned = false := by
  unfold isBanned at h
  rw [hw, if_neg (by simp)] at h
  split at h
  · cases h
  · rename_i hb
    exact Bool.eq_false_iff.mpr hb

omit [DecidableEq N] in
theorem Prompt.admits (hw : w.enforceBans = true) (hm : Prompt w uid k (.gateway n a))
    (ha : Admits w uid (k.gateways n) a) : ¬ (k.published = true ∧ k.revokes n = 0) := by
  cases a with
  | gate s row now =>
    obtain ⟨c, hc, account, haccount, hu, hgate⟩ := ha
    rintro ⟨hpub, hrev⟩
    have hpos := hm c hc account haccount hu (isBanned_copy hw hgate) hgate hpub
    omega
  | _ => exact ha.elim

theorem banned_step (hw : w.enforceBans = true) (h : Banned uid k) (hs : k.Step w uid m k')
    (hm : Prompt w uid k m) : Banned uid k' := by
  cases m with
  | gateway n a =>
    simp only [Gateways.Step, Gateways.step] at hs
    split at hs
    · obtain ⟨st, hst, rfl⟩ := Option.map_eq_some_iff.mp hs
      intro n'
      by_cases hn : n' = n
      · subst hn
        simp only [update_self]
        exact swept_step (h n') hst (hm.admits hw)
      · simp only [update_of_ne hn]
        exact h n'
    · cases hs
  | answer n s account =>
    obtain ⟨c, -, hs⟩ := Option.bind_eq_some_iff.mp hs
    split at hs
    · obtain rfl := Option.some.inj hs
      exact h
    · cases hs
  | save =>
    obtain rfl := Option.some.inj hs
    exact h
  | publish =>
    simp only [Gateways.Step, Gateways.step] at hs
    split at hs
    · obtain rfl := Option.some.inj hs
      exact fun n => (h n).weaken fun hd => absurd hd.2 (Nat.succ_ne_zero _)
    · cases hs
  | revoke n =>
    simp only [Gateways.Step, Gateways.step] at hs
    split at hs
    · cases hs
    · obtain rfl := Option.some.inj hs
      intro n'
      by_cases hn : n' = n
      · subst hn
        simp only [update_self]
        exact (swept_revoke ((h n').weaken False.elim)).weaken fun _ => trivial
      · simp only [update_of_ne hn]
        exact h n'

theorem ban_ends_sessions {es : List (Move N)} (hw : w.enforceBans = true)
    (h : Run (Guarded (Gateways.Step w uid) (Prompt w uid)) Gateways.idle es k) (hpub : k.published = true)
    (hrevoked : ∀ n, k.revokes n = 0) (n : N) : ¬ Live uid (k.gateways n) ∧
      (Settled (k.gateways n) → Consistent (k.gateways n) → (k.gateways n).sessions uid = none) := by
  have hbanned : Banned uid k :=
    run_invariant h banned_idle fun hb hs => banned_step hw hb hs.1 hs.2
  constructor
  · rintro ⟨e, c, he, hc, hdoomed, hdestroyed⟩
    obtain ⟨c', hc', hdown⟩ := hbanned n e he
    obtain rfl := Option.some.inj (hc.symm.trans hc')
    rcases hdown ⟨hpub, hrevoked n⟩ with hd | hd
    · exact Bool.false_ne_true (hdoomed.symm.trans hd)
    · exact Bool.false_ne_true (hdestroyed.symm.trans hd)
  · intro hsettled hconsistent
    by_contra hin
    obtain ⟨e, he⟩ := Option.ne_none_iff_exists'.mp hin
    obtain ⟨c, hc, hopen, -⟩ := hconsistent.live uid e he
    obtain ⟨c', hc', hdown⟩ := hbanned n e he
    obtain rfl := Option.some.inj (hc.symm.trans hc')
    obtain ⟨htimer, hclose⟩ := hsettled e.socket c hc
    have hclosed := hclose ((hdown ⟨hpub, hrevoked n⟩).elim htimer id)
    exact Bool.false_ne_true (hopen.symm.trans hclosed)

def looksUp (n : N) (s : Nat) (account : Account) : List (Move N) :=
  [.gateway n (.connect s), .gateway n (.data s authFrame), .gateway n (.next s 0),
    .gateway n (.next s 0), .answer n s (some account), .gateway n (.token s (some account))]

end Ban

-- The account is on one gateway when the ban comes and comes back on the other one.
def banned : List (Move Bool) :=
  looksUp true 1 ⟨7, false, none⟩ ++ [.gateway true (.gate 1 none 0), .save, .publish, .revoke true] ++
    looksUp false 2 ⟨7, true, none⟩ ++ [.gateway false (.gate 2 none 0), .revoke false,
      .gateway true (.timer 1), .gateway true (.close 1)]

theorem ban_ends_both_sessions : ∃ k : Gateways Bool,
    Run (Guarded (Gateways.Step plainWorld 7) (Prompt plainWorld 7)) Gateways.idle banned k ∧
      ∀ n, ¬ Live 7 (k.gateways n) := by
  have hrun : ((banned.foldlM (fun k m => if Prompt plainWorld 7 k m then k.step plainWorld 7 m else none)
      Gateways.idle).map fun k => (k.published, k.revokes true, k.revokes false)) = some (true, 0, 0) := by
    decide
  obtain ⟨k, hk, hend⟩ := Option.map_eq_some_iff.mp hrun
  obtain ⟨hpub, htrue, hfalse⟩ : k.published = true ∧ k.revokes true = 0 ∧ k.revokes false = 0 := by
    simpa using hend
  have hguarded := run_of_checked hk
  refine ⟨k, hguarded, fun n => (ban_ends_sessions rfl hguarded hpub ?_ n).1⟩
  rintro (_ | _)
  · exact hfalse
  · exact htrue

-- The AUTH has its copy of the account and waits for the gate while the ban runs.
def missed : List (Move Unit) :=
  looksUp () 1 ⟨7, false, none⟩ ++ [.save, .publish, .revoke (), .gateway () (.gate 1 none 0)]

theorem missed_run : ∃ k, missed.foldlM (Gateways.step plainWorld 7) Gateways.idle = some k ∧
    k.published = true ∧ k.revokes () = 0 ∧ Quiet (k.gateways ()) ∧ Settled (k.gateways ()) ∧
      Live 7 (k.gateways ()) := by
  refine ⟨_, rfl, rfl, rfl, ?_, ?_, ⟨_, _, rfl, rfl, rfl, rfl⟩⟩
  · rintro (_ | _ | s) c hc
    · cases hc
    · cases hc
      exact ⟨rfl, rfl, rfl⟩
    · cases hc
  · rintro (_ | _ | s) c hc
    · cases hc
    · cases hc
      exact ⟨nofun, nofun⟩
    · cases hc

theorem ban_missed : ¬ ∀ (N : Type) (_ : DecidableEq N) (w : World) (uid : Nat) (es : List (Move N))
    (k : Gateways N), w.enforceBans = true → Run (Gateways.Step w uid) Gateways.idle es k →
      k.published = true → (∀ n, k.revokes n = 0 ∧ Quiet (k.gateways n) ∧ Settled (k.gateways n)) →
        ∀ n, ¬ Live uid (k.gateways n) := by
  intro hall
  obtain ⟨k, hrun, hpub, hrevoked, hquiet, hsettled, hlive⟩ := missed_run
  exact hall Unit inferInstance plainWorld 7 missed k rfl (run_of_foldlM hrun) hpub
    (fun _ => ⟨hrevoked, hquiet, hsettled⟩) () hlive

end Sessions

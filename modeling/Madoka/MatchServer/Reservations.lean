import Madoka.Lib.History
import Madoka.MatchServer.Flags
import Madoka.MatchServer.Latecomers

namespace MatchServer

open Lib

namespace Core

variable {w : World} {c d : Core} {s : SessionId} {m m' : MatchRef} {p : Packet} {a : Admission}
  {F : List Part}

section Locks

-- A match that is locked stays locked.
def Locks (c d : Core) : Prop := ∀ m, c.locked m = true → d.locked m = true

theorem locks_of_keeps (h : Keeps F c d) (hF : Part.lock ∉ F) : Locks c d := by
  intro m hl
  rw [locked_of_keeps h hF]
  exact hl

theorem Locks.trans {e : Core} (h : Locks c d) (h' : Locks d e) : Locks c e :=
  fun m hl => h' m (h m hl)

theorem locks_onMatch {f : Match → Match} (hf : ∀ g, g.started || g.ended → (f g).started || (f g).ended) :
    Locks c (c.onMatch m f) := by
  intro m' hl
  by_cases hm : m' = m
  · subst hm
    unfold locked at hl ⊢
    rw [onMatch_ms, if_pos rfl]
    exact hf _ hl
  · simpa [locked, hm] using hl

theorem locks_startBuyPhase : Locks c (c.startBuyPhase w m) := by
  unfold startBuyPhase
  exact (locks_onMatch fun _ _ => rfl).trans (locks_of_keeps keeps_enter (by decide))

theorem locks_enterCancel : Locks c (c.enterCancel m) := by
  unfold enterCancel
  exact (locks_onMatch fun _ _ => by simp).trans (locks_of_keeps keeps_enter (by decide))

theorem locks_enterPrepare : Locks c (c.enterPrepare w m) := by
  have hpull : Locks c (c.onMatch m fun g => { g with pull := none }) := locks_onMatch fun _ h => h
  unfold enterPrepare
  refine hpull.trans ?_
  generalize c.onMatch m (fun g => { g with pull := none }) = d
  dsimp only
  split
  · exact (locks_onMatch fun _ _ => rfl).trans (locks_of_keeps keeps_enter (by decide))
  split
  · split
    · refine Locks.trans ?_ locks_startBuyPhase
      split
      · exact locks_of_keeps keeps_spawnFallbackBot (by decide)
      · exact fun _ h => h
    · exact locks_of_keeps keeps_enter (by decide)
  · exact locks_startBuyPhase

theorem locks_phaseEdge : Locks c (c.phaseEdge w m) := by
  cases hq : (c.ms m).phase.keepsLock with
  | true =>
    intro m' hl
    rw [locked_quietEdge hq]
    exact hl
  | false =>
    unfold phaseEdge
    cases hph : (c.ms m).phase <;> rw [hph] at hq <;> dsimp only
    case setupWait =>
      have hgive : Keeps [.kit, .ground] c ((c.sendCSShop (c.ms m).s).giveLoadout w (c.ms m).s true) :=
        (keeps_sendCSShop.mono (by decide)).trans (keeps_giveLoadout.mono (by decide))
      exact (locks_of_keeps hgive (by decide)).trans locks_enterPrepare
    case intro => exact locks_enterPrepare
    case prepare =>
      split
      · exact locks_of_keeps keeps_startFight (by decide)
      · split
        · exact (locks_of_keeps keeps_spawnFallbackBot (by decide)).trans locks_startBuyPhase
        · exact locks_enterCancel
    case matchEndPause =>
      refine (locks_of_keeps keeps_matchEnd (by decide)).trans
        (Locks.trans (locks_onMatch fun _ _ => by simp) (locks_of_keeps keeps_enter (by decide)))
    all_goals exact absurd hq (by decide)

theorem locks_advancePhase : Locks c (c.advancePhase w m) := by
  unfold advancePhase
  split
  · split
    · exact locks_of_keeps keeps_endFight (by decide)
    · exact fun _ h => h
  split
  · exact locks_startBuyPhase
  split
  · exact locks_phaseEdge
  · exact fun _ h => h

theorem locks_tick : Locks c (c.tick w m) := by
  by_cases hp : (c.ms m).players = []
  · unfold tick
    rw [if_pos hp]
    exact locks_of_keeps keeps_stopLoop (by decide)
  · exact locks_advancePhase.trans (locks_of_keeps (keeps_after hp) (by decide))

end Locks

section Leaving

theorem players_quit_off (h : (c.ss s).matchRef = some m → s ∉ (c.ms m).players) :
    ((c.handlePlayerQuit s).ms m).players = (c.ms m).players := by
  by_cases href : (c.ss s).matchRef = some m
  · rcases @players_handlePlayerQuit c s m with heq | heq
    · exact heq
    · rw [heq, List.filter_eq_self]
      intro q hq
      exact decide_eq_true fun hqs => h href (hqs ▸ hq)
  · unfold handlePlayerQuit withMatch
    dsimp only
    split
    · rename_i m' hm'
      have hm : (c.ss s).matchRef = some m' := by simpa using hm'
      have hne : m ≠ m' := fun hmm => href (hmm ▸ hm)
      rw [ms_removePlayer_of_ne hne, ms_clearFlag_of_ne hne]
      rfl
    · rfl

theorem players_route_eq
    (h : cmdOf p.cmd = .playerQuitReq → (c.ss s).matchRef = some m → s ∉ (c.ms m).players)
    (hre : cmdOf p.cmd = .reconnect → (c.ss s).matchRef = none → m ≠ c.nextRef) :
    ((c.route w s p).ms m).players = (c.ms m).players := by
  by_cases hr : Part.roster ∈ writes (cmdOf p.cmd)
  · have hcmd : cmdOf p.cmd = .hello ∨ cmdOf p.cmd = .reconnect ∨ cmdOf p.cmd = .joinMatchPost ∨
        cmdOf p.cmd = .playerQuitReq := by
      revert hr
      cases cmdOf p.cmd <;> decide
    have hello : ((c.handleHello w s p).ms m).players = (c.ms m).players := by
      rw [players_handleHello, if_neg]
      rintro ⟨hm, hc, hs⟩
      exact hre hc hs hm
    unfold route
    rcases hcmd with hcmd | hcmd | hcmd | hcmd
    · rw [hcmd]
      exact hello
    · rw [hcmd]
      exact hello
    · rw [hcmd]
      exact players_handleJoinMatchPost m
    · rw [hcmd]
      exact players_quit_off (h hcmd)
  · exact players_of_keeps keeps_route hr m

theorem players_admission_eq : ((c.admission w a).ms m).players =
    if a.fresh = true ∧ a.m = m then (c.ms m).players ++ [a.s] else (c.ms m).players := by
  unfold admission admitSession
  dsimp only
  cases a.fresh with
  | true =>
    rw [if_pos rfl, players_admitFirst]
    by_cases hm : m = a.m
    · subst hm
      simp
    · simp [hm, Ne.symm hm]
  | false => simp [enqueue, onSession]

theorem players_admitLater_eq (hs : (c.ss s).matchRef ≠ none) : ((c.admitLater w s m').ms m).players =
    if m = m' then (c.ms m).players ++ [s] else (c.ms m).players := by
  rw [players_of_keeps (keeps_seated hs) (by decide) m, players_addPlayer]
  split
  · rename_i hm
    rw [hm]
  · rfl

end Leaving

end Core

namespace Seating

variable {x y : Seating} {s t : SessionId} {m : MatchRef} {a : Admission} {e : Nat} {job : Job}
  {rest : List Job}

def waiting (x : Seating) (m : MatchRef) : List Job := (x.mail m).filter Job.isLater

def entering (x : Seating) (m : MatchRef) : Nat := x.admits.countP fun a => a.m == m

def Counted (x : Seating) (m : MatchRef) : Prop :=
  x.reserved m = (x.crew m).length + x.entering m + (x.waiting m).length

def Holds (x : Seating) (m : MatchRef) (s : SessionId) : Prop :=
  s ∈ x.crew m ∨ (∃ a ∈ x.admits, a.m = m ∧ a.s = s) ∨ Job.admitLater s ∈ x.waiting m

-- Nobody is lost from the roster of the match, or on the way to it.
structure Firm (x y : Seating) (m : MatchRef) : Prop where
  crew : y.crew m = x.crew m
  waiting : y.waiting m = x.waiting m

theorem Counted.firm (h : Counted x m) (hc : Calm x y) (hf : Firm x y m) : Counted y m := by
  unfold Counted entering at h ⊢
  rw [hc.reserved, hc.admits, hf.crew, hf.waiting]
  exact h

theorem Holds.firm (h : Holds x m s) (hc : Calm x y) (hf : Firm x y m) : Holds y m s := by
  unfold Holds at h ⊢
  rw [hc.admits, hf.crew, hf.waiting]
  exact h

theorem entering_append : (x.admits ++ [a]).countP (fun b => b.m == m) =
    x.entering m + if a.m = m then 1 else 0 := by
  rw [List.countP_append, List.countP_singleton]
  simp only [beq_iff_eq]
  rfl

theorem entering_erase (ha : a ∈ x.admits) :
    x.entering m = (x.admits.erase a).countP (fun b => b.m == m) + if a.m = m then 1 else 0 := by
  unfold entering
  rw [(List.perm_cons_erase ha).countP_eq, List.countP_cons]
  simp only [beq_iff_eq]

theorem Counted.enter (h : Counted x m) : Counted (x.enter a) m := by
  unfold Counted at h ⊢
  change Function.update x.reserved a.m (x.reserved a.m + 1) m = (x.crew m).length +
    (x.admits ++ [a]).countP (fun b => b.m == m) + (x.waiting m).length
  rw [entering_append]
  by_cases hm : a.m = m
  · rw [hm, Function.update_self, if_pos rfl]
    omega
  · rw [Function.update_of_ne (Ne.symm hm), if_neg hm]
    exact h

theorem Counted.found {loop : Option MatchRef} (h : Counted x m) : Counted (x.found s loop) m :=
  h.enter (a := ⟨s, x.next, true, loop⟩)

theorem Counted.openWith (h : Counted x m) (ha : a ∈ x.admits) : Counted (x.openWith a e) m := by
  have hleft := entering_erase (m := m) ha
  unfold Counted at h ⊢
  change x.reserved m = (Function.update x.crew a.m (x.crew a.m ++ [a.s]) m).length +
    (x.admits.erase a).countP (fun b => b.m == m) + (x.waiting m).length
  by_cases hm : a.m = m
  · rw [if_pos hm] at hleft
    rw [hm, Function.update_self, List.length_append, List.length_singleton]
    omega
  · rw [if_neg hm] at hleft
    rw [Function.update_of_ne (Ne.symm hm)]
    omega

theorem waiting_ask : (x.ask a).waiting m =
    if a.m = m then x.waiting m ++ [.admitLater a.s] else x.waiting m := by
  unfold waiting
  split
  · rename_i hm
    simp [Seating.ask, hm, List.filter_append, Job.isLater]
  · rename_i hm
    simp [Seating.ask, Ne.symm hm]

theorem Counted.ask (h : Counted x m) (ha : a ∈ x.admits) : Counted (x.ask a) m := by
  have hleft := entering_erase (m := m) ha
  unfold Counted at h ⊢
  change x.reserved m = (x.crew m).length +
    (x.admits.erase a).countP (fun b => b.m == m) + ((x.ask a).waiting m).length
  rw [waiting_ask]
  by_cases hm : a.m = m
  · rw [if_pos hm] at hleft ⊢
    rw [List.length_append, List.length_singleton]
    omega
  · rw [if_neg hm] at hleft ⊢
    omega

theorem waiting_sit {m' : MatchRef} : (x.sit s m e rest).waiting m' =
    if m = m' then rest.filter Job.isLater else x.waiting m' := by
  unfold waiting
  split
  · rename_i hm
    simp [Seating.sit, hm]
  · rename_i hm
    simp [Seating.sit, Ne.symm hm]

theorem waiting_head (hm : x.mail m = .admitLater s :: rest) :
    x.waiting m = .admitLater s :: rest.filter Job.isLater := by
  unfold waiting
  rw [hm, List.filter_cons_of_pos rfl]

theorem Counted.sit {m' : MatchRef} (h : Counted x m') (hm : x.mail m = .admitLater s :: rest) :
    Counted (x.sit s m e rest) m' := by
  unfold Counted at h ⊢
  change x.reserved m' = (Function.update x.crew m (x.crew m ++ [s]) m').length + x.entering m' +
    ((x.sit s m e rest).waiting m').length
  rw [waiting_sit]
  by_cases hmm : m = m'
  · subst hmm
    rw [waiting_head hm, List.length_cons] at h
    rw [Function.update_self, if_pos rfl, List.length_append, List.length_singleton]
    omega
  · rw [Function.update_of_ne (Ne.symm hmm), if_neg hmm]
    exact h

theorem Holds.enter (h : Holds x m s) : Holds (x.enter a) m s := by
  rcases h with h | ⟨b, hb, hbm⟩ | h
  · exact Or.inl h
  · exact Or.inr (Or.inl ⟨b, List.mem_append_left _ hb, hbm⟩)
  · exact Or.inr (Or.inr h)

theorem Holds.found {loop : Option MatchRef} (h : Holds x m s) : Holds (x.found t loop) m s :=
  h.enter (a := ⟨t, x.next, true, loop⟩)

theorem mem_crew_update {crew : MatchRef → List SessionId} {m' : MatchRef}
    (h : s ∈ crew m ∨ s = t ∧ m' = m) :
    s ∈ Function.update crew m' (crew m' ++ [t]) m := by
  by_cases hm : m = m'
  · subst hm
    rw [Function.update_self, List.mem_append, List.mem_singleton]
    exact h.imp_right And.left
  · rw [Function.update_of_ne hm]
    exact h.resolve_right fun hh => hm hh.2.symm

theorem Holds.openWith (h : Holds x m s) : Holds (x.openWith a e) m s := by
  rcases h with h | ⟨b, hb, hbm, hbs⟩ | h
  · exact Or.inl (mem_crew_update (Or.inl h))
  · by_cases hab : b = a
    · subst hab
      exact Or.inl (mem_crew_update (Or.inr ⟨hbs.symm, hbm⟩))
    · exact Or.inr (Or.inl ⟨b, (List.mem_erase_of_ne hab).mpr hb, hbm, hbs⟩)
  · exact Or.inr (Or.inr h)

theorem Holds.ask (h : Holds x m s) : Holds (x.ask a) m s := by
  have hwait : Job.admitLater s ∈ x.waiting m ∨ s = a.s ∧ a.m = m →
      Job.admitLater s ∈ (x.ask a).waiting m := by
    rw [waiting_ask]
    rintro (hw | ⟨rfl, hm⟩)
    · split
      · exact List.mem_append_left _ hw
      · exact hw
    · rw [if_pos hm]
      exact List.mem_append_right _ List.mem_cons_self
  rcases h with h | ⟨b, hb, hbm, hbs⟩ | h
  · exact Or.inl h
  · by_cases hab : b = a
    · subst hab
      exact Or.inr (Or.inr (hwait (Or.inr ⟨hbs.symm, hbm⟩)))
    · exact Or.inr (Or.inl ⟨b, (List.mem_erase_of_ne hab).mpr hb, hbm, hbs⟩)
  · exact Or.inr (Or.inr (hwait (Or.inl h)))

theorem Holds.sit {m' : MatchRef} (h : Holds x m' s) (hm : x.mail m = .admitLater t :: rest) :
    Holds (x.sit t m e rest) m' s := by
  rcases h with h | h | h
  · exact Or.inl (mem_crew_update (Or.inl h))
  · exact Or.inr (Or.inl h)
  · by_cases hmm : m = m'
    · subst hmm
      rw [waiting_head hm, List.mem_cons] at h
      rcases h with hs | hw
      · exact Or.inl (mem_crew_update (Or.inr ⟨Job.admitLater.inj hs, rfl⟩))
      · refine Or.inr (Or.inr ?_)
        rw [waiting_sit, if_pos rfl]
        exact hw
    · refine Or.inr (Or.inr ?_)
      rw [waiting_sit, if_neg hmm]
      exact h

theorem Calm.waiting (hc : Calm x y) : (y.waiting m).Sublist (x.waiting m) := by
  obtain ⟨l, hsub, hl⟩ := hc.mail m
  have hnil : l.filter Job.isLater = [] := by
    rw [List.filter_eq_nil_iff]
    intro j hj
    simp [(hl j hj).2.1]
  have hfilter := hsub.filter Job.isLater
  rw [List.filter_append, hnil, List.append_nil] at hfilter
  exact hfilter

def Called (x : Seating) : Prop := ∀ m s, Job.admitLater s ∈ x.mail m → x.ref s ≠ none

theorem Called.calm (h : Called x) (hc : Calm x y) : Called y := by
  intro m s hm
  rw [hc.ref]
  exact h m s (hc.laters rfl hm)

def Told (x : Seating) (m : MatchRef) : Prop := ∀ s, x.ref s = some m → x.Holds m s

theorem Told.firm (h : Told x m) (hc : Calm x y) (hf : Firm x y m) : Told y m := by
  intro s hs
  rw [hc.ref] at hs
  exact (h s hs).firm hc hf

theorem ref_of_update {ref : SessionId → Option MatchRef} {m' : MatchRef}
    (h : Function.update ref t (some m') s = some m) : ref s = some m ∨ s = t ∧ m' = m := by
  by_cases hst : s = t
  · subst hst
    rw [Function.update_self] at h
    exact Or.inr ⟨rfl, Option.some.inj h⟩
  · rw [Function.update_of_ne hst] at h
    exact Or.inl h

theorem Told.enter (h : Told x m) : Told (x.enter a) m := fun s hs => (h s hs).enter

theorem Told.found {loop : Option MatchRef} (h : Told x m) : Told (x.found t loop) m := by
  intro s hs
  rcases ref_of_update hs with hold | ⟨rfl, hm⟩
  · exact (h s hold).found
  · exact Or.inr (Or.inl ⟨_, List.mem_append_right _ List.mem_cons_self, hm, rfl⟩)

theorem Told.openWith (h : Told x m) : Told (x.openWith a e) m := by
  intro s hs
  rcases ref_of_update hs with hold | ⟨rfl, hm⟩
  · exact (h s hold).openWith
  · exact Or.inl (mem_crew_update (Or.inr ⟨rfl, hm⟩))

theorem Told.ask (h : Told x m) : Told (x.ask a) m := by
  intro s hs
  rcases ref_of_update hs with hold | ⟨rfl, hm⟩
  · exact (h s hold).ask
  · refine Or.inr (Or.inr ?_)
    rw [waiting_ask, if_pos hm]
    exact List.mem_append_right _ List.mem_cons_self

theorem Told.sit {m' : MatchRef} (h : Told x m') (hm : x.mail m = .admitLater t :: rest) :
    Told (x.sit t m e rest) m' := fun s hs => (h s hs).sit hm

end Seating

namespace Server

open MatchServer.Core Seating

variable {w : World} {v v' : Server} {e : Event} {act : Action} {es : List Event} {s : SessionId}
  {m : MatchRef} {y : Seating}

theorem called_shift (h : Called v.seating) (hs : v.Shift act y) : Called y := by
  have hset : ∀ {ref : SessionId → Option MatchRef} {s t : SessionId} {m : MatchRef},
      ref s ≠ none → Function.update ref t (some m) s ≠ none := by
    intro ref s t m href
    by_cases hst : s = t
    · rw [hst, Function.update_self]
      exact Option.some_ne_none m
    · rw [Function.update_of_ne hst]
      exact href
  cases hs with
  | quiet => exact h
  | reserve => exact h
  | found => exact fun m s hm => hset (h m s hm)
  | resume => exact fun m s hm => hset (hset (h m s hm))
  | first => exact fun m s hm => hset (h m s hm)
  | ask ha =>
    intro m s hm
    rcases mem_mail_ask hm with hx | ⟨-, hx⟩
    · exact hset (h m s hx)
    · rw [Job.admitLater.inj hx]
      simp [Seating.ask]
  | sit hm => exact fun m' s' hj => h m' s' (mem_mail_sit hm hj)

theorem counted_shift (h : Counted v.seating m) (hs : v.Shift act y) : Counted y m := by
  cases hs with
  | quiet => exact h
  | reserve => exact h.enter
  | found => exact h.found
  | resume => exact h.found.openWith (List.mem_append_right _ List.mem_cons_self)
  | first ha => exact h.openWith ha
  | ask ha => exact h.ask ha
  | sit hm => exact h.sit hm

theorem holds_shift (h : v.seating.Holds m s) (hs : v.Shift act y) : y.Holds m s := by
  cases hs with
  | quiet => exact h
  | reserve => exact h.enter
  | found => exact h.found
  | resume => exact h.found.openWith
  | first => exact h.openWith
  | ask => exact h.ask
  | sit hm => exact h.sit hm

theorem told_shift (h : Told v.seating m) (hs : v.Shift act y) : Told y m := by
  cases hs with
  | quiet => exact h
  | reserve => exact h.enter
  | found => exact h.found
  | resume => exact h.found.openWith
  | first => exact h.openWith
  | ask => exact h.ask
  | sit hm => exact h.sit hm

def letIn : Action → Option Admission
  | .letIn a => some a
  | _ => none

-- While the match gathers: nobody leaves its roster, and its mailbox has room for a join.
def Intact (m : MatchRef) (v : Server) (e : Event) : Prop :=
  v.core.locked m = false →
    (∀ x ∈ v.handles e.act .playerQuitReq, x.2.2 = m → x.1 ∉ (v.core.ms m).players) ∧
    (e.act.ticked = some m →
      ∀ s ∈ (v.core.ms m).players, ¬ (v.core.atMoment e.moment (some m)).lapsed s) ∧
    ∀ a ∈ letIn e.act, a.m = m → a.fresh = false → (v.mail m).length < mailboxCap

instance : Decidable (v.Intact m e) := by
  unfold Intact
  infer_instance

def boarding (v : Server) (act : Action) (m : MatchRef) : List SessionId :=
  match v.seatedBy act with
  | some (s, m') => if m' = m then [s] else []
  | none => []

theorem boarding_of_none (h : v.seatedBy act = none) : v.boarding act m = [] := by
  unfold boarding
  rw [h]

theorem boarding_of_some {m' : MatchRef} (h : v.seatedBy act = some (s, m')) :
    v.boarding act m = if m' = m then [s] else [] := by
  unfold boarding
  rw [h]

theorem crew_shift (h : Fitted v.seating) (hs : v.Shift act y) :
    y.crew m = v.seating.crew m ++ v.boarding act m := by
  rcases takes_or_rests h hs with ⟨hnone, hr⟩ | ⟨s, m', team, hby, ht, -⟩
  · rw [boarding_of_none hnone, List.append_nil, hr.crew]
  · rw [boarding_of_some hby, ht.crew]
    by_cases hm : m' = m
    · rw [hm, Function.update_self, if_pos rfl]
    · rw [Function.update_of_ne (Ne.symm hm), if_neg hm, List.append_nil]

theorem crew_step (h : v.Step w e v') (hx : Fitted v.seating) (hi : v.Intact m e)
    (hl : v.core.locked m = false) :
    (v'.core.ms m).players = (v.core.ms m).players ++ v.boarding e.act m := by
  obtain ⟨hquit, hsweep, -⟩ := hi hl
  have hf := fires_of_step h
  obtain ⟨act, t⟩ := e
  dsimp only at hf hquit hsweep ⊢
  have hkeep : ∀ {F : List Part} {d : Core} {loop : Option MatchRef},
      Keeps F (v.core.atMoment t loop) d → Part.roster ∉ F → v.seatedBy act = none →
      (d.ms m).players = (v.core.ms m).players ++ v.boarding act m := by
    intro F d loop hk hF hnone
    rw [players_of_keeps hk hF, boarding_of_none hnone, List.append_nil]
    rfl
  cases hf with
  | @dispatch s p hj =>
    by_cases hq : ((v.core.atMoment t none).ss s).syncStarted ∨ cmdOf p.cmd = .ack ∨
        cmdOf p.cmd = .ping
    · refine hkeep (dispatch_quiet hq) (by decide) (if_neg fun hh => ?_)
      rcases hq with hx | hx | hx
      · exact absurd hh.2.1 (Bool.not_eq_false _ ▸ hx)
      · exact absurd (hx.symm.trans hh.2.2.1) (by decide)
      · exact absurd (hx.symm.trans hh.2.2.1) (by decide)
    · have hr : v.routed (.dispatch s p) = some (s, p) := if_neg hq
      rw [not_or, not_or] at hq
      have hk : Keeps [.net] (v.core.atMoment t none)
          (((v.core.atMoment t none).touch s).ackIfReliable s p) :=
        keeps_touch.trans (keeps_ackIfReliable.mono (by decide))
      have hcrew := players_of_keeps hk (by decide) m
      have href := matchRef_of_keeps hk (by decide) s
      have hnext := nextRef_of_keeps hk (by decide)
      change (((v.core.atMoment t none).dispatch w s p).ms m).players = _
      rw [dispatch_routes hq.1 hq.2.1 hq.2.2]
      by_cases hre : cmdOf p.cmd = .reconnect ∧ (v.core.ss s).matchRef = none
      · have hby : v.seatedBy (.dispatch s p) = some (s, v.core.nextRef) :=
          if_pos ⟨hj, Bool.eq_false_iff.mpr hq.1, hre⟩
        rw [boarding_of_some hby]
        unfold route
        rw [hre.1]
        dsimp only
        rw [players_handleHello, hcrew, href, hnext]
        by_cases hm : m = v.core.nextRef
        · rw [if_pos ⟨hm, hre⟩, if_pos hm.symm]
          rfl
        · rw [if_neg fun hh => hm hh.1, if_neg (Ne.symm hm), List.append_nil]
          rfl
      · have hnone : v.seatedBy (.dispatch s p) = none := if_neg fun hh => hre hh.2.2
        rw [boarding_of_none hnone, List.append_nil, players_route_eq, hcrew]
        · rfl
        · intro hcmd hm
          rw [href] at hm
          rw [hcrew]
          exact hquit (s, p, m) (handles_eq_some.mpr ⟨hr, hcmd, hm⟩) rfl
        · intro hcmd hm
          rw [href] at hm
          exact absurd ⟨hcmd, hm⟩ hre
  | @letIn a ha =>
    change (((v.core.atMoment t a.loop).admission w a).ms m).players = _
    rw [players_admission_eq]
    by_cases hfresh : a.fresh = true
    · have hby : v.seatedBy (.letIn a) = some (a.s, a.m) := if_pos ⟨ha, hfresh⟩
      rw [boarding_of_some hby]
      by_cases hm : a.m = m
      · rw [if_pos ⟨hfresh, hm⟩, if_pos hm]
        rfl
      · rw [if_neg fun hh => hm hh.2, if_neg hm, List.append_nil]
        rfl
    · have hnone : v.seatedBy (.letIn a) = none := if_neg fun hh => hfresh hh.2
      rw [boarding_of_none hnone, if_neg fun hh => hfresh hh.1, List.append_nil]
      rfl
  | @start m' _ => exact hkeep keeps_runStart (by decide) rfl
  | @exec m' job rest hmail hfree =>
    cases job with
    | route s p =>
      have hr : v.routed (.exec m') = some (s, p) := by simp [routed, hmail]
      have href : (v.core.ss s).matchRef ≠ none := hx.linked.routes m' s p (by
        change Job.route s p ∈ v.mail m'
        rw [hmail]
        exact List.mem_cons_self)
      have hnone : v.seatedBy (.exec m') = none := by simp [seatedBy, hmail]
      rw [boarding_of_none hnone, List.append_nil]
      refine (players_route_eq (c := v.core.atMoment t (some m')) (fun hcmd hm => ?_)
        fun _ hm => absurd hm href).trans rfl
      exact hquit (s, p, m) (handles_eq_some.mpr ⟨hr, hcmd, hm⟩) rfl
    | admitLater s =>
      by_cases hs : (v.core.ss s).matchRef = none
      · have hnone : v.seatedBy (.exec m') = none := by simp [seatedBy, hmail, hs]
        rw [boarding_of_none hnone, List.append_nil]
        change (((v.core.atMoment t (some m')).admitLater w s m').ms m).players = _
        unfold admitLater withMatch
        rw [show ((v.core.atMoment t (some m')).ss s).matchRef = none from hs]
        rfl
      · have hby : v.seatedBy (.exec m') = some (s, m') := by simp [seatedBy, hmail, hfree, hs]
        rw [boarding_of_some hby]
        refine (players_admitLater_eq (c := v.core.atMoment t (some m')) hs).trans ?_
        by_cases hm : m = m'
        · rw [if_pos hm, if_pos hm.symm]
          rfl
        · rw [if_neg hm, if_neg (Ne.symm hm), List.append_nil]
          rfl
    | resyncWalls s =>
      exact hkeep keeps_resyncWalls (by decide) (by simp [seatedBy, hmail])
  | @tick m' _ =>
    rw [boarding_of_none rfl, List.append_nil]
    rcases @players_tick w (v.core.atMoment t (some m')) m' m with heq | ⟨q, hq, hm, -⟩
    · exact heq
    · subst hm
      have hin := List.mem_of_find?_eq_some hq
      have hlapsed := List.find?_some hq
      exact absurd (of_decide_eq_true hlapsed) (hsweep rfl q hin)
  | @stop m' _ _ => exact hkeep keeps_stopLoop (by decide) rfl

theorem prefix_delivered (posts : List (MatchRef × Job)) (mail : MatchRef → List Job) :
    mail m <+: posts.foldl deliver mail m := by
  induction posts generalizing mail with
  | nil => exact List.prefix_refl _
  | cons post posts ih =>
    refine List.IsPrefix.trans ?_ (ih (deliver mail post))
    unfold deliver
    split
    · by_cases hm : m = post.1
      · subst hm
        rw [Function.update_self]
        exact List.prefix_append _ _
      · rw [Function.update_of_ne hm]
    · exact List.prefix_refl _

theorem later_delivered {c : Core} {a : Admission} {mail : MatchRef → List Job} (hposts : c.posts = [])
    (hf : a.fresh = false) (hroom : (mail a.m).length < mailboxCap) :
    (settle (c.admission w a) mail).mail = Function.update mail a.m (mail a.m ++ [.admitLater a.s]) := by
  have hpost : (c.admission w a).posts = [(a.m, .admitLater a.s)] := by
    unfold admission admitSession
    rw [if_neg (by simp [hf])]
    simp [enqueue, onSession, hposts]
  simp only [settle, hpost, List.foldl_cons, List.foldl_nil]
  unfold deliver
  rw [if_pos hroom]

theorem waiting_kept (h : v.Step w e v') (hx : Called v.seating) (hs : v.Shift e.act y)
    (hroom : ∀ a ∈ letIn e.act, a.m = m → a.fresh = false → (v.mail m).length < mailboxCap) :
    (y.waiting m).Sublist (v'.seating.waiting m) := by
  have hf := fires_of_step h
  obtain ⟨act, t⟩ := e
  dsimp only at hf hs hroom
  have hsub : ∀ {c : Core} {mail : MatchRef → List Job},
      ((mail m).filter Job.isLater).Sublist ((settle c mail).seating.waiting m) := fun {c mail} =>
    (prefix_delivered c.posts mail).sublist.filter Job.isLater
  cases hf with
  | dispatch =>
    cases hs with
    | quiet => exact hsub
    | reserve => exact hsub
    | found => exact hsub
    | resume => exact hsub
  | @letIn a ha =>
    cases hs with
    | quiet => exact hsub
    | reserve hr => exact absurd hr id
    | found hr => exact absurd hr id
    | first => exact hsub
    | ask _ hfresh =>
      rw [waiting_ask]
      split
      · rename_i hm
        subst hm
        have hmail := later_delivered (w := w) (c := v.core.atMoment t a.loop) rfl hfresh
          (hroom a rfl rfl hfresh)
        change (v.seating.waiting a.m ++ _).Sublist
          (((settle ((v.core.atMoment t a.loop).admission w a) v.mail).mail a.m).filter Job.isLater)
        rw [hmail, Function.update_self, List.filter_append]
        exact List.Sublist.refl _
      · exact hsub
  | start =>
    cases hs with
    | quiet => exact hsub
    | reserve hr => exact absurd hr id
    | found hr => exact absurd hr id
  | @exec m' job rest hmail hfree =>
    have hrest : ∀ {c : Core}, (if m' = m then rest.filter Job.isLater
        else v.seating.waiting m).Sublist
          ((settle c (Function.update v.mail m' rest)).seating.waiting m) := by
      intro c
      refine List.Sublist.trans ?_ (@hsub c (Function.update v.mail m' rest))
      split
      · rename_i hm
        rw [hm, Function.update_self]
      · rename_i hm
        rw [Function.update_of_ne (Ne.symm hm)]
        exact List.Sublist.refl _
    have hsame : job.isLater = false → v.seating.waiting m =
        if m' = m then rest.filter Job.isLater else v.seating.waiting m := by
      intro hj
      split
      · rename_i hm
        subst hm
        change (v.mail m').filter Job.isLater = _
        rw [hmail, List.filter_cons_of_neg (by simp [hj])]
      · rfl
    cases hs with
    | quiet hnone =>
      rw [hsame]
      · exact hrest
      · cases job with
        | admitLater s =>
          have href : (v.core.ss s).matchRef ≠ none := hx m' s (by
            change Job.admitLater s ∈ v.mail m'
            rw [hmail]
            exact List.mem_cons_self)
          simp [seatedBy, hmail, hfree, href] at hnone
        | route => rfl
        | resyncWalls => rfl
    | reserve hr =>
      obtain ⟨-, rest', hm⟩ := hr
      rw [hmail] at hm
      obtain ⟨rfl, -⟩ := List.cons.inj hm
      change (v.seating.waiting m).Sublist _
      rw [hsame rfl]
      exact hrest
    | found hr =>
      obtain ⟨-, rest', hm⟩ := hr
      rw [hmail] at hm
      obtain ⟨rfl, -⟩ := List.cons.inj hm
      change (v.seating.waiting m).Sublist _
      rw [hsame rfl]
      exact hrest
    | sit hm =>
      rw [hmail] at hm
      obtain ⟨rfl, rfl⟩ := List.cons.inj hm
      rw [waiting_sit]
      exact hrest
  | tick =>
    cases hs with
    | quiet => exact hsub
    | reserve hr => exact absurd hr id
    | found hr => exact absurd hr id
  | stop =>
    cases hs with
    | quiet => exact hsub
    | reserve hr => exact absurd hr id
    | found hr => exact absurd hr id

theorem firm_step (h : v.Step w e v') (hx : Fitted v.seating) (hcalled : Called v.seating)
    (hs : v.Shift e.act y) (hc : Calm y v'.seating) (hi : v.Intact m e)
    (hl : v.core.locked m = false) : Firm y v'.seating m := by
  refine ⟨?_, ?_⟩
  · rw [crew_shift hx hs]
    exact crew_step h hx hi hl
  · exact hc.waiting.antisymm (waiting_kept h hcalled hs (hi hl).2.2)

theorem locks_step (h : v.Step w e v') : Locks v.core v'.core := by
  have hf := fires_of_step h
  obtain ⟨act, t⟩ := e
  dsimp only at hf
  have hat : ∀ loop, Locks v.core (v.core.atMoment t loop) := fun _ _ hl => hl
  cases hf with
  | @dispatch s p _ =>
    refine (hat none).trans ?_
    by_cases hq : ((v.core.atMoment t none).ss s).syncStarted ∨ cmdOf p.cmd = .ack ∨
        cmdOf p.cmd = .ping
    · exact locks_of_keeps (dispatch_quiet hq) (by decide)
    · rw [not_or, not_or] at hq
      have hk : Keeps [.net] (v.core.atMoment t none)
          (((v.core.atMoment t none).touch s).ackIfReliable s p) :=
        keeps_touch.trans (keeps_ackIfReliable.mono (by decide))
      change Locks _ ((v.core.atMoment t none).dispatch w s p)
      rw [dispatch_routes hq.1 hq.2.1 hq.2.2]
      exact (locks_of_keeps hk (by decide)).trans (locks_of_keeps keeps_route (lock_not_written _))
  | @letIn a _ =>
    have hk : Keeps [.registry] (v.core.atMoment t a.loop)
        { v.core.atMoment t a.loop with admits := v.core.admits.erase a } := keeps_registry
    exact (hat a.loop).trans ((locks_of_keeps hk (by decide)).trans
      (locks_of_keeps keeps_admitSession (by decide)))
  | @start m _ => exact (hat (some m)).trans (locks_of_keeps keeps_runStart (by decide))
  | @exec m job rest _ _ =>
    refine (hat (some m)).trans ?_
    cases job with
    | route s p => exact locks_of_keeps keeps_route (lock_not_written _)
    | admitLater s => exact locks_of_keeps keeps_admitLater (by decide)
    | resyncWalls s => exact locks_of_keeps keeps_resyncWalls (by decide)
  | @tick m _ => exact (hat (some m)).trans locks_tick
  | @stop m _ _ => exact (hat (some m)).trans (locks_of_keeps keeps_stopLoop (by decide))

theorem gathering_before (h : v.Step w e v') (hl : v'.core.locked m = false) :
    v.core.locked m = false := by
  by_contra hc
  rw [locks_step h m (by simpa using hc)] at hl
  exact Bool.noConfusion hl

structure Gathers (m : MatchRef) (v : Server) : Prop where
  fitted : Fitted v.seating
  called : Called v.seating
  counted : v.core.locked m = false → Counted v.seating m
  told : v.core.locked m = false → Told v.seating m

theorem gathers_start : Gathers m start where
  fitted := fitted_start
  called := nofun
  counted := fun _ => rfl
  told := nofun

theorem gathers_step (h : v.Step w e v') (hi : v.Intact m e) (hg : Gathers m v) : Gathers m v' := by
  obtain ⟨y, hs, hc⟩ := shifts h hg.fitted.linked
  refine ⟨fitted_step h hg.fitted, (called_shift hg.called hs).calm hc, fun hl => ?_, fun hl => ?_⟩
  all_goals
    have hl' := gathering_before h hl
    have hfirm := firm_step h hg.fitted hg.called hs hc hi hl'
  · exact (counted_shift (hg.counted hl') hs).firm hc hfirm
  · exact (told_shift (hg.told hl') hs).firm hc hfirm

theorem holds_step (h : v.Step w e v') (hi : v.Intact m e) (hg : Gathers m v)
    (hl : v.core.locked m = false) (hs : v.seating.Holds m s) : v'.seating.Holds m s := by
  obtain ⟨y, hshift, hc⟩ := shifts h hg.fitted.linked
  exact (holds_shift hs hshift).firm hc (firm_step h hg.fitted hg.called hshift hc hi hl)

theorem gathers_of_run (h : Run (Guarded (Step w) (Intact m)) start es v) : Gathers m v :=
  run_invariant (I := Gathers m) h gathers_start fun hg hs => gathers_step hs.1 hs.2 hg

theorem holds_of_run (h : Run (Guarded (Step w) (Intact m)) start es v) :
    v.core.locked m = false → ∀ es₁ es₂ u s, es = es₁ ++ es₂ → Run (Step w) start es₁ u →
      u.seating.Holds m s → v.seating.Holds m s := by
  induction h with
  | start =>
    intro _ es₁ es₂ u s hes hu hs
    obtain ⟨rfl, -⟩ := List.append_eq_nil_iff.mp hes.symm
    have heq := foldlM_of_run hu
    obtain rfl := Option.some.inj heq
    exact hs
  | @next es t v e hrun hstep ih =>
    intro hl es₁ es₂ u s hes hu hs
    have hl' := gathering_before hstep.1 hl
    rcases List.eq_nil_or_concat es₂ with rfl | ⟨es₂', e', rfl⟩
    · rw [List.append_nil] at hes
      subst hes
      have h1 := foldlM_of_run hu
      have h2 := foldlM_of_run (Run.next (guarded_run hrun) hstep.1)
      obtain rfl := Option.some.inj (h1.symm.trans h2)
      exact hs
    · rw [List.concat_eq_append, ← List.append_assoc] at hes
      obtain ⟨hes', -⟩ := List.append_inj' hes rfl
      exact holds_step hstep.1 hstep.2 (gathers_of_run hrun) hl' (ih hl' es₁ es₂' u s hes' hu hs)

structure Reserves (w : World) (es : List Event) (v : Server) (m : MatchRef) : Prop where
  count : (v.core.ms m).reserved = (v.core.ms m).players.length + v.seating.entering m +
    (v.mail m).countP Job.isLater
  settled : (∀ a ∈ v.core.admits, a.m ≠ m) → (v.core.ms m).reserved =
    (v.core.ms m).players.length + (v.mail m).countP Job.isLater
  full : (v.core.ms m).canAdmit = false → maxPlayers ≤ (v.core.ms m).players.length +
    v.seating.entering m + (v.mail m).countP Job.isLater
  told : ∀ s, (v.core.ss s).matchRef = some m → v.seating.Holds m s
  kept : ∀ es₁ es₂ u s, es = es₁ ++ es₂ → Run (Step w) start es₁ u → u.seating.Holds m s →
    v.seating.Holds m s

theorem reservations (h : Run (Guarded (Step w) (Intact m)) start es v)
    (hl : v.core.locked m = false) : Reserves w es v m := by
  have hg := gathers_of_run h
  have hcount : (v.core.ms m).reserved = (v.core.ms m).players.length + v.seating.entering m +
      (v.mail m).countP Job.isLater := by
    rw [List.countP_eq_length_filter]
    exact hg.counted hl
  refine ⟨hcount, fun hnone => ?_, fun hfull => ?_, hg.told hl, holds_of_run h hl⟩
  · have hzero : v.seating.entering m = 0 :=
      List.countP_eq_zero.mpr fun a ha => by simpa using hnone a ha
    rw [hcount, hzero, Nat.add_zero]
  · rw [← hcount]
    unfold locked at hl
    unfold Match.canAdmit at hfull
    simp_all

theorem reservations_of_pair : ∃ v, Run (Guarded (Step signedWorld) (Intact 0)) start pairUp v ∧
    (v.core.ms 0).players = [0, 1] ∧ (v.core.ms 0).reserved = 2 ∧ v.core.locked 0 = false ∧
    Reserves signedWorld pairUp v 0 := by
  have hrun : (pairUp.foldlM (fun v e => if Intact 0 v e then step signedWorld v e else none)
      start).map (fun v : Server =>
        ((v.core.ms 0).players, (v.core.ms 0).reserved, v.core.locked 0)) =
      some ([0, 1], 2, false) := by
    decide +kernel
  obtain ⟨v, hv, hp⟩ := Option.map_eq_some_iff.mp hrun
  simp only [Prod.mk.injEq] at hp
  obtain ⟨hplayers, hreserved, hopen⟩ := hp
  have h := run_of_checked hv
  exact ⟨v, h, hplayers, hreserved, hopen, reservations h hopen⟩

-- The second player quits before the match has started.
def leftEarly : List Event := pairUp ++ sends 3 1 0 quitRequest

theorem reservation_outlives_quit : ∃ v, Run (Step signedWorld) start leftEarly v ∧
    v.core.locked 0 = false ∧ v.core.admits = [] ∧ v.mail 0 = [] ∧ (v.core.ms 0).players = [0] ∧
    (v.core.ms 0).reserved = 2 ∧ (v.core.ss 1).matchRef = some 0 ∧
    ¬ Reserves signedWorld leftEarly v 0 := by
  have hrun : (leftEarly.foldlM (step signedWorld) start).map (fun v : Server =>
      (v.core.locked 0, v.core.admits.isEmpty && (v.mail 0).isEmpty, (v.core.ms 0).players,
        (v.core.ms 0).reserved, (v.core.ss 1).matchRef)) = some (false, true, [0], 2, some 0) := by
    decide +kernel
  obtain ⟨v, hv, hp⟩ := Option.map_eq_some_iff.mp hrun
  simp only [Prod.mk.injEq, Bool.and_eq_true, List.isEmpty_iff] at hp
  obtain ⟨hopen, ⟨hadmits, hmail⟩, hplayers, hreserved, href⟩ := hp
  refine ⟨v, run_of_foldlM hv, hopen, hadmits, hmail, hplayers, hreserved, href, fun h => ?_⟩
  have hsettled := h.settled (by simp [hadmits])
  rw [hreserved, hplayers, hmail] at hsettled
  exact absurd hsettled (by decide)

end Server

end MatchServer

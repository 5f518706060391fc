import Madoka.Lib.Watchdog
import Madoka.MatchServer.Reservations

namespace MatchServer

open Lib

def Session.pulse (p : Session) : Pulse := ⟨p.lastSeen, p.disconnected, p.disconnectedAt⟩

-- What the sweep does to a player that it looks at.
def Session.sight (now : Int) (p : Session) : Session :=
  { p with
    disconnected := (p.pulse.look disconnectTimeout now).silent
    disconnectedAt := (p.pulse.look disconnectTimeout now).since }

theorem Session.pulse_sight {now : Int} {p : Session} :
    (p.sight now).pulse = p.pulse.look disconnectTimeout now := by
  have hseen : (p.pulse.look disconnectTimeout now).seen = p.lastSeen := Pulse.seen_look
  exact (congrArg (fun x => Pulse.mk x (p.pulse.look disconnectTimeout now).silent
    (p.pulse.look disconnectTimeout now).since) hseen).symm

theorem Session.sight_same {now : Int} {p : Session}
    (h : p.pulse.look disconnectTimeout now = p.pulse) : p.sight now = p := by
  unfold sight
  rw [h]
  rfl

theorem Session.sight_sight {now : Int} {p : Session} :
    (p.sight now).sight now = p.sight now :=
  sight_same (by rw [pulse_sight, Pulse.look_look])

namespace Core

variable {w : World} {c d : Core} {s t : SessionId} {m m' : MatchRef} {F : List Part}
  {ps : List SessionId}

theorem lapsed_iff : c.lapsed s ↔
    (c.ss s).pulse.Lapsed disconnectTimeout reconnectGrace c.now := Iff.rfl

def sight (c : Core) (p : SessionId) : Core := c.onSession p (Session.sight c.now)

-- The players whom the sweep looks at: it ends at the first that has lapsed.
def reached (c : Core) : List SessionId → List SessionId
  | [] => []
  | p :: ps => p :: if c.lapsed p then [] else reached c ps

theorem reached_cons {p : SessionId} :
    c.reached (p :: ps) = p :: if c.lapsed p then [] else c.reached ps := rfl

theorem onSession_self {f : Session → Session} (h : f (c.ss s) = c.ss s) : c.onSession s f = c := by
  unfold onSession
  rw [h, Function.update_eq_self]

theorem sweepFrom_cons {p : SessionId} : sweepFrom m (p :: ps) c =
    if c.lapsed p then (c.sight p).removePlayer p m else sweepFrom m ps (c.sight p) := by
  by_cases hzero : (c.ss p).lastSeen = 0
  · have hsame : c.sight p = c := onSession_self (Session.sight_same (Pulse.look_unseen hzero))
    rw [if_neg fun hl => hl.1 hzero, hsame, sweepFrom, if_pos hzero]
  by_cases hearly : c.now - (c.ss p).lastSeen < disconnectTimeout
  · have hmark : (c.onSession p fun q => { q with disconnected := false }) = c.sight p := by
      unfold sight onSession Session.sight
      rw [Pulse.look_early (p := (c.ss p).pulse) hzero hearly]
      rfl
    rw [if_neg fun hl => Int.not_lt.mpr hl.2.1 hearly, sweepFrom, if_neg hzero, if_pos hearly, hmark]
  cases hdis : (c.ss p).disconnected with
  | true =>
    have hsame : c.sight p = c :=
      onSession_self (Session.sight_same (Pulse.look_silent hdis (Int.not_lt.mp hearly)))
    rw [hsame, sweepFrom, if_neg hzero, if_neg hearly]
    dsimp only
    rw [if_pos hdis]
    refine if_congr ?_ rfl rfl
    exact ⟨fun hg => ⟨hzero, Int.not_lt.mp hearly, hdis, hg⟩, fun hl => hl.2.2.2⟩
  | false =>
    have hmark : (c.onSession p fun q => { q with disconnected := true, disconnectedAt := c.now }) =
        c.sight p := by
      unfold sight onSession Session.sight
      rw [Pulse.look_late (p := (c.ss p).pulse) hdis hzero (Int.not_lt.mp hearly)]
    have hno : ¬ (c.ss p).disconnected = true := by simp [hdis]
    rw [if_neg fun hl => hno hl.2.2.1, sweepFrom, if_neg hzero, if_neg hearly]
    dsimp only
    rw [if_neg hno, hmark, if_neg]
    rw [← hmark]
    simp [onSession, reconnectGrace]

theorem lapsed_sight (h : ¬ c.lapsed s) : (c.sight s).lapsed t ↔ c.lapsed t := by
  by_cases ht : t = s
  · subst ht
    refine iff_of_false (fun hl => h ?_) h
    rw [lapsed_iff] at hl ⊢
    simp only [sight, onSession_ss, if_true, Session.pulse_sight] at hl
    have hnow : (c.onSession t (Session.sight c.now)).now = c.now := rfl
    rw [hnow] at hl
    exact Pulse.lapsed_of_look (by decide) hl
  · unfold lapsed sight
    rw [onSession_ss, if_neg ht]
    rfl

theorem reached_sight (h : ¬ c.lapsed s) : (c.sight s).reached ps = c.reached ps := by
  induction ps with
  | nil => rfl
  | cons p ps ih =>
    rw [reached_cons, reached_cons, ih]
    simp only [lapsed_sight h]

theorem sweepFrom_eq : sweepFrom m ps c =
    match ps.find? fun p => decide (c.lapsed p) with
    | some p => ((c.reached ps).foldl sight c).removePlayer p m
    | none => (c.reached ps).foldl sight c := by
  induction ps generalizing c with
  | nil => rfl
  | cons p ps ih =>
    rw [sweepFrom_cons]
    by_cases hl : c.lapsed p
    · rw [if_pos hl, List.find?_cons_of_pos (by simpa using hl)]
      rw [reached_cons, if_pos hl]
      rfl
    · have hfind : (ps.find? fun q => decide ((c.sight p).lapsed q)) =
          ps.find? fun q => decide (c.lapsed q) :=
        List.find?_congr fun q _ => decide_eq_decide.mpr (lapsed_sight hl)
      rw [if_neg hl, List.find?_cons_of_neg (by simpa using hl), ih, hfind, reached_sight hl]
      rw [reached_cons, if_neg hl, List.foldl_cons]

theorem ms_sights {l : List SessionId} : (l.foldl sight c).ms = c.ms := by
  induction l generalizing c with
  | nil => rfl
  | cons p l ih => exact ih

theorem ss_sights {l : List SessionId} : (l.foldl sight c).ss t =
    if t ∈ l then (c.ss t).sight c.now else c.ss t := by
  induction l generalizing c with
  | nil => rfl
  | cons p l ih =>
    rw [List.foldl_cons, ih]
    have hnow : (c.sight p).now = c.now := rfl
    by_cases ht : t = p
    · subst ht
      have hsame : (c.sight t).ss t = (c.ss t).sight c.now := by simp [sight]
      rw [hsame, hnow, Session.sight_sight, if_pos List.mem_cons_self]
      split <;> rfl
    · have hother : (c.sight p).ss t = c.ss t := by simp [sight, ht]
      rw [hother, hnow]
      simp only [List.mem_cons, ht, false_or]

-- Only whom some of the sessions watch has changed.
structure Refocus (c d : Core) (l : List SessionId) : Prop where
  ms : d.ms = c.ms
  sessions : ∀ t, ∃ e, d.ss t = { c.ss t with observing := e }
  others : ∀ t ∉ l, d.ss t = c.ss t

theorem Refocus.refl {l : List SessionId} : Refocus c c l :=
  ⟨rfl, fun t => ⟨(c.ss t).observing, rfl⟩, fun _ _ => rfl⟩

theorem Refocus.trans {e : Core} {l : List SessionId} (h : Refocus c d l) (h' : Refocus d e l) :
    Refocus c e l := by
  refine ⟨h'.ms.trans h.ms, fun t => ?_, fun t ht => (h'.others t ht).trans (h.others t ht)⟩
  obtain ⟨e1, h1⟩ := h.sessions t
  obtain ⟨e2, h2⟩ := h'.sessions t
  rw [h2, h1]
  exact ⟨e2, rfl⟩

theorem Refocus.send {l : List SessionId} {msg : Msg} (h : Refocus c d l) :
    Refocus c (d.send s msg) l := ⟨h.ms, h.sessions, h.others⟩

theorem Refocus.ite {P : Prop} [Decidable P] {e : Core} {l : List SessionId} (h : Refocus c d l)
    (h' : Refocus c e l) : Refocus c (if P then d else e) l := by
  split
  · exact h
  · exact h'

theorem refocus_onSession {l : List SessionId} {target : Nat} (hs : s ∈ l) :
    Refocus c (c.onSession s fun p => { p with observing := target }) l := by
  refine ⟨rfl, fun t => ?_, fun t ht => ?_⟩
  · rw [onSession_ss]
    by_cases hts : t = s
    · subst hts
      rw [if_pos rfl]
      exact ⟨target, rfl⟩
    · rw [if_neg hts]
      exact ⟨(c.ss t).observing, rfl⟩
  · have hts : t ≠ s := fun hts => ht (hts.symm ▸ hs)
    rw [onSession_ss, if_neg hts]

theorem refocus_repointSpectator {l : List SessionId} {prefer : Nat} (hs : s ∈ l) :
    Refocus c (repointSpectator m prefer c s) l := by
  unfold repointSpectator
  dsimp only
  exact Refocus.ite (refocus_onSession hs).send (refocus_onSession hs)

theorem refocus_repointSpectators {gone prefer : Nat} :
    Refocus c (c.repointSpectators m gone prefer) (c.spectatorsOf m gone) := by
  have hall : ∀ l' ⊆ c.spectatorsOf m gone, ∀ d : Core,
      Refocus d (l'.foldl (repointSpectator m prefer) d) (c.spectatorsOf m gone) := by
    intro l'
    induction l' with
    | nil => exact fun _ _ => Refocus.refl
    | cons sp l' ih =>
      intro hsub d
      exact (refocus_repointSpectator (hsub List.mem_cons_self)).trans
        (ih (fun t ht => hsub (List.mem_cons_of_mem _ ht)) _)
  exact hall _ (fun _ ht => ht) c

-- What a removal takes, and what it leaves.
structure Removes (c d : Core) (s : SessionId) (m : MatchRef) : Prop where
  roster : (d.ms m).players = (c.ms m).players.filter fun p => decide (p ≠ s)
  leader : (c.ms m).s ∈ (c.ms m).players → (d.ms m).players ≠ [] → (d.ms m).s ∈ (d.ms m).players
  rest : d.ms m = { c.ms m with
    players := (d.ms m).players
    s := (d.ms m).s
    hp := (c.ms m).hp.erase (c.ss s).entityID
    life := (c.ms m).life.erase (c.ss s).entityID
    knock := (c.ms m).knock.erase (c.ss s).entityID
    deeds := (d.ms m).deeds }
  elsewhere : ∀ m' ≠ m, d.ms m' = c.ms m'
  sessions : ∀ t, ∃ e, d.ss t = { c.ss t with observing := e }
  watchers : ∀ t, (c.ss t).observing ≠ (c.ss s).entityID ∨ t ∉ (d.ms m).players →
    d.ss t = c.ss t

def struckOff (g : Match) (s : SessionId) (e : Nat) : Match :=
  { g with
    players := g.players.filter fun p => decide (p ≠ s)
    s := if g.s = s then (g.players.filter fun p => decide (p ≠ s)).headD g.s else g.s
    hp := g.hp.erase e
    life := g.life.erase e
    knock := g.knock.erase e }

theorem leader_struckOff {g : Match} {e : Nat} (h : g.s ∈ g.players)
    (hne : (struckOff g s e).players ≠ []) : (struckOff g s e).s ∈ (struckOff g s e).players := by
  unfold struckOff at hne ⊢
  dsimp only at hne ⊢
  split
  · obtain ⟨p, rest, hp⟩ := List.exists_cons_of_ne_nil hne
    rw [hp]
    exact List.mem_cons_self
  · rename_i hs
    exact List.mem_filter.mpr ⟨h, decide_eq_true hs⟩

theorem removes_removePlayer (hs : s ∈ (c.ms m).players) : Removes c (c.removePlayer s m) s m := by
  have hfound : c.sessionByEntity m (c.ss s).entityID ≠ none := by
    unfold sessionByEntity
    rw [ne_eq, List.find?_eq_none]
    exact fun h => h s hs (by simp)
  obtain ⟨d, hms, helse, hss, heq⟩ : ∃ d : Core, d.ms m =
      { struckOff (c.ms m) s (c.ss s).entityID with deeds := (d.ms m).deeds } ∧
      (∀ m' ≠ m, d.ms m' = c.ms m') ∧ d.ss = c.ss ∧
      c.removePlayer s m = d.repointSpectators m (c.ss s).entityID 0 := by
    unfold removePlayer
    dsimp only
    rw [if_neg hfound]
    refine ⟨_, ?_, fun m' hm' => ?_, ?_, rfl⟩
    · unfold tally note
      rw [onMatch_ms, if_pos rfl, onMatch_ms, if_pos rfl]
      rfl
    · unfold tally note
      rw [onMatch_ms, if_neg hm', onMatch_ms, if_neg hm']
      rfl
    · rfl
  have hfocus := @refocus_repointSpectators d m (c.ss s).entityID 0
  rw [← heq] at hfocus
  have hmatch : (c.removePlayer s m).ms m =
      { struckOff (c.ms m) s (c.ss s).entityID with deeds := (d.ms m).deeds } := by
    rw [hfocus.ms]
    exact hms
  refine ⟨?_, fun hlead hne => ?_, ?_, fun m' hm' => ?_, fun t => ?_, fun t ht => ?_⟩
  · rw [hmatch]
    rfl
  · rw [hmatch] at hne ⊢
    exact @leader_struckOff s (c.ms m) (c.ss s).entityID hlead hne
  · rw [hmatch]
    rfl
  · rw [hfocus.ms, helse m' hm']
  · have h := hfocus.sessions t
    rwa [hss] at h
  · have h := hfocus.others t fun hin => ?_
    · rwa [hss] at h
    · obtain ⟨hplay, hobs⟩ := List.mem_filter.mp hin
      rw [hss] at hobs
      rcases ht with ht | ht
      · exact ht (beq_iff_eq.mp hobs)
      · rw [hfocus.ms] at ht
        exact ht hplay

def outcast (c : Core) (m : MatchRef) : Option SessionId :=
  (c.ms m).players.find? fun p => decide (c.lapsed p)

theorem pulse_of_keeps (h : Keeps F c d) (hF : Part.net ∉ F) (t : SessionId) :
    (d.ss t).pulse = (c.ss t).pulse := by
  have hs := (h _ hF).2.1 t
  simp only [Part.sameSession, Prod.mk.injEq] at hs
  simp only [Session.pulse, hs]

theorem reached_of_keeps (h : Keeps F c d) (hn : Part.net ∉ F) (hm : Part.moment ∉ F) :
    d.reached ps = c.reached ps := by
  induction ps with
  | nil => rfl
  | cons p ps ih =>
    rw [reached_cons, reached_cons, ih]
    simp only [lapsed_of_keeps h hn hm]

theorem outcast_of_keeps (h : Keeps F c d) (hF : ∀ x ∈ F, x ∉ [.net, .moment, .roster]) :
    d.outcast m = c.outcast m := by
  unfold outcast
  rw [players_of_keeps h (fun hm => hF _ hm (by decide)) m]
  refine List.find?_congr fun q _ => decide_eq_decide.mpr ?_
  exact lapsed_of_keeps h (fun hm => hF _ hm (by decide)) fun hm => hF _ hm (by decide)

theorem outcast_mem (h : c.outcast m = some s) : s ∈ (c.ms m).players := List.mem_of_find?_eq_some h

theorem sweepDisconnects_eq : c.sweepDisconnects m =
    match c.outcast m with
    | some p => ((c.reached (c.ms m).players).foldl sight c).removePlayer p m
    | none => (c.reached (c.ms m).players).foldl sight c := sweepFrom_eq

structure Marks (c d : Core) : Prop where
  ms : d.ms = c.ms
  sessions : ∀ t, ∃ b i, d.ss t = { c.ss t with disconnected := b, disconnectedAt := i }

theorem marks_sights {l : List SessionId} : Marks c (l.foldl sight c) := by
  refine ⟨ms_sights, fun t => ?_⟩
  rw [ss_sights]
  split
  · exact ⟨_, _, rfl⟩
  · exact ⟨(c.ss t).disconnected, (c.ss t).disconnectedAt, rfl⟩

theorem sweep_removes : c.outcast m = none ∧ Marks c (c.sweepDisconnects m) ∨
    ∃ s d, c.outcast m = some s ∧ Marks c d ∧ Removes d (c.sweepDisconnects m) s m := by
  rw [sweepDisconnects_eq]
  cases hout : c.outcast m with
  | none => exact Or.inl ⟨rfl, marks_sights⟩
  | some s =>
    refine Or.inr ⟨s, (c.reached (c.ms m).players).foldl sight c, rfl, marks_sights,
      removes_removePlayer ?_⟩
    rw [ms_sights]
    exact outcast_mem hout

theorem crew_sweep : ((c.sweepDisconnects m).ms m).players =
    match c.outcast m with
    | some p => (c.ms m).players.filter fun q => decide (q ≠ p)
    | none => (c.ms m).players := by
  rw [sweepDisconnects_eq]
  cases hout : c.outcast m with
  | none => rw [ms_sights]
  | some p =>
    have hin : p ∈ (((c.reached (c.ms m).players).foldl sight c).ms m).players := by
      rw [ms_sights]
      exact outcast_mem hout
    dsimp only
    rw [(removes_removePlayer hin).roster, ms_sights]

theorem pulse_sights {l : List SessionId} : ((l.foldl sight c).ss t).pulse =
    if t ∈ l then (c.ss t).pulse.look disconnectTimeout c.now else (c.ss t).pulse := by
  rw [ss_sights]
  split
  · exact Session.pulse_sight
  · rfl

theorem pulse_sweep : ((c.sweepDisconnects m).ss t).pulse =
    if t ∈ c.reached (c.ms m).players then (c.ss t).pulse.look disconnectTimeout c.now
    else (c.ss t).pulse := by
  rw [sweepDisconnects_eq, ← pulse_sights]
  split
  · exact pulse_of_keeps keeps_removePlayer (by decide) t
  · rfl

theorem keeps_rest (hp : (c.ms m).players ≠ []) :
    Keeps [.flags, .body, .hp, .kit, .life, .knock, .score, .fell, .rescues, .roundKills, .deeds]
      ((c.beforeSweep w m).sweepDisconnects m) (c.tick w m) := by
  rw [tick_eq hp]
  refine Frame.trans ?_ (Frame.foldl (fun _ _ => keeps_stepPlayer.mono (by decide)) _ _)
  refine Frame.trans ?_ (keeps_stepFlags.mono (by decide))
  exact (keeps_stepKnock.mono (by decide)).trans (keeps_stepRescue.mono (by decide))

theorem crew_tick : ((c.tick w m).ms m).players =
    match c.outcast m with
    | some p => (c.ms m).players.filter fun q => decide (q ≠ p)
    | none => (c.ms m).players := by
  by_cases hp : (c.ms m).players = []
  · have hnone : c.outcast m = none := by
      unfold outcast
      rw [hp, List.find?_nil]
    rw [hnone, tick, if_pos hp]
    exact players_of_keeps keeps_stopLoop (by decide) m
  · have hbefore := @keeps_beforeSweep w c m
    rw [players_of_keeps (keeps_rest hp) (by decide), crew_sweep,
      outcast_of_keeps hbefore (by decide), players_of_keeps hbefore (by decide)]

theorem pulse_tick : ((c.tick w m).ss t).pulse =
    if t ∈ c.reached (c.ms m).players then (c.ss t).pulse.look disconnectTimeout c.now
    else (c.ss t).pulse := by
  by_cases hp : (c.ms m).players = []
  · rw [tick, if_pos hp, hp, reached, if_neg List.not_mem_nil]
    exact pulse_of_keeps keeps_stopLoop (by decide) t
  · have hbefore := @keeps_beforeSweep w c m
    rw [pulse_of_keeps (keeps_rest hp) (by decide), pulse_sweep,
      players_of_keeps hbefore (by decide), reached_of_keeps hbefore (by decide) (by decide),
      pulse_of_keeps hbefore (by decide), now_of_keeps hbefore (by decide)]

theorem pulse_handlePlayerQuit : ((c.handlePlayerQuit s).ss t).pulse = (c.ss t).pulse := by
  have hstop : ((c.onSession s fun q => { q with stopped := true }).ss t).pulse = (c.ss t).pulse := by
    rw [onSession_ss]
    split
    · rename_i hts
      rw [hts]
      rfl
    · rfl
  unfold handlePlayerQuit withMatch
  dsimp only
  split
  · rw [pulse_of_keeps keeps_removePlayer (by decide), pulse_of_keeps keeps_clearFlag (by decide)]
    exact hstop
  · exact hstop

theorem pulse_route {p : Packet} : ((c.route w s p).ss t).pulse = (c.ss t).pulse := by
  by_cases hq : cmdOf p.cmd = .playerQuitReq
  · unfold route
    rw [hq]
    exact pulse_handlePlayerQuit
  · refine pulse_of_keeps keeps_route ?_ t
    revert hq
    cases cmdOf p.cmd <;> decide

end Core

namespace Server

open MatchServer.Core Seating

variable {w : World} {v v' : Server} {e : Event} {s t : SessionId} {m : MatchRef}

def Looks (v : Server) (e : Event) (m : MatchRef) (s : SessionId) : Prop :=
  e.act.ticked = some m ∧
    s ∈ (v.core.atMoment e.moment (some m)).reached (v.core.ms m).players

instance : Decidable (v.Looks e m s) := by
  unfold Looks
  infer_instance

def heard (v : Server) (e : Event) (t : SessionId) : Pulse :=
  match e.act with
  | .dispatch s _ =>
    if t = s then (v.core.ss t).pulse.beat e.moment.now else (v.core.ss t).pulse
  | .tick m =>
    if v.Looks e m t then (v.core.ss t).pulse.look disconnectTimeout e.moment.now
    else (v.core.ss t).pulse
  | _ => (v.core.ss t).pulse

theorem pulse_step (h : v.Step w e v') (t : SessionId) : (v'.core.ss t).pulse = v.heard e t := by
  have hf := fires_of_step h
  obtain ⟨act, x⟩ := e
  dsimp only at hf
  cases hf with
  | @dispatch s p _ =>
    have htouch : ((((v.core.atMoment x none).touch s)).ss t).pulse =
        v.heard ⟨.dispatch s p, x⟩ t := by
      unfold touch heard
      rw [onSession_ss]
      dsimp only
      split
      · rename_i hts
        rw [hts]
        rfl
      · rfl
    have hack : ((((v.core.atMoment x none).touch s).ackIfReliable s p).ss t).pulse =
        v.heard ⟨.dispatch s p, x⟩ t := by
      rw [pulse_of_keeps keeps_ackIfReliable (by decide), htouch]
    change ((((v.core.atMoment x none).dispatch w s p)).ss t).pulse = _
    unfold dispatch
    dsimp only
    split
    · exact htouch
    · exact hack
    · split
      · exact (pulse_of_keeps (Frame.withMatch fun m => (Frame.refl _).enqueue (F := [.posts])
          (by decide)) (by decide) t).trans hack
      · rw [pulse_route, hack]
  | @letIn a _ =>
    have hk : Keeps [.registry] (v.core.atMoment x a.loop)
        { v.core.atMoment x a.loop with admits := v.core.admits.erase a } := keeps_registry
    exact (pulse_of_keeps keeps_admitSession (by decide) t).trans (pulse_of_keeps hk (by decide) t)
  | @start m _ => exact pulse_of_keeps keeps_runStart (by decide) t
  | @exec m job rest _ _ =>
    cases job with
    | route s p => exact pulse_route
    | admitLater s => exact pulse_of_keeps keeps_admitLater (by decide) t
    | resyncWalls s => exact pulse_of_keeps keeps_resyncWalls (by decide) t
  | @tick m _ =>
    have hk := @pulse_tick w (v.core.atMoment x (some m)) t m
    refine hk.trans ?_
    unfold heard Looks
    simp only [Action.ticked, true_and]
    rfl
  | @stop m _ _ => exact pulse_of_keeps keeps_stopLoop (by decide) t

theorem crew_ticked (h : v.Step w e v') (hact : e.act = .tick m) : (v'.core.ms m).players =
    match (v.core.atMoment e.moment (some m)).outcast m with
    | some p => (v.core.ms m).players.filter fun q => decide (q ≠ p)
    | none => (v.core.ms m).players := by
  have hf := fires_of_step h
  obtain ⟨act, x⟩ := e
  dsimp only at hf hact
  subst hact
  cases hf with
  | tick _ => exact crew_tick

end Server

end MatchServer

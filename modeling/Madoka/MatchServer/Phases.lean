import Madoka.MatchServer.TickMoves
import Madoka.MatchServer.Identities

namespace MatchServer

open Lib

structure Clock where
  phase : CsPhase
  deadline : Option Int
  started : Bool
  done : Bool
  tearingDown : Bool
  loop : LoopState
  round : Nat
  teamScore : Nat × Nat
  winnerTeam : Nat
  settings : MatchSettings

def Match.clock (g : Match) : Clock where
  phase := g.phase
  deadline := g.deadline
  started := g.started
  done := g.done
  tearingDown := g.tearingDown
  loop := g.loop
  round := g.round
  teamScore := g.teamScore
  winnerTeam := g.winnerTeam
  settings := g.settings

-- What the machine sees of the two teams: the team of each player, and how many of a team are up.
structure Sides where
  crew : List Nat
  alive : Nat → Nat

namespace Sides

-- teamsReady.
def ready (x : Sides) : Prop :=
  0 < x.crew.count 1 ∧ 0 < x.crew.count 2 ∧ x.crew.count 1 = x.crew.count 2

def fallen (x : Sides) : Prop := x.alive localTeamID = 0 ∨ x.alive enemyTeamID = 0

def localWon (x : Sides) : Bool := decide (0 < x.alive localTeamID)

end Sides

def Core.sides (c : Core) (m : MatchRef) : Sides where
  crew := (c.ms m).players.map fun p => (c.ss p).team
  alive := c.teamAlive m

theorem Core.ready_sides {c : Core} {m : MatchRef} (h : c.teamsReady m = true) : (c.sides m).ready := by
  have hcount : ∀ team, (c.sides m).crew.count team = c.teamCount m team := fun team => by
    rw [Core.sides, List.count, List.countP_map]
    rfl
  rw [Sides.ready, hcount, hcount]
  exact of_decide_eq_true h

namespace Clock

def enter (now : Int) (ph : CsPhase) (dur : Int) (k : Clock) : Clock :=
  { k with
    phase := ph
    deadline := if dur ≤ 0 then none else some (now + dur) }

def due (now : Int) (k : Clock) : Bool :=
  match k.deadline with
  | none => false
  | some d => decide (d ≤ now)

def start (k : Clock) : Clock := { k with started := true }

def tearDown (k : Clock) : Clock :=
  if k.tearingDown then k else { k with tearingDown := true, done := true }

def scored (localWon : Bool) (k : Clock) : Clock :=
  { k with
    teamScore := if localWon then ((k.teamScore.1 + 1) % 256, k.teamScore.2)
      else (k.teamScore.1, (k.teamScore.2 + 1) % 256) }

def decided (k : Clock) : Prop :=
  k.settings.roundsToWin ≤ k.teamScore.1 ∨ k.settings.roundsToWin ≤ k.teamScore.2 ∨
    k.settings.maxRound ≤ k.round

-- A phase whose deadline has passed, and the phase after it.
inductive Edge (w : World) (now : Int) : Clock → Clock → Prop where
  | bind {k} : k.phase = .setupBind → Edge w now k (k.enter now .setupGap setupGapDur)
  | gap {k} : k.phase = .setupGap → Edge w now k (k.enter now .setupWait setupWaitDur)
  | hold {k} : k.phase = .setupWait ∨ k.phase = .intro → w.cfg.holdPrepare = true →
    Edge w now k (k.start.enter now .prepare holdDur)
  | buy {k} : k.phase = .setupWait ∨ k.phase = .intro →
    Edge w now k (k.start.enter now .prepare w.cfg.buyPhase)
  | gather {k} : k.phase = .setupWait ∨ k.phase = .intro → k.started = false →
    Edge w now k (k.enter now .prepare waitPlayersDur)
  | fill {k} : k.phase = .prepare → k.started = false →
    Edge w now k (k.start.enter now .prepare w.cfg.buyPhase)
  | cancel {k} : k.phase = .prepare → k.started = false →
    Edge w now k (k.enter now .cancelled cancelHoldDur)
  | fight {k} : k.phase = .prepare → k.started = true → Edge w now k (k.enter now .fight holdDur)
  | ends {k} : k.phase = .matchEndPause → Edge w now k (k.enter now .matchEnd matchStatsHold)
  | revive {k} : k.phase = .postBanner → Edge w now k (k.enter now .postReviveBind bindDelay)
  | black {k} : k.phase = .postBanner ∨ k.phase = .postReviveBind →
    Edge w now k (k.enter now .postBlack w.postBlackHold)
  | round {k} : k.phase = .postBlack →
    Edge w now k ({ k with round := k.round + 1 }.enter now .introWait bindDelay)
  | intro {k} : k.phase = .introWait →
    Edge w now k (k.enter now .intro (w.introReveal + introSettle))
  | close {k} : k.phase = .cancelled ∨ k.phase = .matchEnd → Edge w now k k.tearDown

inductive Turn (w : World) (now : Int) (x : Sides) : Clock → Clock → Prop where
  | rest {k} : k.phase = .fight ∧ ¬ x.fallen ∨ k.phase ≠ .fight ∧ k.due now = false → Turn w now x k k
  | edge {k k'} : k.due now = true → Edge w now k k' → Turn w now x k k'
  | ready {k} : k.phase = .prepare → k.started = false → x.ready →
    Turn w now x k (k.start.enter now .prepare w.cfg.buyPhase)
  | won {k} (localWon : Bool) : k.phase = .fight → x.fallen → localWon = x.localWon →
    (k.scored localWon).decided →
    Turn w now x k ({ k.scored localWon with
      winnerTeam := if localWon then localTeamID else enemyTeamID }.enter now .matchEndPause
        matchEndPause)
  | again {k} (localWon : Bool) : k.phase = .fight → x.fallen → localWon = x.localWon →
    ¬ (k.scored localWon).decided →
    Turn w now x k ((k.scored localWon).enter now .postBanner w.postToBlack)

variable {w : World} {now : Int} {x : Sides} {k k' : Clock}

theorem Turn.loop (h : Turn w now x k k') : k'.loop = k.loop := by
  cases h with
  | edge _ he =>
    cases he with
    | close _ =>
      unfold tearDown
      split <;> rfl
    | _ => rfl
  | _ => rfl

end Clock

namespace Core

-- The clock of `m` becomes `k`, and no other changes; time stands still.
structure Sets (m : MatchRef) (c d : Core) (k : Clock) : Prop where
  eq : (d.ms m).clock = k
  off : ∀ m', m' ≠ m → (d.ms m').clock = (c.ms m').clock
  now : d.now = c.now

-- The parts of which a clock holds something, and the time.
def clockParts : List Part := [.phase, .lock, .over, .run, .result, .settings, .moment]

variable {w : World} {c d e : Core} {s : SessionId} {m : MatchRef} {k k' : Clock} {F : List Part}

theorem clock_of_keeps (h : Keeps F c d) (hF : ∀ x ∈ F, x ∉ clockParts) (m : MatchRef) :
    (d.ms m).clock = (c.ms m).clock := by
  have h1 := (h .phase fun hm => hF _ hm (by decide)).1 m
  have h2 := (h .lock fun hm => hF _ hm (by decide)).1 m
  have h3 := (h .over fun hm => hF _ hm (by decide)).1 m
  have h4 := (h .run fun hm => hF _ hm (by decide)).1 m
  have h5 := (h .result fun hm => hF _ hm (by decide)).1 m
  have h6 := (h .settings fun hm => hF _ hm (by decide)).1 m
  simp only [Part.sameMatch, Prod.mk.injEq] at h1 h2 h3 h4 h5 h6
  simp only [Match.clock, h1, h2, h3, h4, h5, h6]

theorem sets_refl : Sets m c c (c.ms m).clock := ⟨rfl, fun _ _ => rfl, rfl⟩

theorem Sets.trans (h : Sets m c d k) (h' : Sets m d e k') : Sets m c e k' :=
  ⟨h'.eq, fun m' hm => (h'.off m' hm).trans (h.off m' hm), h'.now.trans h.now⟩

theorem Sets.keeps (h : Sets m c d k) (hk : Keeps F d e) (hF : ∀ x ∈ F, x ∉ clockParts) :
    Sets m c e k :=
  ⟨(clock_of_keeps hk hF m).trans h.eq, fun m' hm => (clock_of_keeps hk hF m').trans (h.off m' hm),
    (now_of_keeps hk fun hm => hF _ hm (by decide)).trans h.now⟩

theorem sets_keeps (hk : Keeps F c d) (hF : ∀ x ∈ F, x ∉ clockParts) :
    Sets m c d (c.ms m).clock :=
  sets_refl.keeps hk hF

theorem Sets.onMatch {g : Match → Match} (f : Clock → Clock) (h : Sets m c d k)
    (hf : ∀ x, (g x).clock = f x.clock) : Sets m c (d.onMatch m g) (f k) := by
  refine ⟨?_, fun m' hm => ?_, h.now⟩
  · simp only [onMatch_ms, if_true, hf, h.eq]
  · simp only [onMatch_ms, if_neg hm]
    exact h.off m' hm

theorem Sets.enter (h : Sets m c d k) (ph : CsPhase) (dur : Int) :
    Sets m c (d.enter m ph dur) (k.enter c.now ph dur) := by
  refine h.onMatch (Clock.enter c.now ph dur) fun x => ?_
  simp only [Match.clock, Clock.enter, h.now]

theorem sets_foldl {β : Type} {op : Core → β → Core}
    (hop : ∀ c b, Sets m c (op c b) (c.ms m).clock) (l : List β) (c : Core) :
    Sets m c (l.foldl op c) (c.ms m).clock := by
  induction l generalizing c with
  | nil => exact sets_refl
  | cons b l ih =>
    have hl := ih (op c b)
    rw [(hop c b).eq] at hl
    exact (hop c b).trans hl

theorem sets_startBuyPhase (h : Sets m c d k) :
    Sets m c (d.startBuyPhase w m) (k.start.enter c.now .prepare w.cfg.buyPhase) := by
  refine Sets.enter (h.onMatch Clock.start fun _ => ?_) _ _
  rfl

theorem sets_enterPrepare (h : Sets m c d k) : ∃ k', Sets m c (d.enterPrepare w m) k' ∧
    (w.cfg.holdPrepare = true ∧ k' = k.start.enter c.now .prepare holdDur ∨
      k' = k.start.enter c.now .prepare w.cfg.buyPhase ∨
      k.started = false ∧ k' = k.enter c.now .prepare waitPlayersDur) := by
  have hpull : Sets m c (d.onMatch m fun g => { g with pull := none }) k := by
    refine h.onMatch id fun _ => ?_
    rfl
  unfold enterPrepare
  revert hpull
  generalize d.onMatch m (fun g => { g with pull := none }) = d'
  intro hpull
  dsimp only
  split
  · rename_i hhold
    refine ⟨_, Sets.enter (hpull.onMatch Clock.start fun _ => ?_) _ _, Or.inl ⟨hhold, rfl⟩⟩
    rfl
  split
  · rename_i hwait
    split
    · refine ⟨_, sets_startBuyPhase ?_, Or.inr (Or.inl rfl)⟩
      split
      · exact hpull.keeps keeps_spawnFallbackBot (by decide)
      · exact hpull
    · refine ⟨_, hpull.enter _ _, Or.inr (Or.inr ⟨?_, rfl⟩)⟩
      rw [← hpull.eq]
      simp only [Bool.and_eq_true, Bool.not_eq_true'] at hwait
      exact hwait.1
  · exact ⟨_, sets_startBuyPhase hpull, Or.inr (Or.inl rfl)⟩

theorem sets_enterCancel (h : Sets m c d k) :
    Sets m c (d.enterCancel m) (k.enter c.now .cancelled cancelHoldDur) := by
  refine Sets.enter (h.onMatch id fun _ => ?_) _ _
  rfl

theorem sets_tearDown (h : Sets m c d k) : Sets m c (d.tearDown m) k.tearDown := by
  unfold tearDown Clock.tearDown
  have htear : (d.ms m).tearingDown = k.tearingDown := congrArg Clock.tearingDown h.eq
  rw [htear]
  split
  · exact h
  · refine Sets.keeps (F := [.deeds]) (h.onMatch (fun k => { k with
      tearingDown := true
      done := true }) fun _ => ?_) (Frame.note (Frame.refl _) (by decide)) (by decide)
    rfl

theorem sets_sendPull (h : Sets m c d k) : Sets m c (d.sendPull m) k := by
  have hfold : Sets m d (d.sendPull m) (d.ms m).clock := by
    unfold sendPull
    split
    · exact sets_refl
    · refine sets_foldl (fun c p => ?_) _ _
      refine Sets.keeps (F := []) (sets_refl.onMatch id fun _ => ?_)
        (Frame.refl _).broadcastData (by decide)
      rfl
  rw [h.eq] at hfold
  exact h.trans hfold

theorem sets_respawnBot (h : Sets m c d k) : Sets m c (d.respawnBot w m) k := by
  unfold respawnBot
  split
  · obtain ⟨seq, hs⟩ := w.roundFlow.respawnBot_sends d m
    refine Sets.keeps (F := []) (h.onMatch id fun _ => ?_) ((Frame.refl _).sends hs) (by decide)
    rfl
  · exact h

theorem sets_roundReset {dead : List SessionId} :
    Sets m c (c.roundReset w m dead) (c.ms m).clock := by
  unfold roundReset
  dsimp only
  have hkeeps : Keeps (.walls :: .flags :: combatParts) c
      ((((c.reviveAll m).ms m).players.foldl resetPlayer
        (c.reviveAll m)).clearWalls ((((c.reviveAll m).ms m).players.foldl resetPlayer
          (c.reviveAll m)).ms m).s |>.clearAllFlags m) :=
    Frame.trans (Frame.trans (Frame.trans (keeps_reviveAll.mono (by decide))
      (Frame.foldl (fun _ _ => keeps_resetPlayer.mono (by decide)) _ _))
      (keeps_clearWalls.mono (by decide))) (keeps_clearAllFlags.mono (by decide))
  refine Sets.onMatch id (Sets.keeps (F := [.body]) (sets_respawnBot
    (sets_keeps hkeeps (by decide))) (Frame.foldl (fun _ _ => keeps_respawnPlayer) _ _)
    (by decide)) fun _ => ?_
  rfl

theorem sets_postBannerEdge : Sets m c (c.postBannerEdge w m)
    ((c.ms m).clock.enter c.now .postReviveBind bindDelay) ∨ Sets m c (c.postBannerEdge w m)
    ((c.ms m).clock.enter c.now .postBlack w.postBlackHold) := by
  unfold postBannerEdge
  dsimp only
  split
  · refine Or.inl (Sets.enter (sets_roundReset.onMatch id fun _ => ?_) _ _)
    rfl
  · refine Or.inr (sets_sendPull (Sets.enter (sets_roundReset.keeps
      (Frame.foldl (fun _ _ => keeps_reissueLoadout) _ _) (by decide)) _ _))

theorem sets_postReviveEdge : Sets m c (c.postReviveEdge w m)
    ((c.ms m).clock.enter c.now .postBlack w.postBlackHold) := by
  unfold postReviveEdge
  refine sets_sendPull (Sets.enter (Sets.onMatch id (sets_keeps (F := [.kit, .ground, .body])
    (Frame.trans (keeps_bindAll.mono (by decide)) (Frame.foldl (fun _ _ => ?_) _ _))
    (by decide)) fun _ => ?_) _ _)
  · exact Frame.ite (fun _ => keeps_giveLoadout.mono (by decide))
      fun _ => keeps_reissueLoadout.mono (by decide)
  · rfl

theorem edge_phaseEdge (hf : (c.ms m).phase ≠ .fight) : ∃ k, Sets m c (c.phaseEdge w m) k ∧
    Clock.Edge w c.now (c.ms m).clock k := by
  have hprepare : ∀ d : Core, Sets m c d (c.ms m).clock →
      (c.ms m).phase = .setupWait ∨ (c.ms m).phase = .intro →
      ∃ k, Sets m c (d.enterPrepare w m) k ∧ Clock.Edge w c.now (c.ms m).clock k := by
    intro d hd hph
    obtain ⟨k, hk, ⟨hhold, rfl⟩ | rfl | ⟨hst, rfl⟩⟩ := sets_enterPrepare (w := w) hd
    · exact ⟨_, hk, .hold hph hhold⟩
    · exact ⟨_, hk, .buy hph⟩
    · exact ⟨_, hk, .gather hph hst⟩
  unfold phaseEdge
  dsimp only
  split
  case h_1 hph => exact ⟨_, (sets_keeps keeps_bindAll (by decide)).enter _ _, .bind hph⟩
  case h_2 hph => exact ⟨_, sets_refl.enter _ _, .gap hph⟩
  case h_3 hph =>
    refine hprepare _ (sets_keeps (F := [.kit, .ground]) ?_ (by decide)) (Or.inl hph)
    exact (keeps_sendCSShop.mono (by decide)).trans (keeps_giveLoadout.mono (by decide))
  case h_4 hph =>
    exact ⟨_, sets_tearDown (sets_keeps (F := []) (Frame.refl c).broadcastData (by decide)),
      .close (Or.inl hph)⟩
  case h_5 hph =>
    split
    · rename_i hst
      refine ⟨_, Sets.keeps (F := [.zone, .deeds]) (sets_refl.enter .fight holdDur)
        (Frame.note (keeps_startZone.mono (by decide)) (by decide)) (by decide), .fight hph hst⟩
    · rename_i hst
      split
      · exact ⟨_, sets_startBuyPhase (sets_keeps keeps_spawnFallbackBot (by decide)),
          .fill hph (Bool.eq_false_iff.mpr hst)⟩
      · exact ⟨_, sets_enterCancel sets_refl, .cancel hph (Bool.eq_false_iff.mpr hst)⟩
  case h_6 hph => exact absurd hph hf
  case h_7 hph =>
    refine ⟨_, Sets.enter (Sets.onMatch id (sets_keeps keeps_matchEnd (by decide)) fun _ => ?_)
      _ _, .ends hph⟩
    rfl
  case h_8 hph =>
    rcases @sets_postBannerEdge w c m with h | h
    · exact ⟨_, h, .revive hph⟩
    · exact ⟨_, h, .black (Or.inl hph)⟩
  case h_9 hph => exact ⟨_, sets_postReviveEdge, .black (Or.inr hph)⟩
  case h_10 hph =>
    refine ⟨_, Sets.enter (Sets.keeps (F := []) (Sets.onMatch (fun k => { k with
      round := k.round + 1 }) sets_refl fun _ => ?_) (Frame.refl _).broadcastData (by decide)) _ _,
      .round hph⟩
    rfl
  case h_11 hph => exact ⟨_, sets_sendPull (sets_refl.enter _ _), .intro hph⟩
  case h_12 hph => exact hprepare c sets_refl (Or.inr hph)
  case h_13 hph => exact ⟨_, sets_tearDown sets_refl, .close (Or.inr hph)⟩

theorem sets_nextRound {localWon : Bool} {winner : Nat} (h : Sets m c d k) :
    Sets m c (d.nextRound w m localWon winner) (k.enter c.now .postBanner w.postToBlack) := by
  unfold nextRound
  dsimp only
  refine Sets.enter (Sets.onMatch id (Sets.keeps (F := [.body]) (Sets.onMatch id
    (h.keeps (F := []) keeps_roundResult (by decide)) fun _ => ?_)
    (Frame.foldl (fun _ _ => keeps_placed) _ _) (by decide)) fun _ => ?_) _ _
  all_goals rfl

theorem turn_endFight (hf : (c.ms m).phase = .fight) (hfall : (c.sides m).fallen) : ∃ k, Sets m c (c.endFight w m) k ∧
    Clock.Turn w c.now (c.sides m) (c.ms m).clock k := by
  unfold endFight
  dsimp only
  generalize hwon : decide (0 < c.teamAlive m localTeamID) = localWon
  have hscore : Sets m c (c.scoreRound m localWon) ((c.ms m).clock.scored localWon) := by
    refine sets_refl.onMatch (Clock.scored localWon) fun _ => ?_
    rfl
  have hpaid : ∀ winner base first, Sets m c
      ((((c.scoreRound m localWon).ms m).players.foldl (payRound m winner base first)
        (c.scoreRound m localWon)).onMatch m fun g => { g with firstBlood := 0 })
      ((c.ms m).clock.scored localWon) := by
    intro winner base first
    refine Sets.onMatch id (hscore.keeps (Frame.foldl (fun _ _ => keeps_payRound) _ _)
      (by decide)) fun _ => ?_
    rfl
  have hdecided : ((c.ms m).clock.scored localWon).decided ↔
      ((c.scoreRound m localWon).ms m).settings.roundsToWin ≤
          ((c.scoreRound m localWon).ms m).teamScore.1 ∨
        ((c.scoreRound m localWon).ms m).settings.roundsToWin ≤
          ((c.scoreRound m localWon).ms m).teamScore.2 ∨
        ((c.scoreRound m localWon).ms m).settings.maxRound ≤
          ((c.scoreRound m localWon).ms m).round := by
    rw [← hscore.eq]
    rfl
  split
  · rename_i hd
    refine ⟨_, Sets.enter (Sets.onMatch (fun k => { k with
      winnerTeam := if localWon then localTeamID else enemyTeamID }) (hpaid _ _ _) fun _ => ?_) _ _,
      .won localWon hf hfall hwon.symm (hdecided.mpr hd)⟩
    rfl
  · rename_i hd
    exact ⟨_, sets_nextRound (hpaid _ _ _), .again localWon hf hfall hwon.symm fun hc => hd (hdecided.mp hc)⟩

theorem turn_advancePhase : ∃ k, Sets m c (c.advancePhase w m) k ∧
    Clock.Turn w c.now (c.sides m) (c.ms m).clock k := by
  have hdue : c.due m = (c.ms m).clock.due c.now := rfl
  unfold advancePhase
  split
  · rename_i hf
    split
    · rename_i hfall
      exact turn_endFight hf hfall
    · rename_i hfall
      exact ⟨_, sets_refl, .rest (Or.inl ⟨hf, hfall⟩)⟩
  · rename_i hf
    split
    · rename_i hready
      exact ⟨_, sets_startBuyPhase sets_refl, .ready hready.1 hready.2.1 (ready_sides hready.2.2)⟩
    · split
      · rename_i hd
        obtain ⟨k, hk, hedge⟩ := edge_phaseEdge (w := w) hf
        exact ⟨k, hk, .edge (hdue ▸ hd) hedge⟩
      · rename_i hd
        exact ⟨_, sets_refl, .rest (Or.inr ⟨hf, by simpa [hdue] using hd⟩)⟩

theorem turn_tick (hp : (c.ms m).players ≠ []) : ∃ k, Sets m c (c.tick w m) k ∧
    Clock.Turn w c.now (c.sides m) (c.ms m).clock k := by
  obtain ⟨k, hk, hturn⟩ := @turn_advancePhase w c m
  exact ⟨k, hk.keeps (keeps_after hp) (by decide), hturn⟩

theorem sets_stopLoop : Sets m c (c.stopLoop m) { (c.ms m).clock with loop := .stopped } := by
  refine Sets.keeps (F := [.registry]) (sets_refl.onMatch (fun k => { k with loop := .stopped })
    fun _ => ?_) keeps_reap (by decide)
  rfl

theorem sets_runStart : Sets m c (c.runStart w m)
    ({ (c.ms m).clock with loop := .running }.enter c.now .setupBind bindDelay) := by
  unfold runStart
  refine Sets.enter (Sets.keeps (Sets.onMatch (fun k => { k with loop := .running })
    (sets_keeps (F := [.kit]) ((Frame.refl c).onKit (by decide)) (by decide)) fun _ => ?_)
    keeps_initHP (by decide)) _ _
  rfl

theorem sets_setupMatch (h : Sets m c d k) :
    Sets m c (d.setupMatch w s m) { k with round := 1 } := by
  unfold setupMatch
  generalize (if w.cfg.fixedSpawn.isSome then (noArena, (d.ms m).arenasUsed)
    else d.chooseArena w m) = chosen
  obtain ⟨arena, used⟩ := chosen
  have hadd : Sets m c ((d.onMatch m fun g =>
      { g with arena := arena, arenasUsed := arena :: used }).addPlayer s m) k := by
    refine Sets.keeps (h.onMatch id fun _ => ?_) keeps_addPlayer (by decide)
    rfl
  dsimp only
  refine Sets.onMatch (fun k => { k with round := 1 }) (k := k) ?_ fun _ => ?_
  · split
    · exact hadd.keeps keeps_placed (by decide)
    · exact hadd.keeps keeps_spawned (by decide)
  · rfl

theorem sets_startCSMatch (h : Sets m c d k) (hm : (d.ss s).matchRef = some m) :
    ∃ l, (l = k.loop ∨ l = .spawned) ∧ Sets m c (d.startCSMatch s) { k with loop := l } := by
  unfold startCSMatch withMatch
  split
  · exact ⟨k.loop, Or.inl rfl, h⟩
  · simp only [onSession_ss, if_true, hm]
    refine ⟨.spawned, Or.inr rfl, Sets.onMatch (fun k => { k with loop := .spawned }) (k := k)
      ?_ fun _ => ?_⟩
    · exact ⟨h.eq, h.off, h.now⟩
    · rfl

theorem sets_admitFirst (hm : (c.ss s).matchRef = some m) :
    ∃ l mid, (l = (c.ms m).loop ∨ l = .spawned) ∧ Sets m c (c.admitFirst w s m)
      { (c.ms m).clock with settings := loadMatchSettings w mid, round := 1, loop := l } := by
  have hgreet : Sets m c (greeted w c s m) { (c.ms m).clock with
      settings := loadMatchSettings w (c.ss s).player.matchID, round := 1 } := by
    unfold greeted
    refine Sets.keeps (F := []) (sets_setupMatch (sets_refl.onMatch (fun k => { k with
      settings := loadMatchSettings w (c.ss s).player.matchID }) fun _ => ?_))
      (keeps_joinRes.send).broadcastData (by decide)
    rfl
  have hcard := @card_greeted w c s m s
  simp only [if_true, Session.card, Prod.mk.injEq] at hcard
  obtain ⟨l, hl, hs⟩ := sets_startCSMatch hgreet (hcard.1.trans hm)
  exact ⟨l, _, hl, hs⟩

theorem sets_handleHello {p : Packet} (hcmd : cmdOf p.cmd = .reconnect)
    (hm : (c.ss s).matchRef = none) : ∃ l, (l = (c.ms c.nextRef).loop ∨ l = .spawned) ∧
    Sets c.nextRef c (c.handleHello w s p)
      { (c.ms c.nextRef).clock with round := 1, loop := l } := by
  have hown : Sets c.nextRef c (c.ownMatch s) (c.ms c.nextRef).clock := by
    refine Sets.keeps (F := [.registry, .roster, .seat, .slots]) (sets_keeps (F := [.identity, .seat, .body])
      (Frame.onSession (Frame.refl c).send fun x => ?_) (by decide))
      ((keeps_newMatch.mono (by decide)).trans (keeps_register.mono (by decide))) (by decide)
    cases x <;> first | exact Or.inr fun _ => rfl | exact Or.inl (by decide)
  have hcard := @card_setupMatch w (c.ownMatch s) s c.nextRef s
  simp only [if_true, Session.card, Prod.mk.injEq] at hcard
  obtain ⟨l, hl, hs⟩ := sets_startCSMatch (sets_setupMatch (w := w) (s := s) hown)
    (hcard.1.trans ss_ownMatch.1)
  rw [handleHello_eq hcmd hm]
  exact ⟨l, hl, hs.keeps (F := [.posts]) ((Frame.refl _).enqueue (by decide)) (by decide)⟩

end Core

namespace Server

open MatchServer.Core

inductive Ticked (w : World) (e : Event) (m : MatchRef) (x : Sides) : Clock → Clock → Prop where
  | same {k} : e.act ≠ .tick m → e.act ≠ .start m → Ticked w e m x k k
  | turn {k k'} : e.act = .tick m → k.loop = .running → x.crew ≠ [] →
    Clock.Turn w e.moment.now x k k' → Ticked w e m x k k'
  | start {k} : e.act = .start m → k.loop = .spawned →
    Ticked w e m x k ({ k with loop := .running }.enter e.moment.now .setupBind bindDelay)
  | stop {k} : k.loop = .running → (e.act = .stop m ∧ k.done = true ∨ e.act = .tick m ∧ x.crew = []) →
    Ticked w e m x k { k with loop := .stopped }
  | setup {k set l} : k.loop = .idle → l = .idle ∨ l = .spawned →
    (set = k.settings ∨ ∃ mid, set = loadMatchSettings w mid) →
    Ticked w e m x k { k with settings := set, round := 1, loop := l }

variable {w : World} {v v' : Server} {e : Event} {m : MatchRef} {s : SessionId} {p : Packet}
  {c : Core}

theorem ticked_same (hact : e.act ≠ .tick m ∧ e.act ≠ .start m)
    (h : (v'.core.ms m).clock = (v.core.ms m).clock) :
    Ticked w e m (v.core.sides m) (v.core.ms m).clock (v'.core.ms m).clock := by
  rw [h]
  exact .same hact.1 hact.2

theorem sets_settle {d : Core} {k : Clock} {mail : MatchRef → List Job} (h : Sets m c d k) :
    Sets m c (settle d mail).core k := ⟨h.eq, h.off, h.now⟩

theorem ticked_sets {m' : MatchRef} {k : Clock} (h : Sets m' c v'.core k)
    (hc : ∀ m, (c.ms m).clock = (v.core.ms m).clock)
    (hother : m ≠ m' → e.act ≠ .tick m ∧ e.act ≠ .start m)
    (hown : m = m' → Ticked w e m (v.core.sides m) (v.core.ms m).clock k) :
    Ticked w e m (v.core.sides m) (v.core.ms m).clock (v'.core.ms m).clock := by
  by_cases hm : m = m'
  · subst hm
    rw [h.eq]
    exact hown rfl
  · exact ticked_same (hother hm) ((h.off m hm).trans (hc m))

theorem ticked_setup {m' : MatchRef} {set : MatchSettings} {l : LoopState}
    (hact : e.act ≠ .tick m ∧ e.act ≠ .start m)
    (h : Sets m' c v'.core { (c.ms m').clock with settings := set, round := 1, loop := l })
    (hc : ∀ m, (c.ms m).clock = (v.core.ms m).clock)
    (hl : l = (c.ms m').loop ∨ l = .spawned) (hidle : (v.core.ms m').loop = .idle)
    (hset : set = (c.ms m').settings ∨ ∃ mid, set = loadMatchSettings w mid) :
    Ticked w e m (v.core.sides m) (v.core.ms m).clock (v'.core.ms m).clock := by
  refine ticked_sets h hc (fun _ => hact) ?_
  rintro rfl
  have hloop : (c.ms m).loop = .idle := (congrArg Clock.loop (hc m)).trans hidle
  rw [hc m]
  refine .setup hidle (hl.imp_left fun hl => hl.trans hloop) (hset.imp_left fun hs => ?_)
  exact hs.trans (congrArg Clock.settings (hc m))

theorem ticked_route (hf : Seating.Fitted v.seating)
    (hact : e.act ≠ .tick m ∧ e.act ≠ .start m)
    (hc : ∀ m, (c.ms m).clock = (v.core.ms m).clock) (hnext : c.nextRef = v.core.nextRef)
    (h : v'.core = c.route w s p) :
    Ticked w e m (v.core.sides m) (v.core.ms m).clock (v'.core.ms m).clock := by
  have hquiet : (∀ x ∈ writes (cmdOf p.cmd), x ∉ clockParts) →
      Ticked w e m (v.core.sides m) (v.core.ms m).clock (v'.core.ms m).clock := fun hw => by
    refine ticked_same hact ?_
    rw [h]
    exact (clock_of_keeps keeps_route hw m).trans (hc m)
  by_cases hcmd : cmdOf p.cmd = .reconnect
  · have hroute : c.route w s p = c.handleHello w s p := by
      unfold route
      rw [hcmd]
    by_cases hm : (c.ss s).matchRef = none
    · obtain ⟨l, hl, hs⟩ := sets_handleHello (w := w) hcmd hm
      rw [← hroute, ← h] at hs
      have hslot := hf.blank c.nextRef (by rw [hnext]; exact Nat.le_refl _)
      have hidle := (hf.idle c.nextRef hslot.1).2
      exact ticked_setup hact hs hc hl (by simpa [seating] using hidle) (Or.inl rfl)
    · refine ticked_same hact ?_
      have hsend : c.handleHello w s p = c.send s .helloRes := by
        unfold handleHello
        dsimp only
        rw [if_neg fun hh => hm hh.2]
      rw [h, hroute, hsend]
      exact hc m
  · refine hquiet ?_
    revert hcmd
    cases cmdOf p.cmd
    case reconnect => exact fun hcmd => absurd rfl hcmd
    all_goals exact fun _ => by decide

theorem clock_step (h : v.Step w e v') (hf : Seating.Fitted v.seating) (m : MatchRef) :
    Ticked w e m (v.core.sides m) (v.core.ms m).clock (v'.core.ms m).clock := by
  have hfire := fires_of_step h
  obtain ⟨act, t⟩ := e
  dsimp only at hfire
  have hat : ∀ loop m, ((v.core.atMoment t loop).ms m).clock = (v.core.ms m).clock :=
    fun _ _ => rfl
  cases hfire with
  | @dispatch s p hjoining =>
    have hact : (⟨.dispatch s p, t⟩ : Event).act ≠ .tick m ∧ (⟨.dispatch s p, t⟩ : Event).act ≠ .start m :=
      ⟨by rintro ⟨⟩, by rintro ⟨⟩⟩
    by_cases hq : ((v.core.atMoment t none).ss s).syncStarted ∨ cmdOf p.cmd = .ack ∨
        cmdOf p.cmd = .ping
    · exact ticked_same hact (clock_of_keeps (dispatch_quiet hq) (by decide) m)
    · rw [not_or, not_or] at hq
      have hack : Keeps [.net] (v.core.atMoment t none)
          (((v.core.atMoment t none).touch s).ackIfReliable s p) :=
        keeps_touch.trans (keeps_ackIfReliable.mono (by decide))
      have hclock : ∀ m, ((((v.core.atMoment t none).touch s).ackIfReliable s p).ms m).clock =
          ((v.core.atMoment t none).ms m).clock := clock_of_keeps hack (by decide)
      have hnext : (((v.core.atMoment t none).touch s).ackIfReliable s p).nextRef =
          (v.core.atMoment t none).nextRef := nextRef_of_keeps hack (by decide)
      exact ticked_route hf hact hclock hnext (dispatch_routes hq.1 hq.2.1 hq.2.2)
  | @letIn a ha =>
    have hact : (⟨.letIn a, t⟩ : Event).act ≠ .tick m ∧ (⟨.letIn a, t⟩ : Event).act ≠ .start m :=
      ⟨by rintro ⟨⟩, by rintro ⟨⟩⟩
    cases hfresh : a.fresh with
    | true =>
      have hadm : (v.core.atMoment t a.loop).admission w a =
          ({ v.core.atMoment t a.loop with
            admits := (v.core.atMoment t a.loop).admits.erase a }.onSession a.s fun p =>
              { p with matchRef := some a.m }).admitFirst w a.s a.m := by
        unfold admission admitSession
        rw [if_pos hfresh]
      obtain ⟨l, mid, hl, hs⟩ := @sets_admitFirst w ({ v.core.atMoment t a.loop with
        admits := (v.core.atMoment t a.loop).admits.erase a }.onSession a.s fun p =>
          { p with matchRef := some a.m }) a.s a.m (by simp)
      rw [← hadm] at hs
      have hidle := (hf.idle a.m (hf.fresh a ha hfresh)).2
      exact ticked_setup hact hs (fun _ => rfl) hl
        (by simpa [seating] using hidle) (Or.inr ⟨mid, rfl⟩)
    | false =>
      refine ticked_same hact ?_
      change (((v.core.atMoment t a.loop).admission w a).ms m).clock = _
      unfold admission admitSession
      rw [if_neg (by simp [hfresh])]
      rfl
  | @start m' hl =>
    refine ticked_sets (sets_settle sets_runStart) (hat (some m'))
      (fun hm => ⟨by rintro ⟨⟩, fun hact => hm (Action.start.inj hact).symm⟩) ?_
    rintro rfl
    exact .start rfl hl
  | @exec m' job rest _ _ =>
    have hact : (⟨.exec m', t⟩ : Event).act ≠ .tick m ∧ (⟨.exec m', t⟩ : Event).act ≠ .start m :=
      ⟨by rintro ⟨⟩, by rintro ⟨⟩⟩
    cases job with
    | route s p => exact ticked_route hf hact (hat (some m')) rfl rfl
    | admitLater s => exact ticked_same hact (clock_of_keeps keeps_admitLater (by decide) m)
    | resyncWalls s => exact ticked_same hact (clock_of_keeps keeps_resyncWalls (by decide) m)
  | @tick m' hfree =>
    have hrun : (v.core.ms m').loop = .running := running_of_free hfree
    have hother : m ≠ m' → (⟨.tick m', t⟩ : Event).act ≠ .tick m ∧ (⟨.tick m', t⟩ : Event).act ≠ .start m :=
      fun hm => ⟨fun hact => hm (Action.tick.inj hact).symm, by rintro ⟨⟩⟩
    by_cases hp : (v.core.ms m').players = []
    · have htick : (v.core.atMoment t (some m')).tick w m' =
          (v.core.atMoment t (some m')).stopLoop m' := if_pos hp
      rw [htick]
      refine ticked_sets (sets_settle sets_stopLoop) (hat (some m')) hother ?_
      rintro rfl
      exact .stop hrun (Or.inr ⟨rfl, List.map_eq_nil_iff.mpr hp⟩)
    · obtain ⟨k, hs, hturn⟩ := @turn_tick w (v.core.atMoment t (some m')) m' hp
      refine ticked_sets (sets_settle hs) (hat (some m')) hother ?_
      rintro rfl
      exact .turn rfl hrun (fun hcrew => hp (List.map_eq_nil_iff.mp hcrew)) hturn
  | @stop m' hfree hdone =>
    refine ticked_sets (sets_settle sets_stopLoop) (hat (some m')) (fun _ => ⟨by rintro ⟨⟩, by rintro ⟨⟩⟩) ?_
    rintro rfl
    exact .stop (running_of_free hfree) (Or.inl ⟨rfl, hdone⟩)

theorem fitted_of_run {es : List Event} (h : Run (Step w) start es v) :
    Seating.Fitted v.seating :=
  run_invariant (I := fun v => Seating.Fitted v.seating) h fitted_start
    fun hx hs => fitted_step hs hx

-- The phase machine of match `m`: an event comes with the teams that it finds.
def Turns (w : World) (m : MatchRef) (k : Clock) (e : Event × Sides) (k' : Clock) : Prop :=
  Ticked w e.1 m e.2 k k'

-- The events of a run of the server, each with the teams of the match before it.
def manned (w : World) (m : MatchRef) (es : List Event) : List (Event × Sides) :=
  logged (step w) (fun v e => [(e, v.core.sides m)]) start es

theorem manned_snoc {es : List Event} (h : Run (Step w) start es v) (m : MatchRef) (e : Event) :
    manned w m (es ++ [e]) = manned w m es ++ [(e, v.core.sides m)] :=
  logged_snoc h

-- The server runs the phase machine of every match, event by event.
theorem phases_of_run {es : List Event} (h : Run (Step w) start es v) (m : MatchRef) :
    (manned w m es).map Prod.fst = es ∧
    Run (Turns w m) (start.core.ms m).clock (manned w m es) (v.core.ms m).clock := by
  induction h with
  | start => exact ⟨rfl, .start⟩
  | next hr hs ih =>
    rw [manned_snoc hr m, List.map_append, ih.1]
    exact ⟨rfl, ih.2.next (clock_step hs (fitted_of_run hr) m)⟩

theorem phases_of_opening : ∃ v, Run (Step signedWorld) start
      (opens 1 0 0 (joinWith hostToken) ++ toFight 0) v ∧ (v.core.ms 0).clock.phase = .fight ∧
    Run (Turns signedWorld 0) (start.core.ms 0).clock
      (manned signedWorld 0 (opens 1 0 0 (joinWith hostToken) ++ toFight 0)) (v.core.ms 0).clock := by
  have hrun : ((opens 1 0 0 (joinWith hostToken) ++ toFight 0).foldlM (step signedWorld)
      start).map (fun v => (v.core.ms 0).clock.phase) = some .fight := by
    decide +kernel
  obtain ⟨v, hv, hp⟩ := Option.map_eq_some_iff.mp hrun
  exact ⟨v, run_of_foldlM hv, hp, (phases_of_run (run_of_foldlM hv) 0).2⟩

end Server

end MatchServer

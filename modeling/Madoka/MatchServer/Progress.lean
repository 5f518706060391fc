import Madoka.Lib.Countdown
import Madoka.MatchServer.Grace
import Madoka.MatchServer.Phases

namespace MatchServer

open Lib

-- Every phase has a duration, and none lasts longer than `span`.
structure World.Paced (w : World) (span : Int) : Prop where
  buy : 0 < w.cfg.buyPhase ∧ w.cfg.buyPhase ≤ span
  banner : 0 < w.postToBlack ∧ w.postToBlack ≤ span
  black : 0 < w.postBlackHold ∧ w.postBlackHold ≤ span
  reveal : 0 < w.introReveal + introSettle ∧ w.introReveal + introSettle ≤ span
  wait : waitPlayersDur ≤ span
  hold : w.cfg.holdPrepare = true → holdDur ≤ span

namespace Clock

variable {w : World} {span now : Int} {x : Sides} {k k' : Clock} {ph : CsPhase} {dur : Int}

-- The phases between this one and a Fight or the end.
def left (k : Clock) : Nat :=
  match k.phase with
  | .setupBind => 4
  | .setupGap => 3
  | .setupWait => 2
  | .prepare => if k.started then 0 else 1
  | .fight => 0
  | .matchEndPause => 1
  | .postBanner => 6
  | .postReviveBind => 5
  | .postBlack => 4
  | .introWait => 3
  | .intro => 2
  | .matchEnd => 0
  | .cancelled => 0

theorem left_le : k.left ≤ 6 := by
  unfold left
  split
  case h_4 => split <;> omega
  all_goals omega

def Running (span now : Int) (k : Clock) : Prop :=
  ∃ d, k.deadline = some d ∧ now < d ∧ d ≤ now + span

theorem running_enter (h : 0 < dur ∧ dur ≤ span) : (k.enter now ph dur).Running span now := by
  refine ⟨now + dur, ?_, by omega, by omega⟩
  simp only [enter]
  rw [if_neg (by omega)]

theorem Edge.next (hw : w.Paced span) (h : Edge w now k k') (ht : k.tearingDown = k.done) :
    k'.phase = .fight ∨ k'.done = true ∨ k'.left < k.left ∧ k'.Running span now := by
  have hspan := hw.wait
  have hbind : 0 < bindDelay ∧ bindDelay ≤ span := by
    simp only [bindDelay, waitPlayersDur] at hspan ⊢
    omega
  cases h with
  | bind hph =>
    refine Or.inr (Or.inr ⟨by simp [left, hph, enter], running_enter ?_⟩)
    simp only [setupGapDur, waitPlayersDur] at hspan ⊢
    omega
  | gap hph =>
    refine Or.inr (Or.inr ⟨by simp [left, hph, enter], running_enter ?_⟩)
    simp only [setupWaitDur, waitPlayersDur] at hspan ⊢
    omega
  | hold hph hhold =>
    refine Or.inr (Or.inr ⟨by rcases hph with hph | hph <;> simp [left, hph, enter, start],
      running_enter ⟨by decide, hw.hold hhold⟩⟩)
  | buy hph =>
    exact Or.inr (Or.inr ⟨by rcases hph with hph | hph <;> simp [left, hph, enter, start],
      running_enter hw.buy⟩)
  | gather hph hst =>
    exact Or.inr (Or.inr ⟨by rcases hph with hph | hph <;> simp [left, hph, hst, enter],
      running_enter ⟨by decide, hspan⟩⟩)
  | fill hph hst =>
    exact Or.inr (Or.inr ⟨by simp [left, hph, hst, enter, start], running_enter hw.buy⟩)
  | cancel hph hst =>
    refine Or.inr (Or.inr ⟨by simp [left, hph, hst, enter], running_enter ?_⟩)
    simp only [cancelHoldDur, waitPlayersDur] at hspan ⊢
    omega
  | fight _ _ => exact Or.inl rfl
  | ends hph =>
    refine Or.inr (Or.inr ⟨by simp [left, hph, enter], running_enter ?_⟩)
    simp only [matchStatsHold, waitPlayersDur] at hspan ⊢
    omega
  | revive hph => exact Or.inr (Or.inr ⟨by simp [left, hph, enter], running_enter hbind⟩)
  | black hph =>
    exact Or.inr (Or.inr ⟨by rcases hph with hph | hph <;> simp [left, hph, enter],
      running_enter hw.black⟩)
  | round hph => exact Or.inr (Or.inr ⟨by simp [left, hph, enter], running_enter hbind⟩)
  | intro hph => exact Or.inr (Or.inr ⟨by simp [left, hph, enter], running_enter hw.reveal⟩)
  | close _ =>
    refine Or.inr (Or.inl ?_)
    unfold tearDown
    split
    · rename_i htear
      exact ht ▸ htear
    · rfl

theorem Turn.next (hw : w.Paced span) (h : Turn w now x k k') (ht : k.tearingDown = k.done)
    (hf : k'.phase ≠ .fight) (hd : k'.done = false) : k' = k ∧ k.due now = false ∨
    (k.phase = .fight ∨ k'.left < k.left) ∧ k'.Running span now := by
  have hend : 0 < matchEndPause ∧ matchEndPause ≤ span := by
    have hspan := hw.wait
    simp only [matchEndPause, waitPlayersDur] at hspan ⊢
    omega
  cases h with
  | rest hrest => exact Or.inl ⟨rfl, (hrest.resolve_left fun h => hf h.1).2⟩
  | edge _ he =>
    rcases he.next hw ht with h | h | h
    · exact absurd h hf
    · exact absurd (hd.symm.trans h) Bool.false_ne_true
    · exact Or.inr ⟨Or.inr h.1, h.2⟩
  | ready hph hst _ =>
    exact Or.inr ⟨Or.inr (by simp [left, hph, hst, enter, start]), running_enter hw.buy⟩
  | won _ hph _ _ _ => exact Or.inr ⟨Or.inl hph, running_enter hend⟩
  | again _ hph _ _ _ => exact Or.inr ⟨Or.inl hph, running_enter hw.banner⟩

theorem Turn.torn (h : Turn w now x k k') (ht : k.tearingDown = k.done) :
    k'.tearingDown = k'.done := by
  cases h with
  | edge _ he =>
    cases he with
    | close _ =>
      unfold tearDown
      split
      · exact ht
      · rfl
    | _ => exact ht
  | _ => exact ht

-- A loop that is up has its deadline set, outside of a Fight and until the end.
structure Kept (span now : Int) (k : Clock) : Prop where
  torn : k.tearingDown = k.done
  due : k.loop = .running → k.phase ≠ .fight → k.done = false →
    ∃ d, k.deadline = some d ∧ d ≤ now + span

end Clock

namespace Server

open MatchServer.Core

variable {w : World} {v v' v0 : Server} {e : Event} {es es' : List Event} {m : MatchRef}
  {span gap t : Int} {k k' : Clock} {sides : Sides} {x y : Server × Int}

theorem torn_ticked (h : Ticked w e m sides k k') (ht : k.tearingDown = k.done) :
    k'.tearingDown = k'.done := by
  cases h with
  | turn _ _ _ hturn => exact hturn.torn ht
  | _ => exact ht

theorem kept_ticked (hw : w.Paced span) (h : Ticked w e m sides k k') {now : Int}
    (hnow : now ≤ e.moment.now) (hk : k.Kept span now) : k'.Kept span e.moment.now := by
  have hlater : k.loop = .running → k.phase ≠ .fight → k.done = false →
      ∃ d, k.deadline = some d ∧ d ≤ e.moment.now + span := fun h1 h2 h3 => by
    obtain ⟨d, hd, hle⟩ := hk.due h1 h2 h3
    exact ⟨d, hd, by omega⟩
  refine ⟨torn_ticked h hk.torn, ?_⟩
  cases h with
  | same => exact hlater
  | turn _ hl _ hturn =>
    intro _ hf hd
    rcases hturn.next hw hk.torn hf hd with ⟨rfl, -⟩ | ⟨-, d, hdl, -, hle⟩
    · exact hlater hl hf hd
    · exact ⟨d, hdl, hle⟩
  | start _ _ =>
    intro _ _ _
    refine ⟨_, rfl, ?_⟩
    have hspan := hw.wait
    simp only [bindDelay, waitPlayersDur] at hspan ⊢
    omega
  | stop _ _ => exact fun hrun => LoopState.noConfusion hrun
  | setup _ hl _ =>
    intro hrun
    rcases hl with rfl | rfl
    · exact LoopState.noConfusion hrun
    · exact LoopState.noConfusion hrun

theorem kept_of_run (hw : w.Paced span) (h : Run (Guarded (Step w) Clocked) start es v)
    (m : MatchRef) : (v.core.ms m).clock.Kept span v.core.now := by
  refine run_invariant (I := fun v => Seating.Fitted v.seating ∧
    ∀ m, (v.core.ms m).clock.Kept span v.core.now) h
    ⟨fitted_start, fun _ => ⟨rfl, fun hl => LoopState.noConfusion hl⟩⟩ ?_ |>.2 m
  intro a e b ⟨hf, hk⟩ ⟨hs, hc⟩
  refine ⟨fitted_step hs hf, fun m => ?_⟩
  rw [now_step hs]
  exact kept_ticked hw (clock_step hs hf m) hc.2 (hk m)

structure Lingers (m : MatchRef) (v : Server) : Prop where
  phase : (v.core.ms m).phase ≠ .fight
  done : (v.core.ms m).done = false
  loop : (v.core.ms m).loop = .running

instance : Decidable (Lingers m v) :=
  decidable_of_iff ((v.core.ms m).phase ≠ .fight ∧ (v.core.ms m).done = false ∧
    (v.core.ms m).loop = .running) ⟨fun h => ⟨h.1, h.2.1, h.2.2⟩, fun h => ⟨h.1, h.2, h.3⟩⟩

-- A step of the server, with the time of the match's last tick; ticks are `gap` apart at most.
def Attended (w : World) (m : MatchRef) (gap : Int) (x : Server × Int) (e : Event)
    (y : Server × Int) : Prop :=
  x.1.Step w e y.1 ∧ (e.act = .tick m → e.moment.now ≤ x.2 + gap) ∧
    y.2 = if e.act = .tick m then e.moment.now else x.2

structure Awaits (m : MatchRef) (span gap t : Int) (x : Server × Int) : Prop where
  fitted : Seating.Fitted x.1.seating
  torn : (x.1.core.ms m).clock.tearingDown = (x.1.core.ms m).clock.done
  last : x.2 ≤ t
  count : Lingers m x.1 → ∃ d, (x.1.core.ms m).deadline = some d ∧
    Countdown.Ahead ⟨(x.1.core.ms m).clock.left, d, x.2⟩ ∧
    Countdown.bound span gap ⟨(x.1.core.ms m).clock.left, d, x.2⟩ ≤ t

theorem span_nonneg (hw : w.Paced span) (hgap : 0 ≤ gap) : 0 ≤ span + gap := by
  have hwait := hw.wait
  simp only [waitPlayersDur] at hwait
  omega

theorem running_begun (hw : w.Paced span) (h : Run (Guarded (Step w) Clocked) start es v)
    (h0 : v.Step w e v0) (hc : v.Clocked e) (hact : e.act = .start m ∨ e.act = .tick m)
    (hl : Lingers m v0) : (v0.core.ms m).clock.Running span e.moment.now := by
  have hk := kept_of_run hw h m
  have htick := clock_step h0 (fitted_of_run (guarded_run h)) m
  obtain ⟨hphase, hdone, hloop⟩ := hl
  change (v0.core.ms m).clock.phase ≠ .fight at hphase
  change (v0.core.ms m).clock.done = false at hdone
  change (v0.core.ms m).clock.loop = .running at hloop
  revert htick hphase hdone hloop hk
  generalize (v0.core.ms m).clock = k'
  generalize (v.core.ms m).clock = k
  intro hk htick hphase hdone hloop
  cases htick with
  | same hnt hns => exact absurd hact (not_or.mpr ⟨hns, hnt⟩)
  | turn _ hrun _ hturn =>
    rcases hturn.next hw hk.torn hphase hdone with ⟨rfl, hdue⟩ | ⟨-, hrunning⟩
    · obtain ⟨d, hd, hle⟩ := hk.due hrun hphase hdone
      have hnow := hc.2
      simp only [Clock.due, hd, decide_eq_false_iff_not] at hdue
      exact ⟨d, hd, by omega, by omega⟩
    · exact hrunning
  | start _ _ =>
    refine Clock.running_enter ?_
    have hspan := hw.wait
    simp only [bindDelay, waitPlayersDur] at hspan ⊢
    omega
  | stop _ _ => exact LoopState.noConfusion hloop
  | setup _ hl _ =>
    rcases hl with rfl | rfl
    · exact LoopState.noConfusion hloop
    · exact LoopState.noConfusion hloop

theorem awaits_begun (hw : w.Paced span) (hgap : 0 ≤ gap)
    (h : Run (Guarded (Step w) Clocked) start es v) (h0 : v.Step w e v0) (hc : v.Clocked e)
    (hact : e.act = .start m ∨ e.act = .tick m) :
    Awaits m span gap (e.moment.now + 7 * (span + gap)) (v0, e.moment.now) := by
  have hf := fitted_of_run (guarded_run h)
  have hspan := span_nonneg hw hgap
  refine ⟨fitted_step h0 hf, (kept_ticked hw (clock_step h0 hf m) hc.2 (kept_of_run hw h m)).torn, ?_,
    fun hl => ?_⟩
  · simp only
    omega
  · obtain ⟨d, hd, hlt, hle⟩ := running_begun hw h h0 hc hact hl
    refine ⟨d, hd, hlt, ?_⟩
    have hbound := Countdown.bound_le (c := ⟨(v0.core.ms m).clock.left, d, e.moment.now⟩) (n := 6)
      hle Clock.left_le hspan
    simpa using hbound

theorem turn_of_ticked (h : Ticked w e m sides k k') (hact : e.act = .tick m)
    (hl : k.loop = .running) (hl' : k'.loop = .running) : Clock.Turn w e.moment.now sides k k' := by
  cases h with
  | same hnt _ => exact absurd hact hnt
  | turn _ _ _ hturn => exact hturn
  | start hstart _ => exact absurd (hact.symm.trans hstart) (by rintro ⟨⟩)
  | stop _ _ => exact LoopState.noConfusion hl'
  | setup hidle _ _ => exact LoopState.noConfusion (hl.symm.trans hidle)

theorem same_of_ticked (h : Ticked w e m sides k k') (hact : e.act ≠ .tick m)
    (hl : k.loop = .running) (hd : k.done = false) : k' = k := by
  cases h with
  | same => rfl
  | turn htick _ _ _ => exact absurd htick hact
  | start _ hspawned => exact LoopState.noConfusion (hl.symm.trans hspawned)
  | stop _ hstop =>
    rcases hstop with ⟨-, hdone⟩ | ⟨htick, -⟩
    · exact Bool.noConfusion (hd.symm.trans hdone)
    · exact absurd htick hact
  | setup hidle _ _ => exact LoopState.noConfusion (hl.symm.trans hidle)

theorem look_turn (hw : w.Paced span) {now d : Int} (seen : Int) (h : Clock.Turn w now sides k k')
    (ht : k.tearingDown = k.done) (hf : k.phase ≠ .fight) (hdl : k.deadline = some d)
    (hf' : k'.phase ≠ .fight) (hd' : k'.done = false) : ∃ d', k'.deadline = some d' ∧
    Countdown.Look span now ⟨k.left, d, seen⟩ ⟨k'.left, d', now⟩ := by
  rcases h.next hw ht hf' hd' with ⟨rfl, hdue⟩ | ⟨hleft, d', hd, hlt, hle⟩
  · simp only [Clock.due, hdl, decide_eq_false_iff_not] at hdue
    exact ⟨d, hdl, .wait (by omega)⟩
  · exact ⟨d', hd, .next (hleft.resolve_left hf) hlt hle⟩

theorem awaits_step (hw : w.Paced span) (hgap : 0 ≤ gap) (hx : Awaits m span gap t x)
    (h : Attended w m gap x e y) (hl : Lingers m x.1) : Awaits m span gap t y := by
  obtain ⟨hs, hattend, hlast⟩ := h
  have hspan := span_nonneg hw hgap
  obtain ⟨d, hd, hahead, hbound⟩ := hx.count hl
  have htick := clock_step hs hx.fitted m
  have htorn := torn_ticked htick hx.torn
  by_cases hact : e.act = .tick m
  · rw [if_pos hact] at hlast
    have hnow := hattend hact
    have hseen : x.2 < d := hahead
    have hcap := Countdown.due_le_bound (c := ⟨(x.1.core.ms m).clock.left, d, x.2⟩) hspan
    refine ⟨fitted_step hs hx.fitted, htorn, ?_, fun hl' => ?_⟩
    · rw [hlast]
      simp only at hcap
      omega
    · have hturn := turn_of_ticked htick hact hl.loop hl'.loop
      obtain ⟨d', hd', hlook⟩ := look_turn hw x.2 hturn hx.torn hl.phase hd hl'.phase hl'.done
      rw [hlast]
      exact ⟨d', hd', hlook.ahead, (hlook.bound_le hahead hnow hspan).trans hbound⟩
  · rw [if_neg hact] at hlast
    have hk := same_of_ticked htick hact hl.loop hl.done
    refine ⟨fitted_step hs hx.fitted, htorn, hlast ▸ hx.last, fun _ => ?_⟩
    have hdl : (y.1.core.ms m).deadline = (x.1.core.ms m).deadline := congrArg Clock.deadline hk
    rw [hk, hdl, hlast]
    exact ⟨d, hd, hahead, hbound⟩

-- A match that lingers behind its start or a tick leaves its phases within seven spans and gaps.
theorem reaches_fight (hw : w.Paced span) (hgap : 0 ≤ gap)
    (h : Run (Guarded (Step w) Clocked) start es v) (h0 : v.Step w e v0) (hc : v.Clocked e)
    (hact : e.act = .start m ∨ e.act = .tick m)
    (hrun : Run (Guarded (Attended w m gap) fun x _ => Lingers m x.1) (v0, e.moment.now) es' x) :
    x.2 ≤ e.moment.now + 7 * (span + gap) :=
  (run_invariant (I := Awaits m span gap (e.moment.now + 7 * (span + gap))) hrun
    (awaits_begun hw hgap h h0 hc hact) fun hx hs => awaits_step hw hgap hx hs.1 hs.2).last

theorem paced_signedWorld : signedWorld.Paced 30000000000 :=
  ⟨by decide, by decide, by decide, by decide, by decide, fun h => Bool.noConfusion h⟩

def attend (w : World) (m : MatchRef) (gap : Int) (x : Server × Int) (e : Event) :
    Option (Server × Int) :=
  if (e.act = .tick m → e.moment.now ≤ x.2 + gap) ∧ Lingers m x.1 then
    (x.1.step w e).map fun v => (v, if e.act = .tick m then e.moment.now else x.2)
  else none

theorem attended_of_attend (h : attend w m gap x e = some y) :
    Guarded (Attended w m gap) (fun x _ => Lingers m x.1) x e y := by
  unfold attend at h
  rw [Option.ite_none_right_eq_some, Option.map_eq_some_iff] at h
  obtain ⟨⟨hgap, hl⟩, v, hv, rfl⟩ := h
  exact ⟨⟨hv, hgap, rfl⟩, hl⟩

-- The host starts alone, against a bot.
theorem host_reaches_fight : ∃ v v0 x,
    Run (Guarded (Step signedWorld) Clocked) start
      [event 1 (.dispatch 0 (joinWith hostToken)), event 1 (.letIn ⟨0, 0, true, none⟩)] v ∧
    v.Step signedWorld (event 1 (.start 0)) v0 ∧
    Run (Guarded (Attended signedWorld 0 11000000000) fun x _ => Lingers 0 x.1) (v0, 1)
      (toFight 0) x ∧
    (x.1.core.ms 0).phase = .fight ∧ x.2 = 18000000000 ∧
    x.2 ≤ 1 + 7 * (30000000000 + 11000000000) := by
  have hrun : ((([event 1 (.dispatch 0 (joinWith hostToken)),
      event 1 (.letIn ⟨0, 0, true, none⟩)] : List Event).foldlM (fun v e =>
        if Clocked v e then step signedWorld v e else none) start).bind fun v =>
      (v.step signedWorld (event 1 (.start 0))).bind fun v0 =>
        ((toFight 0).foldlM (attend signedWorld 0 11000000000) (v0, 1)).map fun x =>
          (decide (Clocked v (event 1 (.start 0))), (x.1.core.ms 0).phase, x.2)) =
      some (true, .fight, 18000000000) := by
    decide +kernel
  obtain ⟨v, hv, hrest⟩ := Option.bind_eq_some_iff.mp hrun
  obtain ⟨v0, hv0, hrest⟩ := Option.bind_eq_some_iff.mp hrest
  obtain ⟨x, hx, hends⟩ := Option.map_eq_some_iff.mp hrest
  simp only [Prod.mk.injEq, decide_eq_true_eq] at hends
  obtain ⟨hc, hphase, hlast⟩ := hends
  have hattend := run_mono (run_of_foldlM hx) attended_of_attend
  exact ⟨v, v0, x, run_of_checked hv, hv0, hattend, hphase, hlast, reaches_fight paced_signedWorld
    (by decide) (run_of_checked hv) hv0 hc (Or.inl rfl) hattend⟩

end Server

end MatchServer

import Madoka.MatchServer.Phases

namespace MatchServer

open Lib

def CsPhase.behind : CsPhase → Bool
  | .postBanner | .postReviveBind | .postBlack => true
  | _ => false

def CsPhase.final : CsPhase → Bool
  | .matchEndPause | .matchEnd => true
  | _ => false

-- A round count is a byte, and the wins it takes are computed in one.
structure MatchSettings.Majority (s : MatchSettings) : Prop where
  byte : s.maxRound < 256
  half : s.roundsToWin = (s.maxRound + 1) % 256 / 2

namespace Clock

variable {w : World} {now : Int} {x : Sides} {k k' : Clock}

structure Scored (k : Clock) : Prop where
  majority : k.settings.Majority
  first : 1 ≤ k.round
  last : k.round ≤ max 1 k.settings.maxRound
  total : k.teamScore.1 + k.teamScore.2 + (if k.phase.behind || k.phase.final then 0 else 1) =
    k.round
  undecided : k.phase.final = false →
    k.teamScore = (0, 0) ∨ k.teamScore.1 < k.settings.roundsToWin ∧
      k.teamScore.2 < k.settings.roundsToWin
  more : k.phase.behind = true → k.round < k.settings.maxRound
  decided : k.phase.final = true → k.decided ∧
    (k.winnerTeam = localTeamID ∧ k.teamScore.2 < k.teamScore.1 ∨
      k.winnerTeam = enemyTeamID ∧ k.teamScore.1 < k.teamScore.2)
  ended : k.done = true → k.phase = .matchEnd ∨ k.phase = .cancelled

theorem Scored.enter {ph p : CsPhase} {dur : Int} (h : k.Scored) (hp : k.phase = p)
    (hb : ph.behind = p.behind) (hf : ph.final = p.final) (ho : p ≠ .matchEnd ∧ p ≠ .cancelled) :
    (k.enter now ph dur).Scored := by
  subst hp
  exact {
    majority := h.majority
    first := h.first
    last := h.last
    total := by
      have ht := h.total
      rwa [← hb, ← hf] at ht
    undecided := fun hp => h.undecided (hf ▸ hp)
    more := fun hp => h.more (hb ▸ hp)
    decided := fun hp => h.decided (hf ▸ hp)
    ended := fun hd => absurd (h.ended hd) (not_or.mpr ho) }

theorem Scored.start (h : k.Scored) : k.start.Scored :=
  ⟨h.majority, h.first, h.last, h.total, h.undecided, h.more, h.decided, h.ended⟩

theorem Scored.round (h : k.Scored) (hp : k.phase = .postBlack) {dur : Int} :
    ({ k with round := k.round + 1 }.enter now .introWait dur).Scored where
  majority := h.majority
  first := Nat.le_add_left 1 _
  last := by
    have hmore := h.more (by rw [hp]; rfl)
    exact (Nat.succ_le_of_lt hmore).trans (Nat.le_max_right _ _)
  total := by
    have ht := h.total
    rw [hp] at ht
    exact congrArg (· + 1) ht
  undecided := fun _ => h.undecided (by rw [hp]; rfl)
  more := fun hb => Bool.noConfusion hb
  decided := fun hf => Bool.noConfusion hf
  ended := fun hd => by
    have ho := h.ended hd
    rw [hp] at ho
    rcases ho with ho | ho <;> exact CsPhase.noConfusion ho

theorem Scored.tearDown (h : k.Scored) (hp : k.phase = .cancelled ∨ k.phase = .matchEnd) :
    k.tearDown.Scored := by
  unfold Clock.tearDown
  split
  · exact h
  · exact ⟨h.majority, h.first, h.last, h.total, h.undecided, h.more, h.decided, fun _ => hp.symm⟩

theorem Scored.edge (h : k.Scored) (he : Edge w now k k') : k'.Scored := by
  cases he with
  | bind hp => exact h.enter hp rfl rfl (by decide)
  | gap hp => exact h.enter hp rfl rfl (by decide)
  | hold hp _ =>
    rcases hp with hp | hp
    · exact h.start.enter hp rfl rfl (by decide)
    · exact h.start.enter hp rfl rfl (by decide)
  | buy hp =>
    rcases hp with hp | hp
    · exact h.start.enter hp rfl rfl (by decide)
    · exact h.start.enter hp rfl rfl (by decide)
  | gather hp _ =>
    rcases hp with hp | hp
    · exact h.enter hp rfl rfl (by decide)
    · exact h.enter hp rfl rfl (by decide)
  | fill hp _ => exact h.start.enter hp rfl rfl (by decide)
  | cancel hp _ => exact h.enter hp rfl rfl (by decide)
  | fight hp _ => exact h.enter hp rfl rfl (by decide)
  | ends hp => exact h.enter hp rfl rfl (by decide)
  | revive hp => exact h.enter hp rfl rfl (by decide)
  | black hp =>
    rcases hp with hp | hp
    · exact h.enter hp rfl rfl (by decide)
    · exact h.enter hp rfl rfl (by decide)
  | round hp => exact h.round hp
  | intro hp => exact h.enter hp rfl rfl (by decide)
  | close hp => exact h.tearDown hp

theorem Scored.won (h : k.Scored) (hp : k.phase = .fight) (localWon : Bool) :
    (k.scored localWon).teamScore =
      (if localWon then (k.teamScore.1 + 1, k.teamScore.2) else (k.teamScore.1, k.teamScore.2 + 1)) ∧
    k.teamScore.1 + k.teamScore.2 + 1 = k.round := by
  have ht := h.total
  have hlast := h.last
  have hbyte := h.majority.byte
  rw [hp] at ht
  change k.teamScore.1 + k.teamScore.2 + 1 = k.round at ht
  refine ⟨?_, ht⟩
  unfold scored
  cases localWon with
  | true =>
    simp only [if_true, Prod.mk.injEq, and_true]
    omega
  | false =>
    simp only [Bool.false_eq_true, if_false, Prod.mk.injEq, true_and]
    omega

theorem Scored.leads (h : k.Scored) (hp : k.phase = .fight) (localWon : Bool)
    (hd : (k.scored localWon).decided) : if localWon then
      (k.scored localWon).teamScore.2 < (k.scored localWon).teamScore.1
    else (k.scored localWon).teamScore.1 < (k.scored localWon).teamScore.2 := by
  obtain ⟨hs, ht⟩ := h.won hp localWon
  have hund := h.undecided (by rw [hp]; rfl)
  obtain ⟨hbyte, hhalf⟩ := h.majority
  unfold Clock.decided at hd
  rw [hs] at hd ⊢
  change _ ∨ _ ∨ k.settings.maxRound ≤ k.round at hd
  change k.settings.roundsToWin ≤ _ ∨ k.settings.roundsToWin ≤ _ ∨ _ at hd
  cases localWon with
  | true =>
    simp only [if_true] at hd ⊢
    rcases hund with hzero | ⟨hone, htwo⟩
    · rw [hzero]
      exact Nat.one_pos
    · omega
  | false =>
    simp only [Bool.false_eq_true, if_false] at hd ⊢
    rcases hund with hzero | ⟨hone, htwo⟩
    · rw [hzero]
      exact Nat.one_pos
    · omega

theorem Scored.sum (h : k.Scored) (hp : k.phase = .fight) (localWon : Bool) :
    (k.scored localWon).teamScore.1 + (k.scored localWon).teamScore.2 = k.round := by
  obtain ⟨hs, ht⟩ := h.won hp localWon
  rw [hs]
  cases localWon with
  | true =>
    simp only [if_true]
    omega
  | false =>
    simp only [Bool.false_eq_true, if_false]
    omega

theorem Scored.notOver (h : k.Scored) (hp : k.phase = .fight) : k.done = false := by
  by_contra hd
  have ho := h.ended (by simpa using hd)
  rw [hp] at ho
  rcases ho with ho | ho <;> exact CsPhase.noConfusion ho

theorem Scored.turn (h : k.Scored) (ht : Turn w now x k k') : k'.Scored := by
  cases ht with
  | rest _ => exact h
  | edge _ he => exact h.edge he
  | ready hp _ _ => exact h.start.enter hp rfl rfl (by decide)
  | won localWon hp _ _ hd =>
    have hleads := h.leads hp localWon hd
    exact {
      majority := h.majority
      first := h.first
      last := h.last
      total := h.sum hp localWon
      undecided := fun hf => Bool.noConfusion hf
      more := fun hb => Bool.noConfusion hb
      decided := fun _ => ⟨hd, by
        cases localWon with
        | true => exact Or.inl ⟨rfl, hleads⟩
        | false => exact Or.inr ⟨rfl, hleads⟩⟩
      ended := fun hover => Bool.noConfusion ((h.notOver hp).symm.trans hover) }
  | again localWon hp _ _ hd =>
    unfold Clock.decided at hd
    rw [not_or, not_or] at hd
    exact {
      majority := h.majority
      first := h.first
      last := h.last
      total := h.sum hp localWon
      undecided := fun _ => Or.inr ⟨Nat.not_le.mp hd.1, Nat.not_le.mp hd.2.1⟩
      more := fun _ => Nat.not_le.mp hd.2.2
      decided := fun hf => Bool.noConfusion hf
      ended := fun hover => Bool.noConfusion ((h.notOver hp).symm.trans hover) }

theorem Turn.settled (h : Turn w now x k k') (hp : k.phase = .matchEndPause) (hd : k.due now = true) :
    k' = k.enter now .matchEnd matchStatsHold := by
  cases h with
  | rest hrest =>
    rcases hrest with ⟨hrest, -⟩ | ⟨-, hrest⟩
    · exact CsPhase.noConfusion (hrest.symm.trans hp)
    · exact Bool.noConfusion (hrest.symm.trans hd)
  | edge _ he =>
    cases he with
    | ends _ => rfl
    | hold h _ => rcases h with h | h <;> exact CsPhase.noConfusion (h.symm.trans hp)
    | buy h => rcases h with h | h <;> exact CsPhase.noConfusion (h.symm.trans hp)
    | gather h _ => rcases h with h | h <;> exact CsPhase.noConfusion (h.symm.trans hp)
    | black h => rcases h with h | h <;> exact CsPhase.noConfusion (h.symm.trans hp)
    | close h => rcases h with h | h <;> exact CsPhase.noConfusion (h.symm.trans hp)
    | _ h => exact CsPhase.noConfusion (h.symm.trans hp)
  | ready h _ _ => exact CsPhase.noConfusion (h.symm.trans hp)
  | won _ h _ _ _ => exact CsPhase.noConfusion (h.symm.trans hp)
  | again _ h _ _ _ => exact CsPhase.noConfusion (h.symm.trans hp)

theorem Turn.ends (h : Turn w now x k k') (hp : k'.phase = .matchEnd) :
    k.phase = .matchEnd ∨ k.phase = .matchEndPause ∧ k.due now = true := by
  cases h with
  | rest _ => exact Or.inl hp
  | edge hd he =>
    cases he with
    | ends h => exact Or.inr ⟨h, hd⟩
    | close h =>
      unfold Clock.tearDown at hp
      split at hp
      · exact Or.inl hp
      · exact Or.inl hp
    | _ => exact CsPhase.noConfusion hp
  | _ => exact CsPhase.noConfusion hp

structure Blank (k : Clock) : Prop where
  majority : k.settings.Majority
  score : k.teamScore = (0, 0)
  done : k.done = false
  round : k.loop = .spawned → k.round = 1

structure Counts (k : Clock) : Prop where
  blank : k.loop = .idle ∨ k.loop = .spawned → k.Blank
  begun : k.loop = .running ∨ k.loop = .stopped → k.Scored

end Clock

theorem majority_zero : zeroSettings.Majority := ⟨by decide, by decide⟩

theorem majority_default : defaultMatchSettings.Majority := ⟨by decide, by decide⟩

theorem majority_overlay {wire : WireSettings} {s : MatchSettings} (h : s.Majority) :
    (overlay wire s).Majority := by
  unfold overlay
  by_cases hr : 0 < wire.roundCount
  · exact ⟨by simp only [if_pos hr]; exact wire.roundCount.isLt, by simp only [if_pos hr]⟩
  · exact ⟨by simp only [if_neg hr]; exact h.byte, by simp only [if_neg hr]; exact h.half⟩

theorem majority_load {w : World} {mid : Nat} : (loadMatchSettings w mid).Majority := by
  unfold loadMatchSettings
  split
  · exact majority_default
  split
  · exact majority_default
  · exact ⟨majority_default.byte, majority_default.half⟩
  · exact majority_overlay ⟨majority_default.byte, majority_default.half⟩

namespace Server

open Clock

variable {w : World} {v v' : Server} {e : Event} {es : List Event} {m : MatchRef} {k k' : Clock}
  {x : Sides}

theorem scored_begin {now : Int} {dur : Int} (h : k.Blank) (hl : k.loop = .spawned) :
    ({ k with loop := .running }.enter now .setupBind dur).Scored where
  majority := h.majority
  first := (h.round hl).ge
  last := (h.round hl).le.trans (Nat.le_max_left _ _)
  total := by
    change k.teamScore.1 + k.teamScore.2 + 1 = k.round
    rw [h.score, h.round hl]
    rfl
  undecided := fun _ => Or.inl h.score
  more := fun hb => Bool.noConfusion hb
  decided := fun hf => Bool.noConfusion hf
  ended := fun hd => Bool.noConfusion (h.done.symm.trans hd)

theorem counts_ticked (h : Ticked w e m x k k') (hk : k.Counts) : k'.Counts := by
  cases h with
  | same _ _ => exact hk
  | turn _ hrun _ hturn =>
    have hrun' := hturn.loop.trans hrun
    refine ⟨fun hl => ?_, fun _ => (hk.begun (Or.inl hrun)).turn hturn⟩
    rw [hrun'] at hl
    rcases hl with hl | hl <;> exact LoopState.noConfusion hl
  | start _ hl =>
    refine ⟨fun hl' => ?_, fun _ => scored_begin (hk.blank (Or.inr hl)) hl⟩
    rcases hl' with hl' | hl' <;> exact LoopState.noConfusion hl'
  | stop hrun _ =>
    have hs := hk.begun (Or.inl hrun)
    refine ⟨fun hl' => ?_, fun _ => ⟨hs.majority, hs.first, hs.last, hs.total, hs.undecided, hs.more,
      hs.decided, hs.ended⟩⟩
    rcases hl' with hl' | hl' <;> exact LoopState.noConfusion hl'
  | setup hidle hl hset =>
    have hb := hk.blank (Or.inl hidle)
    refine ⟨fun _ => ⟨?_, hb.score, hb.done, fun _ => rfl⟩, fun hl' => ?_⟩
    · rcases hset with rfl | ⟨mid, rfl⟩
      · exact hb.majority
      · exact majority_load
    · rcases hl with rfl | rfl <;> rcases hl' with hl' | hl' <;> exact LoopState.noConfusion hl'

end Server

namespace Core

variable {w : World} {c d : Core} {m : MatchRef} {F : List Part}

def settlement (w : World) (c : Core) (m : MatchRef) : Option MatchResult :=
  if (c.ms m).players ≠ [] ∧ (c.ms m).phase = .matchEndPause ∧ c.due m = true ∧ w.cfg.bus = true then
    some ⟨c.matchIDString w.cfg m, (c.ms m).players.map fun p => playerResult (c.ms m) (c.ss p)⟩
  else none

theorem published_matchEnd : (c.matchEnd w m).published = c.published ++
    if w.cfg.bus then
      [⟨c.matchIDString w.cfg m, (c.ms m).players.map fun p => playerResult (c.ms m) (c.ss p)⟩]
    else [] := by
  have hsends : Keeps [] (c.publishResult w.cfg m) (c.matchEnd w m) :=
    (Frame.refl _).sends (w.roundFlow.matchEnd_sends w.cfg c m)
  rw [published_of_keeps hsends (by decide)]
  unfold publishResult
  split
  · rfl
  · exact (List.append_nil _).symm

theorem keeps_quietEdge (h : (c.ms m).phase ≠ .matchEndPause) :
    Keeps (.ground :: .bot :: .lock :: .over :: bannerParts) c (c.phaseEdge w m) := by
  unfold phaseEdge
  dsimp only
  split
  case h_1 => exact (keeps_bindAll.mono (by decide)).trans (keeps_enter.mono (by decide))
  case h_2 => exact keeps_enter.mono (by decide)
  case h_3 =>
    exact ((keeps_sendCSShop.mono (by decide)).trans (keeps_giveLoadout.mono (by decide))).trans
      (keeps_enterPrepare.mono (by decide))
  case h_4 => exact (Frame.refl c).broadcastData.trans (keeps_tearDown.mono (by decide))
  case h_5 =>
    refine Frame.ite (fun _ => keeps_startFight.mono (by decide)) fun _ => Frame.ite (fun _ => ?_)
      fun _ => keeps_enterCancel.mono (by decide)
    exact (keeps_spawnFallbackBot.mono (by decide)).trans (keeps_startBuyPhase.mono (by decide))
  case h_6 => exact Frame.refl c
  case h_7 hph => exact absurd hph h
  case h_8 => exact keeps_postBannerEdge.mono (by decide)
  case h_9 => exact keeps_postReviveEdge.mono (by decide)
  case h_10 => exact (keeps_openRound.mono (by decide)).broadcastData.trans (keeps_enter.mono (by decide))
  case h_11 => exact (keeps_enter.mono (by decide)).trans (keeps_sendPull.mono (by decide))
  case h_12 => exact keeps_enterPrepare.mono (by decide)
  case h_13 => exact keeps_tearDown.mono (by decide)

theorem published_admission {a : Admission} : (c.admission w a).published = c.published := by
  unfold admission admitSession
  generalize hd : ({ c with admits := c.admits.erase a }.onSession a.s fun p =>
    { p with matchRef := some a.m }) = d
  have hpub : d.published = c.published := by
    rw [← hd]
    rfl
  by_cases hfresh : a.fresh = true
  · rw [if_pos hfresh]
    exact (published_of_keeps keeps_admitFirst (by decide)).trans hpub
  · rw [if_neg hfresh]
    exact hpub

theorem settlement_none (h : (c.ms m).phase ≠ .matchEndPause ∨ c.due m = false) :
    c.settlement w m = none := by
  unfold settlement
  refine if_neg fun hs => ?_
  rcases h with h | h
  · exact h hs.2.1
  · exact Bool.noConfusion (h.symm.trans hs.2.2.1)

theorem published_advancePhase (hp : (c.ms m).players ≠ []) :
    (c.advancePhase w m).published = c.published ++ (c.settlement w m).toList := by
  have hquiet : ∀ {F : List Part}, c.settlement w m = none → Keeps F c (c.advancePhase w m) →
      Part.published ∉ F → (c.advancePhase w m).published =
        c.published ++ (c.settlement w m).toList := by
    intro F hs hk hF
    rw [hs, published_of_keeps hk hF]
    exact (List.append_nil _).symm
  by_cases hph : (c.ms m).phase = .matchEndPause
  · by_cases hd : c.due m = true
    · have hadv : c.advancePhase w m = c.phaseEdge w m := by
        unfold advancePhase
        rw [if_neg (by rw [hph]; decide), if_neg (by rw [hph]; exact fun h => CsPhase.noConfusion h.1),
          if_pos hd]
      have hedge : c.phaseEdge w m = ((c.matchEnd w m).onMatch m fun g => { g with
          ended := true }).enter m .matchEnd matchStatsHold := by
        unfold phaseEdge
        simp only [hph]
      rw [hadv, hedge, published_of_keeps keeps_enter (by decide)]
      change (c.matchEnd w m).published = _
      rw [published_matchEnd]
      unfold settlement
      by_cases hb : w.cfg.bus = true
      · rw [if_pos hb, if_pos ⟨hp, hph, hd, hb⟩]
        rfl
      · rw [if_neg hb, if_neg fun h => hb h.2.2.2]
        rfl
    · have hadv : c.advancePhase w m = c := by
        unfold advancePhase
        rw [if_neg (by rw [hph]; decide), if_neg (by rw [hph]; exact fun h => CsPhase.noConfusion h.1),
          if_neg hd]
      rw [hadv, settlement_none (Or.inr (Bool.eq_false_iff.mpr hd))]
      exact (List.append_nil _).symm
  · refine hquiet (F := .ground :: .bot :: .lock :: .over :: bannerParts)
      (settlement_none (Or.inl hph)) ?_ (by decide)
    exact Frame.ite (fun _ => Frame.ite (fun _ => keeps_endFight.mono (by decide))
      fun _ => Frame.refl c) fun _ => Frame.ite (fun _ => keeps_startBuyPhase.mono (by decide))
      fun _ => Frame.ite (fun _ => keeps_quietEdge hph) fun _ => Frame.refl c

theorem published_tick : (c.tick w m).published = c.published ++ (c.settlement w m).toList := by
  by_cases hp : (c.ms m).players = []
  · unfold tick settlement
    rw [if_pos hp, if_neg fun h => h.1 hp, published_of_keeps keeps_stopLoop (by decide)]
    exact (List.append_nil _).symm
  · rw [published_of_keeps (keeps_after hp) (by decide), published_advancePhase hp]

end Core

namespace Server

open Clock

variable {w : World} {v v' : Server} {e : Event} {es : List Event} {m : MatchRef} {k k' : Clock}
  {x : Sides}

def settles (w : World) (v : Server) (e : Event) : List (MatchRef × MatchResult) :=
  match e.act with
  | .tick m =>
    if v.free m then ((v.core.atMoment e.moment (some m)).settlement w m).toList.map fun r => (m, r)
    else []
  | _ => []

theorem published_step (h : v.Step w e v') :
    v'.core.published = v.core.published ++ (v.settles w e).map Prod.snd := by
  have hfire := fires_of_step h
  obtain ⟨act, t⟩ := e
  dsimp only at hfire
  have hroute : ∀ {c : Core} {s : SessionId} {p : Packet},
      (c.route w s p).published = c.published := by
    intro c s p
    refine published_of_keeps Core.keeps_route ?_
    cases cmdOf p.cmd <;> decide
  have hquiet : ∀ {act : Action}, settles w v ⟨act, t⟩ = [] →
      v'.core.published = v.core.published →
      v'.core.published = v.core.published ++ (v.settles w ⟨act, t⟩).map Prod.snd := by
    intro act hs hp
    rw [hs, hp]
    exact (List.append_nil _).symm
  have hat : ∀ loop, (v.core.atMoment t loop).published = v.core.published := fun _ => rfl
  cases hfire with
  | @dispatch s p _ =>
    refine hquiet rfl (Eq.trans ?_ (hat none))
    change ((v.core.atMoment t none).dispatch w s p).published = _
    generalize v.core.atMoment t none = c
    by_cases hq : (c.ss s).syncStarted ∨ cmdOf p.cmd = .ack ∨ cmdOf p.cmd = .ping
    · exact published_of_keeps (Core.dispatch_quiet hq) (by decide)
    · rw [not_or, not_or] at hq
      have hack : Keeps [.net] c ((c.touch s).ackIfReliable s p) :=
        Core.keeps_touch.trans (Core.keeps_ackIfReliable.mono (by decide))
      rw [Core.dispatch_routes hq.1 hq.2.1 hq.2.2, hroute]
      exact published_of_keeps hack (by decide)
  | @letIn a _ =>
    refine hquiet rfl (Eq.trans ?_ (hat a.loop))
    change ((v.core.atMoment t a.loop).admission w a).published = _
    exact Core.published_admission
  | @start m _ =>
    refine hquiet rfl (Eq.trans ?_ (hat (some m)))
    exact published_of_keeps Core.keeps_runStart (by decide)
  | @exec m job rest _ _ =>
    refine hquiet rfl (Eq.trans ?_ (hat (some m)))
    cases job with
    | route s p => exact hroute
    | admitLater s => exact published_of_keeps Core.keeps_admitLater (by decide)
    | resyncWalls s => exact published_of_keeps Core.keeps_resyncWalls (by decide)
  | @tick m hfree =>
    have hs : (settles w v ⟨.tick m, t⟩).map Prod.snd =
        ((v.core.atMoment t (some m)).settlement w m).toList := by
      unfold settles
      simp only [hfree, if_true, List.map_map, Function.comp_def, List.map_id']
    rw [hs]
    exact Core.published_tick
  | @stop m _ _ =>
    refine hquiet rfl (Eq.trans ?_ (hat (some m)))
    exact published_of_keeps Core.keeps_stopLoop (by decide)

def Closing (v : Server) (m : MatchRef) : Prop :=
  ((v.core.ms m).loop = .running ∨ (v.core.ms m).loop = .stopped) ∧ (v.core.ms m).phase = .matchEnd

theorem closing_ticked (h : Ticked w e m x k k')
    (hk : (k.loop = .running ∨ k.loop = .stopped) ∧ k.phase = .matchEnd) :
    (k'.loop = .running ∨ k'.loop = .stopped) ∧ k'.phase = .matchEnd := by
  obtain ⟨hl, hp⟩ := hk
  cases h with
  | same _ _ => exact ⟨hl, hp⟩
  | turn _ _ _ hturn =>
    refine ⟨hturn.loop ▸ hl, ?_⟩
    cases hturn with
    | rest _ => exact hp
    | edge _ he =>
      cases he with
      | close _ =>
        unfold Clock.tearDown
        split
        · exact hp
        · exact hp
      | hold h _ => rcases h with h | h <;> exact CsPhase.noConfusion (h.symm.trans hp)
      | buy h => rcases h with h | h <;> exact CsPhase.noConfusion (h.symm.trans hp)
      | gather h _ => rcases h with h | h <;> exact CsPhase.noConfusion (h.symm.trans hp)
      | black h => rcases h with h | h <;> exact CsPhase.noConfusion (h.symm.trans hp)
      | ends _ => rfl
      | _ h => exact CsPhase.noConfusion (h.symm.trans hp)
    | ready h _ _ => exact CsPhase.noConfusion (h.symm.trans hp)
    | won _ h _ _ _ => exact CsPhase.noConfusion (h.symm.trans hp)
    | again _ h _ _ _ => exact CsPhase.noConfusion (h.symm.trans hp)
  | start _ h => rcases hl with hl | hl <;> exact LoopState.noConfusion (h.symm.trans hl)
  | stop _ _ => exact ⟨Or.inr rfl, hp⟩
  | setup h _ _ => rcases hl with hl | hl <;> exact LoopState.noConfusion (h.symm.trans hl)

theorem closing_step (h : v.Step w e v') (hf : Seating.Fitted v.seating) (hm : v.Closing m) :
    v'.Closing m := closing_ticked (clock_step h hf m) hm

theorem settles_iff {x : MatchRef × MatchResult} : x ∈ v.settles w e ↔
    e.act = .tick x.1 ∧ v.free x.1 = true ∧
      (v.core.atMoment e.moment (some x.1)).settlement w x.1 = some x.2 := by
  obtain ⟨m, r⟩ := x
  unfold settles
  split
  · rename_i m' hact
    rw [hact, Action.tick.injEq]
    split
    · rename_i hfree
      simp only [List.mem_map, Option.mem_toList, Prod.mk.injEq]
      constructor
      · rintro ⟨r', hr, rfl, rfl⟩
        exact ⟨rfl, hfree, hr⟩
      · rintro ⟨rfl, -, hr⟩
        exact ⟨r, hr, rfl, rfl⟩
    · rename_i hfree
      refine ⟨fun h => absurd h List.not_mem_nil, fun h => absurd ?_ hfree⟩
      obtain ⟨rfl, hm, -⟩ := h
      exact hm
  · rename_i hact
    exact ⟨fun h => absurd h List.not_mem_nil, fun h => absurd h.1 (hact m)⟩

theorem closing_settles {x : MatchRef × MatchResult} (h : v.Step w e v')
    (hf : Seating.Fitted v.seating) (hx : x ∈ v.settles w e) : ¬ v.Closing x.1 ∧ v'.Closing x.1 := by
  obtain ⟨hact, hfree, hset⟩ := settles_iff.mp hx
  have hrun := running_of_free hfree
  unfold Core.settlement at hset
  rw [Option.ite_none_right_eq_some] at hset
  obtain ⟨⟨hp, hph, hdue, -⟩, -⟩ := hset
  refine ⟨fun hc => CsPhase.noConfusion (hph.symm.trans hc.2), ?_⟩
  have hstep := clock_step h hf x.1
  revert hstep
  generalize hk : (v'.core.ms x.1).clock = k'
  intro hstep
  have hclose : k' = (v.core.ms x.1).clock.enter e.moment.now .matchEnd matchStatsHold := by
    cases hstep with
    | same htick _ => exact absurd hact htick
    | turn _ _ _ hturn => exact hturn.settled hph hdue
    | start hstart _ => exact Action.noConfusion (hact.symm.trans hstart)
    | stop _ hstop =>
      rcases hstop with ⟨hstop, -⟩ | ⟨-, hcrew⟩
      · exact Action.noConfusion (hact.symm.trans hstop)
      · exact absurd (List.map_eq_nil_iff.mp hcrew) hp
    | setup hidle _ _ => exact LoopState.noConfusion (hidle.symm.trans hrun)
  rw [hclose] at hk
  exact ⟨Or.inl ((congrArg Clock.loop hk).trans hrun), congrArg Clock.phase hk⟩

def settlements (w : World) (es : List Event) : List (MatchRef × MatchResult) :=
  logged (step w) (settles w) start es

structure Settled (w : World) (es : List Event) (v : Server) : Prop where
  run : Run (Step w) start es v
  published : v.core.published = (settlements w es).map Prod.snd
  once : ((settlements w es).map Prod.fst).Nodup
  closing : ∀ x ∈ settlements w es, v.Closing x.1

theorem nodup_settles : ((v.settles w e).map Prod.fst).Nodup := by
  unfold settles
  split
  · split
    · cases (v.core.atMoment e.moment _).settlement w _ with
      | none => exact List.nodup_nil
      | some r => exact List.nodup_singleton _
    · exact List.nodup_nil
  · exact List.nodup_nil

theorem Settled.step (h : Settled w es v) (hs : v.Step w e v') : Settled w (es ++ [e]) v' := by
  have hf := fitted_of_run h.run
  have hsnoc : settlements w (es ++ [e]) = settlements w es ++ v.settles w e := logged_snoc h.run
  have hold : ∀ x ∈ settlements w es, v'.Closing x.1 := fun x hx => closing_step hs hf (h.closing x hx)
  constructor
  · exact h.run.next hs
  · rw [published_step hs, h.published, hsnoc, List.map_append]
  · rw [hsnoc, List.map_append]
    refine List.Nodup.append h.once nodup_settles fun m hm hm' => ?_
    obtain ⟨x, hx, rfl⟩ := List.mem_map.mp hm
    obtain ⟨y, hy, heq⟩ := List.mem_map.mp hm'
    have hnot := (closing_settles hs hf hy).1
    rw [heq] at hnot
    exact hnot (h.closing x hx)
  · intro x hx
    rw [hsnoc] at hx
    rcases List.mem_append.mp hx with hx | hx
    · exact hold x hx
    · exact (closing_settles hs hf hx).2

theorem settled_of_run (h : Run (Step w) start es v) : Settled w es v := by
  refine run_history (I := Settled w) h ⟨.start, rfl, List.nodup_nil, fun x hx => ?_⟩ fun hi hs => hi.step hs
  exact absurd hx List.not_mem_nil

theorem settles_closing (h : v.Step w e v') (hf : Seating.Fitted v.seating) (hb : w.cfg.bus = true)
    (hm : v'.Closing m) : v.Closing m ∨ m ∈ (v.settles w e).map Prod.fst := by
  obtain ⟨hl, hp⟩ := hm
  have hstep := clock_step h hf m
  have hl' : (v'.core.ms m).clock.loop = .running ∨ (v'.core.ms m).clock.loop = .stopped := hl
  have hp' : (v'.core.ms m).clock.phase = .matchEnd := hp
  revert hstep hl' hp'
  generalize (v'.core.ms m).clock = k'
  intro hstep hl' hp'
  cases hstep with
  | same _ _ => exact Or.inl ⟨hl', hp'⟩
  | turn hact hrun hcrew hturn =>
    rcases hturn.ends hp' with hend | ⟨hpause, hdue⟩
    · exact Or.inl ⟨Or.inl hrun, hend⟩
    · have hset : (v.core.atMoment e.moment (some m)).settlement w m = some _ :=
        if_pos ⟨fun hp => hcrew (List.map_eq_nil_iff.mpr hp), hpause, hdue, hb⟩
      have hfire := fires_of_step h
      rw [hact] at hfire
      cases hfire with
      | tick hfree =>
        exact Or.inr (List.mem_map.mpr ⟨(m, _), settles_iff.mpr ⟨hact, hfree, hset⟩, rfl⟩)
  | start _ _ => exact CsPhase.noConfusion hp'
  | stop hrun _ => exact Or.inl ⟨Or.inl hrun, hp'⟩
  | setup _ hidle _ =>
    rcases hidle with rfl | rfl <;> rcases hl' with hl' | hl' <;> exact LoopState.noConfusion hl'

theorem closing_settled (h : Settled w es v) (hb : w.cfg.bus = true) (hm : v.Closing m) :
    m ∈ (settlements w es).map Prod.fst := by
  have hinv := run_history (I := fun es v => Run (Step w) start es v ∧
    ∀ m, v.Closing m → m ∈ (settlements w es).map Prod.fst) h.run ⟨.start, fun m hm => ?_⟩
    fun {es v e v'} ⟨hr, hi⟩ hs => ⟨hr.next hs, fun m hm => ?_⟩
  · exact hinv.2 m hm
  · rcases hm.1 with hm | hm <;> exact LoopState.noConfusion hm
  · have hsnoc : settlements w (es ++ [e]) = settlements w es ++ v.settles w e := logged_snoc hr
    rw [hsnoc, List.map_append, List.mem_append]
    exact (settles_closing hs (fitted_of_run hr) hb hm).imp_left (hi m)

theorem scored_of_run (h : Run (Step w) start es v) (m : MatchRef)
    (hb : (v.core.ms m).loop = .running ∨ (v.core.ms m).loop = .stopped) :
    (v.core.ms m).clock.Scored := by
  have hinv := run_invariant (I := fun v => Seating.Fitted v.seating ∧
    ∀ m, (v.core.ms m).clock.Counts) h ⟨fitted_start, fun m => ⟨fun _ => ⟨majority_zero, rfl,
      rfl, fun hs => LoopState.noConfusion hs⟩, fun hs => ?_⟩⟩
    fun ⟨hf, hk⟩ hs => ⟨fitted_step hs hf, fun m => counts_ticked (clock_step hs hf m) (hk m)⟩
  · exact (hinv.2 m).begun hb
  · rcases hs with hs | hs <;> exact LoopState.noConfusion hs

-- A room of one round.
def oneRound : WireSettings := ⟨1, 0, [], [], 0, 0, 1, 1, [], none⟩

def briefWorld : World :=
  { signedWorld with settings := fun mid => if mid = 7 then some (some oneRound) else none }

-- The host plays the round alone against a bot.
def wholeMatch : List Event :=
  opens 1 0 0 (joinWith hostToken) ++ toFight 0 ++
    [event 19000000000 (.tick 0), event 40000000000 (.tick 0)]

-- The rounds and the score of every match, in every run.
theorem rounds_add_up (h : Run (Step w) start es v) (m : MatchRef)
    (hb : (v.core.ms m).loop = .running ∨ (v.core.ms m).loop = .stopped) :
    (v.core.ms m).teamScore.1 + (v.core.ms m).teamScore.2 +
        (if (v.core.ms m).phase.behind || (v.core.ms m).phase.final then 0 else 1) =
      (v.core.ms m).round ∧
    1 ≤ (v.core.ms m).round ∧ (v.core.ms m).round ≤ max 1 (v.core.ms m).settings.maxRound ∧
    ((v.core.ms m).phase.final = false → (v.core.ms m).teamScore = (0, 0) ∨
      (v.core.ms m).teamScore.1 < (v.core.ms m).settings.roundsToWin ∧
        (v.core.ms m).teamScore.2 < (v.core.ms m).settings.roundsToWin) ∧
    ((v.core.ms m).done = true → (v.core.ms m).phase = .matchEnd ∨
      (v.core.ms m).phase = .cancelled) := by
  have hs := scored_of_run h m hb
  exact ⟨hs.total, hs.first, hs.last, hs.undecided, hs.ended⟩

theorem rounds_of_wholeMatch : ∃ v, Run (Step briefWorld) start wholeMatch v ∧
    (v.core.ms 0).loop = .running ∧
    (v.core.ms 0).teamScore.1 + (v.core.ms 0).teamScore.2 +
        (if (v.core.ms 0).phase.behind || (v.core.ms 0).phase.final then 0 else 1) =
      (v.core.ms 0).round := by
  have hrun : ((wholeMatch.foldlM (step briefWorld) start).map fun v => (v.core.ms 0).loop) =
      some .running := by
    decide +kernel
  obtain ⟨v, hv, hl⟩ := Option.map_eq_some_iff.mp hrun
  exact ⟨v, run_of_foldlM hv, hl, (rounds_add_up (run_of_foldlM hv) 0 (Or.inl hl)).1⟩

-- With a bus, a match settles at its end and only once, and the result stands.
theorem settled_once (hb : w.cfg.bus = true) (h : Run (Step w) start es v) :
    v.core.published = (settlements w es).map Prod.snd ∧
    ((settlements w es).map Prod.fst).Nodup ∧
    (∀ m, m ∈ (settlements w es).map Prod.fst ↔ v.Closing m) ∧
    ∀ m, v.Closing m → (v.core.ms m).clock.decided ∧
      ((v.core.ms m).winnerTeam = localTeamID ∧
          (v.core.ms m).teamScore.2 < (v.core.ms m).teamScore.1 ∨
        (v.core.ms m).winnerTeam = enemyTeamID ∧
          (v.core.ms m).teamScore.1 < (v.core.ms m).teamScore.2) := by
  have hset := settled_of_run h
  refine ⟨hset.published, hset.once, fun m => ⟨fun hm => ?_, closing_settled hset hb⟩, fun m hm => ?_⟩
  · obtain ⟨x, hx, rfl⟩ := List.mem_map.mp hm
    exact hset.closing x hx
  · refine (scored_of_run h m hm.1).decided ?_
    change (v.core.ms m).phase.final = true
    rw [hm.2]
    rfl

theorem wholeMatch_settled_once : briefWorld.cfg.bus = true ∧ ∃ v,
    Run (Step briefWorld) start wholeMatch v ∧ v.core.published.length = 1 ∧
    v.core.published = (settlements briefWorld wholeMatch).map Prod.snd := by
  have hrun : ((wholeMatch.foldlM (step briefWorld) start).map fun v =>
      v.core.published.length) = some 1 := by
    decide +kernel
  obtain ⟨v, hv, hl⟩ := Option.map_eq_some_iff.mp hrun
  exact ⟨rfl, v, run_of_foldlM hv, hl, (settled_once rfl (run_of_foldlM hv)).1⟩

end Server

end MatchServer

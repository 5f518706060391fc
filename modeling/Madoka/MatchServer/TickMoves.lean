import Madoka.MatchServer.Moves
import Madoka.MatchServer.Turns
import Mathlib.Data.List.Find

namespace MatchServer

open Lib

def Label.clock : Label → Bool
  | .revive | .bot | .fight | .score | .turn => true
  | _ => false

namespace Core

def Plays (now : Int) (P : Field → Label → Prop) (m : MatchRef) (c d : Core) : Prop :=
  ∃ g, Field.Path now P (c.field m) g ∧ Turns m c d g

variable {w : World} {c d e : Core} {s : SessionId} {m : MatchRef} {f g k : Field}
  {now : Int} {P P' : Field → Label → Prop}

theorem Turns.quiet (h : Turns m c d (c.field m)) : Plays now P m c d := ⟨_, .refl, h⟩

theorem plays_refl : Plays now P m c c := turns_refl.quiet

theorem plays_keeps {F : List Part} (h : Keeps F c d) (hF : F ⊆ offField) : Plays now P m c d :=
  (turns_keeps h hF).quiet

theorem Plays.trans (h : Plays now P m c d) (h' : Plays now P m d e) : Plays now P m c e := by
  obtain ⟨g, hp, ht⟩ := h
  obtain ⟨k, hq, hu⟩ := h'
  rw [ht.eq] at hq
  exact ⟨k, hp.trans hq, ht.trans hu⟩

theorem Plays.keeps {F : List Part} (h : Plays now P m c d) (hk : Keeps F d e) (hF : F ⊆ offField) :
    Plays now P m c e :=
  h.trans (plays_keeps hk hF)

theorem Plays.mono (h : Plays now P m c d) (hok : ∀ f l, P f l → P' f l) :
    Plays now P' m c d := by
  obtain ⟨g, hp, ht⟩ := h
  exact ⟨g, hp.mono hok, ht⟩

theorem Plays.ite {p : Prop} [Decidable p] (ht : p → Plays now P m c d)
    (hf : ¬ p → Plays now P m c e) : Plays now P m c (if p then d else e) := by
  split
  · exact ht ‹_›
  · exact hf ‹_›

theorem plays_move {l : Label} (hok : P (c.field m) l) (hm : Field.Move now l (c.field m) g)
    (ht : Turns m c d g) : Plays now P m c d :=
  ⟨g, Field.Path.refl.next hok hm, ht⟩

theorem plays_foldl {β : Type} {op : Core → β → Core} {I : Core → Prop} {l : List β}
    (h : ∀ b ∈ l, ∀ c, I c → Plays now P m c (op c b) ∧ I (op c b)) {c : Core} (hc : I c) :
    Plays now P m c (l.foldl op c) := by
  induction l generalizing c with
  | nil => exact plays_refl
  | cons b l ih =>
    obtain ⟨hb, hi⟩ := h b List.mem_cons_self c hc
    exact hb.trans (ih (fun x hx => h x (List.mem_cons_of_mem _ hx)) hi)

theorem plays_foldl_take {β : Type} {op : Core → β → Core} {l : List β}
    (h : ∀ k b, l[k]? = some b →
      Plays now P m ((l.take k).foldl op c) (op ((l.take k).foldl op c) b)) :
    Plays now P m c (l.foldl op c) := by
  have hprefix : ∀ k, Plays now P m c ((l.take k).foldl op c) := by
    intro k
    induction k with
    | zero => exact plays_refl
    | succ k ih =>
      rw [List.take_add_one]
      cases hb : l[k]? with
      | none => simpa using ih
      | some b =>
        rw [Option.toList_some, List.foldl_append]
        exact ih.trans (h k b hb)
  simpa using hprefix l.length

theorem Turns.startBuyPhase (h : Turns m c d g) : Turns m c (d.startBuyPhase w m)
    { g with phase := .prepare, started := true } := by
  refine Turns.enter (g := { g with started := true }) (h.onMatch
    (fun f => { f with started := true }) fun _ => ?_) _ _
  rfl

theorem turns_spawnFallbackBot :
    Turns m c (c.spawnFallbackBot w m) (c.field m).spawnBot := by
  have hbot : Turns m c (c.onMatch m fun g => { g with
      botEntity := botEntityID
      bot := botPlayer w (c.ss (c.ms m).s).player botEntityID
      hp := g.hp.insert botEntityID g.settings.maxHP
      life := g.life.insert botEntityID .alive })
      { c.field m with
        bot := botEntityID
        life := Function.update (c.field m).life botEntityID (some .alive)
        hp := Function.update (c.field m).hp botEntityID (some (c.field m).maxHP) } := by
    refine turns_refl.onMatch (fun f => { f with
      bot := botEntityID
      life := Function.update f.life botEntityID (some .alive)
      hp := Function.update f.hp botEntityID (some f.maxHP) }) fun _ => ?_
    simp only [Match.view, lookup_insert_fun]
  exact (hbot.note _).keeps (F := []) ((Frame.refl _).broadcastData.trans keeps_bindAll) (by decide)

theorem Turns.enterCancel (h : Turns m c d g) :
    Turns m c (d.enterCancel m) { g with phase := .cancelled } := by
  refine Turns.enter (g := g) (h.onMatch id fun _ => ?_) _ _
  rfl

theorem Turns.field_eq (h : Turns m c d g) (hg : g = c.field m) : d.field = c.field := by
  rw [h, hg, Function.update_eq_self]

theorem turns_startZone : Turns m c (c.startZone w m)
    { c.field m with zoneOn := (c.field m).zoneOn || !w.cfg.noZone } := by
  unfold startZone
  by_cases hz : w.cfg.noZone
  · simp only [hz, if_true, Bool.not_true, Bool.or_false]
    exact turns_refl
  · simp only [hz, Bool.false_eq_true, if_false, Bool.not_false, Bool.or_true]
    refine turns_refl.onMatch (fun f => { f with zoneOn := true }) fun _ => ?_
    rfl

theorem turns_startFight :
    Turns m c (c.startFight w m) ((c.field m).startFight !w.cfg.noZone) := by
  have he := (@turns_refl c m).enter .fight holdDur
  have hz := @turns_startZone w (c.enter m .fight holdDur) m
  rw [he.eq] at hz
  have hall := (he.trans hz).note (.fight (c.teamAlive m localTeamID) (c.teamAlive m enemyTeamID))
  rw [teamAlive_eq, teamAlive_eq] at hall
  unfold Core.startFight
  rw [teamAlive_eq, teamAlive_eq]
  exact hall

theorem turns_openRound : Turns m c (c.openRound m)
    ((c.field m).note (.opened ((c.ms m).round + 1))) := by
  have h := turns_onMatch (c := c) (m := m) fun g => { g with
    round := g.round + 1
    deeds := g.deeds ++ [.opened (g.round + 1)] }
  exact h

theorem turns_tearDown : Turns m c (c.tearDown m)
    (if (c.ms m).tearingDown then c.field m else (c.field m).note .closed) := by
  refine Turns.ite (fun _ => turns_refl) fun _ => Turns.note (turns_refl.onMatch id fun _ => ?_) _
  rfl

theorem turns_score {localWon : Bool} : Turns m c (c.scoreRound m localWon)
    { (c.field m).note (.scored (c.ms m).round (if localWon then localTeamID else enemyTeamID)) with
      roundOver := true
      zoneOn := false } := by
  have h := turns_onMatch (c := c) (m := m) fun g => { g with
    zoneOn := false
    roundOver := true
    teamScore := if localWon then ((g.teamScore.1 + 1) % 256, g.teamScore.2)
      else (g.teamScore.1, (g.teamScore.2 + 1) % 256)
    lossStreak := if localWon then (0, (g.lossStreak.2 + 1) % 256)
      else ((g.lossStreak.1 + 1) % 256, 0)
    deeds := g.deeds ++ [.scored g.round (if localWon then localTeamID else enemyTeamID)] }
  exact h

theorem Turns.nextRound (h : Turns m c d g) {localWon : Bool} {winner : Nat} :
    Turns m c (d.nextRound w m localWon winner) { g with phase := .postBanner } := by
  unfold Core.nextRound
  dsimp only
  refine Turns.enter (Turns.onMatch id ?_ fun _ => ?_) _ _
  · refine Turns.keeps (F := [.body]) (d := (w.roundFlow.roundResult d m winner).onMatch m
      fun g => { g with
        revive := !localWon
        arena := (w.nextArena (d.ms m).arenasUsed d.pick).1
        arenasUsed := (w.nextArena (d.ms m).arenasUsed d.pick).2 }) ?_
      (Frame.foldl (fun _ _ => keeps_placed) _ _) (by decide)
    refine Turns.onMatch id (h.keeps (F := []) keeps_roundResult (by decide)) fun _ => ?_
    rfl
  · rfl

theorem turns_endFight : ∃ ph, (ph = .matchEndPause ∨ ph = .postBanner) ∧
    Turns m c (c.endFight w m) ((c.field m).score (c.ms m).round
      (if 0 < (c.field m).standing localTeamID then localTeamID else enemyTeamID) ph) := by
  have hwon : (if decide (0 < c.teamAlive m localTeamID) = true then localTeamID else enemyTeamID)
      = if 0 < (c.field m).standing localTeamID then localTeamID else enemyTeamID := by
    simp only [decide_eq_true_eq, teamAlive_eq]
  have hs := @turns_score c m (decide (0 < c.teamAlive m localTeamID))
  rw [hwon] at hs
  have hpaid : ∀ winner base first, Turns m c
      ((((c.scoreRound m (decide (0 < c.teamAlive m localTeamID))).ms m).players.foldl
        (payRound m winner base first)
        (c.scoreRound m (decide (0 < c.teamAlive m localTeamID)))).onMatch m
          fun g => { g with firstBlood := 0 })
      { (c.field m).note (.scored (c.ms m).round
          (if 0 < (c.field m).standing localTeamID then localTeamID else enemyTeamID)) with
        roundOver := true
        zoneOn := false
        firstBlood := 0 } := by
    intro winner base first
    refine Turns.onMatch (fun f => { f with firstBlood := 0 })
      (hs.keeps (F := [.roundKills, .kit]) (Frame.foldl (fun _ _ => keeps_payRound) _ _)
        (by decide)) fun _ => ?_
    rfl
  unfold Core.endFight
  dsimp only
  split
  · refine ⟨.matchEndPause, Or.inl rfl, Turns.enter (g := { (c.field m).note (.scored (c.ms m).round
      (if 0 < (c.field m).standing localTeamID then localTeamID else enemyTeamID)) with
        roundOver := true
        zoneOn := false
        firstBlood := 0 }) (Turns.onMatch id (hpaid _ _ _) fun _ => ?_) _ _⟩
    rfl
  · exact ⟨.postBanner, Or.inr rfl, (hpaid _ _ _).nextRound⟩

theorem field_foldl {β : Type} {op : Core → β → Core} (h : ∀ c b, (op c b).field = c.field)
    (l : List β) (c : Core) : (l.foldl op c).field = c.field := by
  induction l generalizing c with
  | nil => rfl
  | cons b l ih => exact (ih _).trans (h c b)

theorem Turns.sendPull (h : Turns m c d g) : Turns m c (d.sendPull m) g := by
  refine h.of_field ?_
  unfold Core.sendPull
  split
  · rfl
  · refine field_foldl (fun c p => Turns.field_eq (m := m) (g := c.field m) ?_ rfl) _ _
    refine Turns.keeps (F := []) (turns_refl.onMatch id fun _ => ?_) (Frame.refl _).broadcastData
      (by decide)
    rfl

theorem Turns.respawnBot (h : Turns m c d g) : Turns m c (d.respawnBot w m) g := by
  unfold Core.respawnBot
  split
  · obtain ⟨seq, hs⟩ := w.roundFlow.respawnBot_sends d m
    refine Turns.keeps (F := []) (h.onMatch id fun _ => ?_) ((Frame.refl _).sends hs) (by decide)
    rfl
  · exact h

theorem turns_roundReset {dead : List SessionId} :
    Turns m c (c.roundReset w m dead) (c.field m).reviveAll := by
  unfold roundReset
  dsimp only
  refine Turns.onMatch id (Turns.keeps (F := [.body]) (Turns.respawnBot
    (turns_reviveAll.keeps (F := [.body, .kit, .walls, .flags]) ?_ (by decide)))
    (Frame.foldl (fun _ _ => keeps_respawnPlayer.mono (by decide)) _ _) (by decide)) fun _ => ?_
  · exact Frame.trans (Frame.trans
      (Frame.foldl (fun _ _ => keeps_resetPlayer.mono (by decide)) _ _)
      (keeps_clearWalls.mono (by decide))) (keeps_clearAllFlags.mono (by decide))
  · rfl

theorem turns_postBannerEdge : ∃ ph : CsPhase, ph.calm ∧
    Turns m c (c.postBannerEdge w m) { (c.field m).reviveAll with phase := ph } := by
  unfold postBannerEdge
  dsimp only
  split
  · refine ⟨.postReviveBind, rfl, Turns.enter (Turns.onMatch id turns_roundReset fun _ => ?_) _ _⟩
    rfl
  · exact ⟨.postBlack, rfl, ((turns_roundReset.keeps (F := [.kit])
      (Frame.foldl (fun _ _ => keeps_reissueLoadout) _ _) (by decide)).enter _ _).sendPull⟩

theorem turns_postReviveEdge :
    Turns m c (c.postReviveEdge w m) { c.field m with phase := .postBlack } := by
  unfold postReviveEdge
  refine (Turns.enter (Turns.onMatch id (turns_refl.keeps (F := [.kit, .ground])
    (keeps_bindAll.mono (by decide) |>.trans (Frame.foldl (fun _ _ => ?_) _ _)) (by decide))
    fun _ => ?_) _ _).sendPull
  · exact Frame.ite (fun _ => keeps_giveLoadout) fun _ => keeps_reissueLoadout.mono (by decide)
  · rfl

theorem turns_enterPrepare : (∃ st, ((c.field m).started → st = true) ∧
      Turns m c (c.enterPrepare w m) { c.field m with phase := .prepare, started := st }) ∨
    (c.field m).started = false ∧ Turns m c (c.enterPrepare w m)
      { (c.field m).spawnBot with phase := .prepare, started := true } := by
  have hpull : Turns m c (c.onMatch m fun g => { g with pull := none }) (c.field m) := by
    refine turns_refl.onMatch id fun _ => ?_
    rfl
  have hstarted : ((c.onMatch m fun g => { g with pull := none }).ms m).started =
      (c.field m).started := congrArg Field.started hpull.eq
  unfold enterPrepare
  dsimp only
  split
  · refine Or.inl ⟨true, fun _ => rfl, Turns.enter (g := { c.field m with started := true })
      (hpull.onMatch (fun f => { f with started := true }) fun _ => ?_) _ _⟩
    rfl
  · split
    · rename_i hnot
      rw [hstarted] at hnot
      simp only [Bool.and_eq_true, Bool.not_eq_true'] at hnot
      split
      · split
        · refine Or.inr ⟨hnot.1, Turns.startBuyPhase ?_⟩
          have hbot := @turns_spawnFallbackBot w (c.onMatch m fun g => { g with pull := none }) m
          rw [hpull.eq] at hbot
          exact hpull.trans hbot
        · exact Or.inl ⟨true, fun _ => rfl, hpull.startBuyPhase⟩
      · refine Or.inl ⟨(c.field m).started, id, ?_⟩
        exact hpull.enter _ _
    · exact Or.inl ⟨true, fun _ => rfl, hpull.startBuyPhase⟩

theorem plays_turn {ph : CsPhase} {st : Bool} {ds : List Deed} (hok : P (c.field m) .turn)
    (hf : (c.field m).Turns ph st ds)
    (ht : Turns m c d { c.field m with phase := ph, started := st, deeds := (c.field m).deeds ++ ds }) :
    Plays now P m c d :=
  plays_move hok (.turn hf) ht

theorem plays_pass {ph : CsPhase} {st : Bool} (hok : P (c.field m) .turn)
    (hph : ((c.field m).phase.calm ∧ ph.calm) ∨ ph = (c.field m).phase ∨
      ((c.field m).phase = .matchEndPause ∧ ph = .matchEnd))
    (hst : (c.field m).started → st = true)
    (ht : Turns m c d { c.field m with phase := ph, started := st }) : Plays now P m c d := by
  refine @plays_turn _ _ _ _ _ _ _ [] hok ⟨hph, hst, Or.inl rfl⟩ ?_
  rw [List.append_nil]
  exact ht

theorem plays_enterPrepare (hcalm : (c.field m).phase.calm) (hturn : P (c.field m) .turn)
    (hbot : P (c.field m) .bot) : Plays now P m c (c.enterPrepare w m) := by
  rcases @turns_enterPrepare w c m with ⟨st, hst, ht⟩ | ⟨hst, ht⟩
  · exact plays_pass hturn (Or.inl ⟨hcalm, rfl⟩) hst ht
  · exact plays_move hbot (.bot hst hcalm) ht

theorem plays_tearDown (hturn : P (c.field m) .turn) : Plays now P m c (c.tearDown m) := by
  have ht := @turns_tearDown c m
  split at ht
  · exact ht.quiet
  · exact @plays_turn _ _ _ _ _ _ _ [.closed] hturn ⟨Or.inr (Or.inl rfl), id, Or.inr (Or.inl rfl)⟩ ht

theorem Plays.after (h : Plays now P m d e) (hk : d.field = c.field) : Plays now P m c e := by
  obtain ⟨g, hp, ht⟩ := h
  rw [hk] at hp
  refine ⟨g, hp, ?_⟩
  unfold Turns at *
  rw [ht, hk]

theorem plays_phaseEdge (hok : ∀ l : Label, l.clock → P (c.field m) l) :
    Plays now P m c (c.phaseEdge w m) := by
  have hturn := hok .turn rfl
  have hphase : (c.field m).phase = (c.ms m).phase := rfl
  unfold phaseEdge
  dsimp only
  split <;> rename_i hp <;> rw [← hphase] at hp
  · exact plays_pass hturn (Or.inl ⟨by rw [hp]; rfl, rfl⟩) id
      ((turns_keeps (F := []) keeps_bindAll (by decide)).enter _ _)
  · exact plays_pass hturn (Or.inl ⟨by rw [hp]; rfl, rfl⟩) id (turns_refl.enter _ _)
  · have hf : ((c.sendCSShop (c.ms m).s).giveLoadout w (c.ms m).s true).field = c.field :=
      field_of_keeps (F := [.kit, .ground]) ((keeps_sendCSShop.mono (by decide)).trans
        keeps_giveLoadout) (by decide)
    refine Plays.after (plays_enterPrepare ?_ ?_ ?_) hf
    · rw [hf, hp]
      rfl
    · rw [hf]
      exact hturn
    · rw [hf]
      exact hok .bot rfl
  · have hf : (c.broadcastData m .returnToLobby).field = c.field :=
      field_of_keeps (F := []) (Frame.refl _).broadcastData (by decide)
    refine Plays.after (plays_tearDown ?_) hf
    rw [hf]
    exact hturn
  · split
    · rename_i hst
      exact plays_move (hok .fight rfl) (.fight hp hst) turns_startFight
    · rename_i hst
      split
      · exact plays_move (hok .bot rfl) (.bot (Bool.eq_false_iff.mpr hst) (by rw [hp]; rfl))
          turns_spawnFallbackBot.startBuyPhase
      · exact plays_pass hturn (Or.inl ⟨by rw [hp]; rfl, rfl⟩) id turns_refl.enterCancel
  · exact plays_refl
  · refine plays_pass hturn (Or.inr (Or.inr ⟨hp, rfl⟩)) id (Turns.enter (Turns.onMatch id
      (turns_keeps (F := [.published]) keeps_matchEnd (by decide)) fun _ => ?_) _ _)
    rfl
  · obtain ⟨ph, hcalm, ht⟩ := @turns_postBannerEdge w c m
    exact plays_move (hok .revive rfl) (.revive hp hcalm) ht
  · exact plays_pass hturn (Or.inl ⟨by rw [hp]; rfl, rfl⟩) id turns_postReviveEdge
  · exact @plays_turn _ _ _ _ _ _ _ [.opened ((c.ms m).round + 1)] hturn
      ⟨Or.inl ⟨by rw [hp]; rfl, rfl⟩, id, Or.inr (Or.inr ⟨_, rfl⟩)⟩
      ((turns_openRound.keeps (F := []) (Frame.refl _).broadcastData (by decide)).enter _ _)
  · exact plays_pass hturn (Or.inl ⟨by rw [hp]; rfl, rfl⟩) id (turns_refl.enter _ _).sendPull
  · exact plays_enterPrepare (by rw [hp]; rfl) hturn (hok .bot rfl)
  · exact plays_tearDown hturn

theorem plays_advancePhase
    (hok : ∀ l : Label, l.clock → (l = .fight → c.due m) → P (c.field m) l) :
    Plays now P m c (c.advancePhase w m) := by
  unfold advancePhase
  split
  · rename_i hp
    split
    · rename_i hfell
      rw [teamAlive_eq, teamAlive_eq] at hfell
      obtain ⟨ph, hph, ht⟩ := @turns_endFight w c m
      exact plays_move (hok .score rfl nofun) (.score hp hfell rfl hph) ht
    · exact plays_refl
  · split
    · rename_i hready
      have hcalm : (c.field m).phase.calm := by
        rw [show (c.field m).phase = .prepare from hready.1]
        rfl
      exact plays_pass (hok .turn rfl nofun) (Or.inl ⟨hcalm, rfl⟩) (fun _ => rfl)
        turns_refl.startBuyPhase
    · split
      · rename_i hdue
        exact plays_phaseEdge fun l hl => hok l hl fun _ => hdue
      · exact plays_refl

def beforeZone (w : World) (c : Core) (m : MatchRef) : Core :=
  (c.advancePhase w m).streamSweep m (c.ms m).phase

def beforeSweep (w : World) (c : Core) (m : MatchRef) : Core := (c.beforeZone w m).stepZone w m

def zoneShrinks (c : Core) (m : MatchRef) : Core :=
  c.onMatch m fun g =>
    if !g.zoneShrink && decide (g.zoneWaitEnd ≤ c.now) then
      { g with zoneShrink := true, zoneShrinkStart := c.now }
    else g

def zoneTicks (c : Core) (m : MatchRef) : Core :=
  (c.zoneShrinks m).onMatch m fun g => { g with zoneLastDmg := c.now }

def zoneBlow (w : World) (m : MatchRef) (zone : Match) (c : Core) (p : SessionId) : Core :=
  if (c.ms m).lifeOf (c.ss p).entityID = .alive ∧ w.outOfZone zone c.now (c.ss p).playerPos then
    c.applyDamage w m (c.ss p).entityID 0 w.zoneDamage 0
  else c

-- What the zone finds when it comes to the `k`-th of the roster.
def zoneAt (w : World) (c : Core) (m : MatchRef) (k : Nat) : Core :=
  ((c.ms m).players.take k).foldl (zoneBlow w m ((c.zoneTicks m).ms m)) (c.zoneTicks m)

def ZoneStrikes (w : World) (c : Core) (m : MatchRef) (k : Nat) (p : SessionId) : Prop :=
  (c.ms m).players[k]? = some p ∧ (c.ms m).zoneOn = true ∧
    w.zoneDamageEvery ≤ c.now - (c.ms m).zoneLastDmg ∧
    ((c.zoneAt w m k).ms m).lifeOf ((c.zoneAt w m k).ss p).entityID = .alive ∧
    w.outOfZone ((c.zoneTicks m).ms m) (c.zoneAt w m k).now ((c.zoneAt w m k).ss p).playerPos = true

instance (w : World) (c : Core) (m : MatchRef) (k : Nat) (p : SessionId) :
    Decidable (c.ZoneStrikes w m k p) :=
  inferInstanceAs (Decidable (_ ∧ _ ∧ _ ∧ _ ∧ _))

theorem zoneShrinks_ms : ((c.zoneShrinks m).ms m).zoneLastDmg = (c.ms m).zoneLastDmg ∧
    ((c.zoneShrinks m).ms m).players = (c.ms m).players := by
  simp only [zoneShrinks, onMatch_ms, if_true]
  split <;> exact ⟨rfl, rfl⟩

theorem stepZone_eq : c.stepZone w m =
    if (c.ms m).zoneOn then
      if c.now - (c.ms m).zoneLastDmg < w.zoneDamageEvery then c.zoneShrinks m
      else (c.ms m).players.foldl (zoneBlow w m ((c.zoneTicks m).ms m)) (c.zoneTicks m)
    else c := by
  have hplayers : ((c.zoneTicks m).ms m).players = (c.ms m).players := by
    simp only [zoneTicks, onMatch_ms, if_true]
    exact zoneShrinks_ms.2
  rw [← zoneShrinks_ms.1, ← hplayers]
  rfl

theorem Turns.either {p : Prop} [Decidable p] (ht : p → Turns m c d g) (hf : ¬ p → Turns m c e g) :
    Turns m c (if p then d else e) g := by
  split
  · exact ht ‹_›
  · exact hf ‹_›

theorem turns_streamSweep {before : CsPhase} : Turns m c (c.streamSweep m before) (c.field m) := by
  refine Turns.either (fun _ => Turns.onMatch id (turns_keeps keeps_sweepWalls (by decide))
    fun _ => ?_) fun _ => turns_refl
  rfl

theorem plays_applyDamage {victim attacker dmg bodyPart : Nat}
    (hok : P (c.field m) (.hit victim attacker dmg)) :
    Plays now P m c (c.applyDamage w m victim attacker dmg bodyPart) := by
  obtain ⟨ks, order, hfalls, ht⟩ := @turns_applyDamage w c m victim attacker dmg bodyPart
  exact plays_move hok (.hit hfalls) ht

theorem stage_of_applyDamage {victim attacker dmg bodyPart : Nat} :
    ((c.applyDamage w m victim attacker dmg bodyPart).field m).stage = (c.field m).stage := by
  obtain ⟨ks, order, -, ht⟩ := @turns_applyDamage w c m victim attacker dmg bodyPart
  rw [ht.eq]
  exact Field.stage_applyDamage

theorem turns_zoneShrinks : Turns m c (c.zoneShrinks m) (c.field m) := by
  refine turns_refl.onMatch id fun _ => ?_
  split <;> rfl

theorem field_zoneTicks : (c.zoneTicks m).field = c.field :=
  Turns.field_eq (m := m) (turns_zoneShrinks.onMatch id fun _ => rfl) rfl

theorem staged_zoneAt (k : Nat) : ((c.zoneAt w m k).field m).stage = (c.field m).stage ∧
    (c.zoneAt w m k).member = c.member := by
  refine List.foldlRecOn (motive := fun d : Core => (d.field m).stage = (c.field m).stage ∧
    d.member = c.member) _ _ ⟨congrArg Field.stage (congrFun field_zoneTicks m), rfl⟩ fun d hd p _ => ?_
  unfold zoneBlow
  split
  · exact ⟨stage_of_applyDamage.trans hd.1,
      (member_of_keeps keeps_applyDamage (by decide)).trans hd.2⟩
  · exact hd

theorem ZoneStrikes.standing {k : Nat} {p : SessionId} (h : c.ZoneStrikes w m k p) :
    ((c.zoneAt w m k).field m).zoneOn = true ∧ ∃ x ∈ ((c.zoneAt w m k).field m).crew,
      (c.ss p).entityID = x.entity ∧ ((c.zoneAt w m k).field m).lifeOf x.entity = .alive := by
  obtain ⟨hp, hon, -, halive, -⟩ := h
  obtain ⟨hstage, hmem⟩ := @staged_zoneAt w c m k
  refine ⟨(congrArg Field.Stage.zoneOn hstage).trans hon, c.member p, ?_, rfl, ?_⟩
  · rw [show ((c.zoneAt w m k).field m).crew = (c.field m).crew from
      congrArg Field.Stage.crew hstage]
    exact List.mem_map_of_mem (List.mem_of_getElem? hp)
  · rw [← hmem]
    exact halive

theorem plays_stepZone (hok : ∀ k p, c.ZoneStrikes w m k p →
    P ((c.zoneAt w m k).field m) (.hit (c.ss p).entityID 0 w.zoneDamage)) :
    Plays now P m c (c.stepZone w m) := by
  rw [stepZone_eq]
  refine Plays.ite (fun hon => Plays.ite (fun _ => ?_) fun hdue => ?_) fun _ => plays_refl
  · exact turns_zoneShrinks.quiet
  · refine Plays.after (plays_foldl_take fun k p hp => ?_) field_zoneTicks
    change Plays now P m (c.zoneAt w m k) (zoneBlow w m _ (c.zoneAt w m k) p)
    unfold zoneBlow
    refine Plays.ite (fun hout => plays_applyDamage ?_) fun _ => plays_refl
    rw [show ((c.zoneAt w m k).ss p).entityID = (c.ss p).entityID from
      congrArg Member.entity (congrFun (staged_zoneAt k).2 p)]
    exact hok k p ⟨hp, hon, not_lt.mp hdue, hout⟩

theorem sessionBy_isSome {f : Field} {x : Member} (hx : x ∈ f.crew) : f.sessionBy x.entity ≠ none := by
  unfold Field.sessionBy
  rw [ne_eq, Option.map_eq_none_iff, List.find?_eq_none]
  exact fun h => h x hx (by simp)

theorem plays_removePlayer (hs : s ∈ (c.ms m).players) (hok : P (c.field m) (.leave s)) :
    Plays now P m c (c.removePlayer s m) := by
  have hx : c.member s ∈ (c.field m).crew := List.mem_map_of_mem hs
  have ht := @turns_removePlayer c s m
  rw [if_neg (show (c.field m).sessionBy (c.ss s).entityID ≠ none from sessionBy_isSome hx)] at ht
  exact plays_move (l := .leave s) hok (.leave hx) ht

-- A player that the sweep drops when it comes to it.
def lapsed (c : Core) (p : SessionId) : Prop :=
  (c.ss p).lastSeen ≠ 0 ∧ disconnectTimeout ≤ c.now - (c.ss p).lastSeen ∧ (c.ss p).disconnected ∧
    reconnectGrace ≤ c.now - (c.ss p).disconnectedAt

instance (c : Core) (p : SessionId) : Decidable (c.lapsed p) := by
  unfold lapsed
  infer_instance

theorem find_lapsed_of_ne {ps : List SessionId} {p : SessionId} {f : Session → Session} (hp : p ∉ ps) :
    (ps.find? fun q => decide ((c.onSession p f).lapsed q)) = ps.find? fun q => decide (c.lapsed q) := by
  refine List.find?_congr fun q hq => ?_
  have hne : q ≠ p := fun he => hp (he ▸ hq)
  simp only [lapsed, onSession_ss, if_neg hne]
  rfl

theorem plays_sweepFrom {ps : List SessionId} (hnd : ps.Nodup) (hps : ∀ p ∈ ps, p ∈ (c.ms m).players)
    (hok : ∀ p, (ps.find? fun p => decide (c.lapsed p)) = some p → P (c.field m) (.leave p)) :
    Plays now P m c (sweepFrom m ps c) := by
  have hnet : ∀ (p : SessionId) (f : Session → Session),
      (∀ q, (f q).entityID = q.entityID ∧ (f q).team = q.team) →
      (c.onSession p f).field = c.field :=
    fun p f hf => field_of_member rfl (member_onSession hf)
  induction ps generalizing c with
  | nil => exact plays_refl
  | cons p ps ih =>
    obtain ⟨hp, hnd⟩ := List.nodup_cons.mp hnd
    have hrest : ¬ c.lapsed p → ∀ f : Session → Session,
        (∀ q, (f q).entityID = q.entityID ∧ (f q).team = q.team) →
        Plays now P m c (sweepFrom m ps (c.onSession p f)) := by
      intro hng f hf
      refine Plays.after (ih hnd (fun q hq => hps q (List.mem_cons_of_mem _ hq)) (fun q hq => ?_)
        fun p' f' hf' => field_of_member rfl (member_onSession hf')) (hnet p f hf)
      rw [hnet p f hf]
      rw [find_lapsed_of_ne hp] at hq
      exact hok q (by rw [List.find?_cons_of_neg (by simpa using hng)]; exact hq)
    have hid : ∀ {d : Core}, d = c → ¬ c.lapsed p → Plays now P m c (sweepFrom m ps d) := by
      intro d hd hng
      rw [hd]
      refine ih hnd (fun q hq => hps q (List.mem_cons_of_mem _ hq)) (fun q hq => ?_) hnet
      exact hok q (by rw [List.find?_cons_of_neg (by simpa using hng)]; exact hq)
    unfold sweepFrom
    split
    · rename_i hzero
      exact hid rfl fun hg => hg.1 hzero
    rename_i hseen
    split
    · rename_i hearly
      exact hrest (fun hg => absurd hg.2.1 (Int.not_le.mpr hearly)) _ fun _ => ⟨rfl, rfl⟩
    rename_i hlate
    dsimp only
    by_cases hdis : (c.ss p).disconnected
    · simp only [if_pos hdis]
      split
      · rename_i hgrace
        have hgone : c.lapsed p := ⟨hseen, Int.not_lt.mp hlate, hdis, hgrace⟩
        exact plays_removePlayer (hps p List.mem_cons_self)
          (hok p (List.find?_cons_of_pos (by simpa using hgone)))
      · rename_i hgrace
        exact hid rfl fun hg => hgrace hg.2.2.2
    · simp only [if_neg hdis]
      rw [if_neg]
      · exact hrest (fun hg => hdis hg.2.2.1) _ fun _ => ⟨rfl, rfl⟩
      · simp [onSession, reconnectGrace]

theorem plays_bleed {entity : Nat} (hok : P (c.field m) .bleed) :
    Plays c.now P m c (bleed m c entity) :=
  plays_move hok .bleed turns_bleed

theorem plays_rescueTick {target : Nat} (hok : P (c.field m) .rescue) :
    Plays c.now P m c (rescueTick m c target) :=
  plays_move hok .rescue turns_rescueTick

theorem now_of_keeps {F : List Part} (h : Keeps F c d) (hF : Part.moment ∉ F) : d.now = c.now := by
  have hs := (h _ hF).2.2
  simp only [Part.sameShared, Prod.mk.injEq] at hs
  exact hs.1.symm

theorem plays_stepKnock (hok : ∀ f : Field, f.stage = (c.field m).stage → P f .bleed) :
    Plays c.now P m c (c.stepKnock m) := by
  refine plays_foldl (I := fun d => (d.field m).stage = (c.field m).stage ∧ d.now = c.now) ?_
    ⟨rfl, rfl⟩
  intro e _ d hd
  refine ⟨hd.2 ▸ plays_bleed (hok _ hd.1), ?_, (now_of_keeps keeps_bleed (by decide)).trans hd.2⟩
  rw [turns_bleed.eq, ← hd.1]
  exact Field.stage_bleed

def rescuing (c : Core) (m : MatchRef) : List Nat := visit c.order (c.ms m).rescues.keys

def rescueAt (c : Core) (m : MatchRef) (k : Nat) : Core :=
  ((c.rescuing m).take k).foldl (rescueTick m) c

theorem now_rescueAt (k : Nat) : (c.rescueAt m k).now = c.now :=
  List.foldlRecOn (motive := fun d : Core => d.now = c.now) _ _ rfl
    fun _ hd _ _ => (now_of_keeps keeps_rescueTick (by decide)).trans hd

theorem plays_stepRescue
    (hok : ∀ k < (c.rescuing m).length, P ((c.rescueAt m k).field m) .rescue) :
    Plays c.now P m c (c.stepRescue m) := by
  refine plays_foldl_take fun k e he => ?_
  rw [← @now_rescueAt c m k]
  exact plays_rescueTick (hok k (List.getElem?_eq_some_iff.mp he).choose)

theorem turns_heal {entity hp : Nat} : Turns m c
    (c.onMatch m fun g => { g with hp := g.hp.insert entity hp }) ((c.field m).heal entity hp) := by
  refine turns_refl.onMatch (fun f => f.heal entity hp) fun _ => ?_
  simp only [Match.view, lookup_insert_fun, Field.heal]

theorem plays_stepHeal (hs : s ∈ (c.ms m).players) (hm : (c.ss s).matchRef = some m)
    (hok : P (c.field m) .heal) : Plays now P m c (c.stepHeal s) := by
  unfold stepHeal withMatch
  simp only [hm]
  split
  · split
    · exact plays_keeps keeps_healActive (by decide)
    · rename_i halive
      split
      · have hheal : ∀ gained, (((c.ms m).hp.lookup (c.ss s).entityID).getD 0 +
            (min ((c.now - (c.ss s).healStart).tdiv medkitInterval).toNat medkitSteps -
              (c.ss s).healApplied) < 65536 →
            gained = min (((c.ms m).hp.lookup (c.ss s).entityID).getD 0 +
              (min ((c.now - (c.ss s).healStart).tdiv medkitInterval).toNat medkitSteps -
                (c.ss s).healApplied)) (c.ms m).settings.maxHP) →
            Plays now P m c (c.onMatch m fun g =>
              { g with hp := g.hp.insert (c.ss s).entityID gained }) := fun gained hg =>
          plays_move hok (.heal (x := c.member s) (List.mem_map_of_mem hs) (not_not.mp halive)
            (le_trans (le_trans (Nat.sub_le _ _) (min_le_right _ _)) (by decide)) hg) turns_heal
        have hgained := hheal (min ((((c.ms m).hp.lookup (c.ss s).entityID).getD 0 +
          (min ((c.now - (c.ss s).healStart).tdiv medkitInterval).toNat medkitSteps -
            (c.ss s).healApplied)) % 65536) (c.ms m).settings.maxHP)
          fun hlt => by rw [Nat.mod_eq_of_lt hlt]
        split
        · exact (hgained.keeps keeps_healApplied (by decide)).keeps keeps_healActive (by decide)
        · exact hgained.keeps keeps_healApplied (by decide)
      · split
        · exact plays_keeps keeps_healActive (by decide)
        · exact plays_refl
  · exact plays_refl

theorem regen_capped {hp gain maxHP : Nat} (hlow : hp < maxHP) (hlt : hp + gain < 65536) :
    (hp + if maxHP < (hp + gain) % 65536 then maxHP - hp else gain) % 65536 =
      min (hp + gain) maxHP := by
  rw [Nat.mod_eq_of_lt hlt]
  split
  · rw [Nat.mod_eq_of_lt (by omega)]
    omega
  · rw [Nat.mod_eq_of_lt hlt]
    omega

theorem plays_regen (hs : s ∈ (c.ms m).players)
    (halive : (c.ms m).lifeOf (c.ss s).entityID = .alive) (hok : P (c.field m) .heal)
    (hlow : ((c.ms m).hp.lookup (c.ss s).entityID).getD 0 < (c.ms m).settings.maxHP) :
    Plays now P m c (c.regen s m (c.ss s).entityID
      (((c.ms m).hp.lookup (c.ss s).entityID).getD 0) (c.ms m).settings.maxHP) := by
  have hkit : ∀ f, Keeps [.kit] c (c.onKit s f) := fun f => (Frame.refl c).onKit (by decide)
  have hheal : ∀ f gain hp, gain ≤ maxEP →
      (((c.ms m).hp.lookup (c.ss s).entityID).getD 0 + gain < 65536 →
        hp = min (((c.ms m).hp.lookup (c.ss s).entityID).getD 0 + gain)
          (c.ms m).settings.maxHP) →
      Plays now P m c ((c.onKit s f).onMatch m fun g =>
        { g with hp := g.hp.insert (c.ss s).entityID hp }) := by
    intro f gain hp hle hg
    refine plays_move hok (.heal (x := c.member s) (List.mem_map_of_mem hs) halive hle hg)
      (Turns.onMatch (fun f => f.heal (c.ss s).entityID hp) (turns_keeps (hkit f) (by decide))
        fun _ => ?_)
    simp only [Match.view, lookup_insert_fun, Field.heal]
  have hep : min (((c.now - (c.ss s).kit.epLast).tdiv epInterval).toNat % 65536)
      (c.ss s).kit.ep.val ≤ maxEP :=
    le_trans (min_le_right _ _) (Nat.le_of_lt_succ (c.ss s).kit.ep.isLt)
  refine Plays.ite (fun _ => plays_refl) fun _ => Plays.ite
    (fun _ => plays_keeps (hkit _) (by decide)) fun _ => ?_
  exact (hheal _ _ _ hep (regen_capped hlow)).keeps (F := [.kit])
    ((Frame.refl _).onKit (by decide)) (by decide)

theorem plays_stepEP (hs : s ∈ (c.ms m).players) (hm : (c.ss s).matchRef = some m)
    (hok : P (c.field m) .heal) : Plays now P m c (c.stepEP s) := by
  unfold stepEP withMatch
  simp only [hm]
  split
  · exact plays_refl
  split
  · exact plays_keeps (F := [.kit]) ((Frame.refl c).onKit (by decide)) (by decide)
  · rename_i hgo
    rw [not_or, not_or, not_not, not_le] at hgo
    exact plays_regen hs hgo.1 hok hgo.2.2

theorem stage_of_keeps {F : List Part} (h : Keeps F c d)
    (hF : ∀ x ∈ F, x ∉ [.roster, .slots, .bot, .fell, .phase, .zone, .run, .lock, .settings, .seat]) :
    (d.field m).stage = (c.field m).stage := by
  have hs : ∀ x ∈ [Part.roster, .slots, .bot, .fell, .phase, .zone, .run, .lock, .settings],
      x.sameMatch (c.ms m) (d.ms m) := fun x hx => (h x fun hm => hF x hm (by
        simp only [List.mem_cons, List.not_mem_nil, or_false] at hx ⊢
        tauto)).1 m
  have hmem := member_of_keeps h fun hm => hF _ hm (by decide)
  have h1 := hs .roster (by decide)
  have h2 := hs .slots (by decide)
  have h3 := hs .bot (by decide)
  have h4 := hs .fell (by decide)
  have h5 := hs .phase (by decide)
  have h9 := hs .zone (by decide)
  have h6 := hs .run (by decide)
  have h7 := hs .lock (by decide)
  have h8 := hs .settings (by decide)
  simp only [Part.sameMatch, Prod.mk.injEq] at h1 h2 h3 h4 h5 h6 h7 h8 h9
  simp only [Field.stage, field, Match.view, hmem, h1, h2, h3, h4, h5, h6, h7, h8, h9]

theorem plays_stepPlayer (hs : s ∈ (c.ms m).players) (hm : (c.ss s).matchRef = some m)
    (hok : ∀ f : Field, f.stage = (c.field m).stage → P f .heal) :
    Plays now P m c (stepPlayer c s) := by
  have hk := @keeps_stepHeal c s
  refine ((plays_stepHeal hs hm (hok _ rfl)).trans (plays_stepEP ?_ ?_ (hok _ ?_))).keeps
    keeps_stepHealChannel (by decide)
  · rw [players_of_keeps hk (by decide)]
    exact hs
  · rw [matchRef_of_keeps hk (by decide)]
    exact hm
  · exact stage_of_keeps hk (by decide)

theorem plays_stepPlayers (hm : ∀ p ∈ (c.ms m).players, (c.ss p).matchRef = some m)
    (hok : ∀ f : Field, f.stage = (c.field m).stage → P f .heal) :
    Plays now P m c ((c.ms m).players.foldl stepPlayer c) := by
  refine plays_foldl (I := fun d => Keeps [.body, .hp, .kit] c d) (fun p hp d hd => ?_) (Frame.refl c)
  refine ⟨plays_stepPlayer ?_ ?_ ?_, hd.trans keeps_stepPlayer⟩
  · rw [players_of_keeps hd (by decide)]
    exact hp
  · rw [matchRef_of_keeps hd (by decide)]
    exact hm p hp
  · rw [stage_of_keeps hd (by decide)]
    exact hok

def afterSweep (w : World) (c : Core) (m : MatchRef) : Core :=
  (c.beforeSweep w m).sweepDisconnects m

def beforeRescue (w : World) (c : Core) (m : MatchRef) : Core := (c.afterSweep w m).stepKnock m

-- What may happen to a match in a tick, and on which field.
inductive TickMove (w : World) (c : Core) (m : MatchRef) : Field → Label → Prop where
  | clock {l : Label} : l.clock → l ≠ .fight → TickMove w c m (c.field m) l
  | fight : c.due m → TickMove w c m (c.field m) .fight
  | zone {k : Nat} {p : SessionId} : (c.beforeZone w m).ZoneStrikes w m k p →
    TickMove w c m (((c.beforeZone w m).zoneAt w m k).field m) (.hit ((c.beforeZone w m).ss p).entityID 0 w.zoneDamage)
  | sweep {p : SessionId} :
    ((c.ms m).players.find? fun p => decide ((c.beforeSweep w m).lapsed p)) = some p →
    TickMove w c m ((c.beforeSweep w m).field m) (.leave p)
  | bleed {f : Field} : TickMove w c m f .bleed
  | rescue {k : Nat} : k < ((c.beforeRescue w m).rescuing m).length →
    TickMove w c m (((c.beforeRescue w m).rescueAt m k).field m) .rescue
  | heal {f : Field} : TickMove w c m f .heal

theorem keeps_beforeSweep : Keeps phaseParts c (c.beforeSweep w m) := by
  refine Frame.trans (Frame.trans keeps_advancePhase (keeps_streamSweep.mono (by decide)))
    (keeps_stepZone.mono (by decide))

theorem plays_beforeSweep : Plays now (TickMove w c m) m c (c.beforeSweep w m) := by
  have hclock : Plays now (TickMove w c m) m c (c.advancePhase w m) :=
    plays_advancePhase fun l hl hdue => by
      by_cases hf : l = .fight
      · subst hf
        exact .fight (hdue rfl)
      · exact .clock hl hf
  exact (hclock.trans turns_streamSweep.quiet).trans
    (plays_stepZone fun _ _ hstrikes => .zone hstrikes)

theorem keeps_afterSweep : Keeps sweepParts c (c.afterSweep w m) :=
  (keeps_beforeSweep.mono (by decide)).trans (keeps_sweepDisconnects.mono (by decide))

theorem plays_afterSweep (hnd : (c.ms m).players.Nodup) :
    Plays now (TickMove w c m) m c (c.afterSweep w m) := by
  have hplayers := players_of_keeps (keeps_beforeSweep (w := w) (c := c) (m := m)) (by decide) m
  refine plays_beforeSweep.trans (plays_sweepFrom ?_ (fun _ hp => hp) fun p hp => .sweep ?_)
  · rw [hplayers]
    exact hnd
  · rw [← hplayers]
    exact hp

-- The tick up to the rescues, after which the roster and who lives do not change.
def afterRescue (w : World) (c : Core) (m : MatchRef) : Core := (c.beforeRescue w m).stepRescue m

theorem keeps_afterRescue : Keeps sweepParts c (c.afterRescue w m) :=
  (keeps_afterSweep.trans (keeps_stepKnock.mono (by decide))).trans
    (keeps_stepRescue.mono (by decide))

theorem plays_afterRescue (hnd : (c.ms m).players.Nodup) : Plays c.now (TickMove w c m) m c (c.afterRescue w m) := by
  have h1 := now_of_keeps (keeps_afterSweep (w := w) (c := c) (m := m)) (by decide)
  have h2 := now_of_keeps (keeps_stepKnock (c := c.afterSweep w m) (m := m)) (by decide)
  have hbleed := plays_stepKnock (c := c.afterSweep w m) (m := m) (P := TickMove w c m)
    fun _ _ => .bleed
  have hrescue := plays_stepRescue (c := (c.afterSweep w m).stepKnock m) (m := m)
    (P := TickMove w c m) fun _ => .rescue
  rw [h2, h1] at hrescue
  rw [h1] at hbleed
  exact ((plays_afterSweep hnd).trans hbleed).trans hrescue

theorem tick_eq (h : (c.ms m).players ≠ []) : c.tick w m =
    (((c.afterRescue w m).stepFlags m).ms m).players.foldl stepPlayer
      ((c.afterRescue w m).stepFlags m) := by
  simp only [tick, if_neg h, afterRescue, beforeRescue, afterSweep, beforeSweep, beforeZone]

theorem turns_stopLoop (h : (c.ms m).loop = .running) :
    Turns m c (c.stopLoop m) (c.field m) := by
  have hs := turns_onMatch (c := c) (m := m) fun g => { g with loop := .stopped }
  have hv : Match.view { c.ms m with loop := .stopped } c.member = c.field m := by
    simp only [Match.view, field, h]
    rfl
  rw [hv] at hs
  exact hs.keeps keeps_reap (by decide)

theorem sublist_removePlayer (m' : MatchRef) :
    ((c.removePlayer s m).ms m').players.Sublist (c.ms m').players := by
  rcases players_removePlayer (c := c) (s := s) (m := m) m' with h | ⟨rfl, h⟩
  · rw [h]
  · rw [h]
    exact List.filter_sublist

theorem sublist_sweepFrom {ps : List SessionId} (m' : MatchRef) :
    ((sweepFrom m ps c).ms m').players.Sublist (c.ms m').players := by
  induction ps generalizing c with
  | nil => exact List.Sublist.refl _
  | cons p ps ih =>
    have hnet : ∀ f : Session → Session, ((c.onSession p f).ms m').players = (c.ms m').players :=
      fun _ => rfl
    unfold sweepFrom
    split
    · exact ih
    · split
      · exact ih
      · have hgone : ∀ d : Core, d.ms = c.ms → (List.Sublist ((if reconnectGrace ≤
            d.now - (d.ss p).disconnectedAt then d.removePlayer p m else sweepFrom m ps d).ms m').players
            (c.ms m').players) := by
          intro d hd
          rw [← hd]
          split
          · exact sublist_removePlayer m'
          · exact ih
        exact hgone _ (by split <;> rfl)

theorem sublist_afterRescue (m' : MatchRef) :
    ((c.afterRescue w m).ms m').players.Sublist (c.ms m').players := by
  have hbefore := players_of_keeps (@keeps_beforeSweep w c m) (by decide) m'
  unfold afterRescue beforeRescue
  rw [players_of_keeps keeps_stepRescue (by decide), players_of_keeps keeps_stepKnock (by decide),
    ← hbefore]
  exact sublist_sweepFrom m'

theorem sublist_tick (m' : MatchRef) :
    ((c.tick w m).ms m').players.Sublist (c.ms m').players := by
  by_cases hp : (c.ms m).players = []
  · unfold tick
    rw [if_pos hp, players_of_keeps keeps_stopLoop (by decide)]
  · rw [tick_eq hp, players_of_keeps (Frame.foldl (fun _ _ => keeps_stepPlayer) _ _) (by decide),
      players_of_keeps keeps_stepFlags (by decide)]
    exact sublist_afterRescue m'

theorem plays_tick (hrun : (c.ms m).loop = .running) (hnd : (c.ms m).players.Nodup)
    (hseat : ∀ p, p ∈ (c.ms m).players → (c.ss p).matchRef = some m) :
    Plays c.now (TickMove w c m) m c (c.tick w m) := by
  by_cases hp : (c.ms m).players = []
  · unfold tick
    rw [if_pos hp]
    exact (turns_stopLoop hrun).quiet
  · rw [tick_eq hp]
    have hk : Keeps sweepParts c ((c.afterRescue w m).stepFlags m) :=
      keeps_afterRescue.trans (keeps_stepFlags.mono (by decide))
    refine ((plays_afterRescue hnd).keeps keeps_stepFlags (by decide)).trans
      (plays_stepPlayers (fun p hp => ?_) fun _ _ => .heal)
    rw [matchRef_of_keeps hk (by decide)]
    rw [players_of_keeps keeps_stepFlags (by decide)] at hp
    exact hseat p ((sublist_afterRescue m).subset hp)

end Core

end MatchServer

import Madoka.MatchServer.Handlers

namespace MatchServer

open Lib

def bindDelay : Int := 150000000

def setupGapDur : Int := 1000000000

def setupWaitDur : Int := 3000000000

def waitPlayersDur : Int := 30000000000

def cancelHoldDur : Int := 10000000000

def matchEndPause : Int := 500000000

def introSettle : Int := 1000000000

def holdDur : Int := 21600000000000

def matchStatsHold : Int := 20000000000

def priTick : Int := 300000000

def disconnectTimeout : Int := 10000000000

def reconnectGrace : Int := 45000000000

def zoneTestWait : Int := 3000000000

def csRoundIncome (round : Nat) (table : List Nat) : Nat :=
  let table := if table = [] then csRoundBaseCoins else table
  let round := if round < 1 then 1 else round
  if table.length ≤ round then table.getLastD 0 else table.getD round 0

def CsEvents.lossBonus (e : CsEvents) (streak : Nat) : Nat :=
  if 3 ≤ streak then (e.lossRound + e.lossStreak3) % 2 ^ 32
  else if streak = 2 then (e.lossRound + e.lossStreak2) % 2 ^ 32
  else e.lossRound

def ofTeam (team : Nat) (x : Nat × Nat) : Nat := if team = localTeamID then x.1 else x.2

namespace Core

variable (w : World) (c : Core) (s : SessionId) (m : MatchRef)

def teamCount (team : Nat) : Nat :=
  (c.ms m).players.countP fun p => (c.ss p).team == team

def teamsReady : Bool :=
  decide (0 < c.teamCount m 1 ∧ 0 < c.teamCount m 2 ∧ c.teamCount m 1 = c.teamCount m 2)

def enter (ph : CsPhase) (dur : Int) : Core :=
  c.onMatch m fun g => { g with
    phase := ph
    deadline := if dur ≤ 0 then none else some (c.now + dur) }

def seatAlive (c : Core) (p : SessionId) : Core :=
  (c.onMatch m fun g => { g with
    hp := g.hp.insert (c.ss p).entityID g.settings.maxHP
    life := g.life.insert (c.ss p).entityID .alive }).onSession p
    fun q => { q with playerPos := q.player.spawnPos }

def initHP : Core :=
  let c := c.onMatch m fun g => { g with
    hp := ∅
    life := ∅
    knock := ∅
    kills := ∅
    deaths := ∅
    damage := ∅
    rescues := ∅ }
  let c := (c.ms m).players.foldl (seatAlive m) c
  c.onMatch m fun g => { g with
    hp := if g.botEntity ≠ 0 then g.hp.insert g.botEntity g.settings.maxHP else g.hp
    life := if g.botEntity ≠ 0 then g.life.insert g.botEntity .alive else g.life
    deeds := g.deeds ++ [.reset] }

-- run() up to its loop.
def runStart : Core :=
  let coins :=
    if w.cfg.unlimitedMoneyTest then 9999 else csStartingCoins (c.ms m).settings.baseCoins
  let c := c.onKit (c.ms m).s fun k => { k with coins := coins }
  let c := c.onMatch m fun g => { g with
    loop := .running
    matchStart := c.now
    lastStream := none }
  (c.initHP m).enter m .setupBind bindDelay

def startBuyPhase : Core :=
  (c.onMatch m fun g => { g with started := true }).enter m .prepare w.cfg.buyPhase

def spawnFallbackBot : Core :=
  let bot := botPlayer w (c.ss (c.ms m).s).player botEntityID
  let c := c.onMatch m fun g => { g with
    botEntity := botEntityID
    bot := bot
    hp := g.hp.insert botEntityID g.settings.maxHP
    life := g.life.insert botEntityID .alive }
  ((c.note m (.seated botEntityID)).broadcastData m (.playerJoin bot)).bindAll m

def enterPrepare : Core :=
  let c := c.onMatch m fun g => { g with pull := none }
  if w.cfg.holdPrepare then
    (c.onMatch m fun g => { g with started := true }).enter m .prepare holdDur
  else if !(c.ms m).started && !c.teamsReady m then
    if (c.ms m).settings.isCustom then
      let c := if w.cfg.matchBot ∧ (c.ms m).botEntity = 0 then c.spawnFallbackBot w m else c
      c.startBuyPhase w m
    else c.enter m .prepare waitPlayersDur
  else c.startBuyPhase w m

def enterCancel : Core :=
  (c.onMatch m fun g => { g with ended := true }).enter m .cancelled cancelHoldDur

def startZone : Core :=
  if w.cfg.noZone then c
  else
    let (center, outerR) := w.zoneGeometry (c.ms m)
    let waitDur :=
      if w.cfg.zoneStatic then holdDur else if w.cfg.zoneTest then zoneTestWait else w.zoneWaitDur
    c.onMatch m fun g => { g with
      zoneCenter := center
      zoneOuterR := outerR
      zoneWaitEnd := c.now + waitDur
      zoneShrink := false
      zoneLastDmg := c.now
      zoneOn := true }

def stepZone : Core :=
  if (c.ms m).zoneOn then
    let c := c.onMatch m fun g =>
      if !g.zoneShrink && decide (g.zoneWaitEnd ≤ c.now) then
        { g with zoneShrink := true, zoneShrinkStart := c.now }
      else g
    if c.now - (c.ms m).zoneLastDmg < w.zoneDamageEvery then c
    else
      let c := c.onMatch m fun g => { g with zoneLastDmg := c.now }
      let zone := c.ms m
      (c.ms m).players.foldl (fun c p =>
        if (c.ms m).lifeOf (c.ss p).entityID = .alive ∧ w.outOfZone zone c.now (c.ss p).playerPos then
          c.applyDamage w m (c.ss p).entityID 0 w.zoneDamage 0
        else c) c
  else c

-- The round's income of one player.
def payRound (winner base firstBlood : Nat) (c : Core) (p : SessionId) : Core :=
  let ev := (c.ms m).settings.events
  let kills := (c.ss p).roundKills
  let streak := ofTeam (c.ss p).team (c.ms m).lossStreak
  let aw := base + ev.perKill * kills +
    (if (c.ss p).team = winner then ev.winRound else ev.lossBonus streak) +
    (if (c.ss p).entityID = firstBlood then ev.firstBlood else 0)
  (c.onSession p fun q => { q with roundKills := 0 }).onKit p fun k => { k with
    coins := (k.coins + aw) % 2 ^ 32
    award := aw % 2 ^ 32 }

def scoreRound (localWon : Bool) : Core :=
  c.onMatch m fun g => { g with
    zoneOn := false
    roundOver := true
    teamScore := if localWon then ((g.teamScore.1 + 1) % 256, g.teamScore.2)
      else (g.teamScore.1, (g.teamScore.2 + 1) % 256)
    lossStreak := if localWon then (0, (g.lossStreak.2 + 1) % 256)
      else ((g.lossStreak.1 + 1) % 256, 0)
    deeds := g.deeds ++ [.scored g.round (if localWon then localTeamID else enemyTeamID)] }

def nextRound (localWon : Bool) (winner : Nat) : Core :=
  let (arena, used) := w.nextArena (c.ms m).arenasUsed c.pick
  let c := (w.roundFlow.roundResult c m winner).onMatch m fun g => { g with
    revive := !localWon
    arena := arena
    arenasUsed := used }
  let c := (c.ms m).players.foldl (fun c p =>
    let spawn := w.spawnFor arena (c.ss p).faction
    c.onSession p (placed spawn.1 spawn.2)) c
  let c := c.onMatch m fun g => { g with
    bot := if g.botEntity ≠ 0 then botPlayer w (c.ss g.s).player g.botEntity else g.bot }
  c.enter m .postBanner w.postToBlack

def endFight : Core :=
  let localWon := decide (0 < c.teamAlive m localTeamID)
  let winner := if localWon then localTeamID else enemyTeamID
  let c := c.scoreRound m localWon
  let g := c.ms m
  let c := g.players.foldl
    (payRound m winner (csRoundIncome g.round g.settings.baseCoins) g.firstBlood) c
  let c := c.onMatch m fun g => { g with firstBlood := 0 }
  if g.settings.roundsToWin ≤ g.teamScore.1 ∨ g.settings.roundsToWin ≤ g.teamScore.2 ∨
      g.settings.maxRound ≤ g.round then
    (c.onMatch m fun g => { g with matchWon := localWon, winnerTeam := winner }).enter m
      .matchEndPause matchEndPause
  else c.nextRound w m localWon winner

def sendPull : Core :=
  if (c.ms m).pull = none then c
  else
    (c.ms m).players.foldl (fun c p =>
      let seq := ((c.ms m).tpSeq + 1) % 2 ^ 32
      (c.onMatch m fun g => { g with tpSeq := seq }).broadcastData m
        (.teleport (c.ss p).entityID seq (c.ss p).player.spawnPos (c.ss p).player.spawnFace)) c

def resetPlayer (c : Core) (p : SessionId) : Core :=
  ((c.onSession p fun q => { q with playerPos := q.player.spawnPos }).onKit p Kit.resetEP).sendMushroomCount p

def respawnBot : Core :=
  if (c.ms m).botEntity ≠ 0 then w.roundFlow.respawnBot c m else c

-- The reset behind the black screen, with the respawn of the bot and of the `dead`.
def roundReset (dead : List SessionId) : Core :=
  let c := c.reviveAll m
  let c := (c.ms m).players.foldl resetPlayer c
  let c := (c.clearWalls (c.ms m).s).clearAllFlags m
  let c := c.respawnBot w m
  let c := dead.foldl (respawnPlayer m) c
  c.onMatch m fun g => { g with pull := some (c.ss g.s).player.spawnPos }

def postBannerEdge : Core :=
  let dead := c.deadHumans m
  let c := c.roundReset w m dead
  if dead ≠ [] then
    (c.onMatch m fun g => { g with revived := dead }).enter m .postReviveBind bindDelay
  else
    (((c.ms m).players.foldl (fun c p => c.reissueLoadout w p) c).enter m .postBlack
      w.postBlackHold).sendPull m

def postReviveEdge : Core :=
  let revived := (c.ms m).revived
  let c := (c.ms m).players.foldl (fun c p =>
    if p ∈ revived then c.giveLoadout w p false else c.reissueLoadout w p) (c.bindAll m)
  ((c.onMatch m fun g => { g with revived := [] }).enter m .postBlack w.postBlackHold).sendPull m

def matchEnd : Core := w.roundFlow.matchEnd w.cfg c m

def startFight : Core :=
  ((c.enter m .fight holdDur).startZone w m).note m
    (.fight (c.teamAlive m localTeamID) (c.teamAlive m enemyTeamID))

def openRound : Core :=
  c.onMatch m fun g => { g with
    round := g.round + 1
    deeds := g.deeds ++ [.opened (g.round + 1)] }

def tearDown : Core :=
  if (c.ms m).tearingDown then c
  else (c.onMatch m fun g => { g with tearingDown := true, done := true }).note m .closed

-- The edge of a phase whose deadline has passed.
def phaseEdge : Core :=
  let s := (c.ms m).s
  match (c.ms m).phase with
  | .setupBind => (c.bindAll m).enter m .setupGap setupGapDur
  | .setupGap => c.enter m .setupWait setupWaitDur
  | .setupWait => ((c.sendCSShop s).giveLoadout w s true).enterPrepare w m
  | .cancelled => (c.broadcastData m .returnToLobby).tearDown m
  | .prepare =>
    if (c.ms m).started then c.startFight w m
    else if w.cfg.matchBot then (c.spawnFallbackBot w m).startBuyPhase w m
    else c.enterCancel m
  | .fight => c
  | .matchEndPause =>
    ((c.matchEnd w m).onMatch m fun g => { g with ended := true }).enter m .matchEnd matchStatsHold
  | .postBanner => c.postBannerEdge w m
  | .postReviveBind => c.postReviveEdge w m
  | .postBlack =>
    ((c.openRound m).broadcastZoneIndex m).enter m .introWait bindDelay
  | .introWait => (c.enter m .intro (w.introReveal + introSettle)).sendPull m
  | .intro => c.enterPrepare w m
  | .matchEnd => c.tearDown m

def due : Bool :=
  match (c.ms m).deadline with
  | none => false
  | some d => decide (d ≤ c.now)

def advancePhase : Core :=
  if (c.ms m).phase = .fight then
    if c.teamAlive m localTeamID = 0 ∨ c.teamAlive m enemyTeamID = 0 then c.endFight w m else c
  else if (c.ms m).phase = .prepare ∧ (c.ms m).started = false ∧ c.teamsReady m then
    c.startBuyPhase w m
  else if c.due m then c.phaseEdge w m
  else c

def sweepFrom : List SessionId → Core → Core
  | [], c => c
  | p :: ps, c =>
    if (c.ss p).lastSeen = 0 then sweepFrom ps c
    else if c.now - (c.ss p).lastSeen < disconnectTimeout then
      sweepFrom ps (c.onSession p fun q => { q with disconnected := false })
    else
      let c :=
        if (c.ss p).disconnected then c
        else c.onSession p fun q => { q with disconnected := true, disconnectedAt := c.now }
      if reconnectGrace ≤ c.now - (c.ss p).disconnectedAt then c.removePlayer p m
      else sweepFrom ps c

def sweepDisconnects : Core := sweepFrom m (c.ms m).players c

def streamSweep (before : CsPhase) : Core :=
  let stale : Bool :=
    match (c.ms m).lastStream with
    | none => true
    | some t => decide (priTick ≤ c.now - t)
  if (c.ms m).phase ≠ before ∨ stale then
    (c.sweepWalls (c.ms m).s).onMatch m fun g => { g with lastStream := some c.now }
  else c

def stepPlayer (c : Core) (p : SessionId) : Core :=
  ((c.stepHeal p).stepEP p).stepHealChannel p

def stopLoop : Core :=
  (c.onMatch m fun g => { g with loop := .stopped }).reap m

def tick : Core :=
  if (c.ms m).players = [] then c.stopLoop m
  else
    let before := (c.ms m).phase
    let c := (c.advancePhase w m).streamSweep m before
    let c := (c.stepZone w m).sweepDisconnects m
    let c := ((c.stepKnock m).stepRescue m).stepFlags m
    (c.ms m).players.foldl stepPlayer c

variable {w : World} {c : Core} {s : SessionId} {m : MatchRef}

theorem keeps_enter {ph : CsPhase} {dur : Int} : Keeps [.phase] c (c.enter m ph dur) := by
  refine (Frame.refl c).onMatch fun x => ?_
  cases x <;> first | exact Or.inr fun _ => rfl | exact Or.inl (by decide)

def startParts : List Part :=
  [.kit, .run, .phase, .zone, .hp, .life, .knock, .score, .rescues, .body, .deeds]

def initParts : List Part := [.hp, .life, .knock, .score, .rescues, .body, .deeds]

theorem keeps_initHP : Keeps initParts c (c.initHP m) := by
  unfold initHP
  refine Frame.onMatch (Frame.trans (Frame.onMatch (Frame.refl c) fun x => ?_)
    (Frame.foldl (fun d p => ?_) _ _)) fun x => ?_
  · cases x <;> first | exact Or.inr fun _ => rfl | exact Or.inl (by decide)
  · refine Frame.onSession (Frame.onMatch (Frame.refl d) fun x => ?_) fun x => ?_
    all_goals cases x <;> first | exact Or.inr fun _ => rfl | exact Or.inl (by decide)
  · cases x <;> first | exact Or.inr fun _ => rfl | exact Or.inl (by decide)

theorem keeps_runStart : Keeps startParts c (c.runStart w m) := by
  unfold runStart
  refine Frame.trans (Frame.trans (Frame.onMatch ?_ fun x => ?_) (keeps_initHP.mono (by decide)))
    (keeps_enter.mono (by decide))
  · exact (Frame.refl c).onKit (by decide)
  · cases x <;> first | exact Or.inr fun _ => rfl | exact Or.inl (by decide)

theorem keeps_startBuyPhase : Keeps [.lock, .phase] c (c.startBuyPhase w m) := by
  refine Frame.trans ((Frame.refl c).onMatch fun x => ?_) (keeps_enter.mono (by decide))
  cases x <;> first | exact Or.inr fun _ => rfl | exact Or.inl (by decide)

theorem keeps_spawnFallbackBot :
    Keeps [.bot, .hp, .life, .deeds] c (c.spawnFallbackBot w m) := by
  refine Frame.trans (Frame.broadcastData (Frame.note ?_ (by decide)))
    (keeps_bindAll.mono (by decide))
  refine (Frame.refl c).onMatch fun x => ?_
  cases x <;> first | exact Or.inr fun _ => rfl | exact Or.inl (by decide)

theorem keeps_enterPrepare :
    Keeps [.lock, .phase, .bot, .hp, .life, .deeds] c (c.enterPrepare w m) := by
  have hpull : Keeps [.lock, .phase, .bot, .hp, .life, .deeds] c
      (c.onMatch m fun g => { g with pull := none }) := by
    refine (Frame.refl c).onMatch fun x => ?_
    cases x <;> first | exact Or.inr fun _ => rfl | exact Or.inl (by decide)
  unfold enterPrepare
  refine Frame.ite (fun _ => ?_) fun _ => Frame.ite (fun _ => Frame.ite (fun _ => ?_)
    fun _ => hpull.trans (keeps_enter.mono (by decide)))
    fun _ => hpull.trans (keeps_startBuyPhase.mono (by decide))
  · refine Frame.trans (hpull.onMatch fun x => ?_) (keeps_enter.mono (by decide))
    cases x <;> first | exact Or.inr fun _ => rfl | exact Or.inl (by decide)
  · refine Frame.trans ?_ (keeps_startBuyPhase.mono (by decide))
    exact Frame.ite (fun _ => hpull.trans (keeps_spawnFallbackBot.mono (by decide))) fun _ => hpull

theorem keeps_enterCancel : Keeps [.lock, .phase] c (c.enterCancel m) := by
  refine Frame.trans ((Frame.refl c).onMatch fun x => ?_) (keeps_enter.mono (by decide))
  cases x <;> first | exact Or.inr fun _ => rfl | exact Or.inl (by decide)

theorem keeps_startZone : Keeps [.zone] c (c.startZone w m) := by
  refine Frame.ite (fun _ => Frame.refl c) fun _ => ?_
  dsimp only
  refine (Frame.refl c).onMatch fun x => ?_
  cases x <;> first | exact Or.inr fun _ => rfl | exact Or.inl (by decide)

theorem keeps_stepZone : Keeps (.zone :: combatParts) c (c.stepZone w m) := by
  refine Frame.ite (fun _ => ?_) fun _ => Frame.refl c
  have hshrink : Keeps (.zone :: combatParts) c (c.onMatch m fun g =>
      if !g.zoneShrink && decide (g.zoneWaitEnd ≤ c.now) then
        { g with zoneShrink := true, zoneShrinkStart := c.now }
      else g) := by
    refine (Frame.refl c).onMatch fun x => ?_
    cases x
    case zone => exact Or.inl (by decide)
    all_goals
      refine Or.inr fun g => ?_
      split <;> rfl
  refine Frame.ite (fun _ => hshrink) fun _ => Frame.trans (hshrink.onMatch fun x => ?_)
    (Frame.foldl (fun d p => Frame.ite (fun _ => keeps_applyDamage.mono (by decide))
      fun _ => Frame.refl d) _ _)
  cases x <;> first | exact Or.inr fun _ => rfl | exact Or.inl (by decide)

def fightParts : List Part := .phase :: .zone :: .result :: combatParts

theorem keeps_payRound {winner base firstBlood : Nat} {p : SessionId} :
    Keeps [.roundKills, .kit] c (payRound m winner base firstBlood c p) := by
  unfold payRound
  dsimp only
  refine Frame.onKit (Frame.onSession (Frame.refl c) fun x => ?_) (by decide)
  cases x <;> first | exact Or.inr fun _ => rfl | exact Or.inl (by decide)

theorem keeps_scoreRound {localWon : Bool} : Keeps fightParts c (c.scoreRound m localWon) := by
  refine (Frame.refl c).onMatch fun x => ?_
  cases x <;> first | exact Or.inr fun _ => rfl | exact Or.inl (by decide)

theorem keeps_roundResult {winner : Nat} : Keeps [] c (w.roundFlow.roundResult c m winner) :=
  (Frame.refl c).sends (w.roundFlow.roundResult_sends c m winner)

theorem keeps_respawnBot : Keeps [.phase] c (c.respawnBot w m) := by
  refine Frame.ite (fun _ => ?_) fun _ => Frame.refl c
  obtain ⟨_, hs⟩ := w.roundFlow.respawnBot_sends c m
  refine Frame.sends ((Frame.refl c).onMatch fun x => ?_) hs
  cases x <;> first | exact Or.inr fun _ => rfl | exact Or.inl (by decide)

theorem keeps_nextRound {localWon : Bool} {winner : Nat} :
    Keeps [.phase, .bot, .body] c (c.nextRound w m localWon winner) := by
  unfold nextRound
  dsimp only
  refine Frame.trans (Frame.onMatch (Frame.trans
    ((keeps_roundResult.mono (by decide)).onMatch fun x => ?_)
    (Frame.foldl (fun _ _ => keeps_placed.mono (by decide)) _ _)) fun x => ?_)
    (keeps_enter.mono (by decide))
  all_goals cases x <;> first | exact Or.inr fun _ => rfl | exact Or.inl (by decide)

theorem keeps_endFight : Keeps (.bot :: fightParts) c (c.endFight w m) := by
  unfold endFight
  dsimp only
  have hpaid : ∀ localWon winner base first, Keeps (.bot :: fightParts) c
      ((((c.scoreRound m localWon).ms m).players.foldl (payRound m winner base first)
        (c.scoreRound m localWon)).onMatch m fun g => { g with firstBlood := 0 }) := by
    intro localWon winner base first
    refine Frame.onMatch (Frame.trans (keeps_scoreRound.mono (by decide))
      (Frame.foldl (fun _ _ => keeps_payRound.mono (by decide)) _ _)) fun x => ?_
    cases x <;> first | exact Or.inr fun _ => rfl | exact Or.inl (by decide)
  refine Frame.ite (fun _ => Frame.trans ((hpaid _ _ _ _).onMatch fun x => ?_)
    (keeps_enter.mono (by decide)))
    fun _ => (hpaid _ _ _ _).trans (keeps_nextRound.mono (by decide))
  cases x <;> first | exact Or.inr fun _ => rfl | exact Or.inl (by decide)

theorem keeps_sendPull : Keeps [.phase] c (c.sendPull m) := by
  refine Frame.ite (fun _ => Frame.refl c) fun _ => Frame.foldl (fun d p => ?_) _ _
  refine Frame.broadcastData ((Frame.refl d).onMatch fun x => ?_)
  cases x <;> first | exact Or.inr fun _ => rfl | exact Or.inl (by decide)

theorem keeps_resetPlayer {p : SessionId} : Keeps [.body, .kit] c (resetPlayer c p) := by
  have hpos : Keeps [.body, .kit] c
      (c.onSession p fun q => { q with playerPos := q.player.spawnPos }) := by
    refine (Frame.refl c).onSession fun x => ?_
    cases x <;> first | exact Or.inr fun _ => rfl | exact Or.inl (by decide)
  exact (hpos.onKit (by decide)).send

def bannerParts : List Part := .walls :: .flags :: fightParts

theorem keeps_roundReset {dead : List SessionId} : Keeps bannerParts c (c.roundReset w m dead) := by
  unfold roundReset
  dsimp only
  refine Frame.onMatch (Frame.trans (Frame.trans (Frame.trans (Frame.trans (Frame.trans ?_
    (Frame.foldl (fun _ _ => keeps_resetPlayer.mono (by decide)) _ _))
    (keeps_clearWalls.mono (by decide))) (keeps_clearAllFlags.mono (by decide)))
    (keeps_respawnBot.mono (by decide)))
    (Frame.foldl (fun _ _ => keeps_respawnPlayer.mono (by decide)) _ _)) fun x => ?_
  · exact keeps_reviveAll.mono (by decide)
  · cases x <;> first | exact Or.inr fun _ => rfl | exact Or.inl (by decide)

theorem keeps_postBannerEdge : Keeps bannerParts c (c.postBannerEdge w m) := by
  unfold postBannerEdge
  dsimp only
  refine Frame.ite (fun _ => Frame.trans (keeps_roundReset.onMatch fun x => ?_)
    (keeps_enter.mono (by decide))) fun _ => ?_
  · cases x <;> first | exact Or.inr fun _ => rfl | exact Or.inl (by decide)
  · refine Frame.trans (Frame.trans (Frame.trans ?_ (Frame.foldl
      (fun _ _ => keeps_reissueLoadout.mono (by decide)) _ _)) (keeps_enter.mono (by decide)))
      (keeps_sendPull.mono (by decide))
    exact keeps_roundReset

theorem keeps_postReviveEdge : Keeps (.ground :: bannerParts) c (c.postReviveEdge w m) := by
  unfold postReviveEdge
  refine Frame.trans (Frame.trans (Frame.onMatch (Frame.trans ?_
    (Frame.foldl (fun _ _ => ?_) _ _)) fun x => ?_) (keeps_enter.mono (by decide)))
    (keeps_sendPull.mono (by decide))
  · exact keeps_bindAll.mono (by decide)
  · exact Frame.ite (fun _ => keeps_giveLoadout.mono (by decide))
      fun _ => keeps_reissueLoadout.mono (by decide)
  · cases x <;> first | exact Or.inr fun _ => rfl | exact Or.inl (by decide)

theorem keeps_publishResult : Keeps [.published] c (c.publishResult w.cfg m) := by
  refine Frame.ite (fun _ => ?_) fun _ => Frame.refl c
  refine (Frame.refl c).trans fun x hx =>
    ⟨fun m => x.sameMatch_refl _, fun s => x.sameSession_refl _, ?_⟩
  cases x
  case published => exact absurd (by decide) hx
  all_goals rfl

theorem keeps_matchEnd : Keeps [.published] c (c.matchEnd w m) :=
  keeps_publishResult.sends (w.roundFlow.matchEnd_sends w.cfg c m)

theorem keeps_startFight : Keeps [.phase, .zone, .deeds] c (c.startFight w m) :=
  Frame.note ((keeps_enter.mono (by decide)).trans (keeps_startZone.mono (by decide))) (by decide)

theorem keeps_openRound : Keeps [.result, .deeds] c (c.openRound m) := by
  refine (Frame.refl c).onMatch fun x => ?_
  cases x <;> first | exact Or.inr fun _ => rfl | exact Or.inl (by decide)

theorem keeps_tearDown : Keeps [.over, .deeds] c (c.tearDown m) := by
  refine Frame.ite (fun _ => Frame.refl c) fun _ => ?_
  refine Frame.note ((Frame.refl c).onMatch fun x => ?_) (by decide)
  cases x <;> first | exact Or.inr fun _ => rfl | exact Or.inl (by decide)

def phaseParts : List Part := .ground :: .bot :: .lock :: .over :: .published :: bannerParts

theorem keeps_phaseEdge : Keeps phaseParts c (c.phaseEdge w m) := by
  unfold phaseEdge
  dsimp only
  split
  · exact (keeps_bindAll.mono (by decide)).trans (keeps_enter.mono (by decide))
  · exact keeps_enter.mono (by decide)
  · exact ((keeps_sendCSShop.mono (by decide)).trans (keeps_giveLoadout.mono (by decide))).trans
      (keeps_enterPrepare.mono (by decide))
  · exact (Frame.refl c).broadcastData.trans (keeps_tearDown.mono (by decide))
  · refine Frame.ite (fun _ => ?_) fun _ => Frame.ite (fun _ => ?_) fun _ => ?_
    · exact keeps_startFight.mono (by decide)
    · exact (keeps_spawnFallbackBot.mono (by decide)).trans (keeps_startBuyPhase.mono (by decide))
    · exact keeps_enterCancel.mono (by decide)
  · exact Frame.refl c
  · refine Frame.trans (Frame.onMatch (keeps_matchEnd.mono (by decide)) fun x => ?_)
      (keeps_enter.mono (by decide))
    cases x <;> first | exact Or.inr fun _ => rfl | exact Or.inl (by decide)
  · exact keeps_postBannerEdge.mono (by decide)
  · exact keeps_postReviveEdge.mono (by decide)
  · exact (keeps_openRound.mono (by decide)).broadcastData.trans (keeps_enter.mono (by decide))
  · exact (keeps_enter.mono (by decide)).trans (keeps_sendPull.mono (by decide))
  · exact keeps_enterPrepare.mono (by decide)
  · exact keeps_tearDown.mono (by decide)

theorem keeps_advancePhase : Keeps phaseParts c (c.advancePhase w m) :=
  Frame.ite
    (fun _ => Frame.ite (fun _ => keeps_endFight.mono (by decide)) fun _ => Frame.refl c)
    fun _ => Frame.ite (fun _ => keeps_startBuyPhase.mono (by decide)) fun _ =>
      Frame.ite (fun _ => keeps_phaseEdge) fun _ => Frame.refl c

theorem keeps_sweepFrom {ps : List SessionId} :
    Keeps (.net :: leaveParts) c (sweepFrom m ps c) := by
  induction ps generalizing c with
  | nil => exact Frame.refl c
  | cons p ps ih =>
    refine Frame.ite (fun _ => ih) fun _ => Frame.ite (fun _ => Frame.trans ?_ ih) fun _ => ?_
    · refine (Frame.refl c).onSession fun x => ?_
      cases x <;> first | exact Or.inr fun _ => rfl | exact Or.inl (by decide)
    · have hgone : Keeps (.net :: leaveParts) c
          (if (c.ss p).disconnected then c
          else c.onSession p fun q => { q with disconnected := true, disconnectedAt := c.now }) := by
        refine Frame.ite (fun _ => Frame.refl c) fun _ => (Frame.refl c).onSession fun x => ?_
        cases x <;> first | exact Or.inr fun _ => rfl | exact Or.inl (by decide)
      exact Frame.ite (fun _ => hgone.trans (keeps_removePlayer.mono (by decide)))
        fun _ => hgone.trans ih

theorem keeps_sweepDisconnects : Keeps (.net :: leaveParts) c (c.sweepDisconnects m) :=
  keeps_sweepFrom

theorem keeps_streamSweep {before : CsPhase} :
    Keeps [.walls, .zone] c (c.streamSweep m before) := by
  refine Frame.ite (fun _ => ?_) fun _ => Frame.refl c
  refine Frame.onMatch (keeps_sweepWalls.mono (by decide)) fun x => ?_
  cases x <;> first | exact Or.inr fun _ => rfl | exact Or.inl (by decide)

theorem keeps_stepPlayer {p : SessionId} : Keeps [.body, .hp, .kit] c (stepPlayer c p) :=
  ((keeps_stepHeal.mono (by decide)).trans (keeps_stepEP.mono (by decide))).trans
    (keeps_stepHealChannel.mono (by decide))

theorem keeps_stopLoop : Keeps [.run, .registry] c (c.stopLoop m) := by
  refine Frame.trans ((Frame.refl c).onMatch fun x => ?_) (keeps_reap.mono (by decide))
  cases x <;> first | exact Or.inr fun _ => rfl | exact Or.inl (by decide)

def sweepParts : List Part := .net :: .roster :: phaseParts

def tickParts : List Part := .run :: .registry :: sweepParts

-- What follows the turn of the phase machine within a tick.
def afterParts : List Part := .net :: .roster :: .walls :: .zone :: .flags :: combatParts

theorem keeps_after (h : (c.ms m).players ≠ []) :
    Keeps afterParts (c.advancePhase w m) (c.tick w m) := by
  unfold tick
  rw [if_neg h]
  refine Frame.trans ?_ (Frame.foldl (fun _ _ => keeps_stepPlayer.mono (by decide)) _ _)
  refine Frame.trans (Frame.trans (Frame.trans ?_ (keeps_stepKnock.mono (by decide)))
    (keeps_stepRescue.mono (by decide))) (keeps_stepFlags.mono (by decide))
  exact Frame.trans (Frame.trans (keeps_streamSweep.mono (by decide))
    (keeps_stepZone.mono (by decide))) (keeps_sweepDisconnects.mono (by decide))

theorem keeps_tick : Keeps tickParts c (c.tick w m) := by
  by_cases hp : (c.ms m).players = []
  · unfold tick
    rw [if_pos hp]
    exact keeps_stopLoop.mono (by decide)
  · exact (keeps_advancePhase.mono (by decide)).trans ((keeps_after hp).mono (by decide))

end Core

end MatchServer

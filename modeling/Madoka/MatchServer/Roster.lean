import Madoka.MatchServer.Combat
import Madoka.MatchServer.Inventory

namespace MatchServer

open Lib

def maxPlayers : Nat := 8

def botAccountID : Nat := 900000002

def botSpawnOffset : Int := 2

def defaultCSEvents : CsEvents := ⟨500, 200, 200, 900, 1500, 100⟩

def maxRound : Nat := 7

def roundsToWin : Nat := (maxRound + 1) / 2

def maxHP : Nat := 200

def zeroSettings : MatchSettings :=
  ⟨0, 0, [], 0, false, false, false, 0, 0, 0, 0, none, ⟨0, 0, 0, 0, 0, 0⟩⟩

def defaultMatchSettings : MatchSettings :=
  { zeroSettings with
    maxRound := maxRound
    roundsToWin := roundsToWin
    baseCoins := csRoundBaseCoins
    maxHP := maxHP
    events := defaultCSEvents }

def noPlayer : PlayerInfo := ⟨0, 0, "", 0, 0, noCosmetics, 0, 0, origin, origin⟩

def noArena : Arena := ⟨"", 0⟩

def zeroMatch : Match where
  s := 0
  players := []
  nextSlot := 0
  reserved := 0
  phase := .setupBind
  deadline := none
  pull := none
  revive := false
  matchWon := false
  winnerTeam := 0
  loop := .idle
  lastStream := none
  done := false
  round := 0
  teamScore := (0, 0)
  lossStreak := (0, 0)
  firstBlood := 0
  reseedCount := 0
  lastReseed := 0
  wheelKicked := false
  settings := zeroSettings
  matchStart := 0
  tpSeq := 0
  arena := noArena
  bot := noPlayer
  botEntity := 0
  hp := ∅
  kills := ∅
  deaths := ∅
  damage := ∅
  walls := []
  wallSeq := 0
  containers := ∅
  nextContainerID := 0
  flags := ∅
  flagSeq := 0
  zoneOn := false
  zoneCenter := origin
  zoneOuterR := 0
  zoneWaitEnd := 0
  zoneShrink := false
  zoneShrinkStart := 0
  zoneLastDmg := 0
  life := ∅
  knock := ∅
  rescues := ∅
  lastTeamFell := 0
  roundOver := false
  ended := false
  started := false
  tearingDown := false
  revived := []
  arenasUsed := []
  deeds := []

-- 100 times the multiplier, rounded; the default speed is left out.
def percentScale (mul : Float) : Nat :=
  if 0 < mul then
    let v := (mul * 100 + 0.5).toUInt64.toNat % 65536
    if v = 100 then 0 else v
  else 0

def overlay (wire : WireSettings) (settings : MatchSettings) : MatchSettings where
  maxRound := if 0 < wire.roundCount then wire.roundCount else settings.maxRound
  roundsToWin := if 0 < wire.roundCount then (wire.roundCount.val + 1) % 256 / 2 else settings.roundsToWin
  baseCoins := if wire.economy ≠ [] then wire.economy else settings.baseCoins
  maxHP := if 0 < wire.maxHP then wire.maxHP else settings.maxHP
  noLoadout := settings.noLoadout || (wire.flags.lookup "noLoadout").getD false
  isCustom := settings.isCustom
  unlimitedAmmo := settings.unlimitedAmmo || (wire.flags.lookup "unlimitedAmmo").getD false
  speedScale := percentScale wire.speedMul
  jumpScale := percentScale wire.jumpMul
  roomSetting := wire.roomSetting
  roomSetting2 := wire.roomSetting2
  shopItems := if wire.shopItems ≠ [] then some wire.shopItems else settings.shopItems
  events := wire.events.getD settings.events

-- A key that is there but does not parse leaves the defaults of a custom room.
def loadMatchSettings (w : World) (mid : Nat) : MatchSettings :=
  if w.cfg.bus = false ∨ mid = 0 then defaultMatchSettings
  else
    match w.settings mid with
    | none => defaultMatchSettings
    | some none => { defaultMatchSettings with isCustom := true }
    | some (some wire) => overlay wire { defaultMatchSettings with isCustom := true }

def botPlayer (w : World) (local_ : PlayerInfo) (entity : Nat) : PlayerInfo :=
  let pos : Vec3 := ⟨local_.spawnPos.x + local_.spawnFace.x * botSpawnOffset, local_.spawnPos.y,
    local_.spawnPos.z + local_.spawnFace.z * botSpawnOffset⟩
  { noPlayer with
    accountID := botAccountID
    entityID := entity
    name := "BOT"
    spawnPos := pos
    spawnFace := w.faceToward pos local_.spawnPos }

def Match.canAdmit (g : Match) : Bool :=
  !g.ended && !g.started && decide (g.reserved < maxPlayers)

namespace Core

variable (w : World) (c : Core) (s : SessionId) (m : MatchRef)

def placed (pos face : Vec3) (p : Session) : Session :=
  { p with player := { p.player with spawnPos := pos, spawnFace := face } }

-- The team byte of allocSlot.
def allocTeam (prefer : Nat) : Nat :=
  if prefer = 1 ∨ prefer = 2 then prefer
  else if ((c.ms m).players.countP fun p => (c.ss p).team == 2) <
      ((c.ms m).players.countP fun p => (c.ss p).team == 1) then 2
  else 1

def addPlayer : Core :=
  let team := c.allocTeam m (c.ss s).player.preferTeam
  let slot := ((c.ms m).nextSlot + 1) % 256
  let idx := ((c.ms m).players.countP fun p => (c.ss p).team == team) % 256
  let entity := team * 2 ^ 24 + slot
  let c := c.onSession s fun p => { p with
    entityID := entity
    repID := (playerRepID + slot + (2 ^ 32 - 1)) % 2 ^ 32
    faction := (team + 255) % 256
    team := team
    slot := slot
    player := { p.player with entityID := entity, teamIdx := idx } }
  c.onMatch m fun g => { g with nextSlot := slot, players := g.players ++ [s] }

def chooseArena : Arena × List Arena :=
  let used := (c.ms m).arenasUsed
  let available := w.allArenas.filter fun a => decide (a ∉ used)
  if available = [] then (w.allArenas.getD (c.pick % w.allArenas.length) noArena, [])
  else (available.getD (c.pick % available.length) noArena, used)

def setupMatch : Core :=
  let (arena, used) :=
    if w.cfg.fixedSpawn.isSome then (noArena, (c.ms m).arenasUsed) else c.chooseArena w m
  let c := c.onMatch m fun g => { g with arena := arena, arenasUsed := arena :: used }
  let c := c.addPlayer s m
  let c :=
    match w.cfg.fixedSpawn with
    | some spawn => c.onSession s (placed spawn.1 spawn.2)
    | none =>
      let spawn := w.spawnFor arena (c.ss s).faction
      c.onSession s fun p => { placed spawn.1 spawn.2 p with playerPos := spawn.1 }
  c.onMatch m fun g => { g with
    round := 1
    nextSlot := (g.nextSlot + 1) % 256
    botEntity := 0 }

def bindPRIs (p : SessionId) : Core :=
  let others := (c.ms m).players.filter fun q => decide (q ≠ p)
  let bot := if (c.ms m).botEntity ≠ 0 then [(1001, (c.ms m).botEntity)] else []
  c.send p (.bindPRI ((p :: others).map (fun q => ((c.ss q).repID, (c.ss q).entityID)) ++ bot))

def bindAll : Core :=
  (c.ms m).players.foldl (fun c p => c.bindPRIs m p) c

def broadcastZoneIndex : Core :=
  c.broadcastData m (.zoneIndex (c.ms m).arena.zoneID
    ((c.ms m).players.map fun p => ((c.ss p).entityID, (c.ss p).faction)))

def startCSMatch : Core :=
  if (c.ss s).syncStarted then c
  else
    let c := c.onSession s fun p => { p with syncStarted := true }
    c.withMatch s fun m => c.onMatch m fun g => { g with loop := .spawned }

def joinRes : Core :=
  (c.send s (.joinMatchRes (c.ms m).settings.roomSetting (c.ms m).settings.roomSetting2)).send s
    (.playerJoin (c.ss s).player)

def admitFirst : Core :=
  let settings := loadMatchSettings w (c.ss s).player.matchID
  let c := c.onMatch m fun g => { g with settings := settings }
  let c := c.setupMatch w s m
  let c := (c.joinRes s m).send s .joinMatchFinished
  (c.broadcastZoneIndex m).startCSMatch s

def retireBot : Core :=
  let bot := (c.ms m).botEntity
  if bot = 0 then c
  else
    let c := (c.broadcastData m (.playerDead bot 0 0 0 0 0 (c.ms m).bot.spawnPos true
      false)).onMatch m fun g => { g with
        botEntity := 0
        hp := g.hp.erase bot
        life := g.life.erase bot
        kills := g.kills.erase bot
        deaths := g.deaths.erase bot
        damage := g.damage.erase bot }
    c.tally m

def admitLater : Core :=
  c.withMatch s fun _ =>
    let c := c.addPlayer s m
    let spawn := w.spawnFor (c.ms m).arena (c.ss s).faction
    let c := c.onSession s fun p => { placed spawn.1 spawn.2 p with playerPos := spawn.1 }
    let c := c.onMatch m fun g => { g with
      hp := g.hp.insert (c.ss s).entityID g.settings.maxHP
      life := g.life.insert (c.ss s).entityID .alive }
    let c := c.note m (.seated (c.ss s).entityID)
    let c := c.retireBot m
    let others := (c.ms m).players.filter fun p => decide (p ≠ s)
    let c := others.foldl (fun c p => c.send s (.playerJoin (c.ss p).player)) (c.joinRes s m)
    let c := others.foldl (fun c p =>
      (c.send s (c.syncInventory p ((c.ss p).kit.clientUIDs.entries.map fun e => e.2) [])).resendEquipTo p s) c
    let c := others.foldl (fun c p => c.send p (.playerJoin (c.ss s).player))
      (c.send s .joinMatchFinished)
    ((c.bindAll m).giveLoadout w s true).sendCSShop s

def removePlayer : Core :=
  let e := (c.ss s).entityID
  if c.sessionByEntity m e = none then c
  else
    let c := c.broadcastData m (.playerQuit e)
    let c := c.emitDeath m e 0 1 0 0 2 (c.deathPos m e) false false
    let c := c.onMatch m fun g =>
      let kept := g.players.filter fun p => decide (p ≠ s)
      { g with
        players := kept
        s := if g.s = s then kept.headD g.s else g.s
        hp := g.hp.erase e
        life := g.life.erase e
        knock := g.knock.erase e }
    (c.tally m).repointSpectators m e 0

-- A match in a fresh reference, which holds the zero Match.
def newMatch : MatchRef × Core :=
  let ref := c.nextRef
  let c := { c with nextRef := ref + 1 }
  let c := c.onMatch ref fun g => { g with s := s }
  (ref, c.onSession s fun p => { p with matchRef := some ref })

def register : Core :=
  { c with live := c.live ++ [m] }.onMatch m fun g => { g with reserved := g.reserved + 1 }

-- The part of join under the manager's lock: the match the player goes to, and whether it is new.
def pickMatch : (MatchRef × Bool) × Core :=
  match c.live.find? fun m => (c.ms m).canAdmit with
  | some m => ((m, false), c.onMatch m fun g => { g with reserved := g.reserved + 1 })
  | none =>
    let (m, c) := c.newMatch s
    ((m, true), c.register m)

def admitSession (fresh : Bool) : Core :=
  let c := c.onSession s fun p => { p with matchRef := some m }
  if fresh then c.admitFirst w s m
  else (c.onSession s fun p => { p with syncStarted := true }).enqueue m (.admitLater s)

def reap : Core :=
  { c with live := c.live.filter fun r => decide (r ≠ m) }

variable {w : World} {c : Core} {s : SessionId} {m : MatchRef}

theorem keeps_addPlayer : Keeps [.seat, .slots, .roster] c (c.addPlayer s m) := by
  unfold addPlayer
  dsimp only
  refine Frame.onMatch (Frame.onSession (Frame.refl c) fun x => ?_) fun x => ?_
  all_goals cases x <;> first | exact Or.inr fun _ => rfl | exact Or.inl (by decide)

theorem keeps_placed {pos face : Vec3} : Keeps [.body] c (c.onSession s (placed pos face)) := by
  refine (Frame.refl c).onSession fun x => ?_
  cases x <;> first | exact Or.inr fun _ => rfl | exact Or.inl (by decide)

theorem keeps_spawned {pos face : Vec3} :
    Keeps [.body] c (c.onSession s fun p => { placed pos face p with playerPos := pos }) := by
  refine (Frame.refl c).onSession fun x => ?_
  cases x <;> first | exact Or.inr fun _ => rfl | exact Or.inl (by decide)

theorem keeps_setupMatch :
    Keeps [.seat, .slots, .roster, .body, .bot, .phase, .result] c (c.setupMatch w s m) := by
  unfold setupMatch
  generalize (if w.cfg.fixedSpawn.isSome then (noArena, (c.ms m).arenasUsed)
    else c.chooseArena w m) = chosen
  obtain ⟨arena, used⟩ := chosen
  have harena : Keeps [.seat, .slots, .roster, .body, .bot, .phase, .result] c
      (c.onMatch m fun g => { g with arena := arena, arenasUsed := arena :: used }) := by
    refine (Frame.refl c).onMatch fun x => ?_
    cases x <;> first | exact Or.inr fun _ => rfl | exact Or.inl (by decide)
  have hadd := harena.trans (keeps_addPlayer (s := s) (m := m) |>.mono (by decide))
  refine Frame.onMatch ?_ fun x => ?_
  · split
    · exact hadd.trans (keeps_placed.mono (by decide))
    · exact hadd.trans (keeps_spawned.mono (by decide))
  · cases x <;> first | exact Or.inr fun _ => rfl | exact Or.inl (by decide)

theorem keeps_bindPRIs {p : SessionId} : Keeps [] c (c.bindPRIs m p) :=
  (Frame.refl c).send

theorem keeps_bindAll : Keeps [] c (c.bindAll m) :=
  Frame.foldl (fun _ _ => keeps_bindPRIs) _ _

theorem keeps_startCSMatch : Keeps [.seat, .run] c (c.startCSMatch s) := by
  refine Frame.ite (fun _ => Frame.refl c) fun _ => ?_
  have hs : Keeps [.seat, .run] c (c.onSession s fun p => { p with syncStarted := true }) := by
    refine (Frame.refl c).onSession fun x => ?_
    cases x <;> first | exact Or.inr fun _ => rfl | exact Or.inl (by decide)
  refine hs.trans (Frame.withMatch fun m => (Frame.refl _).onMatch fun x => ?_)
  cases x <;> first | exact Or.inr fun _ => rfl | exact Or.inl (by decide)

theorem keeps_joinRes : Keeps [] c (c.joinRes s m) := (Frame.refl c).send.send

theorem keeps_admitFirst :
    Keeps [.settings, .seat, .slots, .roster, .body, .bot, .phase, .result, .run] c
      (c.admitFirst w s m) := by
  unfold admitFirst
  refine Frame.trans (Frame.broadcastData ?_) (keeps_startCSMatch.mono (by decide))
  refine Frame.send (Frame.trans (Frame.trans ?_ (keeps_setupMatch.mono (by decide)))
    (keeps_joinRes.mono (by decide)))
  refine (Frame.refl c).onMatch fun x => ?_
  cases x <;> first | exact Or.inr fun _ => rfl | exact Or.inl (by decide)

theorem keeps_retireBot : Keeps [.bot, .hp, .life, .score, .deeds] c (c.retireBot m) := by
  unfold retireBot
  refine Frame.ite (fun _ => Frame.refl c) fun _ => ?_
  refine Frame.note ((Frame.refl c).broadcastData.onMatch fun x => ?_) (by decide)
  cases x <;> first | exact Or.inr fun _ => rfl | exact Or.inl (by decide)

def admitParts : List Part :=
  [.seat, .slots, .roster, .body, .hp, .life, .bot, .score, .kit, .ground, .deeds]

theorem admitLater_eq (hm : (c.ss s).matchRef ≠ none) :
    ∃ d, Keeps [.body, .hp, .life, .bot, .score, .deeds] (c.addPlayer s m) d ∧
      c.admitLater w s m = (d.giveLoadout w s true).sendCSShop s := by
  obtain ⟨m', hm'⟩ := Option.ne_none_iff_exists'.mp hm
  unfold admitLater withMatch
  simp only [hm']
  refine ⟨_, ?_, rfl⟩
  refine Frame.trans ?_ (keeps_bindAll.mono (by decide))
  refine Frame.trans (Frame.send ?_) (Frame.foldl (fun _ _ => (Frame.refl _).send) _ _)
  refine Frame.trans ?_ (Frame.foldl (fun _ _ => Frame.trans (Frame.refl _).send
    (keeps_resendEquipTo.mono (by decide))) _ _)
  refine Frame.trans (Frame.trans ?_ (keeps_joinRes.mono (by decide)))
    (Frame.foldl (fun _ _ => (Frame.refl _).send) _ _)
  refine Frame.trans (Frame.note ?_ (by decide)) (keeps_retireBot.mono (by decide))
  refine Frame.onMatch (keeps_spawned.mono (by decide)) fun x => ?_
  cases x <;> first | exact Or.inr fun _ => rfl | exact Or.inl (by decide)

theorem keeps_seated (hm : (c.ss s).matchRef ≠ none) :
    Keeps [.body, .hp, .life, .bot, .score, .kit, .ground, .deeds] (c.addPlayer s m)
      (c.admitLater w s m) := by
  obtain ⟨d, hd, heq⟩ := admitLater_eq (w := w) (m := m) hm
  rw [heq]
  exact ((hd.mono (by decide)).trans (keeps_giveLoadout.mono (by decide))).trans
    (keeps_sendCSShop.mono (by decide))

theorem keeps_admitLater : Keeps admitParts c (c.admitLater w s m) := by
  by_cases hm : (c.ss s).matchRef = none
  · unfold admitLater withMatch
    simp only [hm]
    exact Frame.refl c
  · exact (keeps_addPlayer.mono (by decide)).trans ((keeps_seated hm).mono (by decide))

def leaveParts : List Part := [.body, .roster, .hp, .life, .knock, .deeds]

theorem keeps_removePlayer : Keeps leaveParts c (c.removePlayer s m) := by
  refine Frame.ite (fun _ => Frame.refl c) fun _ => ?_
  refine Frame.trans (Frame.note (Frame.onMatch ?_ fun x => ?_) (by decide))
    (keeps_repointSpectators.mono (by decide))
  · exact (Frame.refl c).broadcastData.trans (keeps_emitDeath.mono (by decide))
  · cases x <;> first | exact Or.inr fun _ => rfl | exact Or.inl (by decide)

theorem keeps_registry {live : List MatchRef} {next : MatchRef} {admits : List Admission} :
    Keeps [.registry] c { c with live := live, nextRef := next, admits := admits } := by
  refine (Frame.refl c).trans fun x hx => ⟨fun m => x.sameMatch_refl _, fun s => x.sameSession_refl _, ?_⟩
  cases x
  case registry => exact absurd (by decide) hx
  all_goals rfl

theorem keeps_newMatch : Keeps [.registry, .roster, .seat] c (c.newMatch s).2 := by
  have hnext : Keeps [.registry, .roster, .seat] c { c with nextRef := c.nextRef + 1 } :=
    Frame.mono keeps_registry (by decide)
  unfold newMatch
  dsimp only
  refine Frame.onSession (hnext.onMatch fun x => ?_) fun x => ?_
  all_goals cases x <;> first | exact Or.inr fun _ => rfl | exact Or.inl (by decide)

theorem keeps_reserve :
    Keeps [.slots] c (c.onMatch m fun g => { g with reserved := g.reserved + 1 }) := by
  refine (Frame.refl c).onMatch fun x => ?_
  cases x <;> first | exact Or.inr fun _ => rfl | exact Or.inl (by decide)

theorem keeps_register : Keeps [.registry, .slots] c (c.register m) := by
  have hlive : Keeps [.registry] c { c with live := c.live ++ [m] } := keeps_registry
  exact (hlive.mono (by decide)).trans (keeps_reserve.mono (by decide))

theorem keeps_pickMatch : Keeps [.registry, .roster, .seat, .slots] c (c.pickMatch s).2 := by
  unfold pickMatch
  split
  · exact keeps_reserve.mono (by decide)
  · exact (keeps_newMatch.mono (by decide)).trans (keeps_register.mono (by decide))

theorem keeps_admitSession {fresh : Bool} :
    Keeps [.settings, .seat, .slots, .roster, .body, .bot, .phase, .result, .run, .posts] c
      (c.admitSession w s m fresh) := by
  have href : Keeps [.settings, .seat, .slots, .roster, .body, .bot, .phase, .result, .run, .posts] c
      (c.onSession s fun p => { p with matchRef := some m }) := by
    refine (Frame.refl c).onSession fun x => ?_
    cases x <;> first | exact Or.inr fun _ => rfl | exact Or.inl (by decide)
  refine Frame.ite (fun _ => href.trans (keeps_admitFirst.mono (by decide))) fun _ => ?_
  refine Frame.enqueue (href.onSession fun x => ?_) (by decide)
  cases x <;> first | exact Or.inr fun _ => rfl | exact Or.inl (by decide)

theorem keeps_reap : Keeps [.registry] c (c.reap m) := keeps_registry

end Core

end MatchServer

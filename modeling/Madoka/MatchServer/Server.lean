import Madoka.Lib.Run
import Madoka.MatchServer.Loop

namespace MatchServer

open Lib

def mailboxCap : Nat := 256

def noKit : Kit where
  coins := 0
  award := 0
  mushrooms := 0
  ep := 0
  epLast := 0
  uidCounter := 0
  clientUIDs := ∅
  weapons := none
  equipment := []
  itemOnHand := 0
  heldBeforeGloo := 0
  vestData := 0
  vestDur := 0
  helmetData := 0
  helmetDur := 0

-- The session of an address not heard from yet.
def newSession : Session where
  player := noPlayer
  matchRef := none
  joined := false
  syncStarted := false
  stopped := false
  prep439 := []
  entityID := 0
  repID := 0
  faction := 0
  team := 0
  slot := 0
  lastSeen := 0
  disconnected := false
  disconnectedAt := 0
  roundKills := 0
  kit := noKit
  healActive := false
  healStart := 0
  healApplied := 0
  healChanneling := false
  healChannelStart := 0
  observing := 0
  firing := false
  sighting := false
  playerPos := origin
  moveBody := []
  moveBase := 0

def Core.start : Core where
  ss := fun _ => newSession
  ms := fun _ => zeroMatch
  live := []
  nextRef := 0
  admits := []
  posts := []
  out := []
  published := []
  now := 0
  order := []
  pick := 0
  loop := none

-- loadConfig with nothing set but the bus.
def defaultConfig : Config where
  jwtSecret := "dev-match-secret-change-me"
  buyPhase := 10000000000
  holdPrepare := false
  fixedSpawn := none
  zoneTest := false
  unlimitedMoneyTest := false
  infiniteGloo := false
  noZone := false
  zoneStatic := false
  matchBot := false
  bus := true
  nodeID := "match-local"

-- Each of the three functions sends to the whole roster.
def broadcastFlow : RoundFlow where
  matchEnd := fun cfg c m => { c.publishResult cfg m with
    out := c.out ++ (c.ms m).players.map fun p =>
      (p, .matchEnd ((c.ss p).team == (c.ms m).winnerTeam)) }
  roundResult := fun c m winner => c.broadcastData m (.roundResult winner)
  respawnBot := fun c m =>
    let c := c.onMatch m fun g => { g with tpSeq := (g.tpSeq + 1) % 2 ^ 32 }
    let g := c.ms m
    { c with out := c.out ++ ((g.players.map fun p => (p, .playerJoin g.bot)) ++
      g.players.map fun p => (p, .teleport g.botEntity g.tpSeq g.bot.spawnPos g.bot.spawnFace)) }
  matchEnd_sends := fun cfg c m => by
    refine ⟨(c.ms m).players.map fun p => (p, .matchEnd ((c.ss p).team == (c.ms m).winnerTeam)),
      fun o ho => ?_, ?_⟩
    · obtain ⟨p, -, rfl⟩ := List.mem_map.mp ho
      exact ⟨_, rfl⟩
    · unfold Core.publishResult
      split <;> rfl
  roundResult_sends := fun c m winner => by
    refine ⟨_, fun o ho => ?_, rfl⟩
    obtain ⟨p, -, rfl⟩ := List.mem_map.mp ho
    exact ⟨winner, rfl⟩
  respawnBot_sends := fun c m => by
    refine ⟨((c.ms m).tpSeq + 1) % 2 ^ 32, _, fun o ho => ?_, rfl⟩
    rcases List.mem_append.mp ho with ho | ho
    all_goals obtain ⟨p, -, rfl⟩ := List.mem_map.mp ho
    · exact Or.inl ⟨_, rfl⟩
    · exact Or.inr ⟨_, _, _, _, rfl⟩

-- One arena, an empty shop and no token: the least that a server runs with.
def bareWorld : World where
  cfg := defaultConfig
  settings := fun _ => none
  hmac := fun _ _ => ""
  claims := fun _ => none
  shopItemByID := fun _ _ => none
  loadedMagFor := fun _ _ => 0
  skinForWeapon := fun _ _ => 0
  weaponAttachments := fun counter _ _ => ([], counter)
  allArenas := [⟨"", 0⟩]
  spawnFor := fun _ faction => (⟨1000 + 1000 * faction, 0, 0⟩, origin)
  faceToward := fun _ _ => origin
  zoneGeometry := fun _ => (origin, 1000000)
  outOfZone := fun _ _ _ => false
  zoneWaitDur := 60000000000
  zoneDamageEvery := 2000000000
  zoneDamage := 10
  nextArena := fun used _ => (⟨"", 0⟩, used)
  attachRes := fun _ _ => []
  roundFlow := broadcastFlow
  introReveal := 1000000000
  postToBlack := 1000000000
  postBlackHold := 1000000000

def jwtHeader : String := "eyJhbGciOiJIUzI1NiIsInR5cCI6IkpXVCJ9"

-- A token signed with the default secret, by its payload and its signature.
structure Token where
  payload : String
  signature : String
  claims : Claims

def bareClaims (accountID matchID team : Nat) : Claims := ⟨accountID, "", 0, matchID, team, none, 0⟩

-- The tokens of aid 10000001 for mid 7, on team 2, and of aid 10000002 for mid 8.
def hostToken : Token := ⟨"eyJhaWQiOjEwMDAwMDAxLCJtaWQiOjcsInRlYW0iOjJ9",
  "V7jSpFtFlhZiXf32AAQ5BvLfwPuWmRac63w9_f3S1g4", bareClaims 10000001 7 2⟩

def guestToken : Token := ⟨"eyJhaWQiOjEwMDAwMDAyLCJtaWQiOjh9",
  "OkdA3WgiAesipvDFzgKBD-ySGK1W_4nKlFIs1QVDk8M", bareClaims 10000002 8 0⟩

def Token.input (t : Token) : String := jwtHeader ++ "." ++ t.payload

def Token.bytes (t : Token) : List UInt8 :=
  (t.input ++ "." ++ t.signature).toList.map fun ch => UInt8.ofNat ch.toNat

-- The world where these two tokens verify, with a custom room behind mid 7.
def signedWorld : World :=
  { bareWorld with
    cfg := { defaultConfig with matchBot := true }
    settings := fun mid => if mid = 7 then some none else none
    hmac := fun secret text =>
      if secret = defaultConfig.jwtSecret then
        if text = hostToken.input then hostToken.signature
        else if text = guestToken.input then guestToken.signature
        else ""
      else ""
    claims := fun payload =>
      if payload = hostToken.payload then some hostToken.claims
      else if payload = guestToken.payload then some guestToken.claims
      else none }

-- cmd 440 with a token.
def joinWith (t : Token) : Packet := ⟨1, 440, 1, t.bytes⟩

-- cmd 440 without one.
def join : Packet := ⟨1, 440, 1, []⟩

structure Moment where
  now : Int
  order : List Nat
  pick : Nat
  deriving DecidableEq, Repr

inductive Action where
  | dispatch (s : SessionId) (p : Packet)
  | letIn (a : Admission)
  | start (m : MatchRef)
  | exec (m : MatchRef)
  | tick (m : MatchRef)
  | stop (m : MatchRef)
  deriving DecidableEq, Repr

structure Event where
  act : Action
  moment : Moment
  deriving DecidableEq, Repr

-- An event at which no map order and no random choice matters.
def event (now : Int) (act : Action) : Event := ⟨act, ⟨now, [], 0⟩⟩

def le32 (n : Nat) : List UInt8 :=
  [n, n / 2 ^ 8, n / 2 ^ 16, n / 2 ^ 24].map fun k => UInt8.ofNat (k % 256)

-- cmd 106, to the chest.
def damageReport (victim attacker dmg : Nat) : Packet :=
  ⟨1, 106, 1, le32 victim ++ (le32 dmg).take 2 ++ [0, 0, 0, 2] ++ le32 attacker⟩

-- cmd 142.
def rescueRequest (target : Nat) : Packet := ⟨1, 142, 1, le32 target ++ le32 0 ++ le32 0⟩

-- cmd 191.
def quitRequest : Packet := ⟨1, 191, 1, []⟩

-- The first player of match `m` joins, and its loop starts.
def opens (now : Int) (s : SessionId) (m : MatchRef) (p : Packet) : List Event :=
  [event now (.dispatch s p), event now (.letIn ⟨s, m, true, none⟩), event now (.start m)]

-- A player joins match `m` and sits down.
def joins (now : Int) (s : SessionId) (m : MatchRef) (p : Packet) : List Event :=
  [event now (.dispatch s p), event now (.letIn ⟨s, m, false, none⟩), event now (.exec m)]

-- The loop of match `m` handles a packet of one of its players.
def sends (now : Int) (s : SessionId) (m : MatchRef) (p : Packet) : List Event :=
  [event now (.dispatch s p), event now (.exec m)]

-- The ticks that take a new match to its first Fight.
def toFight (m : MatchRef) : List Event :=
  [event 1000000000 (.tick m), event 3000000000 (.tick m), event 7000000000 (.tick m),
    event 18000000000 (.tick m)]

namespace Core

variable (w : World) (c : Core) (s : SessionId) (m : MatchRef) (p : Packet)

-- The state at the beginning of a step; `out` and `posts` are what one step sends and enqueues.
def atMoment (t : Moment) (loop : Option MatchRef) : Core :=
  { c with
    posts := []
    out := []
    now := t.now
    order := t.order
    pick := t.pick
    loop := loop }

def touch : Core :=
  c.onSession s fun q => { q with lastSeen := c.now }

def ackIfReliable : Core :=
  if isReliable p.cmd p.sendOption then c.send s (.ack p.seqID) else c

def dispatch : Core :=
  let c := c.touch s
  match cmdOf p.cmd with
  | .ack => c
  | .ping => (c.ackIfReliable s p).handlePing s p
  | _ =>
    let c := c.ackIfReliable s p
    if (c.ss s).syncStarted then c.withMatch s fun m => c.enqueue m (.route s p)
    else c.route w s p

def runJob : Job → Core
  | .route s p => c.route w s p
  | .admitLater s => c.admitLater w s m
  | .resyncWalls s => c.resyncWalls s

def admission (a : Admission) : Core :=
  { c with admits := c.admits.erase a }.admitSession w a.s a.m a.fresh

end Core

structure Server where
  core : Core
  mail : MatchRef → List Job

namespace Server

def start : Server := ⟨Core.start, fun _ => []⟩

-- A full mailbox drops the handler.
def deliver (mail : MatchRef → List Job) (post : MatchRef × Job) : MatchRef → List Job :=
  if (mail post.1).length < mailboxCap then Function.update mail post.1 (mail post.1 ++ [post.2])
  else mail

def settle (c : Core) (mail : MatchRef → List Job) : Server :=
  ⟨c, c.posts.foldl deliver mail⟩

variable (w : World) (v : Server)

-- The receive goroutine of the session is inside a join.
def joining (s : SessionId) : Bool := v.core.admits.any fun a => a.s == s && a.loop == none

-- The loop of the match is up and not inside a join.
def free (m : MatchRef) : Bool :=
  (v.core.ms m).loop == .running && !v.core.admits.any fun a => a.loop == some m

def step (e : Event) : Option Server :=
  match e.act with
  | .dispatch s p =>
    if v.joining s then none
    else some (settle ((v.core.atMoment e.moment none).dispatch w s p) v.mail)
  | .letIn a =>
    if a ∈ v.core.admits then
      some (settle ((v.core.atMoment e.moment a.loop).admission w a) v.mail)
    else none
  | .start m =>
    if (v.core.ms m).loop = .spawned then
      some (settle ((v.core.atMoment e.moment (some m)).runStart w m) v.mail)
    else none
  | .exec m =>
    match v.mail m with
    | [] => none
    | job :: rest =>
      if v.free m then
        some (settle ((v.core.atMoment e.moment (some m)).runJob w m job)
          (Function.update v.mail m rest))
      else none
  | .tick m =>
    if v.free m then some (settle ((v.core.atMoment e.moment (some m)).tick w m) v.mail) else none
  | .stop m =>
    if v.free m && (v.core.ms m).done then
      some (settle ((v.core.atMoment e.moment (some m)).stopLoop m) v.mail)
    else none

def Step (v : Server) (e : Event) (v' : Server) : Prop := v.step w e = some v'

def routed : Action → Option (SessionId × Packet)
  | .dispatch s p =>
    if (v.core.ss s).syncStarted ∨ cmdOf p.cmd = .ack ∨ cmdOf p.cmd = .ping then none
    else some (s, p)
  | .exec m =>
    match v.mail m with
    | .route s p :: _ => some (s, p)
    | _ => none
  | _ => none

def processes (s : SessionId) (p : Packet) : Action → Prop
  | .dispatch s' p' => s' = s ∧ p' = p
  | .exec m => ∃ rest, v.mail m = .route s p :: rest
  | _ => False

inductive Fires (t : Moment) : Action → Server → Prop where
  | dispatch {s p} : v.joining s = false →
    Fires t (.dispatch s p) (settle ((v.core.atMoment t none).dispatch w s p) v.mail)
  | letIn {a} : a ∈ v.core.admits →
    Fires t (.letIn a) (settle ((v.core.atMoment t a.loop).admission w a) v.mail)
  | start {m} : (v.core.ms m).loop = .spawned →
    Fires t (.start m) (settle ((v.core.atMoment t (some m)).runStart w m) v.mail)
  | exec {m job rest} : v.mail m = job :: rest → v.free m = true →
    Fires t (.exec m) (settle ((v.core.atMoment t (some m)).runJob w m job)
      (Function.update v.mail m rest))
  | tick {m} : v.free m = true →
    Fires t (.tick m) (settle ((v.core.atMoment t (some m)).tick w m) v.mail)
  | stop {m} : v.free m = true → (v.core.ms m).done = true →
    Fires t (.stop m) (settle ((v.core.atMoment t (some m)).stopLoop m) v.mail)

variable {w : World} {v v' : Server}

theorem fires_of_step {e : Event} (h : v.Step w e v') : v.Fires w e.moment e.act v' := by
  obtain ⟨act, t⟩ := e
  unfold Step step at h
  cases act with
  | dispatch s p =>
    simp only [Option.ite_none_left_eq_some, Option.some.injEq] at h
    obtain ⟨hj, rfl⟩ := h
    exact .dispatch (by simpa using hj)
  | letIn a =>
    simp only [Option.ite_none_right_eq_some, Option.some.injEq] at h
    obtain ⟨ha, rfl⟩ := h
    exact .letIn ha
  | start m =>
    simp only [Option.ite_none_right_eq_some, Option.some.injEq] at h
    obtain ⟨hl, rfl⟩ := h
    exact .start hl
  | exec m =>
    dsimp only at h
    split at h
    · cases h
    · rename_i job rest hm
      simp only [Option.ite_none_right_eq_some, Option.some.injEq] at h
      obtain ⟨hf, rfl⟩ := h
      exact .exec hm hf
  | tick m =>
    simp only [Option.ite_none_right_eq_some, Option.some.injEq] at h
    obtain ⟨hf, rfl⟩ := h
    exact .tick hf
  | stop m =>
    simp only [Option.ite_none_right_eq_some, Option.some.injEq, Bool.and_eq_true] at h
    obtain ⟨⟨hf, hd⟩, rfl⟩ := h
    exact .stop hf hd

theorem step_of_fires {t : Moment} {act : Action} (h : v.Fires w t act v') :
    v.Step w ⟨act, t⟩ v' := by
  cases h with
  | dispatch hj => simp [Step, step, hj]
  | letIn ha => simp [Step, step, ha]
  | start hl => simp [Step, step, hl]
  | exec hm hf => simp [Step, step, hm, hf]
  | tick hf => simp [Step, step, hf]
  | stop hf hd => simp [Step, step, hf, hd]

end Server

namespace Core

variable {w : World} {c : Core} {s : SessionId} {m : MatchRef} {p : Packet} {t : Moment}
  {loop : Option MatchRef}

theorem keeps_atMoment : Keeps [.posts, .moment] c (c.atMoment t loop) := by
  refine (Frame.refl c).trans fun x hx =>
    ⟨fun m => x.sameMatch_refl _, fun s => x.sameSession_refl _, ?_⟩
  cases x
  case posts => exact absurd (by decide) hx
  case moment => exact absurd (by decide) hx
  all_goals rfl

theorem keeps_touch : Keeps [.net] c (c.touch s) := by
  refine (Frame.refl c).onSession fun x => ?_
  cases x <;> first | exact Or.inr fun _ => rfl | exact Or.inl (by decide)

theorem keeps_ackIfReliable : Keeps [] c (c.ackIfReliable s p) :=
  Frame.ite (fun _ => (Frame.refl c).send) fun _ => Frame.refl c

theorem dispatch_quiet (h : (c.ss s).syncStarted ∨ cmdOf p.cmd = .ack ∨ cmdOf p.cmd = .ping) :
    Keeps [.net, .posts] c (c.dispatch w s p) := by
  have htouch : Keeps [.net, .posts] c (c.touch s) := keeps_touch.mono (by decide)
  have hack : Keeps [.net, .posts] c ((c.touch s).ackIfReliable s p) :=
    htouch.trans (keeps_ackIfReliable.mono (by decide))
  have hsync : (((c.touch s).ackIfReliable s p).ss s).syncStarted = (c.ss s).syncStarted := by
    unfold ackIfReliable touch
    split <;> simp [onSession, send]
  unfold dispatch
  dsimp only
  split
  · exact htouch
  · exact hack.send
  · rename_i h1 h2
    rw [if_pos (by rw [hsync]; exact h.resolve_right (by tauto))]
    exact hack.trans (Frame.withMatch fun m => (Frame.refl _).enqueue (by decide))

theorem dispatch_routes (hs : ¬ (c.ss s).syncStarted) (h1 : cmdOf p.cmd ≠ .ack)
    (h2 : cmdOf p.cmd ≠ .ping) :
    c.dispatch w s p = ((c.touch s).ackIfReliable s p).route w s p := by
  have hsync : (((c.touch s).ackIfReliable s p).ss s).syncStarted = (c.ss s).syncStarted := by
    unfold ackIfReliable touch
    split <;> simp [onSession, send]
  unfold dispatch
  dsimp only
  split
  · exact absurd ‹_› h1
  · exact absurd ‹_› h2
  · rw [if_neg (by rw [hsync]; exact hs)]

end Core

namespace Server

variable {w : World} {v v' : Server} {e : Event} {s : SessionId} {p : Packet}

theorem processed (h : v.Step w e v') (hp : v.processes s p e.act) :
    Keeps [.net, .posts, .moment] v.core v'.core ∨
      ∃ c, Keeps [.net, .posts, .moment] v.core c ∧ v'.core = c.route w s p := by
  have hf := fires_of_step h
  obtain ⟨act, t⟩ := e
  dsimp only at hf hp
  cases hf with
  | @dispatch s' p' hj =>
    obtain ⟨rfl, rfl⟩ := hp
    have hat : Keeps [.net, .posts, .moment] v.core (v.core.atMoment t none) :=
      Core.keeps_atMoment.mono (by decide)
    by_cases hq : ((v.core.atMoment t none).ss s').syncStarted ∨ cmdOf p'.cmd = .ack ∨
        cmdOf p'.cmd = .ping
    · exact Or.inl (hat.trans ((Core.dispatch_quiet hq).mono (by decide)))
    · rw [not_or, not_or] at hq
      refine Or.inr ⟨_, ?_, Core.dispatch_routes hq.1 hq.2.1 hq.2.2⟩
      exact (hat.trans (Core.keeps_touch.mono (by decide))).trans
        (Core.keeps_ackIfReliable.mono (by decide))
  | @exec m job rest hm _ =>
    obtain ⟨rest', hr⟩ := hp
    rw [hm] at hr
    obtain ⟨rfl, -⟩ := List.cons.inj hr
    exact Or.inr ⟨_, Core.keeps_atMoment.mono (by decide), rfl⟩
  | letIn => exact absurd hp id
  | start => exact absurd hp id
  | tick => exact absurd hp id
  | stop => exact absurd hp id

end Server

end MatchServer

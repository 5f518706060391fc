import Madoka.Lib.Frame
import Madoka.MatchServer.World

namespace MatchServer

open Lib

-- The parts of the state that a handler may or may not touch.
inductive Part where
  | hp
  | life
  | knock
  | rescues
  | score
  | fell
  | walls
  | ground
  | flags
  | roster
  | slots
  | bot
  | phase
  | zone
  | result
  | run
  | over
  | lock
  | settings
  | reseed
  | identity
  | seat
  | token
  | net
  | kit
  | roundKills
  | body
  | registry
  | posts
  | published
  | deeds
  | moment
  deriving DecidableEq, Repr

def Part.sameMatch : Part → Match → Match → Prop
  | .hp, g, h => g.hp = h.hp
  | .life, g, h => g.life = h.life
  | .knock, g, h => g.knock = h.knock
  | .rescues, g, h => g.rescues = h.rescues
  | .score, g, h => (g.kills, g.deaths, g.damage, g.firstBlood) =
      (h.kills, h.deaths, h.damage, h.firstBlood)
  | .fell, g, h => (g.lastTeamFell, g.roundOver) = (h.lastTeamFell, h.roundOver)
  | .walls, g, h => (g.walls, g.wallSeq) = (h.walls, h.wallSeq)
  | .ground, g, h => (g.containers, g.nextContainerID) = (h.containers, h.nextContainerID)
  | .flags, g, h => (g.flags, g.flagSeq) = (h.flags, h.flagSeq)
  | .roster, g, h => (g.s, g.players) = (h.s, h.players)
  | .slots, g, h => (g.nextSlot, g.reserved) = (h.nextSlot, h.reserved)
  | .bot, g, h => (g.bot, g.botEntity) = (h.bot, h.botEntity)
  | .phase, g, h =>
    (g.phase, g.deadline, g.pull, g.revive, g.matchStart, g.tpSeq, g.arena, g.revived,
      g.arenasUsed) =
    (h.phase, h.deadline, h.pull, h.revive, h.matchStart, h.tpSeq, h.arena, h.revived,
      h.arenasUsed)
  | .zone, g, h =>
    (g.lastStream, g.zoneOn, g.zoneCenter, g.zoneOuterR, g.zoneWaitEnd, g.zoneShrink,
      g.zoneShrinkStart, g.zoneLastDmg) =
    (h.lastStream, h.zoneOn, h.zoneCenter, h.zoneOuterR, h.zoneWaitEnd, h.zoneShrink,
      h.zoneShrinkStart, h.zoneLastDmg)
  | .result, g, h =>
    (g.matchWon, g.winnerTeam, g.round, g.teamScore, g.lossStreak) =
    (h.matchWon, h.winnerTeam, h.round, h.teamScore, h.lossStreak)
  | .run, g, h => g.loop = h.loop
  | .over, g, h => (g.done, g.tearingDown) = (h.done, h.tearingDown)
  | .lock, g, h => (g.started, g.ended) = (h.started, h.ended)
  | .settings, g, h => g.settings = h.settings
  | .reseed, g, h => (g.reseedCount, g.lastReseed, g.wheelKicked) =
      (h.reseedCount, h.lastReseed, h.wheelKicked)
  | .deeds, g, h => g.deeds = h.deeds
  | _, _, _ => () = ()

def Part.sameSession : Part → Session → Session → Prop
  | .identity, p, q =>
    (p.player.accountID, p.player.name, p.player.role, p.player.matchID, p.player.cosmetics,
      p.player.preferTeam) =
    (q.player.accountID, q.player.name, q.player.role, q.player.matchID, q.player.cosmetics,
      q.player.preferTeam)
  | .seat, p, q =>
    (p.matchRef, p.joined, p.syncStarted, p.entityID, p.repID, p.faction, p.team, p.slot,
      p.player.entityID, p.player.teamIdx) =
    (q.matchRef, q.joined, q.syncStarted, q.entityID, q.repID, q.faction, q.team, q.slot,
      q.player.entityID, q.player.teamIdx)
  | .token, p, q => p.prep439 = q.prep439
  | .net, p, q => (p.lastSeen, p.disconnected, p.disconnectedAt, p.stopped) =
      (q.lastSeen, q.disconnected, q.disconnectedAt, q.stopped)
  | .kit, p, q => p.kit = q.kit
  | .roundKills, p, q => p.roundKills = q.roundKills
  | .body, p, q =>
    (p.player.spawnPos, p.player.spawnFace, p.healActive, p.healStart, p.healApplied,
      p.healChanneling, p.healChannelStart, p.observing, p.firing, p.sighting, p.playerPos,
      p.moveBody, p.moveBase) =
    (q.player.spawnPos, q.player.spawnFace, q.healActive, q.healStart, q.healApplied,
      q.healChanneling, q.healChannelStart, q.observing, q.firing, q.sighting, q.playerPos,
      q.moveBody, q.moveBase)
  | _, _, _ => () = ()

def Part.sameShared : Part → Core → Core → Prop
  | .registry, c, d => (c.live, c.nextRef, c.admits) = (d.live, d.nextRef, d.admits)
  | .posts, c, d => c.posts = d.posts
  | .published, c, d => c.published = d.published
  | .moment, c, d => (c.now, c.order, c.pick, c.loop) = (d.now, d.order, d.pick, d.loop)
  | _, _, _ => () = ()

theorem Part.sameMatch_refl (x : Part) (g : Match) : x.sameMatch g g := by
  cases x <;> rfl

theorem Part.sameMatch_trans {x : Part} {g h k : Match} (h1 : x.sameMatch g h)
    (h2 : x.sameMatch h k) : x.sameMatch g k := by
  cases x <;> exact Eq.trans h1 h2

theorem Part.sameSession_refl (x : Part) (p : Session) : x.sameSession p p := by
  cases x <;> rfl

theorem Part.sameSession_trans {x : Part} {p q r : Session} (h1 : x.sameSession p q)
    (h2 : x.sameSession q r) : x.sameSession p r := by
  cases x <;> exact Eq.trans h1 h2

theorem Part.sameShared_refl (x : Part) (c : Core) : x.sameShared c c := by
  cases x <;> rfl

theorem Part.sameShared_trans {x : Part} {c d e : Core} (h1 : x.sameShared c d)
    (h2 : x.sameShared d e) : x.sameShared c e := by
  cases x <;> exact Eq.trans h1 h2

theorem Part.match_ext {g h : Match} (hs : ∀ x : Part, x.sameMatch g h) : g = h := by
  have h1 := hs .hp
  have h2 := hs .life
  have h3 := hs .knock
  have h4 := hs .rescues
  have h5 := hs .score
  have h6 := hs .fell
  have h7 := hs .walls
  have h8 := hs .ground
  have h9 := hs .flags
  have h10 := hs .roster
  have h11 := hs .slots
  have h12 := hs .bot
  have h13 := hs .phase
  have h14 := hs .run
  have h15 := hs .lock
  have h16 := hs .settings
  have h17 := hs .reseed
  have h18 := hs .deeds
  have h19 := hs .zone
  have h20 := hs .result
  have h21 := hs .over
  cases g
  cases h
  simp only [Part.sameMatch, Prod.mk.injEq] at *
  simp_all

theorem Part.session_ext {p q : Session} (hs : ∀ x : Part, x.sameSession p q) : p = q := by
  have h1 := hs .identity
  have h2 := hs .seat
  have h3 := hs .token
  have h4 := hs .net
  have h5 := hs .kit
  have h6 := hs .roundKills
  have h7 := hs .body
  obtain ⟨⟨⟩⟩ := p
  obtain ⟨⟨⟩⟩ := q
  simp only [Part.sameSession, Prod.mk.injEq] at *
  simp_all

def parts : Parts Core Part where
  same := fun x c d => (∀ m, x.sameMatch (c.ms m) (d.ms m)) ∧
    (∀ s, x.sameSession (c.ss s) (d.ss s)) ∧ x.sameShared c d
  refl := fun x c => ⟨fun _ => x.sameMatch_refl _, fun _ => x.sameSession_refl _,
    x.sameShared_refl c⟩
  trans := fun h h' => ⟨fun m => Part.sameMatch_trans (h.1 m) (h'.1 m),
    fun s => Part.sameSession_trans (h.2.1 s) (h'.2.1 s), Part.sameShared_trans h.2.2 h'.2.2⟩

abbrev Keeps (F : List Part) (c d : Core) : Prop := Frame parts F c d

end MatchServer

namespace Lib.Frame

open MatchServer

variable {F : List Part} {c d : Core} {s : SessionId} {m : MatchRef}

theorem onMatch {f : Match → Match} (h : Keeps F c d)
    (hf : ∀ x, x ∈ F ∨ ∀ g, x.sameMatch g (f g)) : Keeps F c (d.onMatch m f) := by
  refine h.trans fun x hx => ⟨fun m' => ?_, fun s => x.sameSession_refl _, ?_⟩
  · have hs := (hf x).resolve_left hx
    by_cases hm : m' = m
    · subst hm
      simpa [Core.onMatch] using hs (d.ms m')
    · simpa [Core.onMatch, hm] using x.sameMatch_refl (d.ms m')
  · cases x <;> rfl

theorem note (h : Keeps F c d) (hF : .deeds ∈ F) {x : Deed} : Keeps F c (d.note m x) := by
  refine h.onMatch fun x => ?_
  cases x <;> first | exact Or.inr fun _ => rfl | exact Or.inl hF

theorem onSession {f : Session → Session} (h : Keeps F c d)
    (hf : ∀ x, x ∈ F ∨ ∀ p, x.sameSession p (f p)) : Keeps F c (d.onSession s f) := by
  refine h.trans fun x hx => ⟨fun m => x.sameMatch_refl _, fun s' => ?_, ?_⟩
  · have hs := (hf x).resolve_left hx
    by_cases hm : s' = s
    · subst hm
      simpa [Core.onSession] using hs (d.ss s')
    · simpa [Core.onSession, hm] using x.sameSession_refl (d.ss s')
  · cases x <;> rfl

theorem onKit {f : Kit → Kit} (h : Keeps F c d) (hF : .kit ∈ F) : Keeps F c (d.onKit s f) := by
  refine h.onSession fun x => ?_
  cases x <;> first | exact Or.inr fun _ => rfl | exact Or.inl hF

theorem of_out {d d' : Core} (h : Keeps F c d) (hs : d'.ss = d.ss) (hm : d'.ms = d.ms)
    (hl : d'.live = d.live) (hn : d'.nextRef = d.nextRef) (ha : d'.admits = d.admits)
    (hp : d'.posts = d.posts) (hr : d'.published = d.published)
    (ht : (d'.now, d'.order, d'.pick, d'.loop) = (d.now, d.order, d.pick, d.loop)) :
    Keeps F c d' := by
  refine h.trans fun x _ => ⟨fun m => ?_, fun s => ?_, ?_⟩
  · rw [hm]
    exact x.sameMatch_refl _
  · rw [hs]
    exact x.sameSession_refl _
  · cases x
    case registry => exact Prod.ext hl.symm (Prod.ext hn.symm ha.symm)
    case posts => exact hp.symm
    case published => exact hr.symm
    case moment => exact ht.symm
    all_goals rfl

theorem send (h : Keeps F c d) {msg : Msg} : Keeps F c (d.send s msg) :=
  h.of_out rfl rfl rfl rfl rfl rfl rfl rfl

theorem sends {kind : Msg → Prop} {e : Core} (h : Keeps F c d) (hs : d.Sends kind e) :
    Keeps F c e := by
  obtain ⟨out, -, rfl⟩ := hs
  exact h.of_out rfl rfl rfl rfl rfl rfl rfl rfl

theorem broadcastData (h : Keeps F c d) {msg : Msg} : Keeps F c (d.broadcastData m msg) :=
  h.of_out rfl rfl rfl rfl rfl rfl rfl rfl

theorem broadcastToOthers (h : Keeps F c d) {msg : Msg} :
    Keeps F c (d.broadcastToOthers s m msg) :=
  h.of_out rfl rfl rfl rfl rfl rfl rfl rfl

theorem withMatch {f : MatchRef → Core} (hf : ∀ m, Keeps F c (f m)) : Keeps F c (c.withMatch s f) := by
  unfold Core.withMatch
  split
  · exact hf _
  · exact Frame.refl c

theorem enqueue (h : Keeps F c d) (hF : .posts ∈ F) {job : Job} :
    Keeps F c (d.enqueue m job) := by
  refine h.trans fun x hx => ⟨fun m => x.sameMatch_refl _, fun s => x.sameSession_refl _, ?_⟩
  cases x
  case posts => exact absurd hF hx
  all_goals rfl

end Lib.Frame

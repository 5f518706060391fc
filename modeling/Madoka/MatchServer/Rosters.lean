import Madoka.MatchServer.Server

namespace MatchServer

open Lib

theorem players_of_keeps {F : List Part} {c d : Core} (h : Keeps F c d) (hF : Part.roster ∉ F)
    (m : MatchRef) : (d.ms m).players = (c.ms m).players :=
  (congrArg Prod.snd ((h _ hF).1 m)).symm

theorem settings_of_keeps {F : List Part} {c d : Core} (h : Keeps F c d) (hF : Part.settings ∉ F)
    (m : MatchRef) : (d.ms m).settings = (c.ms m).settings :=
  ((h _ hF).1 m).symm

theorem matchRef_of_keeps {F : List Part} {c d : Core} (h : Keeps F c d) (hF : Part.seat ∉ F)
    (s : SessionId) : (d.ss s).matchRef = (c.ss s).matchRef :=
  (congrArg Prod.fst ((h _ hF).2.1 s)).symm

theorem syncStarted_of_keeps {F : List Part} {c d : Core} (h : Keeps F c d) (hF : Part.seat ∉ F)
    (s : SessionId) : (d.ss s).syncStarted = (c.ss s).syncStarted :=
  (congrArg (fun i => i.2.2.1) ((h _ hF).2.1 s)).symm

theorem entityID_of_keeps {F : List Part} {c d : Core} (h : Keeps F c d) (hF : Part.seat ∉ F)
    (s : SessionId) : (d.ss s).entityID = (c.ss s).entityID :=
  (congrArg (fun i => i.2.2.2.1) ((h _ hF).2.1 s)).symm

theorem live_of_keeps {F : List Part} {c d : Core} (h : Keeps F c d) (hF : Part.registry ∉ F) :
    d.live = c.live :=
  (congrArg Prod.fst (h _ hF).2.2).symm

theorem nextRef_of_keeps {F : List Part} {c d : Core} (h : Keeps F c d)
    (hF : Part.registry ∉ F) : d.nextRef = c.nextRef :=
  (congrArg (fun i => i.2.1) (h _ hF).2.2).symm

theorem admits_of_keeps {F : List Part} {c d : Core} (h : Keeps F c d)
    (hF : Part.registry ∉ F) : d.admits = c.admits :=
  (congrArg (fun i => i.2.2) (h _ hF).2.2).symm

theorem posts_of_keeps {F : List Part} {c d : Core} (h : Keeps F c d) (hF : Part.posts ∉ F) :
    d.posts = c.posts :=
  ((h _ hF).2.2).symm

theorem published_of_keeps {F : List Part} {c d : Core} (h : Keeps F c d)
    (hF : Part.published ∉ F) : d.published = c.published :=
  ((h _ hF).2.2).symm

def offMatch : List Part :=
  [.identity, .seat, .token, .net, .kit, .roundKills, .body, .registry, .posts, .published,
    .moment]

theorem ms_of_keeps {F : List Part} {c d : Core} (h : Keeps F c d) (hF : F ⊆ offMatch)
    (m : MatchRef) : d.ms m = c.ms m := by
  refine (Part.match_ext fun x => ?_).symm
  by_cases hx : x ∈ F
  · have hoff := hF hx
    cases x <;> first | rfl | exact absurd hoff (by decide)
  · exact (h x hx).1 m

namespace Core

variable {w : World} {c : Core} {s : SessionId} {m : MatchRef} {p : Packet}

@[simp] theorem onMatch_ms (f : Match → Match) (m' : MatchRef) :
    (c.onMatch m f).ms m' = if m' = m then f (c.ms m) else c.ms m' := by
  simp [onMatch, Function.update_apply]

@[simp] theorem onMatch_ss (f : Match → Match) : (c.onMatch m f).ss = c.ss := rfl

@[simp] theorem onSession_ms (f : Session → Session) : (c.onSession s f).ms = c.ms := rfl

@[simp] theorem onSession_ss (f : Session → Session) (s' : SessionId) :
    (c.onSession s f).ss s' = if s' = s then f (c.ss s) else c.ss s' := by
  simp [onSession, Function.update_apply]

@[simp] theorem send_ms (msg : Msg) : (c.send s msg).ms = c.ms := rfl

@[simp] theorem send_ss (msg : Msg) : (c.send s msg).ss = c.ss := rfl

@[simp] theorem broadcastData_ms (msg : Msg) : (c.broadcastData m msg).ms = c.ms := rfl

@[simp] theorem broadcastData_ss (msg : Msg) : (c.broadcastData m msg).ss = c.ss := rfl

theorem players_addPlayer (m' : MatchRef) :
    ((c.addPlayer s m).ms m').players =
      if m' = m then (c.ms m).players ++ [s] else (c.ms m').players := by
  unfold addPlayer
  simp only [onMatch_ms, onSession_ms]
  split <;> rfl

theorem players_setupMatch (m' : MatchRef) :
    ((c.setupMatch w s m).ms m').players =
      if m' = m then (c.ms m).players ++ [s] else (c.ms m').players := by
  unfold setupMatch
  generalize (if w.cfg.fixedSpawn.isSome then (noArena, (c.ms m).arenasUsed)
    else c.chooseArena w m) = chosen
  obtain ⟨arena, used⟩ := chosen
  have hadd := players_addPlayer (c := c.onMatch m fun g =>
    { g with arena := arena, arenasUsed := arena :: used }) (s := s) (m := m) m'
  have harena : ∀ m', ((c.onMatch m fun g =>
      { g with arena := arena, arenasUsed := arena :: used }).ms m').players =
        (c.ms m').players := by
    intro m'
    simp only [onMatch_ms]
    split
    · rename_i h
      rw [h]
    · rfl
  rw [harena, harena] at hadd
  rw [← hadd]
  dsimp only
  simp only [onMatch_ms]
  split
  all_goals
    split <;> simp_all

theorem players_admitFirst (m' : MatchRef) :
    ((c.admitFirst w s m).ms m').players =
      if m' = m then (c.ms m).players ++ [s] else (c.ms m').players := by
  unfold admitFirst
  dsimp only
  rw [players_of_keeps keeps_startCSMatch (by decide)]
  have hsetup := players_setupMatch (w := w) (s := s) (m := m)
    (c := c.onMatch m fun g => { g with settings := loadMatchSettings w (c.ss s).player.matchID }) m'
  have hset : ∀ m', ((c.onMatch m fun g =>
      { g with settings := loadMatchSettings w (c.ss s).player.matchID }).ms m').players =
        (c.ms m').players := by
    intro m'
    simp only [onMatch_ms]
    split
    · rename_i h
      rw [h]
    · rfl
  rw [hset, hset] at hsetup
  exact hsetup

theorem players_newMatch (m' : MatchRef) : ((c.newMatch s).2.ms m').players = (c.ms m').players := by
  unfold newMatch
  simp only [onSession_ms, onMatch_ms]
  split
  · rename_i h
    rw [h]
  · rfl

theorem players_pickMatch (m' : MatchRef) :
    ((c.pickMatch s).2.ms m').players = (c.ms m').players := by
  unfold pickMatch
  split
  · exact players_of_keeps keeps_reserve (by decide) m'
  · dsimp only
    rw [players_of_keeps keeps_register (by decide), players_newMatch]

theorem players_handleHello (m' : MatchRef) :
    ((c.handleHello w s p).ms m').players =
      if m' = c.nextRef ∧ cmdOf p.cmd = .reconnect ∧ (c.ss s).matchRef = none then
        (c.ms m').players ++ [s]
      else (c.ms m').players := by
  unfold handleHello
  dsimp only
  by_cases h : cmdOf p.cmd = .reconnect ∧ (c.ss s).matchRef = none
  · rw [if_pos (by simpa using h)]
    change ((startCSMatch _ s).ms m').players = _
    rw [players_of_keeps keeps_startCSMatch (by decide), players_setupMatch]
    have hroster : ∀ m', ((register (((c.send s .helloRes).onSession s fun q => { q with
        player := if q.player.accountID = 0 then fallbackPlayer else q.player
        joined := true }).newMatch s).2 c.nextRef).ms m').players = (c.ms m').players := by
      intro m'
      rw [players_of_keeps keeps_register (by decide), players_newMatch]
      rfl
    have href : (((c.send s .helloRes).onSession s fun q => { q with
        player := if q.player.accountID = 0 then fallbackPlayer else q.player
        joined := true }).newMatch s).1 = c.nextRef := rfl
    rw [href]
    rw [hroster, hroster]
    by_cases hm : m' = c.nextRef
    · rw [if_pos hm, if_pos ⟨hm, h⟩, hm]
    · rw [if_neg hm, if_neg fun hh => hm hh.1]
  · rw [if_neg (by simpa using h), if_neg fun hh => h hh.2]
    rfl

theorem players_handleJoinMatchPost (m' : MatchRef) :
    ((c.handleJoinMatchPost w s p).ms m').players = (c.ms m').players := by
  unfold handleJoinMatchPost
  exact players_pickMatch m'

theorem players_removePlayer (m' : MatchRef) :
    ((c.removePlayer s m).ms m').players = (c.ms m').players ∨
      m' = m ∧ ((c.removePlayer s m).ms m').players = (c.ms m).players.filter fun p => decide (p ≠ s) := by
  unfold removePlayer
  dsimp only
  split
  · exact Or.inl rfl
  · rw [players_of_keeps keeps_repointSpectators (by decide),
      players_of_keeps keeps_tally (by decide)]
    have hdeath : ∀ pos, (((c.broadcastData m (.playerQuit (c.ss s).entityID)).emitDeath m
        (c.ss s).entityID 0 1 0 0 2 pos false false).ms m).players = (c.ms m).players :=
      fun pos => players_of_keeps ((Frame.refl c).broadcastData.trans keeps_emitDeath)
        (show Part.roster ∉ [Part.body] by decide) m
    simp only [onMatch_ms]
    split
    · rename_i h
      refine Or.inr ⟨h, ?_⟩
      dsimp only
      rw [hdeath]
    · refine Or.inl ?_
      exact players_of_keeps ((Frame.refl c).broadcastData.trans keeps_emitDeath)
        (show Part.roster ∉ [Part.body] by decide) m'

theorem players_handlePlayerQuit (m' : MatchRef) :
    ((c.handlePlayerQuit s).ms m').players = (c.ms m').players ∨
      ((c.handlePlayerQuit s).ms m').players = (c.ms m').players.filter fun p => decide (p ≠ s) := by
  unfold handlePlayerQuit withMatch
  dsimp only
  split
  · rename_i m _
    have hflag : ∀ e m', ((((c.onSession s fun q => { q with stopped := true }).send s
        .playerQuitRes).clearFlag m e).ms m').players = (c.ms m').players :=
      fun e m' => players_of_keeps keeps_clearFlag (by decide) m'
    refine Or.imp (fun h => h.trans (hflag _ m')) (fun h => ?_) (players_removePlayer m')
    rw [h.2, hflag, h.1]
  · exact Or.inl rfl

end Core

end MatchServer

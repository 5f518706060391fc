import Madoka.MatchServer.Causes
import Madoka.MatchServer.Seating

namespace MatchServer

open Lib

def Match.chairs (g : Match) : List SessionId × Nat × Nat × LoopState :=
  (g.players, g.nextSlot, g.reserved, g.loop)

def Session.card (p : Session) : Option MatchRef × Nat × Bool :=
  (p.matchRef, p.entityID, p.syncStarted)

namespace Core

variable {w : World} {c d e : Core} {s : SessionId} {m m' : MatchRef} {p : Packet} {F : List Part}

theorem chairs_of_keeps (h : Keeps F c d) (hF : ∀ x ∈ F, x ∉ [.roster, .slots, .run])
    (m : MatchRef) : (d.ms m).chairs = (c.ms m).chairs := by
  have h1 := (h .roster fun hm => hF _ hm (by decide)).1 m
  have h2 := (h .slots fun hm => hF _ hm (by decide)).1 m
  have h3 := (h .run fun hm => hF _ hm (by decide)).1 m
  simp only [Part.sameMatch, Prod.mk.injEq] at h1 h2 h3
  simp only [Match.chairs, h1, h2, h3]

theorem card_of_keeps (h : Keeps F c d) (hF : Part.seat ∉ F) (s : SessionId) :
    (d.ss s).card = (c.ss s).card := by
  have h1 := (h _ hF).2.1 s
  simp only [Part.sameSession, Prod.mk.injEq] at h1
  simp only [Session.card, h1]

theorem chairs_addPlayer (m' : MatchRef) : ((c.addPlayer s m).ms m').chairs =
    if m' = m then ((c.ms m).players ++ [s], ((c.ms m).nextSlot + 1) % 256, (c.ms m).reserved,
      (c.ms m).loop)
    else (c.ms m').chairs := by
  unfold addPlayer
  simp only [onMatch_ms, onSession_ms]
  split <;> rfl

theorem card_addPlayer (t : SessionId) : ((c.addPlayer s m).ss t).card =
    if t = s then ((c.ss s).matchRef, c.joinTeam s m * 2 ^ 24 + (c.field m).nextSlot,
      (c.ss s).syncStarted)
    else (c.ss t).card := by
  unfold addPlayer
  simp only [onMatch_ss, onSession_ss]
  split <;> rfl

theorem chairs_admitLater (hm : (c.ss s).matchRef ≠ none) (m' : MatchRef) :
    ((c.admitLater w s m).ms m').chairs =
      if m' = m then ((c.ms m).players ++ [s], ((c.ms m).nextSlot + 1) % 256, (c.ms m).reserved,
        (c.ms m).loop)
      else (c.ms m').chairs := by
  rw [chairs_of_keeps (keeps_seated hm) (by decide), chairs_addPlayer]

theorem card_admitLater (hm : (c.ss s).matchRef ≠ none) (t : SessionId) :
    ((c.admitLater w s m).ss t).card =
      if t = s then ((c.ss s).matchRef, c.joinTeam s m * 2 ^ 24 + (c.field m).nextSlot,
        (c.ss s).syncStarted)
      else (c.ss t).card := by
  rw [card_of_keeps (keeps_seated hm) (by decide), card_addPlayer]

theorem chairs_setupMatch (m' : MatchRef) : ((c.setupMatch w s m).ms m').chairs =
    if m' = m then ((c.ms m).players ++ [s], (((c.ms m).nextSlot + 1) % 256 + 1) % 256,
      (c.ms m).reserved, (c.ms m).loop)
    else (c.ms m').chairs := by
  unfold setupMatch
  generalize (if w.cfg.fixedSpawn.isSome then (noArena, (c.ms m).arenasUsed)
    else c.chooseArena w m) = chosen
  obtain ⟨arena, used⟩ := chosen
  have hadd := chairs_addPlayer (c := c.onMatch m fun g =>
    { g with arena := arena, arenasUsed := arena :: used }) (s := s) (m := m) m'
  have harena : ((c.onMatch m fun g =>
      { g with arena := arena, arenasUsed := arena :: used }).ms m').chairs = (c.ms m').chairs := by
    simp only [onMatch_ms]
    split
    · rename_i h
      rw [h]
      rfl
    · rfl
  have hplaced : ∀ d : Core, (∃ f, d = ((c.onMatch m fun g =>
      { g with arena := arena, arenasUsed := arena :: used }).addPlayer s m).onSession s f) →
      ((d.onMatch m fun g => { g with
        round := 1
        nextSlot := (g.nextSlot + 1) % 256
        botEntity := 0 }).ms m').chairs = if m' = m then ((c.ms m).players ++ [s],
          (((c.ms m).nextSlot + 1) % 256 + 1) % 256, (c.ms m).reserved, (c.ms m).loop)
        else (c.ms m').chairs := by
    rintro d ⟨f, rfl⟩
    simp only [onMatch_ms, onSession_ms]
    by_cases hm : m' = m
    · subst hm
      simp only [if_true, onMatch_ms, Match.chairs, Prod.mk.injEq] at hadd ⊢
      exact ⟨hadd.1, by rw [hadd.2.1], hadd.2.2.1, hadd.2.2.2⟩
    · rw [if_neg hm, if_neg hm]
      rw [if_neg hm, harena] at hadd
      exact hadd
  dsimp only
  split
  · exact hplaced _ ⟨_, rfl⟩
  · exact hplaced _ ⟨_, rfl⟩

theorem card_setupMatch (t : SessionId) : ((c.setupMatch w s m).ss t).card =
    if t = s then ((c.ss s).matchRef, c.joinTeam s m * 2 ^ 24 + (c.field m).nextSlot,
      (c.ss s).syncStarted)
    else (c.ss t).card := by
  unfold setupMatch
  generalize (if w.cfg.fixedSpawn.isSome then (noArena, (c.ms m).arenasUsed)
    else c.chooseArena w m) = chosen
  obtain ⟨arena, used⟩ := chosen
  have hteam : joinTeam (c.onMatch m fun g =>
      { g with arena := arena, arenasUsed := arena :: used }) s m = c.joinTeam s m := by
    simp only [joinTeam, allocTeam, onMatch_ms, onMatch_ss, if_true]
  have hslot : ((c.onMatch m fun g =>
      { g with arena := arena, arenasUsed := arena :: used }).field m).nextSlot =
      (c.field m).nextSlot := by
    simp [field, Match.view, Field.nextSlot]
  have hadd := card_addPlayer (c := c.onMatch m fun g =>
    { g with arena := arena, arenasUsed := arena :: used }) (s := s) (m := m) t
  rw [hteam, hslot] at hadd
  dsimp only [onMatch_ss] at hadd ⊢
  split
  · exact (card_of_keeps keeps_placed (by decide) t).trans hadd
  · exact (card_of_keeps keeps_spawned (by decide) t).trans hadd

theorem chairs_startCSMatch (hs : (c.ss s).syncStarted = false) (hm : (c.ss s).matchRef = some m)
    (m' : MatchRef) : ((c.startCSMatch s).ms m').chairs =
      if m' = m then ((c.ms m).players, (c.ms m).nextSlot, (c.ms m).reserved, .spawned)
      else (c.ms m').chairs := by
  unfold startCSMatch withMatch
  rw [if_neg (by simp [hs])]
  simp only [onSession_ss, if_true, hm, onMatch_ms, onSession_ms]
  split <;> rfl

theorem card_startCSMatch (hs : (c.ss s).syncStarted = false) (hm : (c.ss s).matchRef = some m)
    (t : SessionId) : ((c.startCSMatch s).ss t).card =
      if t = s then (some m, (c.ss s).entityID, true) else (c.ss t).card := by
  unfold startCSMatch withMatch
  rw [if_neg (by simp [hs])]
  simp only [onSession_ss, if_true, hm, onMatch_ss]
  split
  · simp [Session.card]
  · rfl

-- A first player up to the start of the loop.
def greeted (w : World) (c : Core) (s : SessionId) (m : MatchRef) : Core :=
  ((((c.onMatch m fun g =>
    { g with settings := loadMatchSettings w (c.ss s).player.matchID }).setupMatch w s m).joinRes
      s m).send s .joinMatchFinished).broadcastZoneIndex m

theorem admitFirst_eq : c.admitFirst w s m = (greeted w c s m).startCSMatch s := rfl

theorem chairs_greeted (m' : MatchRef) : ((greeted w c s m).ms m').chairs =
    if m' = m then ((c.ms m).players ++ [s], (((c.ms m).nextSlot + 1) % 256 + 1) % 256,
      (c.ms m).reserved, (c.ms m).loop)
    else (c.ms m').chairs := by
  have hquiet : Keeps [] ((c.onMatch m fun g =>
      { g with settings := loadMatchSettings w (c.ss s).player.matchID }).setupMatch w s m)
      (greeted w c s m) := (keeps_joinRes.send).broadcastData
  rw [chairs_of_keeps hquiet (by decide), chairs_setupMatch]
  simp only [onMatch_ms]
  split
  · rfl
  · rfl

theorem card_greeted (t : SessionId) : ((greeted w c s m).ss t).card =
    if t = s then ((c.ss s).matchRef, c.joinTeam s m * 2 ^ 24 + (c.field m).nextSlot,
      (c.ss s).syncStarted)
    else (c.ss t).card := by
  have hquiet : Keeps [] ((c.onMatch m fun g =>
      { g with settings := loadMatchSettings w (c.ss s).player.matchID }).setupMatch w s m)
      (greeted w c s m) := (keeps_joinRes.send).broadcastData
  have hteam : joinTeam (c.onMatch m fun g =>
      { g with settings := loadMatchSettings w (c.ss s).player.matchID }) s m = c.joinTeam s m := by
    simp only [joinTeam, allocTeam, onMatch_ms, onMatch_ss, if_true]
  have hslot : ((c.onMatch m fun g =>
      { g with settings := loadMatchSettings w (c.ss s).player.matchID }).field m).nextSlot =
      (c.field m).nextSlot := by
    simp [field, Match.view, Field.nextSlot]
  rw [card_of_keeps hquiet (by decide), card_setupMatch, hteam, hslot]
  rfl

theorem chairs_admitFirst (hs : (c.ss s).syncStarted = false) (hm : (c.ss s).matchRef = some m)
    (m' : MatchRef) : ((c.admitFirst w s m).ms m').chairs =
      if m' = m then ((c.ms m).players ++ [s], (((c.ms m).nextSlot + 1) % 256 + 1) % 256,
        (c.ms m).reserved, .spawned)
      else (c.ms m').chairs := by
  have hcard := @card_greeted w c s m s
  have hchairs := @chairs_greeted w c s m m
  rw [if_pos rfl] at hcard hchairs
  simp only [Session.card, Match.chairs, Prod.mk.injEq] at hcard hchairs
  rw [admitFirst_eq, chairs_startCSMatch (hcard.2.2.trans hs) (hcard.1.trans hm), chairs_greeted,
    hchairs.1, hchairs.2.1, hchairs.2.2.1]
  split <;> rfl

theorem card_admitFirst (hs : (c.ss s).syncStarted = false) (hm : (c.ss s).matchRef = some m)
    (t : SessionId) : ((c.admitFirst w s m).ss t).card =
      if t = s then (some m, c.joinTeam s m * 2 ^ 24 + (c.field m).nextSlot, true)
      else (c.ss t).card := by
  have hcard := @card_greeted w c s m s
  rw [if_pos rfl] at hcard
  simp only [Session.card, Prod.mk.injEq] at hcard
  rw [admitFirst_eq, card_startCSMatch (hcard.2.2.trans hs) (hcard.1.trans hm), card_greeted,
    hcard.2.1]
  split <;> rfl

theorem chairs_ownMatch (m' : MatchRef) : ((c.ownMatch s).ms m').chairs =
    if m' = c.nextRef then ((c.ms c.nextRef).players, (c.ms c.nextRef).nextSlot,
      (c.ms c.nextRef).reserved + 1, (c.ms c.nextRef).loop)
    else (c.ms m').chairs := by
  by_cases hm : m' = c.nextRef
  · subst hm
    simp [ownMatch, register, newMatch, onSession, onMatch, send, Match.chairs]
  · simp [ownMatch, register, newMatch, onSession, onMatch, send, Match.chairs, hm]

theorem card_ownMatch (t : SessionId) : ((c.ownMatch s).ss t).card =
    if t = s then (some c.nextRef, (c.ss s).entityID, (c.ss s).syncStarted) else (c.ss t).card := by
  by_cases ht : t = s
  · subst ht
    simp [ownMatch, register, newMatch, onSession, onMatch, send, Session.card]
  · simp [ownMatch, register, newMatch, onSession, onMatch, send, Session.card, ht]

theorem chairs_handleHello (hcmd : cmdOf p.cmd = .reconnect) (hm : (c.ss s).matchRef = none)
    (hs : (c.ss s).syncStarted = false) (m' : MatchRef) :
    ((c.handleHello w s p).ms m').chairs =
      if m' = c.nextRef then ((c.ms c.nextRef).players ++ [s],
        (((c.ms c.nextRef).nextSlot + 1) % 256 + 1) % 256, (c.ms c.nextRef).reserved + 1, .spawned)
      else (c.ms m').chairs := by
  have hown := @card_ownMatch c s s
  have hseat := @chairs_ownMatch c s c.nextRef
  have hcard := @card_setupMatch w (c.ownMatch s) s c.nextRef s
  have hchairs := @chairs_setupMatch w (c.ownMatch s) s c.nextRef c.nextRef
  rw [if_pos rfl] at hown hseat hcard hchairs
  simp only [Session.card, Match.chairs, Prod.mk.injEq] at hown hseat hcard hchairs
  rw [handleHello_eq hcmd hm]
  change ((((c.ownMatch s).setupMatch w s c.nextRef).startCSMatch s).ms m').chairs = _
  rw [chairs_startCSMatch (hcard.2.2.trans (hown.2.2.trans hs)) (hcard.1.trans hown.1),
    chairs_setupMatch, chairs_ownMatch, hchairs.1, hchairs.2.1, hchairs.2.2.1, hseat.1, hseat.2.1,
    hseat.2.2.1]
  split <;> rfl

theorem card_handleHello (hcmd : cmdOf p.cmd = .reconnect) (hm : (c.ss s).matchRef = none)
    (hs : (c.ss s).syncStarted = false) : ∃ team, (team = 1 ∨ team = 2) ∧ ∀ t,
    ((c.handleHello w s p).ss t).card =
      if t = s then (some c.nextRef, team * 2 ^ 24 + (c.field c.nextRef).nextSlot, true)
      else (c.ss t).card := by
  have hown := @card_ownMatch c s s
  have hcard := @card_setupMatch w (c.ownMatch s) s c.nextRef s
  rw [if_pos rfl] at hown hcard
  simp only [Session.card, Prod.mk.injEq] at hown hcard
  refine ⟨(c.ownMatch s).joinTeam s c.nextRef, joinTeam_cases, fun t => ?_⟩
  rw [handleHello_eq hcmd hm]
  change ((((c.ownMatch s).setupMatch w s c.nextRef).startCSMatch s).ss t).card = _
  rw [card_startCSMatch (hcard.2.2.trans (hown.2.2.trans hs)) (hcard.1.trans hown.1),
    card_setupMatch, card_ownMatch, hcard.2.1, field_ownMatch]
  split <;> rfl

structure Still (c d : Core) : Prop where
  card : ∀ s, (d.ss s).card = (c.ss s).card
  slot : ∀ m, (d.ms m).nextSlot = (c.ms m).nextSlot
  reserved : ∀ m, (d.ms m).reserved = (c.ms m).reserved
  idle : ∀ m, ((d.ms m).loop == .idle) = ((c.ms m).loop == .idle)
  crew : ∀ m, (d.ms m).players.Sublist (c.ms m).players
  next : d.nextRef = c.nextRef
  admits : d.admits = c.admits
  live : d.live ⊆ c.live

theorem Still.trans (h : Still c d) (h' : Still d e) : Still c e where
  card := fun s => (h'.card s).trans (h.card s)
  slot := fun m => (h'.slot m).trans (h.slot m)
  reserved := fun m => (h'.reserved m).trans (h.reserved m)
  idle := fun m => (h'.idle m).trans (h.idle m)
  crew := fun m => (h'.crew m).trans (h.crew m)
  next := h'.next.trans h.next
  admits := h'.admits.trans h.admits
  live := fun _ hm => h.live (h'.live hm)

theorem slots_of_keeps (h : Keeps F c d) (hF : Part.slots ∉ F) (m : MatchRef) :
    (d.ms m).nextSlot = (c.ms m).nextSlot ∧ (d.ms m).reserved = (c.ms m).reserved := by
  have hs := (h _ hF).1 m
  simp only [Part.sameMatch, Prod.mk.injEq] at hs
  exact ⟨hs.1.symm, hs.2.symm⟩

theorem still_of (h : Keeps F c d) (hF : ∀ x ∈ F, x ∉ [.seat, .slots])
    (hcrew : ∀ m, (d.ms m).players.Sublist (c.ms m).players)
    (hidle : ∀ m, ((d.ms m).loop == .idle) = ((c.ms m).loop == .idle))
    (hnext : d.nextRef = c.nextRef) (hadmits : d.admits = c.admits) (hlive : d.live ⊆ c.live) :
    Still c d :=
  ⟨card_of_keeps h fun hm => hF _ hm (by decide),
    fun m => (slots_of_keeps h (fun hm => hF _ hm (by decide)) m).1,
    fun m => (slots_of_keeps h (fun hm => hF _ hm (by decide)) m).2, hidle, hcrew, hnext, hadmits,
    hlive⟩

theorem loop_of_keeps (h : Keeps F c d) (hF : Part.run ∉ F) (m : MatchRef) :
    (d.ms m).loop = (c.ms m).loop :=
  ((h _ hF).1 m).symm

theorem still_of_keeps (h : Keeps F c d)
    (hF : ∀ x ∈ F, x ∉ [.seat, .slots, .roster, .run, .registry]) : Still c d := by
  refine still_of h (fun x hx hm => hF x hx ?_) (fun m => ?_) (fun m => ?_) ?_ ?_ ?_
  · simp only [List.mem_cons, List.not_mem_nil, or_false] at hm ⊢
    tauto
  · rw [players_of_keeps h fun hm => hF _ hm (by decide)]
  · rw [loop_of_keeps h fun hm => hF _ hm (by decide)]
  · exact nextRef_of_keeps h fun hm => hF _ hm (by decide)
  · exact admits_of_keeps h fun hm => hF _ hm (by decide)
  · rw [live_of_keeps h fun hm => hF _ hm (by decide)]
    exact fun _ hm => hm

theorem still_route (hjoin : cmdOf p.cmd ≠ .joinMatchPost)
    (hre : cmdOf p.cmd = .reconnect → (c.ss s).matchRef ≠ none) :
    Still c (c.route w s p) ∧ (c.route w s p).posts = c.posts := by
  have hk := @keeps_route w c s p
  unfold route at hk ⊢
  have hhello : (cmdOf p.cmd = .reconnect → (c.ss s).matchRef ≠ none) →
      Still c (c.handleHello w s p) ∧ (c.handleHello w s p).posts = c.posts := by
    intro hne
    have hsend : c.handleHello w s p = c.send s .helloRes := by
      unfold handleHello
      dsimp only
      rw [if_neg fun hh => hne hh.1 hh.2]
    rw [hsend]
    exact ⟨still_of_keeps (F := []) (Frame.refl c).send (by decide), rfl⟩
  cases hcmd : cmdOf p.cmd <;> rw [hcmd] at hk <;> dsimp only at hk ⊢
  case joinMatchPost => exact absurd hcmd hjoin
  case hello => exact hhello hre
  case reconnect => exact hhello hre
  case playerQuitReq =>
    refine ⟨still_of hk (by decide) (fun m => ?_) (fun m => ?_) ?_ ?_ ?_,
      posts_of_keeps hk (by decide)⟩
    · rcases @players_handlePlayerQuit c s m with h | h
      · rw [h]
      · rw [h]
        exact List.filter_sublist
    · rw [loop_of_keeps hk (by decide)]
    · exact nextRef_of_keeps hk (by decide)
    · exact admits_of_keeps hk (by decide)
    · rw [live_of_keeps hk (by decide)]
      exact fun _ hm => hm
  all_goals exact ⟨still_of_keeps hk (by decide), posts_of_keeps hk (by decide)⟩

theorem still_stopLoop (hrun : (c.ms m).loop = .running) : Still c (c.stopLoop m) := by
  have hk := @keeps_stopLoop c m
  refine still_of hk (by decide) (fun m' => ?_) (fun m' => ?_) rfl rfl ?_
  · rw [players_of_keeps hk (by decide)]
  · unfold stopLoop reap
    simp only [onMatch_ms]
    split
    · rename_i hm
      rw [hm, hrun]
      rfl
    · rfl
  · exact fun x hx => List.mem_of_mem_filter hx

theorem still_tick (hrun : (c.ms m).loop = .running) : Still c (c.tick w m) := by
  by_cases hp : (c.ms m).players = []
  · unfold tick
    rw [if_pos hp]
    exact still_stopLoop hrun
  · have hcrew := @sublist_tick w c m
    have hk : Keeps sweepParts c (c.tick w m) := by
      rw [tick_eq hp]
      exact (keeps_afterRescue.trans (keeps_stepFlags.mono (by decide))).trans
        (Frame.foldl (fun _ _ => keeps_stepPlayer.mono (by decide)) _ _)
    refine still_of hk (by decide) hcrew (fun m' => ?_) (nextRef_of_keeps hk (by decide))
      (admits_of_keeps hk (by decide)) ?_
    · rw [loop_of_keeps hk (by decide)]
    · rw [live_of_keeps hk (by decide)]
      exact fun _ hm => hm

theorem loop_runStart (m' : MatchRef) : ((c.runStart w m).ms m').loop =
    if m' = m then .running else (c.ms m').loop := by
  unfold runStart
  rw [loop_of_keeps keeps_enter (by decide), loop_of_keeps keeps_initHP (by decide)]
  simp only [onMatch_ms]
  split <;> rfl

theorem still_runStart (hl : (c.ms m).loop = .spawned) : Still c (c.runStart w m) := by
  have hk := @keeps_runStart w c m
  refine still_of hk (by decide) (fun m' => ?_) (fun m' => ?_) (nextRef_of_keeps hk (by decide))
    (admits_of_keeps hk (by decide)) ?_
  · rw [players_of_keeps hk (by decide)]
  · rw [loop_runStart]
    split
    · rename_i hm
      rw [hm, hl]
      rfl
    · rfl
  · rw [live_of_keeps hk (by decide)]
    exact fun _ hm => hm

end Core

namespace Server

open MatchServer.Core Seating

def seating (v : Server) : Seating where
  ref s := (v.core.ss s).matchRef
  entity s := (v.core.ss s).entityID
  synced s := (v.core.ss s).syncStarted
  crew m := (v.core.ms m).players
  slot m := (v.core.ms m).nextSlot
  reserved m := (v.core.ms m).reserved
  idle m := (v.core.ms m).loop == .idle
  live := v.core.live
  next := v.core.nextRef
  admits := v.core.admits
  mail := v.mail

variable {w : World} {v v' : Server} {e : Event} {c d : Core} {s : SessionId} {m : MatchRef}
  {p : Packet} {mail mail' : MatchRef → List Job}

theorem delivered (posts : List (MatchRef × Job)) (mail : MatchRef → List Job) (m : MatchRef) :
    ∃ l, (posts.foldl deliver mail m).Sublist (mail m ++ l) ∧ ∀ j ∈ l, (m, j) ∈ posts := by
  induction posts generalizing mail with
  | nil => exact ⟨[], by simp, by simp⟩
  | cons post posts ih =>
    obtain ⟨l, hsub, hl⟩ := ih (deliver mail post)
    by_cases hd : (mail post.1).length < mailboxCap ∧ m = post.1
    · obtain ⟨hlt, rfl⟩ := hd
      refine ⟨post.2 :: l, ?_, fun j hj => ?_⟩
      · simp only [List.foldl_cons]
        unfold deliver at hsub ⊢
        rw [if_pos hlt] at hsub ⊢
        simpa using hsub
      · rcases List.mem_cons.mp hj with rfl | hj
        · exact List.mem_cons_self
        · exact List.mem_cons_of_mem _ (hl j hj)
    · refine ⟨l, ?_, fun j hj => List.mem_cons_of_mem _ (hl j hj)⟩
      have hsame : deliver mail post m = mail m := by
        unfold deliver
        split
        · rename_i hlt
          exact Function.update_of_ne (fun hm => hd ⟨hlt, hm⟩) _ _
        · rfl
      rw [hsame] at hsub
      exact hsub

theorem calm_of {x : Seating} (hcard : ∀ s, (d.ss s).card = (x.ref s, x.entity s, x.synced s))
    (hslot : ∀ m, (d.ms m).nextSlot = x.slot m) (hreserved : ∀ m, (d.ms m).reserved = x.reserved m)
    (hidle : ∀ m, ((d.ms m).loop == .idle) = x.idle m)
    (hcrew : ∀ m, (d.ms m).players.Sublist (x.crew m)) (hnext : d.nextRef = x.next)
    (hadmits : d.admits = x.admits) (hlive : d.live ⊆ x.live)
    (hmail : ∀ m, (mail m).Sublist (x.mail m))
    (hposts : ∀ post ∈ d.posts, post.1 < x.next ∧ post.2.isLater = false ∧
      ∀ s p, post.2 = .route s p → x.ref s = some post.1) :
    Calm x (settle d mail).seating := by
  have h1 := fun s => (Prod.mk.injEq _ _ _ _).mp (hcard s)
  have h2 := fun s => (Prod.mk.injEq _ _ _ _).mp (h1 s).2
  refine ⟨funext fun s => (h1 s).1, funext fun s => (h2 s).1, funext fun s => (h2 s).2,
    funext hslot, funext hreserved, funext hidle, hnext, hadmits, hlive, hcrew, fun m => ?_⟩
  obtain ⟨l, hsub, hl⟩ := delivered d.posts mail m
  exact ⟨l, hsub.trans ((hmail m).append_right l), fun j hj => hposts _ (hl j hj)⟩

theorem calm_settle (h : Still c d) (hmail : ∀ m, (mail' m).Sublist (mail m))
    (hposts : ∀ post ∈ d.posts, post.1 < c.nextRef ∧ post.2.isLater = false ∧
      ∀ s p, post.2 = .route s p → (c.ss s).matchRef = some post.1) :
    Calm (seating ⟨c, mail⟩) (settle d mail').seating :=
  calm_of h.card h.slot h.reserved h.idle h.crew h.next h.admits h.live hmail hposts

theorem calm_settle_quiet (h : Still c d) (hmail : ∀ m, (mail' m).Sublist (mail m))
    (hposts : d.posts = []) : Calm (seating ⟨c, mail⟩) (settle d mail').seating :=
  calm_settle h hmail fun post hp => by simp [hposts] at hp

theorem settle_quiet (h : d.posts = []) : settle d mail = ⟨d, mail⟩ := by
  simp only [settle, h, List.foldl_nil]

theorem low_entity {team slot : Nat} (h : slot < 2 ^ 24) : low (team * 2 ^ 24 + slot) = slot := by
  unfold low
  omega

theorem handleJoinMatchPost_cases : (∃ m ∈ c.live, (c.ms m).canAdmit ∧
      c.handleJoinMatchPost w s p = { (c.onSession s fun q => { q with
        player := resolvePlayer w c.now (prepareToken q.prep439 p.payload)
        joined := true }).onMatch m fun g => { g with reserved := g.reserved + 1 } with
          admits := c.admits ++ [⟨s, m, false, c.loop⟩] }) ∨
    c.handleJoinMatchPost w s p = { ((c.onSession s fun q => { q with
        player := resolvePlayer w c.now (prepareToken q.prep439 p.payload)
        joined := true }).newMatch s).2.register c.nextRef with
          admits := c.admits ++ [⟨s, c.nextRef, true, c.loop⟩] } := by
  unfold handleJoinMatchPost pickMatch
  dsimp only
  split
  · rename_i m hm
    have hadmit := List.find?_some hm
    exact Or.inl ⟨m, List.mem_of_find?_eq_some hm, hadmit, rfl⟩
  · exact Or.inr rfl

theorem seats_pick (h : Seats (seating ⟨c, mail⟩)) (hposts : c.posts = [])
    (hloop : c.loop = none) (hs : (c.ss s).matchRef = none)
    (hj : s ∉ c.admits.map Admission.s) :
    Seats (settle (c.handleJoinMatchPost w s p) mail).seating := by
  rcases @handleJoinMatchPost_cases w c s p with ⟨m, hm, hadmit, heq⟩ | heq
  · rw [heq, hloop]
    simp only [Match.canAdmit, Bool.and_eq_true, decide_eq_true_eq] at hadmit
    refine (h.reserve hs hj (h.live m hm) hadmit.2).calm (calm_of (fun t => ?_) (fun m' => ?_)
      (fun m' => ?_) (fun m' => ?_) (fun m' => ?_) rfl rfl (fun _ hx => hx)
      (fun _ => List.Sublist.refl _) fun post hp => ?_)
    · simp only [onMatch_ss, onSession_ss]
      split
      · rename_i ht
        subst ht
        rfl
      · rfl
    · simp only [onMatch_ms, onSession_ms]
      split <;> simp_all [seating, Seating.reserve]
    · simp only [onMatch_ms, onSession_ms]
      split <;> simp_all [seating, Seating.reserve]
    · simp only [onMatch_ms, onSession_ms]
      split <;> simp_all [seating, Seating.reserve]
    · simp only [onMatch_ms, onSession_ms]
      split <;> simp_all [seating, Seating.reserve]
    · have hp' : post ∈ c.posts := hp
      simp [hposts] at hp'
  · rw [heq, hloop]
    refine (h.mint hs hj).calm (calm_of (fun t => ?_) (fun m' => ?_)
      (fun m' => ?_) (fun m' => ?_) (fun m' => ?_) rfl rfl (fun _ hx => hx)
      (fun _ => List.Sublist.refl _) fun post hp => ?_)
    · by_cases ht : t = s
      · subst ht
        simp [register, newMatch, onSession, onMatch, Session.card, seating, Seating.mint]
      · simp [register, newMatch, onSession, onMatch, Session.card, seating, Seating.mint, ht]
    · by_cases hm : m' = c.nextRef
      · subst hm
        simp [register, newMatch, onSession, onMatch, seating, Seating.mint]
      · simp [register, newMatch, onSession, onMatch, seating, Seating.mint, hm]
    · by_cases hm : m' = c.nextRef
      · subst hm
        simp [register, newMatch, onSession, onMatch, seating, Seating.mint]
      · simp [register, newMatch, onSession, onMatch, seating, Seating.mint, hm]
    · by_cases hm : m' = c.nextRef
      · subst hm
        simp [register, newMatch, onSession, onMatch, seating, Seating.mint]
      · simp [register, newMatch, onSession, onMatch, seating, Seating.mint, hm]
    · by_cases hm : m' = c.nextRef
      · subst hm
        simp [register, newMatch, onSession, onMatch, seating, Seating.mint]
      · simp [register, newMatch, onSession, onMatch, seating, Seating.mint, hm]
    · have hp' : post ∈ c.posts := hp
      simp [hposts] at hp'

theorem handleHello_shared (hcmd : cmdOf p.cmd = .reconnect) (hs : (c.ss s).matchRef = none) :
    (c.handleHello w s p).nextRef = c.nextRef + 1 ∧ (c.handleHello w s p).admits = c.admits ∧
      (c.handleHello w s p).live = c.live ++ [c.nextRef] ∧
      (c.handleHello w s p).posts = c.posts ++ [(c.nextRef, .resyncWalls s)] := by
  have hk : Keeps [.seat, .slots, .roster, .body, .bot, .phase, .result, .run] (c.ownMatch s)
      (((c.ownMatch s).setupMatch w s c.nextRef).startCSMatch s) :=
    (keeps_setupMatch.mono (by decide)).trans (keeps_startCSMatch.mono (by decide))
  have hposts := posts_of_keeps hk (by decide)
  rw [handleHello_eq hcmd hs]
  refine ⟨?_, ?_, ?_, ?_⟩
  · exact (nextRef_of_keeps hk (by decide)).trans rfl
  · exact (admits_of_keeps hk (by decide)).trans rfl
  · exact (live_of_keeps hk (by decide)).trans rfl
  · simp only [enqueue, hposts]
    rfl

theorem seats_hello (h : Seats (seating ⟨c, mail⟩)) (hposts : c.posts = [])
    (hcmd : cmdOf p.cmd = .reconnect) (hs : (c.ss s).matchRef = none)
    (hj : s ∉ c.admits.map Admission.s) :
    Seats (settle (c.handleHello w s p) mail).seating := by
  obtain ⟨hent, hsync⟩ := h.loose s hs
  obtain ⟨team, hteam, hcard⟩ := card_handleHello (w := w) hcmd hs hsync
  have hchairs := chairs_handleHello (w := w) hcmd hs hsync
  obtain ⟨hnext, hadmits, hlive, hpost⟩ := handleHello_shared (w := w) hcmd hs
  obtain ⟨hslot, hreserved, hmail⟩ := h.blank c.nextRef (Nat.le_refl _)
  have hslot' : (c.ms c.nextRef).nextSlot = 0 := hslot
  have hone : (c.field c.nextRef).nextSlot = 1 := by
    simp [Field.nextSlot, field, Match.view, hslot']
  have hfirst := (h.mint hs hj).first (a := ⟨s, c.nextRef, true, none⟩) (e := team * 2 ^ 24 + 1)
    (List.mem_append_right _ List.mem_cons_self) rfl (by omega) (low_entity (by omega))
  have herase : (c.admits ++ [(⟨s, c.nextRef, true, none⟩ : Admission)]).erase
      ⟨s, c.nextRef, true, none⟩ = c.admits := by
    have hnot : (⟨s, c.nextRef, true, none⟩ : Admission) ∉ c.admits :=
      fun hm => hj (List.mem_map_of_mem hm)
    rw [List.erase_append_right _ hnot]
    simp
  refine hfirst.calm (calm_of (fun t => ?_) (fun m' => ?_) (fun m' => ?_) (fun m' => ?_)
    (fun m' => ?_) hnext (hadmits.trans herase.symm) (fun x hx => by rwa [hlive] at hx)
    (fun _ => List.Sublist.refl _) fun post hp => ?_)
  · rw [hcard, hone]
    by_cases ht : t = s
    · simp [ht, seating, Seating.first, Seating.mint]
    · simp [ht, seating, Seating.first, Seating.mint, Session.card]
  · have hc := congrArg (fun x => x.2.1) (hchairs m')
    by_cases hm : m' = c.nextRef
    · subst hm
      simpa [Match.chairs, seating, Seating.first, Seating.mint, hslot'] using hc
    · simpa [Match.chairs, seating, Seating.first, Seating.mint, hm] using hc
  · have hc := congrArg (fun x => x.2.2.1) (hchairs m')
    by_cases hm : m' = c.nextRef
    · subst hm
      simpa [Match.chairs, seating, Seating.first, Seating.mint] using hc
    · simpa [Match.chairs, seating, Seating.first, Seating.mint, hm] using hc
  · have hc := congrArg (fun x => x.2.2.2) (hchairs m')
    by_cases hm : m' = c.nextRef
    · subst hm
      simp only [Match.chairs, if_true] at hc
      simp [seating, Seating.first, hc]
    · simp only [Match.chairs, if_neg hm] at hc
      simp [seating, Seating.first, Seating.mint, hm, hc]
  · have hc := congrArg (fun x => x.1) (hchairs m')
    by_cases hm : m' = c.nextRef
    · subst hm
      simp only [Match.chairs, if_true] at hc
      simp [seating, Seating.first, Seating.mint, hc]
    · simp only [Match.chairs, if_neg hm] at hc
      simp [seating, Seating.first, Seating.mint, hm, hc]
  · rw [hpost, hposts, List.nil_append, List.mem_singleton] at hp
    subst hp
    exact ⟨Nat.lt_succ_self _, rfl, by rintro _ _ ⟨⟩⟩

theorem shared_of_admitFirst :
    (c.admitFirst w s m).nextRef = c.nextRef ∧ (c.admitFirst w s m).admits = c.admits ∧
      (c.admitFirst w s m).live = c.live ∧ (c.admitFirst w s m).posts = c.posts := by
  have hk := @keeps_admitFirst w c s m
  exact ⟨nextRef_of_keeps hk (by decide), admits_of_keeps hk (by decide),
    live_of_keeps hk (by decide), posts_of_keeps hk (by decide)⟩

theorem seats_first {a : Admission} (h : Seats (seating ⟨c, mail⟩)) (hposts : c.posts = [])
    (ha : a ∈ c.admits) (hf : a.fresh) :
    Seats (settle (c.admission w a) mail).seating := by
  obtain ⟨-, -, hent, hsync, href, hslot⟩ := h.admitted a ha
  rw [if_pos hf] at href
  have hslot' : (c.ms a.m).nextSlot = 0 := hslot hf
  have hsync' : (c.ss a.s).syncStarted = false := hsync
  have hone : (({ c with admits := c.admits.erase a }.onSession a.s fun p =>
      { p with matchRef := some a.m }).field a.m).nextSlot = 1 := by
    simp [Field.nextSlot, field, Match.view, hslot']
  have hadm : c.admission w a = ({ c with admits := c.admits.erase a }.onSession a.s fun p =>
      { p with matchRef := some a.m }).admitFirst w a.s a.m := by
    unfold admission admitSession
    rw [if_pos hf]
  have hcard := @card_admitFirst w ({ c with admits := c.admits.erase a }.onSession a.s fun p =>
    { p with matchRef := some a.m }) a.s a.m (by simpa using hsync') (by simp)
  have hchairs := @chairs_admitFirst w ({ c with admits := c.admits.erase a }.onSession a.s fun p =>
    { p with matchRef := some a.m }) a.s a.m (by simpa using hsync') (by simp)
  rw [hone] at hcard
  obtain ⟨hnext, hadmits, hlive, hpost⟩ := @shared_of_admitFirst w
    ({ c with admits := c.admits.erase a }.onSession a.s fun p =>
      { p with matchRef := some a.m }) a.s a.m
  rw [← hadm] at hcard hchairs hnext hadmits hlive hpost
  revert hcard
  have hteam := @joinTeam_cases ({ c with admits := c.admits.erase a }.onSession a.s fun p =>
      { p with matchRef := some a.m }) a.s a.m
  revert hteam
  generalize joinTeam _ a.s a.m = team
  intro hteam hcard
  refine (h.first ha hf (e := team * 2 ^ 24 + 1) (by omega) (low_entity (by omega))).calm
    (calm_of (fun t => ?_) (fun m' => ?_) (fun m' => ?_) (fun m' => ?_) (fun m' => ?_) hnext
      hadmits (fun x hx => by rwa [hlive] at hx) (fun _ => List.Sublist.refl _) fun post hp => ?_)
  · rw [hcard]
    by_cases ht : t = a.s
    · simp only [ht, if_true]
      simp only [Seating.first, Function.update_self]
      rw [href]
    · simp [ht, seating, Seating.first, Session.card]
  · have hc := congrArg (fun x => x.2.1) (hchairs m')
    by_cases hm : m' = a.m
    · subst hm
      simpa [Match.chairs, seating, Seating.first, hslot'] using hc
    · simpa [Match.chairs, seating, Seating.first, hm] using hc
  · have hc := congrArg (fun x => x.2.2.1) (hchairs m')
    by_cases hm : m' = a.m
    · subst hm
      simpa [Match.chairs, seating, Seating.first] using hc
    · simpa [Match.chairs, seating, Seating.first, hm] using hc
  · have hc := congrArg (fun x => x.2.2.2) (hchairs m')
    by_cases hm : m' = a.m
    · subst hm
      simp only [Match.chairs, if_true] at hc
      simp [Seating.first, hc]
    · simp only [Match.chairs, if_neg hm, onSession_ms] at hc
      simp [seating, Seating.first, hm, hc]
  · have hc := congrArg (fun x => x.1) (hchairs m')
    by_cases hm : m' = a.m
    · subst hm
      simp only [Match.chairs, if_true, onSession_ms] at hc
      simp [seating, Seating.first, hc]
    · simp only [Match.chairs, if_neg hm, onSession_ms] at hc
      simp [seating, Seating.first, hm, hc]
  · rw [hpost] at hp
    have hp' : post ∈ c.posts := hp
    simp [hposts] at hp'

-- An admission to a match that runs; a full mailbox loses it.
theorem seats_ask {a : Admission} (h : Seats (seating ⟨c, mail⟩)) (hposts : c.posts = [])
    (ha : a ∈ c.admits) (hf : a.fresh = false) :
    Seats (settle (c.admission w a) mail).seating := by
  have hadm : c.admission w a = ((({ c with admits := c.admits.erase a }.onSession a.s fun p =>
      { p with matchRef := some a.m }).onSession a.s fun p =>
      { p with syncStarted := true }).enqueue a.m (.admitLater a.s)) := by
    unfold admission admitSession
    rw [if_neg (by simp [hf])]
  have hpost : (c.admission w a).posts = [(a.m, .admitLater a.s)] := by
    rw [hadm]
    simp [enqueue, onSession, hposts]
  have hsame : (settle (c.admission w a) mail).seating =
      (settle { c.admission w a with posts := [] } (deliver mail (a.m, .admitLater a.s))).seating := by
    simp only [settle, seating, hpost, List.foldl_cons, List.foldl_nil]
  rw [hsame]
  refine (h.ask ha hf).calm (calm_of (fun t => ?_) (fun m' => ?_) (fun m' => ?_) (fun m' => ?_)
    (fun m' => ?_) ?_ ?_ (fun x hx => ?_) (fun m' => ?_) (by rintro _ ⟨⟩))
  · simp only [hadm, enqueue, onSession_ss]
    by_cases ht : t = a.s
    · subst ht
      simp [Session.card, seating, Seating.ask]
    · simp [ht, Session.card, seating, Seating.ask]
  · rw [hadm]
    rfl
  · rw [hadm]
    rfl
  · rw [hadm]
    rfl
  · rw [hadm]
    exact List.Sublist.refl _
  · rw [hadm]
    rfl
  · rw [hadm]
    rfl
  · rw [hadm] at hx
    exact hx
  · unfold deliver
    dsimp only
    split
    · exact List.Sublist.refl _
    · by_cases hm : m' = a.m
      · subst hm
        simp only [Seating.ask, Function.update_self]
        exact List.sublist_append_left _ _
      · simp only [Seating.ask, Function.update_of_ne hm]
        exact List.Sublist.refl _

theorem seats_sit {rest : List Job} (h : Seats (seating ⟨c, mail⟩)) (hposts : c.posts = [])
    (hm : mail m = .admitLater s :: rest) (hrun : (c.ms m).loop ≠ .idle) :
    Seats (settle (c.admitLater w s m) (Function.update mail m rest)).seating := by
  obtain ⟨href, hent, hsync⟩ := h.laters m s (show Job.admitLater s ∈ mail m by
    rw [hm]
    exact List.mem_cons_self)
  have href' : (c.ss s).matchRef ≠ none := by
    rw [show (c.ss s).matchRef = some m from href]
    exact Option.some_ne_none _
  have hcard := card_admitLater (w := w) (c := c) (s := s) (m := m) href'
  have hchairs := chairs_admitLater (w := w) (c := c) (s := s) (m := m) href'
  have hk := keeps_seated (w := w) (c := c) (s := s) (m := m) href'
  have hka := @keeps_admitLater w c s m
  have hidle : (seating ⟨c, mail⟩).idle m = false := beq_eq_false_iff_ne.mpr hrun
  obtain ⟨-, hmax⟩ := h.slot_left hm hidle
  have hslot : (c.field m).nextSlot = ((c.ms m).nextSlot + 1) % 256 := rfl
  have hpos : 0 < ((c.ms m).nextSlot + 1) % 256 := by
    have hmax' : (c.ms m).nextSlot ≤ maxPlayers := hmax
    unfold maxPlayers at hmax'
    omega
  rw [hslot] at hcard
  have hteam := @joinTeam_cases c s m
  revert hcard hteam
  generalize joinTeam c s m = team
  intro hcard hteam
  refine (h.sit hm hidle (e := team * 2 ^ 24 + ((c.ms m).nextSlot + 1) % 256) (by omega)
    (low_entity (by omega))).calm (calm_of (fun t => ?_) (fun m' => ?_) (fun m' => ?_)
      (fun m' => ?_) (fun m' => ?_) (nextRef_of_keeps hka (by decide))
      (admits_of_keeps hka (by decide)) (fun x hx => ?_) (fun m' => ?_) fun post hp => ?_)
  · rw [hcard]
    by_cases ht : t = s
    · subst ht
      simp [seating, Seating.sit]
    · simp [ht, seating, Seating.sit, Session.card]
  · have hc := congrArg (fun x => x.2.1) (hchairs m')
    by_cases hmm : m' = m
    · subst hmm
      simpa [Match.chairs, seating, Seating.sit] using hc
    · simpa [Match.chairs, seating, Seating.sit, hmm] using hc
  · have hc := congrArg (fun x => x.2.2.1) (hchairs m')
    by_cases hmm : m' = m
    · subst hmm
      simpa [Match.chairs, seating, Seating.sit] using hc
    · simpa [Match.chairs, seating, Seating.sit, hmm] using hc
  · have hc := congrArg (fun x => x.2.2.2) (hchairs m')
    by_cases hmm : m' = m
    · subst hmm
      simp only [Match.chairs, if_true] at hc
      simp [seating, Seating.sit, hc]
    · simp only [Match.chairs, if_neg hmm] at hc
      simp [seating, Seating.sit, hc]
  · have hc := congrArg (fun x => x.1) (hchairs m')
    by_cases hmm : m' = m
    · subst hmm
      simp only [Match.chairs, if_true] at hc
      simp [seating, Seating.sit, hc]
    · simp only [Match.chairs, if_neg hmm] at hc
      simp [seating, Seating.sit, hmm, hc]
  · rw [live_of_keeps hka (by decide)] at hx
    exact hx
  · exact List.Sublist.refl _
  · rw [posts_of_keeps hka (by decide), hposts] at hp
    exact absurd hp List.not_mem_nil

theorem seats_route (h : Seats (seating ⟨c, mail⟩)) (hposts : c.posts = [])
    (hjoin : cmdOf p.cmd = .joinMatchPost → c.loop = none ∧ (c.ss s).matchRef = none)
    (hj : (c.ss s).matchRef = none → s ∉ c.admits.map Admission.s) :
    Seats (settle (c.route w s p) mail).seating := by
  by_cases hcmd : cmdOf p.cmd = .joinMatchPost
  · obtain ⟨hloop, hs⟩ := hjoin hcmd
    unfold Core.route
    rw [hcmd]
    exact seats_pick h hposts hloop hs (hj hs)
  by_cases hre : cmdOf p.cmd = .reconnect ∧ (c.ss s).matchRef = none
  · unfold Core.route
    rw [hre.1]
    exact seats_hello h hposts hre.1 hre.2 (hj hre.2)
  · have hstill := @still_route w c s p hcmd fun hc hs => hre ⟨hc, hs⟩
    exact h.calm (calm_settle_quiet hstill.1 (fun _ => List.Sublist.refl _)
      (hstill.2.trans hposts))

-- No 440 is handled of a session that has a match.
def JoinsOnce (v : Server) (e : Event) : Prop :=
  ∀ x ∈ v.routed e.act, cmdOf x.2.cmd = .joinMatchPost → (v.core.ss x.1).matchRef = none

instance (v : Server) (e : Event) : Decidable (v.JoinsOnce e) :=
  inferInstanceAs (Decidable (∀ x ∈ v.routed e.act, _))

theorem still_atMoment {t : Moment} {loop : Option MatchRef} : Still c (c.atMoment t loop) :=
  still_of_keeps keeps_atMoment (by decide)

theorem seats_atMoment (h : Seats v.seating) {t : Moment} {loop : Option MatchRef}
    (hmail : ∀ m, (mail m).Sublist (v.mail m)) :
    Seats (seating ⟨v.core.atMoment t loop, mail⟩) :=
  h.calm (@calm_settle_quiet v.core _ _ mail still_atMoment hmail rfl)

theorem posts_dispatch (h : (c.ss s).syncStarted ∨ cmdOf p.cmd = .ack ∨ cmdOf p.cmd = .ping) :
    ∀ post ∈ (c.dispatch w s p).posts, post ∈ c.posts ∨
      ∃ m, (c.ss s).matchRef = some m ∧ post = (m, .route s p) := by
  have hack : Keeps [.net] c ((c.touch s).ackIfReliable s p) :=
    keeps_touch.trans (keeps_ackIfReliable.mono (by decide))
  have hposts := posts_of_keeps hack (by decide)
  have hsync := syncStarted_of_keeps hack (by decide) s
  have href := matchRef_of_keeps hack (by decide) s
  intro post hp
  unfold dispatch at hp
  dsimp only at hp
  split at hp
  · exact Or.inl hp
  · refine Or.inl ?_
    rw [← hposts]
    exact hp
  · rename_i h1 h2
    rw [if_pos (by rw [hsync]; exact h.resolve_right (by tauto))] at hp
    unfold withMatch at hp
    rw [href] at hp
    split at hp
    · rename_i m hm
      simp only [enqueue, hposts, List.mem_append, List.mem_singleton] at hp
      exact hp.imp_right fun hx => ⟨m, hm, hx⟩
    · rw [hposts] at hp
      exact Or.inl hp

theorem running_of_free (h : v.free m = true) : (v.core.ms m).loop = .running := by
  unfold free at h
  simp only [Bool.and_eq_true, beq_iff_eq] at h
  exact h.1

theorem seats_step (h : v.Step w e v') (hj : v.JoinsOnce e) (hs : Seats v.seating) :
    Seats v'.seating := by
  have hf := fires_of_step h
  obtain ⟨act, t⟩ := e
  dsimp only at hf
  have hrefl : ∀ m, (v.mail m).Sublist (v.mail m) := fun _ => List.Sublist.refl _
  cases hf with
  | @dispatch s p hjoining =>
    have hat := @seats_atMoment v _ hs t none hrefl
    by_cases hq : ((v.core.atMoment t none).ss s).syncStarted ∨ cmdOf p.cmd = .ack ∨
        cmdOf p.cmd = .ping
    · refine hat.calm (calm_settle (still_of_keeps (dispatch_quiet hq) (by decide)) hrefl ?_)
      intro post hp
      rcases posts_dispatch hq post hp with hx | ⟨m, hm, rfl⟩
      · exact absurd hx List.not_mem_nil
      · refine ⟨hs.minted s m hm, rfl, fun s' p' he => ?_⟩
        obtain ⟨rfl, rfl⟩ := Job.route.inj he
        exact hm
    · rw [not_or, not_or] at hq
      rw [dispatch_routes hq.1 hq.2.1 hq.2.2]
      have hack : Keeps [.net] (v.core.atMoment t none)
          (((v.core.atMoment t none).touch s).ackIfReliable s p) :=
        keeps_touch.trans (keeps_ackIfReliable.mono (by decide))
      have hposts := posts_of_keeps hack (by decide)
      have href := matchRef_of_keeps hack (by decide) s
      have hadmits := admits_of_keeps hack (by decide)
      have hloop : (((v.core.atMoment t none).touch s).ackIfReliable s p).loop = none := by
        have hm := (hack .moment (by decide)).2.2
        simp only [Part.sameShared, Prod.mk.injEq] at hm
        exact hm.2.2.2.symm
      have hc := hat.calm (@calm_settle_quiet _ _ _ v.mail
        (still_of_keeps hack (by decide)) hrefl hposts)
      rw [settle_quiet hposts] at hc
      refine seats_route hc hposts (fun hcmd => ⟨hloop, ?_⟩) fun _ => ?_
      · rw [href]
        refine hj (s, p) ?_ hcmd
        unfold routed
        exact if_neg (by tauto)
      · rw [hadmits]
        exact hs.not_admitted hjoining
  | @letIn a ha =>
    have hat := @seats_atMoment v _ hs t a.loop hrefl
    by_cases hfresh : a.fresh
    · exact seats_first hat rfl ha hfresh
    · exact seats_ask hat rfl ha (by simpa using hfresh)
  | @start m hl =>
    have hat := @seats_atMoment v _ hs t (some m) hrefl
    exact hat.calm (calm_settle_quiet (still_runStart hl) hrefl
      (posts_of_keeps keeps_runStart (by decide)))
  | @exec m job rest hm hfree =>
    have hrun := running_of_free hfree
    have hrest : ∀ m', (Function.update v.mail m rest m').Sublist (v.mail m') := by
      intro m'
      by_cases hmm : m' = m
      · subst hmm
        rw [Function.update_self, hm]
        exact List.sublist_cons_self _ _
      · rw [Function.update_of_ne hmm]
    have hat := @seats_atMoment v _ hs t (some m) hrest
    cases job with
    | route s p =>
      have href : (v.core.ss s).matchRef = some m := hs.routes m s p (by
        change Job.route s p ∈ v.mail m
        rw [hm]
        exact List.mem_cons_self)
      refine seats_route hat rfl (fun hcmd => ?_) fun hnone => ?_
      · have hnone := hj (s, p) (by unfold routed; simp [hm]) hcmd
        rw [href] at hnone
        exact absurd hnone (Option.some_ne_none _)
      · exact absurd (href.symm.trans hnone) (Option.some_ne_none _)
    | admitLater s =>
      refine seats_sit (seats_atMoment hs hrefl) rfl hm ?_
      change (v.core.ms m).loop ≠ .idle
      rw [hrun]
      decide
    | resyncWalls s =>
      exact hat.calm (calm_settle_quiet (still_of_keeps keeps_resyncWalls (by decide))
        (fun _ => List.Sublist.refl _) (posts_of_keeps keeps_resyncWalls (by decide)))
  | @tick m hfree =>
    have hat := @seats_atMoment v _ hs t (some m) hrefl
    exact hat.calm (calm_settle_quiet (still_tick (running_of_free hfree)) hrefl
      (posts_of_keeps keeps_tick (by decide)))
  | @stop m hfree _ =>
    have hat := @seats_atMoment v _ hs t (some m) hrefl
    exact hat.calm (calm_settle_quiet (still_stopLoop (running_of_free hfree)) hrefl
      (posts_of_keeps keeps_stopLoop (by decide)))

theorem seats_start : Seats start.seating where
  live := nofun
  minted := nofun
  blank := fun _ _ => ⟨rfl, rfl, rfl⟩
  idle := fun _ _ => ⟨rfl, rfl⟩
  slots := fun _ => Or.inl rfl
  room := nofun
  loose := fun _ _ => ⟨rfl, rfl⟩
  waits := fun _ h _ => absurd rfl h
  admitted := nofun
  apart := List.nodup_nil
  owners := nofun
  routes := nofun
  laters := nofun
  once := fun _ _ => Nat.zero_le _
  seated := nofun
  nodup := fun _ => List.nodup_nil
  lows := nofun
  distinct := nofun

end Server

end MatchServer

import Madoka.MatchServer.TickMoves
import Madoka.MatchServer.Server

namespace MatchServer

open Lib

namespace Core

-- What the handler of a packet may do to a match, and on which field.
inductive HandlerMove (c : Core) (m : MatchRef) (s : SessionId) (p : Packet) :
    Field → Label → Prop where
  | report {req : TakeDamageReq} : cmdOf p.cmd = .takeDamage →
    parseTakeDamage p.payload = some req → (c.ss s).matchRef = some m →
    HandlerMove c m s p (c.field m) (.hit req.victim req.attacker req.dmg)
  | startRescue : cmdOf p.cmd = .startRescue → (c.ss s).matchRef = some m →
    HandlerMove c m s p (c.field m) (.startRescue (c.ss s).entityID (u32le p.payload 0))
  | stopRescue : cmdOf p.cmd = .stopRescue → (c.ss s).matchRef = some m →
    HandlerMove c m s p (c.field m) (.stopRescue (c.ss s).entityID (u32le p.payload 0))
  | quit : cmdOf p.cmd = .playerQuitReq → (c.ss s).matchRef = some m → s ∈ (c.ms m).players →
    HandlerMove c m s p (c.field m) (.leave s)

variable {w : World} {c d : Core} {s : SessionId} {m m' : MatchRef} {p : Packet} {now : Int}
  {P : Field → Label → Prop}

theorem Plays.path (h : Plays now P m c d) : Field.Path now P (c.field m) (d.field m) := by
  obtain ⟨g, hp, ht⟩ := h
  rw [ht.eq]
  exact hp

theorem Plays.off (h : Plays now P m c d) (hm : m' ≠ m) : d.field m' = c.field m' := by
  obtain ⟨g, -, ht⟩ := h
  rw [ht, Function.update_of_ne hm]

theorem field_of_session {f : Session → Session}
    (hf : ∀ p, (f p).entityID = p.entityID ∧ (f p).team = p.team) :
    (c.onSession s f).field = c.field :=
  field_of_member rfl (member_onSession hf)

theorem field_send {msg : Msg} : (c.send s msg).field = c.field := rfl

theorem path_of_field {f : Field} {g : Field} (h : g = f) : Field.Path now P f g := by
  rw [h]
  exact .refl

theorem path_withMatch {f : MatchRef → Core} {P : MatchRef → Field → Label → Prop}
    (h : ∀ m, (c.ss s).matchRef = some m → Plays now (P m) m c (f m)) (m : MatchRef) :
    Field.Path now (P m) (c.field m) ((c.withMatch s f).field m) := by
  unfold withMatch
  split
  · rename_i m0 hm0
    by_cases hm : m = m0
    · subst hm
      exact (h m hm0).path
    · exact path_of_field ((h m0 hm0).off hm)
  · exact .refl

theorem plays_handlePlayerQuit (hm : (c.ss s).matchRef = some m)
    (hs : (c.field m).sessionBy (c.ss s).entityID ≠ none → s ∈ (c.ms m).players)
    (hok : s ∈ (c.ms m).players → P (c.field m) (.leave s)) :
    Plays now P m c (c.handlePlayerQuit s) := by
  have hstop : Keeps [.net] c ((c.onSession s fun q => { q with stopped := true }).send s
      .playerQuitRes) := by
    refine ((Frame.refl c).onSession fun x => ?_).send
    cases x <;> first | exact Or.inr fun _ => rfl | exact Or.inl (by decide)
  unfold handlePlayerQuit withMatch
  dsimp only
  have hk : Keeps [.net, .flags] c (((c.onSession s fun q => { q with stopped := true }).send s
      .playerQuitRes).clearFlag m (((c.onSession s fun q => { q with stopped := true }).send s
      .playerQuitRes).ss s).entityID) :=
    (hstop.mono (by decide)).trans (keeps_clearFlag.mono (by decide))
  rw [matchRef_of_keeps hstop (by decide), hm]
  dsimp only
  have hf := field_of_keeps hk (by decide)
  have hent := entityID_of_keeps hk (by decide) s
  have hroster := players_of_keeps hk (by decide) m
  by_cases hin : s ∈ (c.ms m).players
  · refine Plays.after (plays_removePlayer (hroster ▸ hin) ?_) hf
    rw [hf]
    exact hok hin
  · refine Plays.after (Turns.quiet ?_) hf
    have ht := turns_removePlayer (c := ((c.onSession s fun q => { q with stopped := true }).send s
      .playerQuitRes).clearFlag m (((c.onSession s fun q => { q with stopped := true }).send s
      .playerQuitRes).ss s).entityID) (s := s) (m := m)
    rw [if_pos] at ht
    · exact ht
    · rw [hf, hent]
      exact not_not.mp fun hne => hin (hs hne)

theorem field_handleHello (h : cmdOf p.cmd = .reconnect → (c.ss s).matchRef ≠ none) :
    (c.handleHello w s p).field = c.field := by
  unfold handleHello
  dsimp only
  rw [if_neg fun hh => h hh.1 hh.2]
  rfl

theorem path_route (hjoin : cmdOf p.cmd ≠ .joinMatchPost)
    (hre : cmdOf p.cmd = .reconnect → (c.ss s).matchRef ≠ none)
    (hs : ∀ m, (c.ss s).matchRef = some m → (c.field m).sessionBy (c.ss s).entityID ≠ none →
      s ∈ (c.ms m).players) (m : MatchRef) :
    Field.Path c.now (HandlerMove c m s p) (c.field m) ((c.route w s p).field m) := by
  have hk := @keeps_route w c s p
  have hquiet : writes (cmdOf p.cmd) ⊆ offField →
      Field.Path c.now (HandlerMove c m s p) (c.field m) ((c.route w s p).field m) :=
    fun hsub => path_of_field (congrFun (field_of_keeps hk hsub) m)
  unfold route at hquiet ⊢
  cases hcmd : cmdOf p.cmd <;> simp only [hcmd] at hquiet ⊢
  case joinMatchPost => exact absurd hcmd hjoin
  case hello => exact path_of_field (congrFun (field_handleHello hre) m)
  case reconnect => exact path_of_field (congrFun (field_handleHello hre) m)
  case takeDamage =>
    unfold handleTakeDamage
    split
    · exact .refl
    · rename_i req hreq
      exact path_withMatch (P := fun m0 => HandlerMove c m0 s p)
        (fun m0 hm0 => plays_applyDamage (.report hcmd hreq hm0)) m
  case startRescue =>
    unfold handleStartRescue
    split
    · exact .refl
    · exact path_withMatch (P := fun m0 => HandlerMove c m0 s p) (fun m0 hm0 =>
        plays_move (.startRescue hcmd hm0) .startRescue turns_startRescue) m
  case stopRescue =>
    unfold handleStopRescue
    split
    · exact .refl
    · exact path_withMatch (P := fun m0 => HandlerMove c m0 s p) (fun m0 hm0 =>
        plays_move (.stopRescue hcmd hm0) .stopRescue turns_stopRescue) m
  case playerQuitReq =>
    cases hm : (c.ss s).matchRef with
    | none =>
      refine path_of_field ?_
      unfold handlePlayerQuit withMatch
      simp only [send_ss, onSession_ss, if_true, hm]
      rw [field_send, field_of_session (by simp)]
    | some m0 =>
      have hp : Plays c.now (HandlerMove c m0 s p) m0 c (c.handlePlayerQuit s) :=
        plays_handlePlayerQuit hm (hs m0 hm) fun hin => .quit hcmd hm hin
      by_cases hmm : m = m0
      · subst hmm
        exact hp.path
      · exact path_of_field (hp.off hmm)
  all_goals exact hquiet (by decide)

theorem field_newMatch : (c.newMatch s).2.field = c.field := by
  unfold newMatch
  dsimp only
  rw [field_of_session (by simp)]
  exact Turns.field_eq (m := c.nextRef) (g := c.field c.nextRef)
    (turns_refl.onMatch id fun _ => rfl) rfl

theorem field_reserve :
    (c.onMatch m fun g => { g with reserved := g.reserved + 1 }).field = c.field :=
  Turns.field_eq (m := m) (g := c.field m) (turns_refl.onMatch id fun _ => rfl) rfl

theorem field_register : (c.register m).field = c.field := by
  unfold register
  exact field_reserve

theorem field_pickMatch : (c.pickMatch s).2.field = c.field := by
  unfold pickMatch
  split
  · exact field_reserve
  · exact field_register.trans field_newMatch

theorem field_handleJoinMatchPost : (c.handleJoinMatchPost w s p).field = c.field := by
  unfold handleJoinMatchPost
  exact field_pickMatch.trans (field_of_session (by simp))

theorem joinTeam_cases : c.joinTeam s m = 1 ∨ c.joinTeam s m = 2 := by
  unfold joinTeam allocTeam
  split
  · assumption
  · split
    · exact Or.inr rfl
    · exact Or.inl rfl

-- The match that a reconnect makes for itself, before the session sits down in it.
def ownMatch (c : Core) (s : SessionId) : Core :=
  ((((c.send s .helloRes).onSession s fun q => { q with
    player := if q.player.accountID = 0 then fallbackPlayer else q.player
    joined := true }).newMatch s).2).register c.nextRef

theorem handleHello_eq (hcmd : cmdOf p.cmd = .reconnect) (hm : (c.ss s).matchRef = none) :
    c.handleHello w s p = (((c.ownMatch s).setupMatch w s c.nextRef).startCSMatch s).enqueue
      c.nextRef (.resyncWalls s) := by
  unfold handleHello
  dsimp only
  rw [if_pos ⟨hcmd, hm⟩]
  rfl

theorem field_ownMatch : (c.ownMatch s).field = c.field := by
  unfold ownMatch
  rw [field_register, field_newMatch, field_of_session (by simp), field_send]

theorem ss_ownMatch : ((c.ownMatch s).ss s).matchRef = some c.nextRef ∧
    ((c.ownMatch s).ss s).syncStarted = (c.ss s).syncStarted := by
  simp [ownMatch, register, newMatch, onSession, onMatch, send]

theorem players_ownMatch (m' : MatchRef) :
    ((c.ownMatch s).ms m').players = (c.ms m').players := by
  unfold ownMatch
  rw [players_of_keeps keeps_register (by decide), players_newMatch]
  rfl

theorem plays_handleHello (hcmd : cmdOf p.cmd = .reconnect) (hm : (c.ss s).matchRef = none)
    (hsync : (c.ss s).syncStarted = false) (hs : ∀ m, s ∉ (c.ms m).players)
    (hfresh : (c.field c.nextRef).Untouched) (hP : P (c.field c.nextRef) .setup) :
    Plays now P c.nextRef c (c.handleHello w s p) := by
  have hown : ∀ m', s ∉ ((c.ownMatch s).ms m').players := fun m' => by
    rw [players_ownMatch]
    exact hs m'
  have hsetup := @turns_setupMatch w (c.ownMatch s) s c.nextRef hown
  have hstart := @turns_startCSMatch ((c.ownMatch s).setupMatch w s c.nextRef) s c.nextRef
    ((match_setupMatch s).1.trans ss_ownMatch.1)
    ((match_setupMatch s).2.trans (ss_ownMatch.2.trans hsync))
  rw [hsetup.eq, field_ownMatch] at hstart
  rw [field_ownMatch] at hsetup
  rw [handleHello_eq hcmd hm]
  refine Plays.keeps (F := [.posts]) ?_ ((Frame.refl _).enqueue (by decide)) (by decide)
  have ht : Turns c.nextRef c (((c.ownMatch s).setupMatch w s c.nextRef).startCSMatch s)
      ((c.field c.nextRef).setup s ((c.ownMatch s).joinTeam s c.nextRef)
        (c.field c.nextRef).maxHP) := by
    have h := hsetup.trans hstart
    unfold Turns at h ⊢
    rw [field_ownMatch] at h
    exact h
  exact plays_move hP (.setup hfresh joinTeam_cases) ht

theorem plays_admit_fresh (hsync : (c.ss s).syncStarted = false)
    (hs : ∀ m, s ∉ (c.ms m).players) (hfresh : (c.field m).Untouched) (hP : P (c.field m) .setup) :
    Plays now P m c (c.admitSession w s m true) := by
  have hf : (c.onSession s fun p => { p with matchRef := some m }).field = c.field :=
    field_of_session (by simp)
  unfold admitSession
  dsimp only
  rw [if_pos rfl]
  have ht := @turns_admitFirst w (c.onSession s fun p => { p with matchRef := some m }) s m hs
    (by simp) (by simpa using hsync)
  refine Plays.after (plays_move (l := .setup) ?_ (.setup ?_ joinTeam_cases) ht) hf
  · rw [hf]
    exact hP
  · rw [hf]
    exact hfresh

theorem field_admitSession_later : (c.admitSession w s m false).field = c.field := by
  unfold admitSession
  dsimp only
  rw [if_neg (by decide)]
  refine (field_of_keeps (F := [.posts]) ((Frame.refl _).enqueue (by decide)) (by decide)).trans ?_
  rw [field_of_session (by simp), field_of_session (by simp)]

end Core

end MatchServer

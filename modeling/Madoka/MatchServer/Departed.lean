import Madoka.MatchServer.Rosters

namespace MatchServer

open Lib

-- What a packet of a session off the roster leaves of a match. `shared`: a player on the roster
-- goes by the entity id of that session.
structure Apart (cmd : Cmd) (shared : Prop) (g h : Match) : Prop where
  roster : h.players = g.players
  score : cmd ≠ .takeDamage →
    h.kills = g.kills ∧ h.deaths = g.deaths ∧ h.damage = g.damage ∧ h.firstBlood = g.firstBlood
  vital : cmd ≠ .takeDamage → (cmd = .playerQuitReq → ¬ shared) →
    h.hp = g.hp ∧ h.life = g.life ∧ h.knock = g.knock
  rescues : cmd ∉ [.takeDamage, .startRescue, .stopRescue] → h.rescues = g.rescues
  walls : cmd ∉ [.addIcewall, .icewallTakeDamage] → h.walls = g.walls
  containers : cmd ∉ [.csPurchase, .pickupInventory, .dropInventory] → h.containers = g.containers
  flags : cmd ∉ [.battleFlagReq, .playerQuitReq] → h.flags = g.flags

namespace Core

variable {w : World} {c : Core} {s : SessionId} {m : MatchRef} {p : Packet}

theorem ms_clearFlag_of_ne {e : Nat} {m' : MatchRef} (h : m' ≠ m) :
    (c.clearFlag m e).ms m' = c.ms m' := by
  unfold clearFlag
  split
  · rfl
  · simp [h]

theorem ms_removePlayer_of_ne {m' : MatchRef} (h : m' ≠ m) :
    (c.removePlayer s m).ms m' = c.ms m' := by
  unfold removePlayer
  dsimp only
  split
  · rfl
  · rw [ms_of_keeps keeps_repointSpectators (by decide)]
    simp only [tally, note, onMatch_ms, if_neg h]
    rw [ms_of_keeps keeps_emitDeath (by decide)]
    rfl

theorem vital_of_keeps {F : List Part} {d : Core} (h : Keeps F c d)
    (hF : Part.hp ∉ F ∧ Part.life ∉ F ∧ Part.knock ∉ F) (m : MatchRef) :
    (d.ms m).hp = (c.ms m).hp ∧ (d.ms m).life = (c.ms m).life ∧
      (d.ms m).knock = (c.ms m).knock :=
  ⟨((h _ hF.1).1 m).symm, ((h _ hF.2.1).1 m).symm, ((h _ hF.2.2).1 m).symm⟩

theorem vital_handlePlayerQuit (hs : ¬ (c.sessionByEntity m (c.ss s).entityID).isSome) :
    ((c.handlePlayerQuit s).ms m).hp = (c.ms m).hp ∧
      ((c.handlePlayerQuit s).ms m).life = (c.ms m).life ∧
      ((c.handlePlayerQuit s).ms m).knock = (c.ms m).knock := by
  unfold handlePlayerQuit withMatch
  dsimp only
  split
  · rename_i m0 _
    by_cases hm : m = m0
    · subst hm
      have hflag : Keeps [.flags, .net] c (((c.onSession s fun q => { q with stopped := true }).send s
          .playerQuitRes).clearFlag m (c.ss s).entityID) := by
        refine Frame.trans (Frame.send ((Frame.refl c).onSession fun x => ?_))
          (keeps_clearFlag.mono (by decide))
        cases x <;> first | exact Or.inr fun _ => rfl | exact Or.inl (by decide)
      have hent := fun q => entityID_of_keeps hflag (by decide) q
      have hplayers := players_of_keeps hflag (by decide) m
      have hnone : c.sessionByEntity m (c.ss s).entityID = none := by
        simpa using hs
      simp only [sessionByEntity] at hnone
      simp only [send_ss, onSession_ss, if_pos]
      unfold removePlayer
      simp only [sessionByEntity, hent, hplayers, hnone, if_pos]
      exact vital_of_keeps hflag (by decide) m
    · rw [ms_removePlayer_of_ne hm, ms_clearFlag_of_ne hm]
      exact ⟨rfl, rfl, rfl⟩
  · exact ⟨rfl, rfl, rfl⟩

theorem apart_route (hm : m ≠ c.nextRef) (hd : s ∉ (c.ms m).players) :
    Apart (cmdOf p.cmd) (c.sessionByEntity m (c.ss s).entityID).isSome (c.ms m)
      ((c.route w s p).ms m) := by
  have hk := keeps_route (w := w) (c := c) (s := s) (p := p)
  refine ⟨?_, fun hc => ?_, fun hc hq => ?_, fun hc => ?_, fun hc => ?_, fun hc => ?_, fun hc => ?_⟩
  · by_cases hr : Part.roster ∉ writes (cmdOf p.cmd)
    · exact players_of_keeps hk hr m
    · unfold route
      cases hc : cmdOf p.cmd with
      | reconnect => exact (players_handleHello m).trans (if_neg fun h => hm h.1)
      | joinMatchPost => exact players_handleJoinMatchPost m
      | playerQuitReq =>
        rcases players_handlePlayerQuit (c := c) (s := s) m with h | h
        · exact h
        · rw [h, List.filter_eq_self]
          exact fun q hq => decide_eq_true fun hqs => hd (hqs ▸ hq)
      | _ => exact absurd (by rw [hc]; decide) hr
  · have hscore := (hk .score (by cases h : cmdOf p.cmd <;> first | decide | exact absurd h hc)).1 m
    simp only [Part.sameMatch, Prod.mk.injEq] at hscore
    exact ⟨hscore.1.symm, hscore.2.1.symm, hscore.2.2.1.symm, hscore.2.2.2.symm⟩
  · by_cases hquit : cmdOf p.cmd = .playerQuitReq
    · unfold route
      rw [hquit]
      exact vital_handlePlayerQuit (hq hquit)
    · refine vital_of_keeps hk ?_ m
      cases h : cmdOf p.cmd <;> first | decide | exact absurd h hc | exact absurd h hquit
  · refine ((hk .rescues ?_).1 m).symm
    cases h : cmdOf p.cmd <;> first | decide | exact absurd (by rw [h]; decide) hc
  · refine (congrArg Prod.fst ((hk .walls ?_).1 m)).symm
    cases h : cmdOf p.cmd <;> first | decide | exact absurd (by rw [h]; decide) hc
  · refine (congrArg Prod.fst ((hk .ground ?_).1 m)).symm
    cases h : cmdOf p.cmd <;> first | decide | exact absurd (by rw [h]; decide) hc
  · refine (congrArg Prod.fst ((hk .flags ?_).1 m)).symm
    cases h : cmdOf p.cmd <;> first | decide | exact absurd (by rw [h]; decide) hc

end Core

namespace Server

variable {w : World} {v v' : Server} {e : Event} {s : SessionId} {p : Packet} {m : MatchRef}

theorem departed_frame (h : v.Step w e v') (hp : v.processes s p e.act)
    (hm : m < v.core.nextRef) (hd : s ∉ (v.core.ms m).players) :
    Apart (cmdOf p.cmd) (v.core.sessionByEntity m (v.core.ss s).entityID).isSome (v.core.ms m)
      (v'.core.ms m) := by
  rcases processed h hp with hq | ⟨c, hc, hr⟩
  · rw [ms_of_keeps hq (by decide)]
    exact ⟨rfl, fun _ => ⟨rfl, rfl, rfl, rfl⟩, fun _ _ => ⟨rfl, rfl, rfl⟩, fun _ => rfl,
      fun _ => rfl, fun _ => rfl, fun _ => rfl⟩
  · have hms := ms_of_keeps hc (by decide) m
    have hroute := Core.apart_route (w := w) (c := c) (s := s) (p := p) (m := m)
      (by rw [nextRef_of_keeps hc (by decide)]; exact Nat.ne_of_lt hm) (by rw [hms]; exact hd)
    have hent := fun q => entityID_of_keeps hc (show Part.seat ∉ [Part.net, .posts, .moment] by decide) q
    simp only [Core.sessionByEntity, hent, hms] at hroute
    rw [hr]
    exact hroute

def Untouched (g h : Match) : Prop :=
  h.hp = g.hp ∧ h.life = g.life ∧ h.knock = g.knock ∧ h.rescues = g.rescues ∧ h.kills = g.kills ∧
    h.deaths = g.deaths ∧ h.damage = g.damage ∧ h.walls = g.walls ∧
    h.containers = g.containers ∧ h.flags = g.flags ∧ h.players = g.players

def reconnect : Packet := ⟨0, 5, 0, []⟩

def quit : Packet := ⟨1, 191, 7, []⟩

def plantFlag : Packet := ⟨1, 276, 8, List.replicate 20 0⟩

-- A player resumes a match and quits it; its next packet plants a flag there.
def quitter : List Event :=
  [event 1 (.dispatch 0 reconnect), event 2 (.start 0), event 3 (.exec 0),
    event 4 (.dispatch 0 quit), event 5 (.exec 0), event 6 (.dispatch 0 plantFlag)]

theorem quitter_run : ∃ v v', quitter.foldlM (step bareWorld) start = some v ∧
    v.step bareWorld (event 7 (.exec 0)) = some v' ∧
    (∃ rest, v.mail 0 = .route 0 plantFlag :: rest) ∧ v.core.nextRef = 1 ∧
    (v.core.ms 0).players = [] ∧ (v.core.ms 0).flags.keys = [] ∧
    (v'.core.ms 0).flags.keys = [0x01000001] :=
  ⟨_, _, rfl, rfl, ⟨_, rfl⟩, rfl, rfl, rfl, rfl⟩

theorem departed_keeps_walls : ∃ v v', Run (Step bareWorld) start quitter v ∧
    v.Step bareWorld (event 7 (.exec 0)) v' ∧ (v.core.ms 0).players = [] ∧
    (v'.core.ms 0).walls = (v.core.ms 0).walls := by
  obtain ⟨v, v', hrun, hs, hp, hn, hd, _⟩ := quitter_run
  have hapart := departed_frame (s := 0) (p := plantFlag) (m := 0) hs hp (by rw [hn]; decide)
    (by rw [hd]; decide)
  exact ⟨v, v', run_of_foldlM hrun, hs, hd, hapart.walls (by decide)⟩

theorem departed_plants_flag : ¬ ∀ w es v e v' s p m, Run (Step w) start es v →
    v.Step w e v' → v.processes s p e.act → m < v.core.nextRef → s ∉ (v.core.ms m).players →
    Untouched (v.core.ms m) (v'.core.ms m) := by
  intro hall
  obtain ⟨v, v', hrun, hs, hp, hn, hd, hf, hf'⟩ := quitter_run
  have hu := hall bareWorld quitter v (event 7 (.exec 0)) v' 0 plantFlag 0 (run_of_foldlM hrun) hs
    hp (by rw [hn]; decide) (by rw [hd]; decide)
  have hflags := hu.2.2.2.2.2.2.2.2.2.1
  rw [hflags, hf] at hf'
  cases hf'

end Server

end MatchServer

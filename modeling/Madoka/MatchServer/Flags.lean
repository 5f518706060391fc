import Madoka.Lib.Weight
import Madoka.MatchServer.Broadcasts
import Madoka.MatchServer.Departed
import Madoka.MatchServer.Identities

namespace MatchServer

open Lib

namespace Core

variable {w : World} {c d : Core} {s t : SessionId} {m m' : MatchRef} {p : Packet} {F : List Part}

section Rosters

theorem entity_of_keeps (h : Keeps F c d) (hF : Part.seat ∉ F) : d.entity s = c.entity s := by
  have hs := (h _ hF).2.1 s
  simp only [Part.sameSession, Prod.mk.injEq] at hs
  exact hs.2.2.2.2.2.2.2.2.1.symm

theorem lapsed_of_keeps (h : Keeps F c d) (hn : Part.net ∉ F) (hm : Part.moment ∉ F) :
    d.lapsed s ↔ c.lapsed s := by
  have hs := (h _ hn).2.1 s
  simp only [Part.sameSession, Prod.mk.injEq] at hs
  obtain ⟨h1, h2, h3, -⟩ := hs
  unfold lapsed
  rw [h1, h2, h3, now_of_keeps h hm]

theorem find_lapsed_of_not {ps : List SessionId} {f : Session → Session} (h : ¬ c.lapsed s)
    (h' : ¬ (c.onSession s f).lapsed s) :
    (ps.find? fun q => decide ((c.onSession s f).lapsed q)) = ps.find? fun q => decide (c.lapsed q) := by
  refine List.find?_congr fun q _ => ?_
  by_cases hq : q = s
  · rw [hq, decide_eq_false h, decide_eq_false h']
  · simp only [lapsed, onSession_ss, if_neg hq]
    rfl

theorem players_sweepFrom {ps : List SessionId} :
    ((sweepFrom m ps c).ms m').players = (c.ms m').players ∨
    ∃ p, (ps.find? fun q => decide (c.lapsed q)) = some p ∧ m' = m ∧
      ((sweepFrom m ps c).ms m').players = (c.ms m').players.filter fun q => decide (q ≠ p) := by
  induction ps generalizing c with
  | nil => exact Or.inl rfl
  | cons p ps ih =>
    have hskip : ∀ {d : Core} (f : Session → Session), d = c ∨ d = c.onSession p f → ¬ c.lapsed p →
        ¬ d.lapsed p → ((sweepFrom m ps d).ms m').players = (c.ms m').players ∨
          ∃ q, ((p :: ps).find? fun q => decide (c.lapsed q)) = some q ∧ m' = m ∧
            ((sweepFrom m ps d).ms m').players = (c.ms m').players.filter fun r => decide (r ≠ q) := by
      intro d f hd hng hng'
      rw [List.find?_cons_of_neg (by simpa using hng)]
      rcases hd with rfl | rfl
      · exact ih
      · rw [← find_lapsed_of_not hng hng']
        exact ih (c := c.onSession p f)
    unfold sweepFrom
    split
    · rename_i hzero
      exact hskip id (Or.inl rfl) (fun hg => hg.1 hzero) fun hg => hg.1 hzero
    rename_i hseen
    split
    · rename_i hearly
      refine hskip _ (Or.inr rfl) (fun hg => absurd hg.2.1 (Int.not_le.mpr hearly)) fun hg => ?_
      simp [lapsed, onSession] at hg
    rename_i hlate
    dsimp only
    by_cases hdis : (c.ss p).disconnected
    · simp only [if_pos hdis]
      split
      · rename_i hgrace
        have hgone : c.lapsed p := ⟨hseen, Int.not_lt.mp hlate, hdis, hgrace⟩
        rcases @players_removePlayer c p m m' with h | ⟨hm, h⟩
        · exact Or.inl h
        · refine Or.inr ⟨p, List.find?_cons_of_pos (by simpa using hgone), hm, ?_⟩
          rw [h, hm]
      · rename_i hgrace
        exact hskip id (Or.inl rfl) (fun hg => hgrace hg.2.2.2) fun hg => hgrace hg.2.2.2
    · simp only [if_neg hdis]
      rw [if_neg (by simp [onSession, reconnectGrace])]
      refine hskip _ (Or.inr rfl) (fun hg => hdis hg.2.2.1) fun hg => ?_
      simp [lapsed, onSession, reconnectGrace] at hg

theorem players_afterSweep : ((c.afterSweep w m).ms m').players = (c.ms m').players ∨
    ∃ p, ((c.ms m).players.find? fun q => decide (c.lapsed q)) = some p ∧ m' = m ∧
      ((c.afterSweep w m).ms m').players = (c.ms m').players.filter fun q => decide (q ≠ p) := by
  have hk : Keeps phaseParts c (c.beforeSweep w m) := keeps_beforeSweep
  have hcrew : ∀ m, ((c.beforeSweep w m).ms m).players = (c.ms m).players := fun m =>
    players_of_keeps keeps_beforeSweep (by decide) m
  have hfind : ((c.ms m).players.find? fun q => decide ((c.beforeSweep w m).lapsed q)) =
      (c.ms m).players.find? fun q => decide (c.lapsed q) :=
    List.find?_congr fun q _ => decide_eq_decide.mpr (lapsed_of_keeps hk (by decide) (by decide))
  have hsweep := @players_sweepFrom (c.beforeSweep w m) m m' ((c.beforeSweep w m).ms m).players
  rw [players_of_keeps hk (by decide) m', hcrew m, hfind] at hsweep
  have hsame : c.afterSweep w m = sweepFrom m (c.ms m).players (c.beforeSweep w m) := by
    rw [← hcrew m]
    rfl
  rw [hsame]
  exact hsweep

theorem players_tick : ((c.tick w m).ms m').players = (c.ms m').players ∨
    ∃ p, ((c.ms m).players.find? fun q => decide (c.lapsed q)) = some p ∧ m' = m ∧
      ((c.tick w m).ms m').players = (c.ms m').players.filter fun q => decide (q ≠ p) := by
  by_cases hp : (c.ms m).players = []
  · rw [tick, if_pos hp]
    exact Or.inl (players_of_keeps keeps_stopLoop (by decide) m')
  · rw [(@dims_tick w c m .flags hp).crew m']
    exact players_afterSweep

theorem players_quit (h : t ≠ s ∨ (c.ss s).matchRef ≠ some m) (ht : t ∈ (c.ms m).players) :
    t ∈ ((c.handlePlayerQuit s).ms m).players := by
  rcases h with h | h
  · rcases @players_handlePlayerQuit c s m with heq | heq
    · rw [heq]
      exact ht
    · rw [heq]
      exact List.mem_filter.mpr ⟨ht, by simpa using h⟩
  · unfold handlePlayerQuit withMatch
    dsimp only
    split
    · rename_i m' hm'
      have hm : (c.ss s).matchRef = some m' := by simpa using hm'
      have hne : m ≠ m' := fun hc => h (hc ▸ hm)
      rw [ms_removePlayer_of_ne hne, ms_clearFlag_of_ne hne]
      exact ht
    · exact ht

theorem players_route (h : cmdOf p.cmd = .playerQuitReq → t ≠ s ∨ (c.ss s).matchRef ≠ some m)
    (ht : t ∈ (c.ms m).players) : t ∈ ((c.route w s p).ms m).players := by
  by_cases hr : Part.roster ∈ writes (cmdOf p.cmd)
  · have hcmd : cmdOf p.cmd = .hello ∨ cmdOf p.cmd = .reconnect ∨ cmdOf p.cmd = .joinMatchPost ∨
        cmdOf p.cmd = .playerQuitReq := by
      revert hr
      cases cmdOf p.cmd <;> decide
    have hello : t ∈ ((c.handleHello w s p).ms m).players := by
      rw [players_handleHello]
      split
      · exact List.mem_append_left _ ht
      · exact ht
    unfold route
    rcases hcmd with hcmd | hcmd | hcmd | hcmd
    · rw [hcmd]
      exact hello
    · rw [hcmd]
      exact hello
    · rw [hcmd]
      change t ∈ ((c.handleJoinMatchPost w s p).ms m).players
      rw [players_handleJoinMatchPost]
      exact ht
    · rw [hcmd]
      exact players_quit (h hcmd) ht
  · rw [players_of_keeps keeps_route hr m]
    exact ht

theorem players_admission {a : Admission} (ht : t ∈ (c.ms m).players) :
    t ∈ ((c.admission w a).ms m).players := by
  unfold admission admitSession
  dsimp only
  split
  · rw [players_admitFirst]
    split
    · rename_i hm
      subst hm
      exact List.mem_append_left _ ht
    · exact ht
  · exact ht

theorem players_admitLater (ht : t ∈ (c.ms m).players) :
    t ∈ ((c.admitLater w s m').ms m).players := by
  by_cases hs : (c.ss s).matchRef = none
  · unfold admitLater withMatch
    simp only [hs]
    exact ht
  · rw [players_of_keeps (keeps_seated hs) (by decide) m, players_addPlayer]
    split
    · rename_i hm
      subst hm
      exact List.mem_append_left _ ht
    · exact ht

end Rosters

section Flags

variable {o owner : Nat} {fo : FlagObject} {req : BattleFlagReq}

theorem flags_same (h : Keeps F c d) (hF : Part.flags ∉ F) (m : MatchRef) :
    (d.ms m).flags = (c.ms m).flags :=
  congrArg Prod.fst (flags_of_keeps h hF m)

theorem flags_clearFlag : ((c.clearFlag m owner).ms m).flags = (c.ms m).flags.erase owner := by
  unfold clearFlag
  split
  · rename_i hnone
    exact (erase_of_none hnone).symm
  · simp only [broadcastData_ms, onMatch_ms, if_true]

theorem flags_removePlayer : ((c.removePlayer s m).ms m').flags = (c.ms m').flags :=
  flags_same (F := leaveParts) keeps_removePlayer (by decide) m'

theorem flags_quit : ((c.handlePlayerQuit s).ms m).flags =
    if (c.ss s).matchRef = some m then (c.ms m).flags.erase (c.ss s).entityID
    else (c.ms m).flags := by
  unfold handlePlayerQuit withMatch
  dsimp only
  split
  · rename_i m' hm'
    have hm : (c.ss s).matchRef = some m' := by simpa using hm'
    rw [flags_removePlayer]
    by_cases hmm : m = m'
    · subst hmm
      rw [if_pos hm, flags_clearFlag]
      simp
    · rw [if_neg fun hc => hmm (Option.some.inj (hc.symm.trans hm)), ms_clearFlag_of_ne hmm]
      rfl
  · rename_i hnone
    have hm : (c.ss s).matchRef = none := by simpa using hnone
    rw [if_neg (by simp [hm])]
    rfl

theorem dims_of_quit : Dims .flags c (((c.onSession s fun q => { q with stopped := true }).send s
    .playerQuitRes).clearFlag m owner) := by
  refine Dims.trans ?_ dims_clearFlag
  refine dims_of_mute (F := [.net]) (Mute.refl.onSession.send rfl) (Frame.send ?_) (by decide)
  refine (Frame.refl c).onSession fun x => ?_
  cases x <;> first | exact Or.inr fun _ => rfl | exact Or.inl (by decide)

theorem airs_quit (hd : ∀ m, (c.ms m).Distinct .flags) : Airs .flags c (c.handlePlayerQuit s) := by
  unfold handlePlayerQuit withMatch
  dsimp only
  split
  · refine (dims_of_quit.airs hd).mute mute_removePlayer fun m' => ?_
    simp only [Match.shows, flags_removePlayer]
  · refine airs_of_mute (Mute.refl.onSession.send rfl) fun m => ?_
    rfl

theorem fades_quit (m' : MatchRef) : (c.ms m').Fades ((c.handlePlayerQuit s).ms m') := by
  unfold handlePlayerQuit withMatch
  dsimp only
  split
  · exact (dims_of_quit.fades m').trans
      (fades_of_keeps (F := leaveParts) keeps_removePlayer (by decide) (by decide) m')
  · exact .refl _

def nextFlag (c : Core) (m : MatchRef) : FlagObject :=
  ⟨flagEntityBase ||| (((c.ms m).flagSeq + 1) % 2 ^ 32), c.now⟩

def plant (c : Core) (s : SessionId) (m : MatchRef) : Match :=
  { c.ms m with
    flagSeq := ((c.ms m).flagSeq + 1) % 2 ^ 32
    flags := (c.ms m).flags.insert (c.entity s) (c.nextFlag m) }

theorem handleBattleFlagReq_eq (hreq : parseBattleFlagReq p.payload = some req)
    (hm : (c.ss s).matchRef = some m) : c.handleBattleFlagReq s p =
      c.tell m (fun g => { g with
          flagSeq := (c.plant s m).flagSeq
          flags := g.flags.insert (c.entity s) (c.nextFlag m) })
        [.battleFlagSync ((((c.ms m).flags.lookup (c.entity s)).map (gone (c.entity s))).toList ++
          [⟨c.entity s, (c.nextFlag m).id, true, req.pos, req.configId⟩])] := by
  unfold handleBattleFlagReq withMatch
  rw [hreq, hm]
  rfl

theorem handleBattleFlagReq_idle (h : parseBattleFlagReq p.payload = none ∨
    (c.ss s).matchRef = none) : c.handleBattleFlagReq s p = c := by
  unfold handleBattleFlagReq withMatch
  split
  · rfl
  · rename_i hreq
    rw [h.resolve_left (by simp [hreq])]

theorem ms_plant (hreq : parseBattleFlagReq p.payload = some req)
    (hm : (c.ss s).matchRef = some m) : (c.handleBattleFlagReq s p).ms m = c.plant s m := by
  rw [handleBattleFlagReq_eq hreq hm, ms_tell_self]
  rfl

theorem ms_plant_of_ne (hreq : parseBattleFlagReq p.payload = some req)
    (hm : (c.ss s).matchRef = some m) (hne : m' ≠ m) :
    (c.handleBattleFlagReq s p).ms m' = c.ms m' := by
  rw [handleBattleFlagReq_eq hreq hm, ms_tell_of_ne hne]

theorem shows_insertFlag {g : Match} {f : FlagObject} (hd : g.Distinct .flags) :
    mirror (g.shows .flags) (((g.flags.lookup owner).map fun fo => Sign.hidden fo.id).toList ++
      [.shown f.id]) = ({ g with flags := g.flags.insert owner f } : Match).shows .flags := by
  have herase : mirror (g.shows .flags)
      ((g.flags.lookup owner).map fun fo => Sign.hidden fo.id).toList =
        ({ g with flags := g.flags.erase owner } : Match).shows .flags := by
    cases hf : g.flags.lookup owner with
    | none =>
      have hsame := erase_of_none hf
      simp [Match.shows, hsame]
    | some fo => exact (shows_eraseFlag hd hf).symm
  rw [mirror_append, herase, mirror_shown]
  simp only [Match.shows, AList.entries_insert, List.map_cons, List.toFinset_cons]
  rfl

theorem airs_plant (hd : ∀ m, (c.ms m).Distinct .flags) :
    Airs .flags c (c.handleBattleFlagReq s p) := by
  cases hreq : parseBattleFlagReq p.payload with
  | none =>
    rw [handleBattleFlagReq_idle (Or.inl hreq)]
    exact airs_of_mute Mute.refl fun _ => rfl
  | some req =>
    cases hm : (c.ss s).matchRef with
    | none =>
      rw [handleBattleFlagReq_idle (Or.inr hm)]
      exact airs_of_mute Mute.refl fun _ => rfl
    | some m =>
      rw [handleBattleFlagReq_eq hreq hm]
      refine airs_tell rfl ?_
      rw [List.flatMap_singleton]
      refine Eq.trans (congrArg _ ?_) (shows_insertFlag (hd m))
      cases (c.ms m).flags.lookup (c.entity s) <;> rfl

theorem flags_expire {l : List Nat} :
    (l.foldl (expireFlag m) c).now = c.now ∧ ∀ o fo,
      ((l.foldl (expireFlag m) c).ms m).flags.lookup o = some fo →
      (c.ms m).flags.lookup o = some fo ∧ (o ∈ l → c.now - fo.born < flagLifetime) := by
  induction l generalizing c with
  | nil => exact ⟨rfl, fun o fo h => ⟨h, fun ho => absurd ho List.not_mem_nil⟩⟩
  | cons b l ih =>
    have hone : (expireFlag m c b).now = c.now ∧ ∀ o fo,
        ((expireFlag m c b).ms m).flags.lookup o = some fo →
        (c.ms m).flags.lookup o = some fo ∧ (o = b → c.now - fo.born < flagLifetime) := by
      unfold expireFlag
      split
      · rename_i hnone
        exact ⟨rfl, fun o fo h => ⟨h, fun ho => absurd (ho ▸ h) (by simp [hnone])⟩⟩
      · rename_i f hf
        split
        · refine ⟨rfl, fun o fo h => ?_⟩
          simp only [broadcastData_ms, onMatch_ms, if_true] at h
          obtain ⟨hne, h⟩ := lookup_of_erase h
          exact ⟨h, fun ho => absurd ho hne⟩
        · rename_i hold
          refine ⟨rfl, fun o fo h => ⟨h, fun ho => ?_⟩⟩
          rw [ho, hf, Option.some.injEq] at h
          rw [← h]
          exact Int.not_le.mp hold
    obtain ⟨hnow, hall⟩ := ih (c := expireFlag m c b)
    rw [List.foldl_cons]
    refine ⟨hnow.trans hone.1, fun o fo h => ?_⟩
    obtain ⟨hin, hyoung⟩ := hall o fo h
    obtain ⟨hin', hyoung'⟩ := hone.2 o fo hin
    rw [hone.1] at hyoung
    exact ⟨hin', fun ho => (List.mem_cons.mp ho).elim hyoung' hyoung⟩

theorem young_stepFlags (h : ((c.stepFlags m).ms m).flags.lookup o = some fo) :
    c.now - fo.born < flagLifetime := by
  obtain ⟨hin, hyoung⟩ := flags_expire.2 o fo h
  exact hyoung (mem_visit.mpr (AList.lookup_isSome.mp (by rw [hin]; rfl)))

theorem young_tick (hp : (c.ms m).players ≠ []) (h : ((c.tick w m).ms m).flags.lookup o = some fo) :
    c.now - fo.born < flagLifetime := by
  have hk : Keeps sweepParts c (c.afterRescue w m) := keeps_afterRescue
  rw [← now_of_keeps hk (by decide)]
  refine young_stepFlags (o := o) (m := m) ?_
  rw [tick_eq hp] at h
  have hplayers : Keeps [.body, .hp, .kit] ((c.afterRescue w m).stepFlags m)
      (List.foldl stepPlayer ((c.afterRescue w m).stepFlags m)
        (((c.afterRescue w m).stepFlags m).ms m).players) :=
    Frame.foldl (fun _ _ => keeps_stepPlayer) _ _
  rwa [flags_same hplayers (by decide) m] at h

theorem flags_clearAllFlags : ((c.clearAllFlags m).ms m).flags = ∅ := by
  unfold clearAllFlags
  split
  · rename_i hnone
    exact AList.ext (List.map_eq_nil_iff.mp hnone)
  · simp only [broadcastData_ms, onMatch_ms, if_true]

theorem flags_roundReset {dead : List SessionId} : ((c.roundReset w m dead).ms m).flags = ∅ := by
  have hdead : ∀ {d : Core}, ((dead.foldl (respawnPlayer m) d).ms m).flags = (d.ms m).flags :=
    fun {d} => flags_same (F := [.body]) (Frame.foldl (fun _ _ => keeps_respawnPlayer) _ d)
      (by decide) m
  unfold roundReset
  dsimp only
  simp only [onMatch_ms, if_true]
  rw [hdead, flags_same keeps_respawnBot (by decide), flags_clearAllFlags]

theorem flags_tick_of_reset (hp : (c.ms m).players ≠ []) (hph : (c.ms m).phase = .postBanner)
    (hdue : c.due m = true) : ((c.tick w m).ms m).flags = ∅ := by
  have hedge : ((c.advancePhase w m).ms m).flags = ∅ := by
    have hadv : c.advancePhase w m = c.postBannerEdge w m := by
      simp [advancePhase, hph, hdue, phaseEdge]
    rw [hadv]
    unfold postBannerEdge
    dsimp only
    split
    · rw [flags_same keeps_enter (by decide)]
      simp only [onMatch_ms, if_true]
      exact flags_roundReset
    · rw [flags_same keeps_sendPull (by decide), flags_same keeps_enter (by decide),
        flags_same (Frame.foldl (fun _ _ => keeps_reissueLoadout) _ _) (by decide)]
      exact flags_roundReset
  have hrest : ((c.advancePhase w m).ms m).Fades ((c.tick w m).ms m) := by
    have hsweep : ((c.advancePhase w m).ms m).Fades ((c.afterSweep w m).ms m) :=
      ((dims_streamSweep.trans (x := .flags) (dims_of_mute mute_stepZone keeps_stepZone
        (by decide))).fades m).trans (fades_of_keeps (F := .net :: leaveParts)
          keeps_sweepDisconnects (by decide) (by decide) m)
    exact hsweep.trans ((@dims_tick w c m .flags hp).fades m)
  refine AList.ext (List.eq_nil_iff_forall_not_mem.mpr fun x hx => ?_)
  have hin := hrest.flags x.1 x.2 (AList.mem_lookup_iff.mpr hx)
  rw [hedge] at hin
  cases hin

end Flags

end Core

-- The flags of a match after a history of plants.
structure Planted (g : Match) (ids : List Nat) : Prop where
  seq : g.flagSeq = ids.length
  few : ids.length ≤ 2 ^ 26
  row : ids = (List.range ids.length).map fun k => flagEntityBase ||| (k + 1)
  known : ∀ o fo, g.flags.lookup o = some fo → fo.id ∈ ids
  apart : g.Distinct .flags

structure Sinks (g h : Match) : Prop where
  flags : ∀ o fo, h.flags.lookup o = some fo → g.flags.lookup o = some fo
  seq : h.flagSeq = g.flagSeq

theorem flagID_eq {k : Nat} (h : k ≤ 2 ^ 26) : flagEntityBase ||| k = flagEntityBase + k % 2 ^ 26 := by
  rcases Nat.lt_or_eq_of_le h with hlt | rfl
  · rw [Nat.mod_eq_of_lt hlt]
    exact (Nat.two_pow_add_eq_or_of_lt hlt 1).symm
  · rfl

namespace Planted

variable {g h : Match} {ids : List Nat} {c : Core} {s : SessionId} {m : MatchRef}

theorem blank (hf : g.flags = ∅) (hs : g.flagSeq = 0) : Planted g [] := by
  have hnone : ∀ o fo, g.flags.lookup o ≠ some fo := fun o fo h => by
    rw [hf] at h
    cases h
  exact ⟨hs, Nat.zero_le _, rfl, fun o fo h => absurd h (hnone o fo),
    fun o _ fo _ h _ _ => absurd h (hnone o fo)⟩

theorem nodup_range {n : Nat} (hn : n ≤ 2 ^ 26) :
    ((List.range n).map fun k => flagEntityBase ||| (k + 1)).Nodup := by
  refine List.nodup_range.map_on fun i hi j hj hij => ?_
  rw [List.mem_range] at hi hj
  rw [flagID_eq (by omega), flagID_eq (by omega)] at hij
  omega

theorem fresh (hp : Planted g ids) : ids.Nodup := by
  rw [hp.row]
  exact nodup_range hp.few

theorem sink (hp : Planted g ids) (hs : Sinks g h) : Planted h ids :=
  ⟨hs.seq.trans hp.seq, hp.few, hp.row, fun o fo hfo => hp.known o fo (hs.flags o fo hfo),
    fun o o' fo fo' ho ho' => hp.apart o o' fo fo' (hs.flags o fo ho) (hs.flags o' fo' ho')⟩

theorem plant (hp : Planted (c.ms m) ids) (hlt : (c.ms m).flagSeq < 2 ^ 26) :
    Planted (c.plant s m) (ids ++ [(c.nextFlag m).id]) := by
  have hseq : ((c.ms m).flagSeq + 1) % 2 ^ 32 = ids.length + 1 := by
    rw [Nat.mod_eq_of_lt (by omega), hp.seq]
  have hid : (c.nextFlag m).id = flagEntityBase ||| (ids.length + 1) := congrArg _ hseq
  have hfew : ids.length + 1 ≤ 2 ^ 26 := by
    rw [← hp.seq]
    exact hlt
  have hall : ids ++ [(c.nextFlag m).id] =
      (List.range (ids.length + 1)).map fun k => flagEntityBase ||| (k + 1) := by
    rw [List.range_succ, List.map_append, ← hp.row, List.map_singleton, hid]
  have hnodup : (ids ++ [(c.nextFlag m).id]).Nodup := by
    rw [hall]
    exact nodup_range hfew
  have hnew : ∀ i ∈ ids, i ≠ (c.nextFlag m).id := fun i hi heq =>
    (List.nodup_append.mp hnodup).2.2 i hi _ (List.mem_singleton_self _) heq
  have hlook : ∀ o fo, (c.plant s m).flags.lookup o = some fo →
      (o = c.entity s ∧ fo = c.nextFlag m) ∨ (o ≠ c.entity s ∧ (c.ms m).flags.lookup o = some fo) := by
    intro o fo hfo
    by_cases ho : o = c.entity s
    · rw [ho] at hfo
      exact Or.inl ⟨ho, (Option.some.inj ((AList.lookup_insert _).symm.trans hfo)).symm⟩
    · exact Or.inr ⟨ho, (AList.lookup_insert_ne ho).symm.trans hfo⟩
  refine ⟨?_, ?_, ?_, fun o fo hfo => ?_, fun o o' fo fo' ho ho' hid' => ?_⟩
  · rw [List.length_append]
    exact hseq
  · rw [List.length_append]
    exact hfew
  · rw [List.length_append]
    exact hall
  · rcases hlook o fo hfo with ⟨-, rfl⟩ | ⟨-, hold⟩
    · exact List.mem_append_right _ List.mem_cons_self
    · exact List.mem_append_left _ (hp.known o fo hold)
  · rcases hlook o fo ho with ⟨rfl, rfl⟩ | ⟨-, hold⟩
    · rcases hlook o' fo' ho' with ⟨rfl, -⟩ | ⟨-, hold'⟩
      · rfl
      · exact absurd hid'.symm (hnew _ (hp.known o' fo' hold'))
    · rcases hlook o' fo' ho' with ⟨-, rfl⟩ | ⟨-, hold'⟩
      · exact absurd hid' (hnew _ (hp.known o fo hold))
      · exact hp.apart o o' fo fo' hold hold' hid'

end Planted

namespace Server

open MatchServer.Core Seating

variable {w : World} {v v' : Server} {e : Event} {s : SessionId} {m : MatchRef} {p : Packet}
  {c : Core} {o : Nat} {fo : FlagObject} {req : BattleFlagReq} {es : List Event}

theorem handles_eq_some {act : Action} {cmd : Cmd} : v.handles act cmd = some (s, p, m) ↔
    v.routed act = some (s, p) ∧ cmdOf p.cmd = cmd ∧ (v.core.ss s).matchRef = some m := by
  unfold handles
  constructor
  · intro h
    split at h
    · rename_i s' p' hr
      rw [Option.ite_none_right_eq_some, Option.map_eq_some_iff] at h
      obtain ⟨hcmd, m', hm, heq⟩ := h
      cases heq
      exact ⟨hr, hcmd, hm⟩
    · cases h
  · rintro ⟨hr, hcmd, hm⟩
    simp [hr, hcmd, hm]

-- The session gives up its place on the roster of a match, or the entity it has there.
def Strips (v : Server) (e : Event) (m : MatchRef) (s : SessionId) : Prop :=
  (v.seatedBy e.act).map Prod.fst = some s ∨
    (∃ x ∈ v.handles e.act .playerQuitReq, x.1 = s ∧ x.2.2 = m) ∨
    e.act.ticked = some m ∧ ((v.core.ms m).players.find? fun q =>
      decide ((v.core.atMoment e.moment (some m)).lapsed q)) = some s

-- The step takes the flag down: its owner quits, or it is too old, or the round's banner ends.
def Lowers (v : Server) (e : Event) (m : MatchRef) (o : Nat) (fo : FlagObject) : Prop :=
  (∃ x ∈ v.handles e.act .playerQuitReq, x.2.2 = m ∧ (v.core.ss x.1).entityID = o) ∨
    e.act.ticked = some m ∧ (flagLifetime ≤ e.moment.now - fo.born ∨
      (v.core.ms m).phase = .postBanner ∧ (v.core.atMoment e.moment (some m)).due m = true)

def planting (v : Server) (e : Event) : Option (SessionId × MatchRef × BattleFlagReq) :=
  (v.handles e.act .battleFlagReq).bind fun x =>
    (parseBattleFlagReq x.2.1.payload).map fun req => (x.1, x.2.2, req)

-- No owner of a live flag is removed, quits or is seated anew, unless the step takes the flag down;
-- who plants one has an entity on the roster, and ids are left.
def Tended (v : Server) (e : Event) : Prop :=
  (∀ m < v.core.nextRef, ∀ o ∈ (v.core.ms m).flags.keys, ∀ fo ∈ (v.core.ms m).flags.lookup o,
    (∀ s ∈ (v.core.ms m).players, (v.core.ss s).entityID = o → ¬ v.Strips e m s) ∨
      v.Lowers e m o fo) ∧
  ∀ x ∈ v.planting e, (∃ s ∈ (v.core.ms x.2.1).players,
    (v.core.ss s).entityID = v.core.entity x.1) ∧ (v.core.ms x.2.1).flagSeq < 2 ^ 26

instance : Decidable (v.Strips e m s) := by
  unfold Strips
  infer_instance

instance : Decidable (v.Lowers e m o fo) := by
  unfold Lowers
  infer_instance

instance : Decidable (v.Tended e) := by
  unfold Tended
  infer_instance

theorem planting_eq_some : v.planting e = some (s, m, req) ↔ ∃ p, v.routed e.act = some (s, p) ∧
    cmdOf p.cmd = .battleFlagReq ∧ (v.core.ss s).matchRef = some m ∧
    parseBattleFlagReq p.payload = some req := by
  simp only [planting, Option.bind_eq_some_iff, Option.map_eq_some_iff, Prod.mk.injEq]
  constructor
  · rintro ⟨⟨s', p, m'⟩, hh, req', hreq, rfl, rfl, rfl⟩
    obtain ⟨hr, hcmd, hm⟩ := handles_eq_some.mp hh
    exact ⟨p, hr, hcmd, hm, hreq⟩
  · rintro ⟨p, hr, hcmd, hm, hreq⟩
    exact ⟨(s, p, m), handles_eq_some.mpr ⟨hr, hcmd, hm⟩, req, hreq, rfl, rfl, rfl⟩

theorem stays (h : v.Step w e v') (hs : s ∈ (v.core.ms m).players) (hn : ¬ v.Strips e m s) :
    s ∈ (v'.core.ms m).players := by
  have hf := fires_of_step h
  obtain ⟨act, t⟩ := e
  dsimp only at hf
  have hkeep : ∀ {F : List Part} {d : Core} {loop : Option MatchRef}, Keeps F (v.core.atMoment t loop) d →
      Part.roster ∉ F → s ∈ (d.ms m).players := fun hk hF => by
    rw [players_of_keeps hk hF]
    exact hs
  have hroute : ∀ {c : Core} {s' : SessionId} {p : Packet}, v.routed act = some (s', p) →
      s ∈ (c.ms m).players → (c.ss s').matchRef = (v.core.ss s').matchRef →
      s ∈ ((c.route w s' p).ms m).players := by
    intro c s' p hr hin href
    refine players_route (fun hcmd => ?_) hin
    by_contra hne
    rw [not_or, not_not, not_not] at hne
    rw [href] at hne
    exact hn (Or.inr (Or.inl ⟨(s', p, m), handles_eq_some.mpr ⟨hr, hcmd, hne.2⟩, hne.1.symm, rfl⟩))
  cases hf with
  | @dispatch s' p _ =>
    by_cases hq : ((v.core.atMoment t none).ss s').syncStarted ∨ cmdOf p.cmd = .ack ∨
        cmdOf p.cmd = .ping
    · exact hkeep (dispatch_quiet hq) (by decide)
    · have hr : v.routed (.dispatch s' p) = some (s', p) := if_neg hq
      rw [not_or, not_or] at hq
      change s ∈ (((v.core.atMoment t none).dispatch w s' p).ms m).players
      rw [dispatch_routes hq.1 hq.2.1 hq.2.2]
      have hk : Keeps [.net] (v.core.atMoment t none)
          (((v.core.atMoment t none).touch s').ackIfReliable s' p) :=
        keeps_touch.trans (keeps_ackIfReliable.mono (by decide))
      exact hroute hr (hkeep hk (by decide)) (matchRef_of_keeps hk (by decide) s')
  | @letIn a _ => exact players_admission hs
  | @start m' _ => exact hkeep keeps_runStart (by decide)
  | @exec m' job rest hmail _ =>
    cases job with
    | route s' p => exact hroute (by simp [routed, hmail]) hs rfl
    | admitLater s' => exact players_admitLater hs
    | resyncWalls s' => exact hkeep keeps_resyncWalls (by decide)
  | @tick m' _ =>
    rcases @players_tick w (v.core.atMoment t (some m')) m' m with heq | ⟨q, hq, hm, heq⟩
    · exact heq.symm ▸ hs
    · have hne : s ≠ q := by
        rintro rfl
        subst hm
        exact hn (Or.inr (Or.inr ⟨rfl, hq⟩))
      change s ∈ (((v.core.atMoment t (some m')).tick w m').ms m).players
      rw [heq]
      exact List.mem_filter.mpr ⟨hs, by simpa using hne⟩
  | @stop m' _ _ => exact hkeep keeps_stopLoop (by decide)

theorem same_entity (h : v.Step w e v') (hf : Fitted v.seating) (hn : ¬ v.Strips e m s) :
    (v'.core.ss s).entityID = (v.core.ss s).entityID := by
  obtain ⟨y, hy, hc⟩ := shifts h hf.linked
  have hcalm : (v'.core.ss s).entityID = y.entity s := congrFun hc.entity s
  rw [hcalm]
  rcases takes_or_rests hf hy with ⟨-, hr⟩ | ⟨s', m', team, hby, ht, -⟩
  · exact congrFun hr.entity s
  · have hne : s ≠ s' := by
      rintro rfl
      exact hn (Or.inl (by rw [hby]; rfl))
    rw [ht.entity, Function.update_of_ne hne]
    rfl

theorem lowered (h : v.Step w e v') (hp : (v.core.ms m).players ≠ []) (hl : v.Lowers e m o fo) :
    (v'.core.ms m).flags.lookup o ≠ some fo := by
  intro hin
  obtain ⟨c, hb, hacts⟩ := acts h
  rcases hl with ⟨⟨s, p, m'⟩, hx, hm, ho⟩ | ⟨htick, hwhy⟩
  · obtain ⟨hr, hcmd, href⟩ := handles_eq_some.mp hx
    dsimp only at hm ho
    subst hm ho
    obtain ⟨s', p', hr', hv'⟩ | ⟨m'', hact, -⟩ | ⟨hnone, -⟩ := hacts
    · obtain ⟨rfl, rfl⟩ := Prod.mk.inj (Option.some.inj (hr'.symm.trans hr))
      rw [hv', Core.route, hcmd] at hin
      change AList.lookup _ ((c.handlePlayerQuit s').ms m').flags = _ at hin
      rw [flags_quit, if_pos ((matchRef_of_keeps hb.keeps (by decide) s').trans href),
        entityID_of_keeps hb.keeps (by decide), AList.lookup_erase] at hin
      cases hin
    · rw [hact] at hr
      cases hr
    · exact absurd (hnone.symm.trans hr) (by simp)
  · obtain ⟨act, t⟩ := e
    cases act with
    | tick m' =>
      obtain rfl : m' = m := Option.some.inj htick
      obtain ⟨s', p', hr', -⟩ | ⟨m'', hact, hc, hv'⟩ | ⟨-, hno, -⟩ := hacts
      · cases hr'
      · obtain rfl : m' = m'' := Action.tick.inj hact
        rw [hv'] at hin
        rw [← hb.ms] at hp
        rcases hwhy with hage | ⟨hph, hdue⟩
        · have hyoung := young_tick hp hin
          rw [hb.now] at hyoung
          exact absurd hyoung (Int.not_lt.mpr hage)
        · rw [← hb.ms] at hph
          rw [← hc] at hdue
          rw [flags_tick_of_reset hp hph hdue] at hin
          cases hin
      · exact absurd rfl (hno m')
    | _ => cases htick

theorem plant_step (h : v.Step w e v') (hr : v.planting e = some (s, m, req)) :
    ∃ c p, v.Begins e.moment c ∧ parseBattleFlagReq p.payload = some req ∧
      (c.ss s).matchRef = some m ∧ v'.core = c.handleBattleFlagReq s p := by
  obtain ⟨p, hrouted, hcmd, hm, hreq⟩ := planting_eq_some.mp hr
  obtain ⟨c, hb, ⟨s', p', hr', hv'⟩ | ⟨m', hact, -⟩ | ⟨hnone, -⟩⟩ := acts h
  · obtain ⟨rfl, rfl⟩ := Prod.mk.inj (Option.some.inj (hr'.symm.trans hrouted))
    refine ⟨c, p', hb, hreq, (matchRef_of_keeps hb.keeps (by decide) s').trans hm, ?_⟩
    rw [hv', Core.route, hcmd]
  · rw [hact] at hrouted
    cases hrouted
  · exact absurd (hnone.symm.trans hrouted) (by simp)

theorem plant_idle (hb : v.Begins e.moment c) (hrouted : v.routed e.act = some (s, p))
    (hr : v.planting e = none) (hcmd : cmdOf p.cmd = .battleFlagReq) : c.route w s p = c := by
  have hidle : c.handleBattleFlagReq s p = c := by
    refine handleBattleFlagReq_idle ?_
    by_contra hne
    rw [not_or] at hne
    obtain ⟨req, hreq⟩ := Option.ne_none_iff_exists'.mp hne.1
    obtain ⟨m, hm⟩ := Option.ne_none_iff_exists'.mp hne.2
    have hsome : v.planting e = some (s, m, req) := planting_eq_some.mpr ⟨p, hrouted, hcmd,
      (matchRef_of_keeps hb.keeps (by decide) s).symm.trans hm, hreq⟩
    rw [hr] at hsome
    cases hsome
  rw [Core.route, hcmd]
  exact hidle

theorem sinks_of_fades {g h : Match} (hf : g.Fades h) : Sinks g h := ⟨hf.flags, hf.flagSeq⟩

theorem sinks_of_keeps {F : List Part} {d : Core} (h : Keeps F c d) (hF : Part.flags ∉ F) :
    Sinks (c.ms m) (d.ms m) := by
  have hsame := flags_of_keeps h hF m
  rw [Prod.mk.injEq] at hsame
  exact ⟨fun o fo hfo => by rwa [hsame.1] at hfo, hsame.2⟩

theorem sink_step (h : v.Step w e v') (hr : v.planting e = none) (m : MatchRef) :
    Sinks (v.core.ms m) (v'.core.ms m) := by
  obtain ⟨c, hb, ⟨s, p, hrouted, hv'⟩ | ⟨m', -, -, hv'⟩ | ⟨-, -, -, F, hk, hF⟩⟩ := acts h
  · rw [← hb.ms, hv']
    by_cases hcmd : cmdOf p.cmd = .battleFlagReq
    · rw [plant_idle hb hrouted hr hcmd]
      exact ⟨fun _ _ hfo => hfo, rfl⟩
    · by_cases hcmd' : cmdOf p.cmd = .playerQuitReq
      · rw [Core.route, hcmd']
        exact sinks_of_fades (fades_quit m)
      · refine sinks_of_keeps (keeps_route (w := w) (s := s) (p := p)) ?_
        revert hcmd hcmd'
        cases cmdOf p.cmd <;> decide
  · rw [← hb.ms, hv']
    exact sinks_of_fades (fades_tick m)
  · rw [← hb.ms]
    exact sinks_of_keeps hk fun hm => hF _ hm (by decide)

-- Who keeps its seats in a step hears what the step broadcasts about flags.
def Seated (v v' : Server) (p : SessionId) : Prop :=
  ∀ m, (v'.core.ms m).players.count p = (v.core.ms m).players.count p

def AirsTo (v v' : Server) (l : List (MatchRef × List (Sign Nat))) : Prop :=
  (∀ p, Seated v v' p →
    v'.core.signs .flags p = hears (fun m => (v.core.ms m).players.count p) l) ∧
  ∀ m, mirror ((v.core.ms m).shows .flags) (about m l) = (v'.core.ms m).shows .flags

theorem airsTo_of_airs (hb : v.Begins e.moment c) (h : Airs .flags c v'.core) :
    ∃ l, AirsTo v v' l := by
  obtain ⟨l, hl, hm⟩ := h
  rw [hb.ms] at hl hm
  refine ⟨l, fun p _ => ?_, hm⟩
  rw [hl p, hb.silent, List.nil_append]

theorem airsTo_tick (hb : v.Begins e.moment c) (hd : ∀ m, (c.ms m).Distinct .flags)
    (hv' : v'.core = c.tick w m) : ∃ l, AirsTo v v' l := by
  by_cases hp : (c.ms m).players = []
  · refine airsTo_of_airs hb ?_
    rw [hv', tick, if_pos hp]
    exact airs_of_mute mute_stopLoop (shows_of_keeps keeps_stopLoop (by decide) (by decide))
  · have hbefore : Dims .flags c (c.beforeSweep w m) := dims_beforeSweep
    have hafter : Dims .flags (c.afterSweep w m) (c.tick w m) := dims_tick hp
    have hsweep : ∀ m', ((c.beforeSweep w m).ms m').Fades ((c.afterSweep w m).ms m') :=
      fades_of_keeps (F := .net :: leaveParts) keeps_sweepDisconnects (by decide) (by decide)
    have hsame : ∀ m', ((c.afterSweep w m).ms m').shows .flags =
        ((c.beforeSweep w m).ms m').shows .flags :=
      shows_of_keeps (F := .net :: leaveParts) keeps_sweepDisconnects (by decide) (by decide)
    obtain ⟨l, hl, hm⟩ := hbefore.airs hd
    obtain ⟨l', hl', hm'⟩ := hafter.airs fun m' =>
      ((hbefore.fades m').trans (hsweep m')).distinct (hd m')
    refine ⟨l ++ l', fun p hseat => ?_, fun m' => ?_⟩
    · have hcount : ∀ m', ((c.afterSweep w m).ms m').players.count p =
          (v.core.ms m').players.count p := fun m' => by
        rw [← hafter.crew m', ← hv']
        exact hseat m'
      rw [hv', hl' p, mute_afterSweep.signs p, hl p, hb.silent, List.nil_append, hears_append, hb.ms]
      exact congrArg _ (hears_congr hcount)
    · rw [about_append, mirror_append, hv', ← hm' m', ← hb.ms, hm m', hsame m']

theorem airsTo_step (hw : w.AttachesOnly) (h : v.Step w e v')
    (hd : ∀ m, (v.core.ms m).Distinct .flags) : ∃ l, AirsTo v v' l := by
  obtain ⟨c, hb, hacts⟩ := acts h
  have hd' : ∀ m, (c.ms m).Distinct .flags := fun m => by
    rw [hb.ms]
    exact hd m
  rcases hacts with ⟨s, p, -, hv'⟩ | ⟨m, -, -, hv'⟩ | ⟨-, -, hmute, F, hk, hF⟩
  · refine airsTo_of_airs hb ?_
    rw [hv']
    by_cases hcmd : cmdOf p.cmd = .battleFlagReq
    · rw [Core.route, hcmd]
      exact airs_plant hd'
    · by_cases hcmd' : cmdOf p.cmd = .playerQuitReq
      · rw [Core.route, hcmd']
        exact airs_quit hd'
      · have hF : mutes .flags (cmdOf p.cmd) = true ∧ Part.flags ∉ writes (cmdOf p.cmd) := by
          revert hcmd hcmd'
          cases cmdOf p.cmd <;> decide
        refine airs_of_mute (mute_route (fun _ => hw) hF.1) fun m => ?_
        simp only [Match.shows, flags_same (keeps_route (w := w) (s := s) (p := p)) hF.2 m]
  · exact airsTo_tick hb hd' hv'
  · exact airsTo_of_airs hb (airs_of_mute (hmute _)
      (shows_of_keeps hk (fun hm => hF _ hm (by decide)) fun hm => hF _ hm (by decide)))

def sown (m : MatchRef) (v : Server) (e : Event) : List Nat :=
  match v.planting e with
  | some (_, m', _) =>
    if m' = m then [flagEntityBase ||| (((v.core.ms m).flagSeq + 1) % 2 ^ 32)] else []
  | none => []

def sownIn (w : World) (m : MatchRef) (es : List Event) : List Nat :=
  logged (step w) (sown m) start es

theorem planted_step (h : v.Step w e v') (ht : v.Tended e) {ids : List Nat}
    (hp : Planted (v.core.ms m) ids) : Planted (v'.core.ms m) (ids ++ v.sown m e) := by
  cases hx : v.planting e with
  | none =>
    have hsown : v.sown m e = [] := by rw [sown, hx]
    rw [hsown, List.append_nil]
    exact hp.sink (sink_step h hx m)
  | some x =>
    obtain ⟨s, m', req⟩ := x
    obtain ⟨c, p, hb, hreq, hm, hv'⟩ := plant_step h hx
    by_cases hmm : m' = m
    · subst hmm
      have hsown : v.sown m' e = [(c.nextFlag m').id] := by
        simp [sown, hx, nextFlag, hb.ms]
      rw [hsown, hv', ms_plant hreq hm]
      rw [← hb.ms] at hp
      refine hp.plant ?_
      rw [hb.ms]
      exact (ht.2 _ hx).2
    · have hsown : v.sown m e = [] := by simp [sown, hx, hmm]
      rw [hsown, List.append_nil, hv', ms_plant_of_ne hreq hm (Ne.symm hmm), hb.ms]
      exact hp

-- Every flag has its owner on the roster.
def Owned (v : Server) : Prop :=
  ∀ m o fo, (v.core.ms m).flags.lookup o = some fo →
    ∃ s ∈ (v.core.ms m).players, (v.core.ss s).entityID = o

theorem owned_step (h : v.Step w e v') (ht : v.Tended e) (hf : Fitted v.seating) (ho : v.Owned) :
    v'.Owned := by
  intro m o fo hfo
  cases hx : v.planting e with
  | none =>
    have hold := (sink_step h hx m).flags o fo hfo
    obtain ⟨s, hs, rfl⟩ := ho m o fo hold
    have hne : (v.core.ms m).players ≠ [] := List.ne_nil_of_mem hs
    have hlt : m < v.core.nextRef := by
      by_contra hge
      exact hne (hf.idle m (hf.blank m (Nat.not_lt.mp hge)).1).1
    have hkey : (v.core.ss s).entityID ∈ (v.core.ms m).flags.keys :=
      AList.lookup_isSome.mp (by rw [hold]; rfl)
    rcases ht.1 m hlt _ hkey fo hold with hkept | hl
    · have hn := hkept s hs rfl
      exact ⟨s, stays h hs hn, same_entity h hf hn⟩
    · exact absurd hfo (lowered h hne hl)
  | some x =>
    obtain ⟨s, m', req⟩ := x
    obtain ⟨c, p, hb, hreq, hm, hv'⟩ := plant_step h hx
    have hkeep : Keeps [.flags] c v'.core := by
      rw [hv']
      exact keeps_handleBattleFlagReq
    have hroster : ∀ t ∈ (v.core.ms m).players, t ∈ (v'.core.ms m).players ∧
        (v'.core.ss t).entityID = (v.core.ss t).entityID := fun t htm => by
      rw [players_of_keeps hkeep (by decide), hb.ms, entityID_of_keeps hkeep (by decide),
        entityID_of_keeps hb.keeps (by decide)]
      exact ⟨htm, rfl⟩
    suffices hold : ∃ t ∈ (v.core.ms m).players, (v.core.ss t).entityID = o by
      obtain ⟨t, htm, rfl⟩ := hold
      exact ⟨t, hroster t htm⟩
    by_cases hmm : m = m'
    · subst hmm
      rw [hv', ms_plant hreq hm] at hfo
      by_cases howner : o = c.entity s
      · obtain ⟨t, htm, hent⟩ := (ht.2 _ hx).1
        refine ⟨t, htm, hent.trans ?_⟩
        rw [howner]
        exact (entity_of_keeps hb.keeps (by decide)).symm
      · refine ho m o fo ?_
        rw [← hb.ms]
        exact (AList.lookup_insert_ne howner).symm.trans hfo
    · refine ho m o fo ?_
      rwa [hv', ms_plant_of_ne hreq hm hmm, hb.ms] at hfo

structure Flown (w : World) (es : List Event) (v : Server) : Prop where
  fitted : Fitted v.seating
  planted : ∀ m, Planted (v.core.ms m) (sownIn w m es)
  owned : v.Owned

theorem flown_of_run (h : Run (Guarded (Step w) Tended) start es v) : Flown w es v := by
  induction h with
  | start => exact ⟨fitted_start, fun _ => .blank rfl rfl, fun _ _ _ h => nomatch h⟩
  | @next es v v' e hr hs ih =>
    refine ⟨fitted_step hs.1 ih.fitted, fun m => ?_, owned_step hs.1 hs.2 ih.fitted ih.owned⟩
    have hsown : sownIn w m (es ++ [e]) = sownIn w m es ++ v.sown m e :=
      logged_snoc (guarded_run hr)
    rw [hsown]
    exact planted_step hs.1 hs.2 (ih.planted m)

theorem aired_flags (hw : w.AttachesOnly) (h : Run (Guarded (Step w) Tended) start es v) :
    ∃ log, Aired w .flags Seated es v log ∧
      ∀ m, mirror ∅ (about m log) = (v.core.ms m).shows .flags := by
  induction h with
  | start => exact ⟨[], .start, fun _ => rfl⟩
  | @next es v v' e hr hs ih =>
    obtain ⟨log, hlog, hm⟩ := ih
    obtain ⟨l, hl, hl'⟩ := airsTo_step hw hs.1 fun m => ((flown_of_run hr).planted m).apart
    refine ⟨log ++ l, .next hlog hs.1 hl, fun m => ?_⟩
    rw [about_append, mirror_append, hm m, hl' m]

-- The battle flags of a match after a run.
structure BattleFlags (w : World) (es : List Event) (v : Server) (m : MatchRef) : Prop where
  one : (v.core.ms m).flags.keys.Nodup
  owners : ∀ o ∈ (v.core.ms m).flags.keys, ∃ s ∈ (v.core.ms m).players, (v.core.ss s).entityID = o
  fresh : (sownIn w m es).Nodup
  known : ∀ o fo, (v.core.ms m).flags.lookup o = some fo → fo.id ∈ sownIn w m es
  apart : (v.core.ms m).Distinct .flags
  young : ∀ t v', v.Step w ⟨.tick m, t⟩ v' → ∀ o fo, (v'.core.ms m).flags.lookup o = some fo →
    t.now - fo.born < flagLifetime

theorem young_step {t : Moment} (h : v.Step w ⟨.tick m, t⟩ v') (ho : v.Owned)
    (hfo : (v'.core.ms m).flags.lookup o = some fo) : t.now - fo.born < flagLifetime := by
  have hnone : v.planting ⟨.tick m, t⟩ = none := rfl
  obtain ⟨s, hs, -⟩ := ho m o fo ((sink_step h hnone m).flags o fo hfo)
  by_contra hold
  exact lowered h (List.ne_nil_of_mem hs)
    (Or.inr ⟨rfl, Or.inl (Int.not_lt.mp hold)⟩) hfo

theorem battle_flags (hw : w.AttachesOnly) (h : Run (Guarded (Step w) Tended) start es v) :
    (∀ m, BattleFlags w es v m) ∧ ∃ log, Aired w .flags Seated es v log ∧
      ∀ m, mirror ∅ (about m log) = (v.core.ms m).shows .flags := by
  have hI := flown_of_run h
  refine ⟨fun m => ⟨(v.core.ms m).flags.nodupKeys, fun o ho => ?_, (hI.planted m).fresh,
    (hI.planted m).known, (hI.planted m).apart, fun t v' hs o fo hfo => young_step hs hI.owned hfo⟩,
    aired_flags hw h⟩
  obtain ⟨fo, hfo⟩ := Option.isSome_iff_exists.mp (AList.lookup_isSome.mpr ho)
  exact hI.owned m o fo hfo

def ping : Packet := ⟨0, 3, 0, []⟩

-- Two players meet, and the first plants a flag.
def flagUp : List Event :=
  [event 1 (.dispatch 0 join), event 2 (.letIn ⟨0, 0, true, none⟩), event 3 (.start 0),
    event 4 (.dispatch 1 join), event 5 (.letIn ⟨1, 0, false, none⟩), event 6 (.exec 0),
    event 2000000000 (.dispatch 0 plantFlag), event 2000000001 (.exec 0)]

theorem battle_flags_of_flagUp : ∃ v, Run (Guarded (Step bareWorld) Tended) start flagUp v ∧
    (v.core.ms 0).flags.keys.length = 1 ∧ (∀ m, BattleFlags bareWorld flagUp v m) ∧
      ∃ log, Aired bareWorld .flags Seated flagUp v log ∧
        ∀ m, mirror ∅ (about m log) = (v.core.ms m).shows .flags := by
  have hrun : ((flagUp.foldlM (fun (v : Server) e => if v.Tended e then v.step bareWorld e else none)
      start).map fun v : Server => (v.core.ms 0).flags.keys.length) = some 1 := by
    decide +kernel
  obtain ⟨v, hv, hone⟩ := Option.map_eq_some_iff.mp hrun
  exact ⟨v, run_of_checked hv, hone,
    battle_flags (fun _ _ _ h => absurd h List.not_mem_nil) (run_of_checked hv)⟩

-- The first player falls silent and is swept from the roster before his flag is a minute old.
def silenced : List Event :=
  flagUp ++ [event 11000000000 (.dispatch 1 ping), event 12000000000 (.tick 0),
    event 56000000000 (.dispatch 1 ping), event 57000000000 (.tick 0)]

theorem flag_outlives_owner : ∃ v, Run (Step bareWorld) start silenced v ∧
    (v.core.ms 0).players = [1] ∧ ¬ BattleFlags bareWorld silenced v 0 := by
  have hrun : ((silenced.foldlM (step bareWorld) start).map fun v : Server =>
      ((v.core.ms 0).players, (v.core.ms 0).flags.keys, (v.core.ss 1).entityID)) =
        some ([1], [0x01000001], 0x02000003) := by
    decide +kernel
  obtain ⟨v, hv, hend⟩ := Option.map_eq_some_iff.mp hrun
  simp only [Prod.mk.injEq] at hend
  obtain ⟨hcrew, hkeys, hent⟩ := hend
  refine ⟨v, run_of_foldlM hv, hcrew, fun hall => ?_⟩
  obtain ⟨s, hs, ho⟩ := hall.owners 0x01000001 (by rw [hkeys]; exact List.mem_singleton_self _)
  rw [hcrew, List.mem_singleton] at hs
  rw [hs, hent] at ho
  exact absurd ho (by decide)

end Server

end MatchServer

import Madoka.MatchServer.View

namespace MatchServer

open Lib

namespace Core

variable {w : World} {c d e : Core} {s : SessionId} {m : MatchRef} {g k : Field}

theorem member_onSession {f : Session → Session}
    (hf : ∀ p, (f p).entityID = p.entityID ∧ (f p).team = p.team) :
    (c.onSession s f).member = c.member := by
  funext p
  unfold member
  simp only [onSession_ss]
  split
  · rename_i h
    rw [(hf _).1, (hf _).2, h]
  · rfl

theorem field_of_member (hm : d.ms = c.ms) (hs : d.member = c.member) : d.field = c.field := by
  funext m
  unfold field
  rw [hm, hs]

theorem turns_revivePlayer {p : SessionId} :
    Turns m c (revivePlayer m c p) ((c.field m).raiseMember (c.member p)) := by
  refine Turns.keeps (turns_refl.onMatch (fun f => f.raise (c.ss p).entityID) fun _ => ?_)
    keeps_observing (by decide)
  simp only [Match.view, lookup_insert_fun, Field.raise]

theorem member_revivePlayer {p : SessionId} : (revivePlayer m c p).member = c.member :=
  member_onSession fun _ => ⟨rfl, rfl⟩

theorem turns_roster {op : Core → SessionId → Core} {op' : Field → Member → Field}
    (h : ∀ c p, Turns m c (op c p) (op' (c.field m) (c.member p)))
    (hm : ∀ c p, (op c p).member = c.member) (l : List SessionId) (c : Core) :
    Turns m c (l.foldl op c) ((l.map c.member).foldl op' (c.field m)) := by
  induction l generalizing c with
  | nil => exact turns_refl
  | cons p l ih =>
    have hl := ih (op c p)
    rw [(h c p).eq, hm] at hl
    exact (h c p).trans hl

theorem turns_reviveAll : Turns m c (c.reviveAll m) (c.field m).reviveAll := by
  have hfold : Turns m c ((c.ms m).players.foldl (revivePlayer m) c)
      ((c.field m).crew.foldl Field.raiseMember (c.field m)) :=
    turns_roster (fun _ _ => turns_revivePlayer) (fun _ _ => member_revivePlayer) _ c
  unfold reviveAll Field.reviveAll
  refine hfold.onMatch (fun f => { f.raiseBot with
    knock := fun _ => none
    rescues := fun _ => none
    roundOver := false }.note .reset) fun x => ?_
  unfold Field.raiseBot
  generalize core_member : member _ = who
  by_cases hb : x.botEntity = 0
  · have hv : (x.view who).bot = 0 := hb
    simp only [hv, ne_eq, not_true_eq_false, if_false, hb]
    simp only [Match.view, Field.note]
    rfl
  · have hv : (x.view who).bot ≠ 0 := hb
    simp only [if_pos hv, if_pos hb]
    simp only [Match.view, lookup_insert_fun, Field.note, Field.raise]
    rfl

theorem turns_leave : Turns m c ((c.onMatch m fun g =>
      let kept := g.players.filter fun p => decide (p ≠ s)
      { g with
        players := kept
        s := if g.s = s then kept.headD g.s else g.s
        hp := g.hp.erase (c.ss s).entityID
        life := g.life.erase (c.ss s).entityID
        knock := g.knock.erase (c.ss s).entityID }).tally m)
    ((c.field m).leave s (c.ss s).entityID) := by
  refine Turns.tally (Turns.onMatch (fun f => { f with
    crew := f.crew.filter fun x => decide (x.s ≠ s)
    hp := Function.update f.hp (c.ss s).entityID none
    life := Function.update f.life (c.ss s).entityID none
    knock := Function.update f.knock (c.ss s).entityID none }) turns_refl fun x => ?_)
  simp only [Match.view, lookup_erase_fun, List.filter_map]
  rfl

theorem turns_removePlayer : Turns m c (c.removePlayer s m)
    (if (c.field m).sessionBy (c.ss s).entityID = none then c.field m
    else (c.field m).leave s (c.ss s).entityID) := by
  unfold removePlayer
  dsimp only
  rw [sessionByEntity_eq]
  refine Turns.ite (fun _ => turns_refl) fun _ => ?_
  have hdead : ∀ pos, Keeps [.body] c ((c.broadcastData m (.playerQuit (c.ss s).entityID)).emitDeath
      m (c.ss s).entityID 0 1 0 0 2 pos false false) :=
    fun _ => (Frame.refl c).broadcastData.trans keeps_emitDeath
  have hent := fun pos => entityID_of_keeps (hdead pos) (by decide) s
  have hf := fun pos => field_of_keeps (hdead pos) (by decide)
  refine Turns.keeps ?_ keeps_repointSpectators (by decide)
  have hl := fun pos => @turns_leave ((c.broadcastData m (.playerQuit (c.ss s).entityID)).emitDeath
      m (c.ss s).entityID 0 1 0 0 2 pos false false) s m
  simp only [hent, hf] at hl
  exact hl _

theorem turns_retireBot : Turns m c (c.retireBot m) (c.field m).retireBot := by
  unfold retireBot Field.retireBot
  refine Turns.ite (fun _ => turns_refl) fun _ => ?_
  refine Turns.tally (Turns.onMatch (fun f => { f with
    bot := 0
    hp := Function.update f.hp (c.ms m).botEntity none
    life := Function.update f.life (c.ms m).botEntity none
    kills := Function.update f.kills (c.ms m).botEntity none
    deaths := Function.update f.deaths (c.ms m).botEntity none
    damage := Function.update f.damage (c.ms m).botEntity none })
    (turns_refl.keeps (F := []) (Frame.refl _).broadcastData (by decide)) fun _ => ?_)
  simp only [Match.view, lookup_erase_fun]

theorem field_onSession {f : Session → Session} (hs : ∀ m, s ∉ (c.ms m).players) :
    (c.onSession s f).field = c.field := by
  funext m
  unfold field
  simp only [onSession_ms, Match.view]
  congr 1
  refine List.map_congr_left fun p hp => ?_
  have hne : p ≠ s := fun h => hs m (h ▸ hp)
  simp [member, hne]

def joinTeam (c : Core) (s : SessionId) (m : MatchRef) : Nat :=
  c.allocTeam m (c.ss s).player.preferTeam

theorem turns_addPlayer (hs : ∀ m, s ∉ (c.ms m).players) :
    Turns m c (c.addPlayer s m) ((c.field m).enlist s (c.joinTeam s m)) := by
  unfold addPlayer
  dsimp only
  refine Turns.onMatch (fun f => { f with
    slot := (c.field m).nextSlot
    crew := f.crew ++ [⟨s, c.joinTeam s m * 2 ^ 24 + (c.field m).nextSlot, c.joinTeam s m⟩] })
    (turns_refl.of_field (field_onSession hs)) fun x => ?_
  simp only [Match.view, List.map_append, List.map_cons, List.map_nil, member, onSession_ss, if_true]
  rfl

theorem entityID_addPlayer : ((c.addPlayer s m).ss s).entityID =
    c.joinTeam s m * 2 ^ 24 + (c.field m).nextSlot := by
  unfold addPlayer
  simp only [onMatch_ss, onSession_ss, if_true]
  rfl

theorem Turns.raise (h : Turns m c d g) (s : SessionId) : Turns m c (d.onMatch m fun x => { x with
      hp := x.hp.insert (d.ss s).entityID x.settings.maxHP
      life := x.life.insert (d.ss s).entityID .alive }) (g.raise (d.ss s).entityID) := by
  refine h.onMatch (fun f => f.raise (d.ss s).entityID) fun _ => ?_
  simp only [Match.view, lookup_insert_fun, Field.raise]

def seat (c : Core) (s : SessionId) (m : MatchRef) : Core :=
  let c := c.onMatch m fun g => { g with
    hp := g.hp.insert (c.ss s).entityID g.settings.maxHP
    life := g.life.insert (c.ss s).entityID .alive }
  (c.note m (.seated (c.ss s).entityID)).retireBot m

theorem turns_seat (hs : ∀ m, s ∉ (c.ms m).players) {d : Core}
    (hd : Keeps [.body] (c.addPlayer s m) d) :
    Turns m c (d.seat s m) ((c.field m).join s (c.joinTeam s m)) := by
  have hf : Turns m c d ((c.field m).enlist s (c.joinTeam s m)) :=
    (turns_addPlayer hs).keeps hd (by decide)
  have hent : (d.ss s).entityID = c.joinTeam s m * 2 ^ 24 + (c.field m).nextSlot :=
    (entityID_of_keeps hd (by decide) s).trans entityID_addPlayer
  have hup := (hf.raise s).note (.seated (d.ss s).entityID)
  rw [hent] at hup
  have hbot := hup.trans (hup.eq ▸ turns_retireBot)
  unfold seat
  dsimp only [onMatch_ss]
  rw [hent]
  exact hbot

theorem turns_admitLater (hs : ∀ m, s ∉ (c.ms m).players) (hm : (c.ss s).matchRef ≠ none) :
    Turns m c (c.admitLater w s m) ((c.field m).join s (c.joinTeam s m)) := by
  obtain ⟨m', hm'⟩ := Option.ne_none_iff_exists'.mp hm
  have hseat : ∀ spawn : Vec3 × Vec3, Turns m c (((c.addPlayer s m).onSession s fun p =>
      { placed spawn.1 spawn.2 p with playerPos := spawn.1 }).seat s m)
      ((c.field m).join s (c.joinTeam s m)) := fun _ => turns_seat hs keeps_spawned
  unfold admitLater withMatch
  simp only [hm']
  refine (hseat (w.spawnFor ((c.addPlayer s m).ms m).arena
    ((c.addPlayer s m).ss s).faction)).keeps (F := [.kit, .ground]) ?_ (by decide)
  refine Frame.trans (Frame.trans (Frame.trans ?_ (keeps_bindAll.mono (by decide)))
    keeps_giveLoadout) (keeps_sendCSShop.mono (by decide))
  refine Frame.trans (Frame.send ?_) (Frame.foldl (fun _ _ => (Frame.refl _).send) _ _)
  refine Frame.trans ?_ (Frame.foldl (fun _ _ => Frame.trans (Frame.refl _).send
    (keeps_resendEquipTo.mono (by decide))) _ _)
  exact Frame.trans (keeps_joinRes.mono (by decide))
    (Frame.foldl (fun _ _ => (Frame.refl _).send) _ _)

theorem turns_setupMatch (hs : ∀ m, s ∉ (c.ms m).players) : Turns m c (c.setupMatch w s m)
    { (c.field m).setup s (c.joinTeam s m) (c.field m).maxHP with begun := (c.field m).begun } := by
  unfold setupMatch
  generalize (if w.cfg.fixedSpawn.isSome then (noArena, (c.ms m).arenasUsed)
    else c.chooseArena w m) = chosen
  obtain ⟨arena, used⟩ := chosen
  have ha : Turns m c (c.onMatch m fun g => { g with arena := arena, arenasUsed := arena :: used })
      (c.field m) := by
    refine turns_refl.onMatch id fun _ => ?_
    rfl
  have hadd := @turns_addPlayer (c.onMatch m fun g =>
    { g with arena := arena, arenasUsed := arena :: used }) s m fun m' => by
      simp only [onMatch_ms]
      split
      · exact hs m
      · exact hs m'
  have hteam : joinTeam (c.onMatch m fun g =>
      { g with arena := arena, arenasUsed := arena :: used }) s m = c.joinTeam s m := by
    simp only [joinTeam, allocTeam, onMatch_ms, onMatch_ss, if_true]
  rw [ha.eq, hteam] at hadd
  have hslot : ∀ {d}, Turns m c d ((c.field m).enlist s (c.joinTeam s m)) → Turns m c
      (d.onMatch m fun g => { g with round := 1, nextSlot := (g.nextSlot + 1) % 256, botEntity := 0 })
      { (c.field m).setup s (c.joinTeam s m) (c.field m).maxHP with
        begun := (c.field m).begun } := by
    intro d hd
    refine hd.onMatch (fun f => { f with slot := (f.slot + 1) % 256, bot := 0 }) fun _ => ?_
    rfl
  dsimp only
  refine hslot ?_
  split
  · exact (ha.trans hadd).keeps keeps_placed (by decide)
  · exact (ha.trans hadd).keeps keeps_spawned (by decide)

theorem turns_startCSMatch (hm : (c.ss s).matchRef = some m) (hs : (c.ss s).syncStarted = false) :
    Turns m c (c.startCSMatch s) { c.field m with begun := false } := by
  unfold startCSMatch withMatch
  rw [if_neg (by simp [hs])]
  simp only [onSession_ss, if_true, hm]
  refine Turns.onMatch (fun f => { f with begun := false })
    (turns_of_field (field_of_member rfl (member_onSession fun _ => ⟨rfl, rfl⟩))) fun _ => ?_
  rfl

theorem match_addPlayer (p : SessionId) : ((c.addPlayer s m).ss p).matchRef = (c.ss p).matchRef ∧
    ((c.addPlayer s m).ss p).syncStarted = (c.ss p).syncStarted := by
  unfold addPlayer
  simp only [onMatch_ss, onSession_ss]
  split
  · rename_i h
    rw [h]
    exact ⟨rfl, rfl⟩
  · exact ⟨rfl, rfl⟩

theorem match_setupMatch (p : SessionId) :
    ((c.setupMatch w s m).ss p).matchRef = (c.ss p).matchRef ∧
      ((c.setupMatch w s m).ss p).syncStarted = (c.ss p).syncStarted := by
  unfold setupMatch
  generalize (if w.cfg.fixedSpawn.isSome then (noArena, (c.ms m).arenasUsed)
    else c.chooseArena w m) = chosen
  obtain ⟨arena, used⟩ := chosen
  have hadd := @match_addPlayer (c.onMatch m fun g =>
    { g with arena := arena, arenasUsed := arena :: used }) s m p
  dsimp only [onMatch_ss] at hadd ⊢
  split
  · exact ⟨(matchRef_of_keeps keeps_placed (by decide) p).trans hadd.1,
      (syncStarted_of_keeps keeps_placed (by decide) p).trans hadd.2⟩
  · exact ⟨(matchRef_of_keeps keeps_spawned (by decide) p).trans hadd.1,
      (syncStarted_of_keeps keeps_spawned (by decide) p).trans hadd.2⟩

theorem turns_admitFirst (hs : ∀ m, s ∉ (c.ms m).players) (hm : (c.ss s).matchRef = some m)
    (hsync : (c.ss s).syncStarted = false) : Turns m c (c.admitFirst w s m)
    ((c.field m).setup s (c.joinTeam s m)
      (loadMatchSettings w (c.ss s).player.matchID).maxHP) := by
  have hset : Turns m c (c.onMatch m fun g =>
      { g with settings := loadMatchSettings w (c.ss s).player.matchID })
      { c.field m with maxHP := (loadMatchSettings w (c.ss s).player.matchID).maxHP } := by
    refine turns_refl.onMatch (fun f =>
      { f with maxHP := (loadMatchSettings w (c.ss s).player.matchID).maxHP }) fun _ => ?_
    rfl
  have hsetup := @turns_setupMatch w (c.onMatch m fun g =>
    { g with settings := loadMatchSettings w (c.ss s).player.matchID }) s m fun m' => by
      simp only [onMatch_ms]
      split
      · exact hs m
      · exact hs m'
  have hteam : joinTeam (c.onMatch m fun g =>
      { g with settings := loadMatchSettings w (c.ss s).player.matchID }) s m = c.joinTeam s m := by
    simp only [joinTeam, allocTeam, onMatch_ms, onMatch_ss, if_true]
  rw [hset.eq, hteam] at hsetup
  have hquiet : Keeps [] ((c.onMatch m fun g =>
      { g with settings := loadMatchSettings w (c.ss s).player.matchID }).setupMatch w s m)
      (((((c.onMatch m fun g =>
        { g with settings := loadMatchSettings w (c.ss s).player.matchID }).setupMatch w s m).joinRes
          s m).send s .joinMatchFinished).broadcastZoneIndex m) :=
    (keeps_joinRes.send).broadcastData
  have hstart := turns_startCSMatch
    ((matchRef_of_keeps hquiet (by decide) s).trans ((match_setupMatch s).1.trans hm))
    ((syncStarted_of_keeps hquiet (by decide) s).trans ((match_setupMatch s).2.trans hsync))
  have hf := (hset.trans hsetup).keeps hquiet (by decide)
  rw [hf.eq] at hstart
  exact hf.trans hstart

theorem Turns.enter (h : Turns m c d g) (ph : CsPhase) (dur : Int) :
    Turns m c (d.enter m ph dur) { g with phase := ph } := by
  refine h.onMatch (fun f => { f with phase := ph }) fun _ => ?_
  rfl

theorem Turns.raiseBot (h : Turns m c d g) : Turns m c (d.onMatch m fun g => { g with
      hp := if g.botEntity ≠ 0 then g.hp.insert g.botEntity g.settings.maxHP else g.hp
      life := if g.botEntity ≠ 0 then g.life.insert g.botEntity .alive else g.life
      deeds := g.deeds ++ [.reset] }) (g.raiseBot.note .reset) := by
  refine h.onMatch (fun f => f.raiseBot.note .reset) fun x => ?_
  unfold Field.raiseBot
  by_cases hb : x.botEntity ≠ 0
  · have hv : (x.view d.member).bot ≠ 0 := hb
    simp only [if_pos hv, if_pos hb]
    simp only [Match.view, lookup_insert_fun, Field.note, Field.raise]
  · have hv : ¬ (x.view d.member).bot ≠ 0 := hb
    simp only [if_neg hv, if_neg hb]
    rfl

theorem turns_seatAlive {p : SessionId} :
    Turns m c (seatAlive m c p) ((c.field m).raiseMember (c.member p)) := by
  refine Turns.of_field (turns_refl.onMatch (fun f => f.raise (c.ss p).entityID) fun _ => ?_)
    (field_of_member rfl (member_onSession fun _ => ⟨rfl, rfl⟩))
  simp only [Match.view, lookup_insert_fun, Field.raise]

theorem Turns.initHP (h : Turns m c d g) : Turns m c (d.initHP m) g.initHP := by
  unfold Core.initHP
  refine Turns.raiseBot ?_
  have hz : Turns m c (d.onMatch m fun g => { g with
      hp := ∅
      life := ∅
      knock := ∅
      kills := ∅
      deaths := ∅
      damage := ∅
      rescues := ∅ }) g.clear := by
    refine h.onMatch Field.clear fun _ => ?_
    rfl
  have hfold := turns_roster (m := m) (fun _ _ => turns_seatAlive)
    (fun _ _ => member_onSession fun _ => ⟨rfl, rfl⟩)
    ((d.onMatch m fun g => { g with
      hp := ∅
      life := ∅
      knock := ∅
      kills := ∅
      deaths := ∅
      damage := ∅
      rescues := ∅ }).ms m).players (d.onMatch m fun g => { g with
      hp := ∅
      life := ∅
      knock := ∅
      kills := ∅
      deaths := ∅
      damage := ∅
      rescues := ∅ })
  have hcrew : List.map (member _) _ = _ := congrArg Field.crew hz.eq
  rw [hcrew, hz.eq] at hfold
  exact hz.trans hfold

theorem turns_runStart : Turns m c (c.runStart w m) (c.field m).begin_ := by
  unfold runStart
  refine Turns.enter (Turns.initHP (g := { c.field m with begun := true }) ?_) _ _
  refine Turns.onMatch (fun f => { f with begun := true })
    (turns_keeps (F := [.kit]) ((Frame.refl c).onKit (by decide)) (by decide)) fun _ => ?_
  rfl

end Core

end MatchServer

import Madoka.MatchServer.Latecomers
import Madoka.MatchServer.Rejoins

namespace MatchServer

open Lib

structure Session.Badge (p : Session) : Prop where
  team : p.entityID / 2 ^ 24 = p.team
  faction : p.entityID ≠ 0 → p.team = p.faction + 1
  rep : p.entityID ≠ 0 → p.repID + 1 = playerRepID + low p.entityID

namespace Core

variable {w : World} {c d : Core} {s : SessionId} {m : MatchRef} {p : Packet} {F : List Part}

def Badged (c : Core) : Prop := ∀ s, (c.ss s).Badge

theorem badged_of_keeps (hc : c.Badged) (h : Keeps F c d) (hF : Part.seat ∉ F) : d.Badged := by
  intro s
  have hs := (h _ hF).2.1 s
  simp only [Part.sameSession, Prod.mk.injEq] at hs
  obtain ⟨-, -, -, he, hr, hf, ht, -⟩ := hs
  obtain ⟨h1, h2, h3⟩ := hc s
  rw [he, ht] at h1
  rw [he, ht, hf] at h2
  rw [he, hr] at h3
  exact ⟨h1, h2, h3⟩

theorem badged_onSession (hc : c.Badged) {f : Session → Session}
    (hf : ∀ p, (f p).entityID = p.entityID ∧ (f p).repID = p.repID ∧ (f p).faction = p.faction ∧
      (f p).team = p.team) : (c.onSession s f).Badged := by
  intro t
  by_cases ht : t = s
  · subst ht
    obtain ⟨h1, h2, h3⟩ := hc t
    obtain ⟨he, hr, hfa, hte⟩ := hf (c.ss t)
    simp only [onSession_ss, if_true]
    exact ⟨by rw [he, hte, h1], by rw [he, hte, hfa]; exact h2, by rw [he, hr]; exact h3⟩
  · simpa only [onSession_ss, if_neg ht] using hc t

theorem badged_onMatch (hc : c.Badged) {f : Match → Match} : (c.onMatch m f).Badged := hc

theorem badged_addPlayer (hc : c.Badged) : (c.addPlayer s m).Badged := by
  intro t
  have hteam := @joinTeam_cases c s m
  unfold joinTeam at hteam
  unfold addPlayer
  simp only [onMatch_ss, onSession_ss]
  split
  · have hslot : ((c.ms m).nextSlot + 1) % 256 < 256 := Nat.mod_lt _ (by decide)
    revert hteam hslot
    generalize c.allocTeam m (c.ss s).player.preferTeam = team
    generalize ((c.ms m).nextSlot + 1) % 256 = slot
    intro hteam hslot
    refine ⟨?_, fun _ => ?_, fun _ => ?_⟩
    · dsimp only
      omega
    · dsimp only
      omega
    · simp only [low, playerRepID]
      omega
  · exact hc t

theorem badged_setupMatch (hc : c.Badged) : (c.setupMatch w s m).Badged := by
  unfold setupMatch
  generalize (if w.cfg.fixedSpawn.isSome then (noArena, (c.ms m).arenasUsed)
    else c.chooseArena w m) = chosen
  obtain ⟨arena, used⟩ := chosen
  have hadd : ((c.onMatch m fun g =>
      { g with arena := arena, arenasUsed := arena :: used }).addPlayer s m).Badged :=
    badged_addPlayer hc
  dsimp only
  refine badged_onMatch ?_
  split
  · exact badged_of_keeps hadd keeps_placed (by decide)
  · exact badged_of_keeps hadd keeps_spawned (by decide)

theorem badged_startCSMatch (hc : c.Badged) : (c.startCSMatch s).Badged := by
  unfold startCSMatch withMatch
  split
  · exact hc
  · have hs : (c.onSession s fun p => { p with syncStarted := true }).Badged :=
      badged_onSession hc fun p => ⟨rfl, rfl, rfl, rfl⟩
    dsimp only
    split
    · exact hs
    · exact hs

theorem badged_newMatch (hc : c.Badged) : (c.newMatch s).2.Badged := by
  have hnext : ({ c with nextRef := c.nextRef + 1 }.onMatch c.nextRef fun g =>
      { g with s := s }).Badged := hc
  exact badged_onSession (s := s) (f := fun p => { p with matchRef := some c.nextRef }) hnext
    fun _ => ⟨rfl, rfl, rfl, rfl⟩

theorem badged_admitFirst (hc : c.Badged) : (c.admitFirst w s m).Badged := by
  rw [admitFirst_eq]
  refine badged_startCSMatch ?_
  have hset : ((c.onMatch m fun g =>
      { g with settings := loadMatchSettings w (c.ss s).player.matchID }).setupMatch w s m).Badged :=
    badged_setupMatch (badged_onMatch hc)
  exact hset

theorem badged_handleHello (hc : c.Badged) : (c.handleHello w s p).Badged := by
  unfold handleHello
  dsimp only
  split
  · refine badged_startCSMatch (badged_setupMatch (badged_newMatch ?_))
    exact badged_onSession (c := c.send s .helloRes) hc fun p => ⟨rfl, rfl, rfl, rfl⟩
  · exact hc

theorem badged_handleJoinMatchPost (hc : c.Badged) : (c.handleJoinMatchPost w s p).Badged := by
  have hplayer : (c.onSession s fun q => { q with
      player := resolvePlayer w c.now (prepareToken q.prep439 p.payload)
      joined := true }).Badged := badged_onSession hc fun p => ⟨rfl, rfl, rfl, rfl⟩
  rcases @Server.handleJoinMatchPost_cases w c s p with ⟨m, -, -, heq⟩ | heq
  · rw [heq]
    exact hplayer
  · rw [heq]
    exact badged_newMatch hplayer

theorem seat_written (h : Part.seat ∈ writes (cmdOf p.cmd)) :
    cmdOf p.cmd = .reconnect ∨ cmdOf p.cmd = .joinMatchPost := by
  revert h
  cases cmdOf p.cmd <;> decide

theorem badged_route (hc : c.Badged) : (c.route w s p).Badged := by
  by_cases hseat : Part.seat ∈ writes (cmdOf p.cmd)
  · unfold route
    rcases seat_written hseat with hcmd | hcmd
    · rw [hcmd]
      exact badged_handleHello hc
    · rw [hcmd]
      exact badged_handleJoinMatchPost hc
  · exact badged_of_keeps hc keeps_route hseat

theorem badged_admitLater (hc : c.Badged) : (c.admitLater w s m).Badged := by
  by_cases hs : (c.ss s).matchRef = none
  · unfold admitLater withMatch
    simp only [hs]
    exact hc
  · exact badged_of_keeps (badged_addPlayer hc) (keeps_seated hs) (by decide)

theorem badged_admission {a : Admission} (hc : c.Badged) : (c.admission w a).Badged := by
  have href : ({ c with admits := c.admits.erase a }.onSession a.s fun p =>
      { p with matchRef := some a.m }).Badged :=
    badged_onSession (c := { c with admits := c.admits.erase a }) hc fun p => ⟨rfl, rfl, rfl, rfl⟩
  unfold admission admitSession
  dsimp only
  split
  · exact badged_admitFirst href
  · exact badged_onSession (s := a.s) (f := fun p => { p with syncStarted := true }) href
      fun p => ⟨rfl, rfl, rfl, rfl⟩

end Core

namespace Server

open MatchServer.Core Seating

variable {w : World} {v v' : Server} {e : Event} {es : List Event} {s : SessionId} {m : MatchRef}

theorem badged_step (h : v.Step w e v') (hc : v.core.Badged) : v'.core.Badged := by
  have hf := fires_of_step h
  obtain ⟨act, t⟩ := e
  dsimp only at hf
  have hat : ∀ loop, (v.core.atMoment t loop).Badged := fun _ => hc
  cases hf with
  | @dispatch s p hjoining =>
    by_cases hq : ((v.core.atMoment t none).ss s).syncStarted ∨ cmdOf p.cmd = .ack ∨
        cmdOf p.cmd = .ping
    · exact badged_of_keeps (hat none) (dispatch_quiet hq) (by decide)
    · rw [not_or, not_or] at hq
      change ((v.core.atMoment t none).dispatch w s p).Badged
      rw [dispatch_routes hq.1 hq.2.1 hq.2.2]
      exact badged_route (badged_of_keeps (hat none)
        (keeps_touch.trans (keeps_ackIfReliable.mono (by decide))) (by decide))
  | @letIn a ha => exact badged_admission (hat a.loop)
  | @start m _ => exact badged_of_keeps (hat (some m)) keeps_runStart (by decide)
  | @exec m job rest _ _ =>
    cases job with
    | route s p => exact badged_route (hat (some m))
    | admitLater s => exact badged_admitLater (hat (some m))
    | resyncWalls s => exact badged_of_keeps (hat (some m)) keeps_resyncWalls (by decide)
  | @tick m _ => exact badged_of_keeps (hat (some m)) keeps_tick (by decide)
  | @stop m _ _ => exact badged_of_keeps (hat (some m)) keeps_stopLoop (by decide)

end Server

namespace Seating

variable {x y : Seating} {s : SessionId} {m : MatchRef} {a : Admission} {e : Nat} {rest : List Job}

-- Every slot handed out has its place reserved.
structure Fitted (x : Seating) : Prop where
  linked : Linked x
  room : ∀ m, m < x.next →
    max 2 (x.slot m) + x.pending m ≤ x.reserved m + 1 ∧ x.reserved m ≤ maxPlayers
  blank : ∀ m, x.next ≤ m → x.slot m = 0 ∧ x.reserved m = 0 ∧ x.mail m = []
  idle : ∀ m, x.slot m = 0 → x.crew m = [] ∧ x.idle m = true
  slots : ∀ m, x.slot m = 0 ∨ 2 ≤ x.slot m
  fresh : ∀ a ∈ x.admits, a.fresh = true → x.slot a.m = 0
  owners : ((x.admits.filter Admission.fresh).map Admission.m).Nodup

theorem Fitted.calm (h : Fitted x) (hc : Calm x y) : Fitted y where
  linked := h.linked.calm hc
  room := fun m hm => by
    rw [hc.next] at hm
    have hr := h.room m hm
    have hle := hc.pending_le m
    rw [hc.slot, hc.reserved]
    exact ⟨by omega, hr.2⟩
  blank := fun m hm => by
    rw [hc.next] at hm
    obtain ⟨h1, h2, h3⟩ := h.blank m hm
    refine ⟨by rw [hc.slot, h1], by rw [hc.reserved, h2], ?_⟩
    obtain ⟨l, hsub, hl⟩ := hc.mail m
    rw [h3, List.nil_append] at hsub
    refine List.eq_nil_iff_forall_not_mem.mpr fun j hj => ?_
    exact absurd (hl j (hsub.subset hj)).1 (Nat.not_lt.mpr hm)
  idle := fun m hm => by
    rw [hc.slot] at hm
    obtain ⟨h1, h2⟩ := h.idle m hm
    exact ⟨List.sublist_nil.mp (h1 ▸ hc.crew m), by rw [hc.idle, h2]⟩
  slots := by
    rw [hc.slot]
    exact h.slots
  fresh := by
    rw [hc.admits, hc.slot]
    exact h.fresh
  owners := by
    rw [hc.admits]
    exact h.owners

theorem Fitted.enter (h : Fitted x) (hm : a.m < x.next) (hf : a.fresh = false)
    (hr : x.reserved a.m < maxPlayers) : Fitted (x.enter a) where
  linked := h.linked.enter hm
  room := fun m hlt => by
    have hroom := h.room m hlt
    unfold pending at hroom ⊢
    by_cases hmm : m = a.m
    · subst hmm
      simp only [Seating.enter, List.countP_append, List.countP_singleton, Function.update_self,
        beq_self_eq_true, hf, Bool.not_false, Bool.and_self, if_true]
      omega
    · simp only [Seating.enter, List.countP_append, Function.update_of_ne hmm]
      simpa [List.countP_singleton, Ne.symm hmm] using hroom
  blank := fun m hge => by
    have hne : m ≠ a.m := Nat.ne_of_gt (Nat.lt_of_lt_of_le hm hge)
    simpa [Seating.enter, hne] using h.blank m hge
  idle := h.idle
  slots := h.slots
  fresh := fun b hb hbf => by
    rcases List.mem_append.mp hb with hx | hx
    · exact h.fresh b hx hbf
    · rw [List.mem_singleton.mp hx, hf] at hbf
      exact Bool.noConfusion hbf
  owners := by
    simpa [Seating.enter, List.filter_append, hf] using h.owners

theorem Fitted.found (h : Fitted x) {loop : Option MatchRef} : Fitted (x.found s loop) where
  linked := h.linked.found
  room := fun m hm => by
    rcases Nat.lt_succ_iff_lt_or_eq.mp hm with hlt | rfl
    · have hr := h.room m hlt
      have hne : m ≠ x.next := Nat.ne_of_lt hlt
      unfold pending at hr ⊢
      simp only [Seating.found, List.countP_append, Function.update_of_ne hne]
      simpa [List.countP_singleton] using hr
    · obtain ⟨h1, h2, h3⟩ := h.blank x.next (Nat.le_refl _)
      have hzero : x.admits.countP (fun a => a.m == x.next && !a.fresh) = 0 :=
        List.countP_eq_zero.mpr fun a ha => by
          simp [Nat.ne_of_lt (h.linked.entering a ha)]
      simp [Seating.found, pending, List.countP_append, h1, h2, h3, hzero, maxPlayers]
  blank := fun m hm => by
    have hlt : x.next < m := hm
    simpa [Seating.found, Nat.ne_of_gt hlt] using h.blank m (Nat.le_of_lt hlt)
  idle := h.idle
  slots := h.slots
  fresh := fun b hb hbf => by
    rcases List.mem_append.mp hb with hx | hx
    · exact h.fresh b hx hbf
    · rw [List.mem_singleton.mp hx]
      exact (h.blank x.next (Nat.le_refl _)).1
  owners := owners_found h.linked h.owners

theorem Fitted.openWith (h : Fitted x) (ha : a ∈ x.admits) (hf : a.fresh = true) :
    Fitted (x.openWith a e) := by
  have hzero := h.fresh a ha hf
  exact {
    linked := h.linked.openWith ha
    room := fun m hm => by
      have hr := h.room m hm
      have hle : (x.admits.erase a).countP (fun b => b.m == m && !b.fresh) ≤
          x.admits.countP fun b => b.m == m && !b.fresh := List.erase_sublist.countP_le
      unfold pending at hr ⊢
      by_cases hmm : m = a.m
      · subst hmm
        simp only [Seating.openWith, Function.update_self]
        rw [hzero] at hr ⊢
        omega
      · simp only [Seating.openWith, Function.update_of_ne hmm]
        omega
    blank := fun m hm => by
      have hne : m ≠ a.m := Nat.ne_of_gt (Nat.lt_of_lt_of_le (h.linked.entering a ha) hm)
      simpa [Seating.openWith, hne] using h.blank m hm
    idle := fun m hm => by
      have hne : m ≠ a.m := fun hmm => by
        simp only [Seating.openWith, hmm, Function.update_self, hzero] at hm
        omega
      simp only [Seating.openWith, Function.update_of_ne hne] at hm ⊢
      exact h.idle m hm
    slots := fun m => by
      by_cases hmm : m = a.m
      · exact Or.inr (by simp [Seating.openWith, hmm, hzero])
      · simpa [Seating.openWith, hmm] using h.slots m
    fresh := fun b hb hbf => by
      have hne := owner_left h.owners ha hf hb hbf
      simpa only [Seating.openWith, Function.update_of_ne hne] using
        h.fresh b (List.mem_of_mem_erase hb) hbf
    owners := h.owners.sublist ((List.erase_sublist.filter _).map _) }

theorem Fitted.ask (h : Fitted x) (ha : a ∈ x.admits) (hf : a.fresh = false) : Fitted (x.ask a) where
  linked := h.linked.ask ha
  room := fun m hm => by
    have hr := h.room m hm
    unfold pending at hr ⊢
    by_cases hmm : m = a.m
    · subst hmm
      have hcount := countP_erase_of_pos (q := fun b => b.m == a.m && !b.fresh) ha (by simp [hf])
      simp only [Seating.ask, Function.update_self, List.countP_append, List.countP_singleton,
        Job.isLater, if_true]
      omega
    · have hle : (x.admits.erase a).countP (fun b => b.m == m && !b.fresh) ≤
          x.admits.countP fun b => b.m == m && !b.fresh := List.erase_sublist.countP_le
      simp only [Seating.ask, Function.update_of_ne hmm]
      omega
  blank := fun m hm => by
    have hne : m ≠ a.m := Nat.ne_of_gt (Nat.lt_of_lt_of_le (h.linked.entering a ha) hm)
    simpa [Seating.ask, hne] using h.blank m hm
  idle := h.idle
  slots := h.slots
  fresh := fun b hb hbf => h.fresh b (List.mem_of_mem_erase hb) hbf
  owners := h.owners.sublist ((List.erase_sublist.filter _).map _)

theorem Fitted.slot_left (h : Fitted x) (hm : x.mail m = .admitLater s :: rest)
    (hi : x.idle m = false) : m < x.next ∧ 2 ≤ x.slot m ∧ x.slot m ≤ maxPlayers := by
  have hne : x.slot m ≠ 0 := fun hz => by
    rw [(h.idle m hz).2] at hi
    exact Bool.noConfusion hi
  have hlt : m < x.next := by
    by_contra hge
    exact hne (h.blank m (Nat.not_lt.mp hge)).1
  have htwo := (h.slots m).resolve_left hne
  have hr := h.room m hlt
  unfold pending at hr
  rw [hm, List.countP_cons_of_pos (by rfl)] at hr
  refine ⟨hlt, htwo, ?_⟩
  omega

theorem Fitted.sit (h : Fitted x) (hm : x.mail m = .admitLater s :: rest) (hi : x.idle m = false) :
    Fitted (x.sit s m e rest) := by
  obtain ⟨hlt, htwo, hmax⟩ := h.slot_left hm hi
  have hslot : (x.slot m + 1) % 256 = x.slot m + 1 := Nat.mod_eq_of_lt (by
    unfold maxPlayers at hmax
    omega)
  exact {
    linked := h.linked.sit hm
    room := fun m' hm' => by
      have hr := h.room m' hm'
      unfold pending at hr ⊢
      by_cases hmm : m' = m
      · subst hmm
        rw [hm, List.countP_cons_of_pos (by rfl)] at hr
        simp only [Seating.sit, Function.update_self, hslot]
        omega
      · simpa only [Seating.sit, Function.update_of_ne hmm] using hr
    blank := fun m' hm' => by
      have hne : m' ≠ m := Nat.ne_of_gt (Nat.lt_of_lt_of_le hlt hm')
      simpa [Seating.sit, hne] using h.blank m' hm'
    idle := fun m' hm' => by
      have hne : m' ≠ m := fun hmm => by
        simp only [Seating.sit, hmm, Function.update_self, hslot] at hm'
        omega
      simp only [Seating.sit, Function.update_of_ne hne] at hm' ⊢
      exact h.idle m' hm'
    slots := fun m' => by
      by_cases hmm : m' = m
      · refine Or.inr ?_
        simp only [Seating.sit, hmm, Function.update_self, hslot]
        omega
      · simpa [Seating.sit, hmm] using h.slots m'
    fresh := fun b hb hbf => by
      have hz := h.fresh b hb hbf
      have hne : b.m ≠ m := fun hmm => by
        rw [hmm] at hz
        omega
      simpa only [Seating.sit, Function.update_of_ne hne] using hz
    owners := h.owners }

-- A session takes the next slot of a match.
structure Takes (x y : Seating) (s : SessionId) (m : MatchRef) (team : Nat) : Prop where
  side : team = 1 ∨ team = 2
  entity : y.entity = Function.update x.entity s (team * 2 ^ 24 + (x.slot m + 1))
  crew : y.crew = Function.update x.crew m (x.crew m ++ [s])
  next : ∀ m', x.slot m' ≤ y.slot m'
  slot : x.slot m + 1 ≤ y.slot m
  left : x.slot m = 0 ∨ 2 ≤ x.slot m
  few : x.slot m ≤ maxPlayers

theorem Fitted.takes_openWith (h : Fitted x) (ha : a ∈ x.admits) (hf : a.fresh = true) {team : Nat}
    (hteam : team = 1 ∨ team = 2) :
    Takes x (x.openWith a (team * 2 ^ 24 + (x.slot a.m + 1) % 256)) a.s a.m team := by
  have hzero := h.fresh a ha hf
  refine ⟨hteam, ?_, rfl, fun m' => ?_, ?_, Or.inl hzero, ?_⟩
  · simp only [Seating.openWith, hzero]
  · by_cases hm : m' = a.m
    · rw [hm, hzero]
      exact Nat.zero_le _
    · simp only [Seating.openWith, Function.update_of_ne hm]
      exact Nat.le_refl _
  · simp [Seating.openWith, hzero]
  · rw [hzero]
    exact Nat.zero_le _

theorem Fitted.takes_sit (h : Fitted x) (hm : x.mail m = .admitLater s :: rest)
    (hi : x.idle m = false) {team : Nat} (hteam : team = 1 ∨ team = 2) :
    Takes x (x.sit s m (team * 2 ^ 24 + (x.slot m + 1) % 256) rest) s m team := by
  obtain ⟨-, htwo, hmax⟩ := h.slot_left hm hi
  have hslot : (x.slot m + 1) % 256 = x.slot m + 1 := Nat.mod_eq_of_lt (by
    unfold maxPlayers at hmax
    omega)
  refine ⟨hteam, by simp only [Seating.sit, hslot], rfl, fun m' => ?_, ?_, Or.inr htwo, hmax⟩
  · by_cases hmm : m' = m
    · simp only [Seating.sit, hmm, Function.update_self, hslot]
      exact Nat.le_succ _
    · simp only [Seating.sit, Function.update_of_ne hmm]
      exact Nat.le_refl _
  · simp only [Seating.sit, Function.update_self, hslot]
    exact Nat.le_refl _

structure Rests (x y : Seating) : Prop where
  entity : y.entity = x.entity
  crew : y.crew = x.crew
  slot : y.slot = x.slot

end Seating

structure Placement where
  m : MatchRef
  s : SessionId
  entity : Nat
  repID : Nat
  faction : Nat
  team : Nat
  prefer : Nat
  deriving DecidableEq, Repr

namespace Server

open MatchServer.Core Seating

variable {w : World} {v v' : Server} {e : Event} {act : Action} {es : List Event} {s : SessionId}
  {m : MatchRef} {y : Seating} {ps : List Placement}

theorem fitted_shift (h : Fitted v.seating) (hs : v.Shift act y) : Fitted y := by
  cases hs with
  | quiet => exact h
  | reserve _ _ hm hadmit =>
    simp only [Match.canAdmit, Bool.and_eq_true, decide_eq_true_eq] at hadmit
    exact h.enter (h.linked.live _ hm) rfl hadmit.2
  | found => exact h.found
  | resume =>
    refine h.found.openWith ?_ rfl
    exact List.mem_append_right _ List.mem_cons_self
  | first ha hf => exact h.openWith ha hf
  | ask ha hf => exact h.ask ha hf
  | sit hm hfree _ =>
    refine h.sit hm ?_
    simp [seating, running_of_free hfree]

theorem fitted_step (h : v.Step w e v') (hx : Fitted v.seating) : Fitted v'.seating := by
  obtain ⟨y, hs, hc⟩ := shifts h hx.linked
  exact (fitted_shift hx hs).calm hc

theorem fitted_start : Fitted start.seating where
  linked := linked_start
  room := nofun
  blank := fun _ _ => ⟨rfl, rfl, rfl⟩
  idle := fun _ _ => ⟨rfl, rfl⟩
  slots := fun _ => Or.inl rfl
  fresh := fun _ h => absurd h List.not_mem_nil
  owners := List.nodup_nil

theorem seatedBy_of_join {p : Packet} {loop : Option MatchRef} (hr : v.Runs s p loop act)
    (hcmd : cmdOf p.cmd = .joinMatchPost) : v.seatedBy act = none := by
  cases act with
  | dispatch s' p' =>
    obtain ⟨rfl, rfl, -⟩ := hr
    exact if_neg fun hh => absurd (hcmd.symm.trans hh.2.2.1) (by decide)
  | exec m =>
    obtain ⟨-, rest, hm⟩ := hr
    simp [seatedBy, hm]
  | letIn => exact absurd hr id
  | start => exact absurd hr id
  | tick => exact absurd hr id
  | stop => exact absurd hr id

theorem takes_or_rests (h : Fitted v.seating) (hs : v.Shift act y) :
    (v.seatedBy act = none ∧ Rests v.seating y) ∨
    ∃ s m team, v.seatedBy act = some (s, m) ∧ Takes v.seating y s m team ∧
      ((v.core.ms m).players = [] ∨
        team = v.core.joinTeam s m ∧ act = .exec m ∧ ∃ rest, v.mail m = .admitLater s :: rest) := by
  cases hs with
  | quiet hnone => exact Or.inl ⟨hnone, rfl, rfl, rfl⟩
  | reserve hr hcmd => exact Or.inl ⟨seatedBy_of_join hr hcmd, rfl, rfl, rfl⟩
  | found hr hcmd => exact Or.inl ⟨seatedBy_of_join hr hcmd, rfl, rfl, rfl⟩
  | @resume s p team hr hcmd hnone hteam =>
    have hby : v.seatedBy (.dispatch s p) = some (s, v.core.nextRef) :=
      if_pos ⟨hr.2.2.2.1, hr.2.2.2.2, hcmd, hnone⟩
    have hempty := (h.idle _ (h.blank v.core.nextRef (Nat.le_refl _)).1).1
    have ht := (@Fitted.found _ s h none).takes_openWith
      (a := ⟨s, v.core.nextRef, true, none⟩) (List.mem_append_right _ List.mem_cons_self) rfl hteam
    exact Or.inr ⟨s, v.core.nextRef, team, hby,
      ⟨ht.side, ht.entity, ht.crew, ht.next, ht.slot, ht.left, ht.few⟩, Or.inl hempty⟩
  | @first a team ha hf hteam =>
    have hempty := (h.idle _ (h.fresh a ha hf)).1
    exact Or.inr ⟨a.s, a.m, team, if_pos ⟨ha, hf⟩, h.takes_openWith ha hf hteam, Or.inl hempty⟩
  | ask ha hf => exact Or.inl ⟨by simp [seatedBy, hf], rfl, rfl, rfl⟩
  | @sit m s rest hm hfree hs =>
    have hidle : v.seating.idle m = false := by simp [seating, running_of_free hfree]
    exact Or.inr ⟨s, m, v.core.joinTeam s m, by simp [seatedBy, hm, hfree, hs],
      h.takes_sit hm hidle joinTeam_cases, Or.inr ⟨rfl, rfl, rest, hm⟩⟩

def placement (v : Server) (s : SessionId) (m : MatchRef) : Placement where
  m := m
  s := s
  entity := (v.core.ss s).entityID
  repID := (v.core.ss s).repID
  faction := (v.core.ss s).faction
  team := (v.core.ss s).team
  prefer := (v.core.ss s).player.preferTeam

def placed (w : World) (v : Server) (e : Event) : List Placement :=
  match v.seatedBy e.act, v.step w e with
  | some (s, m), some v' => [v'.placement s m]
  | _, _ => []

def placements (w : World) (es : List Event) : List Placement :=
  logged (step w) (placed w) start es

theorem placed_of_some (h : v.Step w e v') (hby : v.seatedBy e.act = some (s, m)) :
    placed w v e = [v'.placement s m] := by
  have hstep : v.step w e = some v' := h
  simp only [placed, hby, hstep]

theorem placed_of_none (hby : v.seatedBy e.act = none) : placed w v e = [] := by
  simp only [placed, hby]

structure Recorded (ps : List Placement) (v : Server) : Prop where
  fitted : Fitted v.seating
  badged : v.core.Badged
  slots : ∀ r ∈ ps, 1 ≤ low r.entity ∧ low r.entity ≤ v.seating.slot r.m ∧ low r.entity ≠ 2 ∧
    low r.entity ≤ maxPlayers + 1
  distinct : ps.Pairwise fun r q => r.m = q.m → low r.entity ≠ low q.entity
  badges : ∀ r ∈ ps, r.entity / 2 ^ 24 = r.team ∧ r.team = r.faction + 1 ∧
    r.repID + 1 = playerRepID + low r.entity
  crews : ∀ m, (v.core.ms m).players.Sublist ((ps.filter fun r => r.m == m).map Placement.s)
  seated : ∀ m, ∀ s ∈ (v.core.ms m).players, (v.core.ss s).entityID ≠ 0

theorem recorded_step (h : v.Step w e v') (hp : Recorded ps v) :
    Recorded (ps ++ placed w v e) v' := by
  obtain ⟨y, hs, hc⟩ := shifts h hp.fitted.linked
  have hbadged := badged_step h hp.badged
  have hslot : ∀ m, v'.seating.slot m = y.slot m := fun m => congrFun hc.slot m
  rcases takes_or_rests hp.fitted hs with ⟨hby, hr⟩ | ⟨s, m, team, hby, ht, -⟩
  · rw [placed_of_none hby, List.append_nil]
    refine ⟨fitted_step h hp.fitted, hbadged, fun r hr' => ?_, hp.distinct, hp.badges, fun m => ?_,
      fun m s hs' => ?_⟩
    · rw [hslot, hr.slot]
      exact hp.slots r hr'
    · have hcrew := hc.crew m
      rw [hr.crew] at hcrew
      exact hcrew.trans (hp.crews m)
    · have hin : s ∈ y.crew m := (hc.crew m).subset hs'
      rw [hr.crew] at hin
      have he : (v'.core.ss s).entityID = v.seating.entity s := by
        rw [← hr.entity]
        exact congrFun hc.entity s
      rw [he]
      exact hp.seated m s hin
  · rw [placed_of_some h hby]
    have hent : (v'.core.ss s).entityID = team * 2 ^ 24 + (v.seating.slot m + 1) := by
      have he := congrFun (hc.entity.trans ht.entity) s
      rwa [Function.update_self] at he
    have hfew := ht.few
    have hleft := ht.left
    have hside := ht.side
    unfold maxPlayers at hfew
    have hlow : low (v'.placement s m).entity = v.seating.slot m + 1 := by
      change low (v'.core.ss s).entityID = _
      rw [hent]
      exact low_entity (by omega)
    have hne : (v'.core.ss s).entityID ≠ 0 := by
      rw [hent]
      omega
    obtain ⟨h1, h2, h3⟩ := hbadged s
    refine ⟨fitted_step h hp.fitted, hbadged, fun r hr => ?_, ?_, fun r hr => ?_, fun m' => ?_,
      fun m' s' hs' => ?_⟩
    · rcases List.mem_append.mp hr with hx | hx
      · obtain ⟨ha, hb, hc'⟩ := hp.slots r hx
        exact ⟨ha, by rw [hslot]; exact hb.trans (ht.next r.m), hc'⟩
      · rw [List.mem_singleton.mp hx, hlow]
        refine ⟨Nat.le_add_left _ _, ?_, by omega, Nat.add_le_add_right ht.few 1⟩
        rw [hslot]
        exact ht.slot
    · refine List.pairwise_append.mpr ⟨hp.distinct, List.pairwise_singleton _ _, fun r hr q hq => ?_⟩
      rw [List.mem_singleton.mp hq, hlow]
      intro hm
      have hle := (hp.slots r hr).2.1
      rw [show r.m = m from hm] at hle
      exact Nat.ne_of_lt (Nat.lt_succ_of_le hle)
    · rcases List.mem_append.mp hr with hx | hx
      · exact hp.badges r hx
      · rw [List.mem_singleton.mp hx]
        exact ⟨h1, h2 hne, h3 hne⟩
    · have hcrew := hc.crew m'
      rw [ht.crew] at hcrew
      rw [List.filter_append, List.map_append]
      by_cases hm : m' = m
      · subst hm
        rw [Function.update_self] at hcrew
        have hone : ([v'.placement s m'].filter fun r => r.m == m').map Placement.s = [s] := by
          simp [placement]
        rw [hone]
        exact hcrew.trans ((hp.crews m').append_right [s])
      · rw [Function.update_of_ne hm] at hcrew
        have hnone : ([v'.placement s m].filter fun r => r.m == m').map Placement.s = [] := by
          simp [placement, Ne.symm hm]
        rw [hnone, List.append_nil]
        exact hcrew.trans (hp.crews m')
    · by_cases hss : s' = s
      · rw [hss]
        exact hne
      · have hin : s' ∈ v.seating.crew m' := by
          have hin := (hc.crew m').subset hs'
          rw [ht.crew] at hin
          by_cases hm : m' = m
          · subst hm
            rw [Function.update_self] at hin
            exact (List.mem_append.mp hin).resolve_right fun hx => hss (List.mem_singleton.mp hx)
          · rwa [Function.update_of_ne hm] at hin
        have he : (v'.core.ss s').entityID = v.seating.entity s' := by
          have he := congrFun (hc.entity.trans ht.entity) s'
          rwa [Function.update_of_ne hss] at he
        rw [he]
        exact hp.seated m' s' hin

theorem recorded_of_run (h : Run (Step w) start es v) : Recorded (placements w es) v := by
  refine (run_history (I := fun es v => Run (Step w) start es v ∧ Recorded (placements w es) v) h
    ⟨.start, ?_⟩ fun {es a e b} ⟨hrun, hp⟩ hs => ⟨hrun.next hs, ?_⟩).2
  · exact ⟨fitted_start, fun _ => ⟨Nat.zero_div _, fun h => absurd rfl h, fun h => absurd rfl h⟩,
      fun _ h => absurd h List.not_mem_nil, List.Pairwise.nil, fun _ h => absurd h List.not_mem_nil,
      fun _ => List.Sublist.refl _, fun _ _ h => absurd h List.not_mem_nil⟩
  · have hsnoc : placements w (es ++ [e]) = placements w es ++ placed w a e := logged_snoc hrun
    rw [hsnoc]
    exact recorded_step hs hp

theorem not_seated_of_seatedBy (h : Once v.seating) (hby : v.seatedBy act = some (s, m))
    (m' : MatchRef) : s ∉ (v.core.ms m').players := by
  intro hm'
  have href := h.seated m' s hm'
  cases act with
  | dispatch s' p =>
    simp only [seatedBy, Option.ite_none_right_eq_some, Option.some.injEq, Prod.mk.injEq] at hby
    obtain ⟨hh, rfl, -⟩ := hby
    exact absurd (hh.2.2.2.symm.trans href) (by simp)
  | letIn a =>
    simp only [seatedBy, Option.ite_none_right_eq_some, Option.some.injEq, Prod.mk.injEq] at hby
    obtain ⟨hh, rfl, -⟩ := hby
    exact (h.entering a hh.1 m').1 hm'
  | exec m0 =>
    dsimp only [seatedBy] at hby
    split at hby
    · rename_i s' rest hm
      simp only [Option.ite_none_right_eq_some, Option.some.injEq, Prod.mk.injEq] at hby
      obtain ⟨-, rfl, rfl⟩ := hby
      have hin : Job.admitLater s' ∈ v.mail m0 := by
        rw [hm]
        exact List.mem_cons_self
      obtain ⟨href', hout⟩ := h.laters m0 s' hin
      obtain rfl := Option.some.inj (href'.symm.trans href)
      exact hout hm'
    · cases hby
  | start => cases hby
  | tick => cases hby
  | stop => cases hby

theorem teamCount_eq {c : Core} (hc : c.Badged) (k : Nat) :
    c.teamCount m k = (c.ms m).players.countP fun p => (c.ss p).entityID / 2 ^ 24 == k := by
  unfold teamCount
  simp only [(hc _).team]

theorem joinTeam_of_no_prefer {c : Core} (h1 : (c.ss s).player.preferTeam ≠ 1)
    (h2 : (c.ss s).player.preferTeam ≠ 2) :
    c.joinTeam s m = if c.teamCount m 2 < c.teamCount m 1 then 2 else 1 := by
  unfold joinTeam allocTeam teamCount
  rw [if_neg (by simp [h1, h2])]

theorem prefer_of_later {rest : List Job} (h : v.Step w e v') (hact : e.act = .exec m)
    (hm : v.mail m = .admitLater s :: rest) :
    (v'.core.ss s).player.preferTeam = (v.core.ss s).player.preferTeam := by
  have hf := fires_of_step h
  rw [hact] at hf
  cases hf with
  | exec hm' _ =>
    rw [hm] at hm'
    obtain ⟨rfl, rfl⟩ := List.cons.inj hm'
    have hk := (@keeps_admitLater w (v.core.atMoment e.moment (some m)) s m .identity (by decide)).2.1 s
    simp only [Part.sameSession, Prod.mk.injEq] at hk
    exact hk.2.2.2.2.2.symm

def Balanced (ps : List Placement) (v : Server) : Prop :=
  ∀ m, (ps.filter fun r => r.m == m).map Placement.s = (v.core.ms m).players →
    (∀ r ∈ ps, r.m = m → r.prefer ≠ 1 ∧ r.prefer ≠ 2) →
    v.core.teamCount m 1 ≤ v.core.teamCount m 2 + 1 ∧ v.core.teamCount m 2 ≤ v.core.teamCount m 1 + 1

theorem teamCount_of_entity {c d : Core} (hc : c.Badged) (hd : d.Badged)
    (hcrew : (d.ms m).players = (c.ms m).players)
    (hent : ∀ p ∈ (c.ms m).players, (d.ss p).entityID = (c.ss p).entityID) (k : Nat) :
    d.teamCount m k = c.teamCount m k := by
  rw [teamCount_eq hc, teamCount_eq hd, hcrew]
  refine List.countP_congr fun p hp => ?_
  rw [hent p hp]

theorem balanced_step (h : v.Step w e v') (hx : Once v.seating) (hp : Recorded ps v)
    (hb : Balanced ps v) : Balanced (ps ++ placed w v e) v' := by
  obtain ⟨y, hs, hc⟩ := shifts h hp.fitted.linked
  have hbadged := badged_step h hp.badged
  intro m' hall hpref
  have hkept : y.crew m' = (v.core.ms m').players → y.entity = v.seating.entity ∨
      (∃ s, s ∉ (v.core.ms m').players ∧ ∀ p, p ≠ s → y.entity p = (v.core.ss p).entityID) →
      (ps.filter fun r => r.m == m').map Placement.s = (v'.core.ms m').players →
      (∀ r ∈ ps, r.m = m' → r.prefer ≠ 1 ∧ r.prefer ≠ 2) →
      v'.core.teamCount m' 1 ≤ v'.core.teamCount m' 2 + 1 ∧
        v'.core.teamCount m' 2 ≤ v'.core.teamCount m' 1 + 1 := by
    intro hcrew hent hall hpref
    have hsub : (v'.core.ms m').players.Sublist (v.core.ms m').players := hcrew ▸ hc.crew m'
    have hsame : (v.core.ms m').players = (v'.core.ms m').players :=
      (hall ▸ hp.crews m').antisymm hsub
    have hids : ∀ p ∈ (v.core.ms m').players, (v'.core.ss p).entityID = (v.core.ss p).entityID := by
      intro p hpm
      have he : (v'.core.ss p).entityID = y.entity p := congrFun hc.entity p
      rcases hent with hent | ⟨s, hs, hent⟩
      · rw [he, hent]
        rfl
      · rw [he, hent p fun hps => hs (hps ▸ hpm)]
    rw [teamCount_of_entity hp.badged hbadged hsame.symm hids,
      teamCount_of_entity hp.badged hbadged hsame.symm hids]
    exact hb m' (hall.trans hsame.symm) hpref
  rcases takes_or_rests hp.fitted hs with ⟨hby, hr⟩ | ⟨s, m, team, hby, ht, hjoin⟩
  · rw [placed_of_none hby, List.append_nil] at hall hpref
    exact hkept (congrFun hr.crew m') (Or.inl hr.entity) hall hpref
  have hout := not_seated_of_seatedBy hx hby
  have hother : ∀ p, p ≠ s → y.entity p = (v.core.ss p).entityID := fun p hps => by
    rw [ht.entity, Function.update_of_ne hps]
    rfl
  rw [placed_of_some h hby] at hall hpref
  by_cases hm : m' = m
  · subst hm
    have hone : ([v'.placement s m'].filter fun r => r.m == m').map Placement.s = [s] := by
      simp [placement]
    rw [List.filter_append, List.map_append, hone] at hall
    have hcrew : (v'.core.ms m').players.Sublist ((v.core.ms m').players ++ [s]) := by
      have hsub := hc.crew m'
      rwa [ht.crew, Function.update_self] at hsub
    have hbefore : (ps.filter fun r => r.m == m').map Placement.s = (v.core.ms m').players := by
      rw [← hall] at hcrew
      have hlen := hcrew.length_le
      simp only [List.length_append, List.length_singleton] at hlen
      exact ((hp.crews m').eq_of_length_le (by omega)).symm
    rw [hbefore] at hall
    have hside := ht.side
    have hteam : (v'.core.ss s).entityID / 2 ^ 24 = team := by
      have he : (v'.core.ss s).entityID = _ := congrFun (hc.entity.trans ht.entity) s
      have hfew := ht.few
      unfold maxPlayers at hfew
      rw [he, Function.update_self]
      omega
    have hcount : ∀ k, v'.core.teamCount m' k =
        v.core.teamCount m' k + if team = k then 1 else 0 := by
      intro k
      rw [teamCount_eq hp.badged, teamCount_eq hbadged, ← hall, List.countP_append]
      congr 1
      · refine List.countP_congr fun p hpm => ?_
        have he : (v'.core.ss p).entityID = y.entity p := congrFun hc.entity p
        rw [he, hother p fun hps => hout m' (hps ▸ hpm)]
      · rw [List.countP_singleton, hteam]
        simp only [beq_iff_eq]
    rw [hcount, hcount]
    rcases hjoin with hempty | ⟨hjoin, hact, rest, hmail⟩
    · have hzero : ∀ k, v.core.teamCount m' k = 0 := fun k => by
        unfold teamCount
        rw [hempty]
        rfl
      rw [hzero, hzero]
      rcases hside with rfl | rfl
      · decide
      · decide
    · obtain ⟨hp1, hp2⟩ := hpref _ (List.mem_append_right _ List.mem_cons_self) rfl
      have hsame := prefer_of_later h hact hmail
      have hfree := joinTeam_of_no_prefer (c := v.core) (s := s) (m := m')
        (fun hh => hp1 (hsame.trans hh)) (fun hh => hp2 (hsame.trans hh))
      obtain ⟨hb1, hb2⟩ := hb m' hbefore fun r hr => hpref r (List.mem_append_left _ hr)
      rw [← hjoin] at hfree
      split at hfree
      · subst hfree
        simp only [if_true, show ¬ 2 = 1 by decide, if_false]
        omega
      · subst hfree
        simp only [if_true, show ¬ 1 = 2 by decide, if_false]
        omega
  · have hnone : ([v'.placement s m].filter fun r => r.m == m').map Placement.s = [] := by
      simp [placement, Ne.symm hm]
    rw [List.filter_append, List.map_append, hnone, List.append_nil] at hall
    refine hkept ?_ (Or.inr ⟨s, hout m', hother⟩) hall
      fun r hr => hpref r (List.mem_append_left _ hr)
    rw [ht.crew, Function.update_of_ne hm]
    rfl

-- The ids given out in a match are told apart, also from the bot's, and name the side they play on.
structure Identified (ps : List Placement) (v : Server) (m : MatchRef) : Prop where
  entities : ((ps.filter fun r => r.m == m).map Placement.entity).Nodup
  reps : ((ps.filter fun r => r.m == m).map Placement.repID).Nodup
  bot : ∀ r ∈ ps, r.m = m → r.entity ≠ botEntityID ∧ r.repID ≠ botRepID
  sides : ∀ r ∈ ps, r.m = m → r.entity / 2 ^ 24 = r.team ∧ r.team = r.faction + 1
  seated : ∀ s ∈ (v.core.ms m).players, (v.core.ss s).entityID / 2 ^ 24 = (v.core.ss s).team ∧
    (v.core.ss s).team = (v.core.ss s).faction + 1

theorem Recorded.identified (h : Recorded ps v) : Identified ps v m := by
  have hpair : (ps.filter fun r => r.m == m).Pairwise fun r q => low r.entity ≠ low q.entity := by
    have hall : ∀ r ∈ ps.filter (fun r => r.m == m), r.m = m := fun r hr => by
      simpa using (List.mem_filter.mp hr).2
    refine (h.distinct.filter _).imp_of_mem fun hr hq hne => ?_
    exact hne ((hall _ hr).trans (hall _ hq).symm)
  refine ⟨?_, ?_, fun r hr _ => ⟨fun he => ?_, fun he => ?_⟩, fun r hr _ => ?_, fun s hs => ?_⟩
  · exact List.pairwise_map.mpr (hpair.imp fun {r q} hne he => hne (congrArg low he))
  · refine List.pairwise_map.mpr (hpair.imp_of_mem fun {r q} hr hq hne he => hne ?_)
    have h1 := (h.badges r (List.mem_of_mem_filter hr)).2.2
    have h2 := (h.badges q (List.mem_of_mem_filter hq)).2.2
    omega
  · have hlow := (h.slots r hr).2.2.1
    rw [he] at hlow
    exact hlow (by decide)
  · have hlow := (h.slots r hr).2.2.1
    have hrep := (h.badges r hr).2.2
    rw [he] at hrep
    unfold botRepID playerRepID at hrep
    omega
  · obtain ⟨h1, h2, -⟩ := h.badges r hr
    exact ⟨h1, h2⟩
  · exact ⟨(h.badged s).team, (h.badged s).faction (h.seated m s hs)⟩

theorem balanced_of_run (h : Run (Guarded (Step w) Vacant) start es v) :
    Balanced (placements w es) v := by
  refine (run_history (I := fun es v => Run (Guarded (Step w) Vacant) start es v ∧
    Balanced (placements w es) v) h ⟨.start, ?_⟩ fun {es a e b} ⟨hrun, hb⟩ hs => ⟨hrun.next hs, ?_⟩).2
  · exact fun _ _ _ => ⟨Nat.zero_le _, Nat.zero_le _⟩
  · have hplain := guarded_run hrun
    have hsnoc : placements w (es ++ [e]) = placements w es ++ placed w a e := logged_snoc hplain
    rw [hsnoc]
    exact balanced_step hs.1 (once_of_run hrun fun _ _ hc => hc) (recorded_of_run hplain) hb

theorem identities (h : Run (Step w) start es v) :
    (∀ m, Identified (placements w es) v m) ∧
      (Run (Guarded (Step w) Vacant) start es v → Balanced (placements w es) v) :=
  ⟨fun _ => (recorded_of_run h).identified, balanced_of_run⟩

theorem identities_of_pair : ∃ v, Run (Guarded (Step signedWorld) Vacant) start pairUp v ∧
    (v.core.ms 0).players = [0, 1] ∧ Identified (placements signedWorld pairUp) v 0 ∧
    Balanced (placements signedWorld pairUp) v := by
  have hrun : (pairUp.foldlM (fun v e => if Vacant v e then step signedWorld v e else none)
      start).map (fun v : Server => (v.core.ms 0).players) = some [0, 1] := by decide +kernel
  obtain ⟨v, hv, hp⟩ := Option.map_eq_some_iff.mp hrun
  have h := run_of_checked hv
  have hall := identities (guarded_run h)
  exact ⟨v, h, hp, hall.1 0, hall.2 h⟩

-- Two players without a preference; the second sends its 440 again and moves to the first's team.
def flipped : List Event :=
  opens 1 0 0 join ++ joins 2 1 0 join ++ sends 3 1 0 join ++
    [event 3 (.letIn ⟨1, 0, false, some 0⟩), event 3 (.exec 0)]

theorem rejoin_unbalances : ∃ v, Run (Step bareWorld) start flipped v ∧
    (placements bareWorld flipped).map (fun r => (r.s, r.prefer)) = [(0, 0), (1, 0), (1, 0)] ∧
    (v.core.ms 0).players = [0, 1, 1] ∧ v.core.teamCount 0 1 = 3 ∧ v.core.teamCount 0 2 = 0 ∧
    ¬ Balanced (placements bareWorld flipped) v := by
  have hrun : (flipped.foldlM (step bareWorld) start).map (fun v : Server =>
      ((v.core.ms 0).players, v.core.teamCount 0 1, v.core.teamCount 0 2)) =
      some ([0, 1, 1], 3, 0) := by
    decide +kernel
  have hlog : (placements bareWorld flipped).map (fun r => (r.m, r.s, r.prefer)) =
      [(0, 0, 0), (0, 1, 0), (0, 1, 0)] := by
    decide +kernel
  obtain ⟨v, hv, hp⟩ := Option.map_eq_some_iff.mp hrun
  simp only [Prod.mk.injEq] at hp
  obtain ⟨hplayers, hone, htwo⟩ := hp
  have hall : ∀ r ∈ placements bareWorld flipped, r.m = 0 ∧ r.prefer = 0 := fun r hr => by
    have hin := List.mem_map_of_mem (f := fun r : Placement => (r.m, r.s, r.prefer)) hr
    rw [hlog] at hin
    simp only [List.mem_cons, List.not_mem_nil, or_false, Prod.mk.injEq] at hin
    rcases hin with ⟨h1, -, h3⟩ | ⟨h1, -, h3⟩ | ⟨h1, -, h3⟩
    · exact ⟨h1, h3⟩
    · exact ⟨h1, h3⟩
    · exact ⟨h1, h3⟩
  have hlog' : (placements bareWorld flipped).map (fun r => (r.s, r.prefer)) =
      [(0, 0), (1, 0), (1, 0)] := by
    have hmap := congrArg (List.map fun x : Nat × Nat × Nat => x.2) hlog
    rwa [List.map_map] at hmap
  refine ⟨v, run_of_foldlM hv, hlog', hplayers, hone, htwo, fun hb => ?_⟩
  have hsame : ((placements bareWorld flipped).filter fun r => r.m == 0).map Placement.s =
      (v.core.ms 0).players := by
    rw [List.filter_eq_self.mpr fun r hr => by simp [(hall r hr).1], hplayers]
    have hmap := congrArg (List.map Prod.fst) hlog'
    rwa [List.map_map] at hmap
  have hdiff := (hb 0 hsame fun r hr _ => by simp [(hall r hr).2]).1
  rw [hone, htwo] at hdiff
  exact absurd hdiff (by decide)

end Server

end MatchServer

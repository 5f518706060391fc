import Madoka.MatchServer.Runs
import Madoka.MatchServer.SeatChanges

namespace MatchServer

open Lib

def CsPhase.keepsLock : CsPhase → Bool
  | .setupWait | .prepare | .intro | .matchEndPause => false
  | _ => true

namespace Core

variable {w : World} {c d : Core} {s : SessionId} {m m' : MatchRef} {p : Packet} {F : List Part}

-- No join gets past the lock of a match that has started or ended.
def locked (c : Core) (m : MatchRef) : Bool := (c.ms m).started || (c.ms m).ended

-- The setup is over: a match of one team waits for the other, any other match starts.
def opening (w : World) (c : Core) (m : MatchRef) : Bool :=
  w.cfg.holdPrepare || (c.ms m).started || c.teamsReady m || (c.ms m).settings.isCustom

-- The next tick starts the match, cancels it or ends it.
def closing (w : World) (c : Core) (m : MatchRef) : Bool :=
  !(c.ms m).players.isEmpty &&
    match (c.ms m).phase with
    | .prepare => !(c.ms m).started && (c.teamsReady m || c.due m)
    | .setupWait | .intro => c.due m && c.opening w m
    | .matchEndPause => c.due m
    | _ => false

theorem locked_of_keeps (h : Keeps F c d) (hF : Part.lock ∉ F) (m : MatchRef) :
    d.locked m = c.locked m := by
  have hl := (h _ hF).1 m
  simp only [Part.sameMatch, Prod.mk.injEq] at hl
  simp only [locked, hl]

theorem locked_onMatch {f : Match → Match} (h : (c.onMatch m f).locked m' = true) :
    c.locked m' = true ∨ m' = m := by
  by_cases hm : m' = m
  · exact Or.inr hm
  · refine Or.inl ?_
    simpa [locked, hm] using h

theorem locked_startBuyPhase (h : (c.startBuyPhase w m).locked m' = true) :
    c.locked m' = true ∨ m' = m := by
  unfold startBuyPhase at h
  rw [locked_of_keeps keeps_enter (by decide)] at h
  exact locked_onMatch h

theorem locked_enterCancel (h : (c.enterCancel m).locked m' = true) :
    c.locked m' = true ∨ m' = m := by
  unfold enterCancel at h
  rw [locked_of_keeps keeps_enter (by decide)] at h
  exact locked_onMatch h

theorem opening_of_keeps (h : Keeps F c d) (hF : ∀ x ∈ F, x ∉ [.lock, .settings, .roster, .seat])
    (m : MatchRef) : d.opening w m = c.opening w m := by
  have hlock := (h .lock fun hm => hF _ hm (by decide)).1 m
  have hset := (h .settings fun hm => hF _ hm (by decide)).1 m
  have hseat := (h .seat fun hm => hF _ hm (by decide)).2.1
  have hplayers := players_of_keeps h (fun hm => hF _ hm (by decide)) m
  simp only [Part.sameMatch, Prod.mk.injEq] at hlock hset
  have hteam : ∀ s, (d.ss s).team = (c.ss s).team := fun s => by
    have hs := hseat s
    simp only [Part.sameSession, Prod.mk.injEq] at hs
    exact hs.2.2.2.2.2.2.1.symm
  have hcount : ∀ k, d.teamCount m k = c.teamCount m k := fun k => by
    simp only [teamCount, hplayers, hteam]
  simp only [opening, teamsReady, hcount, hlock.1, hset]

theorem locked_enterPrepare (h : (c.enterPrepare w m).locked m' = true) :
    c.locked m' = true ∨ m' = m ∧ c.opening w m = true := by
  have hpull : Keeps [.phase] c (c.onMatch m fun g => { g with pull := none }) := by
    refine (Frame.refl c).onMatch fun x => ?_
    cases x <;> first | exact Or.inr fun _ => rfl | exact Or.inl (by decide)
  have hopen := opening_of_keeps (w := w) hpull (by decide) m
  rw [← locked_of_keeps hpull (by decide), ← hopen]
  unfold enterPrepare at h
  revert h
  generalize c.onMatch m (fun g => { g with pull := none }) = d
  intro h
  dsimp only at h
  split at h
  · rename_i hhold
    rw [locked_of_keeps keeps_enter (by decide)] at h
    exact (locked_onMatch h).imp_right fun hm => ⟨hm, by simp [opening, hhold]⟩
  split at h
  · split at h
    · rename_i hcustom
      rcases locked_startBuyPhase h with hl | hm
      · refine Or.inl ?_
        rw [← hl]
        split
        · exact (locked_of_keeps keeps_spawnFallbackBot (by decide) m').symm
        · rfl
      · exact Or.inr ⟨hm, by simp [opening, hcustom]⟩
    · rw [locked_of_keeps keeps_enter (by decide)] at h
      exact Or.inl h
  · rename_i hready
    refine (locked_startBuyPhase h).imp_right fun hm => ⟨hm, ?_⟩
    simp only [Bool.and_eq_true, Bool.not_eq_true', not_and, Bool.not_eq_false] at hready
    cases hs : (d.ms m).started with
    | true => simp [opening, hs]
    | false => simp [opening, hready hs]

theorem locked_quietEdge (h : (c.ms m).phase.keepsLock = true) :
    (c.phaseEdge w m).locked m' = c.locked m' := by
  unfold phaseEdge
  dsimp only
  split <;> rename_i hph <;> rw [hph] at h
  case h_3 => cases h
  case h_5 => cases h
  case h_7 => cases h
  case h_12 => cases h
  · refine locked_of_keeps (F := [.phase]) ?_ (by decide) m'
    exact (keeps_bindAll.mono (by decide)).trans keeps_enter
  · exact locked_of_keeps keeps_enter (by decide) m'
  · refine locked_of_keeps (F := [.over, .deeds]) ?_ (by decide) m'
    exact (Frame.refl c).broadcastData.trans (keeps_tearDown.mono (by decide))
  · exact locked_of_keeps keeps_postBannerEdge (by decide) m'
  · exact locked_of_keeps keeps_postReviveEdge (by decide) m'
  · refine locked_of_keeps (F := [.result, .phase, .deeds]) ?_ (by decide) m'
    exact (keeps_openRound.mono (by decide)).broadcastData.trans (keeps_enter.mono (by decide))
  · refine locked_of_keeps (F := [.phase]) ?_ (by decide) m'
    exact (keeps_enter.mono (by decide)).trans (keeps_sendPull.mono (by decide))
  · exact locked_of_keeps keeps_tearDown (by decide) m'

theorem locked_phaseEdge (hdue : c.due m = true) (hsome : (c.ms m).players ≠ [])
    (h : (c.phaseEdge w m).locked m' = true) :
    c.locked m' = true ∨ m' = m ∧ c.closing w m = true := by
  have hcrew : (c.ms m).players.isEmpty = false := by simpa using hsome
  cases hq : (c.ms m).phase.keepsLock with
  | true =>
    rw [locked_quietEdge hq] at h
    exact Or.inl h
  | false =>
    unfold phaseEdge at h
    cases hph : (c.ms m).phase <;> rw [hph] at hq <;> simp only [hph] at h
    case setupWait =>
      have hgive : Keeps [.kit, .ground] c ((c.sendCSShop (c.ms m).s).giveLoadout w (c.ms m).s true) :=
        (keeps_sendCSShop.mono (by decide)).trans (keeps_giveLoadout.mono (by decide))
      rcases locked_enterPrepare h with hl | ⟨hm, ho⟩
      · rw [locked_of_keeps hgive (by decide)] at hl
        exact Or.inl hl
      · rw [opening_of_keeps hgive (by decide)] at ho
        exact Or.inr ⟨hm, by simp [closing, hcrew, hph, hdue, ho]⟩
    case intro =>
      refine (locked_enterPrepare h).imp_right fun ⟨hm, ho⟩ => ⟨hm, ?_⟩
      simp [closing, hcrew, hph, hdue, ho]
    case prepare =>
      by_cases hs : (c.ms m).started = true
      · rw [if_pos hs, locked_of_keeps keeps_startFight (by decide)] at h
        exact Or.inl h
      · have hclose : c.closing w m = true := by
          simp [closing, hcrew, hph, hdue, Bool.eq_false_iff.mpr hs]
        rw [if_neg hs] at h
        split at h
        · rcases locked_startBuyPhase h with hl | hm
          · rw [locked_of_keeps keeps_spawnFallbackBot (by decide)] at hl
            exact Or.inl hl
          · exact Or.inr ⟨hm, hclose⟩
        · exact (locked_enterCancel h).imp_right fun hm => ⟨hm, hclose⟩
    case matchEndPause =>
      rw [locked_of_keeps keeps_enter (by decide)] at h
      rcases locked_onMatch h with hl | hm
      · rw [locked_of_keeps keeps_matchEnd (by decide)] at hl
        exact Or.inl hl
      · exact Or.inr ⟨hm, by simp [closing, hcrew, hph, hdue]⟩
    all_goals exact absurd hq (by decide)

theorem locked_advancePhase (hsome : (c.ms m).players ≠ [])
    (h : (c.advancePhase w m).locked m' = true) :
    c.locked m' = true ∨ m' = m ∧ c.closing w m = true := by
  have hcrew : (c.ms m).players.isEmpty = false := by simpa using hsome
  unfold advancePhase at h
  split at h
  · split at h
    · rw [locked_of_keeps keeps_endFight (by decide)] at h
      exact Or.inl h
    · exact Or.inl h
  · split at h
    · rename_i hready
      obtain ⟨hph, hs, hready⟩ := hready
      refine (locked_startBuyPhase h).imp_right fun hm => ⟨hm, ?_⟩
      simp [closing, hcrew, hph, hs, hready]
    · split at h
      · rename_i hdue
        exact locked_phaseEdge hdue hsome h
      · exact Or.inl h

theorem locked_tick (h : (c.tick w m).locked m' = true) :
    c.locked m' = true ∨ m' = m ∧ c.closing w m = true := by
  by_cases hp : (c.ms m).players = []
  · unfold tick at h
    rw [if_pos hp, locked_of_keeps keeps_stopLoop (by decide)] at h
    exact Or.inl h
  · rw [locked_of_keeps (keeps_after hp) (by decide)] at h
    exact locked_advancePhase hp h

theorem lock_not_written (cmd : Cmd) : Part.lock ∉ writes cmd := by
  cases cmd <;> decide

end Core

namespace Seating

variable {x y : Seating} {s : SessionId} {m : MatchRef} {a : Admission} {e : Nat} {rest : List Job}
  {lock lock' : MatchRef → Bool}

-- Nobody is on the way to a match that is locked.
structure Shut (lock : MatchRef → Bool) (x : Seating) : Prop where
  linked : Linked x
  pending : ∀ m, lock m = true → x.pending m = 0
  running : ∀ m, lock m = true → x.idle m = false
  fresh : ∀ a ∈ x.admits, a.fresh = true → x.idle a.m = true
  owners : ((x.admits.filter Admission.fresh).map Admission.m).Nodup
  blank : ∀ m, x.next ≤ m → x.idle m = true

theorem Calm.pending_le (h : Calm x y) (m : MatchRef) : y.pending m ≤ x.pending m := by
  have hle := h.countP m
  unfold pending
  rw [h.admits]
  omega

theorem Shut.calm (h : Shut lock x) (hc : Calm x y)
    (hlock : ∀ m, lock' m = true → lock m = true ∨ x.pending m = 0 ∧ x.idle m = false) :
    Shut lock' y where
  linked := h.linked.calm hc
  pending := fun m hm => by
    have hle := hc.pending_le m
    rcases hlock m hm with hl | ⟨hz, -⟩
    · rw [h.pending m hl] at hle
      exact Nat.le_zero.mp hle
    · omega
  running := fun m hm => by
    rw [hc.idle]
    exact (hlock m hm).elim (h.running m) fun hz => hz.2
  fresh := by
    rw [hc.admits, hc.idle]
    exact h.fresh
  owners := by
    rw [hc.admits]
    exact h.owners
  blank := by
    rw [hc.next, hc.idle]
    exact h.blank

theorem Shut.enter (h : Shut lock x) (hm : a.m < x.next) (hl : lock a.m = false)
    (hf : a.fresh = false) : Shut lock (x.enter a) where
  linked := h.linked.enter hm
  pending := fun m hlm => by
    have hne : a.m ≠ m := fun hmm => by
      rw [hmm, hlm] at hl
      exact Bool.noConfusion hl
    have hp := h.pending m hlm
    unfold Seating.pending at hp ⊢
    simpa [Seating.enter, List.countP_append, List.countP_singleton, hne] using hp
  running := h.running
  fresh := fun b hb hbf => by
    rcases List.mem_append.mp hb with hx | hx
    · exact h.fresh b hx hbf
    · rw [List.mem_singleton.mp hx, hf] at hbf
      exact Bool.noConfusion hbf
  owners := by
    simpa [Seating.enter, List.filter_append, hf] using h.owners
  blank := h.blank

theorem owners_found (h : Linked x) {loop : Option MatchRef}
    (hnd : ((x.admits.filter Admission.fresh).map Admission.m).Nodup) :
    (((x.found s loop).admits.filter Admission.fresh).map Admission.m).Nodup := by
  have hnew : x.next ∉ (x.admits.filter Admission.fresh).map Admission.m := fun hm => by
    obtain ⟨b, hb, hbm⟩ := List.mem_map.mp hm
    exact Nat.lt_irrefl _ (hbm ▸ h.entering b (List.mem_of_mem_filter hb))
  simp only [Seating.found, List.filter_append, List.map_append]
  refine List.nodup_append.mpr ⟨hnd, by simp, ?_⟩
  rintro m hm m' hm' rfl
  have hmn : m = x.next := by simpa using hm'
  exact hnew (hmn ▸ hm)

theorem Shut.found (h : Shut lock x) {loop : Option MatchRef} : Shut lock (x.found s loop) where
  linked := h.linked.found
  pending := fun m hlm => by
    have hp := h.pending m hlm
    unfold Seating.pending at hp ⊢
    simpa [Seating.found, List.countP_append, List.countP_singleton] using hp
  running := h.running
  fresh := fun b hb hbf => by
    rcases List.mem_append.mp hb with hx | hx
    · exact h.fresh b hx hbf
    · rw [List.mem_singleton.mp hx]
      exact h.blank x.next (Nat.le_refl _)
  owners := owners_found h.linked h.owners
  blank := fun m hm => h.blank m (Nat.le_of_succ_le hm)

theorem owner_left {b : Admission}
    (h : ((x.admits.filter Admission.fresh).map Admission.m).Nodup) (ha : a ∈ x.admits)
    (hf : a.fresh = true) (hb : b ∈ x.admits.erase a) (hbf : b.fresh = true) : b.m ≠ a.m := by
  have hperm := (List.perm_cons_erase ha).filter Admission.fresh
  rw [List.filter_cons_of_pos hf] at hperm
  have hnd := (hperm.map Admission.m).nodup_iff.mp h
  rw [List.map_cons, List.nodup_cons] at hnd
  exact fun hm => hnd.1 (List.mem_map.mpr ⟨b, List.mem_filter.mpr ⟨hb, hbf⟩, hm⟩)

theorem Shut.openWith (h : Shut lock x) (ha : a ∈ x.admits) (hf : a.fresh = true) :
    Shut lock (x.openWith a e) where
  linked := h.linked.openWith ha
  pending := fun m hlm => by
    have hp := h.pending m hlm
    have hle : (x.admits.erase a).countP (fun b => b.m == m && !b.fresh) ≤
        x.admits.countP fun b => b.m == m && !b.fresh := List.erase_sublist.countP_le
    unfold Seating.pending at hp ⊢
    simp only [Seating.openWith]
    omega
  running := fun m hlm => by
    have hr := h.running m hlm
    have hne : m ≠ a.m := fun hmm => by
      rw [hmm, h.fresh a ha hf] at hr
      exact Bool.noConfusion hr
    simpa only [Seating.openWith, Function.update_of_ne hne] using hr
  fresh := fun b hb hbf => by
    have hne := owner_left h.owners ha hf hb hbf
    simpa only [Seating.openWith, Function.update_of_ne hne] using
      h.fresh b (List.mem_of_mem_erase hb) hbf
  owners := h.owners.sublist ((List.erase_sublist.filter _).map _)
  blank := fun m hm => by
    have hne : m ≠ a.m := Nat.ne_of_gt (Nat.lt_of_lt_of_le (h.linked.entering a ha) hm)
    simpa only [Seating.openWith, Function.update_of_ne hne] using h.blank m hm

theorem Shut.not_locked_of_admission (h : Shut lock x) (ha : a ∈ x.admits)
    (hf : a.fresh = false) : lock a.m = false := by
  by_contra hl
  have hp := h.pending a.m (by simpa using hl)
  unfold Seating.pending at hp
  have hpos : 0 < x.admits.countP fun b => b.m == a.m && !b.fresh :=
    List.countP_pos_iff.mpr ⟨a, ha, by simp [hf]⟩
  omega

theorem Shut.not_locked_of_later (h : Shut lock x) (hm : Job.admitLater s ∈ x.mail m) :
    lock m = false := by
  by_contra hl
  have hp := h.pending m (by simpa using hl)
  unfold Seating.pending at hp
  have hpos : 0 < (x.mail m).countP Job.isLater := List.countP_pos_iff.mpr ⟨_, hm, rfl⟩
  omega

theorem Shut.ask (h : Shut lock x) (ha : a ∈ x.admits) (hf : a.fresh = false) :
    Shut lock (x.ask a) where
  linked := h.linked.ask ha
  pending := fun m hlm => by
    have hp := h.pending m hlm
    have hne : m ≠ a.m := fun hmm => by
      have hl := h.not_locked_of_admission ha hf
      rw [← hmm, hlm] at hl
      exact Bool.noConfusion hl
    have hle : (x.admits.erase a).countP (fun b => b.m == m && !b.fresh) ≤
        x.admits.countP fun b => b.m == m && !b.fresh := List.erase_sublist.countP_le
    unfold Seating.pending at hp ⊢
    simp only [Seating.ask, Function.update_of_ne hne]
    omega
  running := h.running
  fresh := fun b hb hbf => h.fresh b (List.mem_of_mem_erase hb) hbf
  owners := h.owners.sublist ((List.erase_sublist.filter _).map _)
  blank := h.blank

theorem Shut.sit (h : Shut lock x) (hm : x.mail m = .admitLater s :: rest) :
    Shut lock (x.sit s m e rest) where
  linked := h.linked.sit hm
  pending := fun m' hlm => by
    have hp := h.pending m' hlm
    have hne : m' ≠ m := fun hmm => by
      have hl := h.not_locked_of_later (s := s) (m := m) (by
        rw [hm]
        exact List.mem_cons_self)
      rw [← hmm, hlm] at hl
      exact Bool.noConfusion hl
    unfold Seating.pending at hp ⊢
    simpa only [Seating.sit, Function.update_of_ne hne] using hp
  running := h.running
  fresh := h.fresh
  owners := h.owners
  blank := h.blank

end Seating

namespace Server

open MatchServer.Core Seating

variable {w : World} {v v' : Server} {e : Event} {act : Action} {m : MatchRef} {es : List Event}

-- A match starts, is cancelled or ends only when no join is between its reservation and its seat.
def Unhurried (w : World) (v : Server) (e : Event) : Prop :=
  ∀ m ∈ e.act.ticked, (v.core.atMoment e.moment (some m)).closing w m = true →
    v.seating.pending m = 0

instance (v : Server) (e : Event) : Decidable (v.Unhurried w e) :=
  inferInstanceAs (Decidable (∀ m ∈ e.act.ticked, _))

theorem locked_step (h : v.Step w e v') (hl : v'.core.locked m = true) :
    v.core.locked m = true ∨
      e.act = .tick m ∧ v.free m = true ∧
        (v.core.atMoment e.moment (some m)).closing w m = true := by
  have hf := fires_of_step h
  obtain ⟨act, t⟩ := e
  dsimp only at hf ⊢
  have hroute : ∀ {c : Core} {s p}, (∀ m, c.locked m = v.core.locked m) →
      (c.route w s p).locked m = v.core.locked m := fun {c s p} hc =>
    (locked_of_keeps (@keeps_route w c s p) (lock_not_written _) m).trans (hc m)
  have hat : ∀ loop m, (v.core.atMoment t loop).locked m = v.core.locked m := fun _ _ => rfl
  cases hf with
  | @dispatch s p hjoining =>
    refine Or.inl ?_
    by_cases hq : ((v.core.atMoment t none).ss s).syncStarted ∨ cmdOf p.cmd = .ack ∨
        cmdOf p.cmd = .ping
    · change ((v.core.atMoment t none).dispatch w s p).locked m = true at hl
      rwa [locked_of_keeps (dispatch_quiet hq) (by decide)] at hl
    · rw [not_or, not_or] at hq
      have hack : Keeps [.net] (v.core.atMoment t none)
          (((v.core.atMoment t none).touch s).ackIfReliable s p) :=
        keeps_touch.trans (keeps_ackIfReliable.mono (by decide))
      change ((v.core.atMoment t none).dispatch w s p).locked m = true at hl
      rwa [dispatch_routes hq.1 hq.2.1 hq.2.2,
        hroute fun m => locked_of_keeps hack (by decide) m] at hl
  | @letIn a ha =>
    refine Or.inl ?_
    change ((v.core.atMoment t a.loop).admission w a).locked m = true at hl
    unfold admission at hl
    rwa [locked_of_keeps keeps_admitSession (by decide)] at hl
  | @start m0 _ =>
    refine Or.inl ?_
    change ((v.core.atMoment t (some m0)).runStart w m0).locked m = true at hl
    rwa [locked_of_keeps keeps_runStart (by decide)] at hl
  | @exec m0 job rest _ _ =>
    refine Or.inl ?_
    change ((v.core.atMoment t (some m0)).runJob w m0 job).locked m = true at hl
    cases job with
    | route s p => rwa [runJob, hroute (hat (some m0))] at hl
    | admitLater s => rwa [runJob, locked_of_keeps keeps_admitLater (by decide)] at hl
    | resyncWalls s => rwa [runJob, locked_of_keeps keeps_resyncWalls (by decide)] at hl
  | @tick m0 hfree =>
    refine (locked_tick hl).imp_right fun ⟨hm, hc⟩ => ?_
    subst hm
    exact ⟨rfl, hfree, hc⟩
  | @stop m0 _ _ =>
    refine Or.inl ?_
    change ((v.core.atMoment t (some m0)).stopLoop m0).locked m = true at hl
    rwa [locked_of_keeps keeps_stopLoop (by decide)] at hl

theorem shut_shift {y : Seating} (h : Shut v.core.locked v.seating) (hs : v.Shift act y) :
    Shut v.core.locked y := by
  cases hs with
  | quiet => exact h
  | reserve _ _ hm hadmit =>
    simp only [Match.canAdmit, Bool.and_eq_true, Bool.not_eq_true'] at hadmit
    exact h.enter (h.linked.live _ hm) (by simp [locked, hadmit.1.1, hadmit.1.2]) rfl
  | found => exact h.found
  | resume =>
    refine h.found.openWith ?_ rfl
    exact List.mem_append_right _ List.mem_cons_self
  | first ha hf => exact h.openWith ha hf
  | ask ha hf => exact h.ask ha hf
  | sit hm => exact h.sit hm

theorem shift_of_tick {y : Seating} (hs : v.Shift (.tick m) y) : y = v.seating := by
  cases hs with
  | quiet => rfl
  | reserve hr => exact absurd hr id
  | found hr => exact absurd hr id

theorem shut_step (h : v.Step w e v') (hu : v.Unhurried w e)
    (hx : Shut v.core.locked v.seating) : Shut v'.core.locked v'.seating := by
  obtain ⟨y, hs, hc⟩ := shifts h hx.linked
  refine (shut_shift hx hs).calm hc fun m hm => ?_
  refine (locked_step h hm).imp_right fun ⟨hact, hfree, hclosing⟩ => ?_
  rw [hact] at hs
  rw [shift_of_tick hs]
  refine ⟨hu m (by simp [hact, Action.ticked]) hclosing, ?_⟩
  simp [seating, running_of_free hfree]

theorem shut_start : Shut start.core.locked start.seating where
  linked := linked_start
  pending := fun _ _ => rfl
  running := fun _ h => Bool.noConfusion h
  fresh := fun _ h => absurd h List.not_mem_nil
  owners := List.nodup_nil
  blank := fun _ _ => rfl

theorem crew_of_shift {y : Seating} (h : Shut v.core.locked v.seating) (hs : v.Shift act y)
    (hl : v.core.locked m = true) : y.crew m = v.seating.crew m := by
  have hidle := h.running m hl
  cases hs with
  | quiet => rfl
  | reserve => rfl
  | found => rfl
  | @resume s p team _ _ _ _ =>
    have hne : m ≠ v.core.nextRef := fun hmm => by
      rw [hmm, h.blank v.core.nextRef (Nat.le_refl _)] at hidle
      exact Bool.noConfusion hidle
    simp only [Seating.openWith, Seating.found, Function.update_of_ne hne]
  | @first a team ha hf _ =>
    have hne : m ≠ a.m := fun hmm => by
      rw [hmm, h.fresh a ha hf] at hidle
      exact Bool.noConfusion hidle
    simp only [Seating.openWith, Function.update_of_ne hne]
  | ask => rfl
  | @sit m0 s rest hm _ _ =>
    have hne : m ≠ m0 := fun hmm => by
      have hopen := h.not_locked_of_later (s := s) (m := m0) (by
        change Job.admitLater s ∈ v.mail m0
        rw [hm]
        exact List.mem_cons_self)
      rw [← hmm, hl] at hopen
      exact Bool.noConfusion hopen
    simp only [Seating.sit, Function.update_of_ne hne]

-- A match that has started or ended takes nobody in, and nobody is on the way to it.
structure TurnsAway (v v' : Server) (m : MatchRef) : Prop where
  crew : (v'.core.ms m).players.Sublist (v.core.ms m).players
  mail : ∀ s, Job.admitLater s ∉ v.mail m
  admits : ∀ a ∈ v.core.admits, a.m ≠ m

theorem latecomers_turned_away (h : Run (Guarded (Step w) (Unhurried w)) start es v)
    (hs : v.Step w e v') : ∀ m, (v.core.ms m).started ∨ (v.core.ms m).ended → TurnsAway v v' m := by
  intro m hm
  have hx : Shut v.core.locked v.seating :=
    run_invariant (I := fun v => Shut v.core.locked v.seating) h shut_start
      fun hx hs => shut_step hs.1 hs.2 hx
  have hl : v.core.locked m = true := by simpa [locked] using hm
  obtain ⟨y, hshift, hc⟩ := shifts hs hx.linked
  refine ⟨?_, fun s hj => ?_, fun a ha ham => ?_⟩
  · have hcrew := hc.crew m
    rw [crew_of_shift hx hshift hl] at hcrew
    exact hcrew
  · have hopen := hx.not_locked_of_later (s := s) (m := m) hj
    rw [hl] at hopen
    exact Bool.noConfusion hopen
  · cases hf : a.fresh with
    | true =>
      have hidle := hx.fresh a ha hf
      rw [ham, hx.running m hl] at hidle
      exact Bool.noConfusion hidle
    | false =>
      have hopen := hx.not_locked_of_admission ha hf
      rw [ham, hl] at hopen
      exact Bool.noConfusion hopen

-- The host of a custom room reaches the fight alone; a guest finds it closed and gets a match.
def late : List Event :=
  opens 1 0 0 (joinWith hostToken) ++ toFight 0 ++
    [event 18000000001 (.dispatch 1 (joinWith guestToken)),
      event 18000000002 (.letIn ⟨1, 1, true, none⟩)]

theorem latecomers_turned_away_after_fight : ∃ v v', Run (Guarded (Step signedWorld)
      (Unhurried signedWorld)) start late v ∧
    v.Step signedWorld (event 18000000003 (.start 1)) v' ∧ (v.core.ms 0).started = true ∧
    (v.core.ms 1).players = [1] ∧ TurnsAway v v' 0 := by
  have hrun : (late.foldlM (fun v e => if Unhurried signedWorld v e then step signedWorld v e
      else none) start).bind (fun v => (v.step signedWorld (event 18000000003 (.start 1))).map
        fun _ => ((v.core.ms 0).started, (v.core.ms 1).players)) = some (true, [1]) := by
    decide +kernel
  obtain ⟨v, hv, hrest⟩ := Option.bind_eq_some_iff.mp hrun
  obtain ⟨v', hs, hp⟩ := Option.map_eq_some_iff.mp hrest
  obtain ⟨hstarted, hplayers⟩ := Prod.mk.inj hp
  have h := run_of_checked hv
  exact ⟨v, v', h, hs, hstarted, hplayers, latecomers_turned_away h hs 0 (Or.inl hstarted)⟩

-- The guest's join waits in the mailbox while the tick that starts the match runs.
def hurried : List Event :=
  opens 1 0 0 (joinWith hostToken) ++ [event 1000000000 (.tick 0), event 3000000000 (.tick 0),
    event 6000000000 (.dispatch 1 (joinWith guestToken)),
    event 6000000000 (.letIn ⟨1, 0, false, none⟩), event 7000000000 (.tick 0)]

theorem started_match_takes_guest : ∃ v v', Run (Step signedWorld) start hurried v ∧
    v.Step signedWorld (event 7000000001 (.exec 0)) v' ∧ (v.core.ms 0).started = true ∧
    (v.core.ms 0).players = [0] ∧ (v'.core.ms 0).players = [0, 1] ∧ ¬ TurnsAway v v' 0 := by
  have hrun : (hurried.foldlM (step signedWorld) start).bind (fun v =>
      (v.step signedWorld (event 7000000001 (.exec 0))).map fun v' =>
        ((v.core.ms 0).started, (v.core.ms 0).players, (v'.core.ms 0).players)) =
      some (true, [0], [0, 1]) := by
    decide +kernel
  obtain ⟨v, hv, hrest⟩ := Option.bind_eq_some_iff.mp hrun
  obtain ⟨v', hs, hp⟩ := Option.map_eq_some_iff.mp hrest
  simp only [Prod.mk.injEq] at hp
  obtain ⟨hstarted, hbefore, hafter⟩ := hp
  refine ⟨v, v', run_of_foldlM hv, hs, hstarted, hbefore, hafter, fun h => ?_⟩
  have hcrew := h.crew
  rw [hbefore, hafter] at hcrew
  exact absurd hcrew.length_le (by decide)

end Server

end MatchServer

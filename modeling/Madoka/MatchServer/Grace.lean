import Madoka.MatchServer.Sweeps

namespace MatchServer

open Lib

namespace Seating

variable {x y : Seating} {t : SessionId}

def Known (x : Seating) (t : SessionId) : Prop :=
  x.ref t ≠ none ∨ (∃ a ∈ x.admits, a.s = t) ∨ (∃ m, t ∈ x.crew m) ∨
    ∃ m, Job.admitLater t ∈ x.mail m

theorem Known.calm (hc : Calm x y) (h : Known y t) : Known x t := by
  rcases h with h | h | ⟨m, h⟩ | ⟨m, h⟩
  · rw [hc.ref] at h
    exact Or.inl h
  · rw [hc.admits] at h
    exact Or.inr (Or.inl h)
  · exact Or.inr (Or.inr (Or.inl ⟨m, (hc.crew m).subset h⟩))
  · exact Or.inr (Or.inr (Or.inr ⟨m, hc.laters rfl h⟩))

theorem known_found {s : SessionId} {loop : Option MatchRef} (h : Known (x.found s loop) t) :
    Known x t ∨ t = s := by
  by_cases hts : t = s
  · exact Or.inr hts
  · refine Or.inl ?_
    rcases h with h | ⟨a, ha, has⟩ | h | h
    · refine Or.inl ?_
      simpa only [Seating.found, Function.update_of_ne hts] using h
    · rcases List.mem_append.mp ha with hx | hx
      · exact Or.inr (Or.inl ⟨a, hx, has⟩)
      · rw [List.mem_singleton.mp hx] at has
        exact absurd has.symm hts
    · exact Or.inr (Or.inr (Or.inl h))
    · exact Or.inr (Or.inr (Or.inr h))

theorem mem_crew_of_update {crew : MatchRef → List SessionId} {s : SessionId} {m m' : MatchRef}
    (h : t ∈ Function.update crew m' (crew m' ++ [s]) m) : t ∈ crew m ∨ t = s := by
  by_cases hm : m = m'
  · subst hm
    rw [Function.update_self, List.mem_append, List.mem_singleton] at h
    exact h
  · rw [Function.update_of_ne hm] at h
    exact Or.inl h

theorem known_openWith {a : Admission} {e : Nat} (ha : a ∈ x.admits)
    (h : Known (x.openWith a e) t) : Known x t := by
  by_cases hts : t = a.s
  · exact Or.inr (Or.inl ⟨a, ha, hts.symm⟩)
  · rcases h with h | ⟨b, hb, hbs⟩ | ⟨m, h⟩ | h
    · refine Or.inl ?_
      simpa only [Seating.openWith, Function.update_of_ne hts] using h
    · exact Or.inr (Or.inl ⟨b, List.mem_of_mem_erase hb, hbs⟩)
    · exact Or.inr (Or.inr (Or.inl ⟨m, (mem_crew_of_update h).resolve_right hts⟩))
    · exact Or.inr (Or.inr (Or.inr h))

theorem known_ask {a : Admission} (ha : a ∈ x.admits) (h : Known (x.ask a) t) : Known x t := by
  by_cases hts : t = a.s
  · exact Or.inr (Or.inl ⟨a, ha, hts.symm⟩)
  · rcases h with h | ⟨b, hb, hbs⟩ | h | ⟨m, h⟩
    · refine Or.inl ?_
      simpa only [Seating.ask, Function.update_of_ne hts] using h
    · exact Or.inr (Or.inl ⟨b, List.mem_of_mem_erase hb, hbs⟩)
    · exact Or.inr (Or.inr (Or.inl h))
    · rcases mem_mail_ask h with hx | ⟨-, hx⟩
      · exact Or.inr (Or.inr (Or.inr ⟨m, hx⟩))
      · exact absurd (Job.admitLater.inj hx) hts

theorem known_sit {s : SessionId} {m : MatchRef} {e : Nat} {rest : List Job}
    (hm : x.mail m = .admitLater s :: rest) (h : Known (x.sit s m e rest) t) : Known x t := by
  have hin : Job.admitLater s ∈ x.mail m := by
    rw [hm]
    exact List.mem_cons_self
  rcases h with h | h | ⟨m', h⟩ | ⟨m', h⟩
  · exact Or.inl h
  · exact Or.inr (Or.inl h)
  · rcases mem_crew_of_update h with hx | rfl
    · exact Or.inr (Or.inr (Or.inl ⟨m', hx⟩))
    · exact Or.inr (Or.inr (Or.inr ⟨m, hin⟩))
  · exact Or.inr (Or.inr (Or.inr ⟨m', mem_mail_sit hm h⟩))

end Seating

namespace Server

open MatchServer.Core Seating

variable {w : World} {v v' : Server} {e : Event} {act : Action} {s t : SessionId} {m : MatchRef}
  {y : Seating} {es : List Event}

theorem known_shift (hs : v.Shift act y) (h : Known y t) :
    Known v.seating t ∨ ∃ p loop, v.Runs t p loop act := by
  cases hs with
  | quiet => exact Or.inl h
  | @reserve _ s p m loop hr =>
    by_cases hts : t = s
    · subst hts
      exact Or.inr ⟨p, loop, hr⟩
    · refine Or.inl ?_
      rcases h with h | ⟨a, ha, has⟩ | h | h
      · exact Or.inl h
      · rcases List.mem_append.mp ha with hx | hx
        · exact Or.inr (Or.inl ⟨a, hx, has⟩)
        · rw [List.mem_singleton.mp hx] at has
          exact absurd has.symm hts
      · exact Or.inr (Or.inr (Or.inl h))
      · exact Or.inr (Or.inr (Or.inr h))
  | found hr =>
    refine (known_found h).imp_right ?_
    rintro rfl
    exact ⟨_, _, hr⟩
  | resume hr =>
    refine (known_found (known_openWith ?_ h)).imp_right ?_
    · exact List.mem_append_right _ List.mem_cons_self
    · rintro rfl
      exact ⟨_, _, hr⟩
  | first ha => exact Or.inl (known_openWith ha h)
  | ask ha => exact Or.inl (known_ask ha h)
  | sit hm => exact Or.inl (known_sit hm h)

theorem now_step (h : v.Step w e v') : v'.core.now = e.moment.now := by
  have hf := fires_of_step h
  obtain ⟨act, x⟩ := e
  dsimp only at hf
  have hroute : ∀ {c : Core} {s p}, (c.route w s p).now = c.now := fun {c s p} =>
    now_of_keeps (@keeps_route w c s p) (by cases cmdOf p.cmd <;> decide)
  cases hf with
  | @dispatch s p _ =>
    by_cases hq : ((v.core.atMoment x none).ss s).syncStarted ∨ cmdOf p.cmd = .ack ∨
        cmdOf p.cmd = .ping
    · exact now_of_keeps (dispatch_quiet hq) (by decide)
    · rw [not_or, not_or] at hq
      change ((v.core.atMoment x none).dispatch w s p).now = x.now
      rw [dispatch_routes hq.1 hq.2.1 hq.2.2, hroute, now_of_keeps keeps_ackIfReliable (by decide)]
      rfl
  | @letIn a _ =>
    have hk : Keeps [.registry] (v.core.atMoment x a.loop)
        { v.core.atMoment x a.loop with admits := v.core.admits.erase a } := keeps_registry
    exact (now_of_keeps keeps_admitSession (by decide)).trans (now_of_keeps hk (by decide))
  | start => exact now_of_keeps keeps_runStart (by decide)
  | @exec m job rest _ _ =>
    cases job with
    | route s p => exact hroute
    | admitLater s => exact now_of_keeps keeps_admitLater (by decide)
    | resyncWalls s => exact now_of_keeps keeps_resyncWalls (by decide)
  | tick => exact now_of_keeps keeps_tick (by decide)
  | stop => exact now_of_keeps keeps_stopLoop (by decide)

def Clocked (v : Server) (e : Event) : Prop := 0 < e.moment.now ∧ v.core.now ≤ e.moment.now

instance : Decidable (v.Clocked e) := by
  unfold Clocked
  infer_instance

theorem seen_step (h : v.Step w e v') (t : SessionId) : (v'.core.ss t).lastSeen =
    match e.act with
    | .dispatch s _ => if t = s then e.moment.now else (v.core.ss t).lastSeen
    | _ => (v.core.ss t).lastSeen := by
  have hp := congrArg Pulse.seen (pulse_step h t)
  change (v'.core.ss t).lastSeen = _ at hp
  rw [hp]
  unfold heard
  cases e.act with
  | dispatch s p =>
    dsimp only
    split
    · rfl
    · rfl
  | tick m =>
    dsimp only
    split
    · exact Pulse.seen_look
    · rfl
  | _ => rfl

theorem heard_step (h : v.Step w e v') (hl : Linked v.seating) (hc : v.Clocked e)
    (hk : ∀ t, Known v.seating t → 0 < (v.core.ss t).lastSeen) (t : SessionId)
    (ht : Known v'.seating t) : 0 < (v'.core.ss t).lastSeen := by
  have hseen := seen_step h t
  have hold : 0 < (v.core.ss t).lastSeen → 0 < (v'.core.ss t).lastSeen := by
    intro hpos
    rw [hseen]
    split
    · split
      · exact hc.1
      · exact hpos
    · exact hpos
  obtain ⟨y, hs, hcalm⟩ := shifts h hl
  rcases known_shift hs (ht.calm hcalm) with hx | ⟨p, loop, hr⟩
  · exact hold (hk t hx)
  · cases hact : e.act with
    | dispatch s' p' =>
      rw [hact] at hr hseen
      obtain ⟨rfl, -⟩ := hr
      dsimp only at hseen
      rw [hseen, if_pos rfl]
      exact hc.1
    | exec m =>
      rw [hact] at hr
      obtain ⟨-, rest, hm⟩ := hr
      refine hold (hk t (Or.inl (hl.routes m t p ?_)))
      change Job.route t p ∈ v.mail m
      rw [hm]
      exact List.mem_cons_self
    | _ =>
      rw [hact] at hr
      exact absurd hr id

theorem heard_of_run (h : Run (Guarded (Step w) Clocked) start es v) (t : SessionId)
    (ht : Known v.seating t) : 0 < (v.core.ss t).lastSeen := by
  refine run_invariant (I := fun v => Linked v.seating ∧
    ∀ t, Known v.seating t → 0 < (v.core.ss t).lastSeen) h ⟨linked_start, ?_⟩ ?_ |>.2 t ht
  · rintro t (h | ⟨a, ha, -⟩ | ⟨m, h⟩ | ⟨m, h⟩)
    · exact absurd rfl h
    · exact absurd ha List.not_mem_nil
    · exact absurd h List.not_mem_nil
    · exact absurd h List.not_mem_nil
  · rintro v e v' ⟨hl, hk⟩ ⟨hs, hc⟩
    exact ⟨linked_step hs hl, heard_step hs hl hc hk⟩

section Early

-- The time from which the next look at a player counts: the last tick that looked at it, or, until it
-- sits down, its last packet.
def lookedAt (m : MatchRef) (s : SessionId) (v : Server) (e : Event) (v' : Server) (looked : Int) : Int :=
  if v.Looks e m s then e.moment.now
  else if s ∈ (v.core.ms m).players then looked
  else (v'.core.ss s).lastSeen

-- The ticks of the match that look at the player are less than disconnectTimeout apart.
def Watched (w : World) (m : MatchRef) (s : SessionId) (x : Server × Int) (e : Event)
    (y : Server × Int) : Prop :=
  x.1.Step w e y.1 ∧ x.1.Clocked e ∧
    (x.1.Looks e m s → e.moment.now - x.2 < disconnectTimeout) ∧
    y.2 = lookedAt m s x.1 e y.1 x.2

structure Watching (s : SessionId) (es : List Event) (x : Server × Int) : Prop where
  sound : (x.1.core.ss s).pulse.Sound disconnectTimeout x.2
  looked : x.2 ≤ x.1.core.now
  seen : (x.1.core.ss s).lastSeen ≤ x.1.core.now
  packets : ∀ d ∈ es, ∀ p, d.act = .dispatch s p → d.moment.now ≤ (x.1.core.ss s).lastSeen

variable {x x' : Server × Int}

theorem vouched_step (h : Watched w m s x e x') (hw : Watching s es x) :
    (x'.1.core.ss s).pulse.Sound disconnectTimeout x'.2 := by
  obtain ⟨hs, hc, hlook, hlooked⟩ := h
  have hp := pulse_step hs s
  rw [hlooked]
  unfold lookedAt
  split
  · rename_i hl
    have hact : e.act = .tick m := by
      have ht := hl.1
      revert ht
      cases e.act <;> simp [Action.ticked]
    rw [hp]
    unfold heard
    rw [hact]
    dsimp only
    rw [if_pos hl]
    exact hw.sound.look (hlook hl)
  rename_i hl
  split
  · rw [hp]
    unfold heard
    split
    · rename_i s' p hact
      split
      · exact Pulse.Sound.beat (hw.looked.trans hc.2)
      · exact hw.sound
    · split
      · exact hw.sound.glance
      · exact hw.sound
    · exact hw.sound
  · exact fun _ _ => Or.inr (Int.le_refl _)

theorem watching_step (h : Watched w m s x e x') (hw : Watching s es x) :
    Watching s (es ++ [e]) x' := by
  have hsound := vouched_step h hw
  obtain ⟨hs, hc, hlook, hlooked⟩ := h
  have hnow := now_step hs
  have hseen := seen_step hs s
  have hle := hc.2
  have hmono : (x.1.core.ss s).lastSeen ≤ (x'.1.core.ss s).lastSeen := by
    rw [hseen]
    split
    · split
      · exact hw.seen.trans hle
      · exact Int.le_refl _
    · exact Int.le_refl _
  have hup : (x'.1.core.ss s).lastSeen ≤ x'.1.core.now := by
    rw [hseen, hnow]
    split
    · split
      · exact Int.le_refl _
      · exact hw.seen.trans hle
    · exact hw.seen.trans hle
  refine ⟨hsound, ?_, hup, fun d hd p hact => ?_⟩
  · rw [hlooked]
    unfold lookedAt
    split
    · exact Int.le_of_eq hnow.symm
    split
    · rw [hnow]
      exact hw.looked.trans hle
    · exact hup
  · rcases List.mem_append.mp hd with hd | hd
    · exact (hw.packets d hd p hact).trans hmono
    · rw [List.mem_singleton.mp hd] at hact ⊢
      rw [hseen, hact]
      dsimp only
      rw [if_pos rfl]

theorem watching_of_run (h : Run (Watched w m s) (start, 0) es x) : Watching s es x := by
  refine run_history (I := Watching s) h ⟨fun hs => Bool.noConfusion hs, Int.le_refl 0, Int.le_refl 0,
    fun d hd => absurd hd List.not_mem_nil⟩ fun hw hs => watching_step hs hw

theorem drops_of_gone (h : v.Step w e v') (hact : e.act = .tick m) (hs : s ∈ (v.core.ms m).players)
    (hgone : s ∉ (v'.core.ms m).players) :
    (v.core.atMoment e.moment (some m)).outcast m = some s := by
  rw [crew_ticked h hact] at hgone
  cases hout : (v.core.atMoment e.moment (some m)).outcast m with
  | none =>
    rw [hout] at hgone
    exact absurd hs hgone
  | some q =>
    rw [hout] at hgone
    have heq : s = q := by
      by_contra hne
      exact hgone (List.mem_filter.mpr ⟨hs, by simpa using hne⟩)
    rw [heq]

theorem reached_of_find {c : Core} {ps : List SessionId}
    (h : (ps.find? fun p => decide (c.lapsed p)) = some s) : s ∈ c.reached ps := by
  induction ps with
  | nil => cases h
  | cons p ps ih =>
    rw [reached_cons]
    by_cases hl : c.lapsed p
    · rw [List.find?_cons_of_pos (by simpa using hl)] at h
      rw [Option.some.inj h]
      exact List.mem_cons_self
    · rw [List.find?_cons_of_neg (by simpa using hl)] at h
      rw [if_neg hl]
      exact List.mem_cons_of_mem _ (ih h)

theorem never_early (h : Run (Watched w m s) (start, 0) es x) (hstep : Watched w m s x e x')
    (hact : e.act = .tick m) (hs : s ∈ (x.1.core.ms m).players)
    (hgone : s ∉ (x'.1.core.ms m).players) : ∀ d ∈ es, ∀ p, d.act = .dispatch s p →
    d.moment.now + (disconnectTimeout + reconnectGrace) ≤ e.moment.now := by
  have hw := watching_of_run h
  obtain ⟨hstep, -, hlook, -⟩ := hstep
  have hout := drops_of_gone hstep hact hs hgone
  have hreached := hlook ⟨by rw [hact]; rfl, reached_of_find hout⟩
  have hlapsed : (x.1.core.atMoment e.moment (some m)).lapsed s := by
    have hfound := List.find?_some hout
    exact of_decide_eq_true hfound
  intro d hd p hdisp
  have hpacket := hw.packets d hd p hdisp
  have hspared := hw.sound.spared hreached hlapsed
  change (x.1.core.ss s).lastSeen + _ ≤ e.moment.now at hspared
  omega

end Early

section Late

-- The server, the time of the match's last tick, and how many ticks have taken another player away.
structure Vigil where
  server : Server
  last : Int
  missed : Nat

def Misses (m : MatchRef) (s : SessionId) (v : Server) (e : Event) (v' : Server) : Prop :=
  e.act = .tick m ∧ ∃ q ∈ (v.core.ms m).players, q ≠ s ∧ q ∉ (v'.core.ms m).players

instance : Decidable (Misses m s v e v') := by
  unfold Misses
  infer_instance

-- The player is silent and does not sit down again, and no more than `gap` passes without a tick.
def Silent (w : World) (m : MatchRef) (s : SessionId) (gap : Int) (x : Vigil) (e : Event)
    (y : Vigil) : Prop :=
  x.server.Step w e y.server ∧ x.server.Clocked e ∧ e.moment.now ≤ x.last + gap ∧
    (∀ p, e.act ≠ .dispatch s p) ∧ x.server.seatedBy e.act ≠ some (s, m) ∧
    y.last = (if e.act = .tick m then e.moment.now else x.last) ∧
    y.missed = x.missed + if Misses m s x.server e y.server then 1 else 0

structure Waits (m : MatchRef) (s : SessionId) (gap t : Int) (x : Vigil) : Prop where
  linked : Linked x.server.seating
  last : x.last ≤ x.server.core.now
  next : x.server.core.now ≤ x.last + gap
  since : (x.server.core.ss s).disconnectedAt ≤ x.server.core.now
  heard : (x.server.core.ss s).lastSeen ≠ 0
  before : (x.server.core.ss s).lastSeen ≤ t
  awaited : s ∈ (x.server.core.ms m).players →
    (x.server.core.ss s).pulse.Awaited disconnectTimeout reconnectGrace t gap x.missed x.last

variable {gap u : Int} {x x' : Vigil}

theorem mem_crew_step (h : v.Step w e v') (hl : Linked v.seating)
    (hseat : v.seatedBy e.act ≠ some (s, m)) (hs : s ∈ (v'.core.ms m).players) :
    s ∈ (v.core.ms m).players := by
  obtain ⟨y, hshift, hc⟩ := shifts h hl
  have hin : s ∈ y.crew m := (hc.crew m).subset hs
  have hold : ∀ {t : SessionId} {m' : MatchRef}, v.seatedBy e.act = some (t, m') →
      s ∈ Function.update v.seating.crew m' (v.seating.crew m' ++ [t]) m → s ∈ v.seating.crew m := by
    intro t m' hby hu
    by_cases hm : m = m'
    · subst hm
      rw [Function.update_self, List.mem_append, List.mem_singleton] at hu
      refine hu.resolve_right ?_
      rintro rfl
      exact hseat hby
    · rwa [Function.update_of_ne hm] at hu
  revert hin
  generalize hact : e.act = act at hshift hold
  cases hshift with
  | quiet => exact id
  | reserve => exact id
  | found => exact id
  | resume hr hcmd hnone hteam =>
    exact hold (if_pos ⟨hr.2.2.2.1, hr.2.2.2.2, hcmd, hnone⟩)
  | first ha hf => exact hold (if_pos ⟨ha, hf⟩)
  | ask => exact id
  | sit hm hfree hs => exact hold (by simp [seatedBy, hm, hfree, hs])

theorem misses_of_not_looks (h : v.Step w e v') (hact : e.act = .tick m)
    (hs : s ∈ (v.core.ms m).players) (hl : ¬ v.Looks e m s) : Misses m s v e v' := by
  have hfind : ∀ {c : Core} {ps : List SessionId}, s ∈ ps → s ∉ c.reached ps →
      ∃ q, (ps.find? fun p => decide (c.lapsed p)) = some q ∧ q ≠ s := by
    intro c ps
    induction ps with
    | nil => exact fun hin => absurd hin List.not_mem_nil
    | cons p ps ih =>
      intro hin hout
      rw [reached_cons, List.mem_cons, not_or] at hout
      have hin' := (List.mem_cons.mp hin).resolve_left hout.1
      by_cases hlp : c.lapsed p
      · exact ⟨p, List.find?_cons_of_pos (by simpa using hlp), Ne.symm hout.1⟩
      · rw [if_neg hlp] at hout
        rw [List.find?_cons_of_neg (by simpa using hlp)]
        exact ih hin' hout.2
  obtain ⟨q, hq, hne⟩ := hfind hs fun hr => hl ⟨by rw [hact]; rfl, hr⟩
  have hcrew := crew_ticked h hact
  have hout : (v.core.atMoment e.moment (some m)).outcast m = some q := hq
  rw [hout] at hcrew
  refine ⟨hact, q, outcast_mem (c := v.core.atMoment e.moment (some m)) hout, hne, fun hin => ?_⟩
  rw [hcrew] at hin
  simpa using (List.mem_filter.mp hin).2

theorem stays_of_looks (h : v.Step w e v') (hact : e.act = .tick m)
    (hs : s ∈ (v'.core.ms m).players) (hl : v.Looks e m s) :
    ¬ (v.core.atMoment e.moment (some m)).lapsed s := by
  intro hlapsed
  have hfind : ∀ {c : Core} {ps : List SessionId}, c.lapsed s → s ∈ c.reached ps →
      (ps.find? fun p => decide (c.lapsed p)) = some s := by
    intro c ps hc
    induction ps with
    | nil => exact fun hin => absurd hin List.not_mem_nil
    | cons p ps ih =>
      intro hin
      by_cases hps : p = s
      · subst hps
        exact List.find?_cons_of_pos (by simpa using hc)
      · rw [reached_cons, List.mem_cons] at hin
        have hin' := hin.resolve_left (Ne.symm hps)
        split at hin'
        · exact absurd hin' List.not_mem_nil
        · rename_i hlp
          rw [List.find?_cons_of_neg (by simpa using hlp)]
          exact ih hin'
  have hout : (v.core.atMoment e.moment (some m)).outcast m = some s := hfind hlapsed hl.2
  rw [crew_ticked h hact, hout] at hs
  simpa using (List.mem_filter.mp hs).2

theorem since_step (h : v.Step w e v') (hle : v.core.now ≤ e.moment.now)
    (hs : (v.core.ss s).disconnectedAt ≤ v.core.now) :
    (v'.core.ss s).disconnectedAt ≤ v'.core.now := by
  have hp := congrArg Pulse.since (pulse_step h s)
  change (v'.core.ss s).disconnectedAt = _ at hp
  have hold : (v.core.ss s).pulse.since ≤ e.moment.now := hs.trans hle
  rw [hp, now_step h]
  unfold heard
  split
  · split
    · exact hold
    · exact hold
  · split
    · exact Pulse.since_look hold
    · exact hold
  · exact hold

theorem waits_step (h : Silent w m s gap x e x') (hx : Waits m s gap u x) :
    Waits m s gap u x' := by
  obtain ⟨hs, hc, hgap, hquiet, hseat, hlast, hmissed⟩ := h
  have hnow := now_step hs
  have hle := hc.2
  have hseen : (x'.server.core.ss s).lastSeen = (x.server.core.ss s).lastSeen := by
    rw [seen_step hs s]
    split
    · rename_i s' p hact
      rw [if_neg]
      rintro rfl
      exact hquiet p hact
    · rfl
  refine ⟨linked_step hs hx.linked, ?_, ?_, since_step hs hle hx.since, ?_, ?_, fun hin => ?_⟩
  · rw [hlast, hnow]
    split
    · exact Int.le_refl _
    · exact hx.last.trans hle
  · have hpos : x.last ≤ e.moment.now := hx.last.trans hle
    rw [hlast, hnow]
    split
    · omega
    · exact hgap
  · rw [hseen]
    exact hx.heard
  · rw [hseen]
    exact hx.before
  · have hbefore := mem_crew_step hs hx.linked hseat hin
    have haw := hx.awaited hbefore
    have hpos : x.last ≤ e.moment.now := hx.last.trans hle
    have hp := pulse_step hs s
    rw [hp, hlast, hmissed]
    by_cases hact : e.act = .tick m
    · rw [if_pos hact]
      by_cases hl : x.server.Looks e m s
      · have hnot := stays_of_looks hs hact hin hl
        have hlook := haw.look hpos hgap (by decide) hx.heard hx.before (hx.since.trans hle) hnot
        unfold heard
        rw [hact]
        dsimp only
        rw [if_pos hl]
        split
        · exact hlook.more (by omega) (Nat.le_succ _)
        · exact hlook
      · rw [if_pos (misses_of_not_looks hs hact hbefore hl)]
        have hskip := haw.skip hpos hgap
        unfold heard
        rw [hact]
        dsimp only
        rw [if_neg hl]
        exact hskip
    · rw [if_neg hact, if_neg fun hm => hact hm.1, Nat.add_zero]
      unfold heard
      split
      · rename_i s' p hdisp
        rw [if_neg]
        · exact haw
        · rintro rfl
          exact hquiet p hdisp
      · split
        · exact haw.glance hpos
        · exact haw
      · exact haw

theorem silent_gone {es' : List Event} (h : Run (Guarded (Step w) Clocked) start es v)
    (hs : s ∈ (v.core.ms m).players) {last : Int} (hlast : last ≤ v.core.now)
    (hgap : v.core.now ≤ last + gap) (hrun : Run (Silent w m s gap) ⟨v, last, 0⟩ es' x)
    (hlate : v.core.now + (disconnectTimeout + reconnectGrace) + (x.missed + 2) * gap <
      x.server.core.now) : s ∉ (x.server.core.ms m).players := by
  have hnow : (v.core.ss s).lastSeen ≤ v.core.now ∧ (v.core.ss s).disconnectedAt ≤ v.core.now ∧
      Linked v.seating := by
    refine run_invariant (I := fun v => (v.core.ss s).lastSeen ≤ v.core.now ∧
      (v.core.ss s).disconnectedAt ≤ v.core.now ∧ Linked v.seating) h
      ⟨Int.le_refl 0, Int.le_refl 0, linked_start⟩ ?_
    rintro v e v' ⟨h1, h2, h3⟩ ⟨hstep, hc⟩
    refine ⟨?_, since_step hstep hc.2 h2, linked_step hstep h3⟩
    rw [seen_step hstep s, now_step hstep]
    split
    · split
      · exact Int.le_refl _
      · exact h1.trans hc.2
    · exact h1.trans hc.2
  have hheard := heard_of_run h s (Or.inr (Or.inr (Or.inl ⟨m, hs⟩)))
  have hfirst : Waits m s gap v.core.now ⟨v, last, 0⟩ := by
    refine ⟨hnow.2.2, hlast, hgap, hnow.2.1, by dsimp only; omega, hnow.1, fun _ => Or.inl ?_⟩
    unfold disconnectTimeout
    dsimp only
    omega
  have hx := run_invariant (I := Waits m s gap v.core.now) hrun hfirst
    fun hx hs => waits_step hs hx
  intro hin
  have hbound := (hx.awaited hin).bound hx.next (by omega) (by decide)
  omega

end Late

-- The sweep spares whoever sends packets, comes to the end of its patience, and takes nothing else.
theorem disconnect_grace (w : World) (m : MatchRef) (s : SessionId) :
    (∀ es x e x', Run (Watched w m s) (start, 0) es x → Watched w m s x e x' → e.act = .tick m →
      s ∈ (x.1.core.ms m).players → s ∉ (x'.1.core.ms m).players →
      ∀ d ∈ es, ∀ p, d.act = .dispatch s p →
        d.moment.now + (disconnectTimeout + reconnectGrace) ≤ e.moment.now) ∧
    (∀ gap es v last es' x, Run (Guarded (Step w) Clocked) start es v →
      s ∈ (v.core.ms m).players → last ≤ v.core.now → v.core.now ≤ last + gap →
      Run (Silent w m s gap) ⟨v, last, 0⟩ es' x →
      v.core.now + (disconnectTimeout + reconnectGrace) + (x.missed + 2) * gap <
        x.server.core.now →
      s ∉ (x.server.core.ms m).players) ∧
    ∀ c : Core, c.outcast m = none ∧ Marks c (c.sweepDisconnects m) ∨
      ∃ t d, c.outcast m = some t ∧ Marks c d ∧ Removes d (c.sweepDisconnects m) t m := by
  refine ⟨fun es x e x' h hstep hact hs hgone => never_early h hstep hact hs hgone, ?_,
    fun c => sweep_removes⟩
  intro gap es v last es' x h hs hlast hgap hrun hlate
  exact silent_gone h hs hlast hgap hrun hlate

def watch (w : World) (m : MatchRef) (s : SessionId) (x : Server × Int) (e : Event) :
    Option (Server × Int) :=
  if x.1.Clocked e ∧ (x.1.Looks e m s → e.moment.now - x.2 < disconnectTimeout) then
    (x.1.step w e).map fun v => (v, lookedAt m s x.1 e v x.2)
  else none

theorem watched_of_watch {x x' : Server × Int} (h : watch w m s x e = some x') :
    Watched w m s x e x' := by
  unfold watch at h
  rw [Option.ite_none_right_eq_some, Option.map_eq_some_iff] at h
  obtain ⟨⟨hc, hl⟩, v, hv, rfl⟩ := h
  exact ⟨hv, hc, hl, rfl⟩

def keepVigil (w : World) (m : MatchRef) (s : SessionId) (gap : Int) (x : Vigil) (e : Event) :
    Option Vigil :=
  if x.server.Clocked e ∧ e.moment.now ≤ x.last + gap ∧ x.server.seatedBy e.act ≠ some (s, m) then
    match e.act with
    | .dispatch t _ =>
      if t = s then none else (x.server.step w e).map fun v => ⟨v, x.last, x.missed⟩
    | .tick m' =>
      (x.server.step w e).map fun v =>
        ⟨v, if m' = m then e.moment.now else x.last,
          x.missed + if Misses m s x.server e v then 1 else 0⟩
    | _ => (x.server.step w e).map fun v => ⟨v, x.last, x.missed⟩
  else none

theorem silent_of_keepVigil {gap : Int} {x x' : Vigil} (h : keepVigil w m s gap x e = some x') :
    Silent w m s gap x e x' := by
  unfold keepVigil at h
  rw [Option.ite_none_right_eq_some] at h
  obtain ⟨⟨hc, hgap, hseat⟩, h⟩ := h
  cases hact : e.act with
  | dispatch t p =>
    rw [hact] at h
    simp only [Option.ite_none_left_eq_some, Option.map_eq_some_iff] at h
    obtain ⟨hts, v, hv, rfl⟩ := h
    refine ⟨hv, hc, hgap, fun q hq => ?_, hseat, by simp [hact], by simp [Misses, hact]⟩
    rw [hact] at hq
    exact hts (Action.dispatch.inj hq).1
  | tick m' =>
    rw [hact] at h
    simp only [Option.map_eq_some_iff] at h
    obtain ⟨v, hv, rfl⟩ := h
    exact ⟨hv, hc, hgap, by simp [hact], hseat, by simp [hact], rfl⟩
  | _ =>
    rw [hact] at h
    simp only [Option.map_eq_some_iff] at h
    obtain ⟨v, hv, rfl⟩ := h
    exact ⟨hv, hc, hgap, by simp [hact], hseat, by simp [hact], by simp [Misses, hact]⟩

-- The host of a custom room and a guest.
def pairedAt (now : Int) : List Event :=
  opens now 0 0 (joinWith hostToken) ++ joins now 1 0 (joinWith guestToken)

-- A tick every nine seconds, and the host sends a packet before each.
def keptUp (ticks : List Int) : List Event :=
  ticks.flatMap fun t =>
    [event (t - 1000000000) (.dispatch 0 ping), event t (.tick 0)]

def soonRemoved : List Event :=
  pairedAt 1000000000 ++ keptUp [10000000000, 19000000000, 28000000000, 37000000000, 46000000000,
    55000000000]

-- The guest falls silent and is taken away at the look 63 seconds later, not before.
theorem disconnect_grace_silent : ∃ x x' v y,
    Run (Watched signedWorld 0 1) (start, 0) soonRemoved x ∧
    Watched signedWorld 0 1 x (event 64000000000 (.tick 0)) x' ∧ 1 ∈ (x.1.core.ms 0).players ∧
    1 ∉ (x'.1.core.ms 0).players ∧
    (∀ d ∈ soonRemoved, ∀ p, d.act = .dispatch 1 p →
      d.moment.now + (disconnectTimeout + reconnectGrace) ≤ 64000000000) ∧
    Run (Guarded (Step signedWorld) Clocked) start (pairedAt 1000000000) v ∧
    1 ∈ (v.core.ms 0).players ∧
    Run (Silent signedWorld 0 1 9000000000) ⟨v, 1000000000, 0⟩ (keptUp [10000000000, 19000000000,
      28000000000, 37000000000, 46000000000, 55000000000, 64000000000, 73000000000, 82000000000]) y ∧
    1 ∉ (y.server.core.ms 0).players := by
  have hearly : ((soonRemoved.foldlM (watch signedWorld 0 1) (start, 0)).bind fun x =>
      (watch signedWorld 0 1 x (event 64000000000 (.tick 0))).map fun x' =>
        ((x.1.core.ms 0).players, (x'.1.core.ms 0).players)) = some ([0, 1], [0]) := by
    decide +kernel
  have hlate : (((pairedAt 1000000000).foldlM (fun v e =>
      if Clocked v e then step signedWorld v e else none) start).bind fun v =>
      ((keptUp [10000000000, 19000000000, 28000000000, 37000000000, 46000000000, 55000000000,
        64000000000, 73000000000, 82000000000]).foldlM (keepVigil signedWorld 0 1 9000000000)
          ⟨v, 1000000000, 0⟩).map fun y => ((v.core.ms 0).players, v.core.now, y.missed,
            y.server.core.now)) = some ([0, 1], 1000000000, 0, 82000000000) := by
    decide +kernel
  obtain ⟨x, hx, hrest⟩ := Option.bind_eq_some_iff.mp hearly
  obtain ⟨x', hx', hcrews⟩ := Option.map_eq_some_iff.mp hrest
  obtain ⟨v, hv, hrest⟩ := Option.bind_eq_some_iff.mp hlate
  obtain ⟨y, hy, hends⟩ := Option.map_eq_some_iff.mp hrest
  simp only [Prod.mk.injEq] at hcrews hends
  obtain ⟨hcrew, hcrew'⟩ := hcrews
  obtain ⟨hpair, hnow, hmissed, hend⟩ := hends
  have hrun := run_mono (run_of_foldlM hx) watched_of_watch
  have hstep := watched_of_watch hx'
  have hvigil := run_mono (run_of_foldlM hy) silent_of_keepVigil
  have hin : 1 ∈ (x.1.core.ms 0).players := by
    rw [hcrew]
    decide
  have hout : 1 ∉ (x'.1.core.ms 0).players := by
    rw [hcrew']
    decide
  have hseat : 1 ∈ (v.core.ms 0).players := by
    rw [hpair]
    decide
  refine ⟨x, x', v, y, hrun, hstep, hin, hout, ?_, run_of_checked hv, hseat, hvigil, ?_⟩
  · exact (disconnect_grace signedWorld 0 1).1 _ x _ x' hrun hstep rfl hin hout
  · refine (disconnect_grace signedWorld 0 1).2.1 _ _ v _ _ y (run_of_checked hv) hseat ?_ ?_ hvigil ?_
    · rw [hnow]
    · rw [hnow]
      decide
    · rw [hnow, hmissed, hend]
      decide

def tickTimes (m : MatchRef) (es : List Event) : List Int :=
  es.filterMap fun e => if e.act = .tick m then some e.moment.now else none

-- The sweep that takes the host away does not look at the guest, whose packet came just before; the
-- next one still counts the guest's silence from its first mark.
def crowdedOut : List Event :=
  pairedAt 100000000 ++ ([9900000000, 19800000000, 29700000000, 39600000000, 49500000000,
    59400000000].map fun t => event t (.tick 0)) ++
    [event 69200000000 (.dispatch 1 ping), event 69300000000 (.tick 0)]

theorem grace_cut_short : ¬ ∀ w es v e v' m s,
    Run (Guarded (Step w) Clocked) start es v → v.Step w e v' → v.Clocked e → e.act = .tick m →
    (tickTimes m (es ++ [e])).IsChain (fun t u => u - t < disconnectTimeout) →
    s ∈ (v.core.ms m).players → s ∉ (v'.core.ms m).players →
    ∀ d ∈ es, ∀ p, d.act = .dispatch s p →
      d.moment.now + (disconnectTimeout + reconnectGrace) ≤ e.moment.now := by
  intro hall
  have hrun : ((crowdedOut.foldlM (fun v e => if Clocked v e then step signedWorld v e else none)
      start).bind fun v => (v.step signedWorld (event 79200000000 (.tick 0))).map fun v' =>
        (v.core.now, (v.core.ms 0).players, (v'.core.ms 0).players)) =
      some (69300000000, [1], []) := by
    decide +kernel
  obtain ⟨v, hv, hrest⟩ := Option.bind_eq_some_iff.mp hrun
  obtain ⟨v', hs, hp⟩ := Option.map_eq_some_iff.mp hrest
  simp only [Prod.mk.injEq] at hp
  obtain ⟨hnow, hcrew, hcrew'⟩ := hp
  have hc : v.Clocked (event 79200000000 (.tick 0)) := by
    unfold Clocked
    rw [hnow]
    decide
  have hcut := hall signedWorld crowdedOut v _ v' 0 1 (run_of_checked hv) hs hc rfl
    (by decide) (by rw [hcrew]; decide) (by rw [hcrew']; decide)
    (event 69200000000 (.dispatch 1 ping)) (by decide) ping rfl
  revert hcut
  decide

end Server

end MatchServer

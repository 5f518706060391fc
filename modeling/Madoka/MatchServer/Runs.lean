import Madoka.MatchServer.Joins

namespace MatchServer

open Lib MatchServer.Core Seating

def Action.ticked : Action → Option MatchRef
  | .tick m => some m
  | _ => none

def Action.started : Action → Option MatchRef
  | .start m => some m
  | _ => none

namespace Server

variable {w : World} {v v' : Server} {e : Event} {c : Core} {s : SessionId} {m : MatchRef}
  {p : Packet} {f g : Field} {l : Label} {es : List Event}

-- The packet of the command that a step handles for a session in a match.
def handles (v : Server) (act : Action) (cmd : Cmd) : Option (SessionId × Packet × MatchRef) :=
  match v.routed act with
  | some (s, p) => if cmdOf p.cmd = cmd then (v.core.ss s).matchRef.map fun m => (s, p, m) else none
  | none => none

-- The joiner that an action seats, and its match.
def sitsDown (v : Server) : Action → Option (SessionId × MatchRef)
  | .exec m =>
    match v.mail m with
    | .admitLater s :: _ => some (s, m)
    | _ => none
  | _ => none

theorem handles_of_routed {act : Action} {cmd : Cmd} (hr : v.routed act = some (s, p))
    (hcmd : cmdOf p.cmd = cmd) (hm : (v.core.ss s).matchRef = some m) :
    v.handles act cmd = some (s, p, m) := by
  simp [handles, hr, hcmd, hm]

-- Why a step does something to a match, and on which field.
inductive Why (w : World) (v : Server) (e : Event) (m : MatchRef) : Field → Label → Prop where
  | handler {s : SessionId} {p : Packet} {f : Field} {l : Label} :
    v.routed e.act = some (s, p) → v.free m = true → v.core.HandlerMove m s p f l → Why w v e m f l
  | setup : Why w v e m (v.core.field m) .setup
  | begin_ : e.act = .start m → (v.core.ms m).loop = .spawned → Why w v e m (v.core.field m) .begin_
  | join {s : SessionId} {rest : List Job} : e.act = .exec m → v.free m = true →
    v.mail m = .admitLater s :: rest →
    Why w v e m (v.core.field m) (.join s (v.core.joinTeam s m))
  | tick {f : Field} {l : Label} : e.act = .tick m → v.free m = true →
    TickMove w (v.core.atMoment e.moment (some m)) m f l → Why w v e m f l

theorem handlerMove_of_keeps (hk : Keeps [.net, .posts, .moment] v.core c)
    (h : c.HandlerMove m s p f l) : v.core.HandlerMove m s p f l := by
  have hf := congrFun (field_of_keeps hk (by decide)) m
  have href := matchRef_of_keeps hk (by decide) s
  have hent := entityID_of_keeps hk (by decide) s
  have hcrew := players_of_keeps hk (by decide) m
  cases h with
  | report hcmd hreq hm => exact hf ▸ .report hcmd hreq (href ▸ hm)
  | startRescue hcmd hm => exact hf ▸ hent ▸ .startRescue hcmd (href ▸ hm)
  | stopRescue hcmd hm => exact hf ▸ hent ▸ .stopRescue hcmd (href ▸ hm)
  | quit hcmd hm hs => exact hf ▸ .quit hcmd (href ▸ hm) (hcrew ▸ hs)

theorem mem_of_sessionBy (hs : Seats v.seating) (hm : (v.core.ss s).matchRef = some m)
    (h : (v.core.field m).sessionBy (v.core.ss s).entityID ≠ none) : s ∈ (v.core.ms m).players := by
  unfold Field.sessionBy at h
  rw [ne_eq, Option.map_eq_none_iff, List.find?_eq_none] at h
  push Not at h
  obtain ⟨x, hx, he⟩ := h
  obtain ⟨q, hq, rfl⟩ := List.mem_map.mp hx
  obtain ⟨h1, h2⟩ := hs.seated m q hq
  have heq : (v.core.ss q).entityID = (v.core.ss s).entityID := by simpa [Core.member] using he
  rw [← hs.distinct q s m h1 hm h2 heq]
  exact hq

theorem not_seated (hs : Seats v.seating) (he : (v.core.ss s).entityID = 0) (m : MatchRef) :
    s ∉ (v.core.ms m).players :=
  fun hm => (hs.seated m s hm).2 he

structure Sound (v : Server) : Prop where
  seats : Seats v.seating
  blank : ∀ m, (v.core.ms m).nextSlot = 0 → (v.core.field m).Untouched

theorem path_of_dispatch {t : Moment} (hv : v.Sound) (hjoin : v.joining s = false)
    (m : MatchRef) :
    Field.Path t.now (Why w v ⟨.dispatch s p, t⟩ m) (v.core.field m)
      (((v.core.atMoment t none).dispatch w s p).field m) := by
  have hat : (v.core.atMoment t none).field = v.core.field := field_of_keeps keeps_atMoment (by decide)
  by_cases hq : ((v.core.atMoment t none).ss s).syncStarted ∨ cmdOf p.cmd = .ack ∨
      cmdOf p.cmd = .ping
  · refine path_of_field ?_
    rw [field_of_keeps (dispatch_quiet hq) (by decide), hat]
  rw [not_or, not_or] at hq
  rw [dispatch_routes hq.1 hq.2.1 hq.2.2]
  have hk : Keeps [.net, .posts, .moment] v.core
      (((v.core.atMoment t none).touch s).ackIfReliable s p) :=
    (keeps_atMoment.mono (by decide)).trans
      ((keeps_touch.mono (by decide)).trans (keeps_ackIfReliable.mono (by decide)))
  have hsync : (v.core.ss s).syncStarted = false := Bool.eq_false_iff.mpr hq.1
  have hnone : (v.core.ss s).matchRef = none := by
    by_contra hne
    obtain ⟨a, ha, has⟩ := hv.seats.waits s hne hsync
    exact hv.seats.not_admitted hjoin (has ▸ List.mem_map_of_mem ha)
  revert hk
  generalize ((v.core.atMoment t none).touch s).ackIfReliable s p = c
  intro hk
  have hf := field_of_keeps hk (by decide)
  have href : (c.ss s).matchRef = none := (matchRef_of_keeps hk (by decide) s).trans hnone
  by_cases hcmd : cmdOf p.cmd = .joinMatchPost
  · refine path_of_field ?_
    unfold Core.route
    rw [hcmd]
    exact congrFun (field_handleJoinMatchPost.trans hf) m
  by_cases hre : cmdOf p.cmd = .reconnect
  · have hent := (hv.seats.loose s hnone).1
    have hnext : c.nextRef = v.core.nextRef := nextRef_of_keeps hk (by decide)
    have hfresh : (v.core.field c.nextRef).Untouched :=
      hv.blank _ (hv.seats.blank _ (Nat.le_of_eq hnext.symm)).1
    have hp : Plays t.now (fun f l => f = v.core.field c.nextRef ∧ l = .setup) c.nextRef c
        (c.handleHello w s p) := by
      refine plays_handleHello hre href ((syncStarted_of_keeps hk (by decide) s).trans hsync)
        (fun m' => ?_) (hf ▸ hfresh) ⟨congrFun hf _, rfl⟩
      rw [players_of_keeps hk (by decide)]
      exact not_seated hv.seats hent m'
    unfold Core.route
    rw [hre]
    by_cases hm : m = c.nextRef
    · rw [hm, ← congrFun hf c.nextRef]
      exact hp.path.mono fun f l h => h.1 ▸ h.2 ▸ .setup
    · refine path_of_field ?_
      dsimp only
      rw [hp.off hm, hf]
  · have hpath := @path_route w c s p hcmd (fun h => absurd h hre)
      (fun m' hm' => absurd (href.symm.trans hm') (by simp)) m
    refine path_of_field ((hpath.eq_of_none fun f l hl => ?_).trans (congrFun hf m))
    cases hl with
    | report _ _ hm => exact absurd (href.symm.trans hm) (by simp)
    | startRescue _ hm => exact absurd (href.symm.trans hm) (by simp)
    | stopRescue _ hm => exact absurd (href.symm.trans hm) (by simp)
    | quit _ hm _ => exact absurd (href.symm.trans hm) (by simp)

theorem path_of_job {t : Moment} {m0 : MatchRef} {job : Job} {rest : List Job} (hv : v.Sound)
    (hj : v.JoinsOnce ⟨.exec m0, t⟩) (hm0 : v.mail m0 = job :: rest) (hfree : v.free m0 = true)
    (m : MatchRef) : Field.Path t.now (Why w v ⟨.exec m0, t⟩ m) (v.core.field m)
      (((v.core.atMoment t (some m0)).runJob w m0 job).field m) := by
  have hk : Keeps [.net, .posts, .moment] v.core (v.core.atMoment t (some m0)) :=
    keeps_atMoment.mono (by decide)
  have hat : (v.core.atMoment t (some m0)).field = v.core.field := field_of_keeps hk (by decide)
  cases job with
  | route s p =>
    have href : (v.core.ss s).matchRef = some m0 := hv.seats.routes m0 s p (by
      change Job.route s p ∈ v.mail m0
      rw [hm0]
      exact List.mem_cons_self)
    have hrouted : v.routed (.exec m0) = some (s, p) := by simp [routed, hm0]
    have hcmd : cmdOf p.cmd ≠ .joinMatchPost := fun hc =>
      absurd ((hj (s, p) hrouted hc).symm.trans href) (by simp)
    have hpath := @path_route w (v.core.atMoment t (some m0)) s p hcmd
      (fun _ hn => absurd (href.symm.trans hn) (by simp))
      (fun m' hm' hne => mem_of_sessionBy hv.seats hm' (congrFun hat m' ▸ hne)) m
    rw [hat] at hpath
    refine hpath.mono fun f l hl => ?_
    have hl' := handlerMove_of_keeps hk hl
    have hmm : m0 = m := by
      cases hl' with
      | report _ _ hm => exact Option.some.inj (href.symm.trans hm)
      | startRescue _ hm => exact Option.some.inj (href.symm.trans hm)
      | stopRescue _ hm => exact Option.some.inj (href.symm.trans hm)
      | quit _ hm _ => exact Option.some.inj (href.symm.trans hm)
    exact .handler hrouted (hmm ▸ hfree) hl'
  | admitLater s =>
    obtain ⟨href, hent, -⟩ := hv.seats.laters m0 s (by
      change Job.admitLater s ∈ v.mail m0
      rw [hm0]
      exact List.mem_cons_self)
    have hout := not_seated hv.seats hent
    have hrun := running_of_free hfree
    have hidle : v.seating.idle m0 = false := by
      change ((v.core.ms m0).loop == .idle) = false
      rw [hrun]
      rfl
    obtain ⟨htwo, hmax⟩ := hv.seats.slot_left hm0 hidle
    have ht := @turns_admitLater w (v.core.atMoment t (some m0)) s m0 hout (by
      change (v.core.ss s).matchRef ≠ none
      rw [show (v.core.ss s).matchRef = some m0 from href]
      exact Option.some_ne_none _)
    have hp : Plays t.now (Why w v ⟨.exec m0, t⟩ m0) m0 (v.core.atMoment t (some m0))
        ((v.core.atMoment t (some m0)).runJob w m0 (.admitLater s)) := by
      refine plays_move (l := .join s (v.core.joinTeam s m0)) (hat ▸ .join rfl hfree hm0)
        (.join (fun x hx hs => ?_) joinTeam_cases htwo ?_ ?_) ht
      · obtain ⟨q, hq, rfl⟩ := List.mem_map.mp hx
        exact hout m0 (hs ▸ hq)
      · have hmax' : ((v.core.atMoment t (some m0)).field m0).slot ≤ maxPlayers := hmax
        unfold maxPlayers at hmax'
        omega
      · change ((v.core.ms m0).loop == .running || (v.core.ms m0).loop == .stopped) = true
        rw [hrun]
        rfl
    by_cases hm : m = m0
    · rw [hm, ← congrFun hat m0]
      exact hp.path
    · exact path_of_field ((hp.off hm).trans (congrFun hat m))
  | resyncWalls s =>
    refine path_of_field ?_
    have hw := field_of_keeps (@keeps_resyncWalls (v.core.atMoment t (some m0)) s) (by decide)
    exact congrFun (hw.trans hat) m

theorem path_of_step (h : v.Step w e v') (hj : v.JoinsOnce e) (hv : v.Sound) (m : MatchRef) :
    Field.Path e.moment.now (Why w v e m) (v.core.field m) (v'.core.field m) := by
  have hf := fires_of_step h
  obtain ⟨act, t⟩ := e
  dsimp only at hf ⊢
  have hat : ∀ loop, (v.core.atMoment t loop).field = v.core.field :=
    fun _ => field_of_keeps keeps_atMoment (by decide)
  have hturn : ∀ loop {m0 d}, Plays t.now (Why w v ⟨act, t⟩ m0) m0 (v.core.atMoment t loop) d →
      Field.Path t.now (Why w v ⟨act, t⟩ m) (v.core.field m) (d.field m) := by
    intro loop m0 d hp
    by_cases hm : m = m0
    · rw [hm, ← congrFun (hat loop) m0]
      exact hp.path
    · exact path_of_field ((hp.off hm).trans (congrFun (hat loop) m))
  cases hf with
  | dispatch hjoining => exact path_of_dispatch hv hjoining m
  | @letIn a ha =>
    obtain ⟨-, hlt, hent, hsync, href, hslot⟩ := hv.seats.admitted a ha
    have hout := not_seated hv.seats hent
    change Field.Path t.now _ (v.core.field m) (((v.core.atMoment t a.loop).admission w a).field m)
    unfold admission
    have hcore : { v.core.atMoment t a.loop with
        admits := (v.core.atMoment t a.loop).admits.erase a }.field = v.core.field := hat a.loop
    cases hfresh : a.fresh with
    | true =>
      have hp : Plays t.now (Why w v ⟨.letIn a, t⟩ a.m) a.m { v.core.atMoment t a.loop with
          admits := (v.core.atMoment t a.loop).admits.erase a } _ :=
        plays_admit_fresh (w := w) (s := a.s) hsync hout
          (hcore ▸ hv.blank a.m (hslot hfresh)) (hcore ▸ .setup)
      by_cases hm : m = a.m
      · rw [hm, ← congrFun hcore a.m]
        exact hp.path
      · exact path_of_field ((hp.off hm).trans (congrFun hcore m))
    | false => exact path_of_field (congrFun (field_admitSession_later.trans hcore) m)
  | @start m0 hl =>
    refine hturn (some m0) (plays_move (l := .begin_) ?_ (.begin_ ?_) turns_runStart)
    · rw [hat]
      exact .begin_ rfl hl
    · change ((v.core.ms m0).loop == .running || (v.core.ms m0).loop == .stopped) = false
      rw [hl]
      rfl
  | exec hm hfree => exact path_of_job hv hj hm hfree m
  | @tick m0 hfree =>
    have hp : Plays t.now (TickMove w (v.core.atMoment t (some m0)) m0) m0
        (v.core.atMoment t (some m0)) ((v.core.atMoment t (some m0)).tick w m0) :=
      @plays_tick w (v.core.atMoment t (some m0)) m0 (running_of_free hfree) (hv.seats.nodup m0)
        fun p hp => (hv.seats.seated m0 p hp).1
    exact hturn (some m0) (hp.mono fun f l hl => .tick rfl hfree hl)
  | @stop m0 hfree _ => exact hturn (some m0) (turns_stopLoop (running_of_free hfree)).quiet

theorem Why.hit_cases {victim attacker dmg : Nat} (h : Why w v e m f (.hit victim attacker dmg)) :
    (f = v.core.field m ∧ v.free m = true ∧ ∃ s p req, v.handles e.act .takeDamage = some (s, p, m) ∧
      parseTakeDamage p.payload = some req ∧ victim = req.victim ∧ attacker = req.attacker ∧
      dmg = req.dmg) ∨
    (attacker = 0 ∧ f.zoneOn = true ∧ ∃ x ∈ f.crew, victim = x.entity ∧ f.lifeOf x.entity = .alive) := by
  cases h with
  | @handler s p _ _ hr hfree hl =>
    cases hl with
    | report hcmd hreq hm =>
      exact Or.inl ⟨rfl, hfree, s, p, _, handles_of_routed hr hcmd hm, hreq, rfl, rfl, rfl⟩
  | tick _ _ hl =>
    cases hl with
    | clock hl _ => exact Bool.noConfusion hl
    | zone hstrikes => exact Or.inr ⟨rfl, hstrikes.standing⟩

theorem Why.setup_of_idle (h : Why w v e m f l) (hidle : (v.core.ms m).loop = .idle) :
    l = .setup := by
  have hbusy : v.free m = true → False := fun hfree => by
    rw [running_of_free hfree] at hidle
    exact LoopState.noConfusion hidle
  cases h with
  | handler _ hfree _ => exact absurd hfree hbusy
  | setup => rfl
  | begin_ _ hl => exact absurd (hl.symm.trans hidle) (by decide)
  | join _ hfree _ => exact absurd hfree hbusy
  | tick _ hfree _ => exact absurd hfree hbusy

theorem Why.free (h : Why w v e m f l) (hs : l ≠ .setup) (hb : l ≠ .begin_) : v.free m = true := by
  cases h with
  | handler _ hfree _ => exact hfree
  | setup => exact absurd rfl hs
  | begin_ _ _ => exact absurd rfl hb
  | join _ hfree _ => exact hfree
  | tick _ hfree _ => exact hfree

theorem sound_step (h : v.Step w e v') (hj : v.JoinsOnce e) (hv : v.Sound) : v'.Sound := by
  refine ⟨seats_step h hj hv.seats, fun m hm => ?_⟩
  have hpath := path_of_step h hj hv m
  by_cases hslot : (v.core.ms m).nextSlot = 0
  · have hidle : (v.core.ms m).loop = .idle := by
      simpa [seating] using (hv.seats.idle m hslot).2
    have hends : v'.core.field m = v.core.field m ∨ (v'.core.field m).slot = 2 := by
      refine Field.Path.invariant (I := fun g => g = v.core.field m ∨ g.slot = 2) hpath
        (Or.inl rfl) fun {f l g} _ hwhy hmove => Or.inr ?_
      obtain rfl := hwhy.setup_of_idle hidle
      rcases Field.slot_of_move hmove with hs | ⟨⟨_, _, hl⟩, -⟩ | ⟨-, -, hs⟩
      · cases hmove with
        | @setup _ s team hp hf _ => simp [Field.setup, Field.nextSlot, hf.slot]
      · cases hl
      · exact hs
    rcases hends with heq | htwo
    · rw [heq]
      exact hv.blank m hslot
    · exact absurd (show (v'.core.ms m).nextSlot = 2 from htwo) (by omega)
  · have htaken : (v'.core.field m).slot ≠ 0 := by
      refine Field.Path.invariant (I := fun g => g.slot ≠ 0) hpath hslot
        fun {f l g} hf _ hmove => ?_
      rcases Field.slot_of_move hmove with hs | ⟨-, -, hs⟩ | ⟨-, -, hs⟩ <;> omega
    exact absurd hm htaken

theorem sound_start : start.Sound :=
  ⟨seats_start, fun _ _ =>
    ⟨rfl, rfl, rfl, rfl, rfl, rfl, rfl, rfl, rfl, rfl, rfl, rfl, rfl, rfl, rfl, rfl, rfl⟩⟩

variable {C : Server → Event → Prop} {I : Field → Prop}

theorem sound_of_run (h : Run (Guarded (Step w) C) start es v)
    (hC : ∀ v e, C v e → v.JoinsOnce e) : v.Sound :=
  run_invariant h sound_start fun hv hs => sound_step hs.1 (hC _ _ hs.2) hv

theorem begun_of_free (h : v.free m = true) : (v.core.field m).begun = true := by
  simp [field, Match.view, running_of_free h]

theorem step_invariant (hv : v.Sound) (h : v.Step w e v') (hj : v.JoinsOnce e)
    (h0 : I (v.core.field m))
    (hstep : ∀ {f l g}, Why w v e m f l →
      Field.Path e.moment.now (Why w v e m) (v.core.field m) f →
      (l ≠ .setup → l ≠ .begin_ → f.begun = true) → I f → Field.Move e.moment.now l f g → I g) :
    I (v'.core.field m) := by
  refine ((path_of_step h hj hv m).invariant (I := fun f => I f ∧
    (v.free m = true → f.begun = true) ∧
    Field.Path e.moment.now (Why w v e m) (v.core.field m) f) ⟨h0, begun_of_free, .refl⟩
    fun {f l g} ⟨hf, hup, hprefix⟩ hwhy hmove => ?_).1
  exact ⟨hstep hwhy hprefix (fun h1 h2 => hup (hwhy.free h1 h2)) hf hmove,
    fun hfree => Field.begun_of_move hmove (hup hfree), hprefix.next hwhy hmove⟩

-- What holds of a match nobody sat down in, and is kept by every move that has its reason, holds
-- of every match.
theorem field_invariant (h : Run (Guarded (Step w) C) start es v)
    (hC : ∀ v e, C v e → v.JoinsOnce e) (h0 : ∀ f : Field, f.Untouched → I f)
    (hstep : ∀ {v e m f l g}, v.Sound → C v e → I (v.core.field m) → Why w v e m f l →
      Field.Path e.moment.now (Why w v e m) (v.core.field m) f →
      (l ≠ .setup → l ≠ .begin_ → f.begun = true) → I f → Field.Move e.moment.now l f g → I g)
    (m : MatchRef) : I (v.core.field m) := by
  have hall : v.Sound ∧ ∀ m, I (v.core.field m) := by
    refine run_invariant (I := fun v => v.Sound ∧ ∀ m, I (v.core.field m)) h
      ⟨sound_start, fun m => h0 _ (sound_start.blank m rfl)⟩ ?_
    intro v e v' ⟨hv, hi⟩ hs
    have hj := hC v e hs.2
    refine ⟨sound_step hs.1 hj hv, fun m => ?_⟩
    exact step_invariant hv hs.1 hj (hi m) fun hwhy hprefix hup hf hm =>
      hstep hv hs.2 (hi m) hwhy hprefix hup hf hm
  exact hall.2 m

end Server

end MatchServer

import Madoka.MatchServer.Joins

namespace MatchServer

open Lib

namespace Seating

variable {x y z : Seating} {m : MatchRef}

def enter (x : Seating) (a : Admission) : Seating :=
  { x with
    reserved := Function.update x.reserved a.m (x.reserved a.m + 1)
    admits := x.admits ++ [a] }

def found (x : Seating) (s : SessionId) (loop : Option MatchRef) : Seating :=
  { x with
    ref := Function.update x.ref s (some x.next)
    reserved := Function.update x.reserved x.next (x.reserved x.next + 1)
    live := x.live ++ [x.next]
    next := x.next + 1
    admits := x.admits ++ [⟨s, x.next, true, loop⟩] }

-- The first seat of a match; the loop of a session that was seated before is not spawned.
def openWith (x : Seating) (a : Admission) (e : Nat) : Seating :=
  { x with
    ref := Function.update x.ref a.s (some a.m)
    entity := Function.update x.entity a.s e
    synced := Function.update x.synced a.s true
    crew := Function.update x.crew a.m (x.crew a.m ++ [a.s])
    slot := Function.update x.slot a.m (((x.slot a.m + 1) % 256 + 1) % 256)
    idle := Function.update x.idle a.m (x.synced a.s && x.idle a.m)
    admits := x.admits.erase a }

structure Linked (x : Seating) : Prop where
  live : ∀ m ∈ x.live, m < x.next
  minted : ∀ s m, x.ref s = some m → m < x.next
  entering : ∀ a ∈ x.admits, a.m < x.next
  routes : ∀ m s p, Job.route s p ∈ x.mail m → x.ref s ≠ none

theorem Linked.calm (h : Linked x) (hc : Calm x y) : Linked y where
  live := fun m hm => by
    rw [hc.next]
    exact h.live m (hc.live hm)
  minted := by
    rw [hc.ref, hc.next]
    exact h.minted
  entering := by
    rw [hc.admits, hc.next]
    exact h.entering
  routes := fun m s p hm => by
    rw [hc.ref]
    obtain ⟨l, hsub, hl⟩ := hc.mail m
    rcases List.mem_append.mp (hsub.subset hm) with hx | hx
    · exact h.routes m s p hx
    · rw [(hl _ hx).2.2 s p rfl]
      exact Option.some_ne_none m

theorem Linked.enter (h : Linked x) {a : Admission} (ha : a.m < x.next) : Linked (x.enter a) where
  live := h.live
  minted := h.minted
  entering := fun b hb => by
    rcases List.mem_append.mp hb with hx | hx
    · exact h.entering b hx
    · rw [List.mem_singleton.mp hx]
      exact ha
  routes := h.routes

theorem Linked.found (h : Linked x) {s : SessionId} {loop : Option MatchRef} :
    Linked (x.found s loop) where
  live := fun m hm => by
    rcases List.mem_append.mp hm with hx | hx
    · exact Nat.lt_succ_of_lt (h.live m hx)
    · rw [List.mem_singleton.mp hx]
      exact Nat.lt_succ_self _
  minted := fun s' m hm => by
    by_cases hss : s' = s
    · simp only [Seating.found, hss, Function.update_self, Option.some.injEq] at hm
      rw [← hm]
      exact Nat.lt_succ_self _
    · simp only [Seating.found, Function.update_of_ne hss] at hm
      exact Nat.lt_succ_of_lt (h.minted s' m hm)
  entering := fun b hb => by
    rcases List.mem_append.mp hb with hx | hx
    · exact Nat.lt_succ_of_lt (h.entering b hx)
    · rw [List.mem_singleton.mp hx]
      exact Nat.lt_succ_self _
  routes := fun m s' p hm => by
    by_cases hss : s' = s
    · simp [Seating.found, hss]
    · simpa only [Seating.found, Function.update_of_ne hss] using h.routes m s' p hm

theorem Linked.openWith (h : Linked x) {a : Admission} {e : Nat} (ha : a ∈ x.admits) :
    Linked (x.openWith a e) where
  live := h.live
  minted := fun s' m hm => by
    by_cases hss : s' = a.s
    · simp only [Seating.openWith, hss, Function.update_self, Option.some.injEq] at hm
      rw [← hm]
      exact h.entering a ha
    · simp only [Seating.openWith, Function.update_of_ne hss] at hm
      exact h.minted s' m hm
  entering := fun b hb => h.entering b (List.mem_of_mem_erase hb)
  routes := fun m s' p hm => by
    by_cases hss : s' = a.s
    · simp [Seating.openWith, hss]
    · simpa only [Seating.openWith, Function.update_of_ne hss] using h.routes m s' p hm

theorem mem_mail_ask {a : Admission} {j : Job} (hj : j ∈ (x.ask a).mail m) :
    j ∈ x.mail m ∨ m = a.m ∧ j = .admitLater a.s := by
  by_cases hmm : m = a.m
  · subst hmm
    simp only [Seating.ask, Function.update_self, List.mem_append, List.mem_singleton] at hj
    exact hj.imp_right fun h => ⟨rfl, h⟩
  · simp only [Seating.ask, Function.update_of_ne hmm] at hj
    exact Or.inl hj

theorem Linked.ask (h : Linked x) {a : Admission} (ha : a ∈ x.admits) : Linked (x.ask a) where
  live := h.live
  minted := fun s' m hm => by
    by_cases hss : s' = a.s
    · simp only [Seating.ask, hss, Function.update_self, Option.some.injEq] at hm
      rw [← hm]
      exact h.entering a ha
    · simp only [Seating.ask, Function.update_of_ne hss] at hm
      exact h.minted s' m hm
  entering := fun b hb => h.entering b (List.mem_of_mem_erase hb)
  routes := fun m s' p hm => by
    rcases mem_mail_ask hm with hx | ⟨-, hx⟩
    · by_cases hss : s' = a.s
      · simp [Seating.ask, hss]
      · simpa only [Seating.ask, Function.update_of_ne hss] using h.routes m s' p hx
    · cases hx

theorem mem_mail_sit {s : SessionId} {e : Nat} {job j : Job} {m' : MatchRef} {rest : List Job}
    (hm : x.mail m = job :: rest) (hj : j ∈ (x.sit s m e rest).mail m') : j ∈ x.mail m' := by
  by_cases hmm : m' = m
  · subst hmm
    simp only [Seating.sit, Function.update_self] at hj
    rw [hm]
    exact List.mem_cons_of_mem _ hj
  · simpa only [Seating.sit, Function.update_of_ne hmm] using hj

theorem Linked.sit (h : Linked x) {s : SessionId} {e : Nat} {job : Job} {rest : List Job}
    (hm : x.mail m = job :: rest) : Linked (x.sit s m e rest) where
  live := h.live
  minted := h.minted
  entering := h.entering
  routes := fun m' s' p hj => h.routes m' s' p (mem_mail_sit hm hj)

end Seating

namespace Server

open MatchServer.Core Seating

variable {w : World} {v v' : Server} {e : Event} {act : Action} {c d : Core} {s : SessionId}
  {m : MatchRef} {p : Packet} {a : Admission} {mail mail' : MatchRef → List Job} {F : List Part}

-- The goroutine that handles a packet of a session: the receive goroutine or a match loop.
def Runs (v : Server) (s : SessionId) (p : Packet) (loop : Option MatchRef) : Action → Prop
  | .dispatch s' p' =>
    s' = s ∧ p' = p ∧ loop = none ∧ v.joining s = false ∧ (v.core.ss s).syncStarted = false
  | .exec m => loop = some m ∧ ∃ rest, v.mail m = .route s p :: rest
  | _ => False

def seatedBy (v : Server) : Action → Option (SessionId × MatchRef)
  | .dispatch s p =>
    if v.joining s = false ∧ (v.core.ss s).syncStarted = false ∧ cmdOf p.cmd = .reconnect ∧
        (v.core.ss s).matchRef = none then some (s, v.core.nextRef)
    else none
  | .letIn a => if a ∈ v.core.admits ∧ a.fresh = true then some (a.s, a.m) else none
  | .exec m =>
    match v.mail m with
    | .admitLater s :: _ =>
      if v.free m = true ∧ (v.core.ss s).matchRef ≠ none then some (s, m) else none
    | _ => none
  | _ => none

inductive Shift (v : Server) : Action → Seating → Prop where
  | quiet {act : Action} : v.seatedBy act = none → Shift v act v.seating
  | reserve {act : Action} {s : SessionId} {p : Packet} {m : MatchRef} {loop : Option MatchRef} :
    v.Runs s p loop act → cmdOf p.cmd = .joinMatchPost → m ∈ v.core.live →
    (v.core.ms m).canAdmit = true → Shift v act (v.seating.enter ⟨s, m, false, loop⟩)
  | found {act : Action} {s : SessionId} {p : Packet} {loop : Option MatchRef} :
    v.Runs s p loop act → cmdOf p.cmd = .joinMatchPost → Shift v act (v.seating.found s loop)
  | resume {s : SessionId} {p : Packet} {team : Nat} :
    v.Runs s p none (.dispatch s p) → cmdOf p.cmd = .reconnect → (v.core.ss s).matchRef = none →
    (team = 1 ∨ team = 2) → Shift v (.dispatch s p)
      ((v.seating.found s none).openWith ⟨s, v.core.nextRef, true, none⟩
        (team * 2 ^ 24 + ((v.core.ms v.core.nextRef).nextSlot + 1) % 256))
  | first {a : Admission} {team : Nat} : a ∈ v.core.admits → a.fresh = true →
    (team = 1 ∨ team = 2) → Shift v (.letIn a)
      (v.seating.openWith a (team * 2 ^ 24 + ((v.core.ms a.m).nextSlot + 1) % 256))
  | ask {a : Admission} : a ∈ v.core.admits → a.fresh = false →
    Shift v (.letIn a) (v.seating.ask a)
  | sit {m : MatchRef} {s : SessionId} {rest : List Job} : v.mail m = .admitLater s :: rest →
    v.free m = true → (v.core.ss s).matchRef ≠ none →
    Shift v (.exec m) (v.seating.sit s m
      (v.core.joinTeam s m * 2 ^ 24 + ((v.core.ms m).nextSlot + 1) % 256) rest)

theorem seating_of_keeps (h : Keeps F c d)
    (hF : ∀ x ∈ F, x ∉ [.seat, .slots, .roster, .run, .registry]) :
    seating ⟨d, mail⟩ = seating ⟨c, mail⟩ := by
  have hcard : ∀ s, (d.ss s).card = (c.ss s).card :=
    card_of_keeps h fun hm => hF _ hm (by decide)
  have hchairs : ∀ m, (d.ms m).chairs = (c.ms m).chairs := by
    refine chairs_of_keeps h fun x hx hm => hF x hx ?_
    simp only [List.mem_cons, List.not_mem_nil, or_false] at hm ⊢
    tauto
  simp only [Session.card, Match.chairs, Prod.mk.injEq] at hcard hchairs
  simp only [seating, Seating.mk.injEq]
  exact ⟨funext fun s => (hcard s).1, funext fun s => (hcard s).2.1, funext fun s => (hcard s).2.2,
    funext fun m => (hchairs m).1, funext fun m => (hchairs m).2.1,
    funext fun m => (hchairs m).2.2.1, funext fun m => by rw [(hchairs m).2.2.2],
    live_of_keeps h fun hm => hF _ hm (by decide), nextRef_of_keeps h fun hm => hF _ hm (by decide),
    admits_of_keeps h fun hm => hF _ hm (by decide), trivial⟩

theorem calm_pick (hposts : c.posts = []) (hmail : ∀ m, (mail' m).Sublist (mail m)) :
    (∃ m ∈ c.live, (c.ms m).canAdmit = true ∧
      Calm ((seating ⟨c, mail⟩).enter ⟨s, m, false, c.loop⟩)
        (settle (c.handleJoinMatchPost w s p) mail').seating) ∨
    Calm ((seating ⟨c, mail⟩).found s c.loop)
      (settle (c.handleJoinMatchPost w s p) mail').seating := by
  rcases @handleJoinMatchPost_cases w c s p with ⟨m, hm, hadmit, heq⟩ | heq
  · refine Or.inl ⟨m, hm, hadmit, ?_⟩
    rw [heq]
    refine calm_of (fun t => ?_) (fun m' => ?_) (fun m' => ?_) (fun m' => ?_) (fun m' => ?_) rfl rfl
      (fun _ hx => hx) hmail fun post hp => ?_
    · simp only [onMatch_ss, onSession_ss]
      split
      · rename_i ht
        subst ht
        rfl
      · rfl
    · simp only [onMatch_ms, onSession_ms]
      split <;> simp_all [seating, Seating.enter]
    · simp only [onMatch_ms, onSession_ms]
      split <;> simp_all [seating, Seating.enter]
    · simp only [onMatch_ms, onSession_ms]
      split <;> simp_all [seating, Seating.enter]
    · simp only [onMatch_ms, onSession_ms]
      split <;> simp_all [seating, Seating.enter]
    · have hp' : post ∈ c.posts := hp
      simp [hposts] at hp'
  · refine Or.inr ?_
    rw [heq]
    refine calm_of (fun t => ?_) (fun m' => ?_) (fun m' => ?_) (fun m' => ?_) (fun m' => ?_) rfl rfl
      (fun _ hx => hx) hmail fun post hp => ?_
    · by_cases ht : t = s
      · subst ht
        simp [register, newMatch, onSession, onMatch, Session.card, seating, Seating.found]
      · simp [register, newMatch, onSession, onMatch, Session.card, seating, Seating.found, ht]
    · by_cases hm : m' = c.nextRef
      · subst hm
        simp [register, newMatch, onSession, onMatch, seating, Seating.found]
      · simp [register, newMatch, onSession, onMatch, seating, Seating.found, hm]
    · by_cases hm : m' = c.nextRef
      · subst hm
        simp [register, newMatch, onSession, onMatch, seating, Seating.found]
      · simp [register, newMatch, onSession, onMatch, seating, Seating.found, hm]
    · by_cases hm : m' = c.nextRef
      · subst hm
        simp [register, newMatch, onSession, onMatch, seating, Seating.found]
      · simp [register, newMatch, onSession, onMatch, seating, Seating.found, hm]
    · by_cases hm : m' = c.nextRef
      · subst hm
        simp [register, newMatch, onSession, onMatch, seating, Seating.found]
      · simp [register, newMatch, onSession, onMatch, seating, Seating.found, hm]
    · have hp' : post ∈ c.posts := hp
      simp [hposts] at hp'

theorem calm_resume (hposts : c.posts = []) (hmail : ∀ m, (mail' m).Sublist (mail m))
    (hcmd : cmdOf p.cmd = .reconnect) (hs : (c.ss s).matchRef = none) (hsync : (c.ss s).syncStarted = false)
    (hj : (⟨s, c.nextRef, true, none⟩ : Admission) ∉ c.admits) :
    ∃ team, (team = 1 ∨ team = 2) ∧
      Calm (((seating ⟨c, mail⟩).found s none).openWith ⟨s, c.nextRef, true, none⟩
        (team * 2 ^ 24 + ((c.ms c.nextRef).nextSlot + 1) % 256))
        (settle (c.handleHello w s p) mail').seating := by
  obtain ⟨team, hteam, hcard⟩ := card_handleHello (w := w) hcmd hs hsync
  have hchairs := chairs_handleHello (w := w) hcmd hs hsync
  obtain ⟨hnext, hadmits, hlive, hpost⟩ := handleHello_shared (w := w) hcmd hs
  have hslot : (c.field c.nextRef).nextSlot = ((c.ms c.nextRef).nextSlot + 1) % 256 := rfl
  have herase : (c.admits ++ [(⟨s, c.nextRef, true, none⟩ : Admission)]).erase
      ⟨s, c.nextRef, true, none⟩ = c.admits := by
    rw [List.erase_append_right _ hj]
    simp
  refine ⟨team, hteam, calm_of (fun t => ?_) (fun m' => ?_) (fun m' => ?_) (fun m' => ?_)
    (fun m' => ?_) hnext (hadmits.trans herase.symm) (fun x hx => by rwa [hlive] at hx) hmail
    fun post hp => ?_⟩
  · rw [hcard, hslot]
    by_cases ht : t = s
    · simp [ht, seating, Seating.openWith, Seating.found]
    · simp [ht, seating, Seating.openWith, Seating.found, Session.card]
  · have hc := congrArg (fun x => x.2.1) (hchairs m')
    by_cases hm : m' = c.nextRef
    · subst hm
      simpa [Match.chairs, seating, Seating.openWith, Seating.found] using hc
    · simpa [Match.chairs, seating, Seating.openWith, Seating.found, hm] using hc
  · have hc := congrArg (fun x => x.2.2.1) (hchairs m')
    by_cases hm : m' = c.nextRef
    · subst hm
      simpa [Match.chairs, seating, Seating.openWith, Seating.found] using hc
    · simpa [Match.chairs, seating, Seating.openWith, Seating.found, hm] using hc
  · have hc := congrArg (fun x => x.2.2.2) (hchairs m')
    by_cases hm : m' = c.nextRef
    · subst hm
      simp only [Match.chairs, if_true] at hc
      simp [seating, Seating.openWith, Seating.found, hc, hsync]
    · simp only [Match.chairs, if_neg hm] at hc
      simp [seating, Seating.openWith, Seating.found, hm, hc]
  · have hc := congrArg (fun x => x.1) (hchairs m')
    by_cases hm : m' = c.nextRef
    · subst hm
      simp only [Match.chairs, if_true] at hc
      simp [seating, Seating.openWith, Seating.found, hc]
    · simp only [Match.chairs, if_neg hm] at hc
      simp [seating, Seating.openWith, Seating.found, hm, hc]
  · rw [hpost, hposts, List.nil_append, List.mem_singleton] at hp
    subst hp
    exact ⟨Nat.lt_succ_self _, rfl, by rintro _ _ ⟨⟩⟩

theorem seats_of_admitFirst (hm : (c.ss s).matchRef = some m) :
    (∀ t, ((c.admitFirst w s m).ss t).card =
      if t = s then (some m, c.joinTeam s m * 2 ^ 24 + (c.field m).nextSlot, true)
      else (c.ss t).card) ∧
    ∀ m', ((c.admitFirst w s m).ms m').chairs =
      if m' = m then ((c.ms m).players ++ [s], (((c.ms m).nextSlot + 1) % 256 + 1) % 256,
        (c.ms m).reserved, if (c.ss s).syncStarted then (c.ms m).loop else .spawned)
      else (c.ms m').chairs := by
  cases hs : (c.ss s).syncStarted with
  | false =>
    refine ⟨card_admitFirst hs hm, fun m' => ?_⟩
    rw [chairs_admitFirst hs hm]
    rfl
  | true =>
    have hcard := @card_greeted w c s m
    have hskip : c.admitFirst w s m = greeted w c s m := by
      have hsync := congrArg (fun x => x.2.2) (hcard s)
      simp only [Session.card, if_true, hs] at hsync
      rw [admitFirst_eq]
      unfold startCSMatch
      rw [if_pos hsync]
    rw [hskip]
    refine ⟨fun t => ?_, fun m' => ?_⟩
    · rw [hcard, hm, hs]
    · rw [chairs_greeted]
      rfl

theorem calm_first (hposts : c.posts = []) (hf : a.fresh = true) :
    ∃ team, (team = 1 ∨ team = 2) ∧
      Calm ((seating ⟨c, mail⟩).openWith a (team * 2 ^ 24 + ((c.ms a.m).nextSlot + 1) % 256))
        (settle (c.admission w a) mail).seating := by
  have hadm : c.admission w a = ({ c with admits := c.admits.erase a }.onSession a.s fun p =>
      { p with matchRef := some a.m }).admitFirst w a.s a.m := by
    unfold admission admitSession
    rw [if_pos hf]
  obtain ⟨hcard, hchairs⟩ := @seats_of_admitFirst w ({ c with admits := c.admits.erase a }.onSession
    a.s fun p => { p with matchRef := some a.m }) a.s a.m (by simp)
  obtain ⟨hnext, hadmits, hlive, hpost⟩ := @shared_of_admitFirst w
    ({ c with admits := c.admits.erase a }.onSession a.s fun p =>
      { p with matchRef := some a.m }) a.s a.m
  rw [← hadm] at hcard hchairs hnext hadmits hlive hpost
  have hslot : (({ c with admits := c.admits.erase a }.onSession a.s fun p =>
      { p with matchRef := some a.m }).field a.m).nextSlot = ((c.ms a.m).nextSlot + 1) % 256 := rfl
  rw [hslot] at hcard
  refine ⟨_, @joinTeam_cases ({ c with admits := c.admits.erase a }.onSession a.s fun p =>
      { p with matchRef := some a.m }) a.s a.m, ?_⟩
  revert hcard
  generalize joinTeam _ a.s a.m = team
  intro hcard
  refine calm_of (fun t => ?_) (fun m' => ?_) (fun m' => ?_) (fun m' => ?_) (fun m' => ?_) hnext
    hadmits (fun x hx => by rwa [hlive] at hx) (fun _ => List.Sublist.refl _) fun post hp => ?_
  · rw [hcard]
    by_cases ht : t = a.s
    · simp [ht, seating, Seating.openWith]
    · simp [ht, seating, Seating.openWith, Session.card]
  · have hc := congrArg (fun x => x.2.1) (hchairs m')
    by_cases hm : m' = a.m
    · subst hm
      simpa [Match.chairs, seating, Seating.openWith] using hc
    · simpa [Match.chairs, seating, Seating.openWith, hm] using hc
  · have hc := congrArg (fun x => x.2.2.1) (hchairs m')
    by_cases hm : m' = a.m
    · subst hm
      simpa [Match.chairs, seating, Seating.openWith] using hc
    · simpa [Match.chairs, seating, Seating.openWith, hm] using hc
  · have hc := congrArg (fun x => x.2.2.2) (hchairs m')
    by_cases hm : m' = a.m
    · subst hm
      simp only [Match.chairs, if_true, onSession_ss, onSession_ms] at hc
      cases hsync : (c.ss a.s).syncStarted <;>
        simp [Seating.openWith, seating, hc, hsync]
    · simp only [Match.chairs, if_neg hm, onSession_ms] at hc
      simp [seating, Seating.openWith, hm, hc]
  · have hc := congrArg (fun x => x.1) (hchairs m')
    by_cases hm : m' = a.m
    · subst hm
      simp only [Match.chairs, if_true, onSession_ms] at hc
      simp [seating, Seating.openWith, hc]
    · simp only [Match.chairs, if_neg hm, onSession_ms] at hc
      simp [seating, Seating.openWith, hm, hc]
  · rw [hpost] at hp
    have hp' : post ∈ c.posts := hp
    simp [hposts] at hp'

theorem calm_ask (hposts : c.posts = []) (hf : a.fresh = false) :
    Calm ((seating ⟨c, mail⟩).ask a) (settle (c.admission w a) mail).seating := by
  have hadm : c.admission w a = ((({ c with admits := c.admits.erase a }.onSession a.s fun p =>
      { p with matchRef := some a.m }).onSession a.s fun p =>
      { p with syncStarted := true }).enqueue a.m (.admitLater a.s)) := by
    unfold admission admitSession
    rw [if_neg (by simp [hf])]
  have hpost : (c.admission w a).posts = [(a.m, .admitLater a.s)] := by
    rw [hadm]
    simp [enqueue, onSession, hposts]
  have hsame : (settle (c.admission w a) mail).seating =
      (settle { c.admission w a with posts := [] } (deliver mail (a.m, .admitLater a.s))).seating := by
    simp only [settle, seating, hpost, List.foldl_cons, List.foldl_nil]
  rw [hsame]
  refine calm_of (fun t => ?_) (fun m' => ?_) (fun m' => ?_) (fun m' => ?_) (fun m' => ?_) ?_ ?_
    (fun x hx => ?_) (fun m' => ?_) (by rintro _ ⟨⟩)
  · simp only [hadm, enqueue, onSession_ss]
    by_cases ht : t = a.s
    · subst ht
      simp [Session.card, seating, Seating.ask]
    · simp [ht, Session.card, seating, Seating.ask]
  · rw [hadm]
    rfl
  · rw [hadm]
    rfl
  · rw [hadm]
    rfl
  · rw [hadm]
    exact List.Sublist.refl _
  · rw [hadm]
    rfl
  · rw [hadm]
    rfl
  · rw [hadm] at hx
    exact hx
  · unfold deliver
    dsimp only
    split
    · exact List.Sublist.refl _
    · by_cases hm : m' = a.m
      · subst hm
        simp only [Seating.ask, Function.update_self]
        exact List.sublist_append_left _ _
      · simp only [Seating.ask, Function.update_of_ne hm]
        exact List.Sublist.refl _

theorem calm_sit {rest : List Job} (hposts : c.posts = []) (hs : (c.ss s).matchRef ≠ none)
    (hrun : (c.ms m).loop ≠ .idle) :
    Calm ((seating ⟨c, mail⟩).sit s m
        (c.joinTeam s m * 2 ^ 24 + ((c.ms m).nextSlot + 1) % 256) rest)
      (settle (c.admitLater w s m) (Function.update mail m rest)).seating := by
  have hcard := card_admitLater (w := w) (c := c) (s := s) (m := m) hs
  have hchairs := chairs_admitLater (w := w) (c := c) (s := s) (m := m) hs
  have hka := @keeps_admitLater w c s m
  have hslot : (c.field m).nextSlot = ((c.ms m).nextSlot + 1) % 256 := rfl
  rw [hslot] at hcard
  refine calm_of (fun t => ?_) (fun m' => ?_) (fun m' => ?_) (fun m' => ?_) (fun m' => ?_)
    (nextRef_of_keeps hka (by decide)) (admits_of_keeps hka (by decide)) (fun x hx => ?_)
    (fun m' => List.Sublist.refl _) fun post hp => ?_
  · rw [hcard]
    by_cases ht : t = s
    · subst ht
      simp [seating, Seating.sit]
    · simp [ht, seating, Seating.sit, Session.card]
  · have hc := congrArg (fun x => x.2.1) (hchairs m')
    by_cases hmm : m' = m
    · subst hmm
      simpa [Match.chairs, seating, Seating.sit] using hc
    · simpa [Match.chairs, seating, Seating.sit, hmm] using hc
  · have hc := congrArg (fun x => x.2.2.1) (hchairs m')
    by_cases hmm : m' = m
    · subst hmm
      simpa [Match.chairs, seating, Seating.sit] using hc
    · simpa [Match.chairs, seating, Seating.sit, hmm] using hc
  · have hc := congrArg (fun x => x.2.2.2) (hchairs m')
    by_cases hmm : m' = m
    · subst hmm
      simp only [Match.chairs, if_true] at hc
      simp [seating, Seating.sit, hc]
    · simp only [Match.chairs, if_neg hmm] at hc
      simp [seating, Seating.sit, hc]
  · have hc := congrArg (fun x => x.1) (hchairs m')
    by_cases hmm : m' = m
    · subst hmm
      simp only [Match.chairs, if_true] at hc
      simp [seating, Seating.sit, hc]
    · simp only [Match.chairs, if_neg hmm] at hc
      simp [seating, Seating.sit, hmm, hc]
  · rw [live_of_keeps hka (by decide)] at hx
    exact hx
  · rw [posts_of_keeps hka (by decide), hposts] at hp
    exact absurd hp List.not_mem_nil

theorem canAdmit_of_keeps (h : Keeps F c d) (hF : ∀ x ∈ F, x ∉ [.slots, .lock]) (m : MatchRef) :
    (d.ms m).canAdmit = (c.ms m).canAdmit := by
  have h1 := (h .slots fun hm => hF _ hm (by decide)).1 m
  have h2 := (h .lock fun hm => hF _ hm (by decide)).1 m
  simp only [Part.sameMatch, Prod.mk.injEq] at h1 h2
  simp only [Match.canAdmit, h1, h2]

theorem shift_of_route {loop : Option MatchRef} (hruns : v.Runs s p loop act)
    (hk : Keeps [.net, .moment, .posts] v.core c) (hposts : c.posts = []) (hloop : c.loop = loop)
    (hmail : ∀ m, (mail m).Sublist (v.mail m)) (hlink : Linked v.seating) :
    ∃ y, v.Shift act y ∧ Calm y (settle (c.route w s p) mail).seating := by
  have hsame : seating ⟨c, v.mail⟩ = v.seating := seating_of_keeps hk (by decide)
  have href := matchRef_of_keeps hk (by decide) s
  by_cases hcmd : cmdOf p.cmd = .joinMatchPost
  · unfold Core.route
    rw [hcmd]
    rcases @calm_pick w c s p v.mail mail hposts hmail with ⟨m, hm, hadmit, hc⟩ | hc
    · rw [hsame, hloop] at hc
      rw [canAdmit_of_keeps hk (by decide)] at hadmit
      rw [live_of_keeps hk (by decide)] at hm
      exact ⟨_, .reserve hruns hcmd hm hadmit, hc⟩
    · rw [hsame, hloop] at hc
      exact ⟨_, .found hruns hcmd, hc⟩
  by_cases hre : cmdOf p.cmd = .reconnect ∧ (c.ss s).matchRef = none
  · obtain ⟨hrec, hnone⟩ := hre
    rw [href] at hnone
    cases act with
    | dispatch s' p' =>
      obtain ⟨rfl, rfl, rfl, hjoin, hsync⟩ := hruns
      have hj : (⟨s', c.nextRef, true, none⟩ : Admission) ∉ c.admits := fun hm => by
        rw [admits_of_keeps hk (by decide)] at hm
        unfold joining at hjoin
        rw [List.any_eq_false] at hjoin
        exact hjoin _ hm (by simp)
      obtain ⟨team, hteam, hc⟩ := @calm_resume w c s' p' v.mail mail hposts hmail hrec
        (href.trans hnone) ((syncStarted_of_keeps hk (by decide) s').trans hsync) hj
      have hnext : c.nextRef = v.core.nextRef := nextRef_of_keeps hk (by decide)
      rw [hsame, hnext, (slots_of_keeps hk (by decide) _).1] at hc
      refine ⟨_, .resume ⟨rfl, rfl, rfl, hjoin, hsync⟩ hrec hnone hteam, ?_⟩
      unfold Core.route
      rw [hrec]
      exact hc
    | exec m =>
      obtain ⟨-, rest, hm⟩ := hruns
      have hin : Job.route s p ∈ v.mail m := by
        rw [hm]
        exact List.mem_cons_self
      exact absurd hnone (hlink.routes m s p hin)
    | letIn => exact absurd hruns id
    | start => exact absurd hruns id
    | tick => exact absurd hruns id
    | stop => exact absurd hruns id
  · have hstill := @still_route w c s p hcmd fun hc hs => hre ⟨hc, hs⟩
    have hc := @calm_settle_quiet c _ v.mail mail hstill.1 hmail (hstill.2.trans hposts)
    rw [hsame] at hc
    refine ⟨_, .quiet ?_, hc⟩
    cases act with
    | dispatch s' p' =>
      obtain ⟨rfl, rfl, -⟩ := hruns
      rw [href] at hre
      exact if_neg fun hh => hre hh.2.2
    | exec m =>
      obtain ⟨-, rest, hm⟩ := hruns
      simp [seatedBy, hm]
    | letIn => exact absurd hruns id
    | start => exact absurd hruns id
    | tick => exact absurd hruns id
    | stop => exact absurd hruns id

theorem calm_still {t : Moment} {loop : Option MatchRef} (h : Still (v.core.atMoment t loop) d)
    (hmail : ∀ m, (mail m).Sublist (v.mail m)) (hposts : d.posts = []) :
    Calm v.seating (settle d mail).seating :=
  @calm_settle_quiet v.core d v.mail mail (still_atMoment.trans h) hmail hposts

theorem shifts (h : v.Step w e v') (hlink : Linked v.seating) :
    ∃ y, v.Shift e.act y ∧ Calm y v'.seating := by
  have hf := fires_of_step h
  obtain ⟨act, t⟩ := e
  dsimp only at hf ⊢
  have hrefl : ∀ m, (v.mail m).Sublist (v.mail m) := fun _ => List.Sublist.refl _
  cases hf with
  | @dispatch s p hjoining =>
    by_cases hq : ((v.core.atMoment t none).ss s).syncStarted ∨ cmdOf p.cmd = .ack ∨
        cmdOf p.cmd = .ping
    · have hstill : Still (v.core.atMoment t none) ((v.core.atMoment t none).dispatch w s p) :=
        still_of_keeps (dispatch_quiet hq) (by decide)
      have hnone : v.seatedBy (.dispatch s p) = none := by
        refine if_neg fun hh => ?_
        rcases hq with hx | hx | hx
        · exact absurd hh.2.1 (Bool.not_eq_false _ ▸ hx)
        · exact absurd (hx.symm.trans hh.2.2.1) (by decide)
        · exact absurd (hx.symm.trans hh.2.2.1) (by decide)
      refine ⟨_, .quiet hnone, @calm_settle v.core _ v.mail v.mail (still_atMoment.trans hstill) hrefl
        fun post hp => ?_⟩
      rcases posts_dispatch hq post hp with hx | ⟨m, hm, rfl⟩
      · exact absurd hx List.not_mem_nil
      · refine ⟨hlink.minted s m hm, rfl, fun s' p' he => ?_⟩
        obtain ⟨rfl, rfl⟩ := Job.route.inj he
        exact hm
    · rw [not_or, not_or] at hq
      rw [dispatch_routes hq.1 hq.2.1 hq.2.2]
      have hack : Keeps [.net] (v.core.atMoment t none)
          (((v.core.atMoment t none).touch s).ackIfReliable s p) :=
        keeps_touch.trans (keeps_ackIfReliable.mono (by decide))
      have hloop : (((v.core.atMoment t none).touch s).ackIfReliable s p).loop = none := by
        have hm := (hack .moment (by decide)).2.2
        simp only [Part.sameShared, Prod.mk.injEq] at hm
        exact hm.2.2.2.symm
      exact shift_of_route ⟨rfl, rfl, rfl, hjoining, Bool.eq_false_iff.mpr hq.1⟩
        ((keeps_atMoment.mono (by decide)).trans (hack.mono (by decide)))
        ((posts_of_keeps hack (by decide)).trans rfl) hloop hrefl hlink
  | @letIn a ha =>
    cases hfresh : a.fresh with
    | true =>
      obtain ⟨team, hteam, hc⟩ := @calm_first w (v.core.atMoment t a.loop) a v.mail rfl hfresh
      exact ⟨_, .first ha hfresh hteam, hc⟩
    | false =>
      have hc := @calm_ask w (v.core.atMoment t a.loop) a v.mail rfl hfresh
      exact ⟨_, .ask ha hfresh, hc⟩
  | @start m hl =>
    exact ⟨_, .quiet rfl, calm_still (still_runStart (w := w) (c := v.core.atMoment t (some m)) hl) hrefl
      (posts_of_keeps keeps_runStart (by decide))⟩
  | @exec m job rest hm hfree =>
    have hrun := running_of_free hfree
    have hrest : ∀ m', (Function.update v.mail m rest m').Sublist (v.mail m') := by
      intro m'
      by_cases hmm : m' = m
      · subst hmm
        rw [Function.update_self, hm]
        exact List.sublist_cons_self _ _
      · rw [Function.update_of_ne hmm]
    cases job with
    | route s p =>
      exact shift_of_route ⟨rfl, rest, hm⟩ (keeps_atMoment.mono (by decide)) rfl rfl hrest hlink
    | admitLater s =>
      by_cases hs : (v.core.ss s).matchRef = none
      · have hskip : (v.core.atMoment t (some m)).admitLater w s m = v.core.atMoment t (some m) := by
          unfold admitLater withMatch
          rw [show ((v.core.atMoment t (some m)).ss s).matchRef = none from hs]
        refine ⟨_, .quiet (by simp [seatedBy, hm, hs]), ?_⟩
        change Calm v.seating (settle ((v.core.atMoment t (some m)).admitLater w s m) _).seating
        rw [hskip]
        exact calm_still (still_of_keeps (F := []) (Frame.refl _) (by decide)) hrest rfl
      · have hc := @calm_sit w (v.core.atMoment t (some m)) s m v.mail rest rfl hs (by
          change (v.core.ms m).loop ≠ .idle
          rw [hrun]
          decide)
        exact ⟨_, .sit hm hfree hs, hc⟩
    | resyncWalls s =>
      exact ⟨_, .quiet (by simp [seatedBy, hm]), calm_still (still_of_keeps keeps_resyncWalls (by decide)) hrest
        (posts_of_keeps keeps_resyncWalls (by decide))⟩
  | @tick m hfree =>
    exact ⟨_, .quiet rfl, calm_still (still_tick (w := w) (c := v.core.atMoment t (some m))
      (running_of_free hfree)) hrefl (posts_of_keeps keeps_tick (by decide))⟩
  | @stop m hfree _ =>
    exact ⟨_, .quiet rfl, calm_still (still_stopLoop (c := v.core.atMoment t (some m))
      (running_of_free hfree)) hrefl (posts_of_keeps keeps_stopLoop (by decide))⟩

theorem linked_shift {y : Seating} (h : Linked v.seating) (hs : v.Shift act y) : Linked y := by
  cases hs with
  | quiet => exact h
  | reserve _ _ hm _ => exact h.enter (h.live _ hm)
  | found => exact h.found
  | resume =>
    refine h.found.openWith ?_
    exact List.mem_append_right _ List.mem_cons_self
  | first ha => exact h.openWith ha
  | ask ha => exact h.ask ha
  | sit hm => exact h.sit hm

theorem linked_step (h : v.Step w e v') (hx : Linked v.seating) : Linked v'.seating := by
  obtain ⟨y, hs, hc⟩ := shifts h hx
  exact (linked_shift hx hs).calm hc

theorem linked_start : Linked start.seating where
  live := nofun
  minted := nofun
  entering := nofun
  routes := nofun

end Server

end MatchServer

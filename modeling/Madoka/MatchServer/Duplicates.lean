import Madoka.Lib.Thinned
import Madoka.MatchServer.Announcements
import Madoka.MatchServer.Rosters

namespace MatchServer

open Lib

-- The length below which the handler of a command returns at once.
def minLength : Cmd → Nat
  | .takeDamage => 14
  | .weaponAction => 16
  | .csPurchase => 6
  | .addIcewall => 29
  | .icewallTakeDamage => 10
  | .battleFlagReq => 20
  | .pickupInventory | .dropInventory => 8
  | .equip => 5
  | .useInventory => 4
  | .tryUseInventory | .changeHeldItem => 8
  | .clientPos => 16
  | .startRescue => 12
  | .stopRescue | .joinMatchPrepare => 4
  | _ => 0

def tooShort (p : Packet) : Bool := decide (p.payload.length < minLength (cmdOf p.cmd))

-- The packets whose handlers only send.
def neutral (p : Packet) : Bool :=
  writes (cmdOf p.cmd) = [] || tooShort p || (cmdOf p.cmd == .weaponAction && !Core.isStartFire p)

namespace Core

variable {w : World} {c d : Core} {s : SessionId} {m : MatchRef} {p : Packet}

theorem route_tooShort (h : tooShort p) : c.route w s p = c := by
  have hlen : p.payload.length < minLength (cmdOf p.cmd) := of_decide_eq_true h
  unfold route
  cases hc : cmdOf p.cmd with
  | takeDamage =>
    rw [hc] at hlen
    exact by simp [handleTakeDamage, parseTakeDamage, show p.payload.length < 14 from hlen]
  | weaponAction =>
    rw [hc] at hlen
    exact if_pos hlen
  | csPurchase =>
    rw [hc] at hlen
    exact if_pos hlen
  | addIcewall =>
    rw [hc] at hlen
    exact by simp [handlePlaceIcewall, parsePlaceIcewallReq, show p.payload.length < 29 from hlen]
  | icewallTakeDamage =>
    rw [hc] at hlen
    exact by simp [handleIcewallDamage, parseIcewallDamageReq, show p.payload.length < 10 from hlen]
  | battleFlagReq =>
    rw [hc] at hlen
    exact by simp [handleBattleFlagReq, parseBattleFlagReq, show p.payload.length < 20 from hlen]
  | pickupInventory =>
    rw [hc] at hlen
    exact by simp [handlePickup, parsePickupReq, show p.payload.length < 8 from hlen]
  | dropInventory =>
    rw [hc] at hlen
    exact by simp [handleDrop, parseDropReq, show p.payload.length < 8 from hlen]
  | equip =>
    rw [hc] at hlen
    exact by simp [handleEquip, parseEquipReq, show p.payload.length < 5 from hlen]
  | useInventory =>
    rw [hc] at hlen
    exact by simp [handleUseInventory, parseUseInventory, show p.payload.length < 4 from hlen]
  | tryUseInventory =>
    rw [hc] at hlen
    exact if_pos hlen
  | changeHeldItem =>
    rw [hc] at hlen
    exact if_pos hlen
  | clientPos =>
    rw [hc] at hlen
    exact if_pos hlen
  | startRescue =>
    rw [hc] at hlen
    exact if_pos hlen
  | stopRescue =>
    rw [hc] at hlen
    exact if_pos hlen
  | joinMatchPrepare =>
    rw [hc] at hlen
    exact if_pos hlen
  | _ => exact absurd (hc ▸ hlen) (Nat.not_lt_zero _)

theorem route_neutral (h : neutral p) : Keeps [] c (c.route w s p) := by
  simp only [neutral, Bool.or_eq_true, decide_eq_true_eq, Bool.and_eq_true, beq_iff_eq,
    Bool.not_eq_true'] at h
  rcases h with (h | h) | ⟨hc, hstart⟩
  · rw [← h]
    exact keeps_route
  · rw [route_tooShort h]
    exact Frame.refl c
  · unfold route
    rw [hc]
    refine Frame.ite (fun _ => Frame.refl c) fun _ => ?_
    rw [if_neg (by simp [hstart])]
    exact keeps_relay

-- The sessions and the matches; not the packets sent, nor what the step in progress knows.
def state (c : Core) : Core := c.atMoment ⟨0, [], 0⟩ none

theorem state_of_keeps {F : List Part} (h : Keeps F c d) (hF : F ⊆ [.posts]) :
    d.state = c.state := by
  have hx : ∀ x : Part, x ∉ F ∨ x = .posts := fun x => by
    by_cases hm : x ∈ F
    · exact Or.inr (by simpa using hF hm)
    · exact Or.inl hm
  have hms : d.ms = c.ms := by
    funext m
    refine (Part.match_ext fun x => ?_).symm
    rcases hx x with hm | rfl
    · exact (h x hm).1 m
    · rfl
  have hss : d.ss = c.ss := by
    funext s
    refine (Part.session_ext fun x => ?_).symm
    rcases hx x with hm | rfl
    · exact (h x hm).2.1 s
    · rfl
  have hreg : Part.registry ∉ F := (hx .registry).resolve_right (by decide)
  have hpub : Part.published ∉ F := (hx .published).resolve_right (by decide)
  have h1 := live_of_keeps h hreg
  have h2 := nextRef_of_keeps h hreg
  have h3 := admits_of_keeps h hreg
  have h4 := published_of_keeps h hpub
  unfold state atMoment
  rw [hms, hss, h1, h2, h3, h4]

theorem atMoment_of_state (h : d.state = c.state) (t : Moment) (loop : Option MatchRef) :
    d.atMoment t loop = c.atMoment t loop := by
  have hs := congrArg (fun x => x.atMoment t loop) h
  exact hs

theorem admits_of_state (h : d.state = c.state) : d.admits = c.admits := by
  have ha : d.state.admits = c.state.admits := by rw [h]
  exact ha

theorem ms_of_state (h : d.state = c.state) : d.ms = c.ms := by
  have hm : d.state.ms = c.state.ms := by rw [h]
  exact hm

theorem dispatch_neutral (h : neutral p) :
    (c.dispatch w s p).state = (c.touch s).state ∧
      ((c.dispatch w s p).posts = c.posts ∨
        ∃ m, (c.dispatch w s p).posts = c.posts ++ [(m, .route s p)]) := by
  have hack : Keeps [] (c.touch s) ((c.touch s).ackIfReliable s p) := keeps_ackIfReliable
  have hposts : ∀ {d}, Keeps [] (c.touch s) d → d.posts = c.posts := fun hk =>
    posts_of_keeps (keeps_touch.trans (hk.mono (by decide))) (show Part.posts ∉ [Part.net] by decide)
  unfold dispatch
  dsimp only
  split
  · exact ⟨rfl, Or.inl rfl⟩
  · exact ⟨state_of_keeps hack.send (by decide), Or.inl (hposts hack.send)⟩
  · split
    · unfold withMatch
      split
      · rename_i m _
        have henq : Keeps [.posts] (c.touch s)
            (((c.touch s).ackIfReliable s p).enqueue m (.route s p)) :=
          (hack.mono (by decide)).enqueue (by decide)
        refine ⟨state_of_keeps henq (by decide), Or.inr ⟨m, ?_⟩⟩
        exact congrArg (fun l => l ++ [(m, Job.route s p)]) (hposts hack)
      · exact ⟨state_of_keeps hack (by decide), Or.inl (hposts hack)⟩
    · have hr := hack.trans (route_neutral (w := w) (s := s) h)
      exact ⟨state_of_keeps hr (by decide), Or.inl (hposts hr)⟩

end Core

namespace Server

variable {w : World} {v v1 u : Server} {e : Event} {mail mail1 : MatchRef → List Job}

-- A queued handler of a state-neutral packet.
def Idle : Job → Prop
  | .route _ p => neutral p
  | _ => False

-- No mailbox is full.
def Roomy (v : Server) : Prop := ∀ m, (v.mail m).length < mailboxCap

-- The states agree, and the second queue lacks some idle handlers.
structure Follows (v v1 : Server) : Prop where
  state : v1.core.state = v.core.state
  mail : ∀ m, Thinned Idle (v.mail m) (v1.mail m)

theorem deliver_length (post : MatchRef × Job) (m : MatchRef) :
    (mail m).length ≤ (deliver mail post m).length := by
  unfold deliver
  split
  · by_cases h : m = post.1
    · subst h
      simp
    · simp [h]
  · exact Nat.le_refl _

theorem delivered_length (posts : List (MatchRef × Job)) (m : MatchRef) :
    (mail m).length ≤ (posts.foldl deliver mail m).length := by
  induction posts generalizing mail with
  | nil => exact Nat.le_refl _
  | cons post posts ih => exact Nat.le_trans (deliver_length post m) ih

theorem thinned_deliver {post : MatchRef × Job} (h : ∀ m, Thinned Idle (mail m) (mail1 m))
    (hroom : (mail post.1).length < mailboxCap) (m : MatchRef) :
    Thinned Idle (deliver mail post m) (deliver mail1 post m) := by
  have hroom1 : (mail1 post.1).length < mailboxCap :=
    Nat.lt_of_le_of_lt (thinned_length (h post.1)) hroom
  unfold deliver
  rw [if_pos hroom, if_pos hroom1]
  by_cases hm : m = post.1
  · subst hm
    simpa using thinned_snoc (h post.1) post.2
  · simpa [hm] using h m

theorem thinned_delivered {posts : List (MatchRef × Job)}
    (h : ∀ m, Thinned Idle (mail m) (mail1 m))
    (hroom : ∀ m, (posts.foldl deliver mail m).length < mailboxCap) (m : MatchRef) :
    Thinned Idle (posts.foldl deliver mail m) (posts.foldl deliver mail1 m) := by
  induction posts generalizing mail mail1 with
  | nil => exact h m
  | cons post posts ih =>
    have hpost : (mail post.1).length < mailboxCap :=
      Nat.lt_of_le_of_lt (delivered_length (post :: posts) post.1) (hroom post.1)
    exact ih (thinned_deliver h hpost) hroom

theorem follows_settle {c : Core} (h : ∀ m, Thinned Idle (mail m) (mail1 m))
    (hroom : (settle c mail).Roomy) : (settle c mail).Follows (settle c mail1) :=
  ⟨rfl, thinned_delivered h hroom⟩

theorem joining_of_state (h : v1.core.state = v.core.state) (s : SessionId) :
    v1.joining s = v.joining s := by
  unfold joining
  rw [Core.admits_of_state h]

theorem free_of_state (h : v1.core.state = v.core.state) (m : MatchRef) :
    v1.free m = v.free m := by
  unfold free
  rw [Core.admits_of_state h, Core.ms_of_state h]

theorem follows_step (h : v.Step w e u) (hf : v.Follows v1) (hroom : u.Roomy) :
    (∃ u1, v1.Step w e u1 ∧ u.Follows u1) ∨ (∃ m t, e = ⟨.exec m, t⟩) ∧ u.Follows v1 := by
  have hfire := fires_of_step h
  have ha := Core.admits_of_state hf.state
  have hms := Core.ms_of_state hf.state
  obtain ⟨act, t⟩ := e
  dsimp only at hfire
  cases hfire with
  | dispatch hj =>
    refine Or.inl ⟨_, step_of_fires (.dispatch (by rwa [joining_of_state hf.state])), ?_⟩
    rw [Core.atMoment_of_state hf.state]
    exact follows_settle hf.mail hroom
  | letIn hmem =>
    refine Or.inl ⟨_, step_of_fires (.letIn (by rwa [ha])), ?_⟩
    rw [Core.atMoment_of_state hf.state]
    exact follows_settle hf.mail hroom
  | start hl =>
    refine Or.inl ⟨_, step_of_fires (.start (by rwa [hms])), ?_⟩
    rw [Core.atMoment_of_state hf.state]
    exact follows_settle hf.mail hroom
  | tick hfree =>
    refine Or.inl ⟨_, step_of_fires (.tick (by rwa [free_of_state hf.state])), ?_⟩
    rw [Core.atMoment_of_state hf.state]
    exact follows_settle hf.mail hroom
  | stop hfree hd =>
    refine Or.inl ⟨_, step_of_fires (.stop (by rwa [free_of_state hf.state]) (by rwa [hms])), ?_⟩
    rw [Core.atMoment_of_state hf.state]
    exact follows_settle hf.mail hroom
  | @exec m job rest hm hfree =>
    have hmail : ∀ k, Thinned Idle rest k →
        ∀ m', Thinned Idle (Function.update v.mail m rest m') (Function.update v1.mail m k m') := by
      intro k hk m'
      by_cases hm' : m' = m
      · subst hm'
        simpa using hk
      · simpa [hm'] using hf.mail m'
    rcases thinned_cons_inv (hm ▸ hf.mail m) with ⟨k, hk, hthin⟩ | ⟨hidle, hthin⟩
    · refine Or.inl ⟨_, step_of_fires (.exec hk (by rwa [free_of_state hf.state])), ?_⟩
      rw [Core.atMoment_of_state hf.state]
      exact follows_settle (hmail k hthin) hroom
    · refine Or.inr ⟨⟨m, t, rfl⟩, ?_⟩
      cases job with
      | route s p =>
        have hk : Keeps [] (v.core.atMoment t (some m)) ((v.core.atMoment t (some m)).runJob w m
            (.route s p)) := Core.route_neutral hidle
        have hposts : ((v.core.atMoment t (some m)).runJob w m (.route s p)).posts = [] :=
          posts_of_keeps hk (by decide)
        refine ⟨hf.state.trans (Core.state_of_keeps hk (by decide)).symm, fun m' => ?_⟩
        have hthin' := hmail (v1.mail m) hthin m'
        rw [Function.update_eq_self] at hthin'
        simpa only [settle, hposts, List.foldl_nil] using hthin'
      | admitLater s => exact absurd hidle id
      | resyncWalls s => exact absurd hidle id

-- A datagram of nothing but the client's ack: it is heard and goes no further.
def bareAck : Packet := ⟨0, 2, 0, []⟩

theorem follows_deleted {s : SessionId} {p : Packet} {t : Moment}
    (h : v.Step w ⟨.dispatch s p, t⟩ u) (hn : neutral p) (hf : v.Follows v1) (hroom : u.Roomy) :
    ∃ u1, v1.Step w ⟨.dispatch s bareAck, t⟩ u1 ∧ u.Follows u1 := by
  have hfire := fires_of_step h
  cases hfire with
  | dispatch hj =>
    refine ⟨_, step_of_fires (.dispatch (by rwa [joining_of_state hf.state])), ?_⟩
    rw [Core.atMoment_of_state hf.state]
    obtain ⟨hstate, hposts⟩ := Core.dispatch_neutral (w := w) (c := v.core.atMoment t none) (s := s) hn
    have hnil : (v.core.atMoment t none).posts = [] := rfl
    simp only [hnil, List.nil_append] at hposts
    refine ⟨hstate.symm, fun m => ?_⟩
    have hack : settle ((v.core.atMoment t none).dispatch w s bareAck) v1.mail =
        ⟨(v.core.atMoment t none).touch s, v1.mail⟩ := rfl
    rw [hack]
    rcases hposts with hp | ⟨m0, hp⟩
    · simpa only [settle, hp, List.foldl_nil] using hf.mail m
    · have hm0 := hroom m0
      simp only [settle, hp, List.foldl_cons, List.foldl_nil] at hm0 ⊢
      unfold deliver at hm0 ⊢
      split at hm0
      · rename_i hlt
        dsimp only at hlt
        rw [if_pos hlt]
        by_cases hm : m = m0
        · subst hm
          simpa using thinned_snoc_drop (h := hf.mail m) (x := .route s p) (show Idle (.route s p) from hn)
        · simpa [hm] using hf.mail m
      · exact absurd hm0 ‹_›

-- The events of a run without the marked dispatches: each gives way to a bare ack, and the steps
-- that served their handlers are gone.
inductive Deletes : List (Event × Bool) → List Event → Prop where
  | nil : Deletes [] []
  | keep {es fs e} : Deletes es fs → Deletes (es ++ [(e, false)]) (fs ++ [e])
  | delete {es fs s p t} : Deletes es fs →
    Deletes (es ++ [(⟨.dispatch s p, t⟩, true)]) (fs ++ [⟨.dispatch s bareAck, t⟩])
  | served {es fs m t} : Deletes es fs → Deletes (es ++ [(⟨.exec m, t⟩, false)]) fs

def Marked (x : Event × Bool) : Prop :=
  x.2 = true → ∃ s p, x.1.act = .dispatch s p ∧ neutral p

theorem without_marked {es : List (Event × Bool)}
    (h : Run (fun v e u => v.Step w e u ∧ u.Roomy) start (es.map Prod.fst) u)
    (hm : ∀ x ∈ es, Marked x) :
    ∃ fs u1, Deletes es fs ∧ Run (Step w) start fs u1 ∧ u.Follows u1 := by
  induction es using List.reverseRecOn generalizing u with
  | nil =>
    obtain rfl : u = start := by
      generalize hl : ([] : List (Event × Bool)).map Prod.fst = l at h
      cases h with
      | start => rfl
      | next _ _ => simp at hl
    exact ⟨[], start, .nil, .start, rfl, fun _ => thinned_refl _⟩
  | append_singleton es x ih =>
    rw [List.map_append] at h
    obtain ⟨v, hv, hs, hroom⟩ := run_snoc_inv h
    obtain ⟨fs, v1, hd, hrun, hf⟩ := ih hv fun y hy => hm y (List.mem_append_left _ hy)
    have hx := hm x (by simp)
    obtain ⟨e, mark⟩ := x
    cases mark with
    | true =>
      obtain ⟨s, p, hact, hn⟩ := hx rfl
      obtain ⟨act, t⟩ := e
      dsimp only at hact
      subst hact
      obtain ⟨u1, hs1, hf1⟩ := follows_deleted hs hn hf hroom
      exact ⟨_, u1, .delete hd, hrun.next hs1, hf1⟩
    | false =>
      rcases follows_step hs hf hroom with ⟨u1, hs1, hf1⟩ | ⟨⟨m, t, rfl⟩, hf1⟩
      · exact ⟨_, u1, .keep hd, hrun.next hs1, hf1⟩
      · exact ⟨fs, v1, .served hd, hrun, hf1⟩

theorem roomy_start : start.Roomy := fun _ => Nat.zero_lt_succ _

theorem roomy_of_run {es : List Event}
    (h : Run (fun v e u => v.Step w e u ∧ u.Roomy) start es u) : u.Roomy :=
  run_invariant (I := Roomy) h roomy_start fun _ hs => hs.2

-- A dispatched packet is acked and routed, whatever was dispatched before: inline up to the start
-- of the match loop, as a job in its mailbox from then on.
structure Routed (w : World) (v : Server) (s : SessionId) (p : Packet) (u : Server) : Prop where
  acked : isReliable p.cmd p.sendOption → (s, .ack p.seqID) ∈ u.core.out
  inline : (v.core.ss s).syncStarted = false →
    ∃ c, Keeps [.net, .posts, .moment] v.core c ∧ u.core = c.route w s p
  queued : (v.core.ss s).syncStarted → ∀ m, (v.core.ss s).matchRef = some m →
    Keeps [.net, .posts, .moment] v.core u.core ∧ u.mail m = v.mail m ++ [.route s p]

theorem routed_of_dispatch {s : SessionId} {p : Packet} {t : Moment} (hr : v.Roomy)
    (h : v.Step w ⟨.dispatch s p, t⟩ u) (h1 : cmdOf p.cmd ≠ .ack) (h2 : cmdOf p.cmd ≠ .ping) :
    Routed w v s p u := by
  have hfire := fires_of_step h
  cases hfire with
  | dispatch hj =>
    have hk : Keeps [.net, .posts, .moment] v.core (((v.core.atMoment t none).touch s).ackIfReliable s p) :=
      ((Core.keeps_atMoment.mono (by decide)).trans (Core.keeps_touch.mono (by decide))).trans
        (Core.keeps_ackIfReliable.mono (by decide))
    have hack : isReliable p.cmd p.sendOption →
        (s, .ack p.seqID) ∈ (((v.core.atMoment t none).touch s).ackIfReliable s p).out := by
      intro hrel
      unfold Core.ackIfReliable
      rw [if_pos hrel]
      exact List.mem_append_right _ (List.mem_singleton.mpr rfl)
    have hdispatch : (v.core.atMoment t none).dispatch w s p =
        if (v.core.ss s).syncStarted then
          (((v.core.atMoment t none).touch s).ackIfReliable s p).withMatch s fun m =>
            (((v.core.atMoment t none).touch s).ackIfReliable s p).enqueue m (.route s p)
        else (((v.core.atMoment t none).touch s).ackIfReliable s p).route w s p := by
      rw [← syncStarted_of_keeps hk (by decide) s]
      unfold Core.dispatch
      dsimp only
      split
      · exact absurd ‹_› h1
      · exact absurd ‹_› h2
      · rfl
    refine ⟨fun hrel => ?_, fun hsync => ⟨_, hk, ?_⟩, fun hsync m href => ?_⟩
    · change _ ∈ ((v.core.atMoment t none).dispatch w s p).out
      rw [hdispatch]
      split
      · unfold Core.withMatch
        split <;> exact hack hrel
      · exact Core.kept_route (hack hrel)
    · change (v.core.atMoment t none).dispatch w s p = _
      rw [hdispatch, hsync, if_neg Bool.false_ne_true]
    · have href' := (matchRef_of_keeps hk (by decide) s).trans href
      have hposts : ((((v.core.atMoment t none).touch s).ackIfReliable s p)).posts = [] :=
        posts_of_keeps (Core.keeps_touch.trans (Core.keeps_ackIfReliable.mono (by decide)))
          (show Part.posts ∉ [Part.net] by decide)
      have hd : (v.core.atMoment t none).dispatch w s p =
          (((v.core.atMoment t none).touch s).ackIfReliable s p).enqueue m (.route s p) := by
        rw [hdispatch, if_pos hsync]
        unfold Core.withMatch
        rw [href']
      refine ⟨?_, ?_⟩
      · change Keeps _ _ ((v.core.atMoment t none).dispatch w s p)
        rw [hd]
        exact hk.enqueue (by decide)
      · simp only [settle, hd, Core.enqueue, hposts, List.nil_append, List.foldl_cons,
          List.foldl_nil, deliver, if_pos (hr m), Function.update_self]

theorem every_copy_is_routed {es : List (Event × Bool)}
    (h : Run (fun v e u => v.Step w e u ∧ u.Roomy) start (es.map Prod.fst) v) :
    (∀ s p t u, v.Step w ⟨.dispatch s p, t⟩ u → cmdOf p.cmd ≠ .ack → cmdOf p.cmd ≠ .ping →
      Routed w v s p u) ∧
    ((∀ x ∈ es, Marked x) →
      ∃ fs v1, Deletes es fs ∧ Run (Step w) start fs v1 ∧ v.Follows v1) :=
  ⟨fun _ _ _ _ hs h1 h2 => routed_of_dispatch (roomy_of_run h) hs h1 h2, without_marked h⟩

def vest : ShopItem := ⟨302, 200, 0, 0, false, "vest", 0⟩

def shop : World :=
  { bareWorld with shopItemByID := fun _ id => if id = 302 then some vest else none }

def buyVest : Packet := ⟨1, 408, 9, [1, 0, 46, 1, 0, 0]⟩

def reload : Packet := ⟨1, 133, 10, []⟩

def resume : Packet := ⟨0, 5, 0, []⟩

def bought : List Event :=
  [event 1 (.dispatch 0 resume), event 2 (.start 0), event 3 (.exec 0),
    event 4 (.dispatch 0 buyVest), event 5 (.exec 0)]

-- The run without the copies: of every reliable packet only the first datagram is dispatched.
inductive Deduped : List Event → List Event → Prop where
  | nil : Deduped [] []
  | keep {es fs e} : Deduped es fs → Deduped (es ++ [e]) (fs ++ [e])
  | copy {es fs s p t e} : Deduped es fs → isReliable p.cmd p.sendOption → e ∈ es →
    e.act = .dispatch s p →
    Deduped (es ++ [⟨.dispatch s p, t⟩]) (fs ++ [⟨.dispatch s bareAck, t⟩])
  | served {es fs m t} : Deduped es fs → Deduped (es ++ [⟨.exec m, t⟩]) fs

theorem deduped_refl (es : List Event) : Deduped es es := by
  induction es using List.reverseRecOn with
  | nil => exact .nil
  | append_singleton es e ih => exact .keep ih

theorem bought_run : ∃ v u u' x, bought.foldlM (step shop) start = some v ∧
    v.step shop (event 6 (.dispatch 0 buyVest)) = some u ∧
    u.step shop (event 7 (.exec 0)) = some u' ∧
    v.step shop (event 6 (.dispatch 0 bareAck)) = some x ∧
    u'.core.live = [0] ∧ u'.mail 0 = [] ∧ x.core.live = [0] ∧ x.mail 0 = [] ∧
    (u'.core.ss 0).kit.coins = 100 ∧ (x.core.ss 0).kit.coins = 300 :=
  ⟨_, _, _, _, rfl, rfl, rfl, rfl, rfl, rfl, rfl, rfl, rfl, rfl⟩

theorem purchase_copy_charges_again : ¬ ∀ w es fs v u, Run (Step w) start es v →
    Run (Step w) start fs u → Deduped es fs → (∀ m ∈ v.core.live, v.mail m = []) →
    (∀ m ∈ u.core.live, u.mail m = []) → u.core.state = v.core.state := by
  intro hall
  obtain ⟨v, u, u', x, hv, hu, hu', hx, hlive, hmail, hlive', hmail', hcoins, hcoins'⟩ := bought_run
  have hrun := run_of_foldlM hv
  have hcopy : Deduped (bought ++ [event 6 (.dispatch 0 buyVest)] ++ [event 7 (.exec 0)])
      (bought ++ [event 6 (.dispatch 0 bareAck)]) :=
    .served (.copy (e := event 4 (.dispatch 0 buyVest)) (deduped_refl bought) (by decide)
      (by decide) rfl)
  have hst := hall shop _ _ u' x ((hrun.next hu).next hu') (hrun.next hx) hcopy
    (by simp [hlive, hmail]) (by simp [hlive', hmail'])
  have hkit : (x.core.state.ss 0).kit.coins = (u'.core.state.ss 0).kit.coins := by rw [hst]
  change (x.core.ss 0).kit.coins = (u'.core.ss 0).kit.coins at hkit
  rw [hcoins, hcoins'] at hkit
  cases hkit

theorem roomy_solo (h0 : (v.mail 0).length < mailboxCap) (h : ∀ m, v.mail (m + 1) = []) :
    v.Roomy := by
  intro m
  cases m with
  | zero => exact h0
  | succ m =>
    rw [h m]
    exact Nat.zero_lt_succ _

-- A reload relayed once, and a copy of it on its way.
def reloaded : List (Event × Bool) :=
  [(event 1 (.dispatch 0 resume), false), (event 2 (.start 0), false), (event 3 (.exec 0), false),
    (event 4 (.dispatch 0 reload), false), (event 5 (.dispatch 0 reload), true),
    (event 6 (.exec 0), false), (event 7 (.exec 0), false)]

theorem reloaded_run : ∃ v1 v2 v3 v4 v5 v6 v7,
    start.step shop (event 1 (.dispatch 0 resume)) = some v1 ∧
    v1.step shop (event 2 (.start 0)) = some v2 ∧ v2.step shop (event 3 (.exec 0)) = some v3 ∧
    v3.step shop (event 4 (.dispatch 0 reload)) = some v4 ∧
    v4.step shop (event 5 (.dispatch 0 reload)) = some v5 ∧
    v5.step shop (event 6 (.exec 0)) = some v6 ∧ v6.step shop (event 7 (.exec 0)) = some v7 ∧
    v1.Roomy ∧ v2.Roomy ∧ v3.Roomy ∧ v4.Roomy ∧ v5.Roomy ∧ v6.Roomy ∧ v7.Roomy :=
  ⟨_, _, _, _, _, _, _, rfl, rfl, rfl, rfl, rfl, rfl, rfl,
    roomy_solo (by decide) fun _ => rfl, roomy_solo (by decide) fun _ => rfl,
    roomy_solo (by decide) fun _ => rfl, roomy_solo (by decide) fun _ => rfl,
    roomy_solo (by decide) fun _ => rfl, roomy_solo (by decide) fun _ => rfl,
    roomy_solo (by decide) fun _ => rfl⟩

theorem reload_copy_deleted : ∃ v fs v1,
    Run (fun v e u => Step shop v e u ∧ u.Roomy) start (reloaded.map Prod.fst) v ∧
    Deletes reloaded fs ∧ Run (Step shop) start fs v1 ∧ v1.core.state = v.core.state := by
  obtain ⟨v1, v2, v3, v4, v5, v6, v7, h1, h2, h3, h4, h5, h6, h7, r1, r2, r3, r4, r5, r6, r7⟩ :=
    reloaded_run
  have hrun : Run (fun v e u => Step shop v e u ∧ u.Roomy) start (reloaded.map Prod.fst) v7 :=
    (((((((Run.start).next ⟨h1, r1⟩).next ⟨h2, r2⟩).next ⟨h3, r3⟩).next ⟨h4, r4⟩).next
      ⟨h5, r5⟩).next ⟨h6, r6⟩).next ⟨h7, r7⟩
  have hmarked : ∀ x ∈ reloaded, Marked x := by
    intro x hx hmark
    simp only [reloaded, List.mem_cons, List.not_mem_nil, or_false] at hx
    rcases hx with rfl | rfl | rfl | rfl | rfl | rfl | rfl
    case inr.inr.inr.inr.inl => exact ⟨0, reload, rfl, by decide⟩
    all_goals cases hmark
  obtain ⟨fs, u, hd, hu, hf⟩ := (every_copy_is_routed hrun).2 hmarked
  exact ⟨v7, fs, u, hrun, hd, hu, hf.state⟩

end Server

end MatchServer

import Madoka.MatchServer.SeatChanges

namespace MatchServer

open Lib

namespace Seating

variable {x y : Seating} {s : SessionId} {m : MatchRef} {a : Admission} {e : Nat} {rest : List Job}

structure Away (x : Seating) (s : SessionId) : Prop where
  crew : ∀ m, s ∉ x.crew m
  mail : ∀ m, Job.admitLater s ∉ x.mail m
  admits : s ∉ x.admits.map Admission.s

structure Once (x : Seating) : Prop where
  linked : Linked x
  blank : ∀ m, x.next ≤ m → x.crew m = [] ∧ x.mail m = []
  seated : ∀ m, ∀ s ∈ x.crew m, x.ref s = some m
  nodup : ∀ m, (x.crew m).Nodup
  laters : ∀ m s, Job.admitLater s ∈ x.mail m → x.ref s = some m ∧ s ∉ x.crew m
  once : ∀ m s, (x.mail m).count (.admitLater s) ≤ 1
  entering : ∀ a ∈ x.admits, ∀ m, a.s ∉ x.crew m ∧ Job.admitLater a.s ∉ x.mail m
  apart : (x.admits.map Admission.s).Nodup
  looped : ∀ a ∈ x.admits, a.loop ≠ none → x.ref a.s ≠ none

theorem Once.calm (h : Once x) (hc : Calm x y) : Once y where
  linked := h.linked.calm hc
  blank := fun m hm => by
    rw [hc.next] at hm
    obtain ⟨h1, h2⟩ := h.blank m hm
    refine ⟨List.sublist_nil.mp (h1 ▸ hc.crew m), ?_⟩
    obtain ⟨l, hsub, hl⟩ := hc.mail m
    rw [h2, List.nil_append] at hsub
    refine List.eq_nil_iff_forall_not_mem.mpr fun j hj => ?_
    exact absurd (hl j (hsub.subset hj)).1 (Nat.not_lt.mpr hm)
  seated := fun m s hs => by
    rw [hc.ref]
    exact h.seated m s ((hc.crew m).subset hs)
  nodup := fun m => (h.nodup m).sublist (hc.crew m)
  laters := fun m s hm => by
    obtain ⟨h1, h2⟩ := h.laters m s (hc.laters rfl hm)
    rw [hc.ref]
    exact ⟨h1, fun hs => h2 ((hc.crew m).subset hs)⟩
  once := fun m s => (hc.count m s).trans (h.once m s)
  entering := fun a ha m => by
    rw [hc.admits] at ha
    obtain ⟨h1, h2⟩ := h.entering a ha m
    exact ⟨fun hs => h1 ((hc.crew m).subset hs), fun hj => h2 (hc.laters rfl hj)⟩
  apart := by
    rw [hc.admits]
    exact h.apart
  looped := by
    rw [hc.admits, hc.ref]
    exact h.looped

theorem Once.enter (h : Once x) (haway : x.Away a.s) (hm : a.m < x.next)
    (hloop : a.loop ≠ none → x.ref a.s ≠ none) : Once (x.enter a) where
  linked := h.linked.enter hm
  blank := h.blank
  seated := h.seated
  nodup := h.nodup
  laters := h.laters
  once := h.once
  entering := fun b hb m => by
    rcases List.mem_append.mp hb with hx | hx
    · exact h.entering b hx m
    · rw [List.mem_singleton.mp hx]
      exact ⟨haway.crew m, haway.mail m⟩
  apart := by
    simp only [Seating.enter, List.map_append, List.map_cons, List.map_nil]
    exact List.nodup_append.mpr ⟨h.apart, List.nodup_singleton _, by simpa using haway.admits⟩
  looped := fun b hb hl => by
    rcases List.mem_append.mp hb with hx | hx
    · exact h.looped b hx hl
    · rw [List.mem_singleton.mp hx] at hl ⊢
      exact hloop hl

theorem Once.found (h : Once x) (haway : x.Away s) {loop : Option MatchRef} :
    Once (x.found s loop) where
  linked := h.linked.found
  blank := fun m hm => h.blank m (Nat.le_of_succ_le hm)
  seated := fun m s' hs' => by
    have hne : s' ≠ s := fun hss => haway.crew m (hss ▸ hs')
    simpa only [Seating.found, Function.update_of_ne hne] using h.seated m s' hs'
  nodup := h.nodup
  laters := fun m s' hm => by
    have hne : s' ≠ s := fun hss => haway.mail m (hss ▸ hm)
    simpa only [Seating.found, Function.update_of_ne hne] using h.laters m s' hm
  once := h.once
  entering := fun b hb m => by
    rcases List.mem_append.mp hb with hx | hx
    · exact h.entering b hx m
    · rw [List.mem_singleton.mp hx]
      exact ⟨haway.crew m, haway.mail m⟩
  apart := by
    simp only [Seating.found, List.map_append, List.map_cons, List.map_nil]
    exact List.nodup_append.mpr ⟨h.apart, List.nodup_singleton _, by simpa using haway.admits⟩
  looped := fun b hb hl => by
    by_cases hss : b.s = s
    · simp [Seating.found, hss]
    · rcases List.mem_append.mp hb with hx | hx
      · simpa only [Seating.found, Function.update_of_ne hss] using h.looped b hx hl
      · rw [List.mem_singleton.mp hx] at hss
        exact absurd rfl hss

theorem Once.other (h : Once x) {b : Admission} (ha : a ∈ x.admits) (hb : b ∈ x.admits.erase a) :
    b ∈ x.admits ∧ b.s ≠ a.s := by
  have hbm := List.mem_of_mem_erase hb
  have hne : b ≠ a := (h.apart.of_map.mem_erase_iff.mp hb).1
  exact ⟨hbm, fun hs => hne (List.inj_on_of_nodup_map h.apart hbm ha hs)⟩

theorem mem_crew_openWith {s' : SessionId} (hs : s' ∈ (x.openWith a e).crew m) :
    s' ∈ x.crew m ∨ s' = a.s ∧ m = a.m := by
  by_cases hmm : m = a.m
  · subst hmm
    simp only [Seating.openWith, Function.update_self, List.mem_append, List.mem_singleton] at hs
    exact hs.imp_right fun h => ⟨h, rfl⟩
  · simp only [Seating.openWith, Function.update_of_ne hmm] at hs
    exact Or.inl hs

theorem Once.openWith (h : Once x) (ha : a ∈ x.admits) : Once (x.openWith a e) where
  linked := h.linked.openWith ha
  blank := fun m hm => by
    have hne : m ≠ a.m := Nat.ne_of_gt (Nat.lt_of_lt_of_le (h.linked.entering a ha) hm)
    simpa [Seating.openWith, hne] using h.blank m hm
  seated := fun m s' hs' => by
    rcases mem_crew_openWith hs' with hx | ⟨rfl, rfl⟩
    · have hne : s' ≠ a.s := fun hss => (h.entering a ha m).1 (hss ▸ hx)
      simpa only [Seating.openWith, Function.update_of_ne hne] using h.seated m s' hx
    · simp [Seating.openWith]
  nodup := fun m => by
    by_cases hmm : m = a.m
    · subst hmm
      simp only [Seating.openWith, Function.update_self]
      refine List.nodup_append.mpr ⟨h.nodup a.m, List.nodup_singleton _, ?_⟩
      rintro s' hs' t ht rfl
      rw [List.mem_singleton] at ht
      exact (h.entering a ha a.m).1 (ht ▸ hs')
    · simpa [Seating.openWith, hmm] using h.nodup m
  laters := fun m s' hm => by
    have hne : s' ≠ a.s := fun hss => (h.entering a ha m).2 (hss ▸ hm)
    obtain ⟨h1, h2⟩ := h.laters m s' hm
    refine ⟨by simpa only [Seating.openWith, Function.update_of_ne hne] using h1, fun hs' => ?_⟩
    rcases mem_crew_openWith hs' with hx | ⟨hx, -⟩
    · exact h2 hx
    · exact hne hx
  once := h.once
  entering := fun b hb m => by
    obtain ⟨hbm, hbs⟩ := h.other ha hb
    obtain ⟨h1, h2⟩ := h.entering b hbm m
    refine ⟨fun hs' => ?_, h2⟩
    rcases mem_crew_openWith hs' with hx | ⟨hx, -⟩
    · exact h1 hx
    · exact hbs hx
  apart := h.apart.sublist (List.erase_sublist.map _)
  looped := fun b hb hl => by
    obtain ⟨hbm, hbs⟩ := h.other ha hb
    simpa only [Seating.openWith, Function.update_of_ne hbs] using h.looped b hbm hl

theorem Once.ask (h : Once x) (ha : a ∈ x.admits) : Once (x.ask a) where
  linked := h.linked.ask ha
  blank := fun m hm => by
    have hne : m ≠ a.m := Nat.ne_of_gt (Nat.lt_of_lt_of_le (h.linked.entering a ha) hm)
    simpa [Seating.ask, hne] using h.blank m hm
  seated := fun m s' hs' => by
    have hne : s' ≠ a.s := fun hss => (h.entering a ha m).1 (hss ▸ hs')
    simpa only [Seating.ask, Function.update_of_ne hne] using h.seated m s' hs'
  nodup := h.nodup
  laters := fun m s' hm => by
    rcases mem_mail_ask hm with hx | ⟨rfl, hx⟩
    · have hne : s' ≠ a.s := fun hss => (h.entering a ha m).2 (hss ▸ hx)
      simpa only [Seating.ask, Function.update_of_ne hne] using h.laters m s' hx
    · obtain rfl := Job.admitLater.inj hx
      exact ⟨by simp [Seating.ask], (h.entering a ha a.m).1⟩
  once := fun m s' => by
    by_cases hmm : m = a.m
    · subst hmm
      simp only [Seating.ask, Function.update_self, List.count_append]
      by_cases hss : s' = a.s
      · subst hss
        have hzero : (x.mail a.m).count (.admitLater a.s) = 0 :=
          List.count_eq_zero.mpr (h.entering a ha a.m).2
        simp [hzero]
      · simpa [List.count_singleton, Ne.symm hss] using h.once a.m s'
    · simpa [Seating.ask, hmm] using h.once m s'
  entering := fun b hb m => by
    obtain ⟨hbm, hbs⟩ := h.other ha hb
    obtain ⟨h1, h2⟩ := h.entering b hbm m
    refine ⟨h1, fun hj => ?_⟩
    rcases mem_mail_ask hj with hx | ⟨-, hx⟩
    · exact h2 hx
    · exact hbs (Job.admitLater.inj hx)
  apart := h.apart.sublist (List.erase_sublist.map _)
  looped := fun b hb hl => by
    obtain ⟨hbm, hbs⟩ := h.other ha hb
    simpa only [Seating.ask, Function.update_of_ne hbs] using h.looped b hbm hl

theorem mem_crew_sit {s' : SessionId} {m' : MatchRef} (hs : s' ∈ (x.sit s m e rest).crew m') :
    s' ∈ x.crew m' ∨ s' = s ∧ m' = m := by
  by_cases hmm : m' = m
  · subst hmm
    simp only [Seating.sit, Function.update_self, List.mem_append, List.mem_singleton] at hs
    exact hs.imp_right fun h => ⟨h, rfl⟩
  · simp only [Seating.sit, Function.update_of_ne hmm] at hs
    exact Or.inl hs

theorem Once.sit (h : Once x) (hm : x.mail m = .admitLater s :: rest) : Once (x.sit s m e rest) := by
  have hin : Job.admitLater s ∈ x.mail m := by
    rw [hm]
    exact List.mem_cons_self
  obtain ⟨href, hout⟩ := h.laters m s hin
  -- The seat is asked for once, so that nothing is left of it in a mailbox.
  have hleft : ∀ m', Job.admitLater s ∉ (x.sit s m e rest).mail m' := by
    intro m' hj
    by_cases hmm : m' = m
    · subst hmm
      simp only [Seating.sit, Function.update_self] at hj
      have hcount := h.once m' s
      rw [hm, List.count_cons_self] at hcount
      have hpos := List.count_pos_iff.mpr hj
      omega
    · have hj' := (h.laters m' s (mem_mail_sit hm hj)).1
      exact hmm (Option.some.inj (hj'.symm.trans href))
  exact {
    linked := h.linked.sit hm
    blank := fun m' hm' => by
      have hne : m' ≠ m :=
        Nat.ne_of_gt (Nat.lt_of_lt_of_le (h.linked.minted s m href) hm')
      simpa [Seating.sit, hne] using h.blank m' hm'
    seated := fun m' s' hs' => by
      rcases mem_crew_sit hs' with hx | ⟨rfl, rfl⟩
      · exact h.seated m' s' hx
      · exact href
    nodup := fun m' => by
      by_cases hmm : m' = m
      · subst hmm
        simp only [Seating.sit, Function.update_self]
        refine List.nodup_append.mpr ⟨h.nodup m', List.nodup_singleton _, ?_⟩
        rintro s' hs' t ht rfl
        rw [List.mem_singleton] at ht
        exact hout (ht ▸ hs')
      · simpa [Seating.sit, hmm] using h.nodup m'
    laters := fun m' s' hj => by
      obtain ⟨h1, h2⟩ := h.laters m' s' (mem_mail_sit hm hj)
      refine ⟨h1, fun hs' => ?_⟩
      rcases mem_crew_sit hs' with hx | ⟨hx, -⟩
      · exact h2 hx
      · exact hleft m' (hx ▸ hj)
    once := fun m' s' => by
      have ho := h.once m' s'
      by_cases hmm : m' = m
      · subst hmm
        rw [hm] at ho
        simp only [Seating.sit, Function.update_self]
        exact le_trans List.count_le_count_cons ho
      · simpa [Seating.sit, hmm] using ho
    entering := fun b hb m' => by
      obtain ⟨h1, h2⟩ := h.entering b hb m'
      refine ⟨fun hs' => ?_, fun hj => h2 (mem_mail_sit hm hj)⟩
      rcases mem_crew_sit hs' with hx | ⟨hx, -⟩
      · exact h1 hx
      · exact (h.entering b hb m).2 (hx ▸ hin)
    apart := h.apart
    looped := h.looped }

end Seating

namespace Server

open Seating

variable {w : World} {v v' : Server} {e : Event} {act : Action} {s : SessionId} {m : MatchRef}
  {p : Packet} {t : Moment} {loop : Option MatchRef} {es : List Event}

def Away (v : Server) (s : SessionId) : Prop :=
  (∀ m < v.core.nextRef, s ∉ (v.core.ms m).players ∧ Job.admitLater s ∉ v.mail m) ∧
    ∀ a ∈ v.core.admits, a.s ≠ s

instance (v : Server) (s : SessionId) : Decidable (v.Away s) :=
  inferInstanceAs (Decidable (_ ∧ _))

-- A 440 is handled of a session that has no place only.
def Vacant (v : Server) (e : Event) : Prop :=
  ∀ x ∈ v.routed e.act, cmdOf x.2.cmd = .joinMatchPost → v.Away x.1

instance (v : Server) (e : Event) : Decidable (v.Vacant e) :=
  inferInstanceAs (Decidable (∀ x ∈ v.routed e.act, _))

theorem away_of_once (h : Once v.seating) (hs : v.Away s) : v.seating.Away s where
  crew := fun m hm => by
    rcases Nat.lt_or_ge m v.core.nextRef with hlt | hge
    · exact (hs.1 m hlt).1 hm
    · rw [(h.blank m hge).1] at hm
      exact absurd hm List.not_mem_nil
  mail := fun m hm => by
    rcases Nat.lt_or_ge m v.core.nextRef with hlt | hge
    · exact (hs.1 m hlt).2 hm
    · rw [(h.blank m hge).2] at hm
      exact absurd hm List.not_mem_nil
  admits := fun hm => by
    obtain ⟨a, ha, has⟩ := List.mem_map.mp hm
    exact hs.2 a ha has

theorem routed_of_runs (h : v.Runs s p loop act) (h1 : cmdOf p.cmd ≠ .ack)
    (h2 : cmdOf p.cmd ≠ .ping) : v.routed act = some (s, p) := by
  cases act with
  | dispatch s' p' =>
    obtain ⟨rfl, rfl, -, -, hsync⟩ := h
    unfold routed
    exact if_neg (by simp [hsync, h1, h2])
  | exec m =>
    obtain ⟨-, rest, hm⟩ := h
    simp [routed, hm]
  | letIn => exact absurd h id
  | start => exact absurd h id
  | tick => exact absurd h id
  | stop => exact absurd h id

theorem ref_of_runs (hx : Linked v.seating) (h : v.Runs s p loop act) (hl : loop ≠ none) :
    (v.core.ss s).matchRef ≠ none := by
  cases act with
  | dispatch s' p' => exact absurd h.2.2.1 hl
  | exec m =>
    obtain ⟨-, rest, hm⟩ := h
    exact hx.routes m s p (show Job.route s p ∈ v.mail m by
      rw [hm]
      exact List.mem_cons_self)
  | letIn => exact absurd h id
  | start => exact absurd h id
  | tick => exact absurd h id
  | stop => exact absurd h id

theorem away_of_none (h : Once v.seating) (hs : (v.core.ss s).matchRef = none)
    (hj : v.joining s = false) : v.seating.Away s where
  crew := fun m hm => absurd (hs.symm.trans (h.seated m s hm)) (by simp)
  mail := fun m hm => absurd (hs.symm.trans (h.laters m s hm).1) (by simp)
  admits := fun hm => by
    obtain ⟨a, ha, rfl⟩ := List.mem_map.mp hm
    cases hl : a.loop with
    | none =>
      unfold joining at hj
      rw [List.any_eq_false] at hj
      exact hj a ha (by simp [hl])
    | some m => exact h.looped a ha (by simp [hl]) hs

theorem once_shift {y : Seating} (h : Once v.seating) (hv : v.Vacant ⟨act, t⟩) (hs : v.Shift act y) :
    Once y := by
  have haway : ∀ {s p loop}, v.Runs s p loop act → cmdOf p.cmd = .joinMatchPost →
      v.seating.Away s := fun hr hcmd => away_of_once h
    (hv _ (routed_of_runs hr (by rw [hcmd]; decide) (by rw [hcmd]; decide)) hcmd)
  cases hs with
  | quiet => exact h
  | reserve hr hcmd hm _ =>
    exact h.enter (haway hr hcmd) (h.linked.live _ hm) fun hl => ref_of_runs h.linked hr hl
  | found hr hcmd => exact h.found (haway hr hcmd)
  | resume hr _ hnone _ =>
    refine (h.found (away_of_none h hnone hr.2.2.2.1)).openWith ?_
    exact List.mem_append_right _ List.mem_cons_self
  | first ha => exact h.openWith ha
  | ask ha => exact h.ask ha
  | sit hm => exact h.sit hm

theorem once_step (h : v.Step w e v') (hv : v.Vacant e) (hx : Once v.seating) : Once v'.seating := by
  obtain ⟨y, hs, hc⟩ := shifts h hx.linked
  exact (once_shift hx hv hs).calm hc

theorem once_start : Once start.seating where
  linked := linked_start
  blank := fun _ _ => ⟨rfl, rfl⟩
  seated := fun _ _ h => absurd h List.not_mem_nil
  nodup := fun _ => List.nodup_nil
  laters := fun _ _ h => absurd h List.not_mem_nil
  once := fun _ _ => Nat.zero_le _
  entering := fun _ h => absurd h List.not_mem_nil
  apart := List.nodup_nil
  looped := fun _ h => absurd h List.not_mem_nil

theorem once_of_run {C : Server → Event → Prop} (h : Run (Guarded (Step w) C) start es v)
    (hC : ∀ v e, C v e → v.Vacant e) : Once v.seating :=
  run_invariant (I := fun v => Once v.seating) h once_start
    fun hx hs => once_step hs.1 (hC _ _ hs.2) hx

structure OneSeat (v : Server) : Prop where
  once : ∀ m s, (v.core.ms m).players.count s ≤ 1
  single : ∀ s m m', s ∈ (v.core.ms m).players → s ∈ (v.core.ms m').players → m = m'
  points : ∀ s m, s ∈ (v.core.ms m).players → (v.core.ss s).matchRef = some m

theorem plays_once (h : Run (Guarded (Step w) Vacant) start es v) : v.OneSeat := by
  have hx := once_of_run h fun _ _ hc => hc
  refine ⟨fun m s => List.nodup_iff_count_le_one.mp (hx.nodup m) s, fun s m m' hm hm' => ?_,
    fun s m hm => hx.seated m s hm⟩
  exact Option.some.inj ((hx.seated m s hm).symm.trans (hx.seated m' s hm'))

-- A host and a guest join.
def pairUp : List Event :=
  opens 1 0 0 (joinWith hostToken) ++ joins 2 1 0 (joinWith guestToken)

theorem plays_once_of_pair : ∃ v, Run (Guarded (Step signedWorld) Vacant) start pairUp v ∧
    (v.core.ms 0).players = [0, 1] ∧ v.OneSeat := by
  have hrun : (pairUp.foldlM (fun v e => if Vacant v e then step signedWorld v e else none)
      start).map (fun v : Server => (v.core.ms 0).players) = some [0, 1] := by decide +kernel
  obtain ⟨v, hv, hp⟩ := Option.map_eq_some_iff.mp hrun
  have h := run_of_checked hv
  exact ⟨v, h, hp, plays_once h⟩

-- The host sends its 440 a second time, which its own match lets in.
def doubled : List Event :=
  opens 1 0 0 (joinWith hostToken) ++ sends 2 0 0 (joinWith hostToken) ++
    [event 2 (.letIn ⟨0, 0, false, some 0⟩), event 2 (.exec 0)]

theorem rejoin_doubles : ∃ v, Run (Step signedWorld) start doubled v ∧ ¬ v.OneSeat := by
  have hrun : (doubled.foldlM (step signedWorld) start).map (fun v => (v.core.ms 0).players) =
      some [0, 0] := by decide +kernel
  obtain ⟨v, hv, hp⟩ := Option.map_eq_some_iff.mp hrun
  refine ⟨v, run_of_foldlM hv, fun h => ?_⟩
  have hcount := h.once 0 0
  rw [hp] at hcount
  exact absurd hcount (by decide)

end Server

end MatchServer

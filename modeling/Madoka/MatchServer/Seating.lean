import Madoka.MatchServer.Roster

namespace MatchServer

open Lib

def Job.isLater : Job → Bool
  | .admitLater _ => true
  | _ => false

-- Who is in which match, under which entity, and who is still on the way to a seat.
structure Seating where
  ref : SessionId → Option MatchRef
  entity : SessionId → Nat
  synced : SessionId → Bool
  crew : MatchRef → List SessionId
  slot : MatchRef → Nat
  reserved : MatchRef → Nat
  idle : MatchRef → Bool
  live : List MatchRef
  next : MatchRef
  admits : List Admission
  mail : MatchRef → List Job

-- The slot of an entity id.
def low (entity : Nat) : Nat := entity % 2 ^ 24

namespace Seating

variable {x y : Seating} {s : SessionId} {m : MatchRef} {a : Admission} {e : Nat} {rest : List Job}

def pending (x : Seating) (m : MatchRef) : Nat :=
  (x.admits.countP fun a => a.m == m && !a.fresh) + (x.mail m).countP Job.isLater

structure Seats (x : Seating) : Prop where
  live : ∀ m ∈ x.live, m < x.next
  minted : ∀ s m, x.ref s = some m → m < x.next
  blank : ∀ m, x.next ≤ m → x.slot m = 0 ∧ x.reserved m = 0 ∧ x.mail m = []
  idle : ∀ m, x.slot m = 0 → x.crew m = [] ∧ x.idle m = true
  slots : ∀ m, x.slot m = 0 ∨ 2 ≤ x.slot m
  room : ∀ m, m < x.next →
    max 2 (x.slot m) + x.pending m ≤ x.reserved m + 1 ∧ x.reserved m ≤ maxPlayers
  loose : ∀ s, x.ref s = none → x.entity s = 0 ∧ x.synced s = false
  waits : ∀ s, x.ref s ≠ none → x.synced s = false → ∃ a ∈ x.admits, a.s = s
  admitted : ∀ a ∈ x.admits, a.loop = none ∧ a.m < x.next ∧ x.entity a.s = 0 ∧
    x.synced a.s = false ∧ x.ref a.s = (if a.fresh then some a.m else none) ∧
    (a.fresh → x.slot a.m = 0)
  apart : (x.admits.map Admission.s).Nodup
  owners : ∀ a ∈ x.admits, ∀ b ∈ x.admits, a.fresh → b.fresh → a.m = b.m → a = b
  routes : ∀ m s p, Job.route s p ∈ x.mail m → x.ref s = some m
  laters : ∀ m s, Job.admitLater s ∈ x.mail m →
    x.ref s = some m ∧ x.entity s = 0 ∧ x.synced s = true
  once : ∀ m s, (x.mail m).count (.admitLater s) ≤ 1
  seated : ∀ m, ∀ s ∈ x.crew m, x.ref s = some m ∧ x.entity s ≠ 0
  nodup : ∀ m, (x.crew m).Nodup
  lows : ∀ s m, x.ref s = some m → x.entity s ≠ 0 → 1 ≤ low (x.entity s) ∧
    low (x.entity s) ≤ x.slot m
  distinct : ∀ s t m, x.ref s = some m → x.ref t = some m → x.entity s ≠ 0 →
    x.entity s = x.entity t → s = t

structure Calm (x y : Seating) : Prop where
  ref : y.ref = x.ref
  entity : y.entity = x.entity
  synced : y.synced = x.synced
  slot : y.slot = x.slot
  reserved : y.reserved = x.reserved
  idle : y.idle = x.idle
  next : y.next = x.next
  admits : y.admits = x.admits
  live : y.live ⊆ x.live
  crew : ∀ m, (y.crew m).Sublist (x.crew m)
  mail : ∀ m, ∃ l, (y.mail m).Sublist (x.mail m ++ l) ∧
    ∀ j ∈ l, m < x.next ∧ j.isLater = false ∧ ∀ s p, j = .route s p → x.ref s = some m

theorem Calm.laters (h : Calm x y) {j : Job} (hj : j.isLater) (hm : j ∈ y.mail m) : j ∈ x.mail m := by
  obtain ⟨l, hsub, hl⟩ := h.mail m
  rcases List.mem_append.mp (hsub.subset hm) with hx | hx
  · exact hx
  · rw [(hl j hx).2.1] at hj
    exact absurd hj (by decide)

theorem Calm.countP (h : Calm x y) (m : MatchRef) :
    (y.mail m).countP Job.isLater ≤ (x.mail m).countP Job.isLater := by
  obtain ⟨l, hsub, hl⟩ := h.mail m
  have hzero : l.countP Job.isLater = 0 :=
    List.countP_eq_zero.mpr fun j hj => by simp [(hl j hj).2.1]
  calc (y.mail m).countP Job.isLater ≤ (x.mail m ++ l).countP Job.isLater := hsub.countP_le
    _ = (x.mail m).countP Job.isLater := by rw [List.countP_append, hzero, Nat.add_zero]

theorem Calm.count (h : Calm x y) (m : MatchRef) (s : SessionId) :
    (y.mail m).count (.admitLater s) ≤ (x.mail m).count (.admitLater s) := by
  obtain ⟨l, hsub, hl⟩ := h.mail m
  have hzero : l.count (.admitLater s) = 0 :=
    List.count_eq_zero.mpr fun hj => Bool.noConfusion (hl _ hj).2.1
  calc (y.mail m).count (.admitLater s) ≤ (x.mail m ++ l).count (.admitLater s) := hsub.count_le _
    _ = (x.mail m).count (.admitLater s) := by rw [List.count_append, hzero, Nat.add_zero]

theorem Seats.calm (h : Seats x) (hc : Calm x y) : Seats y where
  live := fun m hm => by
    rw [hc.next]
    exact h.live m (hc.live hm)
  minted := by
    rw [hc.ref, hc.next]
    exact h.minted
  blank := fun m hm => by
    rw [hc.next] at hm
    obtain ⟨h1, h2, h3⟩ := h.blank m hm
    refine ⟨by rw [hc.slot, h1], by rw [hc.reserved, h2], ?_⟩
    obtain ⟨l, hsub, hl⟩ := hc.mail m
    rw [h3, List.nil_append] at hsub
    refine List.eq_nil_iff_forall_not_mem.mpr fun j hj => ?_
    exact absurd (hl j (hsub.subset hj)).1 (Nat.not_lt.mpr hm)
  idle := fun m hm => by
    rw [hc.slot] at hm
    obtain ⟨h1, h2⟩ := h.idle m hm
    refine ⟨List.sublist_nil.mp (h1 ▸ hc.crew m), by rw [hc.idle, h2]⟩
  slots := by
    rw [hc.slot]
    exact h.slots
  room := fun m hm => by
    rw [hc.next] at hm
    have hr := h.room m hm
    have hle := hc.countP m
    unfold pending at hr ⊢
    rw [hc.slot, hc.reserved, hc.admits]
    exact ⟨by omega, hr.2⟩
  loose := by
    rw [hc.ref, hc.entity, hc.synced]
    exact h.loose
  waits := by
    rw [hc.ref, hc.synced, hc.admits]
    exact h.waits
  admitted := by
    rw [hc.admits, hc.next, hc.entity, hc.synced, hc.ref, hc.slot]
    exact h.admitted
  apart := by
    rw [hc.admits]
    exact h.apart
  owners := by
    rw [hc.admits]
    exact h.owners
  routes := fun m s p hm => by
    rw [hc.ref]
    obtain ⟨l, hsub, hl⟩ := hc.mail m
    rcases List.mem_append.mp (hsub.subset hm) with hx | hx
    · exact h.routes m s p hx
    · exact (hl _ hx).2.2 s p rfl
  laters := fun m s hm => by
    rw [hc.ref, hc.entity, hc.synced]
    exact h.laters m s (hc.laters rfl hm)
  once := fun m s => (hc.count m s).trans (h.once m s)
  seated := fun m s hs => by
    rw [hc.ref, hc.entity]
    exact h.seated m s ((hc.crew m).subset hs)
  nodup := fun m => (h.nodup m).sublist (hc.crew m)
  lows := by
    rw [hc.ref, hc.entity, hc.slot]
    exact h.lows
  distinct := by
    rw [hc.ref, hc.entity]
    exact h.distinct

def reserve (x : Seating) (s : SessionId) (m : MatchRef) : Seating :=
  { x with
    reserved := Function.update x.reserved m (x.reserved m + 1)
    admits := x.admits ++ [⟨s, m, false, none⟩] }

def mint (x : Seating) (s : SessionId) : Seating :=
  { x with
    ref := Function.update x.ref s (some x.next)
    reserved := Function.update x.reserved x.next (x.reserved x.next + 1)
    live := x.live ++ [x.next]
    next := x.next + 1
    admits := x.admits ++ [⟨s, x.next, true, none⟩] }

def first (x : Seating) (a : Admission) (e : Nat) : Seating :=
  { x with
    entity := Function.update x.entity a.s e
    synced := Function.update x.synced a.s true
    crew := Function.update x.crew a.m (x.crew a.m ++ [a.s])
    slot := Function.update x.slot a.m 2
    idle := Function.update x.idle a.m false
    admits := x.admits.erase a }

def ask (x : Seating) (a : Admission) : Seating :=
  { x with
    ref := Function.update x.ref a.s (some a.m)
    synced := Function.update x.synced a.s true
    admits := x.admits.erase a
    mail := Function.update x.mail a.m (x.mail a.m ++ [.admitLater a.s]) }

def sit (x : Seating) (s : SessionId) (m : MatchRef) (e : Nat) (rest : List Job) : Seating :=
  { x with
    entity := Function.update x.entity s e
    crew := Function.update x.crew m (x.crew m ++ [s])
    slot := Function.update x.slot m ((x.slot m + 1) % 256)
    mail := Function.update x.mail m rest }

theorem Seats.not_admitted (h : Seats x)
    (hj : (x.admits.any fun a => a.s == s && a.loop == none) = false) :
    s ∉ x.admits.map Admission.s := by
  intro hm
  obtain ⟨a, ha, hx⟩ := List.mem_map.mp hm
  rw [List.any_eq_false] at hj
  exact hj a ha (by simp [hx, (h.admitted a ha).1])

theorem Seats.reserve (h : Seats x) (hs : x.ref s = none) (hj : s ∉ x.admits.map Admission.s)
    (hm : m < x.next) (hr : x.reserved m < maxPlayers) : Seats (x.reserve s m) where
  live := h.live
  minted := h.minted
  blank := fun m' hm' => by
    have hne : m' ≠ m := Nat.ne_of_gt (Nat.lt_of_lt_of_le hm hm')
    simpa [Seating.reserve, hne] using h.blank m' hm'
  idle := h.idle
  slots := h.slots
  room := fun m' hm' => by
    have hr' := h.room m' hm'
    by_cases hmm : m' = m
    · subst hmm
      simp only [Seating.reserve, pending, List.countP_append, Function.update_self] at hr' ⊢
      simp only [List.countP_singleton, beq_self_eq_true, Bool.not_false, Bool.and_self, if_true]
      omega
    · simp only [Seating.reserve, pending, List.countP_append, Function.update_of_ne hmm] at hr' ⊢
      simpa [List.countP_singleton, Ne.symm hmm] using hr'
  loose := h.loose
  waits := fun s' h1 h2 => by
    obtain ⟨a, ha, hx⟩ := h.waits s' h1 h2
    exact ⟨a, List.mem_append_left _ ha, hx⟩
  admitted := fun a ha => by
    rcases List.mem_append.mp ha with hx | hx
    · exact h.admitted a hx
    · obtain rfl := List.mem_singleton.mp hx
      exact ⟨rfl, hm, (h.loose s hs).1, (h.loose s hs).2, hs, nofun⟩
  apart := by
    simp only [Seating.reserve, List.map_append, List.map_cons, List.map_nil]
    exact List.nodup_append.mpr ⟨h.apart, List.nodup_singleton _, by simpa using hj⟩
  owners := fun a ha b hb hfa hfb hab => by
    rcases List.mem_append.mp ha with hx | hx
    · rcases List.mem_append.mp hb with hy | hy
      · exact h.owners a hx b hy hfa hfb hab
      · obtain rfl := List.mem_singleton.mp hy
        exact Bool.noConfusion hfb
    · obtain rfl := List.mem_singleton.mp hx
      exact Bool.noConfusion hfa
  routes := h.routes
  laters := h.laters
  once := h.once
  seated := h.seated
  nodup := h.nodup
  lows := h.lows
  distinct := h.distinct

theorem Seats.mint (h : Seats x) (hs : x.ref s = none) (hj : s ∉ x.admits.map Admission.s) :
    Seats (x.mint s) where
  live := fun m hm => by
    rcases List.mem_append.mp hm with hx | hx
    · exact Nat.lt_succ_of_lt (h.live m hx)
    · rw [List.mem_singleton.mp hx]
      exact Nat.lt_succ_self _
  minted := fun s' m hm => by
    by_cases hss : s' = s
    · subst hss
      simp only [Seating.mint, Function.update_self, Option.some.injEq] at hm
      rw [← hm]
      exact Nat.lt_succ_self _
    · simp only [Seating.mint, Function.update_of_ne hss] at hm
      exact Nat.lt_succ_of_lt (h.minted s' m hm)
  blank := fun m hm => by
    have hm' : x.next < m := hm
    simpa [Seating.mint, Nat.ne_of_gt hm'] using h.blank m (Nat.le_of_lt hm')
  idle := h.idle
  slots := h.slots
  room := fun m hm => by
    rcases Nat.lt_succ_iff_lt_or_eq.mp hm with hlt | heq
    · have hr := h.room m hlt
      have hne : m ≠ x.next := Nat.ne_of_lt hlt
      simp only [Seating.mint, pending, List.countP_append, Function.update_of_ne hne] at hr ⊢
      simpa [List.countP_singleton] using hr
    · subst heq
      obtain ⟨h1, h2, h3⟩ := h.blank x.next (Nat.le_refl _)
      have hzero : x.admits.countP (fun a => a.m == x.next && !a.fresh) = 0 :=
        List.countP_eq_zero.mpr fun a ha => by
          simp [Nat.ne_of_lt (h.admitted a ha).2.1]
      simp [Seating.mint, pending, List.countP_append, h1, h2, h3, hzero, maxPlayers]
  loose := fun s' hs' => by
    by_cases hss : s' = s
    · subst hss
      simp [Seating.mint] at hs'
    · simp only [Seating.mint, Function.update_of_ne hss] at hs'
      exact h.loose s' hs'
  waits := fun s' h1 h2 => by
    by_cases hss : s' = s
    · exact ⟨⟨s, x.next, true, none⟩, List.mem_append_right _ List.mem_cons_self, hss.symm⟩
    · simp only [Seating.mint, Function.update_of_ne hss] at h1
      obtain ⟨a, ha, hx⟩ := h.waits s' h1 h2
      exact ⟨a, List.mem_append_left _ ha, hx⟩
  admitted := fun a ha => by
    rcases List.mem_append.mp ha with hx | hx
    · have hne : a.s ≠ s := fun hss => hj (hss ▸ List.mem_map_of_mem hx)
      obtain ⟨h1, h2, h3, h4, h5, h6⟩ := h.admitted a hx
      refine ⟨h1, Nat.lt_succ_of_lt h2, h3, h4, ?_, h6⟩
      simp only [Seating.mint, Function.update_of_ne hne]
      exact h5
    · obtain rfl := List.mem_singleton.mp hx
      refine ⟨rfl, Nat.lt_succ_self _, (h.loose s hs).1, (h.loose s hs).2, ?_, fun _ => ?_⟩
      · simp [Seating.mint]
      · exact (h.blank x.next (Nat.le_refl _)).1
  apart := by
    simp only [Seating.mint, List.map_append, List.map_cons, List.map_nil]
    exact List.nodup_append.mpr ⟨h.apart, List.nodup_singleton _, by simpa using hj⟩
  owners := fun a ha b hb hfa hfb hab => by
    rcases List.mem_append.mp ha with hx | hx
    · rcases List.mem_append.mp hb with hy | hy
      · exact h.owners a hx b hy hfa hfb hab
      · obtain rfl := List.mem_singleton.mp hy
        exact absurd hab (Nat.ne_of_lt (h.admitted a hx).2.1)
    · obtain rfl := List.mem_singleton.mp hx
      rcases List.mem_append.mp hb with hy | hy
      · exact absurd hab.symm (Nat.ne_of_lt (h.admitted b hy).2.1)
      · exact (List.mem_singleton.mp hy).symm
  routes := fun m s' p hm => by
    have hr := h.routes m s' p hm
    have hne : s' ≠ s := fun hss => by simp [hss, hs] at hr
    simpa [Seating.mint, hne] using hr
  laters := fun m s' hm => by
    have hr := h.laters m s' hm
    have hne : s' ≠ s := fun hss => by simp [hss, hs] at hr
    simpa [Seating.mint, hne] using hr
  once := h.once
  seated := fun m s' hm => by
    have hr := h.seated m s' hm
    have hne : s' ≠ s := fun hss => by simp [hss, hs] at hr
    simpa [Seating.mint, hne] using hr
  nodup := h.nodup
  lows := fun s' m hm he => by
    by_cases hss : s' = s
    · subst hss
      exact absurd (h.loose s' hs).1 he
    · simp only [Seating.mint, Function.update_of_ne hss] at hm
      exact h.lows s' m hm he
  distinct := fun s' t m hm ht he het => by
    have hz := (h.loose s hs).1
    have h1 : s' ≠ s := fun hss => he (hss ▸ hz)
    have h2 : t ≠ s := fun hss => he (het.trans (hss ▸ hz))
    simp only [Seating.mint, Function.update_of_ne h1] at hm
    simp only [Seating.mint, Function.update_of_ne h2] at ht
    exact h.distinct s' t m hm ht he het

theorem Seats.other_admission (h : Seats x) {b : Admission} (ha : a ∈ x.admits)
    (hb : b ∈ x.admits.erase a) : b ∈ x.admits ∧ b ≠ a ∧ b.s ≠ a.s := by
  have hnd : x.admits.Nodup := h.apart.of_map
  have hbm := List.mem_of_mem_erase hb
  have hne : b ≠ a := ((hnd.mem_erase_iff).mp hb).1
  exact ⟨hbm, hne, fun hs => hne (List.inj_on_of_nodup_map h.apart hbm ha hs)⟩

theorem Seats.waits_erase (h : Seats x) {s' : SessionId} (hne : s' ≠ a.s)
    (h1 : x.ref s' ≠ none) (h2 : x.synced s' = false) : ∃ b ∈ x.admits.erase a, b.s = s' := by
  obtain ⟨b, hb, hx⟩ := h.waits s' h1 h2
  have hba : b ≠ a := fun he => hne (he ▸ hx).symm
  exact ⟨b, (List.mem_erase_of_ne hba).mpr hb, hx⟩

theorem Seats.apart_erase (h : Seats x) : ((x.admits.erase a).map Admission.s).Nodup :=
  h.apart.sublist (List.erase_sublist.map _)

theorem countP_erase_of_pos {q : Admission → Bool} (ha : a ∈ x.admits) (hq : q a) :
    (x.admits.erase a).countP q + 1 = x.admits.countP q := by
  rw [(List.perm_cons_erase ha).countP_eq, List.countP_cons_of_pos hq]

theorem Seats.first (h : Seats x) (ha : a ∈ x.admits) (hf : a.fresh) (he : e ≠ 0)
    (hlow : low e = 1) : Seats (x.first a e) := by
  obtain ⟨-, hnext, hent, hsync, href, hslot⟩ := h.admitted a ha
  rw [if_pos hf] at href
  have hzero := hslot hf
  have hempty := (h.idle a.m hzero).1
  have hnone : ∀ s', x.ref s' = some a.m → x.entity s' = 0 := fun s' hs' => by
    by_contra hne
    have hl := h.lows s' a.m hs' hne
    omega
  exact {
    live := h.live
    minted := h.minted
    blank := fun m hm => by
      have hne : m ≠ a.m := Nat.ne_of_gt (Nat.lt_of_lt_of_le hnext hm)
      simpa [Seating.first, hne] using h.blank m hm
    idle := fun m hm => by
      have hne : m ≠ a.m := fun hmm => by simp [Seating.first, hmm] at hm
      simp only [Seating.first, Function.update_of_ne hne] at hm ⊢
      exact h.idle m hm
    slots := fun m => by
      by_cases hmm : m = a.m
      · exact Or.inr (by simp [Seating.first, hmm])
      · simpa [Seating.first, hmm] using h.slots m
    room := fun m hm => by
      have hr := h.room m hm
      have hle : (x.admits.erase a).countP (fun b => b.m == m && !b.fresh) ≤
          x.admits.countP fun b => b.m == m && !b.fresh := List.erase_sublist.countP_le
      unfold pending at hr ⊢
      by_cases hmm : m = a.m
      · subst hmm
        simp only [Seating.first, Function.update_self]
        rw [hzero] at hr
        omega
      · simp only [Seating.first, Function.update_of_ne hmm]
        omega
    loose := fun s' hs' => by
      have hne : s' ≠ a.s := fun hss => by
        rw [hss] at hs'
        exact absurd (href.symm.trans hs') (by simp)
      simpa [Seating.first, hne] using h.loose s' hs'
    waits := fun s' h1 h2 => by
      have hne : s' ≠ a.s := fun hss => by simp [Seating.first, hss] at h2
      simp only [Seating.first, Function.update_of_ne hne] at h2
      exact h.waits_erase hne h1 h2
    admitted := fun b hb => by
      obtain ⟨hbm, hba, hbs⟩ := h.other_admission ha hb
      obtain ⟨h1, h2, h3, h4, h5, h6⟩ := h.admitted b hbm
      refine ⟨h1, h2, ?_, ?_, h5, fun hbf => ?_⟩
      · simpa only [Seating.first, Function.update_of_ne hbs] using h3
      · simpa only [Seating.first, Function.update_of_ne hbs] using h4
      · have hne : b.m ≠ a.m := fun hmm => hba (h.owners b hbm a ha hbf hf hmm)
        simpa only [Seating.first, Function.update_of_ne hne] using h6 hbf
    apart := h.apart_erase
    owners := fun b hb c hc =>
      h.owners b (List.mem_of_mem_erase hb) c (List.mem_of_mem_erase hc)
    routes := h.routes
    laters := fun m s' hm => by
      obtain ⟨h1, h2, h3⟩ := h.laters m s' hm
      have hne : s' ≠ a.s := fun hss => by
        rw [hss, hsync] at h3
        exact Bool.noConfusion h3
      simpa [Seating.first, hne] using ⟨h1, h2, h3⟩
    once := h.once
    seated := fun m s' hs' => by
      by_cases hmm : m = a.m
      · subst hmm
        simp only [Seating.first, Function.update_self, hempty, List.nil_append,
          List.mem_singleton] at hs'
        subst hs'
        simp [Seating.first, href, he]
      · simp only [Seating.first, Function.update_of_ne hmm] at hs'
        obtain ⟨h1, h2⟩ := h.seated m s' hs'
        have hne : s' ≠ a.s := fun hss => h2 (hss ▸ hent)
        simpa [Seating.first, hne] using ⟨h1, h2⟩
    nodup := fun m => by
      by_cases hmm : m = a.m
      · simp [Seating.first, hmm, hempty]
      · simpa [Seating.first, hmm] using h.nodup m
    lows := fun s' m hm hne => by
      by_cases hss : s' = a.s
      · subst hss
        obtain rfl : a.m = m := Option.some.inj (href.symm.trans hm)
        simp [Seating.first, hlow]
      · simp only [Seating.first, Function.update_of_ne hss] at hne ⊢
        have hmm : m ≠ a.m := fun hmm => hne (hnone s' (hmm ▸ hm))
        rw [Function.update_of_ne hmm]
        exact h.lows s' m hm hne
    distinct := fun s' t m hm ht hne het => by
      by_cases h1 : s' = a.s
      · by_cases h2 : t = a.s
        · rw [h1, h2]
        · subst h1
          obtain rfl : a.m = m := Option.some.inj (href.symm.trans hm)
          simp only [Seating.first, Function.update_self, Function.update_of_ne h2] at het hne
          exact absurd (het.trans (hnone t ht)) hne
      · simp only [Seating.first, Function.update_of_ne h1] at het hne
        by_cases h2 : t = a.s
        · subst h2
          obtain rfl : a.m = m := Option.some.inj (href.symm.trans ht)
          exact absurd (hnone s' hm) hne
        · rw [Function.update_of_ne h2] at het
          exact h.distinct s' t m hm ht hne het }

theorem Seats.ask (h : Seats x) (ha : a ∈ x.admits) (hf : a.fresh = false) : Seats (x.ask a) := by
  obtain ⟨-, hnext, hent, hsync, href, -⟩ := h.admitted a ha
  rw [hf] at href
  have hother : ∀ s', x.ref s' ≠ none → s' ≠ a.s := fun s' hs' hss => hs' (hss ▸ href)
  exact {
    live := h.live
    minted := fun s' m hm => by
      by_cases hss : s' = a.s
      · simp only [Seating.ask, hss, Function.update_self, Option.some.injEq] at hm
        exact hm ▸ hnext
      · simp only [Seating.ask, Function.update_of_ne hss] at hm
        exact h.minted s' m hm
    blank := fun m hm => by
      have hne : m ≠ a.m := Nat.ne_of_gt (Nat.lt_of_lt_of_le hnext hm)
      simpa [Seating.ask, hne] using h.blank m hm
    idle := h.idle
    slots := h.slots
    room := fun m hm => by
      have hr := h.room m hm
      unfold pending at hr ⊢
      by_cases hmm : m = a.m
      · subst hmm
        have hcount := countP_erase_of_pos (q := fun b => b.m == a.m && !b.fresh) ha (by simp [hf])
        simp only [Seating.ask, Function.update_self, List.countP_append, List.countP_singleton,
          Job.isLater, if_true]
        omega
      · have hle : (x.admits.erase a).countP (fun b => b.m == m && !b.fresh) ≤
            x.admits.countP fun b => b.m == m && !b.fresh := List.erase_sublist.countP_le
        simp only [Seating.ask, Function.update_of_ne hmm]
        omega
    loose := fun s' hs' => by
      have hne : s' ≠ a.s := fun hss => by simp [Seating.ask, hss] at hs'
      simp only [Seating.ask, Function.update_of_ne hne] at hs' ⊢
      exact h.loose s' hs'
    waits := fun s' h1 h2 => by
      have hne : s' ≠ a.s := fun hss => by simp [Seating.ask, hss] at h2
      simp only [Seating.ask, Function.update_of_ne hne] at h1 h2
      exact h.waits_erase hne h1 h2
    admitted := fun b hb => by
      obtain ⟨hbm, hba, hbs⟩ := h.other_admission ha hb
      simpa only [Seating.ask, Function.update_of_ne hbs] using h.admitted b hbm
    apart := h.apart_erase
    owners := fun b hb c hc =>
      h.owners b (List.mem_of_mem_erase hb) c (List.mem_of_mem_erase hc)
    routes := fun m s' p hm => by
      have hm' : Job.route s' p ∈ x.mail m := by
        by_cases hmm : m = a.m
        · subst hmm
          simpa [Seating.ask] using hm
        · simpa [Seating.ask, hmm] using hm
      have hr := h.routes m s' p hm'
      simpa [Seating.ask, hother s' (by simp [hr])] using hr
    laters := fun m s' hm => by
      have hm' : Job.admitLater s' ∈ x.mail m ∨ s' = a.s ∧ m = a.m := by
        by_cases hmm : m = a.m
        · subst hmm
          simpa [Seating.ask] using hm
        · exact Or.inl (by simpa [Seating.ask, hmm] using hm)
      rcases hm' with hm' | ⟨rfl, rfl⟩
      · obtain ⟨h1, h2, h3⟩ := h.laters m s' hm'
        simpa [Seating.ask, hother s' (by simp [h1])] using ⟨h1, h2, h3⟩
      · simp [Seating.ask, hent]
    once := fun m s' => by
      by_cases hmm : m = a.m
      · subst hmm
        simp only [Seating.ask, Function.update_self, List.count_append]
        by_cases hss : s' = a.s
        · subst hss
          have hzero : (x.mail a.m).count (.admitLater a.s) = 0 :=
            List.count_eq_zero.mpr fun hm => by simp [(h.laters _ _ hm).1] at href
          simp [hzero]
        · simpa [List.count_singleton, Ne.symm hss] using h.once a.m s'
      · simpa [Seating.ask, hmm] using h.once m s'
    seated := fun m s' hs' => by
      have hr := h.seated m s' hs'
      simpa [Seating.ask, hother s' (by simp [hr.1])] using hr
    nodup := h.nodup
    lows := fun s' m hm hne => by
      have hss : s' ≠ a.s := fun hss => hne (hss ▸ hent)
      simp only [Seating.ask, Function.update_of_ne hss] at hm
      exact h.lows s' m hm hne
    distinct := fun s' t m hm ht hne het => by
      have h1 : s' ≠ a.s := fun hss => hne (hss ▸ hent)
      have h2 : t ≠ a.s := fun hss => hne (het.trans (hss ▸ hent))
      simp only [Seating.ask, Function.update_of_ne h1] at hm
      simp only [Seating.ask, Function.update_of_ne h2] at ht
      exact h.distinct s' t m hm ht hne het }

theorem Seats.slot_left (h : Seats x) (hm : x.mail m = .admitLater s :: rest)
    (hi : x.idle m = false) : 2 ≤ x.slot m ∧ x.slot m ≤ maxPlayers := by
  have hne : x.slot m ≠ 0 := fun hz => by
    rw [(h.idle m hz).2] at hi
    exact Bool.noConfusion hi
  have htwo := (h.slots m).resolve_left hne
  have href := (h.laters m s (by rw [hm]; exact List.mem_cons_self)).1
  have hr := h.room m (h.minted s m href)
  unfold pending at hr
  rw [hm, List.countP_cons_of_pos (by rfl)] at hr
  omega

theorem Seats.sit (h : Seats x) (hm : x.mail m = .admitLater s :: rest) (hi : x.idle m = false)
    (he : e ≠ 0) (hlow : low e = (x.slot m + 1) % 256) : Seats (x.sit s m e rest) := by
  obtain ⟨htwo, hmax⟩ := h.slot_left hm hi
  have hslot : (x.slot m + 1) % 256 = x.slot m + 1 := Nat.mod_eq_of_lt (by
    unfold maxPlayers at hmax
    omega)
  rw [hslot] at hlow
  obtain ⟨href, hent, hsync⟩ := h.laters m s (by rw [hm]; exact List.mem_cons_self)
  have hrest : ∀ s', Job.admitLater s' ∈ rest → s' ≠ s := by
    rintro s' hs' rfl
    have hcount := h.once m s'
    rw [hm, List.count_cons_self] at hcount
    have hpos := List.count_pos_iff.mpr hs'
    omega
  have hjob : ∀ m' j, j ∈ (x.sit s m e rest).mail m' → j ∈ x.mail m' := by
    intro m' j hj
    by_cases hmm : m' = m
    · subst hmm
      simp only [Seating.sit, Function.update_self] at hj
      rw [hm]
      exact List.mem_cons_of_mem _ hj
    · simpa only [Seating.sit, Function.update_of_ne hmm] using hj
  exact {
    live := h.live
    minted := h.minted
    blank := fun m' hm' => by
      have hne : m' ≠ m := Nat.ne_of_gt (Nat.lt_of_lt_of_le (h.minted s m href) hm')
      simpa [Seating.sit, hne] using h.blank m' hm'
    idle := fun m' hm' => by
      have hne : m' ≠ m := fun hmm => by
        simp only [Seating.sit, hmm, Function.update_self, hslot] at hm'
        omega
      simp only [Seating.sit, Function.update_of_ne hne] at hm' ⊢
      exact h.idle m' hm'
    slots := fun m' => by
      by_cases hmm : m' = m
      · refine Or.inr ?_
        simp only [Seating.sit, hmm, Function.update_self, hslot]
        omega
      · simpa [Seating.sit, hmm] using h.slots m'
    room := fun m' hm' => by
      have hr := h.room m' hm'
      unfold pending at hr ⊢
      by_cases hmm : m' = m
      · subst hmm
        rw [hm, List.countP_cons_of_pos (by rfl)] at hr
        simp only [Seating.sit, Function.update_self, hslot]
        omega
      · simpa only [Seating.sit, Function.update_of_ne hmm] using hr
    loose := fun s' hs' => by
      have hne : s' ≠ s := fun hss => by
        rw [hss] at hs'
        exact absurd (href.symm.trans hs') (by simp)
      simpa [Seating.sit, hne] using h.loose s' hs'
    waits := h.waits
    admitted := fun b hb => by
      obtain ⟨h1, h2, h3, h4, h5, h6⟩ := h.admitted b hb
      have hbs : b.s ≠ s := fun hss => by
        rw [hss, hsync] at h4
        exact Bool.noConfusion h4
      refine ⟨h1, h2, ?_, h4, h5, fun hbf => ?_⟩
      · simpa only [Seating.sit, Function.update_of_ne hbs] using h3
      · have hne : b.m ≠ m := fun hmm => by
          have hz := h6 hbf
          rw [hmm] at hz
          omega
        simpa only [Seating.sit, Function.update_of_ne hne] using h6 hbf
    apart := h.apart
    owners := h.owners
    routes := fun m' s' p hj => h.routes m' s' p (hjob m' _ hj)
    laters := fun m' s' hj => by
      obtain ⟨h1, h2, h3⟩ := h.laters m' s' (hjob m' _ hj)
      have hne : s' ≠ s := by
        by_cases hmm : m' = m
        · subst hmm
          simp only [Seating.sit, Function.update_self] at hj
          exact hrest s' hj
        · exact fun hss => hmm (Option.some.inj ((hss ▸ h1).symm.trans href))
      simpa [Seating.sit, hne] using ⟨h1, h2, h3⟩
    once := fun m' s' => by
      have ho := h.once m' s'
      by_cases hmm : m' = m
      · subst hmm
        rw [hm] at ho
        simp only [Seating.sit, Function.update_self]
        exact le_trans (List.count_le_count_cons) ho
      · simpa [Seating.sit, hmm] using ho
    seated := fun m' s' hs' => by
      by_cases hss : s' = s
      · subst hss
        have hmm : m' = m := by
          by_contra hmm
          simp only [Seating.sit, Function.update_of_ne hmm] at hs'
          exact (h.seated m' s' hs').2 hent
        subst hmm
        simp [Seating.sit, href, he]
      · have hs'' : s' ∈ x.crew m' := by
          by_cases hmm : m' = m
          · subst hmm
            simpa [Seating.sit, hss] using hs'
          · simpa [Seating.sit, hmm] using hs'
        simpa [Seating.sit, hss] using h.seated m' s' hs''
    nodup := fun m' => by
      by_cases hmm : m' = m
      · subst hmm
        simp only [Seating.sit, Function.update_self]
        refine List.nodup_append.mpr ⟨h.nodup m', List.nodup_singleton _, ?_⟩
        rintro s' hs' t ht rfl
        rw [List.mem_singleton] at ht
        exact (h.seated m' s' hs').2 (ht ▸ hent)
      · simpa [Seating.sit, hmm] using h.nodup m'
    lows := fun s' m' hm' hne => by
      by_cases hss : s' = s
      · subst hss
        obtain rfl : m = m' := Option.some.inj (href.symm.trans hm')
        simp [Seating.sit, hlow, hslot]
      · simp only [Seating.sit, Function.update_of_ne hss] at hne ⊢
        have hl := h.lows s' m' hm' hne
        by_cases hmm : m' = m
        · subst hmm
          rw [Function.update_self, hslot]
          omega
        · rw [Function.update_of_ne hmm]
          exact hl
    distinct := fun s' t m' hm' ht hne het => by
      by_cases h1 : s' = s
      · by_cases h2 : t = s
        · rw [h1, h2]
        · subst h1
          obtain rfl : m = m' := Option.some.inj (href.symm.trans hm')
          simp only [Seating.sit, Function.update_self, Function.update_of_ne h2] at het
          have hl := h.lows t m ht (het ▸ he)
          rw [← het] at hl
          omega
      · simp only [Seating.sit, Function.update_of_ne h1] at het hne
        by_cases h2 : t = s
        · subst h2
          obtain rfl : m = m' := Option.some.inj (href.symm.trans ht)
          rw [Function.update_self] at het
          have hl := h.lows s' m hm' hne
          rw [het] at hl
          omega
        · rw [Function.update_of_ne h2] at het
          exact h.distinct s' t m' hm' ht hne het }

end Seating

end MatchServer

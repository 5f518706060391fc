import Mathlib.Data.List.Pairwise
import Madoka.Bus.Stream

namespace Bus

open Lib

variable {β C : Type} [DecidableEq C] {impl : Impl} {s t : State β C} {e : Event β C}

def ids (xs : List (Entry β)) : List Nat := xs.map Entry.id

structure Inv (s : State β C) : Prop where
  sorted : s.entries.Pairwise (fun x y => x.id < y.id)
  bounded : ∀ x ∈ s.entries, 1 ≤ x.id ∧ x.id < s.next
  cursor : s.lastDelivered < s.next
  settled : ∀ id, Settled s id → id ≤ s.lastDelivered
  held : ∀ c, ∀ id ∈ ids (s.consumers c).held, 1 ≤ id ∧ id ≤ s.lastDelivered ∧ ¬ Settled s id
  nodup : ∀ c, (ids (s.consumers c).held).Nodup
  apart : ∀ c c' id, id ∈ ids (s.consumers c).held → id ∈ ids (s.consumers c').held → c = c'

structure Shrinks (s t : State β C) (c : C) (pc : Consumer β) (done : Nat → Prop) : Prop where
  entries : t.entries = s.entries
  next : t.next = s.next
  cursor : t.lastDelivered = s.lastDelivered
  consumers : t.consumers = Function.update s.consumers c pc
  settled : ∀ id, Settled t id ↔ Settled s id ∨ done id
  sublist : (ids pc.held).Sublist (ids (s.consumers c).held)
  done_held : ∀ id, done id → id ∈ ids (s.consumers c).held ∧ id ∉ ids pc.held

section shrink

variable {c : C} {pc : Consumer β} {done : Nat → Prop}

theorem shrinks_held (h : Shrinks s t c pc done) (c' : C) :
    (ids (t.consumers c').held).Sublist (ids (s.consumers c').held) := by
  rw [h.consumers]
  by_cases hc : c' = c
  · subst hc
    simpa using h.sublist
  · simp [hc]

theorem inv_shrinks (hi : Inv s) (h : Shrinks s t c pc done) : Inv t where
  sorted := by
    rw [h.entries]
    exact hi.sorted
  bounded := by
    rw [h.entries, h.next]
    exact hi.bounded
  cursor := by
    rw [h.cursor, h.next]
    exact hi.cursor
  settled := by
    intro id hid
    rw [h.cursor]
    rcases (h.settled id).mp hid with hs | hd
    · exact hi.settled id hs
    · exact (hi.held c id (h.done_held id hd).1).2.1
  held := by
    intro c' id hid
    obtain ⟨h1, h2, h3⟩ := hi.held c' id ((shrinks_held h c').subset hid)
    refine ⟨h1, by rw [h.cursor]; exact h2, ?_⟩
    intro hs
    rcases (h.settled id).mp hs with hs | hd
    · exact h3 hs
    · obtain ⟨hold, hnew⟩ := h.done_held id hd
      obtain rfl := hi.apart c' c id ((shrinks_held h c').subset hid) hold
      rw [h.consumers, Function.update_self] at hid
      exact hnew hid
  nodup := fun c' => (hi.nodup c').sublist (shrinks_held h c')
  apart := fun c1 c2 id h1 h2 =>
    hi.apart c1 c2 id ((shrinks_held h c1).subset h1) ((shrinks_held h c2).subset h2)

theorem shrinks_readable (h : Shrinks s t c pc done) (id : Nat) : Readable t id ↔ Readable s id := by
  simp only [Readable, State.unread, h.entries, h.cursor]

omit [DecidableEq C] in
theorem not_readable_of_le {id : Nat} (h : id ≤ s.lastDelivered) : ¬ Readable s id := by
  intro hr
  obtain ⟨x, hx, rfl⟩ := List.mem_map.mp hr
  have hlt : s.lastDelivered < x.id := by simpa [State.unread] using (List.mem_filter.mp hx).2
  omega

theorem shrinks_iff (hi : Inv s) (hs : AtLeastOnce s) (h : Shrinks s t c pc done) :
    AtLeastOnce t ↔ ∀ id ∈ ids (s.consumers c).held, done id ∨ id ∈ ids pc.held := by
  constructor
  · intro ht id hid
    obtain ⟨h1, h2, h3⟩ := hi.held c id hid
    have hpub : Published t id := ⟨h1, by rw [h.next]; have := hi.cursor; omega⟩
    rcases ht id hpub with hset | hread | ⟨c', hc'⟩
    · exact Or.inl (((h.settled id).mp hset).resolve_left h3)
    · exact absurd ((shrinks_readable h id).mp hread) (not_readable_of_le h2)
    · obtain rfl := hi.apart c' c id ((shrinks_held h c').subset hc') hid
      rw [h.consumers, Function.update_self] at hc'
      exact Or.inr hc'
  · intro hall id hpub
    rw [Published, h.next] at hpub
    rcases hs id hpub with hset | hread | ⟨c', hc'⟩
    · exact Or.inl ((h.settled id).mpr (Or.inl hset))
    · exact Or.inr (Or.inl ((shrinks_readable h id).mpr hread))
    · by_cases hc : c' = c
      · subst hc
        rcases hall id hc' with hd | hp
        · exact Or.inl ((h.settled id).mpr (Or.inr hd))
        · exact Or.inr (Or.inr ⟨c', by rw [h.consumers, Function.update_self]; exact hp⟩)
      · exact Or.inr (Or.inr ⟨c', by rw [h.consumers, Function.update_of_ne hc]; exact hc'⟩)

end shrink

def Local (impl : Impl) (s : State β C) (e : Event β C) (t : State β C) : Prop :=
  ∃ c pc done, Shrinks s t c pc done ∧
    (Harmless impl s e ↔ ∀ id ∈ ids (s.consumers c).held, done id ∨ id ∈ ids pc.held)

theorem local_idle {c : C} {pc : Consumer β} (hc : (s.consumers c).held = [])
    (h : Shrinks s t c pc fun _ => False) (he : Harmless impl s e) : Local impl s e t :=
  ⟨c, pc, _, h, by simp [he, hc, ids]⟩

theorem local_subscribe {c : C} {ok : Bool} (hs : Step impl s (.subscribe c ok) t) :
    Local impl s (.subscribe c ok) t := by
  simp only [Step, step] at hs
  split at hs
  · next hc =>
    cases hs
    refine local_idle (c := c) (by rw [hc]; rfl) ⟨rfl, rfl, rfl, rfl, ?_, ?_, ?_⟩ trivial
    · simp [Settled, State.goto]
    · simp [Consumer.held, ids]
    · simp
  · cases hs

theorem local_again {c : C} (hs : Step impl s (.again c) t) : Local impl s (.again c) t := by
  simp only [Step, step] at hs
  split at hs
  · next hc =>
    cases hs
    refine local_idle (c := c) (by rw [hc]; rfl) ⟨rfl, rfl, rfl, rfl, ?_, ?_, ?_⟩ trivial
    · simp [Settled, State.goto]
    · simp [Consumer.held, ids]
    · simp
  · cases hs

theorem local_stop {c : C} (hs : Step impl s (.stop c) t) : Local impl s (.stop c) t := by
  cases hs
  refine ⟨c, .stopped, fun _ => False, ⟨rfl, rfl, rfl, rfl, ?_, ?_, ?_⟩, ?_⟩
  · simp [Settled, State.goto]
  · simp [Consumer.held, ids]
  · simp
  · simp [Harmless, Consumer.held, ids, List.eq_nil_iff_forall_not_mem]

theorem local_handle (hi : Inv s) {c : C} {ok : Bool} (hs : Step impl s (.handle c ok) t) :
    Local impl s (.handle c ok) t := by
  simp only [Step, step] at hs
  split at hs
  · next x xs hc =>
    have hnd := hi.nodup c
    rw [hc] at hnd
    simp only [Consumer.held, ids, List.map_cons, List.nodup_cons] at hnd
    split at hs
    · cases hs
      refine ⟨c, _, fun _ => False, ⟨rfl, rfl, rfl, rfl, ?_, ?_, ?_⟩, ?_⟩
      · simp [Settled, State.goto]
      · cases ok <;> simp [hc, Consumer.held, ids]
      · simp
      · cases ok with
        | true => simp [Harmless, hc, Consumer.held, ids]
        | false =>
          simp only [Harmless, hc, Consumer.held, ids, Bool.false_eq_true, false_iff, if_false]
          intro hall
          exact hnd.1 ((hall x.id (by simp)).resolve_left id)
    · cases hs
  · cases hs

theorem local_ack (hi : Inv s) {c : C} {r : Reply} (hs : Step impl s (.ack c r) t) :
    Local impl s (.ack c r) t := by
  simp only [Step, step] at hs
  split at hs
  · next x xs hc =>
    have hnd := hi.nodup c
    rw [hc] at hnd
    simp only [Consumer.held, ids, List.map_cons, List.nodup_cons] at hnd
    cases hs
    refine ⟨c, .batch xs, fun id => r.took = true ∧ id = x.id, ⟨?_, ?_, ?_, ?_, ?_, ?_, ?_⟩, ?_⟩
    any_goals cases r <;> rfl
    · intro id
      cases r <;> simp [Settled, State.goto, State.xack, Reply.took, or_comm, or_assoc]
    · simp [hc, Consumer.held, ids]
    · rintro id ⟨_, rfl⟩
      simpa [hc, Consumer.held, ids] using hnd.1
    · cases r <;> simp [Harmless, hc, Consumer.held, ids, Reply.took]
      simpa [ids] using hnd.1
  · cases hs

theorem held_afterDrop (r : Reply) (xs : List (Entry β)) :
    (ids (afterDrop impl r xs).held).Sublist (ids xs) := by
  cases impl <;> cases r <;> simp [afterDrop, Consumer.held, ids]

omit [DecidableEq C] in
theorem harmless_drop {c : C} {r : Reply} {x : Entry β} {xs : List (Entry β)}
    (hc : s.consumers c = .batch (x :: xs)) (hx : x.id ∉ ids xs) :
    Harmless impl s (.drop c r) ↔ ∀ id ∈ ids (s.consumers c).held,
      (r.took = true ∧ id = x.id) ∨ id ∈ ids (afterDrop impl r xs).held := by
  have hother : ∀ y ∈ xs, y.id ≠ x.id := fun y hy he => hx (he ▸ List.mem_map_of_mem hy)
  cases r with
  | ok => simp [Harmless, hc, Consumer.held, ids, Reply.took, afterDrop]
  | failed =>
    refine ⟨fun h => (Bool.false_ne_true h.1).elim, fun hall => ?_⟩
    rcases hall x.id (by simp [hc, Consumer.held, ids]) with ⟨ht, _⟩ | hm
    · cases ht
    · exact (hx ((held_afterDrop _ _).subset hm)).elim
  | lost =>
    cases impl with
    | go => simp [Harmless, hc, Consumer.held, ids, Reply.took, afterDrop]
    | node =>
      cases xs with
      | nil => simp [Harmless, hc, Consumer.held, ids, Reply.took, afterDrop]
      | cons y ys =>
        have hy := hother y (by simp)
        simp [Harmless, hc, Consumer.held, ids, Reply.took, afterDrop, hy]

theorem local_drop (hi : Inv s) {c : C} {r : Reply} (hs : Step impl s (.drop c r) t) :
    Local impl s (.drop c r) t := by
  simp only [Step, step] at hs
  split at hs
  · next x xs hc =>
    have hnd := hi.nodup c
    rw [hc] at hnd
    simp only [Consumer.held, ids, List.map_cons, List.nodup_cons] at hnd
    split at hs
    · cases hs
    · cases hs
      refine ⟨c, afterDrop impl r xs, fun id => r.took = true ∧ id = x.id,
        ⟨?_, ?_, ?_, ?_, ?_, ?_, ?_⟩, ?_⟩
      any_goals cases r <;> rfl
      · intro id
        cases r <;> simp [Settled, State.goto, State.xack, Reply.took, or_comm, or_left_comm]
      · rw [hc]
        exact (held_afterDrop r xs).trans (List.sublist_cons_self _ _)
      · rintro id ⟨_, rfl⟩
        refine ⟨by simp [hc, Consumer.held, ids], fun hm => hnd.1 ?_⟩
        exact (held_afterDrop r xs).subset hm
      · exact harmless_drop hc hnd.1
  · cases hs

omit [DecidableEq C] in
theorem publish_sorted (hi : Inv s) (env : Option β) :
    (s.entries ++ [Entry.mk s.next env]).Pairwise (fun x y => x.id < y.id) := by
  refine List.pairwise_append.mpr ⟨hi.sorted, List.pairwise_singleton _ _, ?_⟩
  intro x hx y hy
  obtain rfl := List.mem_singleton.mp hy
  exact (hi.bounded x hx).2

omit [DecidableEq C] in
theorem publish_bounded (hi : Inv s) (env : Option β) :
    ∀ x ∈ s.entries ++ [Entry.mk s.next env], 1 ≤ x.id ∧ x.id < s.next + 1 := by
  intro x hx
  rcases List.mem_append.mp hx with hx | hx
  · have := hi.bounded x hx
    omega
  · obtain rfl := List.mem_singleton.mp hx
    have := hi.cursor
    dsimp only
    omega

theorem publish_inv {env : Option β} {trim : Nat} (hi : Inv s)
    (hs : Step impl s (.publish env trim) t) : Inv t := by
  simp only [Step, step] at hs
  split at hs
  · cases hs
    refine ⟨(publish_sorted hi env).sublist (List.drop_sublist _ _), ?_, Nat.lt_succ_of_lt hi.cursor, hi.settled,
      hi.held, hi.nodup, hi.apart⟩
    intro x hx
    exact publish_bounded hi env x ((List.drop_sublist _ _).subset hx)
  · cases hs

theorem publish_step {env : Option β} {trim : Nat} (hs : Step impl s (.publish env trim) t) :
    t = { s with entries := (s.entries ++ [Entry.mk s.next env]).drop trim, next := s.next + 1 } := by
  simp only [Step, step] at hs
  split at hs
  · exact (Option.some.inj hs).symm
  · cases hs

theorem publish_iff {env : Option β} {trim : Nat} (hi : Inv s) (h : AtLeastOnce s)
    (hs : Step impl s (.publish env trim) t) :
    AtLeastOnce t ↔ Harmless impl s (.publish env trim) := by
  have hit := publish_inv hi hs
  obtain rfl := publish_step hs
  have hsplit := List.take_append_drop trim (s.entries ++ [Entry.mk s.next env])
  have hsorted := publish_sorted hi env
  constructor
  · intro ht x hx
    by_contra hlt
    have hmem : x ∈ s.entries ++ [Entry.mk s.next env] := (List.take_sublist _ _).subset hx
    rcases ht x.id (publish_bounded hi env x hmem) with hset | hread | ⟨c, hc⟩
    · exact hlt (hi.settled _ hset)
    · obtain ⟨y, hy, hxy⟩ := List.mem_map.mp hread
      have hydrop := (List.mem_filter.mp hy).1
      rw [← hsplit] at hsorted
      have := (List.pairwise_append.mp hsorted).2.2 x hx y hydrop
      omega
    · exact hlt (hi.held c _ hc).2.1
  · intro hh id hid
    have hkeep : ∀ x ∈ s.entries ++ [Entry.mk s.next env], s.lastDelivered < x.id →
        x ∈ (s.entries ++ [Entry.mk s.next env]).drop trim := by
      intro x hx hlt
      rw [← hsplit] at hx
      rcases List.mem_append.mp hx with hx | hx
      · have := hh x hx
        omega
      · exact hx
    have hread : ∀ x ∈ s.entries ++ [Entry.mk s.next env], s.lastDelivered < x.id →
        x.id ∈ ((s.entries ++ [Entry.mk s.next env]).drop trim |>.filter
          fun y => s.lastDelivered < y.id).map Entry.id := by
      intro x hx hlt
      exact List.mem_map_of_mem (List.mem_filter.mpr ⟨hkeep x hx hlt, by simpa using hlt⟩)
    by_cases hlast : id = s.next
    · subst hlast
      exact Or.inr (Or.inl (hread (Entry.mk s.next env) (by simp) hi.cursor))
    · have hpub : Published s id := ⟨hid.1, by have := hid.2; dsimp only at this; omega⟩
      rcases h id hpub with hset | hr | hc
      · exact Or.inl hset
      · obtain ⟨x, hx, rfl⟩ := List.mem_map.mp hr
        obtain ⟨hx, hlt⟩ := List.mem_filter.mp hx
        exact Or.inr (Or.inl (hread x (List.mem_append_left _ hx) (by simpa using hlt)))
      · exact Or.inr (Or.inr hc)

theorem sorted_getLast {xs : List (Entry β)} {l : Entry β}
    (hs : xs.Pairwise (fun x y => x.id < y.id)) (hl : xs.getLast? = some l) :
    ∀ x ∈ xs, x.id ≤ l.id := by
  obtain ⟨ys, rfl⟩ := List.getLast?_eq_some_iff.mp hl
  intro x hx
  rcases List.mem_append.mp hx with hx | hx
  · exact ((List.pairwise_append.mp hs).2.2 x hx l (List.mem_singleton_self l)).le
  · obtain rfl := List.mem_singleton.mp hx
    exact le_rfl

structure Advances (s : State β C) (k : Nat) : Prop where
  cursor : s.readGroup.lastDelivered = k
  forward : s.lastDelivered < k
  published : k < s.next
  taken : ∀ x ∈ s.unread.take count, x.id ≤ k
  left : ∀ x ∈ s.unread, x ∈ s.unread.take count ∨ k < x.id

omit [DecidableEq C] in
theorem mem_unread {x : Entry β} (h : x ∈ s.unread) : x ∈ s.entries ∧ s.lastDelivered < x.id := by
  obtain ⟨hx, hlt⟩ := List.mem_filter.mp h
  exact ⟨hx, by simpa using hlt⟩

omit [DecidableEq C] in
theorem readGroup_advances (hi : Inv s) (hu : s.unread ≠ []) : ∃ k, Advances s k := by
  have hsorted : s.unread.Pairwise (fun x y => x.id < y.id) := hi.sorted.sublist List.filter_sublist
  have htake : s.unread.take count ≠ [] := by
    simpa [List.take_eq_nil_iff, count] using hu
  obtain ⟨l, hl⟩ : ∃ l, (s.unread.take count).getLast? = some l :=
    ⟨_, List.getLast?_eq_some_getLast htake⟩
  have hlmem : l ∈ s.unread.take count := List.mem_of_getLast? hl
  obtain ⟨hle, hlt⟩ := mem_unread ((List.take_sublist _ _).subset hlmem)
  refine ⟨l.id, ?_, hlt, (hi.bounded l hle).2, ?_, ?_⟩
  · simp [State.readGroup, hl]
  · exact sorted_getLast (hsorted.sublist (List.take_sublist _ _)) hl
  · intro x hx
    rw [← List.take_append_drop count s.unread] at hx hsorted
    rcases List.mem_append.mp hx with hx | hx
    · exact Or.inl hx
    · exact Or.inr ((List.pairwise_append.mp hsorted).2.2 l hlmem x hx)

omit [DecidableEq C] in
theorem readGroup_readable {k id : Nat} (ha : Advances s k) (h : Readable s id) :
    id ∈ ids (s.unread.take count) ∨ Readable s.readGroup id := by
  obtain ⟨x, hx, rfl⟩ := List.mem_map.mp h
  rcases ha.left x hx with hx' | hlt
  · exact Or.inl (List.mem_map_of_mem hx')
  · refine Or.inr (List.mem_map_of_mem (List.mem_filter.mpr ⟨(mem_unread hx).1, ?_⟩))
    rw [ha.cursor]
    simpa using hlt

omit [DecidableEq C] in
theorem readGroup_inv {k : Nat} (hi : Inv s) (ha : Advances s k) : Inv s.readGroup where
  sorted := hi.sorted
  bounded := hi.bounded
  cursor := by
    rw [ha.cursor]
    exact ha.published
  settled := by
    intro id hid
    rw [ha.cursor]
    exact (hi.settled id hid).trans ha.forward.le
  held := by
    intro c id hid
    obtain ⟨h1, h2, h3⟩ := hi.held c id hid
    exact ⟨h1, by rw [ha.cursor]; exact h2.trans ha.forward.le, h3⟩
  nodup := hi.nodup
  apart := hi.apart

theorem read_step {c : C} (hs : Step impl s (.read c) t) :
    (s.consumers c).held = [] ∧ s.unread ≠ [] ∧
      t = s.readGroup.goto c (.batch (s.unread.take count)) := by
  simp only [Step, step] at hs
  split at hs
  · next hc =>
    split at hs
    · next hu => exact ⟨by rw [hc]; rfl, hu.2, (Option.some.inj hs).symm⟩
    · cases hs
  · cases hs

theorem readLost_step {c : C} (hs : Step impl s (.readLost c) t) :
    s.unread ≠ [] ∧ t = s.readGroup := by
  simp only [Step, step] at hs
  split at hs
  · split at hs
    · next hu => exact ⟨hu.2, (Option.some.inj hs).symm⟩
    · cases hs
  · cases hs

theorem read_held {c c' : C} {id : Nat} {xs : List (Entry β)}
    (h : id ∈ ids ((s.readGroup.goto c (.batch xs)).consumers c').held) :
    (c' = c ∧ id ∈ ids xs) ∨ (c' ≠ c ∧ id ∈ ids (s.consumers c').held) := by
  by_cases hc : c' = c
  · subst hc
    exact Or.inl ⟨rfl, by simpa [State.goto, Consumer.held] using h⟩
  · exact Or.inr ⟨hc, by simpa [State.goto, State.readGroup, hc] using h⟩

omit [DecidableEq C] in
theorem taken_fresh {k id : Nat} (hi : Inv s) (ha : Advances s k)
    (h : id ∈ ids (s.unread.take count)) :
    1 ≤ id ∧ s.lastDelivered < id ∧ id ≤ k ∧ ¬ Settled s id := by
  obtain ⟨x, hx, rfl⟩ := List.mem_map.mp h
  obtain ⟨hxe, hlt⟩ := mem_unread ((List.take_sublist _ _).subset hx)
  exact ⟨(hi.bounded x hxe).1, hlt, ha.taken x hx, fun hs => by have := hi.settled _ hs; omega⟩

theorem read_inv {c : C} (hi : Inv s) (hs : Step impl s (.read c) t) : Inv t := by
  obtain ⟨hc, hu, rfl⟩ := read_step hs
  obtain ⟨k, ha⟩ := readGroup_advances hi hu
  have hg := readGroup_inv hi ha
  refine ⟨hg.sorted, hg.bounded, hg.cursor, hg.settled, ?_, ?_, ?_⟩
  · intro c' id hid
    rcases read_held hid with ⟨_, hid⟩ | ⟨_, hid⟩
    · obtain ⟨h1, _, hk, hns⟩ := taken_fresh hi ha hid
      exact ⟨h1, hk.trans ha.cursor.ge, hns⟩
    · exact hg.held c' id hid
  · intro c'
    by_cases he : c' = c
    · subst he
      have hsorted : (s.unread.take count).Pairwise (fun x y => x.id < y.id) :=
        (hi.sorted.sublist List.filter_sublist).sublist (List.take_sublist _ _)
      simp only [State.goto, Function.update_self, Consumer.held, ids]
      exact List.pairwise_map.mpr (hsorted.imp fun h => Nat.ne_of_lt h)
    · simpa [State.goto, State.readGroup, he] using hi.nodup c'
  · intro c1 c2 id h1 h2
    rcases read_held h1 with ⟨e1, k1⟩ | ⟨_, k1⟩
    · rcases read_held h2 with ⟨e2, _⟩ | ⟨_, k2⟩
      · exact e1.trans e2.symm
      · have := (taken_fresh hi ha k1).2.1
        have := (hi.held c2 id k2).2.1
        omega
    · rcases read_held h2 with ⟨_, k2⟩ | ⟨_, k2⟩
      · have := (taken_fresh hi ha k2).2.1
        have := (hi.held c1 id k1).2.1
        omega
      · exact hi.apart c1 c2 id k1 k2

theorem read_keeps {c : C} (hi : Inv s) (h : AtLeastOnce s) (hs : Step impl s (.read c) t) :
    AtLeastOnce t := by
  obtain ⟨hc, hu, rfl⟩ := read_step hs
  obtain ⟨k, ha⟩ := readGroup_advances hi hu
  intro id hid
  rcases h id hid with hset | hr | ⟨c', hc'⟩
  · exact Or.inl hset
  · rcases readGroup_readable ha hr with ht | hr
    · refine Or.inr (Or.inr ⟨c, ?_⟩)
      simp only [State.goto, Function.update_self, Consumer.held]
      exact ht
    · exact Or.inr (Or.inl hr)
  · have hne : c' ≠ c := by
      rintro rfl
      simp [hc] at hc'
    exact Or.inr (Or.inr ⟨c', by simpa [State.goto, State.readGroup, hne] using hc'⟩)

theorem readLost_loses {c : C} (hi : Inv s) (hs : Step impl s (.readLost c) t) :
    ¬ AtLeastOnce t := by
  obtain ⟨hu, rfl⟩ := readLost_step hs
  obtain ⟨k, ha⟩ := readGroup_advances hi hu
  obtain ⟨x, xs, hx⟩ := List.exists_cons_of_ne_nil hu
  have hmem : x.id ∈ ids (s.unread.take count) := by simp [hx, count, ids]
  obtain ⟨h1, hlt, hk, hns⟩ := taken_fresh hi ha hmem
  intro hall
  have hpub : Published s.readGroup x.id := ⟨h1, hk.trans_lt ha.published⟩
  rcases hall x.id hpub with hset | hr | ⟨c', hc'⟩
  · exact hns hset
  · exact not_readable_of_le (hk.trans ha.cursor.ge) hr
  · have := (hi.held c' _ hc').2.1
    omega

theorem local_step (hi : Inv s) (hs : Step impl s e t) :
    (∃ env trim, e = .publish env trim) ∨ (∃ c, e = .read c) ∨ (∃ c, e = .readLost c) ∨
      Local impl s e t := by
  cases e with
  | publish env trim => exact Or.inl ⟨env, trim, rfl⟩
  | read c => exact Or.inr (Or.inl ⟨c, rfl⟩)
  | readLost c => exact Or.inr (Or.inr (Or.inl ⟨c, rfl⟩))
  | subscribe c ok => exact Or.inr (Or.inr (Or.inr (local_subscribe hs)))
  | handle c ok => exact Or.inr (Or.inr (Or.inr (local_handle hi hs)))
  | drop c r => exact Or.inr (Or.inr (Or.inr (local_drop hi hs)))
  | ack c r => exact Or.inr (Or.inr (Or.inr (local_ack hi hs)))
  | again c => exact Or.inr (Or.inr (Or.inr (local_again hs)))
  | stop c => exact Or.inr (Or.inr (Or.inr (local_stop hs)))

omit [DecidableEq C] in
theorem inv_start : Inv (start : State β C) := by
  constructor <;> simp [start, Settled, Consumer.held, ids]

theorem inv_step (hi : Inv s) (hs : Step impl s e t) : Inv t := by
  rcases local_step hi hs with ⟨env, trim, rfl⟩ | ⟨c, rfl⟩ | ⟨c, rfl⟩ | ⟨c, pc, done, hsh, _⟩
  · exact publish_inv hi hs
  · exact read_inv hi hs
  · obtain ⟨hu, rfl⟩ := readLost_step hs
    obtain ⟨k, ha⟩ := readGroup_advances hi hu
    exact readGroup_inv hi ha
  · exact inv_shrinks hi hsh

theorem step_iff (hi : Inv s) (h : AtLeastOnce s) (hs : Step impl s e t) :
    AtLeastOnce t ↔ Harmless impl s e := by
  rcases local_step hi hs with ⟨env, trim, rfl⟩ | ⟨c, rfl⟩ | ⟨c, rfl⟩ | ⟨c, pc, done, hsh, hex⟩
  · exact publish_iff hi h hs
  · exact iff_of_true (read_keeps hi h hs) trivial
  · exact iff_of_false (readLost_loses hi hs) id
  · exact (shrinks_iff hi h hsh).trans hex.symm

def Lost (s : State β C) (id : Nat) : Prop :=
  Published s id ∧ ¬ Settled s id ∧ ¬ Readable s id ∧ ¬ InHand s id

theorem lost_local {id : Nat} (hl : Lost s id) (h : Local impl s e t) : Lost t id := by
  obtain ⟨hp, hns, hnr, hnh⟩ := hl
  obtain ⟨c, pc, done, hsh, _⟩ := h
  refine ⟨⟨hp.1, by rw [hsh.next]; exact hp.2⟩, ?_, ?_, ?_⟩
  · intro hset
    rcases (hsh.settled id).mp hset with hset | hd
    · exact hns hset
    · exact hnh ⟨c, (hsh.done_held id hd).1⟩
  · exact fun hr => hnr ((shrinks_readable hsh id).mp hr)
  · rintro ⟨c', hc'⟩
    exact hnh ⟨c', (shrinks_held hsh c').subset hc'⟩

omit [DecidableEq C] in
theorem readable_of_readGroup {id k : Nat} (ha : Advances s k) (h : Readable s.readGroup id) :
    Readable s id := by
  obtain ⟨x, hx, rfl⟩ := List.mem_map.mp h
  obtain ⟨hxe, hlt⟩ := mem_unread hx
  have := ha.forward
  rw [ha.cursor] at hlt
  exact List.mem_map_of_mem (List.mem_filter.mpr ⟨hxe, by simpa using this.trans hlt⟩)

theorem lost_step {id : Nat} (hi : Inv s) (hl : Lost s id) (hs : Step impl s e t) : Lost t id := by
  have ⟨hp, hns, hnr, hnh⟩ := hl
  rcases local_step hi hs with ⟨env, trim, rfl⟩ | ⟨c, rfl⟩ | ⟨c, rfl⟩ | h
  · obtain rfl := publish_step hs
    refine ⟨⟨hp.1, Nat.lt_succ_of_lt hp.2⟩, hns, ?_, hnh⟩
    intro hr
    obtain ⟨x, hx, rfl⟩ := List.mem_map.mp hr
    obtain ⟨hxe, hlt⟩ := List.mem_filter.mp hx
    rcases List.mem_append.mp ((List.drop_sublist _ _).subset hxe) with hxe | hxe
    · exact hnr (List.mem_map_of_mem (List.mem_filter.mpr ⟨hxe, hlt⟩))
    · obtain rfl := List.mem_singleton.mp hxe
      exact Nat.lt_irrefl _ hp.2
  · obtain ⟨hc, hu, rfl⟩ := read_step hs
    obtain ⟨k, ha⟩ := readGroup_advances hi hu
    refine ⟨hp, hns, fun hr => hnr (readable_of_readGroup ha hr), ?_⟩
    rintro ⟨c', hc'⟩
    rcases read_held hc' with ⟨_, hin⟩ | ⟨_, hin⟩
    · obtain ⟨x, hx, rfl⟩ := List.mem_map.mp hin
      exact hnr (List.mem_map_of_mem ((List.take_sublist _ _).subset hx))
    · exact hnh ⟨c', hin⟩
  · obtain ⟨hu, rfl⟩ := readLost_step hs
    obtain ⟨k, ha⟩ := readGroup_advances hi hu
    exact ⟨hp, hns, fun hr => hnr (readable_of_readGroup ha hr), hnh⟩
  · exact lost_local hl h

omit [DecidableEq C] in
theorem atLeastOnce_iff_not_lost : AtLeastOnce s ↔ ∀ id, ¬ Lost s id := by
  constructor
  · rintro h id ⟨hp, hns, hnr, hnh⟩
    rcases h id hp with hset | hr | hh
    · exact hns hset
    · exact hnr hr
    · exact hnh hh
  · intro h id hp
    by_contra hno
    simp only [not_or] at hno
    exact h id ⟨hp, hno.1, hno.2.1, hno.2.2⟩

theorem run_lost {id : Nat} {es : List (Event β C)} (hi : Inv s) (hl : Lost s id)
    (h : Run (Step impl) s es t) : Lost t id :=
  (run_invariant (I := fun s => Inv s ∧ Lost s id) h ⟨hi, hl⟩
    fun ⟨hi, hl⟩ hs => ⟨inv_step hi hs, lost_step hi hl hs⟩).2

theorem run_safe {es : List (Event β C)} (h : Run (Guarded (Step impl) (Harmless impl)) start es s) :
    Inv s ∧ AtLeastOnce s :=
  run_invariant (I := fun s => Inv s ∧ AtLeastOnce s) h
    ⟨inv_start, fun id hid => by have := hid.1; have := hid.2; simp only [start] at this; omega⟩
    fun ⟨hi, ha⟩ ⟨hs, hh⟩ => ⟨inv_step hi hs, (step_iff hi ha hs).mpr hh⟩

omit [DecidableEq C] in
theorem readGroup_unread (hi : Inv s) (hu : s.unread ≠ []) :
    s.readGroup.unread = s.unread.drop count := by
  obtain ⟨k, ha⟩ := readGroup_advances hi hu
  have hsorted : s.unread.Pairwise (fun x y => x.id < y.id) := hi.sorted.sublist List.filter_sublist
  have hpast : s.readGroup.unread = s.unread.filter fun x => k < x.id := by
    rw [State.unread, ha.cursor, State.unread, List.filter_filter]
    refine List.filter_congr fun x _ => ?_
    have := ha.forward
    rw [← Bool.decide_and]
    exact decide_eq_decide.mpr ⟨fun h => ⟨h, this.trans h⟩, fun h => h.1⟩
  have hdrop : ∀ x ∈ s.unread.drop count, k < x.id := by
    intro x hx
    rcases ha.left x ((List.drop_sublist _ _).subset hx) with ht | hlt
    · rw [← List.take_append_drop count s.unread] at hsorted
      exact ((List.pairwise_append.mp hsorted).2.2 x ht x hx).false.elim
    · exact hlt
  rw [hpast]
  conv_lhs => rw [← List.take_append_drop count s.unread]
  rw [List.filter_append, List.filter_eq_nil_iff.mpr, List.filter_eq_self.mpr, List.nil_append]
  · intro x hx
    simpa using hdrop x hx
  · intro x hx
    simpa using ha.taken x hx

-- Every read takes entries off the front, so what is readable now is returned after finitely many.
omit [DecidableEq C] in
theorem readable_returned (hi : Inv s) {id : Nat} (h : Readable s id) :
    ∃ n, id ∈ ids ((State.readGroup^[n] s).unread.take count) := by
  generalize hn : s.unread.length = n
  induction n using Nat.strongRecOn generalizing s with
  | ind n ih =>
    have hu : s.unread ≠ [] := by
      intro hnil
      simp [Readable, hnil] at h
    obtain ⟨k, ha⟩ := readGroup_advances hi hu
    rcases readGroup_readable ha h with ht | hr
    · exact ⟨0, ht⟩
    · have hlen : s.readGroup.unread.length < n := by
        rw [readGroup_unread hi hu, List.length_drop]
        have := List.length_pos_of_ne_nil hu
        simp only [count]
        omega
      obtain ⟨m, hm⟩ := ih _ hlen (readGroup_inv hi ha) hr rfl
      exact ⟨m + 1, by simpa [Function.iterate_succ_apply] using hm⟩

theorem at_least_once_of_harmless :
    (∀ es (s : State β C), Run (Guarded (Step impl) (Harmless impl)) start es s →
      AtLeastOnce s ∧ ∀ id, Readable s id → ∃ n, id ∈ ids ((State.readGroup^[n] s).unread.take count)) ∧
    (∀ es (s t u : State β C) e fs, Run (Guarded (Step impl) (Harmless impl)) start es s →
      Step impl s e t → ¬ Harmless impl s e → Run (Step impl) t fs u → ¬ AtLeastOnce u) := by
  refine ⟨fun es s h => ⟨(run_safe h).2, fun id hid => readable_returned (run_safe h).1 hid⟩, ?_⟩
  intro es s t u e fs hrun hstep hharm hrest hu
  obtain ⟨hi, ha⟩ := run_safe hrun
  have hnot : ¬ AtLeastOnce t := fun h => hharm ((step_iff hi ha hstep).mp h)
  rw [atLeastOnce_iff_not_lost] at hnot
  simp only [not_forall, not_not] at hnot
  obtain ⟨id, hid⟩ := hnot
  exact atLeastOnce_iff_not_lost.mp hu id (run_lost (inv_step hi hstep) hid hrest)

theorem at_least_once_acked : ∃ es, ∃ s : State Unit Unit,
    Run (Guarded (Step .node) (Harmless .node)) start es s ∧ 1 ∈ s.acked ∧ AtLeastOnce s := by
  have h1 := Run.next Run.start (show Guarded (Step .node) (Harmless .node)
    (start : State Unit Unit) (.publish (some ()) 0) _ from ⟨rfl, by simp [Harmless]⟩)
  have h2 := h1.next (show Guarded _ _ _ (.subscribe () true) _ from ⟨rfl, trivial⟩)
  have h3 := h2.next (show Guarded _ _ _ (.read ()) _ from ⟨rfl, trivial⟩)
  have h4 := h3.next (show Guarded _ _ _ (.handle () true) _ from ⟨rfl, rfl⟩)
  have h5 := h4.next (show Guarded _ _ _ (.ack () .ok) _ from ⟨rfl, rfl⟩)
  exact ⟨_, _, h5, by decide, (at_least_once_of_harmless.1 _ _ h5).1⟩

def oneThrow : List (Event Unit Unit) :=
  [.publish (some ()) 0, .subscribe () true, .read (), .handle () false, .again ()]

def forgotten : State Unit Unit where
  entries := [⟨1, some ()⟩]
  next := 2
  created := true
  lastDelivered := 1
  pending := [1]
  acked := ∅
  dropped := ∅
  consumers := fun _ => .reading

theorem lost_forgotten : Lost forgotten 1 := by
  refine ⟨by decide, by decide, by decide, ?_⟩
  rintro ⟨⟨⟩, h⟩
  simp [forgotten, Consumer.held] at h

theorem throw_loses_entry :
    (¬ ∀ es (s : State Unit Unit), Run (Step .node) start es s → AtLeastOnce s) ∧
    (¬ ∀ es (s : State Unit Unit), Run (Step .go) start es s → AtLeastOnce s) := by
  have hno := fun h => atLeastOnce_iff_not_lost.mp h 1 lost_forgotten
  exact ⟨fun h => hno (h oneThrow forgotten (run_of_foldlM rfl)),
    fun h => hno (h oneThrow forgotten (run_of_foldlM rfl))⟩

end Bus

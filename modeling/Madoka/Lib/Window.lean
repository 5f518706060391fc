import Mathlib.Algebra.GroupWithZero.Nat
import Mathlib.Order.Lattice
import Mathlib.Data.List.Pairwise

namespace Lib

-- What is kept of one source: when its window began, what it weighs, how long it is blocked.
structure Tally (τ : Type) where
  start : τ
  weight : Nat
  blocked : τ
  deriving DecidableEq, Repr

-- A fixed-window limiter. `never` is the block of a new tally, `renew` what a new window makes of
-- an old one, and `drop` the tallies that a maintenance pass forgets.
structure Window (τ : Type) [LinearOrder τ] where
  limit : Nat
  ended : τ → τ → Bool
  blockEnd : τ → τ
  never : τ
  renew : τ → τ
  drop : Tally τ → τ → Bool
  ended_self : ∀ a, ended a a = false
  ended_mono : ∀ {a b c}, ended a b = true → b ≤ c → ended a c = true
  never_le : ∀ a, never ≤ a
  renew_le : ∀ {a b}, a ≤ b → renew a ≤ b
  drop_idle : ∀ {t b}, drop t b = true → t.blocked ≤ b ∧ ended t.start b = true

inductive Act (τ : Type) where
  | hit (now : τ) (weight : Nat)
  | pass (now : τ)
  deriving DecidableEq, Repr

namespace Act

variable {τ : Type}

def now : Act τ → τ
  | hit now _ => now
  | pass now => now

def hits (xs : List (Act τ)) : List (τ × Nat) :=
  xs.filterMap fun
    | hit now w => some (now, w)
    | pass _ => none

theorem hits_append {xs ys : List (Act τ)} : hits (xs ++ ys) = hits xs ++ hits ys := List.filterMap_append

end Act

namespace Window

variable {τ : Type} [LinearOrder τ] (W : Window τ)

def count (t : Tally τ) (now : τ) (w : Nat) : Tally τ × Bool :=
  if W.limit < t.weight + w then ({ t with weight := t.weight + w, blocked := W.blockEnd now }, false)
  else ({ t with weight := t.weight + w }, true)

def check (t : Option (Tally τ)) (now : τ) (w : Nat) : Tally τ × Bool :=
  match t with
  | none => W.count ⟨now, 0, W.never⟩ now w
  | some t =>
    if now < t.blocked then (t, false)
    else W.count (if W.ended t.start now then ⟨now, 0, W.renew t.blocked⟩ else t) now w

def forget (t : Option (Tally τ)) (now : τ) : Option (Tally τ) := t.filter fun t => !W.drop t now

def opens (t : Option (Tally τ)) (now : τ) : Bool :=
  match t with
  | none => true
  | some t => decide (t.blocked ≤ now) && W.ended t.start now

def step (t : Option (Tally τ)) : Act τ → Option (Tally τ)
  | .hit now w => some (W.check t now w).1
  | .pass now => W.forget t now

def after (t : Option (Tally τ)) (xs : List (Act τ)) : Option (Tally τ) := xs.foldl W.step t

def granted (t : Option (Tally τ)) : List (Act τ) → List (τ × Nat)
  | [] => []
  | .hit now w :: xs =>
    (if (W.check t now w).2 then [(now, w)] else []) ++ granted (some (W.check t now w).1) xs
  | .pass now :: xs => granted (W.forget t now) xs

def load (a : τ) (ys : List (τ × Nat)) : Nat := ((ys.filter fun y => !W.ended a y.1).map Prod.snd).sum

variable {W} {t : Option (Tally τ)} {u : Tally τ} {a b now : τ} {w : Nat} {xs : List (Act τ)}
  {ys zs : List (τ × Nat)}

theorem load_append : W.load a (ys ++ zs) = W.load a ys + W.load a zs := by
  rw [load, List.filter_append, List.map_append, List.sum_append]
  rfl

theorem load_one (h : W.ended a now = false) : W.load a [(now, w)] = w := by
  rw [load, List.filter_cons, h]
  exact Nat.add_zero w

theorem load_cons (h : W.ended a now = false) : W.load a ((now, w) :: ys) = w + W.load a ys := by
  rw [← List.singleton_append, load_append, load_one h]

theorem load_ended (h : ∀ y ∈ ys, W.ended a y.1 = true) : W.load a ys = 0 := by
  rw [load, List.filter_eq_nil_iff.mpr]
  · rfl
  · intro y hy
    rw [h y hy]
    decide

theorem load_ones {ι : Type} {f : ι → τ} {is : List ι} :
    W.load a (is.map fun i => (f i, 1)) = is.countP fun i => !W.ended a (f i) := by
  induction is with
  | nil => rfl
  | cons i is ih =>
    rw [List.map_cons, List.countP_cons, ← ih]
    cases he : W.ended a (f i) with
    | false =>
      rw [load_cons he, Nat.add_comm]
      rfl
    | true =>
      rw [← List.singleton_append, load_append, load_ended]
      · exact Nat.zero_add _
      · intro y hy
        rw [List.mem_singleton.mp hy]
        exact he

theorem granted_mem : ∀ {t : Option (Tally τ)}, ∀ y ∈ W.granted t xs, y ∈ Act.hits xs := by
  induction xs with
  | nil =>
    intro t y hy
    cases hy
  | cons x xs ih =>
    intro t y hy
    cases x with
    | pass now => exact ih y hy
    | hit now w =>
      rcases List.mem_append.mp hy with hnow | hlater
      · split at hnow
        · rw [List.mem_singleton.mp hnow]
          exact List.mem_cons_self
        · cases hnow
      · exact List.mem_cons_of_mem _ (ih y hlater)

def Timely (xs : List (Act τ)) : Prop := xs.Pairwise fun x y => x.now ≤ y.now

theorem hits_le (h : ∀ x ∈ xs, b ≤ x.now) : ∀ y ∈ Act.hits xs, b ≤ y.1 := by
  intro y hy
  obtain ⟨x, hx, he⟩ := List.mem_filterMap.mp hy
  have hle := h x hx
  cases x with
  | hit now w =>
    cases he
    exact hle
  | pass now => cases he

theorem check_blocked (h : now < u.blocked) : W.check (some u) now w = (u, false) := if_pos h

theorem check_inside (h : u.blocked ≤ now) (he : W.ended u.start now = false) :
    W.check (some u) now w = W.count u now w := by
  rw [check, if_neg (not_lt.mpr h), he]
  rfl

theorem check_ended (h : u.blocked ≤ now) (he : W.ended u.start now = true) :
    W.check (some u) now w = W.count ⟨now, 0, W.renew u.blocked⟩ now w := by
  rw [check, if_neg (not_lt.mpr h), he]
  rfl

theorem check_opens (h : W.opens t now = true) :
    ∃ b ≤ now, W.check t now w = W.count ⟨now, 0, b⟩ now w := by
  cases t with
  | none => exact ⟨W.never, W.never_le now, rfl⟩
  | some u =>
    rw [opens, Bool.and_eq_true, decide_eq_true_eq] at h
    exact ⟨W.renew u.blocked, W.renew_le h.1, check_ended h.1 h.2⟩

theorem count_granted (h : (W.count u now w).2 = true) : (W.count u now w).1.blocked = u.blocked := by
  unfold count at h ⊢
  split at h
  · cases h
  · next hfit => rw [if_neg hfit]

theorem count_refused (h : (W.count u now w).2 = false) :
    (W.count u now w).1.blocked = W.blockEnd now := by
  unfold count at h ⊢
  split at h
  · next hover => rw [if_pos hover]
  · cases h

theorem check_granted {P : τ → Prop} (h : (W.check t now w).2 = true) (hnever : P W.never)
    (hb : ∀ u ∈ t, P u.blocked) (hrenew : ∀ {b}, P b → P (W.renew b)) :
    P (W.check t now w).1.blocked := by
  cases t with
  | none =>
    have hkept : (W.check none now w).1.blocked = W.never := count_granted h
    rw [hkept]
    exact hnever
  | some u =>
    by_cases hlt : now < u.blocked
    · rw [check_blocked hlt] at h
      cases h
    · cases he : W.ended u.start now with
      | true =>
        rw [check_ended (not_lt.mp hlt) he] at h ⊢
        rw [count_granted h]
        exact hrenew (hb u rfl)
      | false =>
        rw [check_inside (not_lt.mp hlt) he] at h ⊢
        rw [count_granted h]
        exact hb u rfl

theorem check_refused (hb : ∀ u ∈ t, u.blocked ≤ now) (hr : (W.check t now w).2 = false) :
    (W.check t now w).1.blocked = W.blockEnd now := by
  cases t with
  | none => exact count_refused hr
  | some u =>
    have hu := hb u rfl
    cases he : W.ended u.start now with
    | true =>
      rw [check_ended hu he] at hr ⊢
      exact count_refused hr
    | false =>
      rw [check_inside hu he] at hr ⊢
      exact count_refused hr

theorem forget_cases (t : Option (Tally τ)) (now : τ) : W.forget t now = t ∨
    W.forget t now = none ∧ ∃ u, t = some u ∧ u.blocked ≤ now ∧ W.ended u.start now = true := by
  cases t with
  | none => exact Or.inl rfl
  | some u =>
    cases hd : W.drop u now with
    | false =>
      left
      rw [forget, Option.filter_some, hd]
      rfl
    | true =>
      right
      refine ⟨?_, u, rfl, W.drop_idle hd⟩
      rw [forget, Option.filter_some, hd]
      rfl

theorem timely_hits (h : Timely (.hit now w :: xs)) : ∀ y ∈ Act.hits xs, now ≤ y.1 :=
  hits_le (List.pairwise_cons.mp h).1

theorem count_start : (W.count u now w).1.start = u.start := by
  unfold count
  split <;> rfl

theorem load_after (h : Timely (.hit now w :: xs)) (he : W.ended a now = true) :
    W.load a (W.granted t (.hit now w :: xs)) = 0 := by
  refine load_ended fun y hy => ?_
  rcases List.mem_cons.mp (granted_mem y hy) with rfl | hlater
  · exact he
  · exact W.ended_mono he (timely_hits h y hlater)

theorem load_pass (h : Timely (.pass now :: xs)) (he : W.ended a now = true) :
    W.load a (W.granted t xs) = 0 :=
  load_ended fun y hy => W.ended_mono he (hits_le (List.pairwise_cons.mp h).1 y (granted_mem y hy))

theorem count_bounded (he : W.ended u.start now = false)
    (ih : ∀ {v : Tally τ}, W.load v.start (W.granted (some v) xs) ≤ W.limit - v.weight) :
    W.load u.start ((if (W.count u now w).2 then [(now, w)] else []) ++
      W.granted (some (W.count u now w).1) xs) ≤ W.limit - u.weight := by
  have hlater := @ih (W.count u now w).1
  rw [count_start] at hlater
  unfold count at hlater ⊢
  split
  · next hover =>
    rw [if_pos hover] at hlater
    refine Nat.le_trans hlater ?_
    dsimp only
    omega
  · next hover =>
    rw [if_neg hover] at hlater
    have hone := @load_cons _ _ W u.start now w (W.granted (some { u with weight := u.weight + w }) xs) he
    change W.load u.start ((now, w) :: W.granted (some { u with weight := u.weight + w }) xs) ≤ _
    dsimp only at hlater
    omega

theorem load_granted (h : Timely xs) :
    ∀ {v : Tally τ}, W.load v.start (W.granted (some v) xs) ≤ W.limit - v.weight := by
  induction xs with
  | nil =>
    intro v
    exact Nat.zero_le _
  | cons x xs ih =>
    intro v
    have hxs : Timely xs := (List.pairwise_cons.mp h).2
    cases x with
    | pass now =>
      rcases W.forget_cases (some v) now with hsame | ⟨-, u, hu, -, he⟩
      · change W.load v.start (W.granted (W.forget (some v) now) xs) ≤ _
        rw [hsame]
        exact ih hxs
      · cases hu
        have hzero : W.load v.start (W.granted (W.forget (some v) now) xs) = 0 := load_pass h he
        exact Nat.le_trans (Nat.le_of_eq hzero) (Nat.zero_le _)
    | hit now w =>
      cases he : W.ended v.start now with
      | true => exact Nat.le_trans (Nat.le_of_eq (load_after h he)) (Nat.zero_le _)
      | false =>
        by_cases hb : now < v.blocked
        · change W.load v.start ((if (W.check (some v) now w).2 then [(now, w)] else []) ++
            W.granted (some (W.check (some v) now w).1) xs) ≤ _
          rw [check_blocked hb]
          exact ih hxs
        · have hcount := @count_bounded _ _ W v now w xs he fun {u} => ih hxs
          rw [← check_inside (not_lt.mp hb) he] at hcount
          exact hcount

theorem load_window (h : Timely (.hit now w :: xs)) (ho : W.opens t now = true) :
    W.load now (W.granted t (.hit now w :: xs)) ≤ W.limit := by
  obtain ⟨b, -, hc⟩ := check_opens (w := w) ho
  have hxs : Timely xs := (List.pairwise_cons.mp h).2
  have hcount := @count_bounded _ _ W ⟨now, 0, b⟩ now w xs (W.ended_self now) fun {u} =>
    load_granted hxs
  rw [← hc] at hcount
  exact hcount

theorem blocked_grants (h : Timely xs) : ∀ y ∈ W.granted (some u) xs, u.blocked ≤ y.1 := by
  induction xs with
  | nil =>
    intro y hy
    cases hy
  | cons x xs ih =>
    have hxs := ih (List.pairwise_cons.mp h).2
    rcases le_or_gt u.blocked x.now with hx | hx
    · have hle : ∀ z ∈ x :: xs, u.blocked ≤ z.now := by
        intro z hz
        rcases List.mem_cons.mp hz with rfl | hz
        · exact hx
        · exact le_trans hx ((List.pairwise_cons.mp h).1 z hz)
      exact fun y hy => hits_le hle y (granted_mem y hy)
    · cases x with
      | pass now =>
        have hsame : W.forget (some u) now = some u := by
          rcases W.forget_cases (some u) now with hsame | ⟨-, v, hv, hb, -⟩
          · exact hsame
          · cases hv
            exact absurd hx (not_lt.mpr hb)
        change ∀ y ∈ W.granted (W.forget (some u) now) xs, _
        rw [hsame]
        exact hxs
      | hit now w =>
        have hc : W.check (some u) now w = (u, false) := check_blocked hx
        change ∀ y ∈ (if (W.check (some u) now w).2 then [(now, w)] else []) ++
          W.granted (some (W.check (some u) now w).1) xs, _
        rw [hc]
        exact hxs

-- In each window that they open, the hits weigh at most the limit.
def Light (W : Window τ) (t : Option (Tally τ)) (xs : List (Act τ)) : Prop :=
  ∀ pre now w post, xs = pre ++ .hit now w :: post → W.opens (W.after t pre) now = true →
    W.load now (Act.hits (.hit now w :: post)) ≤ W.limit

theorem Light.tail {x : Act τ} (h : W.Light t (x :: xs)) : W.Light (W.step t x) xs := by
  intro pre now w post hxs ho
  exact h (x :: pre) now w post (by rw [hxs]; rfl) ho

-- The source is not blocked, and its window has room for what is still to come in it.
def Eased (W : Window τ) (xs : List (Act τ)) (u : Tally τ) : Prop :=
  (∀ x ∈ xs, u.blocked ≤ x.now) ∧ u.weight + W.load u.start (Act.hits xs) ≤ W.limit

theorem Eased.count (hb : u.blocked ≤ now) (h : Timely (.hit now w :: xs)) (he : W.ended u.start now = false)
    (hw : u.weight + W.load u.start (Act.hits (.hit now w :: xs)) ≤ W.limit) :
    (W.count u now w).2 = true ∧ W.Eased xs (W.count u now w).1 := by
  have hload : W.load u.start (Act.hits (.hit now w :: xs)) = w + W.load u.start (Act.hits xs) :=
    load_cons he
  have hfit : ¬ W.limit < u.weight + w := by omega
  unfold Window.count
  rw [if_neg hfit]
  refine ⟨rfl, fun x hx => le_trans hb ((List.pairwise_cons.mp h).1 x hx), ?_⟩
  dsimp only
  omega

theorem light_check (h : Timely (.hit now w :: xs)) (hl : W.Light t (.hit now w :: xs))
    (he : ∀ u ∈ t, W.Eased (.hit now w :: xs) u) :
    (W.check t now w).2 = true ∧ W.Eased xs (W.check t now w).1 := by
  cases ho : W.opens t now with
  | true =>
    obtain ⟨b, hb, hc⟩ := check_opens (w := w) ho
    rw [hc]
    refine Eased.count (u := ⟨now, 0, b⟩) hb h (W.ended_self now) ?_
    rw [Nat.zero_add]
    exact hl [] now w xs rfl ho
  | false =>
    cases t with
    | none => cases ho
    | some u =>
      obtain ⟨hb, hw⟩ := he u rfl
      have hnow : u.blocked ≤ now := hb _ List.mem_cons_self
      have hin : W.ended u.start now = false := by
        rw [opens, decide_eq_true hnow, Bool.true_and] at ho
        exact ho
      rw [check_inside hnow hin]
      exact Eased.count hnow h hin hw

theorem eased_step {x : Act τ} (h : Timely (x :: xs)) (hl : W.Light t (x :: xs))
    (he : ∀ u ∈ t, W.Eased (x :: xs) u) : ∀ u ∈ W.step t x, W.Eased xs u := by
  cases x with
  | pass now =>
    intro u hu
    have hkept : u ∈ t := by
      rcases W.forget_cases t now with hsame | ⟨hnone, -⟩
      · exact hsame ▸ hu
      · rw [step, hnone] at hu
        cases hu
    obtain ⟨hb, hw⟩ := he u hkept
    exact ⟨fun y hy => hb y (List.mem_cons_of_mem _ hy), hw⟩
  | hit now w =>
    intro u hu
    cases hu
    exact (light_check h hl he).2

theorem granted_light (h : Timely xs) (hl : W.Light t xs) (he : ∀ u ∈ t, W.Eased xs u) :
    W.granted t xs = Act.hits xs := by
  induction xs generalizing t with
  | nil => rfl
  | cons x xs ih =>
    have hlater := ih (List.pairwise_cons.mp h).2 hl.tail (eased_step h hl he)
    cases x with
    | pass now => exact hlater
    | hit now w =>
      change (if (W.check t now w).2 then [(now, w)] else []) ++ _ = (now, w) :: Act.hits xs
      rw [(light_check h hl he).1]
      exact congrArg ((now, w) :: ·) hlater

theorem light_after {pre : List (Act τ)} (h : Timely (pre ++ xs)) (hl : W.Light t (pre ++ xs))
    (he : ∀ u ∈ t, W.Eased (pre ++ xs) u) :
    W.Light (W.after t pre) xs ∧ ∀ u ∈ W.after t pre, W.Eased xs u := by
  induction pre generalizing t with
  | nil => exact ⟨hl, he⟩
  | cons x pre ih => exact ih (List.pairwise_cons.mp h).2 hl.tail (eased_step h hl he)

theorem light_verdict {pre : List (Act τ)} (h : Timely (pre ++ .hit now w :: xs))
    (hl : W.Light none (pre ++ .hit now w :: xs)) : (W.check (W.after none pre) now w).2 = true := by
  obtain ⟨hlight, heased⟩ := light_after h hl nofun
  exact (light_check (List.pairwise_append.mp h).2.1 hlight heased).1

def Idle (W : Window τ) (now : τ) (t : Option (Tally τ)) : Prop :=
  ∀ u ∈ t, u.blocked ≤ now ∧ W.ended u.start now = true

structure Alike (now : τ) (u v : Tally τ) : Prop where
  start : u.start = v.start
  weight : u.weight = v.weight
  blocked : u.blocked = v.blocked ∨ u.blocked ≤ now ∧ v.blocked ≤ now

def Same (W : Window τ) (now : τ) (t s : Option (Tally τ)) : Prop :=
  W.Idle now t ∧ W.Idle now s ∨ ∃ u v, t = some u ∧ s = some v ∧ Alike now u v

variable {s : Option (Tally τ)} {v : Tally τ}

theorem Same.refl (t : Option (Tally τ)) : W.Same now t t := by
  cases t with
  | none => exact Or.inl ⟨nofun, nofun⟩
  | some u => exact Or.inr ⟨u, u, rfl, rfl, rfl, rfl, Or.inl rfl⟩

theorem Idle.mono (h : W.Idle a t) (hab : a ≤ b) : W.Idle b t := by
  intro u hu
  obtain ⟨hb, he⟩ := h u hu
  exact ⟨le_trans hb hab, W.ended_mono he hab⟩

theorem Same.mono (h : W.Same a t s) (hab : a ≤ b) : W.Same b t s := by
  rcases h with ⟨ht, hs⟩ | ⟨u, v, hu, hv, hstart, hweight, hblocked⟩
  · exact Or.inl ⟨ht.mono hab, hs.mono hab⟩
  · refine Or.inr ⟨u, v, hu, hv, hstart, hweight, ?_⟩
    exact hblocked.imp_right fun hle => ⟨le_trans hle.1 hab, le_trans hle.2 hab⟩

theorem Same.symm (h : W.Same now t s) : W.Same now s t := by
  rcases h with ⟨ht, hs⟩ | ⟨u, v, hu, hv, hstart, hweight, hblocked⟩
  · exact Or.inl ⟨hs, ht⟩
  · refine Or.inr ⟨v, u, hv, hu, hstart.symm, hweight.symm, ?_⟩
    exact hblocked.imp Eq.symm And.symm

theorem Idle.opens (h : W.Idle now t) : W.opens t now = true := by
  cases t with
  | none => rfl
  | some u =>
    obtain ⟨hb, he⟩ := h u rfl
    rw [Window.opens, decide_eq_true hb, he]
    rfl

theorem Alike.count (h : Alike now u v) : (W.count u now w).2 = (W.count v now w).2 ∧
    Alike now (W.count u now w).1 (W.count v now w).1 ∧
    ((W.count u now w).2 = false → (W.count u now w).1.blocked = (W.count v now w).1.blocked) := by
  unfold Window.count
  rw [← h.weight]
  split
  · exact ⟨rfl, ⟨h.start, rfl, Or.inl rfl⟩, fun _ => rfl⟩
  · exact ⟨rfl, ⟨h.start, rfl, h.blocked⟩, nofun⟩

theorem Same.opens (h : W.Same now t s) : W.opens t now = W.opens s now := by
  rcases h with ⟨ht, hs⟩ | ⟨u, v, rfl, rfl, hstart, -, hblocked⟩
  · rw [ht.opens, hs.opens]
  · rw [Window.opens, Window.opens, hstart]
    rcases hblocked with he | ⟨hu, hv⟩
    · rw [he]
    · rw [decide_eq_true hu, decide_eq_true hv]

theorem Same.check (h : W.Same now t s) : (W.check t now w).2 = (W.check s now w).2 ∧
    Alike now (W.check t now w).1 (W.check s now w).1 ∧
    ((W.check t now w).2 = false → (W.check t now w).1.blocked = (W.check s now w).1.blocked) := by
  cases ho : W.opens t now with
  | true =>
    obtain ⟨b, hb, ht⟩ := check_opens (w := w) ho
    obtain ⟨c, hc, hs⟩ := check_opens (w := w) (h.opens ▸ ho)
    rw [ht, hs]
    exact Alike.count ⟨rfl, rfl, Or.inr ⟨hb, hc⟩⟩
  | false =>
    rcases h with ⟨ht, -⟩ | ⟨u, v, rfl, rfl, ha⟩
    · rw [ht.opens] at ho
      cases ho
    · by_cases hb : now < u.blocked
      · have heq : u.blocked = v.blocked := ha.blocked.resolve_right fun hle => not_lt.mpr hle.1 hb
        rw [check_blocked hb, check_blocked (heq ▸ hb)]
        exact ⟨rfl, ha, fun _ => heq⟩
      · have hu : u.blocked ≤ now := not_lt.mp hb
        have hv : v.blocked ≤ now := by
          rcases ha.blocked with heq | hle
          · exact heq ▸ hu
          · exact hle.2
        have hin : W.ended u.start now = false := by
          rw [Window.opens, decide_eq_true hu, Bool.true_and] at ho
          exact ho
        rw [check_inside hu hin, check_inside hv (ha.start ▸ hin)]
        exact ha.count

theorem Same.forget (h : W.Same now t s) : W.Same now (W.forget t now) s := by
  rcases W.forget_cases t now with hsame | ⟨hnone, u, rfl, hb, he⟩
  · rw [hsame]
    exact h
  · rw [hnone]
    refine Or.inl ⟨nofun, ?_⟩
    rcases h with ⟨-, hs⟩ | ⟨u', v, hu, rfl, ha⟩
    · exact hs
    · cases hu
      intro v' hv
      cases hv
      refine ⟨?_, ha.start ▸ he⟩
      rcases ha.blocked with heq | hle
      · exact heq ▸ hb
      · exact hle.2

end Window

end Lib

import Mathlib.Data.NNRat.Floor
import Mathlib.Logic.Function.Basic
import Madoka.Lib.Window

namespace RateLimit

open Lib

structure Limiter where
  windowMs : NNRat
  max : NNRat
  blockMs : NNRat
  windowMs_pos : 0 < windowMs
  max_pos : 0 < max
  blockMs_pos : 0 < blockMs

-- `none` is an argument that is no finite number.
def positive (name : String) : Option Rat → Except String { q : NNRat // 0 < q }
  | some q => if h : 0 < q then .ok ⟨⟨q, le_of_lt h⟩, h⟩ else .error (name ++ " must be a positive number")
  | none => .error (name ++ " must be a positive number")

def createRateLimiter (windowMs max blockMs : Option Rat) : Except String Limiter := do
  let ⟨windowMs, hw⟩ ← positive "windowMs" windowMs
  let ⟨max, hm⟩ ← positive "max" max
  let ⟨blockMs, hb⟩ ← positive "blockMs" blockMs
  return ⟨windowMs, max, blockMs, hw, hm, hb⟩

theorem positive_ok {name : String} {q : NNRat} (h : 0 < q) :
    positive name (some q) = .ok ⟨q, h⟩ := dif_pos h

theorem createRateLimiter_ok (c : Limiter) :
    createRateLimiter (some c.windowMs) (some c.max) (some c.blockMs) = .ok c := by
  rw [createRateLimiter, positive_ok c.windowMs_pos, positive_ok c.max_pos, positive_ok c.blockMs_pos]
  rfl

structure Entry where
  count : Nat
  windowStart : NNRat
  blockedUntil : NNRat
  deriving DecidableEq

-- 429 carries the seconds of Retry-After.
inductive Reply where
  | next
  | rateLimited (retryAfter : Nat)
  deriving DecidableEq, Repr

def respond429 (retryAfterMs : NNRat) : Reply := .rateLimited (Nat.max 1 ⌈retryAfterMs / 1000⌉₊)

section store

variable {κ : Type} [DecidableEq κ]

def prune (c : Limiter) (store : κ → Option Entry) (now : NNRat) : κ → Option Entry := fun key =>
  (store key).filter fun entry =>
    let windowEnd := entry.windowStart + c.windowMs
    let stillBlocked := decide (now < entry.blockedUntil)
    !(!stillBlocked && decide (windowEnd < now))

def charge (c : Limiter) (store : κ → Option Entry) (key : κ) (entry : Entry) (now : NNRat) :
    (κ → Option Entry) × Reply :=
  let entry := { entry with count := entry.count + 1 }
  if c.max < entry.count then
    (Function.update store key (some { entry with blockedUntil := now + c.blockMs }),
      respond429 c.blockMs)
  else (Function.update store key (some entry), .next)

def rateLimit (c : Limiter) (store : κ → Option Entry) (key : κ) (now : NNRat) :
    (κ → Option Entry) × Reply :=
  match (store key).filter fun entry => now < entry.blockedUntil with
  | some entry => (store, respond429 (entry.blockedUntil - now))
  | none =>
    let entry : Entry :=
      match store key with
      | some entry => if entry.windowStart + c.windowMs < now then ⟨0, now, 0⟩ else entry
      | none => ⟨0, now, 0⟩
    charge c store key entry now

inductive Call (κ : Type) where
  | request (key : κ) (now : NNRat)
  | prune (now : NNRat)
  deriving DecidableEq

def Call.now : Call κ → NNRat
  | .request _ now => now
  | .prune now => now

structure Answer (κ : Type) where
  key : κ
  now : NNRat
  reply : Reply
  deriving DecidableEq

def tick (c : Limiter) (store : κ → Option Entry) : Call κ → κ → Option Entry
  | .request key now => (rateLimit c store key now).1
  | .prune now => prune c store now

def afterCalls (c : Limiter) (store : κ → Option Entry) (es : List (Call κ)) : κ → Option Entry :=
  es.foldl (tick c) store

def answers (c : Limiter) (store : κ → Option Entry) : List (Call κ) → List (Answer κ)
  | [] => []
  | .request key now :: es =>
    ⟨key, now, (rateLimit c store key now).2⟩ :: answers c (rateLimit c store key now).1 es
  | .prune now :: es => answers c (prune c store now) es

def beginsWindow (c : Limiter) (store : κ → Option Entry) (key : κ) (now : NNRat) : Prop :=
  ∀ entry ∈ store key, entry.blockedUntil ≤ now ∧ entry.windowStart + c.windowMs < now

end store

def Entry.tally (entry : Entry) : Tally NNRat := ⟨entry.windowStart, entry.count, entry.blockedUntil⟩

def Limiter.window (c : Limiter) : Window NNRat where
  limit := ⌊c.max⌋₊
  ended a b := decide (a + c.windowMs < b)
  blockEnd now := now + c.blockMs
  never := 0
  renew _ := 0
  drop t now := !decide (now < t.blocked) && decide (t.start + c.windowMs < now)
  ended_self a := decide_eq_false (not_lt.mpr (le_add_of_nonneg_right zero_le))
  ended_mono h hbc := decide_eq_true (lt_of_lt_of_le (of_decide_eq_true h) hbc)
  never_le _ := zero_le
  renew_le _ := zero_le
  drop_idle := by
    intro t b h
    rw [Bool.and_eq_true, Bool.not_eq_true', decide_eq_false_iff_not, not_lt] at h
    exact h

variable {κ : Type} [DecidableEq κ] {c : Limiter} {store store' : κ → Option Entry} {key k : κ}
  {now : NNRat} {es : List (Call κ)}

def tallyOf (store : κ → Option Entry) (key : κ) : Option (Tally NNRat) := (store key).map Entry.tally

theorem count_exceeds (c : Limiter) (n : Nat) : c.window.limit < n ↔ c.max < n :=
  Nat.floor_lt zero_le

theorem tallyOf_update (key : κ) (entry : Entry) :
    tallyOf (Function.update store key (some entry)) key = some entry.tally := by
  rw [tallyOf, Function.update_self]
  rfl

theorem charge_count (entry : Entry) : tallyOf (charge c store key entry now).1 key =
      some (c.window.count entry.tally now 1).1 ∧
    (charge c store key entry now).2 =
      if (c.window.count entry.tally now 1).2 then .next
      else respond429 ((c.window.count entry.tally now 1).1.blocked - now) := by
  have hiff : c.window.limit < entry.tally.weight + 1 ↔ c.max < ((entry.count + 1 : Nat) : NNRat) :=
    count_exceeds c (entry.count + 1)
  unfold Window.count charge
  dsimp only
  by_cases hover : c.max < ((entry.count + 1 : Nat) : NNRat)
  · rw [if_pos hover, if_pos (hiff.mpr hover)]
    refine ⟨tallyOf_update key _, ?_⟩
    change respond429 c.blockMs = respond429 (now + c.blockMs - now)
    rw [add_tsub_cancel_left]
  · rw [if_neg hover, if_neg fun h => hover (hiff.mp h)]
    exact ⟨tallyOf_update key _, rfl⟩

theorem rateLimit_blocked {entry : Entry} (hs : store key = some entry) (hb : now < entry.blockedUntil) :
    rateLimit c store key now = (store, respond429 (entry.blockedUntil - now)) := by
  rw [rateLimit, hs, Option.filter_some, decide_eq_true hb]
  rfl

theorem rateLimit_charge {entry : Entry} (hs : store key = some entry) (hb : entry.blockedUntil ≤ now) :
    rateLimit c store key now = charge c store key
      (if entry.windowStart + c.windowMs < now then ⟨0, now, 0⟩ else entry) now := by
  rw [rateLimit, hs, Option.filter_some, decide_eq_false (not_lt.mpr hb)]
  rfl

theorem rateLimit_new (hs : store key = none) :
    rateLimit c store key now = charge c store key ⟨0, now, 0⟩ now := by
  rw [rateLimit, hs]
  rfl

theorem rateLimit_check : tallyOf (rateLimit c store key now).1 key =
      some (c.window.check (tallyOf store key) now 1).1 ∧
    (rateLimit c store key now).2 =
      if (c.window.check (tallyOf store key) now 1).2 then .next
      else respond429 ((c.window.check (tallyOf store key) now 1).1.blocked - now) := by
  cases hs : store key with
  | none =>
    have htally : tallyOf store key = none := by rw [tallyOf, hs]; rfl
    rw [htally, rateLimit_new hs]
    exact charge_count ⟨0, now, 0⟩
  | some entry =>
    have htally : tallyOf store key = some entry.tally := by rw [tallyOf, hs]; rfl
    by_cases hb : now < entry.blockedUntil
    · have hblocked : c.window.check (some entry.tally) now 1 = (entry.tally, false) :=
        Window.check_blocked hb
      rw [rateLimit_blocked hs hb, htally, hblocked]
      exact ⟨rfl, rfl⟩
    · have hb := not_lt.mp hb
      rw [rateLimit_charge hs hb, htally]
      split
      · next he =>
        have hended : c.window.check (some entry.tally) now 1 = c.window.count ⟨now, 0, 0⟩ now 1 :=
          Window.check_ended hb (decide_eq_true he)
        rw [hended]
        exact charge_count ⟨0, now, 0⟩
      · next he =>
        have hinside : c.window.check (some entry.tally) now 1 = c.window.count entry.tally now 1 :=
          Window.check_inside hb (decide_eq_false he)
        rw [hinside]
        exact charge_count entry

theorem charge_other (entry : Entry) (hne : k ≠ key) : (charge c store key entry now).1 k = store k := by
  unfold charge
  dsimp only
  split
  · exact Function.update_of_ne hne ..
  · exact Function.update_of_ne hne ..

theorem rateLimit_other (hne : k ≠ key) : (rateLimit c store key now).1 k = store k := by
  unfold rateLimit
  split
  · rfl
  · exact charge_other _ hne

omit [DecidableEq κ] in
theorem prune_forget (key : κ) :
    tallyOf (prune c store now) key = c.window.forget (tallyOf store key) now := by
  unfold tallyOf prune Window.forget
  cases store key with
  | none => rfl
  | some entry =>
    rw [Option.map_some, Option.filter_some, Option.filter_some]
    change Option.map Entry.tally (if (!(!decide (now < entry.blockedUntil) &&
        decide (entry.windowStart + c.windowMs < now))) = true then some entry else none) =
      if (!(!decide (now < entry.blockedUntil) &&
        decide (entry.windowStart + c.windowMs < now))) = true then some entry.tally else none
    split <;> rfl

omit [DecidableEq κ] in
theorem beginsWindow_iff : beginsWindow c store key now ↔ c.window.opens (tallyOf store key) now = true := by
  unfold beginsWindow tallyOf
  cases store key with
  | none => exact iff_of_true nofun rfl
  | some entry =>
    rw [Option.map_some, Window.opens, Bool.and_eq_true, decide_eq_true_eq]
    constructor
    · intro h
      obtain ⟨hb, he⟩ := h entry rfl
      exact ⟨hb, decide_eq_true he⟩
    · rintro ⟨hb, he⟩ entry' hentry
      cases hentry
      exact ⟨hb, of_decide_eq_true he⟩

def Call.act (k : κ) : Call κ → Option (Act NNRat)
  | .request key now => if key = k then some (.hit now 1) else none
  | .prune now => some (.pass now)

def acts (k : κ) (es : List (Call κ)) : List (Act NNRat) := es.filterMap (Call.act k)

theorem acts_own : acts k (.request k now :: es) = .hit now 1 :: acts k es :=
  List.filterMap_cons_some (if_pos rfl)

theorem acts_other (hne : key ≠ k) : acts k (.request key now :: es) = acts k es :=
  List.filterMap_cons_none (if_neg hne)

theorem tick_own : tallyOf (tick c store (.request k now)) k =
    c.window.step (tallyOf store k) (.hit now 1) := rateLimit_check.1

theorem tick_other (hne : key ≠ k) : tallyOf (tick c store (.request key now)) k = tallyOf store k :=
  congrArg (Option.map Entry.tally) (rateLimit_other hne.symm)

theorem afterCalls_after : tallyOf (afterCalls c store es) k = c.window.after (tallyOf store k) (acts k es) := by
  induction es generalizing store with
  | nil => rfl
  | cons e es ih =>
    change tallyOf (afterCalls c (tick c store e) es) k = _
    rw [ih]
    cases e with
    | prune now =>
      change c.window.after (tallyOf (prune c store now) k) (acts k es) = _
      rw [prune_forget]
      rfl
    | request key now =>
      by_cases hk : key = k
      · subst hk
        rw [tick_own, acts_own]
        rfl
      · rw [tick_other hk, acts_other hk]

def admitted (k : κ) (as : List (Answer κ)) : List (NNRat × Nat) :=
  (as.filter fun a => a.key = k ∧ a.reply = .next).map fun a => (a.now, 1)

theorem answers_granted : admitted k (answers c store es) = c.window.granted (tallyOf store k) (acts k es) := by
  induction es generalizing store with
  | nil => rfl
  | cons e es ih =>
    cases e with
    | prune now =>
      change admitted k (answers c (prune c store now) es) = _
      rw [ih, prune_forget]
      rfl
    | request key now =>
      change admitted k (⟨key, now, (rateLimit c store key now).2⟩ ::
        answers c (tick c store (.request key now)) es) = _
      rw [admitted, List.filter_cons]
      by_cases hk : key = k
      · subst hk
        have hstep : tallyOf (tick c store (.request key now)) key =
          some (c.window.check (tallyOf store key) now 1).1 := tick_own
        rw [acts_own, Window.granted, ← hstep, ← ih]
        obtain ⟨-, hreply⟩ := @rateLimit_check κ _ c store key now
        cases hc : (c.window.check (tallyOf store key) now 1).2 with
        | true =>
          rw [hc, if_pos rfl] at hreply
          rw [if_pos (by rw [decide_eq_true_eq]; exact ⟨rfl, hreply⟩)]
          rfl
        | false =>
          rw [hc, if_neg Bool.false_ne_true] at hreply
          rw [if_neg]
          · rfl
          · rw [decide_eq_true_eq, hreply]
            rintro ⟨-, h⟩
            cases h
      · rw [if_neg (by rw [decide_eq_true_eq]; exact fun h => hk h.1), acts_other hk]
        rw [← tick_other hk, ← ih]
        rfl

def requests (k : κ) (es : List (Call κ)) : List NNRat :=
  es.filterMap fun
    | .request key now => if key = k then some now else none
    | .prune _ => none

-- The requests of a key that are let through from the first of these calls to the end of its window.
def letThrough (c : Limiter) (store : κ → Option Entry) (k : κ) (now : NNRat) (es : List (Call κ)) : Nat :=
  ((answers c store es).filter fun a => a.key = k ∧ a.reply = .next).countP fun a =>
    a.now ≤ now + c.windowMs

theorem requests_own : requests k (.request k now :: es) = now :: requests k es :=
  List.filterMap_cons_some (if_pos rfl)

theorem requests_other (hne : key ≠ k) : requests k (.request key now :: es) = requests k es :=
  List.filterMap_cons_none (if_neg hne)

theorem hits_requests : Act.hits (acts k es) = (requests k es).map fun now => (now, 1) := by
  induction es with
  | nil => rfl
  | cons e es ih =>
    cases e with
    | prune now => exact ih
    | request key now =>
      by_cases hk : key = k
      · subst hk
        rw [acts_own, requests_own, List.map_cons, ← ih]
        rfl
      · rw [acts_other hk, requests_other hk, ih]

theorem ended_not (c : Limiter) (a b : NNRat) : (!c.window.ended a b) = decide (b ≤ a + c.windowMs) := by
  change (!decide (a + c.windowMs < b)) = _
  rw [← decide_not]
  exact decide_eq_decide.mpr not_lt

theorem load_admitted : c.window.load now (admitted k (answers c store es)) = letThrough c store k now es := by
  rw [admitted, Window.load_ones, letThrough]
  exact List.countP_congr fun a _ => by rw [ended_not]

theorem load_requests : c.window.load now (Act.hits (acts k es)) =
    (requests k es).countP fun b => b ≤ now + c.windowMs := by
  rw [hits_requests, Window.load_ones]
  exact List.countP_congr fun b _ => by rw [ended_not]

theorem act_now {e : Call κ} {a : Act NNRat} (h : a ∈ Call.act k e) : a.now = e.now := by
  cases e with
  | prune now =>
    cases h
    rfl
  | request key now =>
    by_cases hk : key = k
    · rw [Call.act, if_pos hk] at h
      cases h
      rfl
    · rw [Call.act, if_neg hk] at h
      cases h

theorem acts_timely (h : es.Pairwise fun x y => x.now ≤ y.now) : Window.Timely (acts k es) := by
  refine List.Pairwise.filterMap (Call.act k) ?_ h
  intro x y hxy a ha b hb
  rw [act_now ha, act_now hb]
  exact hxy

theorem acts_append (k : κ) (es fs : List (Call κ)) : acts k (es ++ fs) = acts k es ++ acts k fs :=
  List.filterMap_append

theorem letThrough_max (h : (Call.request k now :: es).Pairwise fun x y => x.now ≤ y.now)
    (hb : beginsWindow c store k now) : (letThrough c store k now (.request k now :: es) : NNRat) ≤ c.max := by
  have htimely : Window.Timely (.hit now 1 :: acts k es) := by
    rw [← acts_own]
    exact acts_timely h
  have hload := @Window.load_window _ _ c.window (tallyOf store k) now 1 (acts k es) htimely
    (beginsWindow_iff.mp hb)
  rw [← acts_own, ← answers_granted, load_admitted] at hload
  exact (Nat.le_floor_iff zero_le).mp hload

omit [DecidableEq κ] in
theorem tallyOf_some {entry : Entry} (h : entry ∈ store k) : tallyOf store k = some entry.tally :=
  congrArg (Option.map Entry.tally) h

theorem blocked_refuses {entry : Entry} (hs : entry ∈ store k) (h : es.Pairwise fun x y => x.now ≤ y.now) :
    ∀ a ∈ answers c store es, a.key = k → a.now < entry.blockedUntil → a.reply ≠ .next := by
  intro a ha hk hb hnext
  have hmem : (a.now, 1) ∈ c.window.granted (some entry.tally) (acts k es) := by
    rw [← tallyOf_some hs, ← answers_granted]
    refine List.mem_map_of_mem (List.mem_filter.mpr ⟨ha, ?_⟩)
    rw [decide_eq_true_eq]
    exact ⟨hk, hnext⟩
  exact absurd hb (not_lt.mpr (Window.blocked_grants (acts_timely h) _ hmem))

theorem trip_blocks (hb : ∀ entry ∈ store k, entry.blockedUntil ≤ now)
    (hr : (rateLimit c store k now).2 ≠ .next) :
    ∃ entry ∈ (rateLimit c store k now).1 k, entry.blockedUntil = now + c.blockMs := by
  have htrip : ∀ entry : Entry, (charge c store k entry now).2 ≠ .next →
      ∃ entry' ∈ (charge c store k entry now).1 k, entry'.blockedUntil = now + c.blockMs := by
    intro entry hne
    unfold charge at hne ⊢
    dsimp only at hne ⊢
    split at hne
    · next hover =>
      rw [if_pos hover]
      exact ⟨_, Function.update_self .., rfl⟩
    · exact absurd rfl hne
  cases hs : store k with
  | none =>
    rw [rateLimit_new hs] at hr ⊢
    exact htrip _ hr
  | some entry =>
    rw [rateLimit_charge hs (hb entry hs)] at hr ⊢
    exact htrip _ hr

def Call.concerns (k : κ) : Call κ → Bool
  | .request key _ => key = k
  | .prune _ => true

def answersTo (k : κ) (as : List (Answer κ)) : List (Answer κ) := as.filter fun a => a.key = k

theorem answersTo_own {r : Reply} {as : List (Answer κ)} :
    answersTo k (⟨k, now, r⟩ :: as) = ⟨k, now, r⟩ :: answersTo k as :=
  List.filter_cons_of_pos (decide_eq_true rfl)

theorem answersTo_other {r : Reply} {as : List (Answer κ)} (hne : key ≠ k) :
    answersTo k (⟨key, now, r⟩ :: as) = answersTo k as :=
  List.filter_cons_of_neg (by rw [decide_eq_true_eq]; exact hne)

theorem answers_own (h : tallyOf store k = tallyOf store' k) :
    answersTo k (answers c store es) = answers c store' (es.filter (Call.concerns k)) := by
  induction es generalizing store store' with
  | nil => rfl
  | cons e es ih =>
    cases e with
    | prune now =>
      refine ih ?_
      rw [prune_forget, prune_forget, h]
    | request key now =>
      by_cases hk : key = k
      · subst hk
        obtain ⟨htally, hreply⟩ := @rateLimit_check κ _ c store key now
        obtain ⟨htally', hreply'⟩ := @rateLimit_check κ _ c store' key now
        have hlater := @ih (rateLimit c store key now).1 (rateLimit c store' key now).1
          (by rw [htally, htally', h])
        have hown : (Call.request key now :: es).filter (Call.concerns key) =
            .request key now :: es.filter (Call.concerns key) := List.filter_cons_of_pos (decide_eq_true rfl)
        rw [hown, answers, answers, answersTo_own, hlater, hreply, hreply', h]
      · have hlater := @ih (rateLimit c store key now).1 store' ((tick_other hk).trans h)
        rw [List.filter_cons_of_neg (by rw [Call.concerns, decide_eq_true_eq]; exact hk), answers,
          answersTo_other hk, hlater]

-- Stores that tell every key the same from now on.
def Equivalent (c : Limiter) (now : NNRat) (store store' : κ → Option Entry) : Prop :=
  ∀ key, c.window.Same now (tallyOf store key) (tallyOf store' key)

theorem Equivalent.request {now' : NNRat} (h : Equivalent c now store store') (hn : now ≤ now') :
    (rateLimit c store key now').2 = (rateLimit c store' key now').2 ∧
      Equivalent c now' (rateLimit c store key now').1 (rateLimit c store' key now').1 := by
  obtain ⟨htally, hreply⟩ := @rateLimit_check κ _ c store key now'
  obtain ⟨htally', hreply'⟩ := @rateLimit_check κ _ c store' key now'
  obtain ⟨hverdict, halike, hblocked⟩ := ((h key).mono hn).check (w := 1)
  constructor
  · rw [hreply, hreply', ← hverdict]
    split
    · rfl
    · next hno => rw [hblocked (Bool.not_eq_true _ ▸ hno)]
  · intro k
    by_cases hk : k = key
    · subst hk
      rw [htally, htally']
      exact Or.inr ⟨_, _, rfl, rfl, halike⟩
    · rw [tallyOf, tallyOf, rateLimit_other hk, rateLimit_other hk]
      exact (h k).mono hn

omit [DecidableEq κ] in
theorem Equivalent.forget (h : Equivalent c now store store') :
    Equivalent c now (prune c store now) store' := by
  intro k
  rw [prune_forget]
  exact (h k).forget

omit [DecidableEq κ] in
theorem Equivalent.mono {now' : NNRat} (h : Equivalent c now store store') (hn : now ≤ now') :
    Equivalent c now' store store' := fun k => (h k).mono hn

omit [DecidableEq κ] in
theorem Equivalent.symm (h : Equivalent c now store store') : Equivalent c now store' store :=
  fun k => (h k).symm

theorem Equivalent.answers_eq (h : Equivalent c now store store') (hn : ∀ e ∈ es, now ≤ e.now)
    (ht : es.Pairwise fun x y => x.now ≤ y.now) : answers c store es = answers c store' es := by
  induction es generalizing now store store' with
  | nil => rfl
  | cons e es ih =>
    obtain ⟨hlater, htail⟩ := List.pairwise_cons.mp ht
    have hnow := hn e List.mem_cons_self
    cases e with
    | request key now' =>
      obtain ⟨hreply, hsame⟩ := @Equivalent.request κ _ c store store' key now now' h hnow
      rw [answers, answers, hreply, ih hsame hlater htail]
    | prune now' =>
      exact ih (h.mono hnow).forget.symm.forget.symm hlater htail

theorem answers_append {fs : List (Call κ)} : answers c store (es ++ fs) =
    answers c store es ++ answers c (afterCalls c store es) fs := by
  induction es generalizing store with
  | nil => rfl
  | cons e es ih =>
    cases e with
    | request key now => exact congrArg _ ih
    | prune now => exact ih

theorem prune_unseen (h : (Call.prune now :: es).Pairwise fun x y => x.now ≤ y.now) :
    answers c (prune c store now) es = answers c store es := by
  obtain ⟨hlater, ht⟩ := List.pairwise_cons.mp h
  have hrefl : Equivalent c now store store := fun k => Window.Same.refl _
  exact hrefl.forget.answers_eq hlater ht

-- A key whose requests stay within the limit in each of its windows.
def Modest (c : Limiter) (k : κ) (es : List (Call κ)) : Prop :=
  ∀ pre now post, es = pre ++ .request k now :: post →
    beginsWindow c (afterCalls c (fun _ => none) pre) k now →
      ((requests k (.request k now :: post)).countP (fun b => b ≤ now + c.windowMs) : NNRat) ≤ c.max

theorem acts_split {pre : List (Act NNRat)} {w : Nat} {post : List (Act NNRat)}
    (h : acts k es = pre ++ .hit now w :: post) : ∃ pre' post', es = pre' ++ .request k now :: post' ∧
      acts k pre' = pre ∧ w = 1 ∧ acts k post' = post := by
  obtain ⟨pre', rest, rfl, hpre, hrest⟩ := List.filterMap_eq_append_iff.mp h
  obtain ⟨skip, e, post', rfl, hskip, he, hpost⟩ := List.filterMap_eq_cons_iff.mp hrest
  cases e with
  | prune now => cases he
  | request key now' =>
    by_cases hk : key = k
    · subst hk
      rw [Call.act, if_pos rfl] at he
      cases he
      refine ⟨pre' ++ skip, post', by rw [List.append_assoc], ?_, rfl, hpost⟩
      have hnone : acts key skip = [] := List.filterMap_eq_nil_iff.mpr hskip
      rw [acts_append, hnone, List.append_nil]
      exact hpre
    · rw [Call.act, if_neg hk] at he
      cases he

theorem Modest.light (h : Modest c k es) : c.window.Light none (acts k es) := by
  intro pre now w post hsplit ho
  obtain ⟨pre', post', rfl, rfl, rfl, rfl⟩ := acts_split hsplit
  have hbegins : beginsWindow c (afterCalls c (fun _ => none) pre') k now := by
    rw [beginsWindow_iff, afterCalls_after]
    exact ho
  rw [← acts_own, load_requests]
  exact (Nat.le_floor_iff zero_le).mpr (h pre' now post' rfl hbegins)

theorem answered : (answersTo k (answers c store es)).map Answer.now = requests k es := by
  induction es generalizing store with
  | nil => rfl
  | cons e es ih =>
    cases e with
    | prune now => exact ih
    | request key now =>
      by_cases hk : key = k
      · subst hk
        rw [answers, answersTo_own, List.map_cons, ih, requests_own]
      · rw [answers, answersTo_other hk, ih, requests_other hk]

theorem Modest.served (h : Modest c k es) (ht : es.Pairwise fun x y => x.now ≤ y.now) :
    ∀ a ∈ answers c (fun _ => none) es, a.key = k → a.reply = .next := by
  intro a ha hk
  have hall : admitted k (answers c (fun _ => none) es) = Act.hits (acts k es) := by
    rw [answers_granted]
    exact Window.granted_light (acts_timely ht) h.light nofun
  have hlen := congrArg List.length (hall.trans (hits_requests.trans (congrArg _ (@answered _ _ c (fun _ => none) k es).symm)))
  rw [admitted, List.length_map, List.length_map, List.length_map] at hlen
  have hsub : (answers c (fun _ => none) es).filter (fun a => a.key = k ∧ a.reply = .next) =
      (answersTo k (answers c (fun _ => none) es)).filter fun a => a.reply = .next := by
    rw [answersTo, List.filter_filter]
    exact List.filter_congr fun a _ => by rw [Bool.decide_and, Bool.and_comm]
  rw [hsub] at hlen
  have hfull := List.filter_eq_self.mp (List.filter_sublist.eq_of_length hlen)
  exact of_decide_eq_true (hfull a (List.mem_filter.mpr ⟨ha, decide_eq_true hk⟩))

theorem limiter_exact (c : Limiter) {es : List (Call κ)} (h : es.Pairwise fun x y => x.now ≤ y.now) :
    (∀ pre k now post, es = pre ++ .request k now :: post →
      beginsWindow c (afterCalls c (fun _ => none) pre) k now →
      (letThrough c (afterCalls c (fun _ => none) pre) k now (.request k now :: post) : NNRat) ≤ c.max) ∧
    (∀ pre k post, es = pre ++ post → ∀ entry ∈ afterCalls c (fun _ => none) pre k,
      ∀ a ∈ answers c (afterCalls c (fun _ => none) pre) post,
        a.key = k → a.now < entry.blockedUntil → a.reply ≠ .next) ∧
    (∀ pre k now post, es = pre ++ .request k now :: post →
      (∀ entry ∈ afterCalls c (fun _ => none) pre k, entry.blockedUntil ≤ now) →
      (rateLimit c (afterCalls c (fun _ => none) pre) k now).2 ≠ .next →
      ∀ a ∈ answers c (afterCalls c (fun _ => none) (pre ++ [.request k now])) post,
        a.key = k → a.now < now + c.blockMs → a.reply ≠ .next) ∧
    (∀ k, Modest c k es → ∀ a ∈ answers c (fun _ => none) es, a.key = k → a.reply = .next) ∧
    (∀ k, answersTo k (answers c (fun _ => none) es) =
      answers c (fun _ => none) (es.filter (Call.concerns k))) ∧
    (∀ pre now post, es = pre ++ .prune now :: post →
      answers c (fun _ => none) es = answers c (fun _ => none) (pre ++ post)) := by
  refine ⟨?_, ?_, ?_, fun k hk => hk.served h, fun k => answers_own rfl, ?_⟩
  · rintro pre k now post rfl hb
    exact letThrough_max (List.pairwise_append.mp h).2.1 hb
  · rintro pre k post rfl entry hentry
    exact blocked_refuses hentry (List.pairwise_append.mp h).2.1
  · rintro pre k now post rfl hb hr
    obtain ⟨entry, hentry, huntil⟩ := trip_blocks hb hr
    have hafter : afterCalls c (fun _ => none) (pre ++ [.request k now]) =
        (rateLimit c (afterCalls c (fun _ => none) pre) k now).1 := List.foldl_concat ..
    rw [hafter, ← huntil]
    exact blocked_refuses hentry (List.pairwise_cons.mp (List.pairwise_append.mp h).2.1).2
  · rintro pre now post rfl
    rw [answers_append, answers_append]
    exact congrArg _ (prune_unseen (List.pairwise_append.mp h).2.1)

-- Two requests a second, five seconds of block.
def sparing : Limiter := ⟨1000, 2, 5000, by decide, by decide, by decide⟩

theorem limiter_exact_pruned : ([.request 0 0, .request 0 1, .request 0 2, .request 1 3, .prune 5003,
      .request 0 5003] : List (Call Nat)).Pairwise (fun x y => x.now ≤ y.now) ∧
    answers sparing (fun _ => none) [.request 0 0, .request 0 1, .request 0 2, .request 1 3, .prune 5003,
        .request 0 5003] =
      answers sparing (fun _ => none) [.request (0 : Nat) 0, .request 0 1, .request 0 2, .request 1 3,
        .request 0 5003] := by
  have htimely : ([.request 0 0, .request 0 1, .request 0 2, .request 1 3, .prune 5003,
      .request 0 5003] : List (Call Nat)).Pairwise (fun x y => x.now ≤ y.now) := by decide
  obtain ⟨-, -, -, -, -, hprune⟩ := limiter_exact sparing htimely
  exact ⟨htimely, hprune [.request 0 0, .request 0 1, .request 0 2, .request 1 3] 5003 [.request 0 5003] rfl⟩

example : answers sparing (fun _ => none) [.request 0 0, .request 0 1, .request 0 2, .request 1 3,
      .request 0 5002] =
    [⟨0, 0, .next⟩, ⟨0, 1, .next⟩, ⟨0, 2, .rateLimited 5⟩, ⟨1, 3, .next⟩, ⟨0, 5002, .next⟩] := by
  decide +kernel

end RateLimit

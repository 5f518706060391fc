import Mathlib.Data.Finset.Card
import Mathlib.Logic.Function.Basic
import Madoka.Lib.Window
import Madoka.Datagram.Codec

namespace Guard

open Lib

-- Times are nanoseconds since the zero Time.
def guardWindow : Nat := 1000000000
def guardMaxPerSec : Nat := 400
def guardBadWeight : Nat := 4
def guardBlockDur : Nat := 60000000000
def guardMaxTracked : Nat := 8192

structure SrcStat where
  winStart : Nat
  weight : Nat
  blockedUntil : Nat
  deriving DecidableEq, Repr

structure GuardMap where
  stats : String → Option SrcStat
  tracked : Finset String
  mem_tracked : ∀ ip, ip ∈ tracked ↔ (stats ip).isSome

namespace GuardMap

def empty : GuardMap := ⟨fun _ => none, ∅, by simp⟩

def put (g : GuardMap) (ip : String) (st : SrcStat) : GuardMap where
  stats := Function.update g.stats ip (some st)
  tracked := insert ip g.tracked
  mem_tracked := by
    intro ip'
    by_cases h : ip' = ip
    · rw [h, Function.update_self]
      exact iff_of_true (Finset.mem_insert_self ..) rfl
    · rw [Function.update_of_ne h, Finset.mem_insert, g.mem_tracked]
      exact or_iff_right h

def keep (g : GuardMap) (p : SrcStat → Bool) : GuardMap where
  stats ip := (g.stats ip).filter p
  tracked := g.tracked.filter fun ip => ((g.stats ip).filter p).isSome
  mem_tracked := by
    intro ip
    rw [Finset.mem_filter, g.mem_tracked]
    refine and_iff_right_of_imp fun h => ?_
    cases hs : g.stats ip with
    | none =>
      rw [hs] at h
      cases h
    | some st => rfl

end GuardMap

def weight (bad : Bool) : Nat := if bad then guardBadWeight else 1

def charge (g : GuardMap) (ip : String) (st : SrcStat) (bad : Bool) (now : Nat) : GuardMap × Bool :=
  let st := { st with weight := st.weight + weight bad }
  if guardMaxPerSec < st.weight then (g.put ip { st with blockedUntil := now + guardBlockDur }, false)
  else (g.put ip st, true)

def weigh (g : GuardMap) (ip : String) (st : SrcStat) (bad : Bool) (now : Nat) : GuardMap × Bool :=
  if now < st.blockedUntil then (g.put ip st, false)
  else
    let st := if guardWindow ≤ now - st.winStart then { st with winStart := now, weight := 0 } else st
    charge g ip st bad now

def allowSource (g : GuardMap) (ip : String) (bad : Bool) (now : Nat) : GuardMap × Bool :=
  match g.stats ip with
  | some st => weigh g ip st bad now
  | none => if guardMaxTracked ≤ g.tracked.card then (g, !bad) else weigh g ip ⟨now, 0, 0⟩ bad now

def guardMaintenance (g : GuardMap) (now : Nat) : GuardMap :=
  g.keep fun st => !(decide (st.blockedUntil < now) && decide (guardWindow < now - st.winStart))

def badHeader (buf : List UInt8) : Bool :=
  decide (buf.length < 8) || decide (buf[0]? ≠ some Datagram.msgKey)

-- The guard, and the sources of the datagrams that it let through and that do not decode: each is
-- about to be charged once more.
structure Listener where
  guard : GuardMap
  undecoded : List String

inductive Event where
  | receive (ip : String) (buf : List UInt8) (now : Nat)
  | penalize (ip : String) (now : Nat)
  | maintain (now : Nat)

def Event.now : Event → Nat
  | .receive _ _ now => now
  | .penalize _ now => now
  | .maintain now => now

structure Call where
  ip : String
  bad : Bool
  now : Nat

def Listener.call (s : Listener) : Event → Option Call
  | .receive ip buf now => some ⟨ip, badHeader buf, now⟩
  | .penalize ip now => if ip ∈ s.undecoded then some ⟨ip, true, now⟩ else none
  | .maintain _ => none

def Listener.verdict (s : Listener) (c : Call) : Bool := (allowSource s.guard c.ip c.bad c.now).2

def tryDecode (key : List UInt8) (allowed : Bool) (ip : String) (buf : List UInt8) (undecoded : List String) :
    List String :=
  if !allowed || badHeader buf then undecoded
  else
    match Datagram.decode buf key with
    | .error _ => ip :: undecoded
    | .ok _ => undecoded

def serve (key : List UInt8) (s : Listener) : Event → Listener
  | .receive ip buf now =>
    let (guard, allowed) := allowSource s.guard ip (badHeader buf) now
    ⟨guard, tryDecode key allowed ip buf s.undecoded⟩
  | .penalize ip now =>
    if ip ∈ s.undecoded then ⟨(allowSource s.guard ip true now).1, s.undecoded.erase ip⟩ else s
  | .maintain now => { s with guard := guardMaintenance s.guard now }

def start : Listener := ⟨GuardMap.empty, []⟩

def after (key : List UInt8) (s : Listener) (es : List Event) : Listener := es.foldl (serve key) s

structure Answer where
  ip : String
  now : Nat
  allowed : Bool
  deriving DecidableEq

def Listener.answer (s : Listener) (e : Event) : Option Answer :=
  (s.call e).map fun c => ⟨c.ip, c.now, s.verdict c⟩

def answers (key : List UInt8) (s : Listener) : List Event → List Answer
  | [] => []
  | e :: es => (s.answer e).toList ++ answers key (serve key s e) es

def SrcStat.tally (st : SrcStat) : Tally Nat := ⟨st.winStart, st.weight, st.blockedUntil⟩

def window : Window Nat where
  limit := guardMaxPerSec
  ended a b := decide (guardWindow ≤ b - a)
  blockEnd now := now + guardBlockDur
  never := 0
  renew blocked := blocked
  drop t now := decide (t.blocked < now) && decide (guardWindow < now - t.start)
  ended_self a := by
    rw [Nat.sub_self]
    decide
  ended_mono h hbc := decide_eq_true (Nat.le_trans (of_decide_eq_true h) (Nat.sub_le_sub_right hbc _))
  never_le := Nat.zero_le
  renew_le h := h
  drop_idle := by
    intro t b h
    rw [Bool.and_eq_true, decide_eq_true_eq, decide_eq_true_eq] at h
    exact ⟨Nat.le_of_lt h.1, decide_eq_true (Nat.le_of_lt h.2)⟩

variable {key : List UInt8} {g : GuardMap} {s s' : Listener} {ip ip' : String} {bad : Bool} {now a : Nat}
  {st : SrcStat} {e : Event} {es : List Event} {c : Call}

def tallyOf (g : GuardMap) (ip : String) : Option (Tally Nat) := (g.stats ip).map SrcStat.tally

theorem tallyOf_put (ip : String) (st : SrcStat) : tallyOf (g.put ip st) ip = some st.tally := by
  rw [tallyOf, GuardMap.put]
  dsimp only
  rw [Function.update_self]
  rfl

theorem tallyOf_other (h : ip' ≠ ip) : tallyOf (g.put ip st) ip' = tallyOf g ip' := by
  rw [tallyOf, GuardMap.put]
  dsimp only
  rw [Function.update_of_ne h]
  rfl

theorem tallyOf_some (h : g.stats ip = some st) : tallyOf g ip = some st.tally :=
  congrArg (Option.map SrcStat.tally) h

theorem tallyOf_none (h : g.stats ip = none) : tallyOf g ip = none :=
  congrArg (Option.map SrcStat.tally) h

theorem charge_count : tallyOf (charge g ip st bad now).1 ip =
      some (window.count st.tally now (weight bad)).1 ∧
    (charge g ip st bad now).2 = (window.count st.tally now (weight bad)).2 := by
  unfold charge Window.count
  by_cases hover : guardMaxPerSec < st.weight + weight bad
  · have hlimit : window.limit < st.tally.weight + weight bad := hover
    rw [if_pos hlimit]
    dsimp only
    rw [if_pos hover]
    exact ⟨tallyOf_put .., rfl⟩
  · have hlimit : ¬window.limit < st.tally.weight + weight bad := hover
    rw [if_neg hlimit]
    dsimp only
    rw [if_neg hover]
    exact ⟨tallyOf_put .., rfl⟩

theorem weigh_check : tallyOf (weigh g ip st bad now).1 ip =
      some (window.check (some st.tally) now (weight bad)).1 ∧
    (weigh g ip st bad now).2 = (window.check (some st.tally) now (weight bad)).2 := by
  unfold weigh
  by_cases hb : now < st.blockedUntil
  · have hblocked : window.check (some st.tally) now (weight bad) = (st.tally, false) :=
      Window.check_blocked hb
    rw [if_pos hb, hblocked]
    exact ⟨tallyOf_put .., rfl⟩
  · rw [if_neg hb]
    by_cases he : guardWindow ≤ now - st.winStart
    · have hended : window.check (some st.tally) now (weight bad) =
          window.count (SrcStat.tally { st with winStart := now, weight := 0 }) now (weight bad) :=
        Window.check_ended (Nat.le_of_not_lt hb) (decide_eq_true he)
      rw [if_pos he, hended]
      exact charge_count
    · have hinside : window.check (some st.tally) now (weight bad) =
          window.count st.tally now (weight bad) :=
        Window.check_inside (Nat.le_of_not_lt hb) (decide_eq_false he)
      rw [if_neg he, hinside]
      exact charge_count

def Admits (g : GuardMap) (ip : String) : Prop := ip ∈ g.tracked ∨ g.tracked.card < guardMaxTracked

instance (g : GuardMap) (ip : String) : Decidable (Admits g ip) := inferInstanceAs (Decidable (_ ∨ _))

theorem new_check : window.check (some (SrcStat.tally ⟨now, 0, 0⟩)) now (weight bad) =
    window.check none now (weight bad) :=
  Window.check_inside (Nat.zero_le now) (window.ended_self now)

theorem allowSource_check (h : Admits g ip) : tallyOf (allowSource g ip bad now).1 ip =
      some (window.check (tallyOf g ip) now (weight bad)).1 ∧
    (allowSource g ip bad now).2 = (window.check (tallyOf g ip) now (weight bad)).2 := by
  cases hs : g.stats ip with
  | some st =>
    rw [tallyOf_some hs, allowSource, hs]
    exact weigh_check
  | none =>
    have hroom : ¬guardMaxTracked ≤ g.tracked.card := by
      rcases h with htracked | hroom
      · rw [g.mem_tracked, hs] at htracked
        cases htracked
      · exact Nat.not_le.mpr hroom
    rw [tallyOf_none hs, allowSource, hs, ← new_check]
    dsimp only
    rw [if_neg hroom]
    exact weigh_check

theorem allowSource_bypass (h : ¬Admits g ip) : allowSource g ip bad now = (g, !bad) := by
  have hs : g.stats ip = none := by
    cases hs : g.stats ip with
    | none => rfl
    | some st => exact absurd (Or.inl ((g.mem_tracked ip).mpr (by rw [hs]; rfl))) h
  have hfull : guardMaxTracked ≤ g.tracked.card := Nat.le_of_not_lt fun hlt => h (Or.inr hlt)
  rw [allowSource, hs]
  exact if_pos hfull

theorem charge_other (h : ip' ≠ ip) : tallyOf (charge g ip st bad now).1 ip' = tallyOf g ip' := by
  unfold charge
  dsimp only
  split <;> exact tallyOf_other h

theorem weigh_other (h : ip' ≠ ip) : tallyOf (weigh g ip st bad now).1 ip' = tallyOf g ip' := by
  unfold weigh
  dsimp only
  split
  · exact tallyOf_other h
  · exact charge_other h

theorem allowSource_other (h : ip' ≠ ip) : tallyOf (allowSource g ip bad now).1 ip' = tallyOf g ip' := by
  unfold allowSource
  split
  · exact weigh_other h
  · split
    · rfl
    · exact weigh_other h

theorem charge_tracked : (charge g ip st bad now).1.tracked = insert ip g.tracked := by
  unfold charge
  dsimp only
  split <;> rfl

theorem weigh_tracked : (weigh g ip st bad now).1.tracked = insert ip g.tracked := by
  unfold weigh
  split
  · rfl
  · exact charge_tracked

theorem allowSource_card (h : g.tracked.card ≤ guardMaxTracked) :
    (allowSource g ip bad now).1.tracked.card ≤ guardMaxTracked := by
  cases hs : g.stats ip with
  | some st =>
    have hin : ip ∈ g.tracked := (g.mem_tracked ip).mpr (by rw [hs]; rfl)
    rw [allowSource, hs]
    dsimp only
    rw [weigh_tracked, Finset.insert_eq_of_mem hin]
    exact h
  | none =>
    rw [allowSource, hs]
    dsimp only
    split
    · exact h
    · next hroom =>
      rw [weigh_tracked]
      exact Nat.le_trans (Finset.card_insert_le ..) (Nat.lt_of_not_le hroom)

theorem maintenance_forget : tallyOf (guardMaintenance g now) ip = window.forget (tallyOf g ip) now := by
  unfold tallyOf guardMaintenance GuardMap.keep Window.forget
  dsimp only
  cases g.stats ip with
  | none => rfl
  | some st =>
    rw [Option.map_some, Option.filter_some, Option.filter_some]
    change Option.map SrcStat.tally (if (!(decide (st.blockedUntil < now) &&
        decide (guardWindow < now - st.winStart))) = true then some st else none) =
      if (!(decide (st.blockedUntil < now) &&
        decide (guardWindow < now - st.winStart))) = true then some st.tally else none
    split <;> rfl

theorem tracked_tally : ip ∈ g.tracked ↔ (tallyOf g ip).isSome := by
  rw [g.mem_tracked, tallyOf, Option.isSome_map]

theorem call_penalize (h : s.call (.penalize ip now) = some c) : ip ∈ s.undecoded ∧ c = ⟨ip, true, now⟩ := by
  rw [Listener.call] at h
  split at h
  · next hin =>
    cases h
    exact ⟨hin, rfl⟩
  · cases h

theorem serve_call (h : s.call e = some c) : (serve key s e).guard = (allowSource s.guard c.ip c.bad c.now).1 := by
  cases e with
  | maintain now => cases h
  | penalize ip now =>
    obtain ⟨hin, rfl⟩ := call_penalize h
    rw [serve, if_pos hin]
  | receive ip buf now =>
    cases h
    rfl

theorem serve_idle (key : List UInt8) (h : s.call e = none) :
    (∃ now, e = .maintain now) ∨ (∃ ip now, e = .penalize ip now) ∧ serve key s e = s := by
  cases e with
  | maintain now => exact Or.inl ⟨now, rfl⟩
  | receive ip buf now => cases h
  | penalize ip now =>
    by_cases hin : ip ∈ s.undecoded
    · rw [Listener.call, if_pos hin] at h
      cases h
    · exact Or.inr ⟨⟨ip, now, rfl⟩, if_neg hin⟩

theorem serve_card (h : s.guard.tracked.card ≤ guardMaxTracked) :
    (serve key s e).guard.tracked.card ≤ guardMaxTracked := by
  cases hc : s.call e with
  | some c =>
    rw [serve_call hc]
    exact allowSource_card h
  | none =>
    rcases serve_idle key hc with ⟨now, rfl⟩ | ⟨-, hsame⟩
    · exact Nat.le_trans (Finset.card_filter_le ..) h
    · rw [hsame]
      exact h

theorem after_card (h : s.guard.tracked.card ≤ guardMaxTracked) :
    (after key s es).guard.tracked.card ≤ guardMaxTracked := by
  induction es generalizing s with
  | nil => exact h
  | cons e es ih => exact ih (serve_card h)

def Listener.act (s : Listener) (ip : String) (e : Event) : Option (Act Nat) :=
  match s.call e with
  | some c => if c.ip = ip ∧ Admits s.guard ip then some (.hit c.now (weight c.bad)) else none
  | none =>
    match e with
    | .maintain now => some (.pass now)
    | _ => none

def acts (key : List UInt8) (s : Listener) (ip : String) : List Event → List (Act Nat)
  | [] => []
  | e :: es => (s.act ip e).toList ++ acts key (serve key s e) ip es

theorem call_now (h : s.call e = some c) : c.now = e.now := by
  cases e with
  | maintain now => cases h
  | receive ip buf now =>
    cases h
    rfl
  | penalize ip now =>
    obtain ⟨-, rfl⟩ := call_penalize h
    rfl

theorem act_now {x : Act Nat} (h : s.act ip e = some x) : x.now = e.now := by
  unfold Listener.act at h
  cases hc : s.call e with
  | some c =>
    rw [hc] at h
    dsimp only at h
    split at h
    · cases h
      exact call_now hc
    · cases h
  | none =>
    rw [hc] at h
    cases e with
    | maintain now =>
      cases h
      rfl
    | penalize ip now => cases h
    | receive ip buf now => cases h

theorem serve_tally : tallyOf (serve key s e).guard ip =
    window.after (tallyOf s.guard ip) (s.act ip e).toList := by
  unfold Listener.act
  cases hc : s.call e with
  | some c =>
    rw [serve_call hc]
    dsimp only
    split
    · next h =>
      obtain ⟨rfl, hadmits⟩ := h
      exact (allowSource_check hadmits).1
    · next h =>
      by_cases hip : c.ip = ip
      · rw [hip, allowSource_bypass fun hadmits => h ⟨hip, hadmits⟩]
        rfl
      · exact allowSource_other fun he => hip he.symm
  | none =>
    rcases serve_idle key hc with ⟨now, rfl⟩ | ⟨⟨ip', now, rfl⟩, hsame⟩
    · exact maintenance_forget
    · rw [hsame]
      rfl

theorem after_tally : tallyOf (after key s es).guard ip =
    window.after (tallyOf s.guard ip) (acts key s ip es) := by
  induction es generalizing s with
  | nil => rfl
  | cons e es ih =>
    change tallyOf (after key (serve key s e) es).guard ip = _
    rw [ih, serve_tally, acts, Window.after, Window.after, Window.after, List.foldl_append]

theorem act_hit {w : Nat} (h : s.act ip e = some (.hit now w)) :
    ∃ bad, s.call e = some ⟨ip, bad, now⟩ ∧ w = weight bad ∧ Admits s.guard ip := by
  unfold Listener.act at h
  cases hc : s.call e with
  | some c =>
    rw [hc] at h
    dsimp only at h
    split at h
    · next hown =>
      cases h
      obtain ⟨rfl, hadmits⟩ := hown
      exact ⟨c.bad, rfl, rfl, hadmits⟩
    · cases h
  | none =>
    rw [hc] at h
    dsimp only at h
    split at h <;> cases h

theorem acts_append {fs : List Event} : acts key s ip (es ++ fs) =
    acts key s ip es ++ acts key (after key s es) ip fs := by
  induction es generalizing s with
  | nil => rfl
  | cons e es ih =>
    rw [List.cons_append, acts, acts, ih, List.append_assoc]
    rfl

theorem acts_mem {x : Act Nat} (h : x ∈ acts key s ip es) : ∃ e ∈ es, x.now = e.now := by
  induction es generalizing s with
  | nil => cases h
  | cons e es ih =>
    rcases List.mem_append.mp h with h | h
    · exact ⟨e, List.mem_cons_self, act_now (Option.mem_toList.mp h)⟩
    · obtain ⟨e', he, hnow⟩ := ih h
      exact ⟨e', List.mem_cons_of_mem _ he, hnow⟩

theorem acts_timely (h : es.Pairwise fun x y => x.now ≤ y.now) : Window.Timely (acts key s ip es) := by
  induction es generalizing s with
  | nil => exact List.Pairwise.nil
  | cons e es ih =>
    obtain ⟨he, hes⟩ := List.pairwise_cons.mp h
    refine List.pairwise_append.mpr ⟨?_, ih hes, ?_⟩
    · cases s.act ip e with
      | none => exact List.Pairwise.nil
      | some x => exact List.pairwise_singleton ..
    · intro x hx y hy
      obtain ⟨e', he', hnow⟩ := acts_mem hy
      rw [act_now (Option.mem_toList.mp hx), hnow]
      exact he e' he'

theorem acts_split {pre' post' : List (Act Nat)} {w : Nat} (h : acts key s ip es = pre' ++ .hit now w :: post') :
    ∃ pre e post, es = pre ++ e :: post ∧ acts key s ip pre = pre' ∧
      (after key s pre).act ip e = some (.hit now w) ∧
      acts key (after key s pre) ip (e :: post) = .hit now w :: post' := by
  induction es generalizing s pre' with
  | nil =>
    rw [acts] at h
    exact absurd h.symm (List.append_ne_nil_of_right_ne_nil _ (List.cons_ne_nil _ _))
  | cons e es ih =>
    have hlater : ∀ {mid : List (Act Nat)}, acts key (serve key s e) ip es = mid ++ .hit now w :: post' →
        (s.act ip e).toList ++ mid = pre' → ∃ pre d post, e :: es = pre ++ d :: post ∧
          acts key s ip pre = pre' ∧ (after key s pre).act ip d = some (.hit now w) ∧
          acts key (after key s pre) ip (d :: post) = .hit now w :: post' := by
      intro mid hmid hpre
      obtain ⟨pre, d, post, rfl, hacts, hd, hrest⟩ := ih hmid
      exact ⟨e :: pre, d, post, rfl, by rw [acts, hacts, hpre], hd, hrest⟩
    cases ha : s.act ip e with
    | none =>
      rw [acts, ha] at h
      exact hlater h (by rw [ha]; rfl)
    | some x =>
      cases pre' with
      | nil =>
        have hfirst := h
        rw [acts, ha] at hfirst
        obtain ⟨rfl, -⟩ := List.cons.inj hfirst
        exact ⟨[], e, es, rfl, rfl, ha, h⟩
      | cons y pre' =>
        rw [acts, ha] at h
        obtain ⟨rfl, hmid⟩ := List.cons.inj h
        exact hlater hmid (by rw [ha]; rfl)

def Event.weighs (ip : String) : Event → Nat
  | .receive ip' buf _ => if ip' = ip then weight (badHeader buf) else 0
  | .penalize ip' _ => if ip' = ip then weight true else 0
  | .maintain _ => 0

-- What the datagrams of a source weigh in the second that begins at `a`.
def weighsIn (ip : String) (a : Nat) (es : List Event) : Nat :=
  ((es.filter fun e => a ≤ e.now ∧ e.now < a + guardWindow).map (Event.weighs ip)).sum

theorem act_weighs {w : Nat} (h : s.act ip e = some (.hit now w)) : w = e.weighs ip := by
  obtain ⟨bad, hc, rfl, -⟩ := act_hit h
  cases e with
  | maintain now => cases hc
  | receive ip' buf now =>
    cases hc
    exact (if_pos rfl).symm
  | penalize ip' now =>
    obtain ⟨-, hcall⟩ := call_penalize hc
    cases hcall
    exact (if_pos rfl).symm

theorem act_load (h : a ≤ e.now) : window.load a (Act.hits (s.act ip e).toList) ≤ weighsIn ip a [e] := by
  cases ha : s.act ip e with
  | none => exact Nat.zero_le _
  | some x =>
    cases x with
    | pass now => exact Nat.zero_le _
    | hit now w =>
      have hnow : now = e.now := act_now ha
      subst hnow
      by_cases hin : e.now < a + guardWindow
      · have hopen : window.ended a e.now = false := decide_eq_false (by omega)
        have hone : window.load a [(e.now, w)] = w := Window.load_one hopen
        have hweigh : weighsIn ip a [e] = e.weighs ip := by
          rw [weighsIn, List.filter_cons_of_pos (by rw [decide_eq_true_eq]; exact ⟨h, hin⟩)]
          exact Nat.add_zero _
        rw [hweigh, ← act_weighs ha]
        exact Nat.le_of_eq hone
      · have hended : window.load a [(e.now, w)] = 0 := by
          refine Window.load_ended fun y hy => ?_
          rw [List.mem_singleton.mp hy]
          exact decide_eq_true (by omega)
        exact Nat.le_trans (Nat.le_of_eq hended) (Nat.zero_le _)

theorem weighsIn_append {fs : List Event} : weighsIn ip a (es ++ fs) = weighsIn ip a es + weighsIn ip a fs := by
  rw [weighsIn, List.filter_append, List.map_append, List.sum_append]
  rfl

theorem acts_load (h : ∀ e ∈ es, a ≤ e.now) :
    window.load a (Act.hits (acts key s ip es)) ≤ weighsIn ip a es := by
  induction es generalizing s with
  | nil => exact Nat.le_refl 0
  | cons e es ih =>
    have hone := @act_load s ip a e (h e List.mem_cons_self)
    have hes := @ih (serve key s e) fun e' he => h e' (List.mem_cons_of_mem _ he)
    rw [acts, Act.hits_append, Window.load_append, ← List.singleton_append, weighsIn_append]
    exact Nat.add_le_add hone hes

theorem weighsIn_le_append (pre es : List Event) : weighsIn ip a es ≤ weighsIn ip a (pre ++ es) := by
  rw [weighsIn_append]
  exact Nat.le_add_left _ _

theorem acts_light (ht : es.Pairwise fun x y => x.now ≤ y.now) (h : ∀ a, weighsIn ip a es ≤ guardMaxPerSec) :
    window.Light none (acts key start ip es) := by
  intro pre' now w post' hsplit _
  obtain ⟨pre, e, post, rfl, -, he, hrest⟩ := acts_split hsplit
  have hnow : now = e.now := act_now he
  have hlater : ∀ e' ∈ e :: post, now ≤ e'.now := by
    intro e' he'
    rw [hnow]
    rcases List.mem_cons.mp he' with rfl | hin
    · exact Nat.le_refl _
    · exact (List.pairwise_cons.mp (List.pairwise_append.mp ht).2.1).1 e' hin
  rw [← hrest]
  exact Nat.le_trans (acts_load hlater) (Nat.le_trans (weighsIn_le_append pre _) (h now))

theorem act_own (hc : s.call e = some ⟨ip, bad, now⟩) (hadmits : Admits s.guard ip) :
    s.act ip e = some (.hit now (weight bad)) := by
  unfold Listener.act
  rw [hc]
  exact if_pos ⟨rfl, hadmits⟩

theorem light_allowed {pre post : List Event} (ht : (pre ++ e :: post).Pairwise fun x y => x.now ≤ y.now)
    (h : ∀ a, weighsIn ip a (pre ++ e :: post) ≤ guardMaxPerSec)
    (hc : (after key start pre).call e = some ⟨ip, bad, now⟩) (hadmits : Admits (after key start pre).guard ip) :
    (allowSource (after key start pre).guard ip bad now).2 = true := by
  have hact := act_own hc hadmits
  have hacts : acts key start ip (pre ++ e :: post) = acts key start ip pre ++ .hit now (weight bad) ::
      acts key (serve key (after key start pre) e) ip post := by
    rw [acts_append, acts, hact]
    rfl
  have htimely : Window.Timely (acts key start ip (pre ++ e :: post)) := acts_timely ht
  have hlight : window.Light none (acts key start ip (pre ++ e :: post)) := acts_light ht h
  rw [hacts] at htimely hlight
  rw [(allowSource_check hadmits).2, after_tally]
  exact Window.light_verdict htimely hlight

theorem never_blocked (hb : ∀ u ∈ tallyOf g ip, u.blocked = 0)
    (hv : Admits g ip → (allowSource g ip bad now).2 = true) :
    ∀ u ∈ tallyOf (allowSource g ip bad now).1 ip, u.blocked = 0 := by
  by_cases hadmits : Admits g ip
  · have hyes := hv hadmits
    obtain ⟨htally, hverdict⟩ := @allowSource_check g ip bad now hadmits
    rw [hverdict] at hyes
    rw [htally]
    rintro _ ⟨⟩
    exact Window.check_granted (P := fun b => b = 0) hyes rfl hb fun hb => hb
  · rw [allowSource_bypass hadmits]
    exact hb

theorem light_unblocked {pre post : List Event} (ht : (pre ++ post).Pairwise fun x y => x.now ≤ y.now)
    (h : ∀ a, weighsIn ip a (pre ++ post) ≤ guardMaxPerSec) :
    ∀ u ∈ tallyOf (after key start pre).guard ip, u.blocked = 0 := by
  induction pre using List.reverseRecOn generalizing post with
  | nil => exact nofun
  | append_singleton pre e ih =>
    rw [List.append_assoc] at ht h
    have hpre := ih ht h
    have hlast : after key start (pre ++ [e]) = serve key (after key start pre) e := List.foldl_append ..
    rw [hlast]
    cases hc : (after key start pre).call e with
    | some c =>
      rw [serve_call hc]
      by_cases hip : c.ip = ip
      · subst hip
        exact never_blocked hpre fun hadmits => light_allowed ht h hc hadmits
      · rw [allowSource_other fun he => hip he.symm]
        exact hpre
    | none =>
      rcases serve_idle key hc with ⟨now, rfl⟩ | ⟨-, hsame⟩
      · change ∀ u ∈ tallyOf (guardMaintenance (after key start pre).guard now) ip, u.blocked = 0
        rw [maintenance_forget]
        exact fun u hu => hpre u (Option.mem_filter_iff.mp hu).1
      · rw [hsame]
        exact hpre

theorem answer_own {x : Answer} (h : x ∈ s.answer e) :
    ∃ bad, s.call e = some ⟨x.ip, bad, x.now⟩ ∧ x.allowed = (allowSource s.guard x.ip bad x.now).2 := by
  obtain ⟨c, hc, rfl⟩ := Option.map_eq_some_iff.mp h
  exact ⟨c.bad, hc, rfl⟩

theorem answers_later {x : Answer} (h : x ∈ answers key s es) : ∃ e ∈ es, x.now = e.now := by
  induction es generalizing s with
  | nil => cases h
  | cons e es ih =>
    rcases List.mem_append.mp h with h | h
    · obtain ⟨bad, hc, -⟩ := answer_own (Option.mem_toList.mp h)
      exact ⟨e, List.mem_cons_self, call_now hc⟩
    · obtain ⟨e', he, hnow⟩ := ih h
      exact ⟨e', List.mem_cons_of_mem _ he, hnow⟩

theorem blocked_kept {u : Tally Nat} (hu : tallyOf s.guard ip = some u) (hb : e.now < u.blocked) :
    tallyOf (serve key s e).guard ip = some u := by
  rw [serve_tally, hu]
  cases ha : s.act ip e with
  | none => rfl
  | some x =>
    have hlt : x.now < u.blocked := by
      rw [act_now ha]
      exact hb
    cases x with
    | hit now w =>
      have hc : window.check (some u) now w = (u, false) := Window.check_blocked hlt
      exact congrArg (fun r => some r.1) hc
    | pass now =>
      rcases window.forget_cases (some u) now with hsame | ⟨-, v, hv, hle, -⟩
      · exact hsame
      · cases hv
        exact absurd hlt (Nat.not_lt.mpr hle)

theorem blocked_refused {u : Tally Nat} (hu : tallyOf s.guard ip = some u)
    (ht : es.Pairwise fun x y => x.now ≤ y.now) :
    ∀ x ∈ answers key s es, x.ip = ip → x.now < u.blocked → x.allowed = false := by
  induction es generalizing s with
  | nil =>
    intro x hx
    cases hx
  | cons e es ih =>
    obtain ⟨he, hes⟩ := List.pairwise_cons.mp ht
    intro x hx hip hb
    have hfirst : e.now ≤ x.now := by
      obtain ⟨e', he', hnow⟩ := answers_later hx
      rw [hnow]
      rcases List.mem_cons.mp he' with rfl | hin
      · exact Nat.le_refl _
      · exact he e' hin
    rcases List.mem_append.mp hx with hx | hx
    · obtain ⟨bad, hc, hallowed⟩ := answer_own (Option.mem_toList.mp hx)
      subst hip
      have htracked : x.ip ∈ s.guard.tracked := tracked_tally.mpr (by rw [hu]; rfl)
      have hcheck : window.check (some u) x.now (weight bad) = (u, false) := Window.check_blocked hb
      rw [hallowed, (allowSource_check (Or.inl htracked)).2, hu, hcheck]
    · exact ih (blocked_kept hu (Nat.lt_of_le_of_lt hfirst hb)) hes x hx hip hb

def concerns (ip : String) : Event → Bool
  | .receive ip' _ _ => ip' = ip
  | .penalize ip' _ => ip' = ip
  | .maintain _ => true

def answersTo (ip : String) (as : List Answer) : List Answer := as.filter fun x => x.ip = ip

def Tracked (key : List UInt8) (s : Listener) (ip : String) (es : List Event) : Prop :=
  ∀ pre e post, es = pre ++ e :: post → ∀ c ∈ (after key s pre).call e, c.ip = ip →
    ip ∈ (after key s pre).guard.tracked

theorem Tracked.tail (h : Tracked key s ip (e :: es)) : Tracked key (serve key s e) ip es := by
  intro pre d post hes
  exact h (e :: pre) d post (by rw [hes]; rfl)

structure Alike (ip : String) (s s' : Listener) : Prop where
  tally : tallyOf s.guard ip = tallyOf s'.guard ip
  undecoded : s.undecoded.count ip = s'.undecoded.count ip

theorem Alike.refl (ip : String) (s : Listener) : Alike ip s s := ⟨rfl, rfl⟩

theorem tryDecode_other {allowed : Bool} {buf : List UInt8} {undecoded : List String} (h : ip ≠ ip') :
    (tryDecode key allowed ip' buf undecoded).count ip = undecoded.count ip := by
  unfold tryDecode
  split
  · rfl
  · split
    · exact List.count_cons_of_ne h.symm
    · rfl

theorem tryDecode_count {allowed : Bool} {buf : List UInt8} {us us' : List String}
    (h : us.count ip = us'.count ip) :
    (tryDecode key allowed ip buf us).count ip = (tryDecode key allowed ip buf us').count ip := by
  unfold tryDecode
  split
  · exact h
  · split
    · rw [List.count_cons, List.count_cons, h]
    · exact h

theorem serve_other (h : concerns ip e = false) : Alike ip (serve key s e) s := by
  cases e with
  | maintain now => cases h
  | receive ip' buf now =>
    have hne : ip ≠ ip' := fun he => of_decide_eq_false h he.symm
    constructor
    · rw [serve_call rfl]
      exact allowSource_other hne
    · exact tryDecode_other hne
  | penalize ip' now =>
    have hne : ip ≠ ip' := fun he => of_decide_eq_false h he.symm
    by_cases hin : ip' ∈ s.undecoded
    · constructor
      · have hc : s.call (.penalize ip' now) = some ⟨ip', true, now⟩ := if_pos hin
        rw [serve_call hc]
        exact allowSource_other hne
      · rw [serve, if_pos hin]
        exact List.count_erase_of_ne hne
    · rw [serve, if_neg hin]
      exact Alike.refl ip s

theorem Alike.trans {u : Listener} (h : Alike ip s s') (h' : Alike ip s' u) : Alike ip s u :=
  ⟨h.tally.trans h'.tally, h.undecoded.trans h'.undecoded⟩

theorem Alike.call (h : Alike ip s s') (htracked : ip ∈ s.guard.tracked) :
    (allowSource s.guard ip bad now).2 = (allowSource s'.guard ip bad now).2 ∧
      tallyOf (allowSource s.guard ip bad now).1 ip = tallyOf (allowSource s'.guard ip bad now).1 ip := by
  have htracked' : ip ∈ s'.guard.tracked := tracked_tally.mpr (h.tally ▸ tracked_tally.mp htracked)
  obtain ⟨htally, hverdict⟩ := @allowSource_check s.guard ip bad now (Or.inl htracked)
  obtain ⟨htally', hverdict'⟩ := @allowSource_check s'.guard ip bad now (Or.inl htracked')
  rw [hverdict, hverdict', htally, htally', h.tally]
  exact ⟨rfl, rfl⟩

theorem Alike.serve (h : Alike ip s s') (hcon : concerns ip e = true)
    (htracked : ∀ c ∈ s.call e, c.ip = ip → ip ∈ s.guard.tracked) :
    s.answer e = s'.answer e ∧ Alike ip (serve key s e) (serve key s' e) := by
  cases e with
  | maintain now =>
    refine ⟨rfl, ?_, h.undecoded⟩
    change tallyOf (guardMaintenance s.guard now) ip = tallyOf (guardMaintenance s'.guard now) ip
    rw [maintenance_forget, maintenance_forget, h.tally]
  | receive ip' buf now =>
    obtain rfl : ip' = ip := of_decide_eq_true hcon
    obtain ⟨hverdict, htally⟩ := @Alike.call s s' ip' (badHeader buf) now h (htracked _ rfl rfl)
    refine ⟨?_, htally, ?_⟩
    · change some (⟨ip', now, (allowSource s.guard ip' (badHeader buf) now).2⟩ : Answer) = some _
      rw [hverdict]
      rfl
    · change (tryDecode key (allowSource s.guard ip' (badHeader buf) now).2 ip' buf s.undecoded).count ip' = _
      rw [hverdict]
      exact tryDecode_count h.undecoded
  | penalize ip' now =>
    obtain rfl : ip' = ip := of_decide_eq_true hcon
    have hiff : ip' ∈ s.undecoded ↔ ip' ∈ s'.undecoded := by
      rw [← List.count_pos_iff, ← List.count_pos_iff, h.undecoded]
    by_cases hin : ip' ∈ s.undecoded
    · have hcall : s.call (.penalize ip' now) = some ⟨ip', true, now⟩ := if_pos hin
      have hcall' : s'.call (.penalize ip' now) = some ⟨ip', true, now⟩ := if_pos (hiff.mp hin)
      obtain ⟨hverdict, htally⟩ := @Alike.call s s' ip' true now h (htracked _ hcall rfl)
      refine ⟨?_, ?_, ?_⟩
      · rw [Listener.answer, Listener.answer, hcall, hcall', Option.map_some, Option.map_some,
          Listener.verdict, Listener.verdict, hverdict]
      · rw [serve_call hcall, serve_call hcall']
        exact htally
      · rw [Guard.serve, Guard.serve, if_pos hin, if_pos (hiff.mp hin)]
        dsimp only
        rw [List.count_erase_self, List.count_erase_self, h.undecoded]
    · have hcall : s.call (.penalize ip' now) = none := if_neg hin
      have hcall' : s'.call (.penalize ip' now) = none := if_neg fun hin' => hin (hiff.mpr hin')
      refine ⟨?_, ?_⟩
      · rw [Listener.answer, Listener.answer, hcall, hcall']
        rfl
      · rw [Guard.serve, Guard.serve, if_neg hin, if_neg fun hin' => hin (hiff.mpr hin')]
        exact h

theorem answersTo_append {as bs : List Answer} : answersTo ip (as ++ bs) = answersTo ip as ++ answersTo ip bs :=
  List.filter_append ..

theorem answer_other (h : concerns ip e = false) : answersTo ip (s.answer e).toList = [] := by
  refine List.filter_eq_nil_iff.mpr fun x hx hip => ?_
  obtain ⟨bad, hc, -⟩ := answer_own (Option.mem_toList.mp hx)
  have hown : x.ip = ip := of_decide_eq_true hip
  cases e with
  | maintain now => cases hc
  | receive ip' buf now =>
    cases hc
    exact of_decide_eq_false h hown
  | penalize ip' now =>
    obtain ⟨-, hcall⟩ := call_penalize hc
    exact of_decide_eq_false h ((congrArg Call.ip hcall).symm.trans hown)

theorem answers_others (h : Alike ip s s') (htracked : Tracked key s ip es) :
    answersTo ip (answers key s es) = answersTo ip (answers key s' (es.filter (concerns ip))) := by
  induction es generalizing s s' with
  | nil => rfl
  | cons e es ih =>
    rw [answers, answersTo_append]
    cases hcon : concerns ip e with
    | true =>
      have hserve : s.answer e = s'.answer e ∧ Alike ip (serve key s e) (serve key s' e) :=
        h.serve hcon (htracked [] e es rfl)
      obtain ⟨hanswer, hlater⟩ := hserve
      rw [List.filter_cons_of_pos hcon, answers, answersTo_append, hanswer, ih hlater htracked.tail]
    | false =>
      rw [List.filter_cons_of_neg (by rw [hcon]; exact Bool.false_ne_true), answer_other hcon, List.nil_append]
      exact ih ((serve_other hcon).trans h) htracked.tail

theorem stats_tally (h : st ∈ g.stats ip) : st.tally ∈ tallyOf g ip := tallyOf_some h

theorem trip_blocks (hadmits : Admits g ip) (hb : ∀ st ∈ g.stats ip, st.blockedUntil ≤ now)
    (hr : (allowSource g ip bad now).2 = false) :
    ∃ u, tallyOf (allowSource g ip bad now).1 ip = some u ∧ u.blocked = now + guardBlockDur := by
  obtain ⟨htally, hverdict⟩ := @allowSource_check g ip bad now hadmits
  rw [hverdict] at hr
  refine ⟨_, htally, Window.check_refused ?_ hr⟩
  intro u hu
  obtain ⟨st, hst, rfl⟩ := Option.map_eq_some_iff.mp hu
  exact hb st hst

def counted (g : GuardMap) (ip : String) (now : Nat) : Nat :=
  match g.stats ip with
  | some st => if guardWindow ≤ now - st.winStart then 0 else st.weight
  | none => 0

def Exceeds (g : GuardMap) (ip : String) (bad : Bool) (now : Nat) : Prop :=
  guardMaxPerSec < counted g ip now + weight bad

-- A result that refuses the call if it is over the limit, and only then, and blocks the source for it.
structure Enforces (ip : String) (now : Nat) (exceeds : Prop) (r : GuardMap × Bool) : Prop where
  refused : r.2 = false ↔ exceeds
  blocked : exceeds → ∃ st ∈ r.1.stats ip, st.blockedUntil = now + guardBlockDur

theorem charge_enforces :
    Enforces ip now (guardMaxPerSec < st.weight + weight bad) (charge g ip st bad now) := by
  unfold charge
  dsimp only
  split
  · next hover =>
    exact ⟨iff_of_true rfl hover, fun _ => ⟨_, Function.update_self .., rfl⟩⟩
  · next hover =>
    exact ⟨iff_of_false Bool.noConfusion hover, fun h => absurd h hover⟩

theorem weigh_enforces (hb : st.blockedUntil ≤ now) :
    Enforces ip now
      (guardMaxPerSec < (if guardWindow ≤ now - st.winStart then 0 else st.weight) + weight bad)
      (weigh g ip st bad now) := by
  unfold weigh
  rw [if_neg (Nat.not_lt.mpr hb)]
  dsimp only
  split
  · exact @charge_enforces g ip bad now { st with winStart := now, weight := 0 }
  · exact charge_enforces

theorem allowSource_enforces (hadmits : Admits g ip) (hb : ∀ st ∈ g.stats ip, st.blockedUntil ≤ now) :
    Enforces ip now (Exceeds g ip bad now) (allowSource g ip bad now) := by
  unfold Exceeds counted allowSource
  cases hs : g.stats ip with
  | some st => exact weigh_enforces (hb st hs)
  | none =>
    have hroom : ¬guardMaxTracked ≤ g.tracked.card := by
      rcases hadmits with htracked | hroom
      · rw [g.mem_tracked, hs] at htracked
        cases htracked
      · exact Nat.not_le.mpr hroom
    have hnew : ¬guardWindow ≤ now - now := by
      rw [Nat.sub_self]
      decide
    have hfirst := @weigh_enforces g ip bad now ⟨now, 0, 0⟩ (Nat.zero_le now)
    rw [if_neg hnew] at hfirst
    dsimp only
    rw [if_neg hroom]
    exact hfirst

theorem guard_holds (key : List UInt8) {es : List Event} (ht : es.Pairwise fun x y => x.now ≤ y.now) :
    (∀ ip, (∀ a, weighsIn ip a es ≤ guardMaxPerSec) →
      (∀ pre post, es = pre ++ post → ∀ st ∈ (after key start pre).guard.stats ip, st.blockedUntil = 0) ∧
      (∀ pre e post bad now, es = pre ++ e :: post → (after key start pre).call e = some ⟨ip, bad, now⟩ →
        bad = false ∨ Admits (after key start pre).guard ip →
        (allowSource (after key start pre).guard ip bad now).2 = true)) ∧
    (∀ pre post ip, es = pre ++ post → ∀ st ∈ (after key start pre).guard.stats ip,
      ∀ x ∈ answers key (after key start pre) post, x.ip = ip → x.now < st.blockedUntil →
        x.allowed = false) ∧
    (∀ pre e post ip bad now, es = pre ++ e :: post → (after key start pre).call e = some ⟨ip, bad, now⟩ →
      Admits (after key start pre).guard ip →
      (∀ st ∈ (after key start pre).guard.stats ip, st.blockedUntil ≤ now) →
      (allowSource (after key start pre).guard ip bad now).2 = false →
      ∀ x ∈ answers key (after key start (pre ++ [e])) post, x.ip = ip → x.now < now + guardBlockDur →
        x.allowed = false) ∧
    (∀ pre post, es = pre ++ post → (after key start pre).guard.tracked.card ≤ guardMaxTracked) ∧
    (∀ pre post ip, es = pre ++ post → Tracked key (after key start pre) ip post →
      answersTo ip (answers key (after key start pre) post) =
        answersTo ip (answers key (after key start pre) (post.filter (concerns ip)))) ∧
    (∀ pre e post ip bad now, es = pre ++ e :: post → (after key start pre).call e = some ⟨ip, bad, now⟩ →
      Admits (after key start pre).guard ip →
      (∀ st ∈ (after key start pre).guard.stats ip, st.blockedUntil ≤ now) →
      ((allowSource (after key start pre).guard ip bad now).2 = false ↔
        Exceeds (after key start pre).guard ip bad now) ∧
      (Exceeds (after key start pre).guard ip bad now →
        ∃ st ∈ (after key start (pre ++ [e])).guard.stats ip, st.blockedUntil = now + guardBlockDur)) := by
  refine ⟨fun ip hlight => ⟨?_, ?_⟩, ?_, ?_, ?_, ?_, ?_⟩
  · rintro pre post rfl st hst
    exact light_unblocked ht hlight st.tally (stats_tally hst)
  · rintro pre e post bad now rfl hc hwhen
    by_cases hadmits : Admits (after key start pre).guard ip
    · exact light_allowed ht hlight hc hadmits
    · rw [allowSource_bypass hadmits, hwhen.resolve_right hadmits]
      rfl
  · rintro pre post ip rfl st hst x hx hip hb
    exact blocked_refused (tallyOf_some hst) (List.pairwise_append.mp ht).2.1 x hx hip hb
  · rintro pre e post ip bad now rfl hc hadmits hb hr x hx hip hlt
    obtain ⟨u, hu, huntil⟩ := trip_blocks hadmits hb hr
    have hlast : after key start (pre ++ [e]) = serve key (after key start pre) e := List.foldl_append ..
    have hentry : tallyOf (after key start (pre ++ [e])).guard ip = some u := by
      rw [hlast, serve_call hc]
      exact hu
    have hpost := (List.pairwise_cons.mp (List.pairwise_append.mp ht).2.1).2
    exact blocked_refused hentry hpost x hx hip (huntil ▸ hlt)
  · rintro pre post rfl
    exact after_card (Nat.zero_le _)
  · rintro pre post ip rfl htracked
    exact answers_others (Alike.refl ip _) htracked
  · rintro pre e post ip bad now rfl hc hadmits hb
    have hlast : after key start (pre ++ [e]) = serve key (after key start pre) e := List.foldl_append ..
    obtain ⟨hrefused, hblocked⟩ := @allowSource_enforces _ _ bad _ hadmits hb
    rw [hlast, serve_call hc]
    exact ⟨hrefused, hblocked⟩

theorem guard_holds_twice : [Event.receive "10.0.0.1" [] 5, .maintain 6, .receive "10.0.0.2" [] 7].Pairwise
      (fun x y => x.now ≤ y.now) ∧
    (after [] start [.receive "10.0.0.1" [] 5, .maintain 6, .receive "10.0.0.2" [] 7]).guard.tracked.card ≤
      guardMaxTracked := by
  have ht : [Event.receive "10.0.0.1" [] 5, .maintain 6, .receive "10.0.0.2" [] 7].Pairwise
      (fun x y => x.now ≤ y.now) := by decide
  obtain ⟨-, -, -, hsize, -⟩ := guard_holds [] ht
  exact ⟨ht, hsize _ [] (List.append_nil _).symm⟩

end Guard

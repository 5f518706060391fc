import Mathlib.Algebra.Order.Ring.Rat
import Madoka.Lib.Recent

namespace ReplayGuard

open Lib

-- The knobs; `none` is one that is absent or no number.
structure Knobs where
  enabled : Bool
  windowMs : Option Rat
  max : Option Nat
  exclude : List String

def WINDOW (R : Knobs) : Rat :=
  match R.windowMs with
  | some ms => if ms = 0 then 30000 else ms
  | none => 30000

def MAX (R : Knobs) : Nat :=
  match R.max with
  | some n => if n = 0 then 100000 else n
  | none => 100000

def utf8 (s : List Char) : List UInt8 := s.flatMap String.utf8EncodeChar

theorem utf8EncodeChar_inj {c d : Char} {x y : List UInt8}
    (h : String.utf8EncodeChar c ++ x = String.utf8EncodeChar d ++ y) : c = d ∧ x = y := by
  have hchar : (String.utf8EncodeChar c ++ x).toByteArray.utf8DecodeChar? 0 =
      (String.utf8EncodeChar d ++ y).toByteArray.utf8DecodeChar? 0 := by rw [h]
  rw [List.toByteArray_append, List.toByteArray_append, ByteArray.utf8DecodeChar?_utf8EncodeChar_append,
    ByteArray.utf8DecodeChar?_utf8EncodeChar_append] at hchar
  cases hchar
  exact ⟨rfl, List.append_cancel_left h⟩

-- The NUL ends a text that has none.
theorem utf8_nul {a b : List Char} {x y : List UInt8} (ha : '\x00' ∉ a) (hb : '\x00' ∉ b)
    (h : utf8 a ++ 0 :: x = utf8 b ++ 0 :: y) : a = b ∧ x = y := by
  induction a generalizing b with
  | nil =>
    cases b with
    | nil => exact ⟨rfl, List.tail_eq_of_cons_eq h⟩
    | cons d b =>
      have hd : String.utf8EncodeChar '\x00' ++ x = String.utf8EncodeChar d ++ (utf8 b ++ 0 :: y) := by
        rw [← List.append_assoc]
        exact h
      exact absurd ((utf8EncodeChar_inj hd).1 ▸ List.mem_cons_self) hb
  | cons c a ih =>
    cases b with
    | nil =>
      have hc : String.utf8EncodeChar c ++ (utf8 a ++ 0 :: x) = String.utf8EncodeChar '\x00' ++ y := by
        rw [← List.append_assoc]
        exact h
      exact absurd ((utf8EncodeChar_inj hc).1 ▸ List.mem_cons_self) ha
    | cons d b =>
      have hcd : String.utf8EncodeChar c ++ (utf8 a ++ 0 :: x) =
          String.utf8EncodeChar d ++ (utf8 b ++ 0 :: y) := by
        rw [← List.append_assoc, ← List.append_assoc]
        exact h
      obtain ⟨rfl, hrest⟩ := utf8EncodeChar_inj hcd
      obtain ⟨rfl, hxy⟩ := ih (fun hin => ha (List.mem_cons_of_mem _ hin))
        (fun hin => hb (List.mem_cons_of_mem _ hin)) hrest
      exact ⟨rfl, hxy⟩

structure Request where
  endpoint : String
  body : List UInt8
  now : Rat

section guard

variable {H : Type} [DecidableEq H]

-- A Map keeps its keys in the order in which they were inserted.
def get (seen : List (H × Rat)) (sig : H) : Option Rat := (seen.find? fun e => e.1 = sig).map Prod.snd

def delete (seen : List (H × Rat)) (sig : H) : List (H × Rat) := seen.filter fun e => e.1 ≠ sig

def set (seen : List (H × Rat)) (sig : H) (exp : Rat) : List (H × Rat) :=
  if seen.any fun e => e.1 = sig then seen.map fun e => if e.1 = sig then (sig, exp) else e
  else seen ++ [(sig, exp)]

-- while (seen.size > MAX): the oldest go.
def evict (max : Nat) : List (H × Rat) → List (H × Rat)
  | [] => []
  | e :: es => if max < (e :: es).length then evict max es else e :: es

def sweep (R : Knobs) (seen : List (H × Rat)) (now : Rat) : List (H × Rat) :=
  evict (MAX R) (seen.dropWhile fun e => e.2 ≤ now)

structure State (H : Type) where
  seen : List (H × Rat)
  lastSweep : Rat

def start : State H := ⟨[], 0⟩

def signature (sha256 : List UInt8 → H) (r : Request) : H :=
  sha256 (utf8 r.endpoint.toList ++ 0 :: r.body)

def tidy (R : Knobs) (s : State H) (now : Rat) : State H :=
  if 1000 < now - s.lastSweep then ⟨sweep R s.seen now, now⟩ else s

def record (R : Knobs) (s : State H) (sig : H) (now : Rat) : State H :=
  let seen := set s.seen sig (now + WINDOW R)
  { s with seen := if MAX R < seen.length then sweep R seen now else seen }

def isReplay (R : Knobs) (sha256 : List UInt8 → H) (s : State H) (r : Request) : State H × Bool :=
  if !R.enabled then (s, false)
  else if r.body = [] then (s, false)
  else if r.endpoint ∈ R.exclude then (s, false)
  else
    let s := tidy R s r.now
    let sig := signature sha256 r
    match get s.seen sig with
    | some exp =>
      if r.now < exp then (s, true)
      else (record R { s with seen := delete s.seen sig } sig r.now, false)
    | none => (record R s sig r.now, false)

def after (R : Knobs) (sha256 : List UInt8 → H) (rs : List Request) : State H :=
  rs.foldl (fun s r => (isReplay R sha256 s r).1) start

def evicted (max : Nat) : List (H × Rat) → List H
  | [] => []
  | e :: es => if max < (e :: es).length then e.1 :: evicted max es else []

def swept (R : Knobs) (seen : List (H × Rat)) (now : Rat) : List H :=
  evicted (MAX R) (seen.dropWhile fun e => e.2 ≤ now)

-- The history of the guard: the requests that it recorded as fresh, and the signatures that the cap
-- put out.
inductive Event (H : Type) where
  | recorded (r : Request)
  | evicted (sig : H)

def Event.note (sha256 : List UInt8 → H) : Event H → Note H Rat
  | recorded r => .recorded (signature sha256 r) r.now
  | evicted sig => .evicted sig

def Event.isRecorded : Event H → Bool
  | recorded _ => true
  | evicted _ => false

def Guarded (R : Knobs) (r : Request) : Prop := R.enabled = true ∧ r.body ≠ [] ∧ r.endpoint ∉ R.exclude

instance (R : Knobs) (r : Request) : Decidable (Guarded R r) := inferInstanceAs (Decidable (_ ∧ _))

def tidied (R : Knobs) (s : State H) (now : Rat) : List (Event H) :=
  if 1000 < now - s.lastSweep then (swept R s.seen now).map .evicted else []

def cut (R : Knobs) (seen : List (H × Rat)) (now : Rat) : List (Event H) :=
  if MAX R < seen.length then (swept R seen now).map .evicted else []

def events (R : Knobs) (sha256 : List UInt8 → H) (s : State H) (r : Request) : List (Event H) :=
  if Guarded R r then
    let sig := signature sha256 r
    let kept := delete (tidy R s r.now).seen sig
    tidied R s r.now ++ if (isReplay R sha256 s r).2 then [] else
      .recorded r :: cut R (set kept sig (r.now + WINDOW R)) r.now
  else []

def historyFrom (R : Knobs) (sha256 : List UInt8 → H) (s : State H) : List Request → List (Event H)
  | [] => []
  | r :: rs => events R sha256 s r ++ historyFrom R sha256 (isReplay R sha256 s r).1 rs

def history (R : Knobs) (sha256 : List UInt8 → H) (rs : List Request) : List (Event H) :=
  historyFrom R sha256 start rs

variable {R : Knobs} {sha256 : List UInt8 → H} {s : State H} {r : Request} {es : List (H × Rat)}
  {log : List (Note H Rat)} {sig : H} {max : Nat} {life : Rat → Rat} {now exp : Rat}

theorem WINDOW_mono (R : Knobs) : Monotone fun t => t + WINDOW R := fun _ _ h => add_le_add_left h _

theorem get_some (h : get es sig = some exp) : (sig, exp) ∈ es := by
  obtain ⟨e, he, rfl⟩ := Option.map_eq_some_iff.mp h
  have hsig : e.1 = sig := by
    have hfound := List.find?_some he
    exact of_decide_eq_true hfound
  rw [← hsig]
  exact List.mem_of_find?_eq_some he

theorem get_none (h : get es sig = none) : ∀ e ∈ es, e.1 ≠ sig := by
  intro e he hsig
  have hnone := List.find?_eq_none.mp (Option.map_eq_none_iff.mp h) e he
  exact hnone (decide_eq_true hsig)

theorem delete_other : ∀ e ∈ delete es sig, sig ≠ e.1 := by
  intro e he
  exact (of_decide_eq_true (List.mem_filter.mp he).2).symm

theorem set_new (h : ∀ e ∈ es, sig ≠ e.1) : set es sig exp = es ++ [(sig, exp)] := by
  rw [set, if_neg]
  rw [List.any_eq_true]
  rintro ⟨e, he, hsig⟩
  exact h e he (of_decide_eq_true hsig).symm

omit [DecidableEq H] in
theorem evict_fits (h : es.length ≤ max) : evict max es = es ∧ evicted max es = [] := by
  cases es with
  | nil => exact ⟨rfl, rfl⟩
  | cons e es =>
    rw [evict, evicted, if_neg (not_lt.mpr h), if_neg (not_lt.mpr h)]
    exact ⟨rfl, rfl⟩

omit [DecidableEq H] in
theorem evict_length : (evict max es).length ≤ max := by
  induction es with
  | nil => exact Nat.zero_le max
  | cons e es ih =>
    rw [evict]
    split
    · exact ih
    · next h => exact not_lt.mp h

omit [DecidableEq H] in
theorem evict_kept (h : Recent.Kept life es log now) :
    Recent.Kept life (evict max es) (log ++ (evicted max es).map .evicted) now := by
  induction es generalizing log with
  | nil =>
    rw [evict, evicted, List.map_nil, List.append_nil]
    exact h
  | cons e es ih =>
    rw [evict, evicted]
    split
    · have hlater := ih h.evict
      rw [List.append_assoc] at hlater
      exact hlater
    · rw [List.map_nil, List.append_nil]
      exact h

-- What an eviction needs: as many younger records as the cap allows.
def Crowded (max : Nat) (pre : List (Note H Rat)) (n : Note H Rat) : Prop :=
  ∀ sig, n = .evicted sig → ∃ older t newer, pre = older ++ .recorded sig t :: newer ∧
    (∀ n ∈ newer, n.key ≠ sig) ∧ max ≤ newer.countP Note.isRecorded

omit [DecidableEq H] in
theorem evict_crowded (h : Recent.Kept life es log now) (hc : Each (Crowded max) log) :
    Each (Crowded max) (log ++ (evicted max es).map .evicted) := by
  induction es generalizing log with
  | nil =>
    rw [evicted, List.map_nil, List.append_nil]
    exact hc
  | cons e es ih =>
    rw [evicted]
    split
    · next hover =>
      have hone : Each (Crowded max) (log ++ [.evicted e.1]) := by
        refine each_snoc.mpr ⟨hc, ?_⟩
        rintro _ ⟨⟩
        obtain ⟨older, t, newer, hlog, -, hnewer, hlen⟩ := h.crowded
        exact ⟨older, t, newer, hlog, hnewer, le_trans (Nat.lt_succ_iff.mp hover) hlen⟩
      have hlater := ih h.evict hone
      rw [List.append_assoc] at hlater
      exact hlater
    · rw [List.map_nil, List.append_nil]
      exact hc

omit [DecidableEq H] in
-- The sweep may stop at the first entry that still counts.
theorem dropWhile_live (h : es.Pairwise fun e f => e.2 ≤ f.2) :
    ∀ e ∈ es, now < e.2 → e ∈ es.dropWhile fun e => e.2 ≤ now := by
  induction es with
  | nil => exact fun e he => nomatch he
  | cons f es ih =>
    obtain ⟨hf, hes⟩ := List.pairwise_cons.mp h
    intro e he hlive
    by_cases hover : f.2 ≤ now
    · rw [List.dropWhile_cons_of_pos (by rw [decide_eq_true_eq]; exact hover)]
      rcases List.mem_cons.mp he with rfl | he
      · exact absurd hover (not_le.mpr hlive)
      · exact ih hes e he hlive
    · rw [List.dropWhile_cons_of_neg (by rw [decide_eq_true_eq]; exact hover)]
      exact he

omit [DecidableEq H] in
theorem expire_kept (h : Recent.Kept life es log now) :
    Recent.Kept life (es.dropWhile fun e => e.2 ≤ now) log now :=
  h.forget (List.dropWhile_sublist _) (dropWhile_live h.ordered)

theorem delete_kept (h : Recent.Kept life es log now) (hover : ∀ exp ∈ get es sig, exp ≤ now) :
    Recent.Kept life (delete es sig) log now := by
  refine h.forget List.filter_sublist ?_
  intro e he hlive
  refine List.mem_filter.mpr ⟨he, decide_eq_true ?_⟩
  rintro rfl
  cases hget : get es e.1 with
  | none => exact get_none hget e he rfl
  | some exp =>
    have hexp : exp = e.2 := h.traced.unique (get_some hget) he
    exact not_lt.mpr (hover exp hget) (hexp ▸ hlive)

-- The Map against its history: up to the cap, and put out only for the cap.
structure Sound (R : Knobs) (seen : List (H × Rat)) (log : List (Note H Rat)) (now : Rat) : Prop where
  kept : Recent.Kept (fun t => t + WINDOW R) seen log now
  small : seen.length ≤ MAX R
  crowded : Each (Crowded (MAX R)) log

omit [DecidableEq H] in
theorem Sound.mono {a b : Rat} (h : Sound R es log a) (hab : a ≤ b) : Sound R es log b :=
  ⟨h.kept.mono (WINDOW_mono R) hab, h.small, h.crowded⟩

omit [DecidableEq H] in
theorem Sound.tidy (h : Sound R s.seen log now) : Sound R (tidy R s now).seen log now ∧ tidied R s now = [] := by
  unfold ReplayGuard.tidy tidied
  split
  · have hle : (s.seen.dropWhile fun e => e.2 ≤ now).length ≤ MAX R :=
      le_trans (List.dropWhile_sublist _).length_le h.small
    have hfits := @evict_fits H (s.seen.dropWhile fun e => e.2 ≤ now) (MAX R) hle
    rw [sweep, swept, hfits.1, hfits.2]
    exact ⟨⟨expire_kept h.kept, hle, h.crowded⟩, rfl⟩
  · exact ⟨h, rfl⟩

theorem Sound.record (h : Sound R es log r.now) (hover : ∀ exp ∈ get es sig, exp ≤ r.now)
    (hsig : signature sha256 r = sig) : Sound R
      (ReplayGuard.record R { s with seen := delete es sig } sig r.now).seen
      (log ++ (.recorded r :: cut R (ReplayGuard.set (delete es sig) sig (r.now + WINDOW R)) r.now).map
        (Event.note sha256)) r.now := by
  have hrec := (delete_kept h.kept hover).record delete_other (a := r.now)
  have hcrowded : Each (Crowded (MAX R)) (log ++ [.recorded sig r.now]) :=
    each_snoc.mpr ⟨h.crowded, by rintro _ ⟨⟩⟩
  have hsplit : ∀ ns : List (Event H), log ++ (Event.recorded r :: ns).map (Event.note sha256) =
      (log ++ [.recorded sig r.now]) ++ ns.map (Event.note sha256) := by
    intro ns
    rw [List.map_cons, Event.note, hsig, List.append_assoc]
    rfl
  unfold ReplayGuard.record cut
  rw [set_new delete_other, hsplit]
  dsimp only
  split
  · have hmap : ∀ sigs : List H, (sigs.map Event.evicted).map (Event.note sha256) = sigs.map .evicted :=
      fun sigs => List.map_map
    rw [hmap, sweep, swept]
    exact ⟨evict_kept (expire_kept hrec), evict_length, evict_crowded (expire_kept hrec) hcrowded⟩
  · next hfit =>
    rw [List.map_nil, List.append_nil]
    exact ⟨hrec, not_lt.mp hfit, hcrowded⟩

theorem isReplay_unguarded (h : ¬Guarded R r) : isReplay R sha256 s r = (s, false) := by
  unfold isReplay
  split
  · rfl
  · next henabled =>
    split
    · rfl
    · next hbody =>
      split
      · rfl
      · next hexclude =>
        rw [Bool.not_eq_true', Bool.not_eq_false] at henabled
        exact absurd ⟨henabled, hbody, hexclude⟩ h

theorem isReplay_guarded (h : Guarded R r) : isReplay R sha256 s r =
    match get (tidy R s r.now).seen (signature sha256 r) with
    | some exp =>
      if r.now < exp then (tidy R s r.now, true)
      else (record R { tidy R s r.now with seen := delete (tidy R s r.now).seen (signature sha256 r) }
        (signature sha256 r) r.now, false)
    | none => (record R (tidy R s r.now) (signature sha256 r) r.now, false) := by
  obtain ⟨henabled, hbody, hexclude⟩ := h
  have hon : ¬(!R.enabled) = true := by rw [henabled]; decide
  rw [isReplay, if_neg hon, if_neg hbody, if_neg hexclude]

theorem delete_absent (h : get es sig = none) : delete es sig = es :=
  List.filter_eq_self.mpr fun e he => decide_eq_true (get_none h e he)

theorem isReplay_cases (h : Guarded R r) :
    (∃ exp, get (tidy R s r.now).seen (signature sha256 r) = some exp ∧ r.now < exp ∧
      isReplay R sha256 s r = (tidy R s r.now, true)) ∨
    (∀ exp ∈ get (tidy R s r.now).seen (signature sha256 r), exp ≤ r.now) ∧
      isReplay R sha256 s r =
        (record R { tidy R s r.now with seen := delete (tidy R s r.now).seen (signature sha256 r) }
          (signature sha256 r) r.now, false) := by
  rw [isReplay_guarded h]
  cases hget : get (tidy R s r.now).seen (signature sha256 r) with
  | none =>
    right
    rw [delete_absent hget]
    exact ⟨nofun, rfl⟩
  | some exp =>
    dsimp only
    by_cases hlive : r.now < exp
    · rw [if_pos hlive]
      exact Or.inl ⟨exp, rfl, hlive, rfl⟩
    · rw [if_neg hlive]
      refine Or.inr ⟨?_, rfl⟩
      rintro _ ⟨⟩
      exact not_lt.mp hlive

theorem Sound.isReplay (h : Sound R s.seen log r.now) (sha256 : List UInt8 → H) : Sound R (isReplay R sha256 s r).1.seen
    (log ++ (events R sha256 s r).map (Event.note sha256)) r.now := by
  by_cases hg : Guarded R r
  · obtain ⟨htidy, hnone⟩ := h.tidy
    rw [events, if_pos hg, hnone]
    rcases @isReplay_cases H _ R sha256 s r hg with ⟨exp, -, -, hyes⟩ | ⟨hover, hno⟩
    · rw [hyes]
      change Sound R (ReplayGuard.tidy R s r.now).seen (log ++ []) r.now
      rw [List.append_nil]
      exact htidy
    · rw [hno]
      exact htidy.record hover rfl
  · rw [isReplay_unguarded hg, events, if_neg hg, List.map_nil, List.append_nil]
    exact h

theorem Sound.verdict (h : Sound R s.seen log r.now) (hg : Guarded R r) :
    (ReplayGuard.isReplay R sha256 s r).2 = true ↔ ∃ pre t post,
      log = pre ++ .recorded (signature sha256 r) t :: post ∧ .evicted (signature sha256 r) ∉ post ∧
        r.now < t + WINDOW R := by
  obtain ⟨htidy, -⟩ := h.tidy
  rw [← htidy.kept.live_iff]
  rcases @isReplay_cases H _ R sha256 s r hg with ⟨exp, hget, hlive, hyes⟩ | ⟨hover, hno⟩
  · rw [hyes]
    exact iff_of_true rfl ⟨exp, get_some hget, hlive⟩
  · rw [hno]
    refine iff_of_false Bool.false_ne_true ?_
    rintro ⟨exp, hexp, hlive⟩
    cases hget : get (ReplayGuard.tidy R s r.now).seen (signature sha256 r) with
    | none => exact get_none hget _ hexp rfl
    | some exp' =>
      have heq : exp' = exp := htidy.kept.traced.unique (get_some hget) hexp
      exact not_lt.mpr (hover exp' hget) (heq ▸ hlive)

theorem historyFrom_append {rs qs : List Request} : historyFrom R sha256 s (rs ++ qs) =
    historyFrom R sha256 s rs ++
      historyFrom R sha256 (rs.foldl (fun s r => (isReplay R sha256 s r).1) s) qs := by
  induction rs generalizing s with
  | nil => rfl
  | cons r rs ih =>
    rw [List.cons_append, historyFrom, ih, ← List.append_assoc]
    rfl

theorem history_snoc {rs : List Request} : history R sha256 (rs ++ [r]) =
    history R sha256 rs ++ events R sha256 (after R sha256 rs) r := by
  have hone : historyFrom R sha256 (after R sha256 rs) [r] = events R sha256 (after R sha256 rs) r :=
    List.append_nil _
  rw [history, historyFrom_append, ← hone]
  rfl

theorem after_snoc {rs : List Request} : after R sha256 (rs ++ [r]) =
    (isReplay R sha256 (after R sha256 rs) r).1 := List.foldl_append ..

theorem after_sound {rs : List Request} (hclock : rs.Pairwise fun x y => x.now ≤ y.now)
    (hnow : ∀ r ∈ rs, r.now ≤ now) :
    Sound R (after R sha256 rs).seen ((history R sha256 rs).map (Event.note sha256)) now := by
  induction rs using List.reverseRecOn generalizing now with
  | nil => exact ⟨Recent.Kept.empty, Nat.zero_le _, each_nil⟩
  | append_singleton rs r ih =>
    obtain ⟨hrs, -, hlast⟩ := List.pairwise_append.mp hclock
    have hstep := (ih hrs fun q hq => hlast q hq r List.mem_cons_self).isReplay sha256
    rw [after_snoc, history_snoc, List.map_append]
    exact hstep.mono (hnow r (List.mem_append_right _ List.mem_cons_self))

theorem events_recorded {q : Request} (h : .recorded q ∈ events R sha256 s r) : q = r ∧ Guarded R r := by
  have hevict : ∀ sigs : List H, .recorded q ∉ sigs.map Event.evicted := by
    intro sigs hin
    obtain ⟨_, -, he⟩ := List.mem_map.mp hin
    cases he
  by_cases hg : Guarded R r
  · rw [events, if_pos hg] at h
    refine ⟨?_, hg⟩
    rcases List.mem_append.mp h with htidied | hfresh
    · unfold tidied at htidied
      split at htidied
      · exact absurd htidied (hevict _)
      · cases htidied
    · split at hfresh
      · cases hfresh
      · rcases List.mem_cons.mp hfresh with heq | hcut
        · exact Event.recorded.inj heq
        · unfold cut at hcut
          split at hcut
          · exact absurd hcut (hevict _)
          · cases hcut
  · rw [events, if_neg hg] at h
    cases h

theorem history_recorded {rs : List Request} (h : .recorded r ∈ history R sha256 rs) : r ∈ rs ∧ Guarded R r := by
  induction rs using List.reverseRecOn with
  | nil => cases h
  | append_singleton rs q ih =>
    rw [history_snoc] at h
    rcases List.mem_append.mp h with hold | hnew
    · obtain ⟨hin, hg⟩ := ih hold
      exact ⟨List.mem_append_left _ hin, hg⟩
    · obtain ⟨rfl, hg⟩ := events_recorded hnew
      exact ⟨List.mem_append_right _ List.mem_cons_self, hg⟩

omit [DecidableEq H] in
theorem signature_inj (hsha : Function.Injective sha256) {q : Request} (hr : '\x00' ∉ r.endpoint.toList)
    (hq : '\x00' ∉ q.endpoint.toList) :
    signature sha256 q = signature sha256 r ↔ q.endpoint = r.endpoint ∧ q.body = r.body := by
  constructor
  · intro h
    obtain ⟨hendpoint, hbody⟩ := utf8_nul hq hr (hsha h)
    exact ⟨String.toList_inj.mp hendpoint, hbody⟩
  · rintro ⟨hendpoint, hbody⟩
    rw [signature, signature, hendpoint, hbody]

omit [DecidableEq H] in
theorem note_split {es : List (Event H)} {pre post : List (Note H Rat)} {n : Note H Rat}
    (h : es.map (Event.note sha256) = pre ++ n :: post) : ∃ older e newer, es = older ++ e :: newer ∧
      older.map (Event.note sha256) = pre ∧ e.note sha256 = n ∧ newer.map (Event.note sha256) = post := by
  obtain ⟨older, rest, rfl, hpre, hrest⟩ := List.map_eq_append_iff.mp h
  obtain ⟨e, newer, rfl, hn, hpost⟩ := List.map_eq_cons_iff.mp hrest
  exact ⟨older, e, newer, rfl, hpre, hn, hpost⟩

omit [DecidableEq H] in
theorem note_evicted {es : List (Event H)} : .evicted sig ∈ es.map (Event.note sha256) ↔ .evicted sig ∈ es := by
  constructor
  · intro h
    obtain ⟨e, he, hn⟩ := List.mem_map.mp h
    cases e with
    | recorded r => cases hn
    | evicted sig' =>
      cases hn
      exact he
  · exact List.mem_map_of_mem

-- The same request was recorded as fresh within the window, and the cap has not put it out since.
def Fresh (R : Knobs) (sha256 : List UInt8 → H) (log : List (Event H)) (r : Request) : Prop :=
  ∃ older q newer, log = older ++ .recorded q :: newer ∧ q.endpoint = r.endpoint ∧ q.body = r.body ∧
    r.now - q.now < WINDOW R ∧ .evicted (signature sha256 r) ∉ newer

theorem isReplay_iff {rs : List Request} (hsha : Function.Injective sha256) (henabled : R.enabled = true)
    (hnul : ∀ q ∈ rs, '\x00' ∉ q.endpoint.toList) (hr : '\x00' ∉ r.endpoint.toList)
    (hs : Sound R (after R sha256 rs).seen ((history R sha256 rs).map (Event.note sha256)) r.now)
    (hexclude : r.endpoint ∉ R.exclude) : (isReplay R sha256 (after R sha256 rs) r).2 = true ↔
      Fresh R sha256 (history R sha256 rs) r := by
  by_cases hbody : r.body = []
  · rw [isReplay_unguarded fun hg => hg.2.1 hbody]
    refine iff_of_false Bool.false_ne_true ?_
    rintro ⟨older, q, newer, hlog, -, hq, -⟩
    have hin : .recorded q ∈ history R sha256 rs := by
      rw [hlog]
      exact List.mem_append_right _ List.mem_cons_self
    exact (history_recorded hin).2.2.1 (hq.trans hbody)
  · rw [hs.verdict ⟨henabled, hbody, hexclude⟩]
    constructor
    · rintro ⟨pre, t, post, hlog, hpost, hlive⟩
      obtain ⟨older, e, newer, hsplit, -, he, rfl⟩ := note_split hlog
      cases e with
      | evicted sig => cases he
      | recorded q =>
        have hin : .recorded q ∈ history R sha256 rs := by
          rw [hsplit]
          exact List.mem_append_right _ List.mem_cons_self
        obtain ⟨hsig, rfl⟩ := Note.recorded.inj he
        obtain ⟨hendpoint, hsame⟩ := (signature_inj hsha hr (hnul q (history_recorded hin).1)).mp hsig
        exact ⟨older, q, newer, hsplit, hendpoint, hsame, sub_lt_iff_lt_add'.mpr hlive,
          fun hm => hpost (note_evicted.mpr hm)⟩
    · rintro ⟨older, q, newer, hlog, hendpoint, hsame, hlive, hnot⟩
      refine ⟨older.map (Event.note sha256), q.now, newer.map (Event.note sha256), ?_,
        fun hm => hnot (note_evicted.mp hm), sub_lt_iff_lt_add'.mp hlive⟩
      rw [hlog, List.map_append, List.map_cons, Event.note, signature, hendpoint, hsame]
      rfl

theorem replay_guard (hsha : Function.Injective sha256) (henabled : R.enabled = true) {rs : List Request}
    (hclock : rs.Pairwise fun x y => x.now ≤ y.now) (hnul : ∀ q ∈ rs, '\x00' ∉ q.endpoint.toList) :
    ∀ pre r post, rs = pre ++ r :: post →
      (r.endpoint ∉ R.exclude → ((isReplay R sha256 (after R sha256 pre) r).2 = true ↔
        Fresh R sha256 (history R sha256 pre) r)) ∧
      ((isReplay R sha256 (after R sha256 pre) r).1.seen.Pairwise fun e f => e.2 ≤ f.2) ∧
      (isReplay R sha256 (after R sha256 pre) r).1.seen.length ≤ MAX R ∧
      (∀ e ∈ (after R sha256 pre).seen, r.now < e.2 → e ∈ (isReplay R sha256 (after R sha256 pre) r).1.seen ∨
        .evicted e.1 ∈ events R sha256 (after R sha256 pre) r) ∧
      (∀ older sig newer, history R sha256 (pre ++ [r]) = older ++ .evicted sig :: newer →
        ∃ before q since, older = before ++ .recorded q :: since ∧ signature sha256 q = sig ∧
          (∀ q', .recorded q' ∈ since → signature sha256 q' ≠ sig) ∧
          MAX R ≤ since.countP Event.isRecorded) := by
  rintro pre r post rfl
  obtain ⟨hpre, hrest, hcross⟩ := List.pairwise_append.mp hclock
  have hs : Sound R (after R sha256 pre).seen ((history R sha256 pre).map (Event.note sha256)) r.now :=
    after_sound hpre fun q hq => hcross q hq r List.mem_cons_self
  have hnext := hs.isReplay sha256
  refine ⟨?_, hnext.kept.ordered, hnext.small, ?_, ?_⟩
  · exact isReplay_iff hsha henabled (fun q hq => hnul q (List.mem_append_left _ hq))
      (hnul r (List.mem_append_right _ List.mem_cons_self)) hs
  · intro e he hlive
    by_cases hout : .evicted e.1 ∈ events R sha256 (after R sha256 pre) r
    · exact Or.inr hout
    · left
      obtain ⟨older, t, newer, hlog, ht, hnewer⟩ := hs.kept.traced.entry he
      have hall : (history R sha256 pre).map (Event.note sha256) ++
          (events R sha256 (after R sha256 pre) r).map (Event.note sha256) =
          older ++ .recorded e.1 t :: (newer ++ (events R sha256 (after R sha256 pre) r).map
            (Event.note sha256)) := by
        rw [hlog, List.append_assoc]
        rfl
      have hkept := hnext.kept.complete older e.1 t _ hall ?_ (ht ▸ hlive)
      · rw [ht] at hkept
        exact hkept
      · intro hm
        rcases List.mem_append.mp hm with hm | hm
        · exact hnewer _ hm rfl
        · exact hout (note_evicted.mp hm)
  · intro older sig newer hlog
    rw [history_snoc] at hlog
    have hcut := hnext.crowded (older.map (Event.note sha256)) (.evicted sig)
      (newer.map (Event.note sha256)) (by rw [← List.map_append, hlog, List.map_append]; rfl) sig rfl
    obtain ⟨before, t, since, hsplit, hsince, hmany⟩ := hcut
    obtain ⟨before, e, since, rfl, rfl, he, rfl⟩ := note_split hsplit
    cases e with
    | evicted sig' => cases he
    | recorded q =>
      obtain ⟨hsig, -⟩ := Note.recorded.inj he
      refine ⟨before, q, since, rfl, hsig, ?_, ?_⟩
      · intro q' hq'
        exact hsince _ (List.mem_map_of_mem hq')
      · rw [List.countP_map] at hmany
        refine le_trans hmany (le_of_eq (List.countP_congr fun e _ => ?_))
        cases e <;> exact Iff.rfl

end guard

-- A guard that keeps one request for a second.
def single : Knobs := ⟨true, some 1000, some 1, []⟩

theorem replay_guard_resent : [(⟨"Login", [1], 0⟩ : Request), ⟨"Login", [1], 999⟩].Pairwise
      (fun x y => x.now ≤ y.now) ∧
    ((isReplay single id (after single id [⟨"Login", [1], 0⟩]) ⟨"Login", [1], 999⟩).2 = true ↔
      Fresh single id (history single id [⟨"Login", [1], 0⟩]) ⟨"Login", [1], 999⟩) := by
  have hclock : [(⟨"Login", [1], 0⟩ : Request), ⟨"Login", [1], 999⟩].Pairwise (fun x y => x.now ≤ y.now) := by
    decide
  refine ⟨hclock, (replay_guard Function.injective_id rfl hclock ?_ [⟨"Login", [1], 0⟩] _ [] rfl).1 nofun⟩
  decide +kernel

example : (isReplay single id (after single id [⟨"Login", [1], 0⟩]) ⟨"Login", [1], 999⟩).2 = true := by
  decide +kernel

end ReplayGuard

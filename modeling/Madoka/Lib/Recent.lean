import Mathlib.Order.Lattice
import Mathlib.Order.Monotone.Defs
import Mathlib.Data.List.Pairwise
import Madoka.Lib.History

namespace Lib

-- What happens to the keys that a bounded memory keeps, oldest first: one is recorded, or one is
-- put out before its time to make room.
inductive Note (κ τ : Type) where
  | recorded (key : κ) (now : τ)
  | evicted (key : κ)
  deriving DecidableEq, Repr

namespace Note

variable {κ τ : Type}

def key : Note κ τ → κ
  | recorded k _ => k
  | evicted k => k

def isRecorded : Note κ τ → Bool
  | recorded _ _ => true
  | evicted _ => false

end Note

namespace Recent

variable {κ τ : Type} {life : τ → τ} {es fs : List (κ × τ)} {log : List (Note κ τ)}
  {e : κ × τ} {n : Note κ τ} {k : κ} {a b : τ}

-- Each entry comes from a note of the log after which its key is not named again, and the entries
-- behind it are younger.
def Traced (life : τ → τ) : List (κ × τ) → List (Note κ τ) → Prop
  | [], _ => True
  | e :: es, log => ∃ pre t post, log = pre ++ .recorded e.1 t :: post ∧ life t = e.2 ∧
      (∀ n ∈ post, n.key ≠ e.1) ∧ Traced life es post

theorem Traced.behind (h : Traced life es log) (pre : List (Note κ τ)) : Traced life es (pre ++ log) := by
  cases es with
  | nil => trivial
  | cons e es =>
    obtain ⟨pre', t, post, rfl, ht, hpost, hes⟩ := h
    exact ⟨pre ++ pre', t, post, (List.append_assoc ..).symm, ht, hpost, hes⟩

theorem Traced.tail (h : Traced life (e :: es) log) : Traced life es log := by
  obtain ⟨pre, t, post, rfl, -, -, hes⟩ := h
  have hone : pre ++ .recorded e.1 t :: post = (pre ++ [.recorded e.1 t]) ++ post := by
    rw [List.append_assoc]
    rfl
  rw [hone]
  exact hes.behind _

theorem Traced.sublist (h : Traced life es log) (hs : fs.Sublist es) : Traced life fs log := by
  induction hs generalizing log with
  | slnil => trivial
  | cons e _ ih => exact ih h.tail
  | cons_cons e _ ih =>
    obtain ⟨pre, t, post, hlog, ht, hpost, hes⟩ := h
    exact ⟨pre, t, post, hlog, ht, hpost, ih hes⟩

theorem Traced.snoc (h : Traced life es log) (hn : ∀ e ∈ es, n.key ≠ e.1) :
    Traced life es (log ++ [n]) := by
  induction es generalizing log with
  | nil => trivial
  | cons e es ih =>
    obtain ⟨pre, t, post, rfl, ht, hpost, hes⟩ := h
    refine ⟨pre, t, post ++ [n], List.append_assoc .., ht, ?_, ih hes fun e' he => hn e' (List.mem_cons_of_mem _ he)⟩
    intro m hm
    rcases List.mem_append.mp hm with hm | hm
    · exact hpost m hm
    · rw [List.mem_singleton.mp hm]
      exact hn e List.mem_cons_self

theorem Traced.record (h : Traced life es log) (hk : ∀ e ∈ es, k ≠ e.1) :
    Traced life (es ++ [(k, life a)]) (log ++ [.recorded k a]) := by
  induction es generalizing log with
  | nil => exact ⟨log, a, [], rfl, rfl, nofun, trivial⟩
  | cons e es ih =>
    obtain ⟨pre, t, post, rfl, ht, hpost, hes⟩ := h
    refine ⟨pre, t, post ++ [.recorded k a], List.append_assoc .., ht, ?_,
      ih hes fun e' he => hk e' (List.mem_cons_of_mem _ he)⟩
    intro m hm
    rcases List.mem_append.mp hm with hm | hm
    · exact hpost m hm
    · rw [List.mem_singleton.mp hm]
      exact hk e List.mem_cons_self

theorem Traced.entry (h : Traced life es log) (he : e ∈ es) :
    ∃ pre t post, log = pre ++ .recorded e.1 t :: post ∧ life t = e.2 ∧ ∀ n ∈ post, n.key ≠ e.1 := by
  obtain ⟨es₁, es₂, rfl⟩ := List.append_of_mem he
  have hsub : (e :: es₂).Sublist (es₁ ++ e :: es₂) := List.sublist_append_right ..
  obtain ⟨pre, t, post, hlog, ht, hpost, -⟩ := h.sublist hsub
  exact ⟨pre, t, post, hlog, ht, hpost⟩

theorem Traced.other (h : Traced life (e :: es) log) : ∀ f ∈ es, e.1 ≠ f.1 := by
  obtain ⟨pre, t, post, rfl, -, hpost, hes⟩ := h
  intro f hf
  obtain ⟨pre', t', post', rfl, -⟩ := hes.entry hf
  exact (hpost _ (List.mem_append_right _ List.mem_cons_self)).symm

theorem Traced.length_le (h : Traced life es log) : es.length ≤ log.countP Note.isRecorded := by
  induction es generalizing log with
  | nil => exact Nat.zero_le _
  | cons e es ih =>
    obtain ⟨pre, t, post, rfl, -, -, hes⟩ := h
    have hle := ih hes
    rw [List.countP_append, List.countP_cons_of_pos rfl, List.length_cons]
    omega

theorem Traced.unique (h : Traced life es log) {x y : τ} (hx : (k, x) ∈ es) (hy : (k, y) ∈ es) : x = y := by
  induction es generalizing log with
  | nil => cases hx
  | cons e es ih =>
    have hother := h.other
    rcases List.mem_cons.mp hx with rfl | hx'
    · rcases List.mem_cons.mp hy with he | hy'
      · exact (Prod.mk.inj he).2.symm
      · exact absurd rfl (hother (k, y) hy')
    · rcases List.mem_cons.mp hy with rfl | hy'
      · exact absurd rfl (hother (k, x) hx')
      · exact ih h.tail hx' hy'

variable [LinearOrder τ]

-- The entries are in the order in which they end, and every key that was recorded and not put out
-- is there until its time is over.
structure Kept (life : τ → τ) (es : List (κ × τ)) (log : List (Note κ τ)) (now : τ) : Prop where
  traced : Traced life es log
  ordered : es.Pairwise fun e f => e.2 ≤ f.2
  young : ∀ e ∈ es, e.2 ≤ life now
  complete : ∀ pre k t post, log = pre ++ .recorded k t :: post → .evicted k ∉ post → now < life t →
    (k, life t) ∈ es

theorem Kept.empty : Kept life ([] : List (κ × τ)) [] a where
  traced := trivial
  ordered := List.Pairwise.nil
  young := nofun
  complete := by
    intro pre k t post hlog
    exact absurd hlog.symm (List.append_ne_nil_of_right_ne_nil _ (List.cons_ne_nil _ _))

theorem Kept.mono (h : Kept life es log a) (hlife : Monotone life) (hab : a ≤ b) : Kept life es log b where
  traced := h.traced
  ordered := h.ordered
  young e he := le_trans (h.young e he) (hlife hab)
  complete pre k t post hlog hpost hb := h.complete pre k t post hlog hpost (lt_of_le_of_lt hab hb)

theorem Kept.forget (h : Kept life es log a) (hs : fs.Sublist es) (hlive : ∀ e ∈ es, a < e.2 → e ∈ fs) :
    Kept life fs log a where
  traced := h.traced.sublist hs
  ordered := h.ordered.sublist hs
  young e he := h.young e (hs.subset he)
  complete pre k t post hlog hpost ha := hlive _ (h.complete pre k t post hlog hpost ha) ha

theorem Kept.record (h : Kept life es log a) (hk : ∀ e ∈ es, k ≠ e.1) :
    Kept life (es ++ [(k, life a)]) (log ++ [.recorded k a]) a where
  traced := h.traced.record hk
  ordered := by
    refine List.pairwise_append.mpr ⟨h.ordered, List.pairwise_singleton .., ?_⟩
    intro e he f hf
    rw [List.mem_singleton.mp hf]
    exact h.young e he
  young := by
    intro e he
    rcases List.mem_append.mp he with he | he
    · exact h.young e he
    · rw [List.mem_singleton.mp he]
  complete := by
    intro pre k' t post hlog hpost ha
    rcases split_snoc hlog with ⟨rfl, -, hn⟩ | ⟨post', rfl, hlog'⟩
    · cases hn
      exact List.mem_append_right _ List.mem_cons_self
    · have hnot : .evicted k' ∉ post' := fun hm => hpost (List.mem_append_left _ hm)
      exact List.mem_append_left _ (h.complete pre k' t post' hlog' hnot ha)

theorem Kept.evict (h : Kept life (e :: es) log a) : Kept life es (log ++ [.evicted e.1]) a where
  traced := h.traced.tail.snoc h.traced.other
  ordered := (List.pairwise_cons.mp h.ordered).2
  young f hf := h.young f (List.mem_cons_of_mem _ hf)
  complete := by
    intro pre k t post hlog hpost ha
    rcases split_snoc hlog with ⟨-, -, hn⟩ | ⟨post', rfl, hlog'⟩
    · cases hn
    · have hnot : .evicted k ∉ post' := fun hm => hpost (List.mem_append_left _ hm)
      rcases List.mem_cons.mp (h.complete pre k t post' hlog' hnot ha) with rfl | hin
      · exact absurd (List.mem_append_right _ List.mem_cons_self) hpost
      · exact hin

-- A key is there and still counts just when it was recorded within its time and not put out since.
theorem Kept.live_iff (h : Kept life es log a) : (∃ x, (k, x) ∈ es ∧ a < x) ↔
    ∃ pre t post, log = pre ++ .recorded k t :: post ∧ .evicted k ∉ post ∧ a < life t := by
  constructor
  · rintro ⟨x, hx, ha⟩
    obtain ⟨pre, t, post, hlog, ht, hpost⟩ := h.traced.entry hx
    exact ⟨pre, t, post, hlog, fun hm => hpost _ hm rfl, ht ▸ ha⟩
  · rintro ⟨pre, t, post, hlog, hpost, ha⟩
    exact ⟨life t, h.complete pre k t post hlog hpost ha, ha⟩

theorem Kept.crowded (h : Kept life (e :: es) log a) : ∃ pre t post, log = pre ++ .recorded e.1 t :: post ∧
    life t = e.2 ∧ (∀ n ∈ post, n.key ≠ e.1) ∧ es.length ≤ post.countP Note.isRecorded := by
  obtain ⟨pre, t, post, hlog, ht, hpost, hes⟩ := h.traced
  exact ⟨pre, t, post, hlog, ht, hpost, hes.length_le⟩

end Recent

end Lib

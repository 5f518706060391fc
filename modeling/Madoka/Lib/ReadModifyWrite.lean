import Mathlib.Logic.Function.Basic
import Mathlib.Data.List.Induction
import Madoka.Lib.Run

namespace Lib

variable {κ ν δ ω μ τ ι : Type}

-- Clients of a store of rows: `view` is what an operation will save, computed from the row it
-- reads; `write` is the row after the save; `change` is a statement applied to the row in place.
structure Access (κ ν δ ω μ τ : Type) where
  selects : ω → κ → ν → Prop
  view : ω → ν → Option δ
  write : τ → δ → ν → ν
  change : μ → ν → Option ν

inductive Client (κ ν δ ω μ : Type) where
  | idle
  | held (op : ω) (k : κ) (version : Nat) (d : δ)
  | locking (u : μ) (k : κ) (row : ν)

-- `version` counts the writes of a row; no client compares it.
structure Store (κ ν δ ω μ ι : Type) where
  rows : κ → Option ν
  version : κ → Nat
  clients : ι → Client κ ν δ ω μ

inductive Commit (κ ω μ τ : Type) where
  | save (op : ω) (k : κ) (now : τ)
  | change (u : μ) (k : κ)
  deriving DecidableEq

inductive Action (κ ω μ τ ι : Type) where
  | read (i : ι) (op : ω) (k : κ)
  | commit (i : ι) (c : Commit κ ω μ τ)
  | lock (i : ι) (u : μ) (k : κ)
  | abort (i : ι)

variable [DecidableEq κ] [DecidableEq ι]

namespace Store

def goto (s : Store κ ν δ ω μ ι) (i : ι) (pc : Client κ ν δ ω μ) : Store κ ν δ ω μ ι :=
  { s with clients := Function.update s.clients i pc }

def put (s : Store κ ν δ ω μ ι) (i : ι) (k : κ) (row : ν) : Store κ ν δ ω μ ι where
  rows := Function.update s.rows k (some row)
  version := Function.update s.version k (s.version k + 1)
  clients := Function.update s.clients i .idle

def Locked (s : Store κ ν δ ω μ ι) (k : κ) : Prop :=
  ∃ i u row, s.clients i = .locking u k row

inductive Step (a : Access κ ν δ ω μ τ) (s : Store κ ν δ ω μ ι) :
    Action κ ω μ τ ι → Store κ ν δ ω μ ι → Prop where
  | read {i : ι} {op : ω} {k : κ} {row : ν} {d : δ} (hi : s.clients i = .idle)
      (hr : s.rows k = some row) (hk : a.selects op k row) (hd : a.view op row = some d) :
      Step a s (.read i op k) (s.goto i (.held op k (s.version k) d))
  | save {i : ι} {op : ω} {k : κ} {v : Nat} {d : δ} {row : ν} (now : τ)
      (hi : s.clients i = .held op k v d) (hr : s.rows k = some row) (hfree : ¬ s.Locked k) :
      Step a s (.commit i (.save op k now)) (s.put i k (a.write now d row))
  -- The statement computes the new row under the row lock; other writers of the row wait.
  | lock {i : ι} {u : μ} {k : κ} {row row' : ν} (hi : s.clients i = .idle)
      (hr : s.rows k = some row) (hu : a.change u row = some row') (hfree : ¬ s.Locked k) :
      Step a s (.lock i u k) (s.goto i (.locking u k row'))
  | change {i : ι} {u : μ} {k : κ} {row : ν} (hi : s.clients i = .locking u k row) :
      Step a s (.commit i (.change u k)) (s.put i k row)
  | abort {i : ι} : Step a s (.abort i) (s.goto i .idle)

end Store

variable {a : Access κ ν δ ω μ τ}

def Access.apply (a : Access κ ν δ ω μ τ) (rows : κ → Option ν) :
    Commit κ ω μ τ → κ → Option ν
  | .save op k now =>
    match rows k with
    | some row =>
      match a.view op row with
      | some d => Function.update rows k (some (a.write now d row))
      | none => rows
    | none => rows
  | .change u k =>
    match rows k with
    | some row =>
      match a.change u row with
      | some row' => Function.update rows k (some row')
      | none => rows
    | none => rows

def committed (es : List (Action κ ω μ τ ι)) : List (Commit κ ω μ τ) :=
  es.filterMap fun
    | .commit _ c => some c
    | _ => none

-- The row an operation saves has not been written since the operation read it.
def Fresh (s : Store κ ν δ ω μ ι) (e : Action κ ω μ τ ι) : Prop :=
  ∀ i op k now v d, e = .commit i (.save op k now) → s.clients i = .held op k v d →
    s.version k = v

structure Sound (a : Access κ ν δ ω μ τ) (s : Store κ ν δ ω μ ι) : Prop where
  held : ∀ i op k v d, s.clients i = .held op k v d → v ≤ s.version k ∧
    (v = s.version k → ∃ row, s.rows k = some row ∧ a.view op row = some d)
  locking : ∀ i u k row, s.clients i = .locking u k row →
    ∃ old, s.rows k = some old ∧ a.change u old = some row
  alone : ∀ i j u u' k row row', s.clients i = .locking u k row →
    s.clients j = .locking u' k row' → i = j

variable {s t : Store κ ν δ ω μ ι} {e : Action κ ω μ τ ι}

omit [DecidableEq κ] in
theorem client_goto {i j : ι} {p q : Client κ ν δ ω μ} (h : (s.goto i p).clients j = q) :
    (j = i ∧ q = p) ∨ (j ≠ i ∧ s.clients j = q) := by
  by_cases hj : j = i
  · subst hj
    exact Or.inl ⟨rfl, by simpa [Store.goto, eq_comm] using h⟩
  · exact Or.inr ⟨hj, by simpa [Store.goto, hj] using h⟩

theorem client_put {i j : ι} {k : κ} {row : ν} {pc : Client κ ν δ ω μ} (hpc : pc ≠ .idle)
    (h : (s.put i k row).clients j = pc) : j ≠ i ∧ s.clients j = pc := by
  rcases client_goto (s := s) (p := .idle) h with ⟨_, he⟩ | h
  · exact absurd he hpc
  · exact h

omit [DecidableEq κ] in
theorem sound_goto (hs : Sound a s) (i : ι) {pc : Client κ ν δ ω μ}
    (hheld : ∀ op k v d, pc = .held op k v d → v = s.version k ∧
      ∃ row, s.rows k = some row ∧ a.view op row = some d)
    (hlock : ∀ u k row, pc = .locking u k row → ¬ s.Locked k ∧
      ∃ old, s.rows k = some old ∧ a.change u old = some row) : Sound a (s.goto i pc) where
  held := by
    intro j op k v d hj
    rcases client_goto hj with ⟨_, he⟩ | ⟨_, hj⟩
    · obtain ⟨hv, hrow⟩ := hheld op k v d he.symm
      exact ⟨Nat.le_of_eq hv, fun _ => hrow⟩
    · exact hs.held j op k v d hj
  locking := by
    intro j u k row hj
    rcases client_goto hj with ⟨_, he⟩ | ⟨_, hj⟩
    · exact (hlock u k row he.symm).2
    · exact hs.locking j u k row hj
  alone := by
    intro j l u u' k row row' hj hl
    rcases client_goto hj with ⟨ej, he⟩ | ⟨_, hj'⟩
    · rcases client_goto hl with ⟨el, _⟩ | ⟨_, hl'⟩
      · exact ej.trans el.symm
      · exact absurd ⟨l, u', row', hl'⟩ (hlock u k row he.symm).1
    · rcases client_goto hl with ⟨_, he⟩ | ⟨_, hl'⟩
      · exact absurd ⟨j, u, row, hj'⟩ (hlock u' k row' he.symm).1
      · exact hs.alone j l u u' k row row' hj' hl'

theorem sound_put (hs : Sound a s) (i : ι) (k : κ) (row : ν)
    (hfree : ∀ j u row', s.clients j = .locking u k row' → j = i) : Sound a (s.put i k row) where
  held := by
    intro j op k' v d hj
    obtain ⟨_, hj⟩ := client_put (by rintro ⟨⟩) hj
    obtain ⟨hle, hrow⟩ := hs.held j op k' v d hj
    by_cases hk : k' = k
    · subst hk
      simp only [Store.put, Function.update_self]
      exact ⟨by omega, fun h => by omega⟩
    · simp only [Store.put, Function.update_of_ne hk]
      exact ⟨hle, hrow⟩
  locking := by
    intro j u k' row' hj
    obtain ⟨hne, hold⟩ := client_put (by rintro ⟨⟩) hj
    have hk : k' ≠ k := by
      rintro rfl
      exact hne (hfree j u row' hold)
    simp only [Store.put, Function.update_of_ne hk]
    exact hs.locking j u k' row' hold
  alone := by
    intro j l u u' k' r r' hj hl
    exact hs.alone j l u u' k' r r' (client_put (by rintro ⟨⟩) hj).2
      (client_put (by rintro ⟨⟩) hl).2

theorem sound_step (hs : Sound a s) (h : Store.Step a s e t) : Sound a t := by
  cases h with
  | read hi hr hk hd =>
    refine sound_goto hs _ ?_ ?_
    · rintro op k v d ⟨⟩
      exact ⟨rfl, _, hr, hd⟩
    · rintro u k row ⟨⟩
  | save now hi hr hfree =>
    exact sound_put hs _ _ _ fun j u row' hj => absurd ⟨j, u, row', hj⟩ hfree
  | lock hi hr hu hfree =>
    refine sound_goto hs _ ?_ ?_
    · rintro op k v d ⟨⟩
    · rintro u k row ⟨⟩
      exact ⟨hfree, _, hr, hu⟩
  | change hi => exact sound_put hs _ _ _ fun j u row' hj => hs.alone _ _ _ _ _ _ _ hj hi
  | abort => exact sound_goto hs _ (by rintro _ _ _ _ ⟨⟩) (by rintro _ _ _ ⟨⟩)

omit [DecidableEq κ] [DecidableEq ι] in
theorem committed_append (es fs : List (Action κ ω μ τ ι)) :
    committed (es ++ fs) = committed es ++ committed fs := by
  simp [committed]

theorem step_apply (hs : Sound a s) (h : Store.Step a s e t) (hf : Fresh s e) :
    t.rows = (committed [e]).foldl a.apply s.rows := by
  cases h with
  | @save i op k v d row now hi hr hfree =>
    obtain ⟨_, hview⟩ := hs.held i op k v d hi
    obtain ⟨row', hr', hd⟩ := hview (hf i op k now v d rfl hi).symm
    obtain rfl := Option.some.inj (hr.symm.trans hr')
    simp [committed, Access.apply, hr, hd, Store.put]
  | @change i u k row hi =>
    obtain ⟨old, hr, hu⟩ := hs.locking i u k row hi
    simp [committed, Access.apply, hr, hu, Store.put]
  | _ => rfl

-- When no save is stale, the committed applied one after the other give the stored rows.
theorem run_serial {es : List (Action κ ω μ τ ι)} (hs : Sound a s)
    (h : Run (Guarded (Store.Step a) Fresh) s es t) :
    t.rows = (committed es).foldl a.apply s.rows := by
  refine (run_history (I := fun es t => Sound a t ∧ t.rows = (committed es).foldl a.apply s.rows) h
    ⟨hs, rfl⟩ ?_).2
  rintro es u e v ⟨hu, hrows⟩ ⟨hstep, hf⟩
  refine ⟨sound_step hu hstep, ?_⟩
  rw [step_apply hu hstep hf, hrows, committed_append, List.foldl_append]

-- The run splits at the read of an operation in progress.
def ReadAt (a : Access κ ν δ ω μ τ) (s₀ : Store κ ν δ ω μ ι) (es : List (Action κ ω μ τ ι))
    (s : Store κ ν δ ω μ ι) (op : ω) (k : κ) (d : δ) : Prop :=
  ∃ es₁ es₂ u row, es = es₁ ++ es₂ ∧ Run (Store.Step a) s₀ es₁ u ∧ Run (Store.Step a) u es₂ s ∧
    u.rows k = some row ∧ a.selects op k row ∧ a.view op row = some d

theorem readAt_next {s₀ : Store κ ν δ ω μ ι} {es : List (Action κ ω μ τ ι)} {op : ω} {k : κ}
    {d : δ} (h : ReadAt a s₀ es s op k d) (hs : Store.Step a s e t) :
    ReadAt a s₀ (es ++ [e]) t op k d := by
  obtain ⟨es₁, es₂, u, row, rfl, h1, h2, hrest⟩ := h
  exact ⟨es₁, es₂ ++ [e], u, row, by rw [List.append_assoc], h1, h2.next hs, hrest⟩

theorem held_readAt {s₀ : Store κ ν δ ω μ ι} {es : List (Action κ ω μ τ ι)}
    (h0 : ∀ i, s₀.clients i = .idle) (h : Run (Store.Step a) s₀ es s) {i : ι} {op : ω} {k : κ}
    {v : Nat} {d : δ} (hi : s.clients i = .held op k v d) : ReadAt a s₀ es s op k d := by
  induction h generalizing i op k v d with
  | start =>
    rw [h0 i] at hi
    cases hi
  | @next es s t e hr hs ih =>
    cases hs with
    | @read j op' k' row d' hj hrow hk hd =>
      rcases client_goto hi with ⟨_, he⟩ | ⟨_, hold⟩
      · cases he
        exact ⟨es, [_], s, row, rfl, hr, run_single (.read hj hrow hk hd), hrow, hk, hd⟩
      · exact readAt_next (ih hold) (.read hj hrow hk hd)
    | save now hj hrow hfree =>
      exact readAt_next (ih (client_put (by rintro ⟨⟩) hi).2) (.save now hj hrow hfree)
    | lock hj hrow hu hfree =>
      rcases client_goto hi with ⟨_, he⟩ | ⟨_, hold⟩
      · cases he
      · exact readAt_next (ih hold) (.lock hj hrow hu hfree)
    | change hj => exact readAt_next (ih (client_put (by rintro ⟨⟩) hi).2) (.change hj)
    | abort =>
      rcases client_goto hi with ⟨_, he⟩ | ⟨_, hold⟩
      · cases he
      · exact readAt_next (ih hold) .abort

-- What holds of the row at each key, and of every document that a client is about to save there.
structure Kept (R : κ → ν → Prop) (D : κ → δ → Prop) (s : Store κ ν δ ω μ ι) : Prop where
  rows : ∀ k row, s.rows k = some row → R k row
  held : ∀ i op k v d, s.clients i = .held op k v d → D k d
  locking : ∀ i u k row, s.clients i = .locking u k row → R k row

section Kept

variable {R : κ → ν → Prop} {D : κ → δ → Prop}

omit [DecidableEq κ] [DecidableEq ι] in
theorem kept_idle (hi : ∀ i, s.clients i = .idle) (hr : ∀ k row, s.rows k = some row → R k row) : Kept R D s where
  rows := hr
  held := fun i op k v d h => absurd ((hi i).symm.trans h) (by simp)
  locking := fun i u k row h => absurd ((hi i).symm.trans h) (by simp)

omit [DecidableEq κ] in
theorem Kept.goto (h : Kept R D s) (i : ι) {pc : Client κ ν δ ω μ}
    (hheld : ∀ op k v d, pc = .held op k v d → D k d) (hlock : ∀ u k row, pc = .locking u k row → R k row) :
    Kept R D (s.goto i pc) where
  rows := h.rows
  held := fun j op k v d hj => by
    rcases client_goto hj with ⟨-, he⟩ | ⟨-, hj⟩
    · exact hheld op k v d he.symm
    · exact h.held j op k v d hj
  locking := fun j u k row hj => by
    rcases client_goto hj with ⟨-, he⟩ | ⟨-, hj⟩
    · exact hlock u k row he.symm
    · exact h.locking j u k row hj

theorem Kept.put (h : Kept R D s) (i : ι) {k : κ} {row : ν} (hrow : R k row) : Kept R D (s.put i k row) where
  rows := fun k' row' hr => by
    rw [Store.put] at hr
    dsimp only at hr
    rw [Function.update_apply] at hr
    split at hr
    · obtain rfl := Option.some.inj hr
      rename_i hk
      exact hk ▸ hrow
    · exact h.rows k' row' hr
  held := fun j op k' v d hj => h.held j op k' v d (client_put (by simp) hj).2
  locking := fun j u k' row' hj => h.locking j u k' row' (client_put (by simp) hj).2

-- A stale save may undo what others have written, but not what every operation keeps.
theorem kept_step (h : Kept R D s) (hs : Store.Step a s e t)
    (hview : ∀ i op k row d, e = .read i op k → R k row → a.view op row = some d → D k d)
    (hwrite : ∀ k now d row, D k d → R k row → R k (a.write now d row))
    (hchange : ∀ k u row row', R k row → a.change u row = some row' → R k row') : Kept R D t := by
  cases hs with
  | @read i op k row d hi hr hk hd =>
    refine h.goto i ?_ (by simp)
    rintro op' k' v' d' heq
    cases heq
    exact hview i op k row d rfl (h.rows k row hr) hd
  | @save i op k v d row now hi hr hfree =>
    exact h.put i (hwrite k now d row (h.held i op k v d hi) (h.rows k row hr))
  | @lock i u k row row' hi hr hu hfree =>
    refine h.goto i (by simp) ?_
    rintro u' k' row'' heq
    cases heq
    exact hchange k u row row' (h.rows k row hr) hu
  | @change i u k row hi => exact h.put i (h.locking i u k row hi)
  | @abort i => exact h.goto i (by simp) (by simp)

end Kept

end Lib

import Mathlib.Data.List.Induction

namespace Lib

variable {σ τ ε δ : Type}

inductive Run (step : σ → ε → σ → Prop) (s : σ) : List ε → σ → Prop where
  | start : Run step s [] s
  | next {es : List ε} {t u : σ} {e : ε} : Run step s es t → step t e u → Run step s (es ++ [e]) u

def Guarded (step : σ → ε → σ → Prop) (c : σ → ε → Prop) (s : σ) (e : ε) (t : σ) : Prop :=
  step s e t ∧ c s e

variable {step : σ → ε → σ → Prop} {s t u : σ} {es fs : List ε} {e : ε}

theorem run_single (h : step s e t) : Run step s [e] t :=
  Run.next Run.start h

theorem run_snoc_inv (h : Run step s (es ++ [e]) u) : ∃ t, Run step s es t ∧ step t e u := by
  generalize hl : es ++ [e] = l at h
  cases h with
  | start => simp at hl
  | next hr hs =>
    obtain ⟨rfl, h1⟩ := List.append_inj' hl rfl
    obtain rfl : e = _ := by simpa using h1
    exact ⟨_, hr, hs⟩

theorem run_invariant {I : σ → Prop} (h : Run step s es t) (h0 : I s)
    (hstep : ∀ {a e b}, I a → step a e b → I b) : I t := by
  induction h with
  | start => exact h0
  | next _ hs ih => exact hstep ih hs

theorem run_history {I : List ε → σ → Prop} (h : Run step s es t) (h0 : I [] s)
    (hstep : ∀ {es a e b}, I es a → step a e b → I (es ++ [e]) b) : I es t := by
  induction h with
  | start => exact h0
  | next _ hs ih => exact hstep ih hs

theorem run_mono {step' : σ → ε → σ → Prop} (h : Run step s es t)
    (hstep : ∀ {a e b}, step a e b → step' a e b) : Run step' s es t := by
  induction h with
  | start => exact Run.start
  | next _ hs ih => exact Run.next ih (hstep hs)

theorem run_of_foldlM {f : σ → ε → Option σ} (h : es.foldlM f s = some t) :
    Run (fun s e t => f s e = some t) s es t := by
  induction es using List.reverseRecOn generalizing t with
  | nil =>
    obtain rfl : s = t := by simpa using h
    exact Run.start
  | append_singleton es e ih =>
    simp only [List.foldlM_append, List.foldlM_cons, List.foldlM_nil, Option.bind_eq_bind,
      Option.bind_eq_some_iff] at h
    obtain ⟨u, hu, v, hv, hvt⟩ := h
    obtain rfl : v = t := by simpa using hvt
    exact Run.next (ih hu) hv

theorem foldlM_of_run {f : σ → ε → Option σ} (h : Run (fun s e t => f s e = some t) s es t) :
    es.foldlM f s = some t := by
  induction h with
  | start => rfl
  | next _ hs ih => simp [List.foldlM_append, ih, hs]

def logged (f : σ → ε → Option σ) (g : σ → ε → List δ) : σ → List ε → List δ
  | _, [] => []
  | s, e :: es => g s e ++
      match f s e with
      | some t => logged f g t es
      | none => []

section Logged

variable {f : σ → ε → Option σ} {g : σ → ε → List δ}

theorem logged_append (h : Run (fun s e t => f s e = some t) s es t) :
    logged f g s (es ++ fs) = logged f g s es ++ logged f g t fs := by
  have hrun := foldlM_of_run h
  clear h
  induction es generalizing s with
  | nil =>
    obtain rfl : s = t := by simpa using hrun
    rfl
  | cons e es ih =>
    rw [List.foldlM_cons, Option.bind_eq_bind, Option.bind_eq_some_iff] at hrun
    obtain ⟨u, hu, hrest⟩ := hrun
    rw [List.cons_append, logged, logged, hu]
    dsimp only
    rw [ih hrest, List.append_assoc]

theorem logged_snoc (h : Run (fun s e t => f s e = some t) s es t) :
    logged f g s (es ++ [e]) = logged f g s es ++ g t e := by
  rw [logged_append h, logged]
  congr 1
  split
  · exact List.append_nil _
  · exact List.append_nil _

theorem mem_logged {x : δ} (h : x ∈ logged f g s es) : ∃ t e, x ∈ g t e := by
  induction es generalizing s with
  | nil => cases h
  | cons e es ih =>
    rw [logged] at h
    rcases List.mem_append.mp h with h | h
    · exact ⟨s, e, h⟩
    · split at h
      · exact ih h
      · cases h

theorem length_logged (h : ∀ s e, (g s e).length ≤ 1) : (logged f g s es).length ≤ es.length := by
  induction es generalizing s with
  | nil => exact Nat.le_refl 0
  | cons e es ih =>
    rw [logged, List.length_append, List.length_cons, Nat.add_comm]
    refine Nat.add_le_add ?_ (h s e)
    split
    · exact ih
    · exact Nat.zero_le _

end Logged

theorem run_of_checked {f : σ → ε → Option σ} {c : σ → ε → Prop} [∀ s e, Decidable (c s e)]
    (h : es.foldlM (fun s e => if c s e then f s e else none) s = some t) :
    Run (Guarded (fun s e t => f s e = some t) c) s es t := by
  refine run_mono (run_of_foldlM h) fun hs => ?_
  simp only [Option.ite_none_right_eq_some] at hs
  exact ⟨hs.2, hs.1⟩

theorem guarded_run {c : σ → ε → Prop} (h : Run (Guarded step c) s es t) : Run step s es t :=
  run_mono h fun hs => hs.1

end Lib

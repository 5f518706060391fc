import Mathlib.Data.List.Basic

namespace Lib

variable {σ π β : Type}

-- A state seen as parts; `same x s t` says that the part `x` of both is the same.
structure Parts (σ π : Type) where
  same : π → σ → σ → Prop
  refl : ∀ x s, same x s s
  trans : ∀ {x s t u}, same x s t → same x t u → same x s u

def Frame (P : Parts σ π) (F : List π) (s t : σ) : Prop :=
  ∀ x, x ∉ F → P.same x s t

variable {P : Parts σ π} {F G : List π} {s t u : σ}

theorem Frame.refl (s : σ) : Frame P F s s := fun x _ => P.refl x s

theorem Frame.trans (h : Frame P F s t) (h' : Frame P F t u) : Frame P F s u :=
  fun x hx => P.trans (h x hx) (h' x hx)

theorem Frame.mono (h : Frame P F s t) (hF : F ⊆ G) : Frame P G s t :=
  fun x hx => h x fun hm => hx (hF hm)

theorem Frame.ite {c : Prop} [Decidable c] (ht : c → Frame P F s t) (hu : ¬ c → Frame P F s u) :
    Frame P F s (if c then t else u) := by
  split
  · exact ht ‹_›
  · exact hu ‹_›

theorem Frame.foldl {f : σ → β → σ} (h : ∀ s b, Frame P F s (f s b)) (l : List β) (s : σ) :
    Frame P F s (l.foldl f s) := by
  induction l generalizing s with
  | nil => exact Frame.refl s
  | cons b l ih => exact (h s b).trans (ih (f s b))

end Lib

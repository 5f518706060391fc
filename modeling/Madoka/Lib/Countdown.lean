import Mathlib.Tactic.Linarith
import Mathlib.Tactic.Ring

namespace Lib

-- A machine that moves on at a look past its deadline: how many stages are still to come, the
-- deadline of this one, and the last look.
structure Countdown where
  left : Nat
  due : Int
  seen : Int

namespace Countdown

variable (span gap : Int)

-- A look at the time `now`: the stage goes on before its deadline, or a later one begins, which
-- lasts `span` at most.
inductive Look (now : Int) : Countdown → Countdown → Prop where
  | wait {left : Nat} {due seen : Int} : now < due → Look now ⟨left, due, seen⟩ ⟨left, due, now⟩
  | next {left left' : Nat} {due due' seen : Int} : left' < left → now < due' →
    due' ≤ now + span → Look now ⟨left, due, seen⟩ ⟨left', due', now⟩

def Ahead (c : Countdown) : Prop := c.seen < c.due

-- When the last stage is over at the latest, if looks are `gap` apart at most.
def bound (c : Countdown) : Int := c.due + gap + c.left * (span + gap)

variable {span gap} {c d : Countdown} {now : Int} {n : Nat}

theorem Look.ahead (h : Look span now c d) : d.Ahead := by
  cases h with
  | wait hlt => exact hlt
  | next _ hlt _ => exact hlt

theorem Look.bound_le (h : Look span now c d) (hc : c.Ahead) (hgap : now ≤ c.seen + gap)
    (hspan : 0 ≤ span + gap) : d.bound span gap ≤ c.bound span gap := by
  cases h with
  | wait => exact Int.le_refl _
  | @next left left' due due' seen hlt _ hdue =>
    have hseen : seen < due := hc
    have hle : ((left' : Int) + 1) * (span + gap) ≤ left * (span + gap) :=
      mul_le_mul_of_nonneg_right (by exact_mod_cast hlt) hspan
    simp only [bound] at hgap ⊢
    linarith

theorem due_le_bound (hspan : 0 ≤ span + gap) : c.due + gap ≤ c.bound span gap := by
  have hpos : 0 ≤ (c.left : Int) * (span + gap) := mul_nonneg (Int.natCast_nonneg _) hspan
  unfold bound
  linarith

theorem bound_le (hdue : c.due ≤ now + span) (hleft : c.left ≤ n) (hspan : 0 ≤ span + gap) :
    c.bound span gap ≤ now + (n + 1) * (span + gap) := by
  have hle : (c.left : Int) * (span + gap) ≤ n * (span + gap) :=
    mul_le_mul_of_nonneg_right (Int.ofNat_le.mpr hleft) hspan
  unfold bound
  linarith

end Countdown

end Lib

import Mathlib.Data.List.Basic

namespace Lib

-- What stands at the front of a buffer: a frame and what comes after it, or nothing yet. More bytes
-- never change a frame that is complete.
structure Framing (α β : Type) where
  head : List β → Option (α × List β)
  consumes : ∀ buf f rest, head buf = some (f, rest) → rest.length < buf.length
  stable : ∀ buf f rest more, head buf = some (f, rest) → head (buf ++ more) = some (f, rest ++ more)

namespace Framing

variable {α β : Type} (w : Framing α β)

inductive Parses : List β → List α → List β → Prop where
  | stop {buf : List β} (h : w.head buf = none) : Parses buf [] buf
  | frame {buf more rest : List β} {f : α} {fs : List α} (h : w.head buf = some (f, more))
      (ht : Parses more fs rest) : Parses buf (f :: fs) rest

def parse : Nat → List β → List α × List β
  | 0, buf => ([], buf)
  | fuel + 1, buf =>
    match w.head buf with
    | none => ([], buf)
    | some (f, more) =>
      let parsed := parse fuel more
      (f :: parsed.1, parsed.2)

variable {w} {buf more rest rest' : List β} {fs gs : List α} {fuel : Nat}

theorem head_nil : w.head [] = none := by
  cases h : w.head [] with
  | none => rfl
  | some taken => exact absurd (w.consumes _ _ _ h) (Nat.not_lt_zero _)

-- Every turn shortens the buffer: its length is fuel enough.
theorem parses_parse (h : buf.length ≤ fuel) : w.Parses buf (w.parse fuel buf).1 (w.parse fuel buf).2 := by
  induction fuel generalizing buf with
  | zero =>
    obtain rfl := List.eq_nil_of_length_eq_zero (Nat.le_zero.mp h)
    exact .stop head_nil
  | succ fuel ih =>
    rw [parse]
    cases hhead : w.head buf with
    | none => exact .stop hhead
    | some taken =>
      obtain ⟨f, more⟩ := taken
      have hlt := w.consumes _ _ _ hhead
      exact .frame hhead (ih (by omega))

theorem parses_unique (h : w.Parses buf fs rest) (h' : w.Parses buf gs rest') : fs = gs ∧ rest = rest' := by
  induction h generalizing gs with
  | stop hnone =>
    cases h' with
    | stop => exact ⟨rfl, rfl⟩
    | frame hsome => rw [hnone] at hsome; cases hsome
  | frame hsome ht ih =>
    cases h' with
    | stop hnone => rw [hnone] at hsome; cases hsome
    | frame hsome' ht' =>
      rw [hsome] at hsome'
      cases hsome'
      obtain ⟨rfl, rfl⟩ := ih ht'
      exact ⟨rfl, rfl⟩

theorem parses_iff (h : buf.length ≤ fuel) : w.Parses buf fs rest ↔ w.parse fuel buf = (fs, rest) := by
  constructor
  · intro hp
    obtain ⟨hfs, hrest⟩ := parses_unique (parses_parse h) hp
    exact Prod.ext hfs hrest
  · intro hp
    have hall := parses_parse (w := w) h
    rwa [hp] at hall

theorem parses_append (h : w.Parses buf fs rest) (h' : w.Parses (rest ++ more) gs rest') :
    w.Parses (buf ++ more) (fs ++ gs) rest' := by
  induction h with
  | stop => exact h'
  | frame hsome ht ih => exact .frame (w.stable _ _ _ more hsome) (ih h')

theorem parses_rest (h : w.Parses buf fs rest) : w.head rest = none := by
  induction h with
  | stop h => exact h
  | frame _ _ ih => exact ih

section encoded

variable {γ : Type} {bytes : γ → List β} {frame : γ → α}

theorem parses_encoded (h : ∀ x more, w.head (bytes x ++ more) = some (frame x, more)) (xs : List γ) :
    w.Parses (xs.flatMap bytes) (xs.map frame) [] := by
  induction xs with
  | nil => exact .stop head_nil
  | cons x xs ih => exact .frame (h x _) ih

end encoded

end Framing

end Lib

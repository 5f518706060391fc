import Mathlib.Data.List.Range

namespace Lib

-- A position in a byte buffer, with every offset that has been read so far.
structure Cursor where
  o : Nat
  reads : List Nat
  deriving DecidableEq, Repr

-- A reader over a buffer; it keeps its position where it fails.
def Reader (α : Type) := List UInt8 → Cursor → Option α × Cursor

namespace Reader

variable {α β γ : Type}

def done (a : α) : Reader α := fun _ c => (some a, c)

def andThen (r : Reader α) (f : α → Reader β) : Reader β := fun buf c =>
  match r buf c with
  | (none, c') => (none, c')
  | (some a, c') => f a buf c'

instance : Monad Reader where
  pure := done
  bind := andThen

def byte (buf : List UInt8) (i : Nat) : Nat := (buf.getD i 0).toNat

-- The bound is checked before the bytes are read.
def bytes (n : Nat) : Reader (List Nat) := fun buf c =>
  if c.o + n ≤ buf.length then
    (some ((List.range n).map fun i => byte buf (c.o + i)),
      ⟨c.o + n, c.reads ++ (List.range n).map (c.o + ·)⟩)
  else (none, c)

def loop (body : α → Reader α) : Nat → α → Reader α
  | 0, a => pure a
  | n + 1, a => do loop body n (← body a)

def InBounds (buf : List UInt8) (c : Cursor) : Prop :=
  ∀ i ∈ c.reads, i < buf.length

-- Nothing past the end is read, whatever becomes of the reader.
def Safe (r : Reader α) : Prop :=
  ∀ buf c, InBounds buf c → InBounds buf (r buf c).2

variable {r : Reader α} {f : α → Reader β} {body : α → Reader α} {n o : Nat} {buf : List UInt8}
  {c c' : Cursor} {a : α}

theorem bind_eq (r : Reader α) (f : α → Reader β) : (r >>= f) = andThen r f := rfl

theorem andThen_some (h : r buf c = (some a, c')) : (r >>= f) buf c = f a buf c' := by
  rw [bind_eq, andThen, h]

theorem andThen_none (h : r buf c = (none, c')) : (r >>= f) buf c = (none, c') := by
  rw [bind_eq, andThen, h]

theorem bytes_some (h : c.o + n ≤ buf.length) :
    bytes n buf c = (some ((List.range n).map fun i => byte buf (c.o + i)),
      ⟨c.o + n, c.reads ++ (List.range n).map (c.o + ·)⟩) :=
  if_pos h

theorem bytes_none (h : buf.length < c.o + n) : bytes n buf c = (none, c) :=
  if_neg (Nat.not_le.mpr h)

theorem safe_pure (a : α) : Safe (pure a : Reader α) :=
  fun _ _ h => h

theorem Safe.bind (h : Safe r) (hf : ∀ a, Safe (f a)) : Safe (r >>= f) := by
  intro buf c hc
  have hr := h buf c hc
  rw [bind_eq, andThen]
  cases hrun : r buf c with
  | mk out c' =>
    rw [hrun] at hr
    cases out with
    | none => exact hr
    | some a => exact hf a buf c' hr

theorem safe_bytes (n : Nat) : Safe (bytes n) := by
  intro buf c hc
  unfold bytes
  split
  · rename_i h
    intro i hi
    rcases List.mem_append.mp hi with hi | hi
    · exact hc i hi
    · obtain ⟨j, hj, rfl⟩ := List.mem_map.mp hi
      exact Nat.lt_of_lt_of_le (Nat.add_lt_add_left (List.mem_range.mp hj) c.o) h
  · exact hc

theorem Safe.loop (h : ∀ a, Safe (body a)) (n : Nat) (a : α) : Safe (loop body n a) := by
  induction n generalizing a with
  | zero => exact safe_pure a
  | succ n ih => exact (h a).bind ih

-- From offset o the reader takes `width o` bytes, where there are so many, and gives `value o`.
def Takes (buf : List UInt8) (r : Reader α) (width : Nat → Nat) (value : Nat → α) : Prop :=
  ∀ c : Cursor, c.o ≤ buf.length →
    (c.o + width c.o ≤ buf.length → ∃ reads, r buf c = (some (value c.o), ⟨c.o + width c.o, reads⟩)) ∧
      (buf.length < c.o + width c.o → (r buf c).1 = none)

theorem takes_pure (a : α) : Takes buf (pure a) (fun _ => 0) fun _ => a :=
  fun c h => ⟨fun _ => ⟨c.reads, rfl⟩, fun h' => absurd h (Nat.not_le.mpr h')⟩

theorem takes_bytes (n : Nat) :
    Takes buf (bytes n) (fun _ => n) fun o => (List.range n).map fun i => byte buf (o + i) :=
  fun _ _ => ⟨fun h => ⟨_, bytes_some h⟩, fun h => by rw [bytes_none h]⟩

theorem Takes.bind {w : Nat → Nat} {w' : α → Nat → Nat} {x : Nat → α} {y : α → Nat → β}
    (h : Takes buf r w x) (hf : ∀ a, Takes buf (f a) (w' a) (y a)) :
    Takes buf (r >>= f) (fun o => w o + w' (x o) (o + w o)) fun o => y (x o) (o + w o) := by
  intro c hc
  obtain ⟨hsome, hnone⟩ := h c hc
  dsimp only
  rcases Nat.lt_or_ge buf.length (c.o + w c.o) with hlt | hge
  · have hout := hnone hlt
    refine ⟨fun hle => by omega, fun _ => ?_⟩
    cases hrun : r buf c with
    | mk out c' =>
      rw [hrun] at hout
      obtain rfl : out = none := hout
      rw [andThen_none hrun]
  · obtain ⟨reads, hrun⟩ := hsome hge
    obtain ⟨hsome', hnone'⟩ := hf (x c.o) ⟨c.o + w c.o, reads⟩ hge
    rw [andThen_some hrun]
    refine ⟨fun hle => ?_, fun hlt => hnone' (by dsimp only; omega)⟩
    obtain ⟨reads', hrun'⟩ := hsome' (by dsimp only; omega)
    exact ⟨reads', by rw [hrun', ← Nat.add_assoc]⟩

theorem Takes.map {w : Nat → Nat} {x : Nat → α} {g : α → β} (h : Takes buf r w x) :
    Takes buf (do pure (g (← r))) w fun o => g (x o) :=
  h.bind fun a => takes_pure (g a)

theorem Takes.loop {w : Nat} {y : α → Nat → α} (h : ∀ a, Takes buf (body a) (fun _ => w) (y a))
    (n : Nat) (a : α) :
    Takes buf (loop body n a) (fun _ => w * n) fun o =>
      (List.range n).foldl (fun b i => y b (o + w * i)) a := by
  induction n generalizing a with
  | zero => exact takes_pure a
  | succ n ih =>
    have hstep := (h a).bind ih
    have hwidth : (fun _ : Nat => w * (n + 1)) = fun _ => w + w * n := by
      funext o
      rw [Nat.mul_succ, Nat.add_comm]
    have hvalue : (fun o => (List.range (n + 1)).foldl (fun b i => y b (o + w * i)) a) =
        fun o => (List.range n).foldl (fun b i => y b (o + w + w * i)) (y a o) := by
      funext o
      rw [List.range_succ_eq_map, List.foldl_cons, List.foldl_map]
      simp only [Nat.mul_zero, Nat.add_zero, Nat.mul_succ, Nat.add_comm (w * _) w, Nat.add_assoc]
    rw [hwidth, hvalue]
    exact hstep

end Reader

end Lib

import Mathlib.Data.Finset.Image
import Mathlib.Data.Finset.SDiff

namespace Lib

variable {α ρ : Type}

-- What a server tells its clients about a set that it keeps; a packet is a list of signs.
inductive Sign (α : Type) where
  | shown (a : α)
  | hidden (a : α)
  deriving DecidableEq, Repr

-- What a client hears of a log that listens to the set `r` with `ears r` ears.
def hears (ears : ρ → Nat) (log : List (ρ × List (Sign α))) : List (Sign α) :=
  log.flatMap fun x => (List.replicate (ears x.1) x.2).flatten

section Mirror

variable [DecidableEq α] {S : Finset α} {l l' : List (Sign α)} {a : α}

def Sign.apply (S : Finset α) : Sign α → Finset α
  | .shown a => insert a S
  | .hidden a => S.erase a

-- The set, as a client pictures it that held `S` before it was told.
def mirror (S : Finset α) (signs : List (Sign α)) : Finset α := signs.foldl Sign.apply S

@[simp] theorem mirror_nil : mirror S [] = S := rfl

theorem mirror_shown : mirror S [.shown a] = insert a S := rfl

theorem mirror_hidden : mirror S [.hidden a] = S.erase a := rfl

theorem mirror_append : mirror S (l ++ l') = mirror (mirror S l) l' := List.foldl_append

theorem mirror_hide (S : Finset α) (as : List α) :
    mirror S (as.map Sign.hidden) = S \ as.toFinset := by
  induction as generalizing S with
  | nil => simp
  | cons a as ih =>
    rw [List.map_cons, ← List.singleton_append, mirror_append, ih, mirror_hidden, List.toFinset_cons]
    ext b
    simp only [Finset.mem_sdiff, Finset.mem_erase, Finset.mem_insert]
    tauto

end Mirror

section About

variable [DecidableEq ρ] {log log' : List (ρ × List (Sign α))} {r r' : ρ}

def about (r : ρ) (log : List (ρ × List (Sign α))) : List (Sign α) :=
  log.flatMap fun x => if x.1 = r then x.2 else []

@[simp] theorem about_nil : about r ([] : List (ρ × List (Sign α))) = [] := rfl

theorem about_append : about r (log ++ log') = about r log ++ about r log' :=
  List.flatMap_append

theorem about_self (l : List (List (Sign α))) : about r (l.map fun x => (r, x)) = l.flatten := by
  simp [about, List.flatMap_map, List.flatMap_id']

theorem about_other (l : List (List (Sign α))) (h : r' ≠ r) :
    about r (l.map fun x => (r', x)) = [] := by
  simp [about, h]

end About

variable {log log' : List (ρ × List (Sign α))} {ears ears' : ρ → Nat}

@[simp] theorem hears_nil : hears ears ([] : List (ρ × List (Sign α))) = [] := rfl

theorem hears_append : hears ears (log ++ log') = hears ears log ++ hears ears log' :=
  List.flatMap_append

theorem hears_congr (h : ∀ r, ears r = ears' r) : hears ears log = hears ears' log := by
  rw [funext h]

end Lib

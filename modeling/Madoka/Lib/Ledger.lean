import Mathlib.Data.List.Nodup
import Mathlib.Data.List.Induction
import Mathlib.Algebra.BigOperators.Group.List.Basic
import Mathlib.Tactic.Linarith

namespace Lib

structure Ledger (κ ρ : Type) where
  rows : List (κ × ρ)
  unique : (rows.map Prod.fst).Nodup

def total {κ ρ α : Type} [DecidableEq α] (acct : κ → α) (weight : ρ → Int)
    (rows : List (κ × ρ)) (a : α) : Int :=
  ((rows.filter (fun x => acct x.1 = a)).map (fun x => weight x.2)).sum

theorem total_append_single {κ ρ α : Type} [DecidableEq α] (acct : κ → α) (weight : ρ → Int)
    (rows : List (κ × ρ)) (p : κ × ρ) (a : α) :
    total acct weight (rows ++ [p]) a =
      total acct weight rows a + if acct p.1 = a then weight p.2 else 0 := by
  by_cases h : acct p.1 = a <;> simp [total, List.filter_append, h]

structure Book (κ ρ α : Type) [DecidableEq α] (acct : κ → α) (weight : ρ → Int)
    (opening : α → Int) where
  ledger : Ledger κ ρ
  balance : α → Int
  sound : ∀ a, balance a = opening a + total acct weight ledger.rows a

variable {κ ρ α : Type} [DecidableEq κ]

def first (rows : List (κ × ρ)) (k : κ) : Option ρ := rows.lookup k

namespace Ledger

def empty : Ledger κ ρ := ⟨[], List.nodup_nil⟩

def keys (l : Ledger κ ρ) : List κ := l.rows.map Prod.fst

def append (l : Ledger κ ρ) (k : κ) (r : ρ) (h : k ∉ l.keys) : Ledger κ ρ where
  rows := l.rows ++ [(k, r)]
  unique := by
    rw [List.map_append, List.nodup_append]
    refine ⟨l.unique, List.nodup_singleton _, ?_⟩
    rintro a ha b hb rfl
    obtain rfl : a = k := by simpa using hb
    exact h ha

def post (l : Ledger κ ρ) (p : κ × ρ) : Ledger κ ρ :=
  if h : p.1 ∈ l.keys then l else l.append p.1 p.2 h

theorem post_of_mem {l : Ledger κ ρ} {p : κ × ρ} (h : p.1 ∈ l.keys) : l.post p = l := by
  simp [post, h]

theorem rows_post_of_not_mem {l : Ledger κ ρ} {p : κ × ρ} (h : p.1 ∉ l.keys) :
    (l.post p).rows = l.rows ++ [p] := by
  simp [post, h, append]

theorem lookup_rows_none {rows : List (κ × ρ)} {k : κ} :
    rows.lookup k = none ↔ k ∉ rows.map Prod.fst := by
  rw [List.lookup_eq_none_iff]
  constructor
  · intro h hk
    obtain ⟨x, hx, rfl⟩ := List.mem_map.mp hk
    simpa using h x hx
  · intro h x hx
    have : k ≠ x.1 := fun hk => h (hk ▸ List.mem_map_of_mem hx)
    simpa using this

theorem lookup_post (l : Ledger κ ρ) (p : κ × ρ) (k : κ) :
    (l.post p).rows.lookup k = (l.rows.lookup k).or ([p].lookup k) := by
  by_cases h : p.1 ∈ l.keys
  · rw [post_of_mem h]
    cases hk : l.rows.lookup k with
    | some r => rfl
    | none =>
      have hne : k ≠ p.1 := fun he => lookup_rows_none.mp hk (he ▸ h)
      have hmiss : [p].lookup k = none := by
        rw [List.lookup_eq_none_iff]
        intro q hq
        rw [List.mem_singleton.mp hq]
        simpa using hne
      rw [hmiss, Option.or_none]
  · rw [rows_post_of_not_mem h, List.lookup_append]

theorem lookup_foldl_post (ps : List (κ × ρ)) (l : Ledger κ ρ) (k : κ) :
    (ps.foldl post l).rows.lookup k = (l.rows.lookup k).or (ps.lookup k) := by
  induction ps generalizing l with
  | nil => simp
  | cons p ps ih =>
    rw [List.foldl_cons, ih, lookup_post, Option.or_assoc, ← List.lookup_append]
    rfl

end Ledger

namespace Book

variable [DecidableEq α] {acct : κ → α} {weight : ρ → Int} {opening : α → Int}

def openBook : Book κ ρ α acct weight opening where
  ledger := Ledger.empty
  balance := opening
  sound := by simp [total, Ledger.empty]

def post (b : Book κ ρ α acct weight opening) (p : κ × ρ) : Book κ ρ α acct weight opening :=
  if h : p.1 ∈ b.ledger.keys then b
  else
    { ledger := b.ledger.append p.1 p.2 h
      balance := fun a => b.balance a + if acct p.1 = a then weight p.2 else 0
      sound := by
        intro a
        change _ = _ + total acct weight (b.ledger.rows ++ [p]) a
        rw [total_append_single, b.sound a, add_assoc] }

theorem post_of_mem {b : Book κ ρ α acct weight opening} {p : κ × ρ}
    (h : p.1 ∈ b.ledger.keys) : b.post p = b := by
  simp [post, h]

theorem ledger_post (b : Book κ ρ α acct weight opening) (p : κ × ρ) :
    (b.post p).ledger = b.ledger.post p := by
  by_cases h : p.1 ∈ b.ledger.keys <;> simp [post, Ledger.post, h]

theorem balance_post_of_not_mem {b : Book κ ρ α acct weight opening} {p : κ × ρ}
    (h : p.1 ∉ b.ledger.keys) (a : α) :
    (b.post p).balance a = b.balance a + if acct p.1 = a then weight p.2 else 0 := by
  simp [post, h]

def ofPosts (ps : List (κ × ρ)) : Book κ ρ α acct weight opening :=
  ps.foldl post openBook

theorem ofPosts_snoc (ps : List (κ × ρ)) (p : κ × ρ) :
    (ofPosts (ps ++ [p]) : Book κ ρ α acct weight opening) = (ofPosts ps).post p := by
  simp [ofPosts]

theorem ledger_ofPosts (ps : List (κ × ρ)) :
    (ofPosts ps : Book κ ρ α acct weight opening).ledger = ps.foldl Ledger.post Ledger.empty := by
  induction ps using List.reverseRecOn with
  | nil => rfl
  | append_singleton ps p ih =>
    rw [ofPosts_snoc, ledger_post, ih, List.foldl_append]
    rfl

theorem first_ofPosts (ps : List (κ × ρ)) (k : κ) :
    first (ofPosts ps : Book κ ρ α acct weight opening).ledger.rows k = first ps k := by
  rw [first, ledger_ofPosts, Ledger.lookup_foldl_post]
  rfl

end Book

end Lib

import Mathlib.Data.List.Permutation
import Madoka.Account.Updates

namespace Account

open Lib

variable {ρ ι : Type} [DecidableEq ρ] [DecidableEq ι] {others : ρ}

abbrev Accounts (ρ ι : Type) := Store Nat (Row ρ) (Doc ρ) (Nat × Op ρ) Int ι

abbrev Event (ρ ι : Type) := Action Nat (Nat × Op ρ) Int Int ι

variable {s₀ s t : Accounts ρ ι} {es : List (Event ρ ι)}

omit [DecidableEq ι] in
theorem sound_idle (h : ∀ i, s₀.clients i = .idle) : Sound (access others) s₀ where
  held := by
    intro i op k v d hi
    rw [h i] at hi
    cases hi
  locking := by
    intro i u k row hi
    rw [h i] at hi
    cases hi
  alone := by
    intro i j u u' k row row' hi hj
    rw [h i] at hi
    cases hi

theorem sound_run (h : ∀ i, s₀.clients i = .idle) (hr : Run (Store.Step (access others)) s₀ es s) :
    Sound (access others) s :=
  run_invariant (I := Sound (access others)) hr (sound_idle h) sound_step

-- A save stores the document its operation made from the row it had read, and over that row: no
-- operation changes the uid. What was committed to the row in between plays no part.
theorem save_reads {i : ι} {u : Nat} {op : Op ρ} {k : Nat} {now : Int}
    (h : ∀ i, s₀.clients i = .idle) (hr : Run (Store.Step (access others)) s₀ es s)
    (hs : Store.Step (access others) s (.commit i (.save (u, op) k now)) t) :
    ∃ es₁ es₂ r row₀ d row, es = es₁ ++ es₂ ∧ Run (Store.Step (access others)) s₀ es₁ r ∧
      Run (Store.Step (access others)) r es₂ s ∧ r.rows k = some row₀ ∧ u = k ∧
      op.selects k row₀ ∧ op.change (rowToAccount others k row₀) = some d ∧ d.uid = some k ∧
      s.rows k = some row ∧ t.rows = Function.update s.rows k (some (save now d row)) := by
  cases hs with
  | @save _ _ _ v d row _ hi hrow hfree =>
    obtain ⟨es₁, es₂, r, row₀, rfl, h1, h2, hrow₀, ⟨rfl, hk⟩, hd⟩ := held_readAt h hr hi
    exact ⟨es₁, es₂, r, row₀, d, row, rfl, h1, h2, hrow₀, rfl, hk, hd, change_uid hd, hrow, rfl⟩

theorem credit_adds {i : ι} {coins : Int} {k : Nat} (h : ∀ i, s₀.clients i = .idle)
    (hr : Run (Store.Step (access others)) s₀ es s)
    (hs : Store.Step (access others) s (.commit i (.change coins k)) t) :
    ∃ row state, s.rows k = some row ∧ creditCoins row.state coins = some state ∧
      t.rows = Function.update s.rows k (some { row with state := state }) := by
  cases hs with
  | @change _ _ _ row' hi =>
    obtain ⟨row, hrow, hu⟩ := (sound_run h hr).locking i coins k row' hi
    simp only [access, Option.map_eq_some_iff] at hu
    obtain ⟨state, hstate, rfl⟩ := hu
    exact ⟨row, state, hrow, hstate, rfl⟩

theorem committed_serial (others : ρ) (s₀ : Accounts ρ ι) (h : ∀ i, s₀.clients i = .idle) :
    (∀ es s, Run (Guarded (Store.Step (access others)) Fresh) s₀ es s →
      s.rows = (committed es).foldl (access others).apply s₀.rows) ∧
    (∀ es s i u op k now t, Run (Store.Step (access others)) s₀ es s →
      Store.Step (access others) s (.commit i (.save (u, op) k now)) t →
      ∃ es₁ es₂ r row₀ d row, es = es₁ ++ es₂ ∧ Run (Store.Step (access others)) s₀ es₁ r ∧
        Run (Store.Step (access others)) r es₂ s ∧ r.rows k = some row₀ ∧ u = k ∧
        op.selects k row₀ ∧ op.change (rowToAccount others k row₀) = some d ∧ d.uid = some k ∧
        s.rows k = some row ∧ t.rows = Function.update s.rows k (some (save now d row))) ∧
    (∀ es s i coins k t, Run (Store.Step (access others)) s₀ es s →
      Store.Step (access others) s (.commit i (.change coins k)) t →
      ∃ row state, s.rows k = some row ∧ creditCoins row.state coins = some state ∧
        t.rows = Function.update s.rows k (some { row with state := state })) :=
  ⟨fun _ _ hr => run_serial (sound_idle h) hr,
    fun _ _ _ _ _ _ _ _ hr hs => save_reads h hr hs,
    fun _ _ _ _ _ _ hr hs => credit_adds h hr hs⟩

def oneAccount : Accounts Unit Bool where
  rows := fun k =>
    if k = 1 then some ⟨none, none, none,
      { Doc.empty with uid := some 1, lastLoginAt := some 5, coins := some (.int 100) }⟩
    else none
  version := fun _ => 0
  clients := fun _ => .idle

def coinsAt (rows : Nat → Option (Row Unit)) : Option Int :=
  (rows 1).map fun row => coinsOf row.state

theorem credit_then_role : ∃ es s, Run (Guarded (Store.Step (access ())) Fresh) oneAccount es s ∧
    coinsAt s.rows = some 400 ∧ s.rows = (committed es).foldl (access ()).apply oneAccount.rows := by
  have h1 := Run.next Run.start (show Guarded (Store.Step (access ())) Fresh oneAccount
    (.lock true 300 1) _ from ⟨.lock rfl rfl rfl (by rintro ⟨_, _, _, ⟨⟩⟩), by rintro _ _ _ _ _ _ ⟨⟩⟩)
  have h2 := h1.next (show Guarded _ _ _ (.commit true (.change 300 1)) _ from
    ⟨.change rfl, by rintro _ _ _ _ _ _ ⟨⟩⟩)
  have h3 := h2.next (show Guarded _ _ _ (.read false (1, .setRole 1 7) 1) _ from
    ⟨.read rfl rfl ⟨rfl, by decide, rfl⟩ rfl, by rintro _ _ _ _ _ _ ⟨⟩⟩)
  have h4 := h3.next (show Guarded _ _ _ (.commit false (.save (1, .setRole 1 7) 1 9)) _ from
    ⟨.save 9 rfl rfl (by rintro ⟨i, _, _, hi⟩; cases i <;> cases hi), by
      rintro _ _ _ _ _ _ ⟨⟩ ⟨⟩
      rfl⟩)
  exact ⟨_, _, h4, rfl, (committed_serial () oneAccount fun _ => rfl).1 _ _ h4⟩

theorem stale_role_erases_credit : ¬ ∀ es s, Run (Store.Step (access ())) oneAccount es s →
    ∃ l : List (Commit Nat (Nat × Op Unit) Int Int), l.Perm (committed es) ∧
      s.rows = l.foldl (access ()).apply oneAccount.rows := by
  intro hall
  have h1 := run_single (show Store.Step (access ()) oneAccount
    (.read false (1, .setRole 1 7) 1) _ from .read rfl rfl ⟨rfl, by decide, rfl⟩ rfl)
  have h2 := h1.next (Store.Step.lock (i := true) (u := 300) (k := 1) rfl rfl rfl
    (by rintro ⟨i, _, _, hi⟩; cases i <;> cases hi))
  have h3 := h2.next (.change (i := true) rfl)
  have h4 := h3.next (.save 9 (i := false) rfl rfl (by rintro ⟨i, _, _, hi⟩; cases i <;> cases hi))
  obtain ⟨l, hl, hrows⟩ := hall _ _ h4
  have hcoins := congrArg coinsAt hrows
  rcases List.perm_pair.mp (show l.Perm [.change 300 1, .save (1, .setRole 1 7) 1 9] from hl)
    with rfl | rfl
  · exact absurd hcoins (by decide)
  · exact absurd hcoins (by decide)

end Account

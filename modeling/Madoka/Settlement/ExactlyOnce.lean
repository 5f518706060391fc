import Madoka.Lib.Ledger
import Madoka.Settlement.Worker

namespace Settlement

open Lib Account

variable {ρ W : Type} {s t : State ρ W} {e : Event}

structure Locks (s : State ρ W) : Prop where
  fresh : ∀ w k, Keyed s w k → k ∉ s.db.matchResults.map Prod.fst
  alone : ∀ w w' k, Keyed s w k → Keyed s w' k → w = w'
  conflicted : ∀ w j now, s.workers w = .conflict j now → j.key ∈ s.db.matchResults.map Prod.fst
  priced : ∀ w j now row, s.workers w = .updated j now row →
    0 < orZero j.pr.coins ∧ s.db.credit j.pr.accountId (orZero j.pr.coins) = some row
  locked : ∀ w w' a, Holds s w a → Holds s w' a → w = w'

theorem locks_start (accounts : Nat → Option (Row ρ)) : Locks (start accounts : State ρ W) := by
  constructor <;> simp [start, Keyed, Holds, Worker.insertion, Worker.update]

variable [DecidableEq W]

theorem goto_self (w : W) (pc : Worker ρ) : (s.goto w pc).workers w = pc := by
  simp [State.goto]

theorem goto_other {w w' : W} (h : w' ≠ w) (pc : Worker ρ) :
    (s.goto w pc).workers w' = s.workers w' := by
  simp [State.goto, h]

theorem keyed_goto {w w' : W} {pc : Worker ρ} {k : Key} (h : Keyed (s.goto w pc) w' k) :
    (w' = w ∧ ∃ r, pc.insertion = some (k, r)) ∨ (w' ≠ w ∧ Keyed s w' k) := by
  by_cases hw : w' = w
  · subst hw
    rw [Keyed, goto_self] at h
    exact Or.inl ⟨rfl, h⟩
  · rw [Keyed, goto_other hw] at h
    exact Or.inr ⟨hw, h⟩

theorem holds_goto {w w' : W} {pc : Worker ρ} {a : Nat} (h : Holds (s.goto w pc) w' a) :
    (w' = w ∧ ∃ row, pc.update = some (a, row)) ∨ (w' ≠ w ∧ Holds s w' a) := by
  by_cases hw : w' = w
  · subst hw
    rw [Holds, goto_self] at h
    exact Or.inl ⟨rfl, h⟩
  · rw [Holds, goto_other hw] at h
    exact Or.inr ⟨hw, h⟩

theorem insertion_of_no_attempt {pc : Worker ρ} (h : pc.attempt = none) : pc.insertion = none := by
  cases pc <;> simp_all [Worker.attempt, Worker.insertion]

theorem update_of_no_attempt {pc : Worker ρ} (h : pc.attempt = none) : pc.update = none := by
  cases pc <;> simp_all [Worker.attempt, Worker.update]

theorem attempt_handleMatchResult (mr : MatchResult) :
    (handleMatchResult mr : Worker ρ).attempt = none := by
  unfold handleMatchResult
  split
  · split <;> rfl
  · rfl

theorem attempt_returned (pc : Worker ρ) (h : pc.attempt ≠ none) : pc.returned.attempt = none := by
  cases pc <;> simp_all [Worker.attempt, Worker.returned]

theorem locks_goto (h : Locks s) (w : W) {pc : Worker ρ}
    (hkey : ∀ k r, pc.insertion = some (k, r) →
      k ∉ s.db.matchResults.map Prod.fst ∧ ∀ w', Keyed s w' k → w' = w)
    (hconf : ∀ j now, pc = .conflict j now → j.key ∈ s.db.matchResults.map Prod.fst)
    (hpaid : ∀ j now row, pc = .updated j now row →
      0 < orZero j.pr.coins ∧ s.db.credit j.pr.accountId (orZero j.pr.coins) = some row)
    (hrow : ∀ a row, pc.update = some (a, row) → ∀ w', Holds s w' a → w' = w) :
    Locks (s.goto w pc) where
  fresh := by
    intro w' k hk
    rcases keyed_goto hk with ⟨_, r, hr⟩ | ⟨_, hk⟩
    · exact (hkey k r hr).1
    · exact h.fresh w' k hk
  alone := by
    intro w1 w2 k h1 h2
    rcases keyed_goto h1 with ⟨e1, r, hr⟩ | ⟨_, k1⟩
    · rcases keyed_goto h2 with ⟨e2, _⟩ | ⟨_, k2⟩
      · exact e1.trans e2.symm
      · exact e1.trans ((hkey k r hr).2 w2 k2).symm
    · rcases keyed_goto h2 with ⟨e2, r, hr⟩ | ⟨_, k2⟩
      · exact ((hkey k r hr).2 w1 k1).trans e2.symm
      · exact h.alone w1 w2 k k1 k2
  conflicted := by
    intro w' j now hw
    by_cases he : w' = w
    · subst he
      rw [goto_self] at hw
      exact hconf j now hw
    · rw [goto_other he] at hw
      exact h.conflicted w' j now hw
  priced := by
    intro w' j now row hw
    by_cases he : w' = w
    · subst he
      rw [goto_self] at hw
      exact hpaid j now row hw
    · rw [goto_other he] at hw
      exact h.priced w' j now row hw
  locked := by
    intro w1 w2 a h1 h2
    rcases holds_goto h1 with ⟨e1, r, hr⟩ | ⟨_, k1⟩
    · rcases holds_goto h2 with ⟨e2, _⟩ | ⟨_, k2⟩
      · exact e1.trans e2.symm
      · exact e1.trans (hrow a r hr w2 k2).symm
    · rcases holds_goto h2 with ⟨e2, r, hr⟩ | ⟨_, k2⟩
      · exact (hrow a r hr w1 k1).trans e2.symm
      · exact h.locked w1 w2 a k1 k2

theorem locks_release (h : Locks s) (w : W) {pc : Worker ρ} (hq : pc.attempt = none) :
    Locks (s.goto w pc) := by
  refine locks_goto h w ?_ ?_ ?_ ?_
  · intro k r hr
    rw [insertion_of_no_attempt hq] at hr
    cases hr
  · rintro j now rfl
    cases hq
  · rintro j now row rfl
    cases hq
  · intro a row hr
    rw [update_of_no_attempt hq] at hr
    cases hr

theorem credit_commit_other {db : Db ρ} {pc : Worker ρ} {a : Nat} {n : Int}
    (h : ∀ row, pc.update ≠ some (a, row)) : (db.commit pc).credit a n = db.credit a n := by
  cases hu : pc.update with
  | none => simp [Db.credit, Db.commit, hu]
  | some x =>
    obtain ⟨b, row⟩ := x
    have hne : a ≠ b := by
      rintro rfl
      exact h row hu
    simp [Db.credit, Db.commit, hu, hne]

theorem mem_keys_commit {db : Db ρ} {pc : Worker ρ} {k : Key} :
    k ∈ (db.commit pc).matchResults.map Prod.fst ↔
      k ∈ db.matchResults.map Prod.fst ∨ ∃ r, pc.insertion = some (k, r) := by
  cases hi : pc.insertion with
  | none => simp [Db.commit, hi]
  | some x =>
    obtain ⟨k', r⟩ := x
    simp [Db.commit, hi, or_comm, eq_comm]

theorem locks_commit (h : Locks s) (w : W) {pc : Worker ρ} (hq : pc.attempt = none) :
    Locks { db := s.db.commit (s.workers w), workers := Function.update s.workers w pc } := by
  have hr := locks_release h w hq
  refine ⟨?_, hr.alone, ?_, ?_, hr.locked⟩
  · intro w' k hk hmem
    rcases mem_keys_commit.mp hmem with hold | ⟨r, hins⟩
    · exact hr.fresh w' k hk hold
    · rcases keyed_goto hk with ⟨_, r', hr'⟩ | ⟨hne, hk'⟩
      · rw [insertion_of_no_attempt hq] at hr'
        cases hr'
      · exact hne (h.alone w' w k hk' ⟨r, hins⟩)
  · intro w' j now hw
    exact mem_keys_commit.mpr (Or.inl (hr.conflicted w' j now hw))
  · intro w' j now row hw
    obtain ⟨hpos, hcredit⟩ := hr.priced w' j now row hw
    refine ⟨hpos, ?_⟩
    rw [credit_commit_other]
    · exact hcredit
    · intro row' hu
      have hholds : Holds (s.goto w pc) w' j.pr.accountId := ⟨row, by
        rw [show (s.goto w pc).workers w' = _ from hw]
        rfl⟩
      rcases holds_goto hholds with ⟨_, r', hr'⟩ | ⟨hne, hh⟩
      · rw [update_of_no_attempt hq] at hr'
        cases hr'
      · exact hne (h.locked w' w _ hh ⟨row', hu⟩)

theorem locks_step (h : Locks s) (hs : Step s e t) : Locks t := by
  cases hs with
  | deliver w mr hw => exact locks_release h w (attempt_handleMatchResult mr)
  | skip hw h0 => exact locks_release h _ rfl
  | «begin» hw h0 => exact locks_release h _ rfl
  | abort hw => exact locks_release h _ rfl
  | crash hw => exact locks_release h _ rfl
  | finish hw => exact locks_release h _ rfl
  | commit hd ha => exact locks_commit h _ (attempt_returned _ (by simp [ha]))
  | commitLost hd ha => exact locks_commit h _ rfl
  | @conflict w j now hw hk =>
    refine locks_goto h _ ?_ ?_ ?_ ?_
    · intro k r hr
      cases hr
    · rintro j' now' he
      cases he
      exact hk
    · intro j' now' row he
      cases he
    · intro a row hr
      cases hr
  | @insert w j now hw hk hfree hfk =>
    refine locks_goto h _ ?_ ?_ ?_ ?_
    · intro k r hr
      cases hr
      exact ⟨hk, fun w' hw' => (hfree w' hw').elim⟩
    · intro j' now' he
      cases he
    · intro j' now' row he
      cases he
    · intro a row hr
      cases hr
  | @update w j now row hw hc hfree hrow =>
    have hkeyed : Keyed s w j.key := ⟨_, by rw [hw]; rfl⟩
    refine locks_goto h _ ?_ ?_ ?_ ?_
    · intro k r hr
      cases hr
      exact ⟨h.fresh w _ hkeyed, fun w' hw' => h.alone w' w _ hw' hkeyed⟩
    · intro j' now' he
      cases he
    · intro j' now' row' he
      cases he
      exact ⟨hc, hrow⟩
    · intro a row' hr
      cases hr
      exact fun w' hw' => (hfree w' hw').elim

theorem db_of_internal (h : Step s e t) (he : ∀ k r, e ≠ .commit k r) : t.db = s.db := by
  cases h with
  | commit hd ha => exact (he _ _ rfl).elim
  | commitLost hd ha => exact (he _ _ rfl).elim
  | _ => rfl

theorem step_commit {k : Key} {r : LedgerRow} (h : Step s (.commit k r) t) :
    ∃ w j now, (s.workers w).done ∧ (s.workers w).attempt = some (j, now) ∧ k = j.key ∧
      r = rowOf j.pr now ∧ t.db = s.db.commit (s.workers w) := by
  cases h with
  | commit hd ha => exact ⟨_, _, _, hd, ha, rfl, rfl, rfl⟩
  | commitLost hd ha => exact ⟨_, _, _, hd, ha, rfl, rfl, rfl⟩

def weight (r : LedgerRow) : Int := max 0 r.coins

def opening (accounts : Nat → Option (Row ρ)) (a : Nat) : Int :=
  ((accounts a).map fun row => coinsOf row.state).getD 0

abbrev AccountBook (accounts : Nat → Option (Row ρ)) : Type :=
  Book Key LedgerRow Nat Prod.snd weight (opening accounts)

def OnlyCoins (row₀ row : Row ρ) : Prop :=
  row = { row₀ with state := { row₀.state with coins := row.state.coins } }

structure Refines (accounts : Nat → Option (Row ρ)) (db : Db ρ) (b : AccountBook accounts) :
    Prop where
  rows : db.matchResults = b.ledger.rows
  absent : ∀ a, accounts a = none → db.accounts a = none
  present : ∀ a row₀, accounts a = some row₀ →
    ∃ row, db.accounts a = some row ∧ OnlyCoins row₀ row ∧ coinsOf row.state = b.balance a

variable {accounts : Nat → Option (Row ρ)} {db : Db ρ} {b : AccountBook accounts}

theorem refines_keys (h : Refines accounts db b) (k : Key) :
    k ∈ db.matchResults.map Prod.fst ↔ k ∈ b.ledger.keys := by
  rw [h.rows]
  rfl

theorem refines_conflict (h : Refines accounts db b) {j : Job} {now : Int}
    (hk : j.key ∈ db.matchResults.map Prod.fst) :
    Refines accounts (db.commit (.conflict j now)) (b.post (j.key, rowOf j.pr now)) := by
  rw [Book.post_of_mem ((refines_keys h _).mp hk)]
  simpa [Db.commit, Worker.insertion, Worker.update] using h

theorem rows_commit_inserted (h : Refines accounts db b) {pc : Worker ρ} {p : Key × LedgerRow}
    (hi : pc.insertion = some p) (hk : p.1 ∉ db.matchResults.map Prod.fst) :
    (db.commit pc).matchResults = (b.post p).ledger.rows := by
  rw [Book.ledger_post, Ledger.rows_post_of_not_mem fun hm => hk ((refines_keys h _).mpr hm),
    ← h.rows]
  simp [Db.commit, hi]

theorem weight_of_nonpos {pr : PlayerResult} {now : Int} (h : orZero pr.coins ≤ 0) :
    weight (rowOf pr now) = 0 :=
  max_eq_left h

theorem weight_of_pos {pr : PlayerResult} {now : Int} (h : 0 < orZero pr.coins) :
    weight (rowOf pr now) = orZero pr.coins :=
  max_eq_right h.le

theorem refines_inserted (h : Refines accounts db b) {j : Job} {now : Int}
    (hk : j.key ∉ db.matchResults.map Prod.fst) (hc : orZero j.pr.coins ≤ 0) :
    Refines accounts (db.commit (.inserted j now)) (b.post (j.key, rowOf j.pr now)) where
  rows := rows_commit_inserted h rfl hk
  absent := h.absent
  present := by
    intro a row₀ ha
    rw [Book.balance_post_of_not_mem fun hm => hk ((refines_keys h _).mpr hm)]
    rw [weight_of_nonpos hc, ite_self, add_zero]
    exact h.present a row₀ ha

theorem credit_some {a : Nat} {n : Int} {row : Row ρ} (h : db.credit a n = some row) :
    ∃ old state, db.accounts a = some old ∧ creditCoins old.state n = some state ∧
      row = { old with state := state } := by
  simp only [Db.credit, Option.bind_eq_bind, Option.bind_eq_some_iff] at h
  obtain ⟨old, hold, state, hstate, hrow⟩ := h
  exact ⟨old, state, hold, hstate, (Option.some.inj hrow).symm⟩

theorem refines_updated (h : Refines accounts db b) {j : Job} {now : Int} {row : Row ρ}
    (hk : j.key ∉ db.matchResults.map Prod.fst) (hc : 0 < orZero j.pr.coins)
    (hrow : db.credit j.pr.accountId (orZero j.pr.coins) = some row) :
    Refines accounts (db.commit (.updated j now row)) (b.post (j.key, rowOf j.pr now)) := by
  obtain ⟨old, state, hold, hstate, rfl⟩ := credit_some hrow
  have hbal := Book.balance_post_of_not_mem (b := b) (p := (j.key, rowOf j.pr now))
    fun hm => hk ((refines_keys h _).mpr hm)
  refine ⟨rows_commit_inserted h rfl hk, ?_, ?_⟩
  · intro a ha
    have hne : a ≠ j.pr.accountId := by
      rintro rfl
      rw [h.absent _ ha] at hold
      cases hold
    simpa [Db.commit, Worker.update, hne] using h.absent a ha
  · intro a row₀ ha
    obtain ⟨row', hrow', honly, hcoins⟩ := h.present a row₀ ha
    by_cases he : a = j.pr.accountId
    · subst he
      obtain rfl : old = row' := by
        rw [hold] at hrow'
        exact Option.some.inj hrow'
      refine ⟨{ old with state := state }, by simp [Db.commit, Worker.update], ?_, ?_⟩
      · rw [creditCoins_some hstate]
        rw [OnlyCoins] at honly ⊢
        rw [honly]
      · rw [hbal, coinsOf_creditCoins hstate, hcoins, weight_of_pos hc]
        simp [Job.key]
    · refine ⟨row', by simpa [Db.commit, Worker.update, he] using hrow', honly, ?_⟩
      rw [hbal, hcoins]
      simp [Job.key, Ne.symm he]

omit [DecidableEq W] in
theorem refines_commit (hl : Locks s) (h : Refines accounts s.db b) {w : W} {j : Job} {now : Int}
    (hd : (s.workers w).done) (ha : (s.workers w).attempt = some (j, now)) :
    Refines accounts (s.db.commit (s.workers w)) (b.post (j.key, rowOf j.pr now)) := by
  cases hw : s.workers w with
  | idle => simp [hw, Worker.attempt] at ha
  | players m rest c => simp [hw, Worker.attempt] at ha
  | «begun» j' => simp [hw, Worker.attempt] at ha
  | conflict j' now' =>
    obtain ⟨rfl, rfl⟩ : j' = j ∧ now' = now := by simpa [hw, Worker.attempt] using ha
    exact refines_conflict h (hl.conflicted w _ _ hw)
  | inserted j' now' =>
    obtain ⟨rfl, rfl⟩ : j' = j ∧ now' = now := by simpa [hw, Worker.attempt] using ha
    rw [hw] at hd
    exact refines_inserted h (hl.fresh w _ ⟨_, by rw [hw]; rfl⟩) hd
  | updated j' now' row =>
    obtain ⟨rfl, rfl⟩ : j' = j ∧ now' = now := by simpa [hw, Worker.attempt] using ha
    obtain ⟨hpos, hcredit⟩ := hl.priced w _ _ _ hw
    exact refines_updated h (hl.fresh w _ ⟨_, by rw [hw]; rfl⟩) hpos hcredit

omit [DecidableEq W] in
theorem refines_start : Refines accounts (start accounts : State ρ W).db Book.openBook where
  rows := rfl
  absent := fun _ h => h
  present := fun a row₀ h => ⟨row₀, h, rfl, by simp [Book.openBook, opening, h]⟩

theorem commits_snoc (es : List Event) (e : Event) : commits (es ++ [e]) = commits es ++ commits [e] := by
  simp [commits]

theorem refines_step {es : List Event} (hl : Locks s)
    (h : Refines accounts s.db (Book.ofPosts (commits es))) (hs : Step s e t) :
    Refines accounts t.db (Book.ofPosts (commits (es ++ [e]))) := by
  by_cases he : ∃ k r, e = .commit k r
  · obtain ⟨k, r, rfl⟩ := he
    obtain ⟨w, j, now, hd, ha, rfl, rfl, hdb⟩ := step_commit hs
    rw [commits_snoc, hdb]
    change Refines accounts _ (Book.ofPosts (commits es ++ [(j.key, rowOf j.pr now)]))
    rw [Book.ofPosts_snoc]
    exact refines_commit hl h hd ha
  · have hne : ∀ k r, e ≠ .commit k r := fun k r hk => he ⟨k, r, hk⟩
    have hnil : commits [e] = [] := by
      cases e with
      | commit k r => exact (hne k r rfl).elim
      | _ => rfl
    rw [commits_snoc, hnil, List.append_nil, db_of_internal hs hne]
    exact h

theorem run_refines {es : List Event} (h : Run Step (start accounts : State ρ W) es t) :
    Locks t ∧ Refines accounts t.db (Book.ofPosts (commits es)) :=
  run_history (I := fun es s => Locks s ∧ Refines accounts s.db (Book.ofPosts (commits es))) h
    ⟨locks_start accounts, refines_start⟩
    fun ⟨hl, hr⟩ hs => ⟨locks_step hl hs, refines_step hl hr hs⟩

def Worker.work : Worker ρ → Option (String × List PlayerResult)
  | .idle => none
  | .players m rest _ => some (m, rest)
  | .begun j => some (j.matchId, j.pr :: j.rest)
  | .conflict j _ => some (j.matchId, j.pr :: j.rest)
  | .inserted j _ => some (j.matchId, j.pr :: j.rest)
  | .updated j _ _ => some (j.matchId, j.pr :: j.rest)

def Worker.job : Worker ρ → Option Job
  | .begun j => some j
  | .conflict j _ => some j
  | .inserted j _ => some j
  | .updated j _ _ => some j
  | _ => none

def FromDelivery (es : List Event) (m : String) (prs : List PlayerResult) : Prop :=
  ∃ mr ∈ delivered es, mr.matchId = m ∧ m ≠ "" ∧ ∃ all, mr.players = some all ∧ prs ⊆ all

-- A signed 32-bit column holds a reported number, wrapped; a number that is missing is 0.
structure Holds32 (x : Option Int) (n : Int) : Prop where
  low : -2147483648 ≤ n
  high : n < 2147483648
  same : (4294967296 : Int) ∣ x.getD 0 - n

structure Records (pr : PlayerResult) (r : LedgerRow) : Prop where
  coins : Holds32 pr.coins r.coins
  kills : Holds32 pr.kills r.kills
  deaths : Holds32 pr.deaths r.deaths
  win : r.win = true ↔ pr.win = some true
  rankPoints : Holds32 pr.rankPoints r.rankPoints
  xp : Holds32 pr.xp r.xp

omit [DecidableEq W] in
theorem holds32_orZero (x : Option Int) : Holds32 x (orZero x) := by
  unfold orZero
  refine ⟨?_, ?_, ?_⟩
  · have h := Int.le_bmod (x := x.getD 0) (m := 2 ^ 32) (by decide)
    omega
  · have h := Int.bmod_lt (x := x.getD 0) (m := 2 ^ 32) (by decide)
    omega
  · exact Int.dvd_self_sub_bmod

theorem records_rowOf (pr : PlayerResult) (now : Int) : Records pr (rowOf pr now) where
  coins := holds32_orZero _
  kills := holds32_orZero _
  deaths := holds32_orZero _
  win := by
    cases h : pr.win <;> simp [rowOf, h]
  rankPoints := holds32_orZero _
  xp := holds32_orZero _

-- A committed row records a result that was delivered for its match and its account.
def Reported (es : List Event) (k : Key) (r : LedgerRow) : Prop :=
  ∃ pr, FromDelivery es k.1 [pr] ∧ pr.accountId = k.2 ∧ k.2 ≠ 0 ∧ Records pr r

structure Sourced (es : List Event) (s : State ρ W) : Prop where
  work : ∀ w m prs, (s.workers w).work = some (m, prs) → FromDelivery es m prs
  job : ∀ w j, (s.workers w).job = some j → j.pr.accountId ≠ 0
  reported : ∀ p ∈ commits es, Reported es p.1 p.2

theorem fromDelivery_mono {es : List Event} {m : String} {prs prs' : List PlayerResult}
    (h : FromDelivery es m prs) (hsub : prs' ⊆ prs) (e : Event) :
    FromDelivery (es ++ [e]) m prs' := by
  obtain ⟨mr, hmr, hm, hne, all, hall, hprs⟩ := h
  refine ⟨mr, ?_, hm, hne, all, hall, fun x hx => hprs (hsub hx)⟩
  simp only [delivered, List.filterMap_append, List.mem_append]
  exact Or.inl hmr

theorem reported_mono {es : List Event} {k : Key} {r : LedgerRow} (h : Reported es k r) (e : Event) :
    Reported (es ++ [e]) k r := by
  obtain ⟨pr, hf, hrest⟩ := h
  exact ⟨pr, fromDelivery_mono hf (List.Subset.refl _) e, hrest⟩

theorem sourced_goto {es : List Event} (h : Sourced es s) {w : W} {pc : Worker ρ}
    (hwork : ∀ m prs, pc.work = some (m, prs) → FromDelivery (es ++ [e]) m prs)
    (hjob : ∀ j, pc.job = some j → j.pr.accountId ≠ 0)
    (hcommit : ∀ p ∈ commits [e], Reported es p.1 p.2)
    (ht : t.workers = Function.update s.workers w pc) : Sourced (es ++ [e]) t where
  work := by
    intro w' m prs hw
    rw [ht] at hw
    by_cases he : w' = w
    · subst he
      rw [Function.update_self] at hw
      exact hwork m prs hw
    · rw [Function.update_of_ne he] at hw
      exact fromDelivery_mono (h.work w' m prs hw) (List.Subset.refl _) e
  job := by
    intro w' j hw
    rw [ht] at hw
    by_cases he : w' = w
    · subst he
      rw [Function.update_self] at hw
      exact hjob j hw
    · rw [Function.update_of_ne he] at hw
      exact h.job w' j hw
  reported := by
    intro p hp
    rw [commits_snoc, List.mem_append] at hp
    rcases hp with hp | hp
    · exact reported_mono (h.reported p hp) e
    · exact reported_mono (hcommit p hp) e

theorem sourced_continue {es : List Event} (h : Sourced es s) {w : W} {pc : Worker ρ}
    {m : String} {prs : List PlayerResult} (hold : (s.workers w).work = some (m, prs))
    (hwork : ∀ m' prs', pc.work = some (m', prs') → m' = m ∧ prs' ⊆ prs)
    (hjob : ∀ j, pc.job = some j → j.pr.accountId ≠ 0)
    (hcommit : ∀ p ∈ commits [e], Reported es p.1 p.2)
    (ht : t.workers = Function.update s.workers w pc) : Sourced (es ++ [e]) t := by
  refine sourced_goto h ?_ hjob hcommit ht
  intro m' prs' hw
  obtain ⟨rfl, hsub⟩ := hwork m' prs' hw
  exact fromDelivery_mono (h.work w _ _ hold) hsub e

theorem sourced_idle {es : List Event} (h : Sourced es s) {w : W}
    (hcommit : ∀ p ∈ commits [e], Reported es p.1 p.2)
    (ht : t.workers = Function.update s.workers w .idle) : Sourced (es ++ [e]) t := by
  refine sourced_goto h ?_ ?_ hcommit ht
  · intro m prs hw
    cases hw
  · intro j hj
    cases hj

theorem attempt_job {pc : Worker ρ} {j : Job} {now : Int} (h : pc.attempt = some (j, now)) :
    pc.job = some j ∧ pc.work = some (j.matchId, j.pr :: j.rest) := by
  cases pc <;> simp_all [Worker.attempt, Worker.job, Worker.work]

theorem attempt_returned_work {pc : Worker ρ} {j : Job} {now : Int}
    (h : pc.attempt = some (j, now)) :
    pc.returned.job = none ∧ pc.returned.work = some (j.matchId, j.rest) := by
  cases pc <;> simp_all [Worker.attempt, Worker.job, Worker.work, Worker.returned]

omit [DecidableEq W] in
theorem reported_attempt {es : List Event} (h : Sourced es s) {w : W} {j : Job} {now : Int}
    (ha : (s.workers w).attempt = some (j, now)) : Reported es j.key (rowOf j.pr now) := by
  obtain ⟨hjob, hwork⟩ := attempt_job ha
  obtain ⟨mr, hmr, hm, hne, all, hall, hsub⟩ := h.work w _ _ hwork
  refine ⟨j.pr, ⟨mr, hmr, hm, hne, all, hall, ?_⟩, rfl, h.job w j hjob, records_rowOf j.pr now⟩
  rintro x hx
  exact hsub (by simp_all)

theorem fromDelivery_handleMatchResult {es : List Event} {mr : MatchResult} {m : String}
    {prs : List PlayerResult} (h : (handleMatchResult mr : Worker ρ).work = some (m, prs)) :
    FromDelivery (es ++ [.deliver mr]) m prs := by
  unfold handleMatchResult at h
  cases hp : mr.players with
  | none => simp [hp, Worker.work] at h
  | some all =>
    by_cases hm : mr.matchId = ""
    · simp [hp, hm, Worker.work] at h
    · obtain ⟨rfl, rfl⟩ : mr.matchId = m ∧ all = prs := by simpa [hp, hm, Worker.work] using h
      exact ⟨mr, by simp [delivered], rfl, hm, all, hp, List.Subset.refl _⟩

theorem job_handleMatchResult (mr : MatchResult) : (handleMatchResult mr : Worker ρ).job = none := by
  unfold handleMatchResult
  split
  · split <;> rfl
  · rfl

theorem sourced_step {es : List Event} (h : Sourced es s) (hs : Step s e t) :
    Sourced (es ++ [e]) t := by
  cases hs with
  | deliver w mr hw =>
    refine sourced_goto h (fun m prs => fromDelivery_handleMatchResult) ?_ (by simp [commits]) rfl
    intro j hj
    rw [job_handleMatchResult] at hj
    cases hj
  | skip hw h0 =>
    refine sourced_continue h (by rw [hw]; rfl) ?_ (by rintro j ⟨⟩) (by simp [commits]) rfl
    rintro m prs ⟨⟩
    exact ⟨rfl, List.subset_cons_self _ _⟩
  | «begin» hw h0 =>
    refine sourced_continue h (by rw [hw]; rfl) ?_ ?_ (by simp [commits]) rfl
    · rintro m prs ⟨⟩
      exact ⟨rfl, List.Subset.refl _⟩
    · rintro j ⟨⟩
      exact h0
  | @conflict w j now hw hk =>
    have hj : (s.workers w).job = some j := by rw [hw]; rfl
    refine sourced_continue h (by rw [hw]; rfl) ?_ ?_ (by simp [commits]) rfl
    · rintro m prs ⟨⟩
      exact ⟨rfl, List.Subset.refl _⟩
    · rintro j' ⟨⟩
      exact h.job w j hj
  | @insert w j now hw hk hfree hfk =>
    have hj : (s.workers w).job = some j := by rw [hw]; rfl
    refine sourced_continue h (by rw [hw]; rfl) ?_ ?_ (by simp [commits]) rfl
    · rintro m prs ⟨⟩
      exact ⟨rfl, List.Subset.refl _⟩
    · rintro j' ⟨⟩
      exact h.job w j hj
  | @update w j now row hw hc hfree hrow =>
    have hj : (s.workers w).job = some j := by rw [hw]; rfl
    refine sourced_continue h (by rw [hw]; rfl) ?_ ?_ (by simp [commits]) rfl
    · rintro m prs ⟨⟩
      exact ⟨rfl, List.Subset.refl _⟩
    · rintro j' ⟨⟩
      exact h.job w j hj
  | @commit w j now hd ha =>
    have hrep : ∀ p ∈ commits [Event.commit j.key (rowOf j.pr now)], Reported es p.1 p.2 := by
      simpa [commits] using reported_attempt h ha
    obtain ⟨_, hwork⟩ := attempt_job ha
    obtain ⟨hjob', hwork'⟩ := attempt_returned_work ha
    refine sourced_continue h hwork ?_ ?_ hrep rfl
    · intro m prs hw
      obtain ⟨rfl, rfl⟩ : j.matchId = m ∧ j.rest = prs := by simpa [hwork'] using hw
      exact ⟨rfl, List.subset_cons_self _ _⟩
    · intro j' hj'
      rw [hjob'] at hj'
      cases hj'
  | commitLost hd ha =>
    refine sourced_idle h ?_ rfl
    simpa [commits] using reported_attempt h ha
  | abort hw => exact sourced_idle h (by simp [commits]) rfl
  | crash hw => exact sourced_idle h (by simp [commits]) rfl
  | finish hw => exact sourced_idle h (by simp [commits]) rfl

omit [DecidableEq W] in
theorem sourced_start (accounts : Nat → Option (Row ρ)) :
    Sourced [] (start accounts : State ρ W) := by
  constructor <;> simp [start, Worker.work, Worker.job, commits]

-- The sum of max(0, coins) over the rows of an account.
def ledgerCoins (db : Db ρ) (a : Nat) : Int :=
  total Prod.snd weight db.matchResults a

theorem settlement_exactly_once {es : List Event}
    (h : Run Step (start accounts : State ρ W) es t) :
    (t.db.matchResults.map Prod.fst).Nodup ∧
    (∀ k, first t.db.matchResults k = first (commits es) k) ∧
    (∀ p ∈ commits es, Reported es p.1 p.2) ∧
    (∀ a, accounts a = none → t.db.accounts a = none) ∧
    (∀ a row₀, accounts a = some row₀ → ∃ row, t.db.accounts a = some row ∧ OnlyCoins row₀ row ∧
      coinsOf row.state = coinsOf row₀.state + ledgerCoins t.db a) ∧
    (∀ e u, Step t e u → (∀ k r, e ≠ .commit k r) → u.db = t.db) := by
  obtain ⟨hl, hr⟩ := run_refines h
  have hs := run_history (I := Sourced) h (sourced_start accounts) sourced_step
  refine ⟨?_, ?_, hs.reported, hr.absent, ?_, fun e u hu he => db_of_internal hu he⟩
  · rw [hr.rows]
    exact (Book.ofPosts (commits es) : AccountBook accounts).ledger.unique
  · intro k
    rw [hr.rows, Book.first_ofPosts]
  · intro a row₀ ha
    obtain ⟨row, hrow, honly, hcoins⟩ := hr.present a row₀ ha
    refine ⟨row, hrow, honly, ?_⟩
    rw [hcoins, Book.sound, ledgerCoins, hr.rows]
    simp [opening, ha]

def wallet (n : Int) : Row Unit :=
  ⟨none, none, none, ⟨none, none, none, none, none, none, none, none, none, none, none,
    some (.int n), none⟩⟩

def wallets : Nat → Option (Row Unit) := fun a => if a = 10000001 then some (wallet 5) else none

def winner : PlayerResult := ⟨10000001, some 300, some 4, some 1, some true, some 20, some 90⟩

def redelivered : List Event :=
  [.deliver ⟨"7", some [winner]⟩, .internal, .internal, .internal,
    .commit ("7", 10000001) (rowOf winner 0), .internal, .deliver ⟨"7", some [winner]⟩, .internal,
    .internal, .commit ("7", 10000001) (rowOf winner 0)]

theorem handle_winner : (handleMatchResult ⟨"7", some [winner]⟩ : Worker Unit) =
    .players "7" [winner] 0 := by
  simp [handleMatchResult]

def winnerRow : LedgerRow := ⟨300, 4, 1, true, 20, 90, 0⟩

theorem redelivered_run : ∃ t, Run Step (start wallets : State Unit Unit) redelivered t ∧
    t.db.matchResults = [(("7", 10000001), winnerRow)] := by
  have h1 := Run.next Run.start (Step.deliver (s := start wallets) () ⟨"7", some [winner]⟩ rfl)
  rw [handle_winner] at h1
  have h2 := h1.next (Step.begin (w := ()) rfl (by decide))
  have h3 := h2.next (Step.insert (w := ()) 0 rfl (by decide) (by rintro ⟨⟩ ⟨r, ⟨⟩⟩) rfl)
  have h4 := h3.next (Step.update (w := ()) rfl (by decide) (by rintro ⟨⟩ ⟨r, ⟨⟩⟩) rfl)
  have h5 := h4.next (Step.commit (w := ()) (by trivial) rfl)
  have h6 := h5.next (Step.finish (w := ()) rfl)
  have h7 := h6.next (Step.deliver () ⟨"7", some [winner]⟩ rfl)
  rw [handle_winner] at h7
  have h8 := h7.next (Step.begin (w := ()) rfl (by decide))
  have h9 := h8.next (Step.conflict (w := ()) 0 rfl (by decide))
  have h10 := h9.next (Step.commit (w := ()) (by trivial) rfl)
  exact ⟨_, h10, by decide⟩

-- 300 coins delivered twice are one row and 300 coins more.
theorem settlement_exactly_once_redelivered : ∃ t : State Unit Unit,
    Run Step (start wallets) redelivered t ∧ first (commits redelivered) ("7", 10000001) = some winnerRow ∧
    Reported redelivered ("7", 10000001) winnerRow ∧
    t.db.matchResults = [(("7", 10000001), winnerRow)] ∧
    ∃ row, t.db.accounts 10000001 = some row ∧ coinsOf row.state = 305 := by
  obtain ⟨t, h, hrows⟩ := redelivered_run
  obtain ⟨-, hfirst, hreported, -, hcoins, -⟩ := settlement_exactly_once h
  obtain ⟨row, hrow, -, hsum⟩ := hcoins 10000001 (wallet 5) rfl
  have hledger : ledgerCoins t.db 10000001 = 300 := by
    rw [ledgerCoins, hrows]
    decide
  refine ⟨t, h, ?_, hreported (("7", 10000001), winnerRow) (by decide), hrows, row, hrow, ?_⟩
  · rw [← hfirst, hrows]
    decide
  · rw [hsum, hledger]
    decide

end Settlement

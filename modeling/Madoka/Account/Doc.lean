import Mathlib.Algebra.Group.Int.Defs
import Mathlib.Logic.Basic

namespace Account

inductive Coins where
  | null
  | int (n : Int)
  | text (spells : Option Int)
  deriving DecidableEq, Repr

structure Doc (ρ : Type) where
  uid : Option Nat
  openId : Option String
  nickname : Option String
  role : Option Int
  banned : Option Bool
  banReason : Option String
  token : Option String
  tokenCreatedAt : Option Int
  deviceId : Option String
  clientVersion : Option String
  lastLoginAt : Option Int
  coins : Option Coins
  rest : Option ρ
  deriving DecidableEq, Repr

structure Row (ρ : Type) where
  openId : Option String
  token : Option String
  tokenCreatedAt : Option Int
  state : Doc ρ
  deriving DecidableEq, Repr

variable {ρ : Type}

def Doc.empty : Doc ρ :=
  ⟨none, none, none, none, none, none, none, none, none, none, none, none, none⟩

def int64 (n : Int) : Bool :=
  decide (-2 ^ 63 ≤ n ∧ n < 2 ^ 63)

def bigint : Option Coins → Option Int
  | none => some 0
  | some .null => some 0
  | some (.int n) => if int64 n then some n else none
  | some (.text spells) => spells.filter int64

def coinsOf (d : Doc ρ) : Int :=
  match d.coins with
  | none => 0
  | some .null => 0
  | some (.int n) => n
  | some (.text spells) => spells.getD 0

def creditCoins (d : Doc ρ) (n : Int) : Option (Doc ρ) := do
  let c ← bigint d.coins
  if int64 (c + n) then some { d with coins := some (.int (c + n)) } else none

theorem bigint_coinsOf {d : Doc ρ} {c : Int} (h : bigint d.coins = some c) : coinsOf d = c := by
  unfold coinsOf
  cases hd : d.coins with
  | none => simpa [bigint, hd] using h
  | some v =>
    cases v with
    | null => simpa [bigint, hd] using h
    | int n =>
      rw [hd, bigint] at h
      split at h
      · simpa using h
      · cases h
    | text s =>
      rw [hd, bigint, Option.filter_eq_some_iff] at h
      simp [h.1]

theorem creditCoins_some {d d' : Doc ρ} {n : Int} (h : creditCoins d n = some d') :
    d' = { d with coins := some (.int (coinsOf d + n)) } := by
  unfold creditCoins at h
  cases hc : bigint d.coins with
  | none => simp [hc] at h
  | some c =>
    simp only [hc, Option.bind_eq_bind, Option.bind_some] at h
    split at h
    · rw [bigint_coinsOf hc]
      exact (Option.some.inj h).symm
    · cases h

theorem coinsOf_creditCoins {d d' : Doc ρ} {n : Int} (h : creditCoins d n = some d') :
    coinsOf d' = coinsOf d + n := by
  rw [creditCoins_some h]
  rfl

end Account

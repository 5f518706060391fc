import Mathlib.Tactic.Linarith
import Mathlib.Tactic.Ring

namespace Lib

-- When a peer was last heard of (0: never), and whether and since when it counts as silent.
structure Pulse where
  seen : Int
  silent : Bool
  since : Int

namespace Pulse

variable (quiet grace : Int)

def beat (now : Int) (p : Pulse) : Pulse := { p with seen := now }

-- One look of the watchdog.
def look (now : Int) (p : Pulse) : Pulse :=
  if p.seen = 0 then p
  else if now - p.seen < quiet then { p with silent := false }
  else if p.silent then p
  else { p with silent := true, since := now }

def Lapsed (now : Int) (p : Pulse) : Prop :=
  p.seen ≠ 0 ∧ quiet ≤ now - p.seen ∧ p.silent = true ∧ grace ≤ now - p.since

-- A peer that counts as silent does so from `quiet` after its last beat on, or has beaten since the
-- watchdog last looked.
def Sound (looked : Int) (p : Pulse) : Prop :=
  p.silent = true → p.seen ≠ 0 → p.seen + quiet ≤ p.since ∨ looked ≤ p.seen

variable {quiet grace} {p : Pulse} {now looked start gap last : Int} {n : Nat}

theorem seen_look : (p.look quiet now).seen = p.seen := by
  unfold look
  split
  · rfl
  split
  · rfl
  split <;> rfl

theorem since_look (h : p.since ≤ now) : (p.look quiet now).since ≤ now := by
  unfold look
  split
  · exact h
  split
  · exact h
  split
  · exact h
  · exact Int.le_refl now

theorem look_look : (p.look quiet now).look quiet now = p.look quiet now := by
  rw [look, seen_look]
  split
  · rfl
  split
  · rename_i hseen hearly
    simp only [look, if_neg hseen, if_pos hearly]
  · rename_i hseen hlate
    rw [if_pos]
    simp only [look, if_neg hseen, if_neg hlate]
    split
    · assumption
    · rfl

theorem look_unseen (h : p.seen = 0) : p.look quiet now = p := if_pos h

theorem look_early (hn : p.seen ≠ 0) (hearly : now - p.seen < quiet) :
    p.look quiet now = { p with silent := false } := by
  unfold look
  rw [if_neg hn, if_pos hearly]

theorem look_silent (h : p.silent = true) (hlate : quiet ≤ now - p.seen) :
    p.look quiet now = p := by
  by_cases hn : p.seen = 0
  · exact if_pos hn
  · have hearly : ¬ now - p.seen < quiet := by omega
    simp only [look, if_neg hn, if_neg hearly, h, if_true]

theorem look_late (h : p.silent = false) (hn : p.seen ≠ 0) (hlate : quiet ≤ now - p.seen) :
    p.look quiet now = { p with silent := true, since := now } := by
  unfold look
  rw [if_neg hn, if_neg (by omega), if_neg (by simp [h])]

theorem lapsed_of_look (hgrace : 0 < grace) (h : (p.look quiet now).Lapsed quiet grace now) :
    p.Lapsed quiet grace now := by
  obtain ⟨hseen, hlate, hsilent, hsince⟩ := h
  rw [seen_look] at hseen hlate
  cases hs : p.silent with
  | true =>
    rw [look_silent hs hlate] at hsince
    exact ⟨hseen, hlate, hs, hsince⟩
  | false =>
    rw [look_late hs hseen hlate] at hsince
    dsimp only at hsince
    omega

theorem Sound.beat (h : looked ≤ now) : Sound quiet looked (p.beat now) :=
  fun _ _ => Or.inr h

theorem Sound.mono {looked' : Int} (h : Sound quiet looked p) (hle : looked' ≤ looked) :
    Sound quiet looked' p :=
  fun hs hn => (h hs hn).imp_right hle.trans

theorem Sound.glance (h : Sound quiet looked p) : Sound quiet looked (p.look quiet now) := by
  unfold look
  split
  · exact h
  split
  · exact fun hs => Bool.noConfusion hs
  split
  · exact h
  · rename_i hlate _
    exact fun _ _ => Or.inl (by dsimp only; omega)

theorem Sound.look (h : Sound quiet looked p) (hg : now - looked < quiet) :
    Sound quiet now (p.look quiet now) := by
  unfold Pulse.look
  split
  · rename_i hzero
    exact fun _ hn => absurd hzero hn
  split
  · exact fun hs => Bool.noConfusion hs
  rename_i hseen hlate
  split
  · rename_i hsilent
    intro _ _
    rcases h hsilent hseen with hold | hbeat
    · exact Or.inl hold
    · omega
  · exact fun _ _ => Or.inl (by dsimp only; omega)

theorem Sound.spared (h : Sound quiet looked p) (hg : now - looked < quiet)
    (hl : p.Lapsed quiet grace now) : p.seen + (quiet + grace) ≤ now := by
  obtain ⟨hseen, hlate, hsilent, hgrace⟩ := hl
  rcases h hsilent hseen with hold | hbeat
  · omega
  · omega

-- A peer that is silent since `start`, at the last of the watchdog's rounds: rounds are `gap` apart
-- at most, and `n` of them did not look at it.
def Awaited (quiet grace start gap : Int) (n : Nat) (last : Int) (p : Pulse) : Prop :=
  last ≤ start + quiet + n * gap ∨
    ∃ k : Nat, k ≤ n ∧ p.silent = true ∧ p.seen + quiet ≤ last ∧
      p.since ≤ start + quiet + (k + 1) * gap ∧ last ≤ p.since + grace + (n - k) * gap

theorem Awaited.skip (h : Awaited quiet grace start gap n last p) (hle : last ≤ now)
    (hgap : now ≤ last + gap) : Awaited quiet grace start gap (n + 1) now p := by
  rcases h with h | ⟨k, hk, hsilent, hseen, hsince, hlast⟩
  · refine Or.inl ?_
    push_cast
    linarith
  · refine Or.inr ⟨k, by omega, hsilent, by omega, hsince, ?_⟩
    push_cast
    linarith

theorem Awaited.glance (h : Awaited quiet grace start gap n last p) (hle : last ≤ now) :
    Awaited quiet grace start gap n last (p.look quiet now) := by
  rcases h with h | ⟨k, hk, hsilent, hseen, hsince, hlast⟩
  · exact Or.inl h
  · rw [look_silent hsilent (by omega)]
    exact Or.inr ⟨k, hk, hsilent, hseen, hsince, hlast⟩

theorem Awaited.look (h : Awaited quiet grace start gap n last p) (hle : last ≤ now)
    (hgap : now ≤ last + gap) (hgrace : 0 ≤ grace) (hn : p.seen ≠ 0) (hs : p.seen ≤ start)
    (hsince : p.since ≤ now) (hl : ¬ p.Lapsed quiet grace now) :
    Awaited quiet grace start gap n now (p.look quiet now) := by
  have hpos : 0 ≤ (n : Int) * gap := mul_nonneg (Int.natCast_nonneg n) (by omega)
  by_cases hearly : now - p.seen < quiet
  · exact Or.inl (by linarith)
  cases hsilent : p.silent with
  | true =>
    have hstay : now ≤ p.since + grace := by
      by_contra hc
      exact hl ⟨hn, by omega, hsilent, by omega⟩
    rw [look_silent hsilent (by omega)]
    rcases h with h | ⟨k, hk, -, -, hfrom, -⟩
    · exact Or.inr ⟨n, Nat.le_refl n, hsilent, by omega, by linarith, by linarith⟩
    · have hk' : (k : Int) ≤ n := Int.ofNat_le.mpr hk
      have hmore : 0 ≤ ((n : Int) - k) * gap := mul_nonneg (by omega) (by omega)
      exact Or.inr ⟨k, hk, hsilent, by omega, hfrom, by linarith⟩
  | false =>
    rw [look_late hsilent hn (by omega)]
    rcases h with h | ⟨k, hk, hs', -⟩
    · refine Or.inr ⟨n, Nat.le_refl n, rfl, by dsimp only; omega, ?_, ?_⟩
      · dsimp only
        linarith
      · dsimp only
        linarith
    · rw [hsilent] at hs'
      exact Bool.noConfusion hs'

theorem Awaited.more {n' : Nat} (h : Awaited quiet grace start gap n last p) (hgap : 0 ≤ gap)
    (hn : n ≤ n') : Awaited quiet grace start gap n' last p := by
  have hle : (n : Int) * gap ≤ n' * gap := mul_le_mul_of_nonneg_right (Int.ofNat_le.mpr hn) hgap
  rcases h with h | ⟨k, hk, hsilent, hseen, hsince, hlast⟩
  · exact Or.inl (by linarith)
  · exact Or.inr ⟨k, hk.trans hn, hsilent, hseen, hsince, by linarith⟩

-- How long a peer can stay: `quiet`, `grace`, two rounds, and the rounds that did not look at it.
theorem Awaited.bound (h : Awaited quiet grace start gap n last p) (hgap : now ≤ last + gap)
    (hpos : 0 ≤ gap) (hgrace : 0 ≤ grace) : now ≤ start + (quiet + grace) + (n + 2) * gap := by
  rcases h with h | ⟨k, hk, -, -, hsince, hlast⟩
  · linarith
  · linarith

end Pulse

end Lib

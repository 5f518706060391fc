import Madoka.MatchServer.Vitals

namespace MatchServer

open Lib

def healSteps (start now : Int) : Nat :=
  min ((now - start).tdiv medkitInterval).toNat medkitSteps

def epSteps (last now : Int) : Nat :=
  ((now - last).tdiv epInterval).toNat

theorem healSteps_eq {start t : Int} (h : start ≤ t) :
    healSteps start t = min ((t - start) / medkitInterval).toNat medkitSteps := by
  rw [healSteps, Int.tdiv_eq_ediv_of_nonneg (Int.sub_nonneg_of_le h)]

theorem epSteps_eq {last t : Int} (h : last ≤ t) : epSteps last t = ((t - last) / epInterval).toNat := by
  rw [epSteps, Int.tdiv_eq_ediv_of_nonneg (Int.sub_nonneg_of_le h)]

theorem healSteps_le {start t : Int} : healSteps start t ≤ medkitSteps :=
  Nat.min_le_right _ _

theorem healSteps_mono {start t t' : Int} (h0 : start ≤ t) (h : t ≤ t') :
    healSteps start t ≤ healSteps start t' := by
  rw [healSteps_eq h0, healSteps_eq (h0.trans h)]
  simp only [medkitInterval, medkitSteps]
  omega

theorem healSteps_done {start t : Int} (h : start + 5000000000 ≤ t) : healSteps start t = medkitSteps := by
  rw [healSteps_eq (by omega)]
  simp only [medkitInterval, medkitSteps]
  omega

theorem epSteps_add {last t : Int} {n : Nat} (h : last + n * epInterval ≤ t) :
    epSteps last t = n + epSteps (last + n * epInterval) t := by
  have hlast := h
  simp only [epInterval] at hlast
  rw [epSteps_eq (by omega), epSteps_eq h]
  simp only [epInterval]
  omega

theorem epSteps_close {last t : Int} (h : last ≤ t) :
    last + epSteps last t * epInterval ≤ t ∧ t < last + epSteps last t * epInterval + epInterval := by
  rw [epSteps_eq h]
  simp only [epInterval]
  omega

@[ext]
structure Vigor where
  hp : Nat
  healActive : Bool
  healStart : Int
  healApplied : Nat
  ep : Nat
  epLast : Int
  deriving DecidableEq, Repr

namespace Vigor

variable (v : Vigor) (maxHP : Nat) (now : Int)

def healDue : Nat := healSteps v.healStart now - v.healApplied

def epDue : Nat := min (epSteps v.epLast now % 65536) v.ep

def heal : Vigor :=
  if v.healActive then
    if 0 < v.healDue now then
      { v with
        hp := min ((v.hp + v.healDue now) % 65536) maxHP
        healApplied := healSteps v.healStart now
        healActive := !decide (medkitSteps ≤ healSteps v.healStart now ∨
          maxHP ≤ min ((v.hp + v.healDue now) % 65536) maxHP) }
    else { v with healActive := !decide (medkitSteps ≤ v.healApplied ∨ maxHP ≤ v.hp) }
  else v

-- What a due step adds once it is cut to the bar.
def epGain : Nat :=
  if maxHP < (v.hp + v.epDue now) % 65536 then maxHP - v.hp else v.epDue now

def feed : Vigor :=
  if v.ep = 0 then v
  else if v.hp = 0 ∨ maxHP ≤ v.hp then { v with epLast := now }
  else if v.epGain maxHP now = 0 then
    { v with epLast := v.epLast + epSteps v.epLast now * epInterval }
  else
    { v with
      hp := (v.hp + v.epGain maxHP now) % 65536
      ep := v.ep - v.epGain maxHP now
      epLast := v.epLast + epSteps v.epLast now * epInterval }

-- The health stays below what a uint16 holds, and the bar is not exceeded before a step of the medkit.
def HealFits : Prop :=
  v.healActive = true → 0 < v.healDue now → v.hp ≤ maxHP ∧ v.hp + v.healDue now < 65536

def FeedFits : Prop :=
  0 < v.hp → v.hp < maxHP → 0 < v.epDue now → v.hp + v.epDue now < 65536

variable {v maxHP now} {v0 : Vigor} {a n x y : Nat}

theorem heal_cases (h : v.HealFits maxHP now) : (v.healActive = false ∧ v.heal maxHP now = v) ∨
    ∃ hp, hp = (if 0 < v.healDue now then min (v.hp + v.healDue now) maxHP else v.hp) ∧
      v.healActive = true ∧ v.heal maxHP now = { v with
        hp := hp
        healApplied := v.healApplied + v.healDue now
        healActive := !decide (medkitSteps ≤ v.healApplied + v.healDue now ∨ maxHP ≤ hp) } := by
  cases hactive : v.healActive with
  | false => exact Or.inl ⟨rfl, by rw [heal, hactive]; rfl⟩
  | true =>
    refine Or.inr ⟨_, rfl, rfl, ?_⟩
    rw [heal, if_pos hactive]
    rcases Nat.eq_zero_or_pos (v.healDue now) with hdue | hdue
    · rw [hdue, if_neg (lt_irrefl 0), if_neg (lt_irrefl 0), Nat.add_zero]
    · have happlied : v.healApplied + v.healDue now = healSteps v.healStart now := by
        unfold healDue at hdue ⊢
        omega
      rw [if_pos hdue, if_pos hdue, Nat.mod_eq_of_lt (h hactive hdue).2, happlied]

theorem epGain_eq (h : v.FeedFits maxHP now) (h0 : 0 < v.hp) (hlow : v.hp < maxHP) :
    v.epGain maxHP now = min (v.epDue now) (maxHP - v.hp) := by
  unfold epGain
  rcases Nat.eq_zero_or_pos (v.epDue now) with hdue | hdue
  · have hle := Nat.mod_le (v.hp + 0) 65536
    rw [hdue, if_neg (by omega), Nat.zero_min]
  · rw [Nat.mod_eq_of_lt (h h0 hlow hdue)]
    split <;> omega

theorem feed_cases (h : v.FeedFits maxHP now) : (v.ep = 0 ∧ v.feed maxHP now = v) ∨
    ((v.hp = 0 ∨ maxHP ≤ v.hp) ∧ v.feed maxHP now = { v with epLast := now }) ∨
    ∃ gain, gain = min (v.epDue now) (maxHP - v.hp) ∧ 0 < v.hp ∧ v.hp < maxHP ∧ 0 < v.ep ∧
      v.feed maxHP now = { v with
        hp := v.hp + gain
        ep := v.ep - gain
        epLast := v.epLast + epSteps v.epLast now * epInterval } := by
  unfold feed
  split
  · rename_i hep
    exact Or.inl ⟨hep, rfl⟩
  rename_i hep
  split
  · rename_i hblock
    exact Or.inr (Or.inl ⟨hblock, rfl⟩)
  rename_i hblock
  rw [not_or, not_le] at hblock
  have h0 : 0 < v.hp := Nat.pos_of_ne_zero hblock.1
  have hgain := epGain_eq h h0 hblock.2
  refine Or.inr (Or.inr ⟨_, rfl, h0, hblock.2, Nat.pos_of_ne_zero hep, ?_⟩)
  rw [← hgain]
  split
  · rename_i hzero
    rw [hzero]
    rfl
  · rename_i hpos
    have hdue : 0 < v.epDue now := by omega
    have hfit := h h0 hblock.2 hdue
    rw [Nat.mod_eq_of_lt (by omega)]

theorem heal_sound_iff : v.HealFits maxHP now ↔ v.hp ≤ (v.heal maxHP now).hp ∧
    ((v.heal maxHP now).hp ≠ v.hp → (v.heal maxHP now).hp ≤ maxHP) := by
  constructor
  · intro h
    rcases heal_cases h with ⟨-, heq⟩ | ⟨hp, hhp, hactive, heq⟩
    · rw [heq]
      exact ⟨le_refl _, fun h => absurd rfl h⟩
    · rw [heq]
      split at hhp
      · rename_i hdue
        have hfit := h hactive hdue
        exact ⟨by dsimp only; omega, fun _ => by dsimp only; omega⟩
      · exact ⟨ge_of_eq hhp, fun h => absurd hhp h⟩
  · intro h hactive hdue
    have hsmall : v.healDue now ≤ 75 := le_trans (Nat.sub_le _ _) healSteps_le
    have hraise := h.1
    rw [heal, if_pos hactive, if_pos hdue] at hraise
    dsimp only at hraise
    omega

theorem feed_sound_iff : v.FeedFits maxHP now ↔ v.hp ≤ (v.feed maxHP now).hp ∧
    ((v.feed maxHP now).hp ≠ v.hp → (v.feed maxHP now).hp ≤ maxHP) ∧
    (v.feed maxHP now).hp + (v.feed maxHP now).ep = v.hp + v.ep := by
  constructor
  · intro h
    rcases feed_cases h with ⟨-, heq⟩ | ⟨-, heq⟩ | ⟨gain, hgain, -, hlow, -, heq⟩
    · rw [heq]
      exact ⟨le_refl _, fun h => absurd rfl h, rfl⟩
    · rw [heq]
      exact ⟨le_refl _, fun h => absurd rfl h, rfl⟩
    · have hdue : v.epDue now ≤ v.ep := Nat.min_le_right _ _
      rw [heq]
      dsimp only
      exact ⟨by omega, fun _ => by omega, by omega⟩
  · intro h h0 hlow hdue
    have hsmall : v.epDue now < 65536 :=
      lt_of_le_of_lt (Nat.min_le_left _ _) (Nat.mod_lt _ (by decide))
    have hep : ¬ v.ep = 0 := fun hz => by
      rw [epDue, hz, Nat.min_zero] at hdue
      exact Nat.lt_irrefl _ hdue
    by_contra hwrap
    have hgain : v.epGain maxHP now = v.epDue now := by
      rw [epGain, if_neg (by omega)]
    have hraise := h.1
    rw [feed, if_neg hep, if_neg (by omega), if_neg (by omega)] at hraise
    dsimp only at hraise
    omega

def healedBy (v0 : Vigor) (now : Int) : Nat :=
  if v0.healActive then healSteps v0.healStart now else 0

-- While the bar is not full, both routines stand where the time has brought them.
structure Pending (v0 v : Vigor) (a n : Nat) : Prop where
  armed : v.healActive = true →
    v0.healActive = true ∧ v.healStart = v0.healStart ∧ v.healApplied = a
  idle : v.healActive = false → a = if v0.healActive then medkitSteps else 0
  clock : 0 < v.ep → v.epLast = v0.epLast + n * epInterval

-- From `v0` the medkit has added `x` of the `a` due, and the energy `y` of the `n` due.
structure Grown (maxHP : Nat) (v0 v : Vigor) (a n : Nat) (x y : Int) : Prop where
  hp : (v.hp : Int) = v0.hp + x + y
  ep : (v.ep : Int) + y = v0.ep
  healed : 0 ≤ x ∧ x ≤ a
  fed : 0 ≤ y ∧ y ≤ min n v0.ep
  total : x + y = min (maxHP - v0.hp : Int) (a + min n v0.ep)
  pending : v.hp < maxHP → Pending v0 v a n

theorem grown_start (h : v0.hp ≤ maxHP) (hnew : v0.healActive = true → v0.healApplied = 0) : Grown maxHP v0 v0 0 0 0 0 where
  hp := by omega
  ep := by omega
  healed := ⟨le_refl _, by omega⟩
  fed := ⟨le_refl _, by omega⟩
  total := by omega
  pending := fun _ =>
    { armed := fun hactive => ⟨hactive, rfl, hnew hactive⟩
      idle := fun hidle => by rw [hidle]; rfl
      clock := fun _ => by omega }

variable {x y : Int}

theorem Grown.heal (g : Grown maxHP v0 v a n x y) (hfit : v.HealFits maxHP now)
    (hle : a ≤ v0.healedBy now) : Grown maxHP v0 (v.heal maxHP now) (v0.healedBy now) n
      (x + ((v.heal maxHP now).hp - v.hp)) y := by
  obtain ⟨hhp, hep, hhealed, hfed, htotal, hpending⟩ := g
  rcases heal_cases hfit with ⟨hidle, heq⟩ | ⟨hp, hhp', hactive, heq⟩
  · rw [heq]
    have hdue : v.hp < maxHP → a = v0.healedBy now := by
      intro hlow
      have ha := (hpending hlow).idle hidle
      have hmax := @healSteps_le v0.healStart now
      unfold healedBy at hle ⊢
      split at ha
      · rename_i h
        rw [if_pos h] at hle ⊢
        omega
      · rename_i h
        rw [if_neg h, ha]
    exact
      { hp := by omega
        ep := hep
        healed := by omega
        fed := hfed
        total := by
          rcases lt_or_ge v.hp maxHP with hlow | hfull
          · have := hdue hlow
            omega
          · omega
        pending := fun hlow => hdue hlow ▸ hpending hlow }
  · rw [heq]
    have hbar : v.hp ≤ maxHP := by omega
    have hnew : hp = min (v.hp + v.healDue now) maxHP := by
      rw [hhp']
      split <;> omega
    have hdue : v.hp < maxHP → v.healApplied + v.healDue now = v0.healedBy now ∧ v.healApplied = a ∧
        v0.healActive = true ∧ v.healStart = v0.healStart := by
      intro hlow
      obtain ⟨hv0, hstart, happlied⟩ := (hpending hlow).armed hactive
      have hby : v0.healedBy now = healSteps v0.healStart now := if_pos hv0
      rw [hby] at hle ⊢
      refine ⟨?_, happlied, hv0, hstart⟩
      unfold healDue
      rw [hstart]
      omega
    rcases lt_or_ge v.hp maxHP with hlow | hfull
    · obtain ⟨hsum, happlied, hv0, hstart⟩ := hdue hlow
      exact
        { hp := by dsimp only; omega
          ep := hep
          healed := by dsimp only; omega
          fed := hfed
          total := by dsimp only; omega
          pending := fun hstill =>
            { armed := fun _ => ⟨hv0, hstart, hsum⟩
              idle := fun hended => by
                rw [Bool.not_eq_false', decide_eq_true_eq] at hended
                have hmax := @healSteps_le v0.healStart now
                have hby : v0.healedBy now = healSteps v0.healStart now := if_pos hv0
                rw [if_pos hv0, hby]
                rcases hended with h | h
                · omega
                · exact absurd hstill (not_lt.mpr h)
              clock := (hpending hlow).clock } }
    · have hsame : hp = v.hp := by omega
      exact
        { hp := by dsimp only; omega
          ep := hep
          healed := by dsimp only; omega
          fed := hfed
          total := by dsimp only; omega
          pending := fun hstill => absurd (hsame ▸ hstill) (not_lt.mpr hfull) }

theorem Grown.feed (g : Grown maxHP v0 v a n x y) (h0 : 0 < v0.hp) (hfit : v.FeedFits maxHP now)
    (hclock : 0 < v0.ep → v0.epLast + n * epInterval ≤ now ∧
      now < v0.epLast + n * epInterval + 65536 * epInterval) :
    Grown maxHP v0 (v.feed maxHP now) a (epSteps v0.epLast now) x
      (y + ((v.feed maxHP now).hp - v.hp)) := by
  obtain ⟨hhp, hep, hhealed, hfed, htotal, hpending⟩ := g
  have hmin : min n v0.ep ≤ min (epSteps v0.epLast now) v0.ep := by
    rcases Nat.eq_zero_or_pos v0.ep with hzero | hpos
    · omega
    · have hadd := epSteps_add (hclock hpos).1
      omega
  rcases feed_cases hfit with ⟨hspent, heq⟩ | ⟨hblock, heq⟩ | ⟨gain, hgain, -, hlow, hleft, heq⟩
  · rw [heq]
    exact
      { hp := by omega
        ep := by omega
        healed := hhealed
        fed := by omega
        total := by omega
        pending := fun hlow =>
          { armed := (hpending hlow).armed
            idle := (hpending hlow).idle
            clock := fun h => absurd hspent (Nat.ne_of_gt h) } }
  · rw [heq]
    have hfull : maxHP ≤ v.hp := by omega
    exact
      { hp := by dsimp only; omega
        ep := by dsimp only; omega
        healed := hhealed
        fed := by dsimp only; omega
        total := by dsimp only; omega
        pending := fun hlow => absurd hlow (not_lt.mpr hfull) }
  · have hlast := (hpending hlow).clock hleft
    obtain ⟨hbefore, hsoon⟩ := hclock (by omega)
    have hsteps : epSteps v0.epLast now = n + epSteps v.epLast now := by
      rw [hlast]
      exact epSteps_add hbefore
    have hsmall : epSteps v.epLast now < 65536 := by
      rw [hlast, epSteps_eq hbefore]
      simp only [epInterval] at hsoon ⊢
      omega
    have hdue : v.epDue now = min (epSteps v.epLast now) v.ep := by
      rw [epDue, Nat.mod_eq_of_lt hsmall]
    rw [hdue] at hgain
    rw [heq]
    exact
      { hp := by dsimp only; omega
        ep := by dsimp only; omega
        healed := hhealed
        fed := by dsimp only; omega
        total := by dsimp only; omega
        pending := fun _ =>
          { armed := (hpending hlow).armed
            idle := (hpending hlow).idle
            clock := fun _ => by
              dsimp only
              rw [hsteps, hlast]
              simp only [epInterval]
              omega } }

theorem healedBy_mono {t t' : Int} (h : t ≤ t') (h0 : v0.healActive = true → v0.healStart ≤ t) :
    v0.healedBy t ≤ v0.healedBy t' := by
  unfold healedBy
  split
  · rename_i hactive
    exact healSteps_mono (h0 hactive) h
  · exact le_refl _

end Vigor

namespace Core

def hpOf (c : Core) (m : MatchRef) (entity : Nat) : Nat :=
  ((c.ms m).hp.lookup entity).getD 0

def vigor (c : Core) (m : MatchRef) (s : SessionId) : Vigor where
  hp := c.hpOf m (c.ss s).entityID
  healActive := (c.ss s).healActive
  healStart := (c.ss s).healStart
  healApplied := (c.ss s).healApplied
  ep := (c.ss s).kit.ep.val
  epLast := (c.ss s).kit.epLast

variable {c d : Core} {m : MatchRef} {s : SessionId}

theorem hpOf_insert {entity hp x : Nat} :
    (c.onMatch m fun g => { g with hp := g.hp.insert entity hp }).hpOf m x =
      if x = entity then hp else c.hpOf m x := by
  simp only [hpOf, onMatch, Function.update_self]
  split
  · rename_i h
    rw [h, AList.lookup_insert]
    rfl
  · rename_i h
    rw [AList.lookup_insert_ne h]

theorem vigor_rested :
    (c.onSession s fun q => { q with healActive := false }).vigor m s =
      { c.vigor m s with healActive := false } := by
  simp only [vigor, onSession, Function.update_self]
  rfl

theorem vigor_healed {hp want : Nat} :
    ((c.onMatch m fun g => { g with hp := g.hp.insert (c.ss s).entityID hp }).onSession s
      fun q => { q with healApplied := want }).vigor m s =
      { c.vigor m s with hp := hp, healApplied := want } := by
  have hhp := @hpOf_insert c m (c.ss s).entityID hp (c.ss s).entityID
  rw [if_pos rfl] at hhp
  simp only [vigor, onSession, Function.update_self]
  exact Vigor.ext hhp rfl rfl rfl rfl rfl

theorem vigor_stepHeal (hm : (c.ss s).matchRef = some m)
    (halive : (c.ms m).lifeOf (c.ss s).entityID = .alive) :
    (c.stepHeal s).vigor m s = (c.vigor m s).heal (c.ms m).settings.maxHP c.now := by
  unfold stepHeal withMatch
  simp only [hm, halive, ne_eq, not_true_eq_false, if_false]
  cases hactive : (c.ss s).healActive with
  | false =>
    have hv : ¬ (c.vigor m s).healActive = true := by
      rw [show (c.vigor m s).healActive = false from hactive]
      exact Bool.false_ne_true
    rw [Vigor.heal, if_neg hv]
    rfl
  | true =>
    have hv : (c.vigor m s).healActive = true := hactive
    have hdue : (c.ss s).healApplied < healSteps (c.ss s).healStart c.now ↔
        0 < (c.vigor m s).healDue c.now := Nat.sub_pos_iff_lt.symm
    rw [if_pos rfl, Vigor.heal, if_pos hv]
    change Core.vigor (if (c.ss s).healApplied < healSteps (c.ss s).healStart c.now then _ else _) m s = _
    rcases Nat.eq_zero_or_pos ((c.vigor m s).healDue c.now) with h | h
    · have hnone : ¬ 0 < (c.vigor m s).healDue c.now := by omega
      rw [if_neg (mt hdue.mp hnone), if_neg hnone]
      split
      · rename_i hend
        rw [vigor_rested]
        have hoff : decide (medkitSteps ≤ (c.vigor m s).healApplied ∨
            (c.ms m).settings.maxHP ≤ (c.vigor m s).hp) = true := decide_eq_true hend
        rw [hoff]
        rfl
      · rename_i hend
        have hon : decide (medkitSteps ≤ (c.vigor m s).healApplied ∨
            (c.ms m).settings.maxHP ≤ (c.vigor m s).hp) = false := decide_eq_false hend
        rw [hon]
        exact Vigor.ext rfl hactive rfl rfl rfl rfl
    · rw [if_pos (hdue.mpr h), if_pos h]
      change Core.vigor (if medkitSteps ≤ healSteps (c.ss s).healStart c.now ∨ (c.ms m).settings.maxHP ≤
        min (((c.vigor m s).hp + (c.vigor m s).healDue c.now) % 65536) (c.ms m).settings.maxHP
        then _ else _) m s = _
      split
      · rename_i hend
        rw [vigor_rested, vigor_healed]
        refine Vigor.ext rfl ?_ rfl rfl rfl rfl
        exact (congrArg not (decide_eq_true hend)).symm
      · rename_i hend
        rw [vigor_healed]
        refine Vigor.ext rfl ?_ rfl rfl rfl rfl
        exact hactive.trans (congrArg not (decide_eq_false hend)).symm

theorem vigor_wound {k : Kit → Kit} : (c.onKit s k).vigor m s =
    { c.vigor m s with
      ep := (k (c.ss s).kit).ep.val
      epLast := (k (c.ss s).kit).epLast } := by
  simp only [vigor, onKit, onSession, Function.update_self]
  rfl

theorem vigor_hp {entity hp : Nat} (he : (c.ss s).entityID = entity) :
    (c.onMatch m fun g => { g with hp := g.hp.insert entity hp }).vigor m s =
      { c.vigor m s with hp := hp } := by
  have hhp := @hpOf_insert c m entity hp (c.ss s).entityID
  rw [if_pos he] at hhp
  exact Vigor.ext hhp rfl rfl rfl rfl rfl

theorem vigor_regen (h0 : 0 < c.hpOf m (c.ss s).entityID)
    (hlow : c.hpOf m (c.ss s).entityID < (c.ms m).settings.maxHP) (hep : (c.ss s).kit.ep.val ≠ 0) :
    (c.regen s m (c.ss s).entityID (c.hpOf m (c.ss s).entityID) (c.ms m).settings.maxHP).vigor m s =
      (c.vigor m s).feed (c.ms m).settings.maxHP c.now := by
  have hblock : ¬ ((c.vigor m s).hp = 0 ∨ (c.ms m).settings.maxHP ≤ (c.vigor m s).hp) := by
    rw [not_or, not_le]
    exact ⟨Nat.ne_of_gt h0, hlow⟩
  have hv : ¬ (c.vigor m s).ep = 0 := hep
  rw [Vigor.feed, if_neg hv, if_neg hblock]
  unfold regen
  dsimp only
  split
  · rename_i hearly
    have hsteps : epSteps (c.vigor m s).epLast c.now = 0 := Int.toNat_eq_zero.mpr hearly
    have hgain : (c.vigor m s).epGain (c.ms m).settings.maxHP c.now = 0 := by
      have hle := Nat.mod_le ((c.vigor m s).hp + 0) 65536
      rw [Vigor.epGain, Vigor.epDue, hsteps, Nat.zero_mod, Nat.zero_min, if_neg (by omega)]
    rw [if_pos hgain, hsteps]
    refine Vigor.ext rfl rfl rfl rfl rfl ?_
    change _ = _ + _
    omega
  · rename_i hdue
    have hsteps : (epSteps (c.vigor m s).epLast c.now : Int) =
        (c.now - (c.ss s).kit.epLast).tdiv epInterval :=
      Int.toNat_of_nonneg (le_of_lt (not_le.mp hdue))
    change Core.vigor (if (c.vigor m s).epGain (c.ms m).settings.maxHP c.now = 0 then _ else _) m s = _
    split
    · rw [vigor_wound]
      exact Vigor.ext rfl rfl rfl rfl rfl (congrArg (fun k => (c.ss s).kit.epLast + k * epInterval) hsteps.symm)
    · rw [vigor_wound, vigor_hp (by simp only [onKit, onSession, Function.update_self]), vigor_wound]
      simp only [onKit, onSession, onMatch, Function.update_self]
      exact Vigor.ext rfl rfl rfl rfl rfl (congrArg (fun k => (c.ss s).kit.epLast + k * epInterval) hsteps.symm)

theorem vigor_stepEP (hm : (c.ss s).matchRef = some m)
    (halive : (c.ms m).lifeOf (c.ss s).entityID = .alive) :
    (c.stepEP s).vigor m s = (c.vigor m s).feed (c.ms m).settings.maxHP c.now := by
  unfold stepEP withMatch
  simp only [hm, halive, ne_eq, not_true_eq_false, false_or]
  by_cases hep : (c.ss s).kit.ep = 0
  · have hv : (c.vigor m s).ep = 0 := congrArg Fin.val hep
    rw [if_pos hep, Vigor.feed, if_pos hv]
  have hv : (c.vigor m s).ep ≠ 0 := fun h => hep (Fin.ext h)
  rw [if_neg hep]
  split
  · rename_i hblock
    have hblock' : (c.vigor m s).hp = 0 ∨ (c.ms m).settings.maxHP ≤ (c.vigor m s).hp := hblock
    rw [vigor_wound, Vigor.feed, if_neg hv, if_pos hblock']
    rfl
  · rename_i hblock
    rw [not_or, not_le] at hblock
    exact vigor_regen (Nat.pos_of_ne_zero hblock.1) hblock.2 hv

def Treats (m : MatchRef) (entity : Nat) (c d : Core) : Prop :=
  (d.ms m).hp = (c.ms m).hp ∨ ∃ n, (d.ms m).hp = (c.ms m).hp.insert entity n

theorem Treats.ite {p : Prop} [Decidable p] {entity : Nat} {d' : Core} (h : Treats m entity c d)
    (h' : Treats m entity c d') : Treats m entity c (if p then d else d') := by
  split
  · exact h
  · exact h'

theorem treats_insert {entity n : Nat} :
    Treats m entity c (c.onMatch m fun g => { g with hp := g.hp.insert entity n }) :=
  Or.inr ⟨n, by simp only [onMatch, Function.update_self]⟩

theorem treats_stepHeal (hm : (c.ss s).matchRef = some m) :
    ((c.stepHeal s).ms m).hp = (c.ms m).hp ∨ (c.ms m).lifeOf (c.ss s).entityID = .alive ∧
      Treats m (c.ss s).entityID c (c.stepHeal s) := by
  have hnone : Treats m (c.ss s).entityID c c := Or.inl rfl
  by_cases halive : (c.ms m).lifeOf (c.ss s).entityID = .alive
  · refine Or.inr ⟨halive, ?_⟩
    unfold stepHeal withMatch
    simp only [hm]
    exact Treats.ite (Treats.ite hnone
      (Treats.ite (Treats.ite treats_insert treats_insert) (Treats.ite hnone hnone))) hnone
  · refine Or.inl ?_
    unfold stepHeal withMatch
    simp only [hm]
    rw [if_pos halive]
    split
    · rfl
    · rfl

theorem treats_stepEP (hm : (c.ss s).matchRef = some m) :
    ((c.stepEP s).ms m).hp = (c.ms m).hp ∨ (c.ms m).lifeOf (c.ss s).entityID = .alive ∧
      Treats m (c.ss s).entityID c (c.stepEP s) := by
  have hnone : ∀ k, Treats m (c.ss s).entityID c (c.onKit s k) := fun _ => Or.inl rfl
  by_cases halive : (c.ms m).lifeOf (c.ss s).entityID = .alive
  · refine Or.inr ⟨halive, ?_⟩
    unfold stepEP withMatch
    simp only [hm]
    exact Treats.ite (Or.inl rfl) (Treats.ite (hnone _) (Treats.ite (Or.inl rfl)
      (Treats.ite (hnone _) (@treats_insert (c.onKit s _) m _ _))))
  · refine Or.inl ?_
    unfold stepEP withMatch
    simp only [hm]
    rw [if_pos (Or.inl halive)]
    split
    · rfl
    · rfl

structure Nurses (m : MatchRef) (c d : Core) : Prop where
  raises : ∀ x, c.hpOf m x ≤ d.hpOf m x
  capped : ∀ x, d.hpOf m x ≠ c.hpOf m x → d.hpOf m x ≤ (c.ms m).settings.maxHP
  down : ∀ x, (c.ms m).lifeOf x ≠ .alive → d.hpOf m x = c.hpOf m x

theorem nurses_iff (he : (d.ss s).entityID = (c.ss s).entityID)
    (h : (d.ms m).hp = (c.ms m).hp ∨ (c.ms m).lifeOf (c.ss s).entityID = .alive ∧
      Treats m (c.ss s).entityID c d) :
    Nurses m c d ↔ ((c.ms m).lifeOf (c.ss s).entityID = .alive →
      (c.vigor m s).hp ≤ (d.vigor m s).hp ∧
      ((d.vigor m s).hp ≠ (c.vigor m s).hp → (d.vigor m s).hp ≤ (c.ms m).settings.maxHP)) := by
  have hown : (d.vigor m s).hp = d.hpOf m (c.ss s).entityID := congrArg (d.hpOf m) he
  have hother : ∀ x, x ≠ (c.ss s).entityID ∨ (c.ms m).lifeOf (c.ss s).entityID ≠ .alive →
      d.hpOf m x = c.hpOf m x := by
    intro x hx
    unfold hpOf
    rcases h with h | ⟨halive, h | ⟨n, h⟩⟩
    · rw [h]
    · rw [h]
    · rcases hx with hx | hx
      · rw [h, AList.lookup_insert_ne hx]
      · exact absurd halive hx
  rw [hown]
  constructor
  · intro hn _
    exact ⟨hn.raises _, hn.capped _⟩
  · intro hn
    have hmine : ∀ x, d.hpOf m x = c.hpOf m x ∨
        x = (c.ss s).entityID ∧ (c.ms m).lifeOf (c.ss s).entityID = .alive := by
      intro x
      by_cases hx : x = (c.ss s).entityID ∧ (c.ms m).lifeOf (c.ss s).entityID = .alive
      · exact Or.inr hx
      · exact Or.inl (hother x (Classical.not_and_iff_not_or_not.mp hx))
    exact
      { raises := fun x => by
          rcases hmine x with h | ⟨rfl, halive⟩
          · exact ge_of_eq h
          · exact (hn halive).1
        capped := fun x hx => by
          rcases hmine x with h | ⟨rfl, halive⟩
          · exact absurd h hx
          · exact (hn halive).2 hx
        down := fun x hx => by
          rcases hmine x with h | ⟨rfl, halive⟩
          · exact h
          · exact absurd halive hx }

theorem nurses_stepHeal (hm : (c.ss s).matchRef = some m) :
    Nurses m c (c.stepHeal s) ↔ ((c.ms m).lifeOf (c.ss s).entityID = .alive →
      (c.vigor m s).HealFits (c.ms m).settings.maxHP c.now) := by
  rw [nurses_iff (entityID_of_keeps keeps_stepHeal (by decide) s) (treats_stepHeal hm)]
  exact forall_congr' fun halive => by rw [vigor_stepHeal hm halive, Vigor.heal_sound_iff]

theorem vigor_stepEP_down (hm : (c.ss s).matchRef = some m)
    (hdown : (c.ms m).lifeOf (c.ss s).entityID ≠ .alive) :
    ((c.stepEP s).vigor m s).hp = (c.vigor m s).hp ∧ ((c.stepEP s).vigor m s).ep = (c.vigor m s).ep := by
  unfold stepEP withMatch
  simp only [hm]
  rw [if_pos (Or.inl hdown)]
  split
  · exact ⟨rfl, rfl⟩
  · rw [vigor_wound]
    exact ⟨rfl, rfl⟩

theorem nurses_stepEP (hm : (c.ss s).matchRef = some m) :
    (Nurses m c (c.stepEP s) ∧ ((c.stepEP s).vigor m s).hp + ((c.stepEP s).vigor m s).ep =
      (c.vigor m s).hp + (c.vigor m s).ep) ↔
    ((c.ms m).lifeOf (c.ss s).entityID = .alive →
      (c.vigor m s).FeedFits (c.ms m).settings.maxHP c.now) := by
  rw [nurses_iff (entityID_of_keeps keeps_stepEP (by decide) s) (treats_stepEP hm)]
  constructor
  · intro ⟨hsound, hpaid⟩ halive
    have hraise := hsound halive
    rw [vigor_stepEP hm halive] at hraise hpaid
    exact Vigor.feed_sound_iff.mpr ⟨hraise.1, hraise.2, hpaid⟩
  · intro hfit
    by_cases halive : (c.ms m).lifeOf (c.ss s).entityID = .alive
    · obtain ⟨hraise, hcap, hpaid⟩ := Vigor.feed_sound_iff.mp (hfit halive)
      rw [vigor_stepEP hm halive]
      exact ⟨fun _ => ⟨hraise, hcap⟩, hpaid⟩
    · obtain ⟨hhp, hep⟩ := vigor_stepEP_down hm halive
      exact ⟨fun h => absurd h halive, by rw [hhp, hep]⟩

structure Spared (m : MatchRef) (s : SessionId) (c d : Core) : Prop where
  seat : (d.ss s).matchRef = some m
  alive : (d.ms m).lifeOf (d.ss s).entityID = .alive
  maxHP : (d.ms m).settings.maxHP = (c.ms m).settings.maxHP
  vigor : d.vigor m s = c.vigor m s

def Fits (m : MatchRef) (s : SessionId) (c : Core) : Prop :=
  (c.vigor m s).HealFits (c.ms m).settings.maxHP c.now ∧
    ((c.stepHeal s).vigor m s).FeedFits (c.ms m).settings.maxHP c.now

theorem fits_iff (hseat : (c.ss s).matchRef = some m)
    (halive : (c.ms m).lifeOf (c.ss s).entityID = .alive) :
    c.Fits m s ↔ (c.vigor m s).HealFits (c.ms m).settings.maxHP c.now ∧
      ((c.vigor m s).heal (c.ms m).settings.maxHP c.now).FeedFits (c.ms m).settings.maxHP c.now := by
  rw [Fits, vigor_stepHeal hseat halive]

theorem Spared.fits (h : Spared m s c d) (hseat : (c.ss s).matchRef = some m)
    (halive : (c.ms m).lifeOf (c.ss s).entityID = .alive) (hnow : d.now = c.now)
    (hfit : c.Fits m s) : d.Fits m s := by
  rw [fits_iff h.seat h.alive, h.vigor, h.maxHP, hnow]
  exact (fits_iff hseat halive).mp hfit

def maxGap : Int := 60000000000

-- The two routines tick by tick, with what each has added to the health; in between anything may
-- happen to the others.
inductive Nursed (m : MatchRef) (s : SessionId) (c : Core) : Core → Int → Int → Prop
  | start : Nursed m s c c 0 0
  | tick {d d' : Core} {x y : Int} : Nursed m s c d x y → Spared m s d d' → d.now < d'.now →
      d'.now < d.now + maxGap → d'.Fits m s →
      Nursed m s c ((d'.stepHeal s).stepEP s)
        (x + (((d'.stepHeal s).vigor m s).hp - (d'.vigor m s).hp))
        (y + ((((d'.stepHeal s).stepEP s).vigor m s).hp - ((d'.stepHeal s).vigor m s).hp))

-- A fresh medkit or none, and an energy clock that the last tick has moved.
structure Armed (m : MatchRef) (s : SessionId) (c : Core) : Prop where
  hp : 0 < (c.vigor m s).hp ∧ (c.vigor m s).hp ≤ (c.ms m).settings.maxHP
  medkit : (c.vigor m s).healActive = true →
    (c.vigor m s).healStart ≤ c.now ∧ (c.vigor m s).healApplied = 0
  energy : 0 < (c.vigor m s).ep →
    (c.vigor m s).epLast ≤ c.now ∧ c.now < (c.vigor m s).epLast + maxGap + epInterval

variable {x y : Int}

structure Course (m : MatchRef) (s : SessionId) (c d : Core) (x y : Int) (a n : Nat) : Prop where
  now : c.now ≤ d.now
  maxHP : (d.ms m).settings.maxHP = (c.ms m).settings.maxHP
  grown : Vigor.Grown (c.ms m).settings.maxHP (c.vigor m s) (d.vigor m s) a n x y
  healed : a ≤ (c.vigor m s).healedBy d.now
  clock : 0 < (c.vigor m s).ep → (c.vigor m s).epLast + n * epInterval ≤ d.now ∧
    d.now < (c.vigor m s).epLast + n * epInterval + maxGap + epInterval

theorem lifeOf_of_keeps {F : List Part} (h : Keeps F c d) (hF : Part.life ∉ F) (entity : Nat) :
    (d.ms m).lifeOf entity = (c.ms m).lifeOf entity := by
  have hl : (c.ms m).life = (d.ms m).life := (h _ hF).1 m
  rw [Match.lifeOf, Match.lifeOf, hl]

theorem course_start (ha : Armed m s c) : Course m s c c 0 0 0 0 where
  now := le_refl _
  maxHP := rfl
  grown := Vigor.grown_start ha.hp.2 fun h => (ha.medkit h).2
  healed := Nat.zero_le _
  clock := fun h => by
    have hclock := ha.energy h
    simp only [epInterval, maxGap] at hclock ⊢
    omega

theorem Course.tick {d' : Core} {a n : Nat} (h : Course m s c d x y a n) (ha : Armed m s c)
    (hs : Spared m s d d') (hnow : d.now < d'.now) (hgap : d'.now < d.now + maxGap)
    (hfit : d'.Fits m s) :
    Course m s c ((d'.stepHeal s).stepEP s)
      (x + (((d'.stepHeal s).vigor m s).hp - (d'.vigor m s).hp))
      (y + ((((d'.stepHeal s).stepEP s).vigor m s).hp - ((d'.stepHeal s).vigor m s).hp))
      ((c.vigor m s).healedBy d'.now) (epSteps (c.vigor m s).epLast d'.now) := by
  have hmax : (d'.ms m).settings.maxHP = (c.ms m).settings.maxHP := hs.maxHP.trans h.maxHP
  have hseat : ((d'.stepHeal s).ss s).matchRef = some m :=
    (matchRef_of_keeps keeps_stepHeal (by decide) s).trans hs.seat
  have hbar : ((d'.stepHeal s).ms m).settings.maxHP = (c.ms m).settings.maxHP :=
    (congrArg MatchSettings.maxHP (settings_of_keeps keeps_stepHeal (by decide) m)).trans hmax
  have htime : (d'.stepHeal s).now = d'.now := now_of_keeps keeps_stepHeal (by decide)
  have halive : ((d'.stepHeal s).ms m).lifeOf ((d'.stepHeal s).ss s).entityID = .alive := by
    rw [lifeOf_of_keeps keeps_stepHeal (by decide), entityID_of_keeps keeps_stepHeal (by decide)]
    exact hs.alive
  have hheal := vigor_stepHeal hs.seat hs.alive
  have hfeed := vigor_stepEP hseat halive
  rw [hmax] at hheal
  rw [hbar, htime] at hfeed
  obtain ⟨hfit1, hfit2⟩ := hfit
  rw [hmax] at hfit1 hfit2
  have hhealed : a ≤ (c.vigor m s).healedBy d'.now :=
    le_trans h.healed (Vigor.healedBy_mono (le_of_lt hnow) fun hactive =>
      le_trans (ha.medkit hactive).1 h.now)
  have hclock : 0 < (c.vigor m s).ep → (c.vigor m s).epLast + n * epInterval ≤ d'.now ∧
      d'.now < (c.vigor m s).epLast + n * epInterval + 65536 * epInterval := by
    intro hep
    have hclock := h.clock hep
    simp only [epInterval, maxGap] at hclock hgap ⊢
    omega
  have hnext : ((d'.stepHeal s).stepEP s).now = d'.now :=
    (now_of_keeps keeps_stepEP (by decide)).trans htime
  have hgrown := h.grown
  rw [← hs.vigor] at hgrown
  exact
    { now := by
        rw [hnext]
        exact le_trans h.now (le_of_lt hnow)
      maxHP := (congrArg MatchSettings.maxHP (settings_of_keeps keeps_stepEP (by decide) m)).trans hbar
      grown := by
        have hstep := hgrown.heal hfit1 hhealed
        rw [← hheal] at hstep
        have hlast := hstep.feed ha.hp.1 hfit2 hclock
        rw [← hfeed] at hlast
        exact hlast
      healed := by rw [hnext]
      clock := fun hep => by
        have hbefore := (hclock hep).1
        have hstarted : (c.vigor m s).epLast ≤ d'.now := by
          simp only [epInterval] at hbefore
          omega
        have hclose := epSteps_close hstarted
        rw [hnext]
        simp only [epInterval, maxGap] at hclose ⊢
        omega }

theorem course_of_nursed (ha : Armed m s c) (h : Nursed m s c d x y) :
    (d = c ∧ x = 0 ∧ y = 0) ∨ c.now < d.now ∧ Course m s c d x y
      ((c.vigor m s).healedBy d.now) (epSteps (c.vigor m s).epLast d.now) := by
  induction h with
  | start => exact Or.inl ⟨rfl, rfl, rfl⟩
  | @tick d d' x y _ hs hnow hgap hfit ih =>
    have hnext : ((d'.stepHeal s).stepEP s).now = d'.now :=
      (now_of_keeps keeps_stepEP (by decide)).trans (now_of_keeps keeps_stepHeal (by decide))
    refine Or.inr ?_
    rw [hnext]
    rcases ih with ⟨rfl, rfl, rfl⟩ | ⟨hlt, hcourse⟩
    · exact ⟨hnow, (course_start ha).tick ha hs hnow hgap hfit⟩
    · exact ⟨hlt.trans hnow, hcourse.tick ha hs hnow hgap hfit⟩

def Elsewhere (p : SessionId) (c d : Core) : Prop :=
  ∀ s, s ≠ p → d.ss s = c.ss s

variable {p : SessionId} {d' : Core}

theorem Elsewhere.ite {q : Prop} [Decidable q] (h : Elsewhere p c d) (h' : Elsewhere p c d') :
    Elsewhere p c (if q then d else d') := by
  split
  · exact h
  · exact h'

theorem Elsewhere.withMatch {f : MatchRef → Core} (h : ∀ m, Elsewhere p c (f m)) (hc : Elsewhere p c d) :
    Elsewhere p c (d.withMatch p f) := by
  unfold Core.withMatch
  split
  · exact h _
  · exact hc

theorem Elsewhere.onSession {f : Session → Session} (h : Elsewhere p c d) :
    Elsewhere p c (d.onSession p f) := fun s hs =>
  (Function.update_of_ne hs _ _).trans (h s hs)

theorem Elsewhere.onMatch {f : Match → Match} (h : Elsewhere p c d) : Elsewhere p c (d.onMatch m f) := h

theorem Elsewhere.broadcastData {msg : Msg} (h : Elsewhere p c d) :
    Elsewhere p c (d.broadcastData m msg) := h

theorem elsewhere_refl : Elsewhere p c c := fun _ _ => rfl

theorem elsewhere_stepHeal : Elsewhere p c (c.stepHeal p) := by
  refine Elsewhere.ite (Elsewhere.withMatch (fun m => ?_) elsewhere_refl) elsewhere_refl
  refine Elsewhere.ite elsewhere_refl.onSession (Elsewhere.ite (Elsewhere.ite ?_ ?_)
    (Elsewhere.ite elsewhere_refl.onSession elsewhere_refl))
  · exact (Elsewhere.onSession fun _ _ => rfl).onSession
  · exact Elsewhere.onSession fun _ _ => rfl

theorem elsewhere_stepEP : Elsewhere p c (c.stepEP p) := by
  refine Elsewhere.ite elsewhere_refl (Elsewhere.withMatch (fun m => ?_) elsewhere_refl)
  refine Elsewhere.ite elsewhere_refl.onSession (Elsewhere.ite elsewhere_refl
    (Elsewhere.ite elsewhere_refl.onSession ?_))
  exact Elsewhere.onSession (Elsewhere.onMatch elsewhere_refl.onSession)

theorem elsewhere_stepHealChannel : Elsewhere p c (c.stepHealChannel p) := by
  refine Elsewhere.ite (Elsewhere.withMatch (fun m => Elsewhere.ite ?_ elsewhere_refl) elsewhere_refl)
    elsewhere_refl
  refine Elsewhere.ite (Elsewhere.withMatch (fun m => ?_) elsewhere_refl.onSession) elsewhere_refl
  exact Elsewhere.broadcastData elsewhere_refl.onSession

theorem elsewhere_stepPlayer : Elsewhere p c (stepPlayer c p) := fun s hs =>
  (elsewhere_stepHealChannel s hs).trans ((elsewhere_stepEP s hs).trans (elsewhere_stepHeal s hs))

theorem vigor_endHealChannel : (c.endHealChannel s).vigor m s = c.vigor m s := by
  have hoff : (c.onSession s fun q => { q with healChanneling := false }).vigor m s = c.vigor m s := by
    simp only [vigor, onSession, Function.update_self]
    rfl
  unfold endHealChannel Core.withMatch
  split
  · dsimp only
    split
    · exact hoff
    · exact hoff
  · rfl

theorem vigor_stepHealChannel : (c.stepHealChannel s).vigor m s = c.vigor m s := by
  unfold stepHealChannel Core.withMatch
  split
  · split
    · dsimp only
      split
      · exact vigor_endHealChannel
      · rfl
    · rfl
  · rfl

theorem Spared.trans (h : Spared m s c d) (h' : Spared m s d d') : Spared m s c d' :=
  ⟨h'.seat, h'.alive, h'.maxHP.trans h.maxHP, h'.vigor.trans h.vigor⟩

theorem spared_stepHealChannel (hseat : (c.ss s).matchRef = some m)
    (halive : (c.ms m).lifeOf (c.ss s).entityID = .alive) : Spared m s c (c.stepHealChannel s) where
  seat := (matchRef_of_keeps keeps_stepHealChannel (by decide) s).trans hseat
  alive := by
    rw [lifeOf_of_keeps keeps_stepHealChannel (by decide),
      entityID_of_keeps keeps_stepHealChannel (by decide)]
    exact halive
  maxHP := congrArg MatchSettings.maxHP (settings_of_keeps keeps_stepHealChannel (by decide) m)
  vigor := vigor_stepHealChannel

theorem Treats.hpOf {entity other : Nat} (h : Treats m entity c d) (hne : other ≠ entity) :
    d.hpOf m other = c.hpOf m other := by
  unfold Core.hpOf
  rcases h with h | ⟨n, h⟩
  · rw [h]
  · rw [h, AList.lookup_insert_ne hne]

theorem spared_stepPlayer (hp : (c.ss p).matchRef = some m) (hne : s ≠ p)
    (he : (c.ss s).entityID ≠ (c.ss p).entityID) (hseat : (c.ss s).matchRef = some m)
    (halive : (c.ms m).lifeOf (c.ss s).entityID = .alive) : Spared m s c (stepPlayer c p) := by
  have hsame : (stepPlayer c p).ss s = c.ss s := elsewhere_stepPlayer s hne
  have hheal : Treats m (c.ss p).entityID c (c.stepHeal p) := (treats_stepHeal hp).elim Or.inl And.right
  have hent : ((c.stepHeal p).ss p).entityID = (c.ss p).entityID :=
    entityID_of_keeps keeps_stepHeal (by decide) p
  have hfeed : Treats m (c.ss p).entityID (c.stepHeal p) ((c.stepHeal p).stepEP p) := by
    rw [← hent]
    exact (treats_stepEP ((matchRef_of_keeps keeps_stepHeal (by decide) p).trans hp)).elim Or.inl And.right
  have hhp : (stepPlayer c p).hpOf m (c.ss s).entityID = c.hpOf m (c.ss s).entityID := by
    have hlast : ((stepPlayer c p).ms m).hp = (((c.stepHeal p).stepEP p).ms m).hp :=
      ((keeps_stepHealChannel (c := (c.stepHeal p).stepEP p) (s := p) .hp (by decide)).1 m).symm
    rw [← hheal.hpOf he, ← hfeed.hpOf he, Core.hpOf, hlast]
    rfl
  exact
    { seat := by
        rw [hsame]
        exact hseat
      alive := by
        rw [hsame, lifeOf_of_keeps keeps_stepPlayer (by decide)]
        exact halive
      maxHP := congrArg MatchSettings.maxHP (settings_of_keeps keeps_stepPlayer (by decide) m)
      vigor := by
        unfold Core.vigor
        rw [hsame, hhp] }

theorem spared_stepPlayers {l : List SessionId}
    (hl : ∀ p ∈ l, (c.ss p).matchRef = some m ∧ s ≠ p ∧ (c.ss s).entityID ≠ (c.ss p).entityID)
    (hseat : (c.ss s).matchRef = some m) (halive : (c.ms m).lifeOf (c.ss s).entityID = .alive) :
    Spared m s c (l.foldl stepPlayer c) := by
  induction l generalizing c with
  | nil => exact ⟨hseat, halive, rfl, rfl⟩
  | cons p l ih =>
    obtain ⟨hp, hne, he⟩ := hl p (List.mem_cons_self ..)
    have hfirst := spared_stepPlayer hp hne he hseat halive
    have hseats := fun q => matchRef_of_keeps (keeps_stepPlayer (c := c) (p := p)) (by decide) q
    have hents := fun q => entityID_of_keeps (keeps_stepPlayer (c := c) (p := p)) (by decide) q
    refine hfirst.trans (ih (fun q hq => ?_) hfirst.seat hfirst.alive)
    rw [hseats, hents, hents]
    exact hl q (List.mem_cons_of_mem _ hq)

theorem keeps_stepPlayers (l : List SessionId) : Keeps [.body, .hp, .kit] c (l.foldl stepPlayer c) := by
  induction l generalizing c with
  | nil => exact Frame.refl c
  | cons p l ih => exact keeps_stepPlayer.trans ih

theorem nursed_stepPlayers {before after : List SessionId} (h : Nursed m s c d x y)
    (hs : Spared m s d d') (hnow : d.now < d'.now) (hgap : d'.now < d.now + maxGap)
    (hl : ∀ p ∈ before ++ after,
      (d'.ss p).matchRef = some m ∧ s ≠ p ∧ (d'.ss s).entityID ≠ (d'.ss p).entityID)
    (hfit : d'.Fits m s) :
    ∃ e x' y', Nursed m s c e x' y' ∧ e.now = d'.now ∧
      Spared m s e ((before ++ s :: after).foldl stepPlayer d') := by
  have hbefore := spared_stepPlayers (fun p hp => hl p (List.mem_append_left _ hp)) hs.seat hs.alive
  have htime : (before.foldl stepPlayer d').now = d'.now :=
    now_of_keeps (keeps_stepPlayers before) (by decide)
  have hstep := Nursed.tick h (hs.trans hbefore) (by rwa [htime]) (by rwa [htime])
    (hbefore.fits hs.seat hs.alive htime hfit)
  have hmine : Keeps [.body, .hp, .kit] (before.foldl stepPlayer d')
      (((before.foldl stepPlayer d').stepHeal s).stepEP s) :=
    (keeps_stepHeal.mono (by decide)).trans (keeps_stepEP.mono (by decide))
  have hseats := fun q => matchRef_of_keeps ((keeps_stepPlayers before).trans hmine) (by decide) q
  have hents := fun q => entityID_of_keeps ((keeps_stepPlayers before).trans hmine) (by decide) q
  have hseat := (hseats s).trans hs.seat
  have halive : ((((before.foldl stepPlayer d').stepHeal s).stepEP s).ms m).lifeOf
      ((((before.foldl stepPlayer d').stepHeal s).stepEP s).ss s).entityID = .alive := by
    rw [hents, lifeOf_of_keeps ((keeps_stepPlayers before).trans hmine) (by decide)]
    exact hs.alive
  have hchannel := spared_stepHealChannel hseat halive
  refine ⟨_, _, _, hstep, ?_, ?_⟩
  · exact (now_of_keeps hmine (by decide)).trans htime
  · rw [List.foldl_append, List.foldl_cons]
    refine hchannel.trans (spared_stepPlayers (fun p hp => ?_) hchannel.seat hchannel.alive)
    rw [matchRef_of_keeps keeps_stepHealChannel (by decide),
      entityID_of_keeps keeps_stepHealChannel (by decide),
      entityID_of_keeps keeps_stepHealChannel (by decide), hseats, hents, hents]
    exact hl p (List.mem_append_right _ hp)

structure Restored (m : MatchRef) (s : SessionId) (c d : Core) (x y : Int) : Prop where
  hp : ((d.vigor m s).hp : Int) = (c.vigor m s).hp + x + y
  ep : ((d.vigor m s).ep : Int) + y = (c.vigor m s).ep
  healed : 0 ≤ x ∧ x ≤ (c.vigor m s).healedBy d.now
  fed : 0 ≤ y ∧ y ≤ min (epSteps (c.vigor m s).epLast d.now) (c.vigor m s).ep
  total : x + y = min ((c.ms m).settings.maxHP - (c.vigor m s).hp : Int)
    ((c.vigor m s).healedBy d.now + min (epSteps (c.vigor m s).epLast d.now) (c.vigor m s).ep)
  medkit : (c.vigor m s).ep = 0 → (c.vigor m s).healActive = true →
    (c.vigor m s).healStart + 5000000000 ≤ d.now →
    (d.vigor m s).hp = (c.vigor m s).hp + min 75 ((c.ms m).settings.maxHP - (c.vigor m s).hp)
  energy : (c.vigor m s).healActive = false →
    ∃ n, n = min (c.vigor m s).ep (min ((c.ms m).settings.maxHP - (c.vigor m s).hp)
        (epSteps (c.vigor m s).epLast d.now)) ∧
      (d.vigor m s).hp = (c.vigor m s).hp + n ∧ (d.vigor m s).ep + n = (c.vigor m s).ep

theorem Course.restored {a n : Nat} (h : Course m s c d x y a n) (hcap : Armed m s c)
    (ha : a = (c.vigor m s).healedBy d.now) (hn : n = epSteps (c.vigor m s).epLast d.now) :
    Restored m s c d x y := by
  subst ha hn
  obtain ⟨hhp, hep, hhealed, hfed, htotal, -⟩ := h.grown
  have hbar := hcap.hp.2
  exact
    { hp := hhp
      ep := hep
      healed := hhealed
      fed := hfed
      total := htotal
      medkit := fun hnone hactive hdone => by
        have hall : (c.vigor m s).healedBy d.now = 75 := by
          rw [Vigor.healedBy, if_pos hactive]
          exact healSteps_done hdone
        rw [hall] at htotal
        omega
      energy := fun hidle => by
        have hnone : (c.vigor m s).healedBy d.now = 0 := by
          rw [Vigor.healedBy, hidle]
          rfl
        rw [hnone] at htotal hhealed
        exact ⟨_, rfl, by omega, by omega⟩ }

theorem fits_of_run {w : World} {es : List Event} {v : Server} {t : Moment} {tgt : Option MatchRef}
    (h : Run (Guarded (Server.Step w) Server.Sturdy) Server.start es v)
    (hm : (v.core.ss s).matchRef = some m) (hb : (v.core.field m).begun = true)
    (hs : s ∈ (v.core.ms m).players)
    (halive : (v.core.ms m).lifeOf (v.core.ss s).entityID = .alive) :
    (v.core.atMoment t tgt).Fits m s := by
  have hsane := Server.sane_of_run h m
  have htakes : (v.core.field m).Takes (v.core.ss s).entityID :=
    Or.inl ⟨v.core.member s, List.mem_map_of_mem hs, rfl⟩
  obtain ⟨-, n, hn, h0, hle⟩ := (hsane.vital hb).alive _ htakes halive
  have hcap := (hsane.cap hb).2
  have hhp : (v.core.vigor m s).hp = n := by
    change ((v.core.ms m).hp.lookup (v.core.ss s).entityID).getD 0 = n
    rw [show (v.core.ms m).hp.lookup (v.core.ss s).entityID = some n from hn]
    rfl
  change n ≤ (v.core.ms m).settings.maxHP at hle
  change (v.core.ms m).settings.maxHP + maxEP < 65536 at hcap
  rw [← hhp] at h0 hle
  have hfit : (v.core.vigor m s).HealFits (v.core.ms m).settings.maxHP t.now := fun _ _ => by
    have hheal : (v.core.vigor m s).healDue t.now ≤ medkitSteps := le_trans (Nat.sub_le _ _) healSteps_le
    unfold medkitSteps at hheal
    unfold maxEP at hcap
    exact ⟨hle, by omega⟩
  have hep : ((v.core.vigor m s).heal (v.core.ms m).settings.maxHP t.now).epDue t.now ≤ maxEP := by
    refine le_trans (Nat.min_le_right _ _) ?_
    rcases Vigor.heal_cases hfit with ⟨-, heq⟩ | ⟨hp, -, -, heq⟩
    · rw [heq]
      exact Nat.le_of_lt_succ (v.core.ss s).kit.ep.isLt
    · rw [heq]
      exact Nat.le_of_lt_succ (v.core.ss s).kit.ep.isLt
  have hfeed : ((v.core.vigor m s).heal (v.core.ms m).settings.maxHP t.now).FeedFits
      (v.core.ms m).settings.maxHP t.now := fun _ hlow _ => by omega
  exact (fits_iff (c := v.core.atMoment t tgt) hm halive).mpr ⟨hfit, hfeed⟩

-- When a step of either routine is sound, what any schedule of sound steps restores, that the match
-- loop's pass over the players is such a step of each of them, and the runs in which every step is sound.
theorem regen_exact (hm : (c.ss s).matchRef = some m) :
    (Nurses m c (c.stepHeal s) ↔ ((c.ms m).lifeOf (c.ss s).entityID = .alive →
      (c.vigor m s).HealFits (c.ms m).settings.maxHP c.now)) ∧
    (Nurses m c (c.stepEP s) ∧ ((c.stepEP s).vigor m s).hp + ((c.stepEP s).vigor m s).ep =
        (c.vigor m s).hp + (c.vigor m s).ep ↔
      ((c.ms m).lifeOf (c.ss s).entityID = .alive →
        (c.vigor m s).FeedFits (c.ms m).settings.maxHP c.now)) ∧
    (Armed m s c → ∀ d x y, Nursed m s c d x y → c.now < d.now → Restored m s c d x y) ∧
    (∀ d d' x y before after, Nursed m s c d x y → Spared m s d d' → d.now < d'.now →
      d'.now < d.now + maxGap →
      (∀ p ∈ before ++ after,
        (d'.ss p).matchRef = some m ∧ s ≠ p ∧ (d'.ss s).entityID ≠ (d'.ss p).entityID) →
      d'.Fits m s → ∃ e x' y', Nursed m s c e x' y' ∧ e.now = d'.now ∧
        Spared m s e ((before ++ s :: after).foldl stepPlayer d')) ∧
    (∀ w es v t tgt, Run (Guarded (Server.Step w) Server.Sturdy) Server.start es v → v.core = c →
      (c.field m).begun = true → s ∈ (c.ms m).players →
      (c.ms m).lifeOf (c.ss s).entityID = .alive → (c.atMoment t tgt).Fits m s) := by
  refine ⟨nurses_stepHeal hm, nurses_stepEP hm, fun ha d x y h hlt => ?_,
    fun d d' x y before after h hs hnow hgap hl hfit => nursed_stepPlayers h hs hnow hgap hl hfit, ?_⟩
  · rcases course_of_nursed ha h with ⟨rfl, -, -⟩ | ⟨-, hcourse⟩
    · exact absurd hlt (lt_irrefl _)
    · exact hcourse.restored ha rfl rfl
  · rintro w es v t tgt h rfl hb hs halive
    exact fits_of_run h hm hb hs halive

-- A player with half of its health, who has just used a medkit.
def healing : Core :=
  (Server.start.core.onSession 0 fun q =>
    { q with matchRef := some 0, entityID := 1, healActive := true, healStart := 0, healApplied := 0 }).onMatch 0
    fun g => { g with hp := (∅ : GoMap Nat).insert 1 100, settings := { g.settings with maxHP := 200 } }

theorem regen_exact_healing :
    ((((healing.atMoment ⟨5000000000, [], 0⟩ none).stepHeal 0).stepEP 0).vigor 0 0).hp = 175 := by
  have hspared : Spared 0 0 healing (healing.atMoment ⟨5000000000, [], 0⟩ none) :=
    ⟨by decide, by decide, by decide, by decide⟩
  have hfit : (healing.atMoment ⟨5000000000, [], 0⟩ none).Fits 0 0 :=
    ⟨fun _ _ => by decide, fun _ _ _ => by decide⟩
  have harmed : Armed 0 0 healing := ⟨by decide, fun _ => by decide, fun h => absurd h (by decide)⟩
  exact ((regen_exact (by decide)).2.2.1 harmed _ _ _
    (Nursed.tick Nursed.start hspared (by decide) (by decide) hfit) (by decide)).medkit
    (by decide) (by decide) (by decide)

end Core

namespace Server

-- The host of the room sets the health to 1; the revived guest has 20 and uses the medkit it came with.
def oneHitWorld : World :=
  { signedWorld with
    settings := fun mid =>
      if mid = 7 then some (some ⟨0, 1, [], [], 0, 0, 0, 0, [], none⟩) else none }

-- cmd 113.
def useInventory (unique : Nat) : Packet := ⟨1, 113, 1, le32 unique⟩

theorem medkit_lowers_hp : ¬ ∀ w es v t m s, Run (Step w) start es v → (v.core.ss s).matchRef = some m →
    Core.Nurses m (v.core.atMoment t (some m)) ((v.core.atMoment t (some m)).stepHeal s) := by
  intro hall
  have hrun : (((revival ++ sends 4100000000 1 0 (useInventory 2)).foldlM (step oneHitWorld) start).map
      fun v => ((v.core.ss 1).matchRef,
        (v.core.atMoment ⟨4200000000, [], 0⟩ (some 0)).hpOf 0 0x01000003,
        ((v.core.atMoment ⟨4200000000, [], 0⟩ (some 0)).stepHeal 1).hpOf 0 0x01000003)) =
      some (some 0, 20, 1) := by
    decide +kernel
  obtain ⟨v, hv, hd⟩ := Option.map_eq_some_iff.mp hrun
  simp only [Prod.mk.injEq] at hd
  obtain ⟨hseat, hbefore, hafter⟩ := hd
  have hraise := (hall oneHitWorld _ v ⟨4200000000, [], 0⟩ 0 1 (run_of_foldlM hv) hseat).raises 0x01000003
  rw [hbefore, hafter] at hraise
  exact absurd hraise (by decide)

end Server

end MatchServer

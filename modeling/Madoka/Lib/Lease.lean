import Madoka.Lib.History
import Mathlib.Data.Int.Order.Basic

namespace Lib

variable {κ : Type}

-- A key that a token holds until it runs out.
structure Lease (κ : Type) where
  token : κ
  ends : Int
  deriving DecidableEq, Repr

namespace Lease

def live (now : Int) (l : Option (Lease κ)) : Option (Lease κ) :=
  l.filter fun x => decide (now < x.ends)

-- SET NX PX.
def acquire (k : κ) (now ttl : Int) (l : Option (Lease κ)) : Option (Lease κ) × Bool :=
  if live now l = none then (some ⟨k, now + ttl⟩, true) else (l, false)

-- A lease that was granted and has not run out is the one in the key.
def Sole (now : Int) (l : Option (Lease κ)) (ends : κ → Option Int) : Prop :=
  ∀ k x, ends k = some x → now < x → l = some ⟨k, x⟩

inductive Mark (κ : Type) where
  | granted (k : κ) (t : Int)
  | freed (k : κ)
  deriving DecidableEq, Repr

-- The key passes from one token to another `ttl` after its last grant, or given back.
def Apart (ttl : Int) (pre : List (Mark κ)) : Mark κ → Prop
  | .granted k t => ∀ k' t' past post, k' ≠ k → pre = past ++ .granted k' t' :: post →
      .freed k' ∈ post ∨ t' + ttl ≤ t
  | .freed _ => True

-- The key at `now`, the ends of the leases that were granted and what happened before.
structure Books (ttl now : Int) (l : Option (Lease κ)) (ends : κ → Option Int)
    (marks : List (Mark κ)) : Prop where
  sole : Sole now l ends
  past : ∀ k t, .granted k t ∈ marks → t ≤ now
  noted : ∀ k t past post, marks = past ++ .granted k t :: post →
    .freed k ∈ post ∨ ∃ x, ends k = some x ∧ t + ttl ≤ x
  apart : Each (Apart ttl) marks

section Live

variable {k k' : κ} {now t ttl x x' : Int} {l : Option (Lease κ)} {ends : κ → Option Int}
  {marks : List (Mark κ)}

theorem live_some (h : t < x) : live t (some ⟨k, x⟩) = some ⟨k, x⟩ := by
  simp [live, h]

theorem acquire_failed (h : (acquire k now ttl l).2 = false) : (acquire k now ttl l).1 = l := by
  unfold acquire at h ⊢
  split at h
  · exact Bool.noConfusion h
  · rename_i hlive
    rw [if_neg hlive]

theorem Sole.later (h : Sole now l ends) (ht : now ≤ t) : Sole t l ends :=
  fun k x hk hx => h k x hk (Int.lt_of_le_of_lt ht hx)

theorem Sole.eq (h : Sole now l ends) (hk : ends k = some x) (hx : now < x)
    (hk' : ends k' = some x') (hx' : now < x') : k = k' := by
  have heq := (h k x hk hx).symm.trans (h k' x' hk' hx')
  exact congrArg Lease.token (Option.some.inj heq)

theorem books_start : Books ttl now none (fun _ : κ => none) [] where
  sole := fun _ x h _ => absurd h.symm (Option.some_ne_none x)
  past := fun _ _ h => absurd h List.not_mem_nil
  noted := fun _ _ past post h => absurd h (by simp)
  apart := each_nil

theorem Books.later (h : Books ttl now l ends marks) (ht : now ≤ t) : Books ttl t l ends marks :=
  ⟨h.sole.later ht, fun k t' hm => Int.le_trans (h.past k t' hm) ht, h.noted, h.apart⟩

end Live

variable [DecidableEq κ]

def renew (k : κ) (now ttl : Int) (l : Option (Lease κ)) : Option (Lease κ) × Bool :=
  if (live now l).map Lease.token = some k then (some ⟨k, now + ttl⟩, true) else (l, false)

def release (k : κ) (now : Int) (l : Option (Lease κ)) : Option (Lease κ) × Bool :=
  if (live now l).map Lease.token = some k then (none, true) else (l, false)

variable {k k' : κ} {now t ttl x x' : Int} {l : Option (Lease κ)} {ends : κ → Option Int}
  {marks : List (Mark κ)}

theorem Sole.acquire (h : Sole now l ends) (ha : (acquire k now ttl l).2 = true) :
    Sole now (Lease.acquire k now ttl l).1 (Function.update ends k (some (now + ttl))) ∧
      ∀ k' x, ends k' = some x → x ≤ now := by
  unfold Lease.acquire at ha ⊢
  split at ha
  · rename_i hnone
    rw [if_pos hnone]
    have hover : ∀ k' x, ends k' = some x → x ≤ now := fun k' x hk' => by
      by_contra hx
      have hl := h k' x hk' (Int.not_le.mp hx)
      rw [hl, live_some (Int.not_le.mp hx)] at hnone
      exact Option.some_ne_none _ hnone
    refine ⟨fun k' x hk' hx => ?_, hover⟩
    by_cases hkk : k' = k
    · subst hkk
      rw [Function.update_self] at hk'
      rw [Option.some.inj hk']
    · rw [Function.update_of_ne hkk] at hk'
      exact absurd (hover k' x hk') (Int.not_le.mpr hx)
  · exact Bool.noConfusion ha

theorem Sole.renew (h : Sole now l ends) (ha : (renew k now ttl l).2 = true) :
    Sole now (Lease.renew k now ttl l).1 (Function.update ends k (some (now + ttl))) ∧
      ∀ k' x, k' ≠ k → ends k' = some x → x ≤ now := by
  unfold Lease.renew at ha ⊢
  split at ha
  · rename_i hmine
    rw [if_pos hmine]
    have hover : ∀ k' x, k' ≠ k → ends k' = some x → x ≤ now := fun k' x hkk hk' => by
      by_contra hx
      have hl := h k' x hk' (Int.not_le.mp hx)
      rw [hl, live_some (Int.not_le.mp hx)] at hmine
      exact hkk (Option.some.inj hmine)
    refine ⟨fun k' x hk' hx => ?_, hover⟩
    by_cases hkk : k' = k
    · subst hkk
      rw [Function.update_self] at hk'
      rw [Option.some.inj hk']
    · rw [Function.update_of_ne hkk] at hk'
      exact absurd (hover k' x hkk hk') (Int.not_le.mpr hx)
  · exact Bool.noConfusion ha

theorem Sole.release (h : Sole now l ends) :
    Sole now (Lease.release k now l).1 (Function.update ends k none) := by
  intro k' x hk' hx
  by_cases hkk : k' = k
  · subst hkk
    rw [Function.update_self] at hk'
    exact absurd hk'.symm (Option.some_ne_none x)
  · rw [Function.update_of_ne hkk] at hk'
    have hl := h k' x hk' hx
    unfold Lease.release
    rw [hl, live_some hx, if_neg (by simpa using hkk)]

theorem Books.grant {l' : Option (Lease κ)} (h : Books ttl now l ends marks)
    (hs : Sole now l' (Function.update ends k (some (now + ttl))))
    (ho : ∀ k' x, k' ≠ k → ends k' = some x → x ≤ now) :
    Books ttl now l' (Function.update ends k (some (now + ttl))) (marks ++ [.granted k now]) where
  sole := hs
  past := by
    intro k' t hm
    rcases List.mem_append.mp hm with hm | hm
    · exact h.past k' t hm
    · obtain ⟨rfl, rfl⟩ := Mark.granted.inj (List.mem_singleton.mp hm)
      exact Int.le_refl _
  noted := by
    intro k' t past post hm
    rcases split_snoc hm with ⟨-, -, heq⟩ | ⟨post', rfl, hold⟩
    · obtain ⟨rfl, rfl⟩ := Mark.granted.inj heq
      exact Or.inr ⟨_, Function.update_self .., Int.le_refl _⟩
    · rcases h.noted k' t past post' hold with hf | ⟨x, hx, hle⟩
      · exact Or.inl (List.mem_append_left _ hf)
      · refine Or.inr ?_
        by_cases hkk : k' = k
        · subst hkk
          have hpast := h.past k' t (by rw [hold]; simp)
          exact ⟨_, Function.update_self .., by omega⟩
        · exact ⟨x, by rw [Function.update_of_ne hkk, hx], hle⟩
  apart := by
    refine each_snoc.mpr ⟨h.apart, fun k' t past post hkk hold => ?_⟩
    rcases h.noted k' t past post hold with hf | ⟨x, hx, hle⟩
    · exact Or.inl hf
    · exact Or.inr (Int.le_trans hle (ho k' x hkk hx))

theorem Books.acquire (h : Books ttl now l ends marks) (ha : (acquire k now ttl l).2 = true) :
    Books ttl now (Lease.acquire k now ttl l).1 (Function.update ends k (some (now + ttl)))
      (marks ++ [.granted k now]) :=
  have hs := h.sole.acquire ha
  h.grant hs.1 fun k' x _ hk' => hs.2 k' x hk'

theorem Books.renew (h : Books ttl now l ends marks) (ha : (renew k now ttl l).2 = true) :
    Books ttl now (Lease.renew k now ttl l).1 (Function.update ends k (some (now + ttl)))
      (marks ++ [.granted k now]) :=
  have hs := h.sole.renew ha
  h.grant hs.1 hs.2

theorem Books.release (h : Books ttl now l ends marks) :
    Books ttl now (Lease.release k now l).1 (Function.update ends k none) (marks ++ [.freed k]) where
  sole := h.sole.release
  past := fun k' t hm => h.past k' t (by simpa using hm)
  noted := by
    intro k' t past post hm
    rcases split_snoc hm with ⟨-, -, heq⟩ | ⟨post', rfl, hold⟩
    · cases heq
    · by_cases hkk : k' = k
      · subst hkk
        exact Or.inl (by simp)
      · rcases h.noted k' t past post' hold with hf | ⟨x, hx, hle⟩
        · exact Or.inl (List.mem_append_left _ hf)
        · exact Or.inr ⟨x, by rw [Function.update_of_ne hkk, hx], hle⟩
  apart := each_snoc.mpr ⟨h.apart, trivial⟩

theorem renew_failed (h : (renew k now ttl l).2 = false) : (renew k now ttl l).1 = l := by
  unfold renew at h ⊢
  split at h
  · exact Bool.noConfusion h
  · rename_i hmine
    rw [if_neg hmine]

theorem release_failed (h : (release k now l).2 = false) : (release k now l).1 = l := by
  unfold release at h ⊢
  split at h
  · exact Bool.noConfusion h
  · rename_i hmine
    rw [if_neg hmine]

end Lease

end Lib

import Mathlib.Logic.Function.Basic
import Madoka.MatchServer.Kit

namespace MatchServer

open Function

-- What a loadout is for: which entry and which weapon each slot holds, which item each unique
-- names, and which unique is in hand.
@[ext]
structure Rack where
  worn : Nat → Option Equipment
  weapon : Nat → Option CsWeapon
  goods : Nat → Option InvItem
  hand : Nat

def World.Arms (w : World) (data : Nat) : Prop :=
  weaponClass data ≠ none ∨ ∃ settings id item, w.shopItemByID settings id = some item ∧
    item.itemID = data ∧ (placeItem item).isWeapon = true

namespace Rack

def empty : Rack := ⟨fun _ => none, fun _ => none, fun _ => none, 0⟩

def set (r : Rack) (slot : Nat) (e : Option Equipment) (wp : Option CsWeapon) : Rack :=
  { r with worn := update r.worn slot e, weapon := update r.weapon slot wp }

def clear (r : Rack) (slot : Nat) : Rack := r.set slot none none

def track (r : Rack) (it : InvItem) : Rack := { r with goods := update r.goods it.unique (some it) }

def untrack (r : Rack) (unique : Nat) : Rack := { r with goods := update r.goods unique none }

def hold (r : Rack) (unique : Nat) : Rack := { r with hand := unique }

def letGo (r : Rack) (unique : Nat) : Rack :=
  r.hold (if r.hand = unique then 0 else r.hand)

-- The three records of a loadout say the same.
structure Ordered (w : World) (r : Rack) : Prop where
  slots : ∀ slot e, r.worn slot = some e → e.slot = slot
  tracked : ∀ slot e, r.worn slot = some e → e.unique ≠ 0 →
    ∃ it, r.goods e.unique = some it ∧ it.data = e.data
  bare : ∀ slot e, r.worn slot = some e → e.unique = 0 → e.data = 0
  armed : ∀ slot wp, r.weapon slot = some wp →
    r.worn slot = some ⟨slot, wp.data, wp.unique⟩ ∧ wp.slot = slot ∧ wp.unique ≠ 0 ∧ w.Arms wp.data
  drawn : ∀ slot e, r.worn slot = some e → e.unique ≠ 0 → w.Arms e.data → r.weapon slot ≠ none
  apart : ∀ slot slot' e e', r.worn slot = some e → r.worn slot' = some e' → e.unique ≠ 0 →
    e'.unique = e.unique → slot' = slot
  own : ∀ u it, r.goods u = some it → it.unique = u ∧ u ≠ 0
  hand : r.hand ≠ 0 → r.goods r.hand ≠ none

structure Fits (w : World) (r : Rack) (slot : Nat) (e : Equipment) (wp : Option CsWeapon) : Prop where
  named : e.slot = slot
  tracked : e.unique ≠ 0 → ∃ it, r.goods e.unique = some it ∧ it.data = e.data
  bare : e.unique = 0 → e.data = 0
  armed : ∀ x ∈ wp, e = ⟨slot, x.data, x.unique⟩ ∧ x.slot = slot ∧ x.unique ≠ 0 ∧ w.Arms x.data
  drawn : e.unique ≠ 0 → w.Arms e.data → wp ≠ none
  apart : e.unique ≠ 0 → ∀ slot' e', r.worn slot' = some e' → e'.unique = e.unique → slot' = slot

variable {w : World} {r : Rack} {slot unique : Nat} {e : Equipment} {wp : Option CsWeapon}
  {it : InvItem}

theorem worn_set {e : Option Equipment} {s : Nat} :
    (r.set slot e wp).worn s = if s = slot then e else r.worn s := update_apply r.worn slot e s

theorem weapon_set {e : Option Equipment} {s : Nat} :
    (r.set slot e wp).weapon s = if s = slot then wp else r.weapon s := update_apply r.weapon slot wp s

theorem goods_track {u : Nat} : (r.track it).goods u = if u = it.unique then some it else r.goods u :=
  update_apply r.goods it.unique (some it) u

theorem goods_untrack {u : Nat} : (r.untrack unique).goods u = if u = unique then none else r.goods u :=
  update_apply r.goods unique none u

namespace Ordered

theorem empty : Ordered w Rack.empty :=
  ⟨nofun, nofun, nofun, nofun, nofun, nofun, nofun, fun h => absurd rfl h⟩

theorem of_eq {r' : Rack} (h : r.Ordered w) (heq : r' = r) : r'.Ordered w := heq ▸ h

theorem set (h : r.Ordered w) (hf : r.Fits w slot e wp) : (r.set slot (some e) wp).Ordered w := by
  -- Every clause is the old one off the slot, and the one of what fits on it.
  have hworn : ∀ {s x}, (r.set slot (some e) wp).worn s = some x →
      (s = slot ∧ x = e) ∨ (s ≠ slot ∧ r.worn s = some x) := by
    intro s x hx
    rw [worn_set] at hx
    split at hx
    · exact Or.inl ⟨by assumption, (Option.some.inj hx).symm⟩
    · exact Or.inr ⟨by assumption, hx⟩
  refine ⟨fun s x hx => ?_, fun s x hx hu => ?_, fun s x hx hu => ?_, fun s x hx => ?_,
    fun s x hx hu ha => ?_, fun s s' x x' hx hx' hu heq => ?_, h.own, h.hand⟩
  · rcases hworn hx with ⟨rfl, rfl⟩ | ⟨-, hx⟩
    · exact hf.named
    · exact h.slots s x hx
  · rcases hworn hx with ⟨rfl, rfl⟩ | ⟨-, hx⟩
    · exact hf.tracked hu
    · exact h.tracked s x hx hu
  · rcases hworn hx with ⟨rfl, rfl⟩ | ⟨-, hx⟩
    · exact hf.bare hu
    · exact h.bare s x hx hu
  · rw [weapon_set] at hx
    rw [worn_set]
    split at hx
    · rename_i hs
      obtain ⟨h1, h2, h3, h4⟩ := hf.armed x hx
      rw [if_pos hs, hs]
      exact ⟨congrArg some h1, h2, h3, h4⟩
    · rename_i hs
      rw [if_neg hs]
      exact h.armed s x hx
  · rw [weapon_set]
    rcases hworn hx with ⟨rfl, rfl⟩ | ⟨hne, hx⟩
    · rw [if_pos rfl]
      exact hf.drawn hu ha
    · rw [if_neg hne]
      exact h.drawn s x hx hu ha
  · rcases hworn hx with ⟨hs, he⟩ | ⟨-, hy⟩ <;> rcases hworn hx' with ⟨hs', he'⟩ | ⟨-, hy'⟩
    · exact hs'.trans hs.symm
    · rw [hs]
      exact hf.apart (he ▸ hu) s' x' hy' (he ▸ heq)
    · rw [hs']
      exact (hf.apart (he' ▸ heq ▸ hu) s x hy (he' ▸ heq.symm)).symm
    · exact h.apart s s' x x' hy hy' hu heq

theorem clear (h : r.Ordered w) : (r.clear slot).Ordered w := by
  have hworn : ∀ {s x}, (r.clear slot).worn s = some x → s ≠ slot ∧ r.worn s = some x := by
    intro s x hx
    rw [Rack.clear, worn_set] at hx
    split at hx
    · cases hx
    · exact ⟨by assumption, hx⟩
  have hoff : ∀ {s}, s ≠ slot → (r.clear slot).weapon s = r.weapon s ∧
      (r.clear slot).worn s = r.worn s := by
    intro s hs
    rw [Rack.clear, weapon_set, worn_set, if_neg hs, if_neg hs]
    exact ⟨rfl, rfl⟩
  refine ⟨fun s x hx => h.slots s x (hworn hx).2, fun s x hx => h.tracked s x (hworn hx).2,
    fun s x hx => h.bare s x (hworn hx).2, fun s x hx => ?_, fun s x hx hu ha => ?_,
    fun s s' x x' hx hx' => h.apart s s' x x' (hworn hx).2 (hworn hx').2, h.own, h.hand⟩
  · rw [Rack.clear, weapon_set] at hx
    split at hx
    · cases hx
    · rename_i hs
      rw [(hoff hs).2]
      exact h.armed s x hx
  · rw [(hoff (hworn hx).1).1]
    exact h.drawn s x (hworn hx).2 hu ha

theorem track (h : r.Ordered w) (hu : it.unique ≠ 0)
    (hsame : ∀ x ∈ r.goods it.unique, x.data = it.data) : (r.track it).Ordered w := by
  refine ⟨h.slots, fun s x hx hne => ?_, h.bare, h.armed, h.drawn, h.apart, fun u x hx => ?_,
    fun hne => ?_⟩
  · obtain ⟨y, hy, hd⟩ := h.tracked s x hx hne
    rw [goods_track]
    split
    · rename_i heq
      exact ⟨it, rfl, (hsame y (heq ▸ hy)).symm.trans hd⟩
    · exact ⟨y, hy, hd⟩
  · rw [goods_track] at hx
    split at hx
    · rename_i heq
      cases hx
      exact ⟨heq.symm, heq ▸ hu⟩
    · exact h.own u x hx
  · rw [goods_track]
    split
    · exact Option.some_ne_none it
    · exact h.hand hne

theorem untrack (h : r.Ordered w) (hworn : ∀ s x, r.worn s = some x → x.unique ≠ 0 → x.unique ≠ unique)
    (hhand : r.hand ≠ 0 → r.hand ≠ unique) : (r.untrack unique).Ordered w := by
  refine ⟨h.slots, fun s x hx hne => ?_, h.bare, h.armed, h.drawn, h.apart, fun u x hx => ?_,
    fun hne => ?_⟩
  · rw [goods_untrack, if_neg (hworn s x hx hne)]
    exact h.tracked s x hx hne
  · rw [goods_untrack] at hx
    split at hx
    · cases hx
    · exact h.own u x hx
  · rw [goods_untrack]
    split
    · rename_i heq
      exact absurd heq (hhand hne)
    · exact h.hand hne

theorem hold (h : r.Ordered w) (hu : unique ≠ 0 → r.goods unique ≠ none) : (r.hold unique).Ordered w :=
  ⟨h.slots, h.tracked, h.bare, h.armed, h.drawn, h.apart, h.own, hu⟩

theorem letGo (h : r.Ordered w) : (r.letGo unique).Ordered w := by
  refine h.hold fun hne => ?_
  split at hne
  · exact absurd rfl hne
  · rename_i hkeep
    rw [if_neg hkeep]
    exact h.hand hne

theorem moved {r₀ : Rack} {a : Nat} (h : r₀.Ordered w) (he : r₀.worn a = some e)
    (hgoods : r.goods = r₀.goods) (hapart : e.unique ≠ 0 →
      ∀ s y, r.worn s = some y → y.unique = e.unique → s = slot) :
    r.Fits w slot ⟨slot, e.data, e.unique⟩ ((r₀.weapon a).map fun wp => { wp with slot := slot }) := by
  refine ⟨rfl, fun hne => hgoods ▸ h.tracked a e he hne, h.bare a e he, fun y hy => ?_,
    fun hne ha => ?_, hapart⟩
  · obtain ⟨wp, hwp, rfl⟩ := Option.map_eq_some_iff.mp hy
    obtain ⟨hworn, -, hne, ha⟩ := h.armed a wp hwp
    obtain rfl := Option.some.inj (he.symm.trans hworn)
    exact ⟨rfl, rfl, hne, ha⟩
  · rw [ne_eq, Option.map_eq_none_iff]
    exact h.drawn a e he hne ha

theorem remove (h : r.Ordered w)
    (hslot : ∀ s x, r.worn s = some x → x.unique ≠ 0 → x.unique = unique → s = slot) :
    (((r.clear slot).letGo unique).untrack unique).Ordered w := by
  refine h.clear.letGo.untrack (fun s x hx hne heq => ?_) fun hne heq => ?_
  · change (r.clear slot).worn s = some x at hx
    rw [Rack.clear, worn_set] at hx
    split at hx
    · cases hx
    · rename_i hs
      exact hs (hslot s x hx hne heq)
  · change (if (r.clear slot).hand = unique then 0 else (r.clear slot).hand) ≠ 0 at hne
    change (if (r.clear slot).hand = unique then 0 else (r.clear slot).hand) = unique at heq
    split at hne
    · exact hne rfl
    · rename_i hkeep
      rw [if_neg hkeep] at heq
      exact hkeep heq

end Ordered

end Rack

end MatchServer

import Mathlib.Data.List.Induction
import Madoka.Settings.Handoff

namespace Settings

open Lib

-- The last step that the pairs give an event.
def lastStep (pairs : List (Nat × Nat)) (evId : Nat) : Option Nat :=
  ((pairs.filter (·.1 = evId)).getLast?).map Prod.snd

variable {t : Sheets} {buf : List UInt8} {o : List (String × Int)} {key key' name : String} {v : Int}
  {evId : Nat} {pairs : List (Nat × Nat)}

-- The coins the host set an event to.
def eventValue (t : Sheets) (pairs : List (Nat × Nat)) (evId : Nat) : Option Int :=
  (lastStep pairs evId).bind fun step => (t.eco evId).map fun row => row.min + step * row.step

theorem lookup_replaced_ne (h : key' ≠ key) :
    (o.map fun f => if f.1 = key then (key, v) else f).lookup key' = o.lookup key' := by
  have hb : (key' == key) = false := by simpa using h
  induction o with
  | nil => rfl
  | cons f o ih =>
    rw [List.map_cons, List.lookup_cons, List.lookup_cons, ih]
    by_cases hf : f.1 = key
    · rw [if_pos hf, hf, hb]
    · rw [if_neg hf]

theorem lookup_replaced_self (h : (o.lookup key).isSome) :
    (o.map fun f => if f.1 = key then (key, v) else f).lookup key = some v := by
  induction o with
  | nil => cases h
  | cons f o ih =>
    rw [List.map_cons, List.lookup_cons]
    by_cases hf : f.1 = key
    · rw [if_pos hf]
      simp
    · have hb : (key == f.1) = false := by simpa using fun e => hf e.symm
      rw [List.lookup_cons, hb] at h
      rw [if_neg hf, hb]
      exact ih h

theorem lookup_setKey : (setKey o key v).lookup key' = if key' = key then some v else o.lookup key' := by
  unfold setKey
  split
  · rename_i hin
    split
    · rename_i hk
      rw [hk, lookup_replaced_self hin]
    · rename_i hk
      exact lookup_replaced_ne hk
  · rename_i hout
    rw [List.lookup_append]
    split
    · rename_i hk
      rw [hk, Option.not_isSome_iff_eq_none.mp hout, List.lookup_cons_self]
      rfl
    · rename_i hk
      have hb : (key' == key) = false := by simpa using hk
      rw [List.lookup_cons, hb, List.lookup_nil, Option.or_none]

theorem event_key_inj {id id' : Nat} (h : ECO_EVENT_KEY.lookup id = some name)
    (h' : ECO_EVENT_KEY.lookup id' = some name) : id' = id := by
  have hnodup : (ECO_EVENT_KEY.map Prod.snd).Nodup := by decide
  have hmem := mem_of_lookup h
  have hmem' := mem_of_lookup h'
  exact congrArg Prod.fst (List.inj_on_of_nodup_map hnodup hmem' hmem rfl)

theorem lastStep_snoc (p : Nat × Nat) :
    lastStep (pairs ++ [p]) evId = if p.1 = evId then some p.2 else lastStep pairs evId := by
  unfold lastStep
  rw [List.filter_append]
  by_cases hp : p.1 = evId
  · simp [hp]
  · simp [hp]

theorem lookup_events (hname : ECO_EVENT_KEY.lookup evId = some name) (pairs : List (Nat × Nat)) :
    (pairs.foldl (fun acc p => addEvent t acc p.1 p.2) []).lookup name = eventValue t pairs evId := by
  induction pairs using List.reverseRecOn with
  | nil => rfl
  | append_singleton pairs p ih =>
    rw [List.foldl_append, List.foldl_cons, List.foldl_nil, addEvent, eventValue, lastStep_snoc]
    by_cases hp : p.1 = evId
    · rw [if_pos hp, ecoEvent, hp, hname, Option.bind_some]
      cases hrow : t.eco evId with
      | none =>
        rw [eventValue, hrow] at ih
        simpa using ih
      | some row => simp [lookup_setKey]
    · rw [if_neg hp]
      cases hevent : ecoEvent t p.1 p.2 with
      | none => exact ih
      | some e =>
        have hother : name ≠ e.1 := by
          rintro rfl
          unfold ecoEvent at hevent
          split at hevent
          · rename_i hkey hrow
            obtain rfl := Option.some.inj hevent
            exact hp (event_key_inj hname hkey)
          · cases hevent
        rw [lookup_setKey, if_neg hother]
        exact ih

end Settings

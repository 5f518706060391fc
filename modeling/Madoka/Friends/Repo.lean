import Mathlib.Data.List.Nodup

namespace Friends

-- The tables friendships (a, b) and friend_requests (target_id, from_id). An INSERT that breaks a
-- foreign key throws and leaves them as they are.
structure Tables where
  friendships : List (Nat × Nat)
  friendRequests : List (Nat × Nat)
  deriving DecidableEq, Repr

def noTables : Tables := ⟨[], []⟩

instance mem_rows (row : Nat × Nat) (l : List (Nat × Nat)) : Decidable (row ∈ l) := inferInstance

def insertNew (l : List (Nat × Nat)) (row : Nat × Nat) : List (Nat × Nat) :=
  if row ∈ l then l else l ++ [row]

variable (known : Nat → Bool) (t : Tables)

def addRequest (target fro : Nat) : Option Tables :=
  if target = 0 ∨ fro = 0 ∨ target = fro then some t
  else if known target && known fro then
    some { t with friendRequests := insertNew t.friendRequests (target, fro) }
  else none

def removeRequest (target fro : Nat) : Tables :=
  if target = 0 ∨ fro = 0 then t
  else { t with friendRequests := t.friendRequests.filter (· ≠ (target, fro)) }

def between (a b : Nat) (row : Nat × Nat) : Bool :=
  row == (a, b) || row == (b, a)

def addFriendship (a b : Nat) : Option Tables :=
  if a = 0 ∨ b = 0 ∨ a = b then some t
  else if known a && known b then
    some
      { friendships := insertNew (insertNew t.friendships (a, b)) (b, a)
        friendRequests := t.friendRequests.filter fun row => !between a b row }
  else none

def removeFriendship (a b : Nat) : Tables :=
  if a = 0 ∨ b = 0 then t
  else { t with friendships := t.friendships.filter fun row => !between a b row }

def getFriendIds (uid : Nat) : List Nat :=
  if uid = 0 then [] else (t.friendships.filter (·.1 = uid)).map Prod.snd

def getRequestIds (uid : Nat) : List Nat :=
  if uid = 0 then [] else (t.friendRequests.filter (·.1 = uid)).map Prod.snd

variable {known t} {a b target fro uid n : Nat} {l : List (Nat × Nat)} {row : Nat × Nat} {t' : Tables}

@[simp] theorem mem_insertNew {x : Nat × Nat} : x ∈ insertNew l row ↔ x ∈ l ∨ x = row := by
  unfold insertNew
  split
  · constructor
    · exact Or.inl
    · rintro (h | rfl)
      · exact h
      · assumption
  · simp

theorem nodup_insertNew (h : l.Nodup) : (insertNew l row).Nodup := by
  unfold insertNew
  split
  · exact h
  · rename_i hrow
    exact List.nodup_append.mpr ⟨h, List.nodup_singleton row, fun x hx y hy heq =>
      hrow (List.mem_singleton.mp hy ▸ heq ▸ hx)⟩

@[simp] theorem between_iff : between a b row = true ↔ row = (a, b) ∨ row = (b, a) := by
  simp [between]

@[simp] theorem mem_getFriendIds : n ∈ getFriendIds t uid ↔ uid ≠ 0 ∧ (uid, n) ∈ t.friendships := by
  unfold getFriendIds
  split
  · simp_all
  · simp_all

@[simp] theorem mem_getRequestIds :
    n ∈ getRequestIds t uid ↔ uid ≠ 0 ∧ (uid, n) ∈ t.friendRequests := by
  unfold getRequestIds
  split
  · simp_all
  · simp_all

theorem addRequest_cases (h : addRequest known t target fro = some t') :
    t' = t ∨ target ≠ fro ∧ target ≠ 0 ∧ fro ≠ 0 ∧ known target = true ∧ known fro = true ∧
      t' = { t with friendRequests := insertNew t.friendRequests (target, fro) } := by
  unfold addRequest at h
  split at h
  · exact Or.inl (Option.some.inj h).symm
  · rename_i hids
    split at h
    · rename_i hknown
      rw [Bool.and_eq_true] at hknown
      exact Or.inr ⟨fun e => hids (Or.inr (Or.inr e)), fun e => hids (Or.inl e),
        fun e => hids (Or.inr (Or.inl e)), hknown.1, hknown.2, (Option.some.inj h).symm⟩
    · cases h

theorem addFriendship_cases (h : addFriendship known t a b = some t') :
    t' = t ∨ a ≠ b ∧ a ≠ 0 ∧ b ≠ 0 ∧ known a = true ∧ known b = true ∧
      (∀ row, row ∈ t'.friendships ↔ row ∈ t.friendships ∨ row = (a, b) ∨ row = (b, a)) ∧
      (∀ row, row ∈ t'.friendRequests ↔ row ∈ t.friendRequests ∧ row ≠ (a, b) ∧ row ≠ (b, a)) := by
  unfold addFriendship at h
  split at h
  · exact Or.inl (Option.some.inj h).symm
  · rename_i hids
    split at h
    · rename_i hknown
      rw [Bool.and_eq_true] at hknown
      obtain rfl := Option.some.inj h
      refine Or.inr ⟨fun e => hids (Or.inr (Or.inr e)), fun e => hids (Or.inl e),
        fun e => hids (Or.inr (Or.inl e)), hknown.1, hknown.2, fun row => ?_, fun row => ?_⟩
      · rw [mem_insertNew, mem_insertNew, or_assoc]
      · simp [between]
    · cases h

theorem mem_removeFriendship :
    row ∈ (removeFriendship t a b).friendships ↔
      row ∈ t.friendships ∧ (a = 0 ∨ b = 0 ∨ row ≠ (a, b) ∧ row ≠ (b, a)) := by
  unfold removeFriendship
  split
  · rename_i h
    constructor
    · intro hrow
      exact ⟨hrow, h.elim Or.inl fun e => Or.inr (Or.inl e)⟩
    · exact And.left
  · simp_all [between]

theorem removeFriendship_friendRequests :
    (removeFriendship t a b).friendRequests = t.friendRequests := by
  unfold removeFriendship
  split <;> rfl

theorem mem_removeRequest :
    row ∈ (removeRequest t target fro).friendRequests ↔
      row ∈ t.friendRequests ∧ (target = 0 ∨ fro = 0 ∨ row ≠ (target, fro)) := by
  unfold removeRequest
  split
  · rename_i h
    constructor
    · intro hrow
      exact ⟨hrow, h.elim Or.inl fun e => Or.inr (Or.inl e)⟩
    · exact And.left
  · simp_all

theorem removeRequest_friendships :
    (removeRequest t target fro).friendships = t.friendships := by
  unfold removeRequest
  split <;> rfl

end Friends

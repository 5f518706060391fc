import Madoka.Repo.Parity

namespace Repo

open Account

variable {ω : Type} {s : Store ω} {uid n m self other target fro x : Nat} {d : Document ω}
  {r : Row (Body ω)} {now : Int} {l : List Nat}

open Sqlite

@[simp] theorem mem_pushNew : m ∈ pushNew l n ↔ m ∈ l ∨ m = n := by
  unfold pushNew
  split
  · constructor
    · exact Or.inl
    · rintro (h | rfl)
      · exact h
      · assumption
  · simp

theorem nodup_pushNew (h : l.Nodup) : (pushNew l n).Nodup := by
  unfold pushNew
  split
  · exact h
  · rename_i hn
    exact List.nodup_append.mpr ⟨h, List.nodup_singleton n, fun y hy z hz heq =>
      hn (List.mem_singleton.mp hz ▸ heq ▸ hy)⟩

theorem blobFriends_update : blobFriends (s.update now d) x =
    if d.uid = some x ∧ s.known x = true then d.friends.getD [] else blobFriends s x := by
  unfold blobFriends Store.known
  rw [accounts_update]
  cases s.accounts x with
  | none => simp
  | some r =>
    by_cases hid : d.uid = some x
    · rw [if_pos hid, if_pos ⟨hid, rfl⟩]
      rfl
    · rw [if_neg hid, if_neg fun h => hid h.1]

theorem blobRequests_update : blobRequests (s.update now d) x =
    if d.uid = some x ∧ s.known x = true then d.requests.getD [] else blobRequests s x := by
  unfold blobRequests Store.known
  rw [accounts_update]
  cases s.accounts x with
  | none => simp
  | some r =>
    by_cases hid : d.uid = some x
    · rw [if_pos hid, if_pos ⟨hid, rfl⟩]
      rfl
    · rw [if_neg hid, if_neg fun h => hid h.1]

theorem blobFriends_carried (h : ∀ x, d.uid = some x → s.known x = true → d.friends.getD [] = blobFriends s x) :
    blobFriends (s.update now d) x = blobFriends s x := by
  rw [blobFriends_update]
  split
  · rename_i hx
    exact h x hx.1 hx.2
  · rfl

theorem blobRequests_carried
    (h : ∀ x, d.uid = some x → s.known x = true → d.requests.getD [] = blobRequests s x) :
    blobRequests (s.update now d) x = blobRequests s x := by
  rw [blobRequests_update]
  split
  · rename_i hx
    exact h x hx.1 hx.2
  · rfl

theorem blobFriends_row (h : s.accounts uid = some r) : blobFriends s uid = r.state.friends.getD [] := by
  rw [blobFriends, h]
  rfl

theorem blobRequests_row (h : s.accounts uid = some r) : blobRequests s uid = r.state.requests.getD [] := by
  rw [blobRequests, h]
  rfl

theorem blobFriends_none (h : s.accounts uid = none) : blobFriends s uid = [] := by
  rw [blobFriends, h]
  rfl

theorem blobRequests_none (h : s.accounts uid = none) : blobRequests s uid = [] := by
  rw [blobRequests, h]
  rfl

theorem blobFriends_created {others : ω} {req : LoginObj} (hs : s.Numbered) :
    blobFriends ((s.insert (placeholder req)).update now (freshPlayer others req s.nextId now)) x =
      blobFriends s x := by
  unfold blobFriends
  rw [accounts_created]
  split
  · rename_i hx
    rw [hx, hs.fresh]
    rfl
  · rfl

theorem blobRequests_created {others : ω} {req : LoginObj} (hs : s.Numbered) :
    blobRequests ((s.insert (placeholder req)).update now (freshPlayer others req s.nextId now)) x =
      blobRequests s x := by
  unfold blobRequests
  rw [accounts_created]
  split
  · rename_i hx
    rw [hx, hs.fresh]
    rfl
  · rfl

-- What a friend call does to the blobs: `f` to the friends and `g` to the requests of one account.
structure Edited (s s' : Store ω) (uid : Nat) (f g : List Nat → List Nat) : Prop where
  rows : ∀ p, SameRows s p → SameRows s' p
  known : ∀ x, s'.known x = s.known x
  friends : ∀ x, blobFriends s' x = if x = uid then f (blobFriends s x) else blobFriends s x
  requests : ∀ x, blobRequests s' x = if x = uid then g (blobRequests s x) else blobRequests s x

theorem edited_refl {f g : List Nat → List Nat} (hf : f (blobFriends s self) = blobFriends s self)
    (hg : g (blobRequests s self) = blobRequests s self) : Edited s s self f g where
  rows := fun _ h => h
  known := fun _ => rfl
  friends := fun x => by
    split
    · rename_i hx
      rw [hx, hf]
    · rfl
  requests := fun x => by
    split
    · rename_i hx
      rw [hx, hg]
    · rfl

theorem edited_update {f g : List Nat → List Nat} (hr : s.accounts self = some r)
    (hd : bare d = bare (rowToAccount self r)) (hf : d.friends.getD [] = f (blobFriends s self))
    (hg : d.requests.getD [] = g (blobRequests s self)) : Edited s (s.update now d) self f g where
  rows := fun _ h => h.edit hr hd
  known := fun _ => known_update
  friends := fun x => by
    have hid : d.uid = some self := uid_of_bare hd
    have hknown : s.known self = true := known_iff.mpr ⟨r, hr⟩
    rw [blobFriends_update, hid]
    by_cases hx : x = self
    · subst hx
      rw [if_pos ⟨rfl, hknown⟩, if_pos rfl, hf]
    · rw [if_neg fun h => hx (Option.some.inj h.1).symm, if_neg hx]
  requests := fun x => by
    have hid : d.uid = some self := uid_of_bare hd
    have hknown : s.known self = true := known_iff.mpr ⟨r, hr⟩
    rw [blobRequests_update, hid]
    by_cases hx : x = self
    · subst hx
      rw [if_pos ⟨rfl, hknown⟩, if_pos rfl, hg]
    · rw [if_neg fun h => hx (Option.some.inj h.1).symm, if_neg hx]

theorem edited_befriend (now : Int) (other : Nat) (hs : s.Numbered) (hknown : s.known self = true) :
    Edited s (befriend now s self other) self (pushNew · other) (List.filter (· ≠ other)) := by
  obtain ⟨r, hr⟩ := known_iff.mp hknown
  unfold befriend
  rw [getById_of_row hs hr]
  exact edited_update hr rfl (by rw [blobFriends_row hr]; rfl) (by rw [blobRequests_row hr]; rfl)

theorem edited_unfriend (now : Int) (self other : Nat) (hs : s.Numbered) :
    Edited s (unfriend now s self other) self (List.filter (· ≠ other)) id := by
  unfold unfriend
  cases hr : s.accounts self with
  | none =>
    rw [getById_of_none hr]
    exact edited_refl (by rw [blobFriends_none hr]; rfl) rfl
  | some r =>
    rw [getById_of_row hs hr]
    dsimp only
    cases hf : (rowToAccount self r).friends with
    | none =>
      have hf' : r.state.friends = none := hf
      exact edited_refl (by rw [blobFriends_row hr, hf']; rfl) rfl
    | some l =>
      have hf' : r.state.friends = some l := hf
      exact edited_update hr rfl (by rw [blobFriends_row hr, hf']; rfl) (by rw [blobRequests_row hr]; rfl)

theorem edited_addRequest (now : Int) (hs : s.Numbered) (hids : ¬ (target = 0 ∨ fro = 0 ∨ target = fro))
    (hknown : s.known target = true) :
    Edited s (Sqlite.addRequest now s target fro) target id (pushNew · fro) := by
  obtain ⟨r, hr⟩ := known_iff.mp hknown
  unfold Sqlite.addRequest
  rw [if_neg hids, getById_of_row hs hr]
  dsimp only
  split
  · rename_i hmem
    have hmem' : fro ∈ blobRequests s target := by
      rw [blobRequests_row hr]
      exact hmem
    exact edited_refl rfl (if_pos hmem')
  · exact edited_update hr rfl (by rw [blobFriends_row hr]; rfl) (by rw [blobRequests_row hr]; rfl)

theorem edited_removeRequest (now : Int) (target fro : Nat) (hs : s.Numbered) :
    Edited s (Sqlite.removeRequest now s target fro) target id (List.filter (· ≠ fro)) := by
  unfold Sqlite.removeRequest
  cases hr : s.accounts target with
  | none =>
    rw [getById_of_none hr]
    exact edited_refl rfl (by rw [blobRequests_none hr]; rfl)
  | some r =>
    rw [getById_of_row hs hr]
    dsimp only
    cases hl : (rowToAccount target r).requests with
    | none =>
      have hl' : r.state.requests = none := hl
      exact edited_refl rfl (by rw [blobRequests_row hr, hl']; rfl)
    | some l =>
      have hl' : r.state.requests = some l := hl
      dsimp only
      split
      · rename_i hlen
        refine edited_refl rfl ?_
        rw [blobRequests_row hr, hl']
        exact List.filter_sublist.eq_of_length hlen
      · exact edited_update hr rfl (by rw [blobFriends_row hr]; rfl) (by rw [blobRequests_row hr, hl']; rfl)

end Repo

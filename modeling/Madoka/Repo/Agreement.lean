import Madoka.Repo.Lists

namespace Repo

open Account Friends

variable {ω : Type}

structure SameLists (s : Store ω) (t : Tables) : Prop where
  friends : ∀ uid n, n ∈ blobFriends s uid ↔ (uid, n) ∈ t.friendships
  requests : ∀ uid n, n ∈ blobRequests s uid ↔ (uid, n) ∈ t.friendRequests
  nodup : ∀ uid, (blobFriends s uid).Nodup ∧ (blobRequests s uid).Nodup
  nodupRows : t.friendships.Nodup ∧ t.friendRequests.Nodup
  symm : ∀ a b, (a, b) ∈ t.friendships → (b, a) ∈ t.friendships
  irrefl : ∀ a, (a, a) ∉ t.friendships
  named : ∀ a b, (a, b) ∈ t.friendRequests → a ≠ 0 ∧ b ≠ 0

section

variable {s s' p : Store ω} {t t' : Tables} {uid a b target fro : Nat} {now : Int} {known : Nat → Bool}

theorem SameLists.of_eq (h : SameLists s t) (hf : ∀ x, blobFriends s' x = blobFriends s x)
    (hr : ∀ x, blobRequests s' x = blobRequests s x) : SameLists s' t where
  friends := fun uid n => by rw [hf, h.friends]
  requests := fun uid n => by rw [hr, h.requests]
  nodup := fun uid => by
    rw [hf, hr]
    exact h.nodup uid
  nodupRows := h.nodupRows
  symm := h.symm
  irrefl := h.irrefl
  named := h.named

theorem nodup_ids {rows : List (Nat × Nat)} (h : rows.Nodup) (uid : Nat) :
    ((rows.filter (·.1 = uid)).map Prod.snd).Nodup := by
  refine List.Nodup.map_on (fun x hx y hy hxy => ?_) (h.filter _)
  have hx1 := of_decide_eq_true (List.mem_filter.mp hx).2
  have hy1 := of_decide_eq_true (List.mem_filter.mp hy).2
  exact Prod.ext (hx1.trans hy1.symm) hxy

theorem perm_friendIds (uid : Nat) (hs : s.Numbered) (h : SameLists s t) :
    (blobFriends s uid).Perm (getFriendIds t uid) := by
  refine (List.perm_ext_iff_of_nodup (h.nodup uid).1 ?_).mpr fun n => ?_
  · unfold getFriendIds
    split
    · exact List.nodup_nil
    · exact nodup_ids h.nodupRows.1 uid
  · rw [mem_getFriendIds, ← h.friends]
    refine (and_iff_right_of_imp fun hn hzero => ?_).symm
    cases hrow : s.accounts uid with
    | none => simp [blobFriends_none hrow] at hn
    | some row => exact hs.pos hrow hzero

theorem perm_requestIds (hs : s.Numbered) (h : SameLists s t) :
    (blobRequests s uid).Perm (getRequestIds t uid) := by
  refine (List.perm_ext_iff_of_nodup (h.nodup uid).2 ?_).mpr fun n => ?_
  · unfold getRequestIds
    split
    · exact List.nodup_nil
    · exact nodup_ids h.nodupRows.2 uid
  · rw [mem_getRequestIds, ← h.requests]
    refine (and_iff_right_of_imp fun hn hzero => ?_).symm
    cases hrow : s.accounts uid with
    | none => simp [blobRequests_none hrow] at hn
    | some row => exact hs.pos hrow hzero

theorem Edited.nodup {f g : List Nat → List Nat} (he : Edited s s' uid f g)
    (h : ∀ x, (blobFriends s x).Nodup ∧ (blobRequests s x).Nodup) (hf : ∀ l, l.Nodup → (f l).Nodup)
    (hg : ∀ l, l.Nodup → (g l).Nodup) (x : Nat) :
    (blobFriends s' x).Nodup ∧ (blobRequests s' x).Nodup := by
  rw [he.friends, he.requests]
  split
  · exact ⟨hf _ (h x).1, hg _ (h x).2⟩
  · exact h x

theorem nodup_dropped (n : Nat) (l : List Nat) (h : l.Nodup) : (l.filter (· ≠ n)).Nodup :=
  h.filter _

theorem nodup_pushed (n : Nat) (l : List Nat) (h : l.Nodup) : (Sqlite.pushNew l n).Nodup :=
  nodup_pushNew h

theorem mem_dropped {n m : Nat} {l : List Nat} : m ∈ l.filter (· ≠ n) ↔ m ∈ l ∧ m ≠ n := by
  simp

theorem sameLists_addRequest (h : SameLists s t) (htarget : target ≠ 0) (hfro : fro ≠ 0) (he : Edited s s' target id (Sqlite.pushNew · fro)) :
    SameLists s' { t with friendRequests := insertNew t.friendRequests (target, fro) } where
  friends := fun x n => by
    rw [he.friends]
    split
    · exact h.friends x n
    · exact h.friends x n
  requests := fun x n => by
    rw [he.requests, mem_insertNew, Prod.mk.injEq, ← h.requests]
    split
    · rename_i hx
      rw [mem_pushNew, and_iff_right hx]
    · rename_i hx
      rw [or_iff_left fun e => hx e.1]
  nodup := he.nodup h.nodup (fun _ hl => hl) (nodup_pushed fro)
  nodupRows := ⟨h.nodupRows.1, nodup_insertNew h.nodupRows.2⟩
  symm := h.symm
  irrefl := h.irrefl
  named := fun x n hrow => by
    rcases mem_insertNew.mp hrow with hrow | hrow
    · exact h.named x n hrow
    · cases hrow
      exact ⟨htarget, hfro⟩

theorem sameLists_removeRequest (h : SameLists s t) (he : Edited s s' target id (List.filter (· ≠ fro))) :
    SameLists s' (removeRequest t target fro) where
  friends := fun x n => by
    rw [he.friends, removeRequest_friendships]
    split
    · exact h.friends x n
    · exact h.friends x n
  requests := fun x n => by
    rw [he.requests, mem_removeRequest, ← h.requests]
    have hnamed := h.named x n
    rw [← h.requests] at hnamed
    split
    · rename_i hx
      rw [mem_dropped]
      refine and_congr_right fun hn => ?_
      obtain ⟨hx0, hn0⟩ := hnamed hn
      subst hx
      constructor
      · exact fun hne => Or.inr (Or.inr fun e => hne (Prod.mk.inj e).2)
      · rintro (hzero | hzero | hne) rfl
        · exact hx0 hzero
        · exact hn0 hzero
        · exact hne rfl
    · rename_i hx
      exact (and_iff_left (Or.inr (Or.inr fun e => hx (Prod.mk.inj e).1))).symm
  nodup := he.nodup h.nodup (fun _ hl => hl) (nodup_dropped fro)
  nodupRows := by
    rw [removeRequest_friendships]
    refine ⟨h.nodupRows.1, ?_⟩
    unfold removeRequest
    split
    · exact h.nodupRows.2
    · exact h.nodupRows.2.filter _
  symm := by
    rw [removeRequest_friendships]
    exact h.symm
  irrefl := by
    rw [removeRequest_friendships]
    exact h.irrefl
  named := fun x n hrow => h.named x n (mem_removeRequest.mp hrow).1

theorem sameLists_addFriendship {s₁ : Store ω} (h : SameLists s t) (hab : a ≠ b)
    (he₁ : Edited s s₁ a (Sqlite.pushNew · b) (List.filter (· ≠ b)))
    (he₂ : Edited s₁ s' b (Sqlite.pushNew · a) (List.filter (· ≠ a)))
    (hf : ∀ row, row ∈ t'.friendships ↔ row ∈ t.friendships ∨ row = (a, b) ∨ row = (b, a))
    (hr : ∀ row, row ∈ t'.friendRequests ↔ row ∈ t.friendRequests ∧ row ≠ (a, b) ∧ row ≠ (b, a))
    (hrows : t'.friendships.Nodup ∧ t'.friendRequests.Nodup) : SameLists s' t' where
  friends := fun x n => by
    rw [he₂.friends, he₁.friends, hf, ← h.friends, Prod.mk.injEq, Prod.mk.injEq]
    by_cases hb : x = b
    · have ha : x ≠ a := fun e => hab (e.symm.trans hb)
      simp [hb, hab.symm]
    · by_cases ha : x = a
      · simp [ha, hab]
      · simp [ha, hb]
  requests := fun x n => by
    rw [he₂.requests, he₁.requests, hr, ← h.requests]
    by_cases hb : x = b
    · simp [hb, hab.symm]
    · by_cases ha : x = a
      · simp [ha, hab]
      · simp [ha, hb]
  nodup := he₂.nodup (he₁.nodup h.nodup (nodup_pushed b) (nodup_dropped b)) (nodup_pushed a) (nodup_dropped a)
  nodupRows := hrows
  symm := fun x y => by
    rw [hf, hf]
    rintro (hxy | hxy | hxy)
    · exact Or.inl (h.symm x y hxy)
    · cases hxy
      exact Or.inr (Or.inr rfl)
    · cases hxy
      exact Or.inr (Or.inl rfl)
  irrefl := fun x => by
    rw [hf]
    rintro (hx | hx | hx)
    · exact h.irrefl x hx
    · cases hx
      exact hab rfl
    · cases hx
      exact hab rfl
  named := fun x n hrow => h.named x n ((hr _).mp hrow).1

theorem sameLists_removeFriendship {s₁ : Store ω} (h : SameLists s t) (ha : a ≠ 0) (hb : b ≠ 0)
    (he₁ : Edited s s₁ a (List.filter (· ≠ b)) id) (he₂ : Edited s₁ s' b (List.filter (· ≠ a)) id) :
    SameLists s' (removeFriendship t a b) where
  friends := fun x n => by
    rw [he₂.friends, he₁.friends, mem_removeFriendship, ← h.friends]
    simp only [Prod.mk.injEq, ne_eq, ha, hb, false_or]
    by_cases hb' : x = b
    · by_cases ha' : x = a
      · simp [← hb', ← ha']
      · simp [← hb', ha']
    · by_cases ha' : x = a
      · simp [← ha', hb']
      · simp [ha', hb']
  requests := fun x n => by
    rw [he₂.requests, he₁.requests, removeFriendship_friendRequests, ← h.requests]
    simp
  nodup := he₂.nodup (he₁.nodup h.nodup (nodup_dropped b) fun _ hl => hl) (nodup_dropped a) fun _ hl => hl
  nodupRows := by
    rw [removeFriendship_friendRequests]
    refine ⟨?_, h.nodupRows.2⟩
    unfold removeFriendship
    split
    · exact h.nodupRows.1
    · exact h.nodupRows.1.filter _
  symm := fun x y => by
    rw [mem_removeFriendship, mem_removeFriendship]
    rintro ⟨hxy, hno⟩
    refine ⟨h.symm x y hxy, hno.imp_right fun hno => hno.imp_right fun hno => ⟨fun e => ?_, fun e => ?_⟩⟩
    · cases e
      exact hno.2 rfl
    · cases e
      exact hno.1 rfl
  irrefl := fun x hx => h.irrefl x (mem_removeFriendship.mp hx).1
  named := fun x n hrow => h.named x n (by rwa [removeFriendship_friendRequests] at hrow)

end

-- A call, the clocks of the two processes that run it, and the row a SELECT without ORDER BY
-- returns first.
structure Turn (ω : Type) where
  call : Call ω
  sqliteNow : Int
  postgresNow : Int
  pick : Nat
  deriving DecidableEq

section

variable (others : ω)

def sqliteTurn (s : Store ω) (c : Turn ω) : Reply ω × Store ω :=
  Sqlite.handle others c.sqliteNow s c.call

def sqliteRun (s : Store ω) : List (Turn ω) → List (Reply ω) × Store ω
  | [] => ([], s)
  | c :: turns =>
    let (reply, s) := sqliteTurn others s c
    let (replies, s) := sqliteRun s turns
    (reply :: replies, s)

variable [DecidableEq ω] (takes : Call ω → Bool)

def postgresTurn (db : Postgres.Db ω) (c : Turn ω) : Reply ω × Postgres.Db ω :=
  Postgres.handle others takes c.postgresNow c.pick db c.call

def postgresRun (db : Postgres.Db ω) : List (Turn ω) → List (Reply ω) × Postgres.Db ω
  | [] => ([], db)
  | c :: turns =>
    let (reply, db) := postgresTurn others takes db c
    let (replies, db) := postgresRun db turns
    (reply :: replies, db)

end

def Pair (s : Store ω) (a b : Nat) : Prop :=
  (a = 0 ∨ b = 0 ∨ a = b) ∨ s.known a = true ∧ s.known b = true

-- The document carries the friend lists stored for its account.
def Carries (s : Store ω) (acc : Document ω) : Prop :=
  ∀ uid ∈ acc.uid, s.known uid = true →
    acc.friends.getD [] = blobFriends s uid ∧ acc.requests.getD [] = blobRequests s uid

def Fair (s : Store ω) : Call ω → Prop
  | .save acc => Carries s acc
  | .addRequest target fro => Pair s target fro
  | .addFriendship a b => Pair s a b
  | .getByIds ids => ids.Nodup
  | .getByToken token => (s.idsWhere fun row => row.token = some token).length ≤ 1
  | _ => True

-- Every call of the run is fair where it is made, and PostgreSQL takes its values.
def Admitted (others : ω) (takes : Call ω → Bool) : Store ω → List (Turn ω) → Prop
  | _, [] => True
  | s, c :: turns =>
    (takes c.call = true ∧ Fair s c.call) ∧ Admitted others takes (sqliteTurn others s c).2 turns

structure Parity (s : Store ω) (db : Postgres.Db ω) : Prop where
  rows : SameRows s db.store
  lists : SameLists s db.tables

section

variable [DecidableEq ω] {others : ω} {takes : Call ω → Bool} {s : Store ω} {db : Postgres.Db ω} {c : Turn ω}

omit [DecidableEq ω] in
theorem parity_start : Parity (noAccounts : Store ω) Postgres.noDb where
  rows := ⟨numbered_noAccounts, rfl, fun _ => .none⟩
  lists :=
    { friends := fun _ _ => iff_of_false List.not_mem_nil List.not_mem_nil
      requests := fun _ _ => iff_of_false List.not_mem_nil List.not_mem_nil
      nodup := fun _ => ⟨List.nodup_nil, List.nodup_nil⟩
      nodupRows := ⟨List.nodup_nil, List.nodup_nil⟩
      symm := fun _ _ h => absurd h List.not_mem_nil
      irrefl := fun _ => List.not_mem_nil
      named := fun _ _ h => absurd h List.not_mem_nil }

theorem parity_createFromLogin (h : Parity s db) {now now' : Int} (req : LoginObj) :
    Parity (s.createFromLogin Sqlite.rowToAccount others now req).2
      { db with store := (db.store.createFromLogin (Postgres.rowToAccount others) others now' req).2 } where
  rows := (h.rows.createFromLogin req).1
  lists := by
    have hlists : ∀ x, blobFriends (s.createFromLogin Sqlite.rowToAccount others now req).2 x = blobFriends s x ∧
        blobRequests (s.createFromLogin Sqlite.rowToAccount others now req).2 x = blobRequests s x := by
      intro x
      unfold Store.createFromLogin
      cases hfound : s.getByOpenId Sqlite.rowToAccount (deriveOpenId req) with
      | some acc =>
        obtain ⟨uid, row, hrow, rfl⟩ := getByOpenId_eq_some hfound
        refine ⟨blobFriends_carried fun y hy _ => ?_, blobRequests_carried fun y hy _ => ?_⟩
        · cases hy
          rw [blobFriends_row hrow]
          rfl
        · cases hy
          rw [blobRequests_row hrow]
          rfl
      | none => exact ⟨blobFriends_created h.rows.numbered, blobRequests_created h.rows.numbered⟩
    exact h.lists.of_eq (fun x => (hlists x).1) fun x => (hlists x).2

omit [DecidableEq ω] in
theorem parity_save (h : Parity s db) {acc : Document ω} {now now' : Int} (hfair : Carries s acc) :
    Parity (s.update now acc) { db with store := db.store.update now' acc } where
  rows := h.rows.update rfl
  lists := h.lists.of_eq (fun _ => blobFriends_carried fun y hy hknown => (hfair y hy hknown).1)
    fun _ => blobRequests_carried fun y hy hknown => (hfair y hy hknown).2

omit [DecidableEq ω] in
theorem parity_addRequest (now : Int) (h : Parity s db) {target fro : Nat} (hp : Pair s target fro) :
    ∃ t, addRequest db.store.known db.tables target fro = some t ∧
      Parity (Sqlite.addRequest now s target fro) { db with tables := t } := by
  by_cases hids : target = 0 ∨ fro = 0 ∨ target = fro
  · refine ⟨db.tables, if_pos hids, ?_⟩
    rw [Sqlite.addRequest, if_pos hids]
    exact h
  · obtain ⟨hknown, hknown'⟩ := hp.resolve_left hids
    have he := edited_addRequest now h.rows.numbered hids hknown
    have hstore : (db.store.known target && db.store.known fro) = true := by
      rw [← h.rows.known, ← h.rows.known, hknown, hknown']
      rfl
    refine ⟨_, (if_neg hids).trans (if_pos hstore), he.rows _ h.rows, ?_⟩
    exact sameLists_addRequest h.lists (fun e => hids (Or.inl e)) (fun e => hids (Or.inr (Or.inl e))) he

omit [DecidableEq ω] in
theorem parity_addFriendship (now : Int) (h : Parity s db) {a b : Nat} (hp : Pair s a b) :
    ∃ t, addFriendship db.store.known db.tables a b = some t ∧
      Parity (Sqlite.addFriendship now s a b) { db with tables := t } := by
  by_cases hids : a = 0 ∨ b = 0 ∨ a = b
  · refine ⟨db.tables, if_pos hids, ?_⟩
    rw [Sqlite.addFriendship, if_pos hids]
    exact h
  · obtain ⟨hknown, hknown'⟩ := hp.resolve_left hids
    have he₁ := edited_befriend now b h.rows.numbered hknown
    have hrows := he₁.rows _ h.rows
    have he₂ := edited_befriend now a hrows.numbered ((he₁.known b).trans hknown')
    have hstore : (db.store.known a && db.store.known b) = true := by
      rw [← h.rows.known, ← h.rows.known, hknown, hknown']
      rfl
    refine ⟨_, (if_neg hids).trans (if_pos hstore), ?_⟩
    rw [Sqlite.addFriendship, if_neg hids]
    refine ⟨he₂.rows _ hrows, sameLists_addFriendship h.lists (fun e => hids (Or.inr (Or.inr e))) he₁ he₂
      (fun row => ?_) (fun row => ?_) ⟨nodup_insertNew (nodup_insertNew h.lists.nodupRows.1), ?_⟩⟩
    · rw [mem_insertNew, mem_insertNew, or_assoc]
    · simp [between]
    · exact h.lists.nodupRows.2.filter _

omit [DecidableEq ω] in
theorem parity_removeFriendship (h : Parity s db) {now : Int} {a b : Nat} :
    Parity (Sqlite.removeFriendship now s a b) { db with tables := removeFriendship db.tables a b } := by
  unfold Sqlite.removeFriendship
  split
  · rename_i hids
    rw [removeFriendship, if_pos hids]
    exact h
  · rename_i hids
    have he₁ := edited_unfriend now a b h.rows.numbered
    have hrows := he₁.rows _ h.rows
    have he₂ := edited_unfriend now b a hrows.numbered
    exact ⟨he₂.rows _ hrows, sameLists_removeFriendship h.lists (fun e => hids (Or.inl e))
      (fun e => hids (Or.inr e)) he₁ he₂⟩

theorem filterMap_where {α β : Type} {f : α → Option β} {p : α → Bool} (l : List α)
    (h : ∀ x, p x = false → f x = none) : (l.filter p).filterMap f = l.filterMap f := by
  rw [List.filterMap_filter]
  refine List.filterMap_congr fun x _ => ?_
  split
  · rfl
  · rename_i hx
    exact (h x (Bool.not_eq_true _ ▸ hx)).symm

theorem perm_getByIds (h : SameRows s db.store) {ids : List Nat} (hids : ids.Nodup) :
    ((ids.filterMap (s.getById Sqlite.rowToAccount)).map bare).Perm
      (((db.store.ids.filter (· ∈ ids)).filterMap (db.store.getById (Postgres.rowToAccount others))).map
        bare) := by
  have hsame : (fun uid => (s.getById Sqlite.rowToAccount uid).map bare) =
      fun uid => (db.store.getById (Postgres.rowToAccount others) uid).map bare :=
    funext fun uid => h.getById uid
  have hnone : ∀ uid, s.known uid = false → (s.getById Sqlite.rowToAccount uid).map bare = none := by
    intro uid huid
    rw [getById_of_none (Option.not_isSome_iff_eq_none.mp (by simpa [Store.known] using huid))]
    rfl
  rw [List.map_filterMap, List.map_filterMap, ← hsame, ← filterMap_where ids hnone,
    ← filterMap_where (db.store.ids.filter _) hnone]
  refine List.Perm.filterMap _ ((List.perm_ext_iff_of_nodup (hids.filter _) ?_).mpr fun uid => ?_)
  · exact (List.Nodup.filter _ List.nodup_range').filter _
  · simp only [List.mem_filter, decide_eq_true_eq, Store.ids, List.mem_range'_1]
    constructor
    · rintro ⟨hmem, hknown⟩
      have hgiven := h.numbered'.given uid ((h.known uid).symm.trans hknown)
      exact ⟨⟨⟨hgiven.1, by omega⟩, hmem⟩, hknown⟩
    · rintro ⟨⟨-, hmem⟩, hknown⟩
      exact ⟨hmem, hknown⟩

theorem parity_turn (h : Parity s db) (htakes : takes c.call = true) (hfair : Fair s c.call) :
    (sqliteTurn others s c).1.Agrees (postgresTurn others takes db c).1 ∧
      Parity (sqliteTurn others s c).2 (postgresTurn others takes db c).2 := by
  have hs := h.rows.numbered
  have htakes' : ¬ takes c.call = false := by simp [htakes]
  obtain ⟨call, now, now', pick⟩ := c
  unfold sqliteTurn postgresTurn Postgres.handle
  dsimp only at htakes' hfair ⊢
  rw [if_neg htakes']
  cases call with
  | createFromLogin req =>
    exact ⟨congrArg some (h.rows.createFromLogin req).2, parity_createFromLogin h req⟩
  | getById uid => exact ⟨h.rows.getById uid, h⟩
  | getByOpenId openId => exact ⟨h.rows.getByOpenId _ openId, h⟩
  | getByToken token => exact ⟨h.rows.getByToken pick token hfair, h⟩
  | getByIds ids =>
    exact ⟨perm_getByIds h.rows hfair, h⟩
  | save acc =>
    dsimp only [Sqlite.handle]
    split
    · exact ⟨trivial, h⟩
    · exact ⟨rfl, parity_save h hfair⟩
  | addRequest target fro =>
    obtain ⟨t, ht, hnext⟩ := parity_addRequest now h hfair
    dsimp only
    rw [ht]
    exact ⟨trivial, hnext⟩
  | removeRequest target fro =>
    have he := edited_removeRequest now target fro hs
    exact ⟨trivial, he.rows _ h.rows, sameLists_removeRequest h.lists he⟩
  | addFriendship a b =>
    obtain ⟨t, ht, hnext⟩ := parity_addFriendship now h hfair
    dsimp only
    rw [ht]
    exact ⟨trivial, hnext⟩
  | removeFriendship a b => exact ⟨trivial, parity_removeFriendship h⟩
  | getFriendIds uid =>
    refine ⟨?_, h⟩
    dsimp only [Sqlite.handle, Reply.Agrees]
    rw [sqlite_getFriendIds hs]
    exact perm_friendIds _ hs h.lists
  | getRequestIds uid =>
    refine ⟨?_, h⟩
    dsimp only [Sqlite.handle, Reply.Agrees]
    rw [sqlite_getRequestIds hs]
    exact perm_requestIds hs h.lists

theorem parity_run (turns : List (Turn ω)) (h : Parity s db) (hadm : Admitted others takes s turns) :
    List.Forall₂ Reply.Agrees (sqliteRun others s turns).1 (postgresRun others takes db turns).1 ∧
      Parity (sqliteRun others s turns).2 (postgresRun others takes db turns).2 := by
  induction turns generalizing s db with
  | nil => exact ⟨.nil, h⟩
  | cons c turns ih =>
    obtain ⟨⟨htakes, hfair⟩, hrest⟩ := hadm
    obtain ⟨hreply, hnext⟩ := @parity_turn ω _ others takes s db c h htakes hfair
    obtain ⟨hreplies, hlast⟩ := ih hnext hrest
    exact ⟨.cons hreply hreplies, hlast⟩

omit [DecidableEq ω] in
theorem mutual_blobs (h : Parity s db) : Mutual (Sqlite.getFriendIds s) where
  symm := fun a b hb => by
    rw [sqlite_getFriendIds h.rows.numbered, h.lists.friends] at hb ⊢
    exact h.lists.symm a b hb
  irrefl := fun a ha => by
    rw [sqlite_getFriendIds h.rows.numbered, h.lists.friends] at ha
    exact h.lists.irrefl a ha

omit [DecidableEq ω] in
theorem mutual_tables (h : Parity s db) : Mutual (getFriendIds db.tables) where
  symm := fun a b hb => by
    have hperm := fun uid => perm_friendIds uid h.rows.numbered h.lists
    rw [← (hperm a).mem_iff, h.lists.friends] at hb
    rw [← (hperm b).mem_iff, h.lists.friends]
    exact h.lists.symm a b hb
  irrefl := fun a ha => by
    rw [← (perm_friendIds _ h.rows.numbered h.lists).mem_iff, h.lists.friends] at ha
    exact h.lists.irrefl a ha

theorem repos_agree (others : ω) (takes : Call ω → Bool) (turns : List (Turn ω))
    (h : Admitted others takes noAccounts turns) :
    List.Forall₂ Reply.Agrees (sqliteRun others noAccounts turns).1
        (postgresRun others takes Postgres.noDb turns).1 ∧
      Mutual (Sqlite.getFriendIds (sqliteRun others noAccounts turns).2) ∧
      Mutual (getFriendIds (postgresRun others takes Postgres.noDb turns).2.tables) := by
  obtain ⟨hreplies, hlast⟩ := parity_run turns parity_start h
  exact ⟨hreplies, mutual_blobs hlast, mutual_tables hlast⟩

end

def loginOf (openId : String) : LoginObj :=
  ⟨some openId, some "4", some "foices", some "BR", some "pt", some "device-1", some "1.70.1"⟩

def turnAt (now : Int) (call : Call Unit) : Turn Unit := ⟨call, now, now, 0⟩

def twoLogins : List (Turn Unit) :=
  [turnAt 1 (.createFromLogin (loginOf "a")), turnAt 2 (.createFromLogin (loginOf "b"))]

theorem repos_agree_on_courtship :
    let turns := twoLogins ++ [turnAt 3 (.addRequest 10000002 10000001), turnAt 4 (.getRequestIds 10000002),
      turnAt 5 (.addFriendship 10000002 10000001), turnAt 6 (.getByIds [10000002, 99, 10000001]),
      turnAt 7 (.removeFriendship 99 10000001), turnAt 8 (.getFriendIds 10000001)]
    List.Forall₂ Reply.Agrees (sqliteRun () noAccounts turns).1
        (postgresRun () (fun _ => true) Postgres.noDb turns).1 ∧
      Mutual (Sqlite.getFriendIds (sqliteRun () noAccounts turns).2) ∧
      Mutual (getFriendIds (postgresRun () (fun _ => true) Postgres.noDb turns).2.tables) :=
  repos_agree () (fun _ => true) _ ⟨⟨rfl, trivial⟩, ⟨rfl, trivial⟩, ⟨rfl, Or.inr ⟨rfl, rfl⟩⟩, ⟨rfl, trivial⟩,
    ⟨rfl, Or.inr ⟨rfl, rfl⟩⟩, 
    ⟨rfl, (by decide : [10000002, 99, 10000001].Nodup)⟩, ⟨rfl, trivial⟩, ⟨rfl, trivial⟩, trivial⟩

def friendsIn : Option (Reply Unit) → Option (List Nat)
  | some (.account (some acc)) => acc.friends
  | _ => none

-- The document of a befriended account shows its friends in the one store and none in the other; a
-- friend that is no account is taken on one side by the one and refused by the other; a saved
-- document brings its lists along in the one only; an id named twice is answered once by the other.
theorem repos_differ :
    (let turns := twoLogins ++ [turnAt 3 (.addFriendship 10000001 10000002), turnAt 4 (.getById 10000001)];
      friendsIn (sqliteRun () noAccounts turns).1.getLast? = some [10000002] ∧
        friendsIn (postgresRun () (fun _ => true) Postgres.noDb turns).1.getLast? = some []) ∧
    (let turns := twoLogins ++ [turnAt 3 (.addFriendship 10000001 99)];
      (sqliteRun () noAccounts turns).1.getLast? = some .done ∧
        (postgresRun () (fun _ => true) Postgres.noDb turns).1.getLast? = some .thrown ∧
        Sqlite.getFriendIds (sqliteRun () noAccounts turns).2 10000001 = [99] ∧
        Sqlite.getFriendIds (sqliteRun () noAccounts turns).2 99 = []) ∧
    (let turns := twoLogins ++ [turnAt 3 (.save ((freshPlayer () (loginOf "a") 10000001 1).setFriends [10000002])),
        turnAt 4 (.getFriendIds 10000001)];
      (sqliteRun () noAccounts turns).1.getLast? = some (.ids [10000002]) ∧
        (postgresRun () (fun _ => true) Postgres.noDb turns).1.getLast? = some (.ids [])) ∧
    (let turns := twoLogins ++ [turnAt 3 (.getByIds [10000001, 10000001])];
      ((sqliteRun () noAccounts turns).1.getLast?.map fun r => match r with
        | .accounts accs => accs.length
        | _ => 0) = some 2 ∧
      ((postgresRun () (fun _ => true) Postgres.noDb turns).1.getLast?.map fun r => match r with
        | .accounts accs => accs.length
        | _ => 0) = some 1) := by
  refine ⟨⟨?_, ?_⟩, ⟨?_, ?_, ?_, ?_⟩, ⟨?_, ?_⟩, ?_, ?_⟩ <;> rfl

end Repo

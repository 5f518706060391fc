import Mathlib.Data.Option.Basic
import Mathlib.Data.List.Perm.Basic
import Madoka.Repo.Postgres
import Madoka.Repo.Sqlite

namespace Repo

open Account

variable {ω : Type}

-- A row whose columns hold what its document does.
structure Settled (row : Row (Body ω)) : Prop where
  uid : row.state.uid ≠ none
  openId : row.openId ≠ none
  token : row.token = row.state.token
  tokenCreatedAt : row.tokenCreatedAt ≠ none

def blobFriends (s : Store ω) (uid : Nat) : List Nat :=
  ((s.accounts uid).bind fun row => row.state.friends).getD []

def blobRequests (s : Store ω) (uid : Nat) : List Nat :=
  ((s.accounts uid).bind fun row => row.state.requests).getD []

section

variable {s s' : Store ω} {uid now : Nat} {row : Row (Body ω)} {d : Document ω} {t : Int}

theorem getById_of_row {view : Nat → Row (Body ω) → Document ω} (hs : s.Numbered)
    (h : s.accounts uid = some row) : s.getById view uid = some (view uid row) := by
  rw [Store.getById, if_neg (hs.pos h), h, Option.map_some]

theorem getById_of_none {view : Nat → Row (Body ω) → Document ω} (h : s.accounts uid = none) :
    s.getById view uid = none := by
  rw [Store.getById, h, Option.map_none, ite_self]

theorem sqlite_getFriendIds (hs : s.Numbered) : Sqlite.getFriendIds s uid = blobFriends s uid := by
  unfold Sqlite.getFriendIds blobFriends
  cases h : s.accounts uid with
  | none => rw [getById_of_none h]; rfl
  | some row => rw [getById_of_row hs h]; rfl

theorem sqlite_getRequestIds (hs : s.Numbered) : Sqlite.getRequestIds s uid = blobRequests s uid := by
  unfold Sqlite.getRequestIds blobRequests
  cases h : s.accounts uid with
  | none => rw [getById_of_none h]; rfl
  | some row => rw [getById_of_row hs h]; rfl

theorem view_save (hid : d.uid = some uid) :
    Sqlite.rowToAccount uid (save t d row) = columns row.openId (stored t d) := by
  simp [Sqlite.rowToAccount, save, stored, columns, hid]

theorem settled_save (hrow : row.openId ≠ none) (hid : d.uid = some uid) : Settled (save t d row) where
  uid := by simp [save, stored, hid]
  openId := hrow
  token := rfl
  tokenCreatedAt := by simp [save]

theorem settled_view (h : Settled row) :
    columns row.openId (Sqlite.rowToAccount uid row) = Sqlite.rowToAccount uid row := by
  obtain ⟨o, ho⟩ := Option.ne_none_iff_exists'.mp h.openId
  obtain ⟨n, hn⟩ := Option.ne_none_iff_exists'.mp h.tokenCreatedAt
  simp [columns, Sqlite.rowToAccount, ho, hn]

theorem rowToAccount_eq [DecidableEq ω] {others : ω} (h : Settled row) :
    Postgres.rowToAccount others uid row = Sqlite.rowToAccount uid row := by
  have hne : row.state ≠ Doc.empty := fun he => h.uid (congrArg Doc.uid he)
  simp [Postgres.rowToAccount, Account.rowToAccount, Sqlite.rowToAccount, hne]

end

structure SameRow (uid : Nat) (r q : Row (Body ω)) : Prop where
  left : Settled r
  right : Settled q
  openId : r.openId = q.openId
  token : r.token = q.token
  views : bare (Sqlite.rowToAccount uid r) = bare (Sqlite.rowToAccount uid q)

structure SameRows (s p : Store ω) : Prop where
  numbered : s.Numbered
  nextId : s.nextId = p.nextId
  rows : ∀ uid, Option.Rel (SameRow uid) (s.accounts uid) (p.accounts uid)

section

variable {s p : Store ω} {uid : Nat} {r q : Row (Body ω)} {d e : Document ω} {now now' : Int}

theorem sameRow_save (hopen : r.openId = q.openId) (hsome : r.openId ≠ none) (hde : bare d = bare e)
    (hid : d.uid = some uid) : SameRow uid (save now d r) (save now' e q) := by
  have hid' : e.uid = some uid := (uid_of_bare hde).symm.trans hid
  refine ⟨settled_save hsome hid, settled_save (hopen ▸ hsome) hid', hopen, token_of_bare hde, ?_⟩
  rw [view_save hid, view_save hid', bare_columns, bare_columns, bare_stored, bare_stored, hde, hopen]

theorem SameRows.update (h : SameRows s p) (hde : bare d = bare e) :
    SameRows (s.update now d) (p.update now' e) where
  numbered := numbered_update h.numbered
  nextId := by
    rw [nextId_update, nextId_update]
    exact h.nextId
  rows := fun uid => by
    rw [accounts_update, accounts_update, ← uid_of_bare hde]
    have hrel := h.rows uid
    split
    · rename_i hid
      cases hr : s.accounts uid with
      | none =>
        rw [hr] at hrel
        cases hq : p.accounts uid with
        | none => exact .none
        | some q => rw [hq] at hrel; cases hrel
      | some r =>
        rw [hr] at hrel
        cases hq : p.accounts uid with
        | none => rw [hq] at hrel; cases hrel
        | some q =>
          rw [hq] at hrel
          cases hrel with
          | some hrow => exact .some (sameRow_save hrow.openId hrow.left.openId hde hid)
    · exact hrel

theorem SameRows.edit (h : SameRows s p) (hr : s.accounts uid = some r)
    (hd : bare d = bare (Sqlite.rowToAccount uid r)) : SameRows (s.update now d) p where
  numbered := numbered_update h.numbered
  nextId := by
    rw [nextId_update]
    exact h.nextId
  rows := fun x => by
    have hid : d.uid = some uid := uid_of_bare hd
    rw [accounts_update]
    have hrel := h.rows x
    split
    · rename_i hx
      rw [hid] at hx
      cases hx
      rw [hr] at hrel ⊢
      cases hq : p.accounts uid with
      | none => rw [hq] at hrel; cases hrel
      | some q =>
        rw [hq] at hrel
        cases hrel with
        | some hrow =>
          refine .some ⟨settled_save hrow.left.openId hid, hrow.right, hrow.openId, ?_, ?_⟩
          · have htoken : d.token = (Sqlite.rowToAccount uid r).token := token_of_bare hd
            have hself : (Sqlite.rowToAccount uid r).token = r.token := by
              rw [Sqlite.rowToAccount, ← hrow.left.token, Option.or_self]
            exact (htoken.trans hself).trans hrow.token
          · rw [view_save hid, bare_columns, bare_stored, hd, ← bare_columns, settled_view hrow.left]
            exact hrow.views
    · exact hrel

theorem SameRows.ids (h : SameRows s p) : s.ids = p.ids := by
  rw [Store.ids, Store.ids, h.nextId]

theorem SameRows.cases (h : SameRows s p) (uid : Nat) :
    (s.accounts uid = none ∧ p.accounts uid = none) ∨
      ∃ r q, s.accounts uid = some r ∧ p.accounts uid = some q ∧ SameRow uid r q := by
  have hrel := h.rows uid
  cases hr : s.accounts uid with
  | none =>
    cases hq : p.accounts uid with
    | none => exact Or.inl ⟨rfl, rfl⟩
    | some q => rw [hr, hq] at hrel; cases hrel
  | some r =>
    cases hq : p.accounts uid with
    | none => rw [hr, hq] at hrel; cases hrel
    | some q =>
      rw [hr, hq] at hrel
      cases hrel with
      | some hrow => exact Or.inr ⟨r, q, rfl, rfl, hrow⟩

theorem SameRows.known (h : SameRows s p) (uid : Nat) : s.known uid = p.known uid := by
  rcases h.cases uid with ⟨hr, hq⟩ | ⟨r, q, hr, hq, -⟩
  · rw [Store.known, Store.known, hr, hq]
  · rw [Store.known, Store.known, hr, hq]
    rfl

theorem SameRows.numbered' (h : SameRows s p) : p.Numbered where
  first := h.nextId ▸ h.numbered.first
  given := fun uid hid => h.nextId ▸ h.numbered.given uid ((h.known uid).trans hid)

theorem SameRows.idsWhere (h : SameRows s p) (f : Row (Body ω) → Bool)
    (hf : ∀ uid r q, SameRow uid r q → f r = f q) : s.idsWhere f = p.idsWhere f := by
  unfold Store.idsWhere
  rw [h.ids]
  refine List.filter_congr fun uid _ => ?_
  rcases h.cases uid with ⟨hr, hq⟩ | ⟨r, q, hr, hq, hrow⟩
  · rw [hr, hq]
  · rw [hr, hq]
    exact hf uid r q hrow

variable [DecidableEq ω] {others : ω}

theorem SameRows.getById (h : SameRows s p) (uid : Nat) :
    (s.getById Sqlite.rowToAccount uid).map bare =
      (p.getById (Postgres.rowToAccount others) uid).map bare := by
  rcases h.cases uid with ⟨hr, hq⟩ | ⟨r, q, hr, hq, hrow⟩
  · rw [getById_of_none hr, getById_of_none hq]
  · rw [getById_of_row h.numbered hr, getById_of_row h.numbered' hq, rowToAccount_eq hrow.right]
    exact congrArg some hrow.views

theorem SameRows.getByOpenId (others : ω) (h : SameRows s p) (openId : String) :
    (s.getByOpenId Sqlite.rowToAccount openId).map bare =
      (p.getByOpenId (Postgres.rowToAccount others) openId).map bare := by
  unfold Store.getByOpenId
  split
  · rfl
  · rw [h.idsWhere (fun row => row.openId = some openId) fun uid r q hrow => by rw [hrow.openId]]
    cases (p.idsWhere fun row => decide (row.openId = some openId)).head? with
    | none => rfl
    | some uid => exact h.getById uid

theorem SameRows.getByToken (h : SameRows s p) (pick : Nat) (token : String)
    (hone : (s.idsWhere fun row => row.token = some token).length ≤ 1) :
    (Sqlite.getByToken s token).map bare = (Postgres.getByToken others p pick token).map bare := by
  unfold Sqlite.getByToken Postgres.getByToken
  split
  · rfl
  · have hids := h.idsWhere (fun row => row.token = some token) fun uid r q hrow => by rw [hrow.token]
    rw [hids] at hone ⊢
    dsimp only
    cases hl : p.idsWhere fun row => decide (row.token = some token) with
    | nil => rfl
    | cons uid l =>
      rw [hl, List.length_cons] at hone
      have hnil : l = [] := List.length_eq_zero_iff.mp (by omega)
      subst hnil
      rw [List.length_singleton, Nat.mod_one]
      exact h.getById uid

theorem SameRows.createFromLogin (h : SameRows s p) (req : LoginObj) :
    SameRows (s.createFromLogin Sqlite.rowToAccount others now req).2
        (p.createFromLogin (Postgres.rowToAccount others) others now' req).2 ∧
      bare (s.createFromLogin Sqlite.rowToAccount others now req).1 =
        bare (p.createFromLogin (Postgres.rowToAccount others) others now' req).1 := by
  have hfound := h.getByOpenId others (deriveOpenId req)
  unfold Store.createFromLogin
  cases hs : s.getByOpenId Sqlite.rowToAccount (deriveOpenId req) with
  | some d =>
    cases hp : p.getByOpenId (Postgres.rowToAccount others) (deriveOpenId req) with
    | none => rw [hs, hp] at hfound; cases hfound
    | some e =>
      rw [hs, hp] at hfound
      have hde := bare_refreshed req (Option.some.inj hfound)
      exact ⟨h.update hde, hde⟩
  | none =>
    cases hp : p.getByOpenId (Postgres.rowToAccount others) (deriveOpenId req) with
    | some e => rw [hs, hp] at hfound; cases hfound
    | none =>
      have hfresh : bare (freshPlayer others req s.nextId now) = bare (freshPlayer others req p.nextId now') := by
        rw [h.nextId]
        rfl
      dsimp only
      refine ⟨⟨numbered_update (numbered_insert h.numbered), ?_, fun uid => ?_⟩, hfresh⟩
      · rw [nextId_update, nextId_update]
        exact congrArg (· + 1) h.nextId
      · rw [accounts_created, accounts_created, ← h.nextId]
        split
        · rename_i hid
          rw [← h.nextId] at hfresh
          exact .some (sameRow_save rfl (Option.some_ne_none _) hfresh (hid ▸ rfl))
        · exact h.rows uid

end

end Repo

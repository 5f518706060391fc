import Mathlib.Logic.Function.Basic
import Madoka.Account.Updates

namespace Account

structure Wallet where
  coins : Option Int
  gems : Option Int
  deriving DecidableEq, Repr

structure Item where
  id : Nat
  cnt : Nat
  deriving DecidableEq, Repr

-- The other keys of a document: those that a login, the wallet and the friend calls touch, and
-- the rest of them.
structure Body (ω : Type) where
  openIdType : Option String
  region : Option String
  language : Option String
  createdAt : Option Int
  gems : Option Int
  wallet : Option Wallet
  backpack : Option (List Item)
  friends : Option (List Nat)
  requests : Option (List Nat)
  others : Option ω
  deriving DecidableEq, Repr

structure LoginObj where
  openId : Option String
  openIdType : Option String
  nickname : Option String
  region : Option String
  language : Option String
  deviceId : Option String
  clientVersion : Option String
  deriving DecidableEq, Repr

variable {ω : Type}

def Body.empty : Body ω := ⟨none, none, none, none, none, none, none, none, none, none⟩

-- The keys of DEFAULT_PLAYER behind those of `defaultPlayer`.
def defaultBody (others : ω) : Body ω where
  openIdType := none
  region := none
  language := none
  createdAt := some 0
  gems := some 999999
  wallet := some ⟨some 999999, some 999999⟩
  backpack := some []
  friends := some []
  requests := some []
  others := some others

abbrev Document (ω : Type) := Doc (Body ω)

namespace Doc

variable (d : Document ω)

def body : Body ω := d.rest.getD Body.empty

def onBody (f : Body ω → Body ω) : Document ω :=
  { d with rest := some (f d.body) }

def friends : Option (List Nat) := d.body.friends

def requests : Option (List Nat) := d.body.requests

def setFriends (l : List Nat) : Document ω := d.onBody fun b => { b with friends := some l }

def setRequests (l : List Nat) : Document ω := d.onBody fun b => { b with requests := some l }

end Doc

-- White space of String.prototype.trim.
def isBlank (c : Char) : Bool :=
  c.toNat ∈ [9, 10, 11, 12, 13, 32, 0xA0, 0x1680, 0x2028, 0x2029, 0x202F, 0x205F, 0x3000, 0xFEFF] ||
    (0x2000 ≤ c.toNat && c.toNat ≤ 0x200A)

def guestOpenId : String := "guest-default"

def deriveOpenId (req : LoginObj) : String :=
  match req.openId with
  | none => guestOpenId
  | some oid => if oid.toList.all isBlank then guestOpenId else oid

def given (x : Option String) : Option String :=
  x.filter (· ≠ "")

-- A login of a known account: what the request gives replaces what the document has.
def refreshed (req : LoginObj) (acc : Document ω) : Document ω :=
  ({ acc with
    nickname := (given req.nickname).or acc.nickname
    deviceId := (given req.deviceId).or acc.deviceId
    clientVersion := (given req.clientVersion).or acc.clientVersion } : Document ω).onBody fun b =>
      { b with
        openIdType := req.openIdType.or b.openIdType
        region := (given req.region).or b.region
        language := (given req.language).or b.language }

def freshPlayer (others : ω) (req : LoginObj) (uid : Nat) (now : Int) : Document ω :=
  { defaultPlayer { defaultBody others with
      openIdType := req.openIdType
      region := given req.region
      language := given req.language
      createdAt := some now } with
    uid := some uid
    openId := some (deriveOpenId req)
    nickname := (given req.nickname).or (some "Player")
    deviceId := given req.deviceId
    clientVersion := given req.clientVersion
    lastLoginAt := some now }

-- The table accounts, whose ids are handed out in order.
structure Store (ω : Type) where
  accounts : Nat → Option (Row (Body ω))
  nextId : Nat

def firstId : Nat := 10000001

def noAccounts : Store ω := ⟨fun _ => none, firstId⟩

-- The row a createFromLogin inserts before it saves the document.
def placeholder (req : LoginObj) : Row (Body ω) :=
  ⟨some (deriveOpenId req), none, some 0, Doc.empty⟩

namespace Store

variable (s : Store ω)

def known (uid : Nat) : Bool := (s.accounts uid).isSome

def ids : List Nat := List.range' firstId (s.nextId - firstId)

def idsWhere (p : Row (Body ω) → Bool) : List Nat :=
  s.ids.filter fun uid => (s.accounts uid).any p

-- `UPDATE accounts SET .. WHERE account_id = ..` with the columns of the document.
def update (now : Int) (acc : Document ω) : Store ω :=
  match acc.uid with
  | none => s
  | some uid =>
    match s.accounts uid with
    | none => s
    | some row => { s with accounts := Function.update s.accounts uid (some (save now acc row)) }

def insert (row : Row (Body ω)) : Store ω :=
  { accounts := Function.update s.accounts s.nextId (some row), nextId := s.nextId + 1 }

section

-- rowToAccount of the repo.
variable (view : Nat → Row (Body ω) → Document ω)

def getById (uid : Nat) : Option (Document ω) :=
  if uid = 0 then none else (s.accounts uid).map (view uid)

def getByOpenId (openId : String) : Option (Document ω) :=
  if openId = "" then none
  else (s.idsWhere fun row => row.openId = some openId).head?.bind (s.getById view)

-- `now` is read once for the document and once more by save, which keeps what it finds.
def createFromLogin (others : ω) (now : Int) (req : LoginObj) : Document ω × Store ω :=
  match s.getByOpenId view (deriveOpenId req) with
  | some acc => (stored now (refreshed req acc), s.update now (refreshed req acc))
  | none =>
    let acc := freshPlayer others req s.nextId now
    (stored now acc, (s.insert (placeholder req)).update now acc)

end

end Store

-- The ids given out so far lie between the first one and the next.
structure Store.Numbered (s : Store ω) : Prop where
  first : firstId ≤ s.nextId
  given : ∀ uid, s.known uid = true → firstId ≤ uid ∧ uid < s.nextId

section

variable {s : Store ω} {now : Int} {acc : Document ω} {row : Row (Body ω)} {uid : Nat}
  {view : Nat → Row (Body ω) → Document ω}

theorem accounts_update : (s.update now acc).accounts uid =
    if acc.uid = some uid then (s.accounts uid).map (save now acc) else s.accounts uid := by
  unfold Store.update
  cases hid : acc.uid with
  | none => rfl
  | some id =>
    dsimp only
    by_cases h : id = uid
    · subst h
      cases hrow : s.accounts id with
      | none => simp [hrow]
      | some row => simp
    · cases hrow : s.accounts id with
      | none => simp [h]
      | some row => simp [h, Function.update_of_ne (Ne.symm h)]

@[simp] theorem nextId_update : (s.update now acc).nextId = s.nextId := by
  unfold Store.update
  split
  · rfl
  · split <;> rfl

theorem accounts_insert : (s.insert row).accounts uid = if uid = s.nextId then some row else s.accounts uid :=
  Function.update_apply s.accounts s.nextId (some row) uid

theorem accounts_created {others : ω} {req : LoginObj} :
    ((s.insert (placeholder req)).update now (freshPlayer others req s.nextId now)).accounts uid =
      if uid = s.nextId then some (save now (freshPlayer others req s.nextId now) (placeholder req))
      else s.accounts uid := by
  have hid : (freshPlayer others req s.nextId now).uid = some s.nextId := rfl
  rw [accounts_update, accounts_insert, hid]
  by_cases h : uid = s.nextId
  · rw [if_pos (h ▸ rfl), if_pos h, if_pos h]
    rfl
  · rw [if_neg (fun he => h (Option.some.inj he).symm), if_neg h, if_neg h]

@[simp] theorem known_update : (s.update now acc).known uid = s.known uid := by
  unfold Store.known
  rw [accounts_update]
  split
  · rw [Option.isSome_map]
  · rfl

theorem getById_eq_some (h : s.getById view uid = some acc) :
    ∃ row, s.accounts uid = some row ∧ acc = view uid row := by
  unfold Store.getById at h
  split at h
  · cases h
  · obtain ⟨row, hrow, rfl⟩ := Option.map_eq_some_iff.mp h
    exact ⟨row, hrow, rfl⟩

theorem getByOpenId_eq_some {openId : String} (h : s.getByOpenId view openId = some acc) :
    ∃ uid row, s.accounts uid = some row ∧ acc = view uid row := by
  unfold Store.getByOpenId at h
  split at h
  · cases h
  · obtain ⟨uid, -, hid⟩ := Option.bind_eq_some_iff.mp h
    obtain ⟨row, hrow⟩ := getById_eq_some hid
    exact ⟨uid, row, hrow⟩

theorem known_iff : s.known uid = true ↔ ∃ row, s.accounts uid = some row :=
  Option.isSome_iff_exists

theorem numbered_noAccounts : (noAccounts : Store ω).Numbered where
  first := Nat.le_refl _
  given := fun _ h => by cases h

theorem Store.Numbered.fresh (h : s.Numbered) : s.accounts s.nextId = none := by
  cases hrow : s.accounts s.nextId with
  | none => rfl
  | some row => exact absurd (h.given s.nextId (known_iff.mpr ⟨row, hrow⟩)).2 (Nat.lt_irrefl _)

theorem Store.Numbered.pos (h : s.Numbered) (hrow : s.accounts uid = some row) : uid ≠ 0 := by
  have hid := (h.given uid (known_iff.mpr ⟨row, hrow⟩)).1
  have hfirst : firstId = 10000001 := rfl
  omega

theorem numbered_update (h : s.Numbered) : (s.update now acc).Numbered where
  first := by
    rw [nextId_update]
    exact h.first
  given := fun uid hid => by
    rw [known_update] at hid
    rw [nextId_update]
    exact h.given uid hid

theorem numbered_insert (h : s.Numbered) : (s.insert row).Numbered where
  first := Nat.le_succ_of_le h.first
  given := fun uid hid => by
    obtain ⟨row', hrow⟩ := known_iff.mp hid
    rw [accounts_insert] at hrow
    split at hrow
    · rename_i heq
      exact heq ▸ ⟨h.first, Nat.lt_succ_self _⟩
    · obtain ⟨hlow, hhigh⟩ := h.given uid (known_iff.mpr ⟨row', hrow⟩)
      exact ⟨hlow, Nat.lt_succ_of_lt hhigh⟩

theorem numbered_createFromLogin {others : ω} {req : LoginObj} (h : s.Numbered) :
    (s.createFromLogin view others now req).2.Numbered := by
  unfold Store.createFromLogin
  split
  · exact numbered_update h
  · dsimp only
    exact numbered_update (numbered_insert h)

end

end Account

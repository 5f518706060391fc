import Mathlib.Data.List.Nodup
import Mathlib.Logic.Function.Basic
import Madoka.Lib.Utf16

namespace Auth

open Lib Utf16

def FIRST_UID : Nat := 10000001

def attempts : Nat := 5

structure DiscordUser where
  id : Text
  username : Text
  email : Option Text
  deriving DecidableEq, Repr

structure TokenSet where
  accessToken : Text
  refreshToken : Text
  accessExpiry : Int
  refreshExpiry : Int
  createTime : Int
  deriving DecidableEq, Repr

structure Guest where
  openId : Text
  uid : Nat
  dcId : Text
  dcHandle : Text
  dcEmail : Option Text
  renovation : Bool
  tokens : Option TokenSet
  deriving DecidableEq, Repr

structure Account where
  openId : Text
  uid : Nat
  deriving DecidableEq, Repr

structure Db where
  guests : List Guest
  accounts : List Account
  deriving DecidableEq, Repr

namespace Db

variable (db : Db)

def findByDcId (dcId : Text) : Option Guest := db.guests.find? fun g => g.dcId == dcId

def currentMaxUid : Option Nat := (db.guests.map Guest.uid).max?

def nextUid : Nat :=
  match db.currentMaxUid with
  | none => FIRST_UID
  | some m => m + 1

-- Each insert is one statement; `none` is the unique violation 23505.
def insertUser (g : Guest) : Option Db :=
  if db.guests.any fun x => x.openId == g.openId || x.uid == g.uid || x.dcId == g.dcId then none
  else some { db with guests := db.guests ++ [g] }

def insertAccount (a : Account) : Option Db :=
  if db.accounts.any fun x => x.openId == a.openId then none
  else some { db with accounts := db.accounts ++ [a] }

def updateGuest (openId : Text) (f : Guest → Guest) : Db :=
  { db with guests := db.guests.map fun g => if g.openId = openId then f g else g }

def updateDiscordFields (openId handle : Text) (email : Option Text) : Db :=
  db.updateGuest openId fun g => { g with dcHandle := handle, dcEmail := email }

def setTokens (openId : Text) (t : TokenSet) : Db :=
  db.updateGuest openId fun g => { g with tokens := some t }

end Db

-- `ok` holds what the redirect url is made of.
inductive Result where
  | ok (uid : Nat) (openId : Text) (tokens : TokenSet)
  | renovation
  | threw (duplicate : Bool)
  deriving DecidableEq, Repr

-- The statement that a call of completeDiscordLogin is about to run.
inductive Stage where
  | findByDcId
  | updateDiscordFields (existing : Guest)
  | nextUid (i : Nat)
  | insertUser (i : Nat) (guestDoc : Guest)
  | insertAccount (i : Nat) (guestDoc : Guest)
  | setTokens (user : Guest)
  | done (r : Result)
  deriving DecidableEq, Repr

-- `broken` and `refused` count what went wrong: a statement that failed, and the refused inserts.
structure Login where
  user : DiscordUser
  stage : Stage
  broken : Bool
  refused : Nat
  deriving DecidableEq, Repr

-- The open_ids whose accounts insert failed are in `orphans`, which the code logs.
structure Sys where
  db : Db
  logins : Nat → Option Login
  orphans : List Text

-- Whether the statement fails, and what generateOpenId and generateToken return.
structure Env where
  fails : Bool
  openId : Text
  tokens : TokenSet
  deriving DecidableEq, Repr

namespace Sys

variable (s : Sys) (l : Nat) (q : Login) (env : Env)

def put (db : Db) (q : Login) : Sys :=
  { s with db := db, logins := Function.update s.logins l (some q) }

-- withUidRetry: the body begins again, without the lookup.
def retry (i : Nat) : Stage :=
  if i + 1 < attempts then .nextUid (i + 1) else .done (.threw true)

def fail : Sys :=
  let s' := s.put l s.db { q with stage := .done (.threw false), broken := true }
  match q.stage with
  | .insertAccount _ doc => { s' with orphans := s.orphans ++ [doc.openId] }
  | .done _ => s
  | _ => s'

def advance : Sys :=
  match q.stage with
  | .findByDcId =>
    match s.db.findByDcId q.user.id with
    | some g => s.put l s.db { q with stage := .updateDiscordFields g }
    | none => s.put l s.db { q with stage := .nextUid 0 }
  | .updateDiscordFields g =>
    s.put l (s.db.updateDiscordFields g.openId q.user.username q.user.email)
      { q with
        stage :=
          if g.renovation then .done .renovation
          else .setTokens { g with dcHandle := q.user.username, dcEmail := q.user.email } }
  | .nextUid i =>
    s.put l s.db
      { q with
        stage := .insertUser i
          ⟨env.openId, s.db.nextUid, q.user.id, q.user.username, q.user.email, false, none⟩ }
  | .insertUser i doc =>
    match s.db.insertUser doc with
    | some db => s.put l db { q with stage := .insertAccount i doc }
    | none => s.put l s.db { q with stage := retry i, refused := q.refused + 1 }
  | .insertAccount i doc =>
    match s.db.insertAccount ⟨doc.openId, doc.uid⟩ with
    | some db => s.put l db { q with stage := .setTokens doc }
    | none =>
      { s.put l s.db { q with stage := retry i, refused := q.refused + 1 } with
        orphans := s.orphans ++ [doc.openId] }
  | .setTokens u =>
    s.put l (s.db.setTokens u.openId env.tokens)
      { q with stage := .done (.ok u.uid u.openId env.tokens) }
  | .done _ => s

end Sys

inductive LoginEvent where
  | call (l : Nat) (user : DiscordUser)
  | statement (l : Nat) (env : Env)
  deriving DecidableEq, Repr

namespace Sys

def step (s : Sys) : LoginEvent → Sys
  | .call l user =>
    match s.logins l with
    | some _ => s
    | none => s.put l s.db ⟨user, .findByDcId, false, 0⟩
  | .statement l env =>
    match s.logins l with
    | some q => if env.fails then s.fail l q else s.advance l q env
    | none => s

def run (s : Sys) (es : List LoginEvent) : Sys := es.foldl step s

def start (db : Db) : Sys := ⟨db, fun _ => none, []⟩

def Quiet (s : Sys) : Prop := ∀ l q, s.logins l = some q → ∃ r, q.stage = .done r

end Sys

-- What identifies a guests row; no statement changes it.
def Guest.key (g : Guest) : Text × Nat × Text := (g.openId, g.uid, g.dcId)

namespace Db

variable {db db' : Db} {g : Guest} {o : Text}

def keys (db : Db) : List (Text × Nat × Text) := db.guests.map Guest.key

theorem keys_updateGuest {f : Guest → Guest} (hf : ∀ g, (f g).key = g.key) :
    (db.updateGuest o f).keys = db.keys := by
  change (db.guests.map _).map Guest.key = _
  rw [List.map_map]
  refine List.map_congr_left fun g _ => ?_
  change (if g.openId = o then f g else g).key = _
  split
  · exact hf g
  · rfl

theorem keys_of_findByDcId {d : Text} (h : db.findByDcId d = some g) : (g.openId, g.uid, d) ∈ db.keys := by
  have hmem := List.mem_of_find?_eq_some h
  have hd := List.find?_some h
  rw [beq_iff_eq] at hd
  exact List.mem_map.mpr ⟨g, hmem, by rw [Guest.key, hd]⟩

theorem insertUser_some (h : db.insertUser g = some db') : db' = { db with guests := db.guests ++ [g] } ∧
    ∀ k ∈ db.keys, k.1 ≠ g.openId ∧ k.2.1 ≠ g.uid ∧ k.2.2 ≠ g.dcId := by
  unfold insertUser at h
  split at h
  · cases h
  · rename_i hnone
    refine ⟨(Option.some.inj h).symm, fun k hk => ?_⟩
    obtain ⟨x, hx, rfl⟩ := List.mem_map.mp hk
    rw [List.any_eq_true] at hnone
    refine ⟨fun he => hnone ⟨x, hx, ?_⟩, fun he => hnone ⟨x, hx, ?_⟩, fun he => hnone ⟨x, hx, ?_⟩⟩
    · simp [show x.openId = g.openId from he]
    · simp [show x.uid = g.uid from he]
    · simp [show x.dcId = g.dcId from he]

theorem insertAccount_some {a : Account} (h : db.insertAccount a = some db') :
    db' = { db with accounts := db.accounts ++ [a] } ∧ ∀ x ∈ db.accounts, x.openId ≠ a.openId := by
  unfold insertAccount at h
  split at h
  · cases h
  · rename_i hnone
    rw [List.any_eq_true] at hnone
    exact ⟨(Option.some.inj h).symm, fun x hx he => hnone ⟨x, hx, by rw [he, beq_self_eq_true]⟩⟩

theorem insertAccount_none {a : Account} (h : db.insertAccount a = none) :
    ∃ x ∈ db.accounts, x.openId = a.openId := by
  unfold insertAccount at h
  split at h
  · rename_i hany
    obtain ⟨x, hx, he⟩ := List.any_eq_true.mp hany
    exact ⟨x, hx, beq_iff_eq.mp he⟩
  · cases h

-- The unique columns, and no accounts row without its guests row.
structure Keyed (db : Db) : Prop where
  openIds : (db.keys.map fun k => k.1).Nodup
  uids : (db.keys.map fun k => k.2.1).Nodup
  dcIds : (db.keys.map fun k => k.2.2).Nodup
  accounts : (db.accounts.map Account.openId).Nodup
  owned : ∀ a ∈ db.accounts, ∃ k ∈ db.keys, k.1 = a.openId ∧ k.2.1 = a.uid

def HasAccount (db : Db) (k : Text × Nat × Text) : Prop :=
  ∃ a ∈ db.accounts, a.openId = k.1 ∧ a.uid = k.2.1

theorem Keyed.of_same (h : Keyed db) (hk : db'.keys = db.keys) (ha : db'.accounts = db.accounts) :
    Keyed db' where
  openIds := hk ▸ h.openIds
  uids := hk ▸ h.uids
  dcIds := hk ▸ h.dcIds
  accounts := ha ▸ h.accounts
  owned := by
    rw [ha, hk]
    exact h.owned

theorem keys_insert (db : Db) (g : Guest) :
    ({ db with guests := db.guests ++ [g] } : Db).keys = db.keys ++ [g.key] := by
  simp only [keys, List.map_append, List.map_cons, List.map_nil]

theorem column_append {α β : Type} {f : α → β} {xs : List α} {x : α} (h : (xs.map f).Nodup)
    (hx : ∀ y ∈ xs, f y ≠ f x) : ((xs ++ [x]).map f).Nodup := by
  rw [List.map_append, List.map_cons, List.map_nil, ← List.concat_eq_append, List.nodup_concat]
  refine ⟨fun hmem => ?_, h⟩
  obtain ⟨y, hy, he⟩ := List.mem_map.mp hmem
  exact hx y hy he

theorem Keyed.insertUser (h : db.Keyed) (hi : db.insertUser g = some db') : db'.Keyed := by
  obtain ⟨rfl, hnew⟩ := insertUser_some hi
  constructor
  · rw [keys_insert]
    exact column_append h.openIds fun k hk => (hnew k hk).1
  · rw [keys_insert]
    exact column_append h.uids fun k hk => (hnew k hk).2.1
  · rw [keys_insert]
    exact column_append h.dcIds fun k hk => (hnew k hk).2.2
  · exact h.accounts
  · intro a ha
    obtain ⟨k, hk, he⟩ := h.owned a ha
    refine ⟨k, ?_, he⟩
    rw [keys_insert]
    exact List.mem_append_left _ hk

theorem Keyed.insertAccount {a : Account} (h : db.Keyed) (hi : db.insertAccount a = some db')
    (ho : ∃ k ∈ db.keys, k.1 = a.openId ∧ k.2.1 = a.uid) : db'.Keyed := by
  obtain ⟨rfl, hnew⟩ := insertAccount_some hi
  refine ⟨h.openIds, h.uids, h.dcIds, column_append h.accounts hnew, ?_⟩
  intro x hx
  rcases List.mem_append.mp hx with hold | hlast
  · exact h.owned x hold
  · rw [List.mem_singleton.mp hlast]
    exact ho

theorem Keyed.eq_of_openId (h : db.Keyed) {k k' : Text × Nat × Text} (hk : k ∈ db.keys)
    (hk' : k' ∈ db.keys) (he : k.1 = k'.1) : k = k' :=
  List.inj_on_of_nodup_map h.openIds hk hk' he

theorem Keyed.eq_of_dcId (h : db.Keyed) {k k' : Text × Nat × Text} (hk : k ∈ db.keys)
    (hk' : k' ∈ db.keys) (he : k.2.2 = k'.2.2) : k = k' :=
  List.inj_on_of_nodup_map h.dcIds hk hk' he

theorem Keyed.account_uids (h : db.Keyed) : (db.accounts.map Account.uid).Nodup := by
  refine List.Nodup.map_on (fun a ha b hb he => ?_) (List.Nodup.of_map _ h.accounts)
  obtain ⟨k, hk, hko, hku⟩ := h.owned a ha
  obtain ⟨k', hk', hko', hku'⟩ := h.owned b hb
  have huid : k.2.1 = k'.2.1 := by rw [hku, hku', he]
  have hkk : k = k' := List.inj_on_of_nodup_map h.uids hk hk' huid
  have hopen : a.openId = b.openId := by rw [← hko, ← hko', hkk]
  exact List.inj_on_of_nodup_map h.accounts ha hb hopen

def accountsOf (db : Db) (g : Guest) : List Account :=
  db.accounts.filter fun a => a.openId = g.openId ∧ a.uid = g.uid

theorem mem_accountsOf {a : Account} :
    a ∈ db.accountsOf g ↔ a ∈ db.accounts ∧ a.openId = g.openId ∧ a.uid = g.uid := by
  rw [accountsOf, List.mem_filter, decide_eq_true_eq]

theorem Keyed.accountsOf_length (h : db.Keyed) (ha : db.HasAccount g.key) :
    (db.accountsOf g).length = 1 := by
  obtain ⟨a, hmem, ho, hu⟩ := ha
  have hin : a ∈ db.accountsOf g := mem_accountsOf.mpr ⟨hmem, ho, hu⟩
  have hnd : (db.accountsOf g).Nodup := (List.Nodup.of_map _ h.accounts).filter _
  have hall : ∀ b ∈ db.accountsOf g, b = a := by
    intro b hb
    obtain ⟨hbm, hbo, -⟩ := mem_accountsOf.mp hb
    exact List.inj_on_of_nodup_map h.accounts hbm hmem (hbo.trans ho.symm)
  have heq : db.accountsOf g = List.replicate (db.accountsOf g).length a :=
    List.eq_replicate_of_mem hall
  have hle : (db.accountsOf g).length ≤ 1 := by
    rw [heq, List.nodup_replicate] at hnd
    exact hnd
  have hpos : 0 < (db.accountsOf g).length := List.length_pos_of_mem hin
  omega

theorem hasAccount_of_length (h : (db.accountsOf g).length = 1) : db.HasAccount g.key := by
  obtain ⟨a, ha⟩ := List.length_eq_one_iff.mp h
  have hin : a ∈ db.accountsOf g := by
    rw [ha]
    exact List.mem_singleton.mpr rfl
  exact ⟨a, mem_accountsOf.mp hin⟩

end Db

namespace Login

def Fits (db : Db) (q : Login) : Prop :=
  match q.stage with
  | .findByDcId => q.refused = 0
  | .updateDiscordFields g => (g.openId, g.uid, q.user.id) ∈ db.keys
  | .nextUid i => q.refused = i ∧ i < attempts
  | .insertUser i doc => doc.dcId = q.user.id ∧ q.refused = i ∧ i < attempts
  | .insertAccount _ doc => (doc.openId, doc.uid, q.user.id) ∈ db.keys
  | .setTokens u => (u.openId, u.uid, q.user.id) ∈ db.keys
  | .done (.ok uid openId _) => (openId, uid, q.user.id) ∈ db.keys
  | .done .renovation => True
  | .done (.threw true) => q.refused = attempts
  | .done (.threw false) => q.broken = true

def Awaits (q : Login) (o : Text) : Prop :=
  match q.stage with
  | .insertAccount _ doc => doc.openId = o
  | _ => False

variable {db db' : Db} {q : Login} {o : Text}

theorem Fits.mono (h : q.Fits db) (hk : ∀ k ∈ db.keys, k ∈ db'.keys) : q.Fits db' := by
  obtain ⟨user, stage, broken, refused⟩ := q
  cases stage with
  | findByDcId => exact h
  | updateDiscordFields g => exact hk _ h
  | nextUid i => exact h
  | insertUser i doc => exact h
  | insertAccount i doc => exact hk _ h
  | setTokens u => exact hk _ h
  | done r =>
    cases r with
    | ok uid openId tokens => exact hk _ h
    | renovation => exact h
    | threw dup => cases dup <;> exact h

theorem Awaits.openId (h : q.Fits db) (ha : q.Awaits o) : ∃ k ∈ db.keys, k.1 = o := by
  obtain ⟨user, stage, broken, refused⟩ := q
  cases stage with
  | insertAccount i doc => exact ⟨_, h, ha⟩
  | _ => exact absurd ha id

end Login

namespace Sys

variable {s : Sys} {l l' : Nat} {q q' : Login} {db : Db} {o : Text}

def Awaits (s : Sys) (l : Nat) (o : Text) : Prop := ∃ q, s.logins l = some q ∧ q.Awaits o

structure Sound (s : Sys) : Prop where
  keyed : s.db.Keyed
  fits : ∀ l q, s.logins l = some q → q.Fits s.db
  awaited : ∀ l o, s.Awaits l o → ∀ a ∈ s.db.accounts, a.openId ≠ o
  alone : ∀ l l' o, s.Awaits l o → s.Awaits l' o → l = l'
  paired : ∀ k ∈ s.db.keys, s.db.HasAccount k ∨ k.1 ∈ s.orphans ∨ ∃ l, s.Awaits l k.1
  lost : ∀ o ∈ s.orphans, (∀ a ∈ s.db.accounts, a.openId ≠ o) ∧ ∀ l, ¬ s.Awaits l o
  blamed : ∀ o ∈ s.orphans, ∃ k ∈ s.db.keys, k.1 = o ∧
    ∃ l q, s.logins l = some q ∧ q.user.id = k.2.2 ∧ q.broken = true

theorem put_self : (s.put l db q).logins l = some q := Function.update_self ..

theorem put_other (h : l' ≠ l) : (s.put l db q).logins l' = s.logins l' :=
  Function.update_of_ne h _ _

theorem awaits_put_self : (s.put l db q).Awaits l o ↔ q.Awaits o := by
  constructor
  · rintro ⟨q', hq', ha⟩
    rw [put_self] at hq'
    cases hq'
    exact ha
  · intro ha
    exact ⟨q, put_self, ha⟩

theorem awaits_put_other (h : l' ≠ l) : (s.put l db q).Awaits l' o ↔ s.Awaits l' o := by
  unfold Awaits
  rw [put_other h]

theorem awaits_put_gone (hq : ∀ o, ¬ q.Awaits o) :
    (s.put l db q).Awaits l' o ↔ l' ≠ l ∧ s.Awaits l' o := by
  by_cases hl : l' = l
  · subst hl
    rw [awaits_put_self]
    exact iff_of_false (hq o) fun h => h.1 rfl
  · rw [awaits_put_other hl]
    exact ⟨fun h => ⟨hl, h⟩, fun h => h.2⟩

theorem Sound.open_of_awaits (h : s.Sound) (ha : s.Awaits l o) : ∃ k ∈ s.db.keys, k.1 = o := by
  obtain ⟨q, hq, ha⟩ := ha
  exact ha.openId (h.fits l q hq)

theorem put_fits (h : s.Sound) (hk : ∀ k ∈ s.db.keys, k ∈ db.keys) (hf : q'.Fits db) :
    ∀ l' q, (s.put l db q').logins l' = some q → q.Fits db := by
  intro l' q hq
  by_cases hl : l' = l
  · subst hl
    rw [put_self] at hq
    cases hq
    exact hf
  · rw [put_other hl] at hq
    exact (h.fits l' q hq).mono hk

def Follows (s : Sys) (l : Nat) (q' : Login) : Prop :=
  ∀ q, s.logins l = some q → q'.user = q.user ∧ (q.broken = true → q'.broken = true)

theorem follows_of (hl : s.logins l = some q) (hu : q'.user = q.user)
    (hb : q.broken = true → q'.broken = true) : s.Follows l q' := by
  intro q₀ hq₀
  rw [hl] at hq₀
  cases hq₀
  exact ⟨hu, hb⟩

theorem put_blamed (h : s.Sound) (hk : ∀ k ∈ s.db.keys, k ∈ db.keys) (hf : s.Follows l q') :
    ∀ o ∈ s.orphans, ∃ k ∈ db.keys, k.1 = o ∧
      ∃ l' q, (s.put l db q').logins l' = some q ∧ q.user.id = k.2.2 ∧ q.broken = true := by
  intro o ho
  obtain ⟨k, hkm, hko, l', q, hq, hu, hb⟩ := h.blamed o ho
  refine ⟨k, hk k hkm, hko, ?_⟩
  by_cases hl : l' = l
  · subst hl
    obtain ⟨hu', hb'⟩ := hf q hq
    exact ⟨l', q', put_self, by rw [hu', hu], hb' hb⟩
  · exact ⟨l', q, (put_other hl).trans hq, hu, hb⟩

theorem Sound.moved (h : s.Sound) (hk : db.keys = s.db.keys) (ha : db.accounts = s.db.accounts)
    (hold : ∀ o, ¬ s.Awaits l o) (hnew : ∀ o, ¬ q'.Awaits o) (hf : q'.Fits db)
    (hb : s.Follows l q') : (s.put l db q').Sound := by
  have haw : ∀ l' o, (s.put l db q').Awaits l' o ↔ s.Awaits l' o := by
    intro l' o
    rw [awaits_put_gone hnew]
    exact ⟨fun h => h.2, fun h => ⟨fun he => hold o (he ▸ h), h⟩⟩
  constructor
  · exact h.keyed.of_same hk ha
  · exact put_fits h (fun k hkm => hk ▸ hkm) hf
  · intro l' o ho a hmem
    rw [haw] at ho
    change a ∈ db.accounts at hmem
    rw [ha] at hmem
    exact h.awaited l' o ho a hmem
  · intro l₁ l₂ o h₁ h₂
    rw [haw] at h₁ h₂
    exact h.alone l₁ l₂ o h₁ h₂
  · intro k hkm
    change k ∈ db.keys at hkm
    rw [hk] at hkm
    rcases h.paired k hkm with hacc | horph | ⟨l', haw'⟩
    · left
      obtain ⟨a, hmem, he⟩ := hacc
      exact ⟨a, ha.symm ▸ hmem, he⟩
    · exact Or.inr (Or.inl horph)
    · exact Or.inr (Or.inr ⟨l', (haw l' k.1).mpr haw'⟩)
  · intro o ho
    obtain ⟨hacc, hno⟩ := h.lost o ho
    refine ⟨fun a hmem => hacc a (ha ▸ hmem), fun l' haw' => hno l' ((haw l' o).mp haw')⟩
  · exact put_blamed h (fun k hkm => hk ▸ hkm) hb

theorem not_awaits_of (hl : s.logins l = some q) (hq : ∀ o, ¬ q.Awaits o) : ∀ o, ¬ s.Awaits l o := by
  rintro o ⟨q', hq', ha⟩
  rw [hl] at hq'
  cases hq'
  exact hq o ha

theorem Sound.guest_inserted (h : s.Sound) (hl : s.logins l = some q) {i : Nat} {doc : Guest}
    (hs : q.stage = .insertUser i doc) (hi : s.db.insertUser doc = some db) :
    (s.put l db { q with stage := .insertAccount i doc }).Sound := by
  have hfits := h.fits l q hl
  rw [Login.Fits, hs] at hfits
  obtain ⟨hdc, -, -⟩ := hfits
  obtain ⟨hdb, hnew⟩ := Db.insertUser_some hi
  have hkeys : db.keys = s.db.keys ++ [doc.key] := by rw [hdb, Db.keys_insert]
  have hacc : db.accounts = s.db.accounts := by rw [hdb]
  have hmono : ∀ k ∈ s.db.keys, k ∈ db.keys := fun k hk => hkeys ▸ List.mem_append_left _ hk
  have hmem : doc.key ∈ db.keys := hkeys ▸ List.mem_append_right _ (List.mem_singleton.mpr rfl)
  have hfresh : ∀ l', ¬ s.Awaits l' doc.openId := by
    intro l' ha
    obtain ⟨k, hk, he⟩ := h.open_of_awaits ha
    exact (hnew k hk).1 he
  have hold : ∀ o, ¬ s.Awaits l o := not_awaits_of hl fun o ha => by rwa [Login.Awaits, hs] at ha
  constructor
  · exact h.keyed.insertUser hi
  · refine put_fits h hmono ?_
    change (doc.openId, doc.uid, q.user.id) ∈ db.keys
    rw [← hdc]
    exact hmem
  · intro l' o ho a ha
    change a ∈ db.accounts at ha
    rw [hacc] at ha
    by_cases hll : l' = l
    · subst hll
      rw [awaits_put_self] at ho
      obtain ⟨k, hk, hko, -⟩ := h.keyed.owned a ha
      rw [← show doc.openId = o from ho, ← hko]
      exact (hnew k hk).1
    · rw [awaits_put_other hll] at ho
      exact h.awaited l' o ho a ha
  · intro l₁ l₂ o h₁ h₂
    by_cases e₁ : l₁ = l
    · by_cases e₂ : l₂ = l
      · rw [e₁, e₂]
      · subst e₁
        rw [awaits_put_self] at h₁
        rw [awaits_put_other e₂, ← show doc.openId = o from h₁] at h₂
        exact absurd h₂ (hfresh l₂)
    · rw [awaits_put_other e₁] at h₁
      by_cases e₂ : l₂ = l
      · subst e₂
        rw [awaits_put_self] at h₂
        rw [← show doc.openId = o from h₂] at h₁
        exact absurd h₁ (hfresh l₁)
      · rw [awaits_put_other e₂] at h₂
        exact h.alone l₁ l₂ o h₁ h₂
  · intro k hk
    change k ∈ db.keys at hk
    rw [hkeys] at hk
    rcases List.mem_append.mp hk with hin | hlast
    · rcases h.paired k hin with hhas | horph | ⟨l', ha⟩
      · obtain ⟨a, ham, he⟩ := hhas
        exact Or.inl ⟨a, hacc.symm ▸ ham, he⟩
      · exact Or.inr (Or.inl horph)
      · have hll : l' ≠ l := fun he => hold k.1 (he ▸ ha)
        exact Or.inr (Or.inr ⟨l', (awaits_put_other hll).mpr ha⟩)
    · rw [List.mem_singleton.mp hlast]
      exact Or.inr (Or.inr ⟨l, awaits_put_self.mpr rfl⟩)
  · intro o ho
    obtain ⟨hno, haw⟩ := h.lost o ho
    refine ⟨fun a ha => hno a (hacc ▸ ha), fun l' ha => ?_⟩
    by_cases hll : l' = l
    · subst hll
      rw [awaits_put_self] at ha
      obtain ⟨k, hk, he, -⟩ := h.blamed o ho
      exact (hnew k hk).1 (he.trans (show doc.openId = o from ha).symm)
    · rw [awaits_put_other hll] at ha
      exact haw l' ha
  · exact put_blamed h hmono (follows_of hl rfl id)

theorem Sound.account_inserted (h : s.Sound) (hl : s.logins l = some q) {i : Nat} {doc : Guest}
    (hs : q.stage = .insertAccount i doc)
    (hi : s.db.insertAccount ⟨doc.openId, doc.uid⟩ = some db) :
    (s.put l db { q with stage := .setTokens doc }).Sound := by
  have hfits := h.fits l q hl
  rw [Login.Fits, hs] at hfits
  change (doc.openId, doc.uid, q.user.id) ∈ s.db.keys at hfits
  obtain ⟨hdb, hnew⟩ := Db.insertAccount_some hi
  have hkeys : db.keys = s.db.keys := by rw [hdb]; rfl
  have hacc : db.accounts = s.db.accounts ++ [⟨doc.openId, doc.uid⟩] := by rw [hdb]
  have hown : s.Awaits l doc.openId := ⟨q, hl, by rw [Login.Awaits, hs]⟩
  have haw : ∀ l' o, (s.put l db { q with stage := .setTokens doc }).Awaits l' o ↔
      l' ≠ l ∧ s.Awaits l' o := fun l' o => awaits_put_gone fun o ha => ha
  constructor
  · exact h.keyed.insertAccount hi ⟨_, hfits, rfl, rfl⟩
  · refine put_fits h (fun k hk => hkeys.symm ▸ hk) ?_
    change (doc.openId, doc.uid, q.user.id) ∈ db.keys
    rw [hkeys]
    exact hfits
  · intro l' o ho a ha
    obtain ⟨hne, ho⟩ := (haw l' o).mp ho
    change a ∈ db.accounts at ha
    rw [hacc] at ha
    rcases List.mem_append.mp ha with hin | hlast
    · exact h.awaited l' o ho a hin
    · rw [List.mem_singleton.mp hlast]
      intro he
      change doc.openId = o at he
      rw [← he] at ho
      exact hne (h.alone l' l doc.openId ho hown)
  · intro l₁ l₂ o h₁ h₂
    exact h.alone l₁ l₂ o ((haw l₁ o).mp h₁).2 ((haw l₂ o).mp h₂).2
  · intro k hk
    change k ∈ db.keys at hk
    rw [hkeys] at hk
    rcases h.paired k hk with hhas | horph | ⟨l', ha⟩
    · obtain ⟨a, ham, he⟩ := hhas
      exact Or.inl ⟨a, hacc.symm ▸ List.mem_append_left _ ham, he⟩
    · exact Or.inr (Or.inl horph)
    · by_cases hne : l' = l
      · subst hne
        obtain ⟨q', hq', ha⟩ := ha
        rw [hl] at hq'
        cases hq'
        rw [Login.Awaits, hs] at ha
        have hkey : (doc.openId, doc.uid, q.user.id) = k := h.keyed.eq_of_openId hfits hk ha
        rw [← hkey]
        exact Or.inl ⟨_, hacc.symm ▸ List.mem_append_right _ (List.mem_singleton.mpr rfl), rfl, rfl⟩
      · exact Or.inr (Or.inr ⟨l', (haw l' k.1).mpr ⟨hne, ha⟩⟩)
  · intro o ho
    obtain ⟨hno, hfree⟩ := h.lost o ho
    constructor
    · intro a ha
      change a ∈ db.accounts at ha
      rw [hacc] at ha
      rcases List.mem_append.mp ha with hin | hlast
      · exact hno a hin
      · rw [List.mem_singleton.mp hlast]
        intro he
        change doc.openId = o at he
        rw [he] at hown
        exact hfree l hown
    · intro l' ha
      exact hfree l' ((haw l' o).mp ha).2
  · exact put_blamed h (fun k hk => hkeys.symm ▸ hk) (follows_of hl rfl id)

theorem Sound.account_failed (h : s.Sound) (hl : s.logins l = some q) {i : Nat} {doc : Guest}
    (hs : q.stage = .insertAccount i doc) :
    { s.put l s.db { q with stage := .done (.threw false), broken := true } with
      orphans := s.orphans ++ [doc.openId] }.Sound := by
  have hfits := h.fits l q hl
  rw [Login.Fits, hs] at hfits
  change (doc.openId, doc.uid, q.user.id) ∈ s.db.keys at hfits
  have hown : s.Awaits l doc.openId := ⟨q, hl, by rw [Login.Awaits, hs]⟩
  have haw : ∀ l' o, (s.put l s.db { q with stage := .done (.threw false), broken := true }).Awaits l' o ↔
      l' ≠ l ∧ s.Awaits l' o := fun l' o => awaits_put_gone fun o ha => ha
  have hfol : s.Follows l { q with stage := .done (.threw false), broken := true } :=
    follows_of hl rfl fun _ => rfl
  constructor
  · exact h.keyed
  · exact put_fits h (fun k hk => hk) rfl
  · intro l' o ho a ha
    exact h.awaited l' o ((haw l' o).mp ho).2 a ha
  · intro l₁ l₂ o h₁ h₂
    exact h.alone l₁ l₂ o ((haw l₁ o).mp h₁).2 ((haw l₂ o).mp h₂).2
  · intro k hk
    rcases h.paired k hk with hhas | horph | ⟨l', ha⟩
    · exact Or.inl hhas
    · exact Or.inr (Or.inl (List.mem_append_left _ horph))
    · by_cases hne : l' = l
      · subst hne
        obtain ⟨q', hq', ha⟩ := ha
        rw [hl] at hq'
        cases hq'
        rw [Login.Awaits, hs] at ha
        exact Or.inr (Or.inl (List.mem_append_right _ (List.mem_singleton.mpr ha.symm)))
      · exact Or.inr (Or.inr ⟨l', (haw l' k.1).mpr ⟨hne, ha⟩⟩)
  · intro o ho
    rcases List.mem_append.mp ho with hin | hlast
    · obtain ⟨hno, hfree⟩ := h.lost o hin
      exact ⟨hno, fun l' ha => hfree l' ((haw l' o).mp ha).2⟩
    · rw [List.mem_singleton.mp hlast]
      refine ⟨h.awaited l doc.openId hown, fun l' ha => ?_⟩
      obtain ⟨hne, ha⟩ := (haw l' doc.openId).mp ha
      exact hne (h.alone l' l doc.openId ha hown)
  · intro o ho
    rcases List.mem_append.mp ho with hin | hlast
    · exact put_blamed h (fun k hk => hk) hfol o hin
    · rw [List.mem_singleton.mp hlast]
      exact ⟨_, hfits, rfl, l, _, @put_self s l _ s.db, rfl, rfl⟩

theorem Sound.of_stage (h : s.Sound) (hl : s.logins l = some q) {g : Stage}
    (hk : db.keys = s.db.keys) (ha : db.accounts = s.db.accounts) (hq : ∀ o, ¬ q.Awaits o)
    {r : Nat} (hg : ∀ o, ¬ Login.Awaits ⟨q.user, g, q.broken, r⟩ o)
    (hf : Login.Fits db ⟨q.user, g, q.broken, r⟩) :
    (s.put l db ⟨q.user, g, q.broken, r⟩).Sound :=
  h.moved hk ha (not_awaits_of hl hq) hg hf (follows_of hl rfl id)

theorem Sound.advance (h : s.Sound) (hl : s.logins l = some q) (env : Env) :
    (s.advance l q env).Sound := by
  have hfits := h.fits l q hl
  obtain ⟨user, stage, broken, refused⟩ := q
  cases stage with
  | findByDcId =>
    rw [Sys.advance]
    cases hfind : s.db.findByDcId user.id with
    | some g =>
      exact h.of_stage hl rfl rfl (fun _ => id) (fun _ => id) (Db.keys_of_findByDcId hfind)
    | none =>
      exact h.of_stage hl rfl rfl (fun _ => id) (fun _ => id) ⟨hfits, by decide⟩
  | updateDiscordFields g =>
    have hkeys : (s.db.updateDiscordFields g.openId user.username user.email).keys = s.db.keys :=
      Db.keys_updateGuest fun _ => rfl
    change (s.put l _ ⟨user, if g.renovation then _ else _, broken, refused⟩).Sound
    split
    · exact h.of_stage hl hkeys rfl (fun _ => id) (fun _ => id) trivial
    · refine h.of_stage hl hkeys rfl (fun _ => id) (fun _ => id) ?_
      change (g.openId, g.uid, user.id) ∈ Db.keys _
      rw [hkeys]
      exact hfits
  | nextUid i => exact h.of_stage hl rfl rfl (fun _ => id) (fun _ => id) ⟨rfl, hfits⟩
  | insertUser i doc =>
    obtain ⟨hdc, hr, hi⟩ := hfits
    simp only [Sys.advance]
    cases hins : s.db.insertUser doc with
    | some db => exact h.guest_inserted hl rfl hins
    | none =>
      change (s.put l s.db ⟨user, retry i, broken, refused + 1⟩).Sound
      change refused = i at hr
      unfold retry
      split
      · rename_i hlt
        exact h.of_stage hl rfl rfl (fun _ => id) (fun _ => id) ⟨by rw [hr], hlt⟩
      · refine h.of_stage hl rfl rfl (fun _ => id) (fun _ => id) ?_
        change refused + 1 = attempts
        omega
  | insertAccount i doc =>
    simp only [Sys.advance]
    cases hins : s.db.insertAccount ⟨doc.openId, doc.uid⟩ with
    | some db => exact h.account_inserted hl rfl hins
    | none =>
      -- The guests row is this login's own, so no accounts row has its open_id.
      obtain ⟨a, ha, he⟩ := Db.insertAccount_none hins
      exact absurd he (h.awaited l doc.openId ⟨_, hl, rfl⟩ a ha)
  | setTokens u =>
    have hkeys : (s.db.setTokens u.openId env.tokens).keys = s.db.keys :=
      Db.keys_updateGuest fun _ => rfl
    refine h.of_stage hl hkeys rfl (fun _ => id) (fun _ => id) ?_
    change (u.openId, u.uid, user.id) ∈ Db.keys _
    rw [hkeys]
    exact hfits
  | done r => exact h

theorem Sound.fail (h : s.Sound) (hl : s.logins l = some q) : (s.fail l q).Sound := by
  obtain ⟨user, stage, broken, refused⟩ := q
  have hmoved (hq : ∀ o, ¬ Login.Awaits ⟨user, stage, broken, refused⟩ o) :
      (s.put l s.db ⟨user, .done (.threw false), true, refused⟩).Sound :=
    h.moved rfl rfl (not_awaits_of hl hq) (fun _ => id) rfl (follows_of hl rfl fun _ => rfl)
  cases stage with
  | insertAccount i doc => exact h.account_failed hl rfl
  | done r => exact h
  | _ => exact hmoved fun _ => id

theorem Sound.step (h : s.Sound) (e : LoginEvent) : (s.step e).Sound := by
  cases e with
  | call l user =>
    rw [Sys.step]
    cases hl : s.logins l with
    | some q => exact h
    | none =>
      refine h.moved rfl rfl ?_ (fun _ => id) rfl ?_
      · rintro o ⟨q, hq, -⟩
        rw [hl] at hq
        cases hq
      · intro q hq
        rw [hl] at hq
        cases hq
  | statement l env =>
    rw [Sys.step]
    cases hl : s.logins l with
    | none => exact h
    | some q =>
      change (if env.fails then s.fail l q else s.advance l q env).Sound
      split
      · exact h.fail hl
      · exact h.advance hl env

theorem Sound.run (h : s.Sound) (es : List LoginEvent) : (s.run es).Sound := by
  induction es generalizing s with
  | nil => exact h
  | cons e es ih => exact ih (h.step e)

theorem sound_start (hk : db.Keyed) (hp : ∀ g ∈ db.guests, (db.accountsOf g).length = 1) :
    (start db).Sound := by
  have hno : ∀ l o, ¬ (start db).Awaits l o := by
    rintro l o ⟨q, hq, -⟩
    cases hq
  constructor
  · exact hk
  · intro l q hq
    cases hq
  · intro l o ho
    exact absurd ho (hno l o)
  · intro l l' o ho
    exact absurd ho (hno l o)
  · intro k hkm
    obtain ⟨g, hg, rfl⟩ := List.mem_map.mp hkm
    exact Or.inl (Db.hasAccount_of_length (hp g hg))
  · intro o ho
    cases ho
  · intro o ho
    cases ho

theorem Sound.guests_nodup (h : s.Sound) : (s.db.guests.map Guest.openId).Nodup ∧
    (s.db.guests.map Guest.uid).Nodup ∧ (s.db.guests.map Guest.dcId).Nodup := by
  have hcol {α : Type} (f : Text × Nat × Text → α) :
      s.db.keys.map f = s.db.guests.map fun g => f g.key := by
    rw [Db.keys, List.map_map]
    rfl
  refine ⟨?_, ?_, ?_⟩
  · have hnd := h.keyed.openIds
    rwa [hcol] at hnd
  · have hnd := h.keyed.uids
    rwa [hcol] at hnd
  · have hnd := h.keyed.dcIds
    rwa [hcol] at hnd

theorem Quiet.not_awaits (hq : s.Quiet) : ∀ l o, ¬ s.Awaits l o := by
  rintro l o ⟨q, hl, ha⟩
  obtain ⟨r, hr⟩ := hq l q hl
  rw [Login.Awaits, hr] at ha
  exact ha

theorem Sound.ok_key (h : s.Sound) {uid : Nat} {t : TokenSet} (hl : s.logins l = some q)
    (hr : q.stage = .done (.ok uid o t)) : (o, uid, q.user.id) ∈ s.db.keys := by
  have hfits := h.fits l q hl
  rw [Login.Fits, hr] at hfits
  exact hfits

def Told (s : Sys) (q : Login) : Result → Prop
  | .ok uid openId _ => ∃ g ∈ s.db.guests, g.dcId = q.user.id ∧ g.uid = uid ∧ g.openId = openId
  | .renovation => True
  | .threw true => q.refused = attempts
  | .threw false => q.broken = true

theorem Sound.told (h : s.Sound) (hl : s.logins l = some q) {r : Result}
    (hr : q.stage = .done r) : s.Told q r := by
  have hfits := h.fits l q hl
  rw [Login.Fits, hr] at hfits
  cases r with
  | ok uid openId t =>
    obtain ⟨g, hg, hkey⟩ := List.mem_map.mp (h.ok_key hl hr)
    have hopen : g.openId = openId := congrArg (fun k => k.1) hkey
    have huid : g.uid = uid := congrArg (fun k => k.2.1) hkey
    have hdc : g.dcId = q.user.id := congrArg (fun k => k.2.2) hkey
    exact ⟨g, hg, hdc, huid, hopen⟩
  | renovation => trivial
  | threw dup => cases dup <;> exact hfits

end Sys

theorem provisioning_consistent (db : Db) (hk : db.Keyed)
    (hp : ∀ g ∈ db.guests, (db.accountsOf g).length = 1) (es : List LoginEvent) :
    let s := (Sys.start db).run es
    ((s.db.guests.map Guest.openId).Nodup ∧ (s.db.guests.map Guest.uid).Nodup ∧
      (s.db.guests.map Guest.dcId).Nodup ∧ (s.db.accounts.map Account.openId).Nodup ∧
      (s.db.accounts.map Account.uid).Nodup) ∧
    (s.Quiet → ∀ g ∈ s.db.guests, g.openId ∉ s.orphans → (s.db.accountsOf g).length = 1) ∧
    (∀ g ∈ s.db.guests, g.openId ∈ s.orphans → (∀ a ∈ s.db.accounts, a.openId ≠ g.openId) ∧
      ∃ l q, s.logins l = some q ∧ q.user.id = g.dcId ∧ q.broken = true) ∧
    (∀ l q r, s.logins l = some q → q.stage = .done r → s.Told q r) ∧
    ∀ l l' q q' uid uid' openId openId' t t', s.logins l = some q → s.logins l' = some q' →
      q.stage = .done (.ok uid openId t) → q'.stage = .done (.ok uid' openId' t') →
      q.user.id = q'.user.id → uid = uid' ∧ openId = openId' := by
  intro s
  have h : s.Sound := (Sys.sound_start hk hp).run es
  obtain ⟨hopen, huid, hdc⟩ := h.guests_nodup
  refine ⟨⟨hopen, huid, hdc, h.keyed.accounts, h.keyed.account_uids⟩, ?_, ?_, ?_, ?_⟩
  · intro hquiet g hg hno
    have hmem : g.key ∈ s.db.keys := List.mem_map_of_mem hg
    rcases h.paired g.key hmem with hhas | horph | ⟨l, ha⟩
    · exact h.keyed.accountsOf_length hhas
    · exact absurd horph hno
    · exact absurd ha (hquiet.not_awaits l g.key.1)
  · intro g hg ho
    have hmem : g.key ∈ s.db.keys := List.mem_map_of_mem hg
    obtain ⟨k, hkm, hko, l, q, hl, hu, hb⟩ := h.blamed g.openId ho
    have hkey : k = g.key := h.keyed.eq_of_openId hkm hmem hko
    rw [hkey] at hu
    exact ⟨(h.lost g.openId ho).1, l, q, hl, hu, hb⟩
  · intro l q r hl hr
    exact h.told hl hr
  · intro l l' q q' uid uid' openId openId' t t' hl hl' hr hr' hu
    have hkey := h.ok_key hl hr
    have hkey' := h.ok_key hl' hr'
    rw [← hu] at hkey'
    have heq := h.keyed.eq_of_dcId hkey hkey' rfl
    exact ⟨congrArg (fun k => k.2.1) heq, congrArg (fun k => k.1) heq⟩

def alice : DiscordUser := ⟨[97], [97], none⟩

def bob : DiscordUser := ⟨[98], [98], none⟩

def noTokens : TokenSet := ⟨[], [], 0, 0, 0⟩

def statements (l : Nat) (openId : Text) (n : Nat) : List LoginEvent :=
  List.replicate n (.statement l ⟨false, openId, noTokens⟩)

-- Two first logins that draw the same uid; the second draws again.
def sameUid : List LoginEvent :=
  [.call 0 alice, .call 1 bob] ++ statements 0 [1] 2 ++ statements 1 [2] 2 ++
    statements 0 [1] 3 ++ statements 1 [3] 5

theorem provisioning_consistent_same_uid :
    let s := (Sys.start ⟨[], []⟩).run sameUid
    s.db.guests.map Guest.uid = [10000001, 10000002] ∧
      ∀ g ∈ s.db.guests, (s.db.accountsOf g).length = 1 := by
  have hk : Db.Keyed ⟨[], []⟩ := ⟨List.nodup_nil, List.nodup_nil, List.nodup_nil, List.nodup_nil,
    fun _ h => (nomatch h)⟩
  obtain ⟨-, hall, -⟩ := provisioning_consistent ⟨[], []⟩ hk (fun _ h => (nomatch h)) sameUid
  refine ⟨by decide, fun g hg => hall ?_ g hg (List.not_mem_nil)⟩
  intro l q hl
  match l with
  | 0 => cases hl; exact ⟨_, rfl⟩
  | 1 => cases hl; exact ⟨_, rfl⟩
  | l + 2 => cases hl

-- Alice's accounts insert fails.
def orphaned : List LoginEvent :=
  .call 0 alice :: statements 0 [1] 3 ++ [.statement 0 ⟨true, [1], noTokens⟩]

-- Two first logins of alice look her up before either inserts.
def raced : List LoginEvent :=
  [.call 0 alice, .call 1 alice] ++ statements 1 [2] 1 ++ statements 0 [1] 5 ++ statements 1 [2] 10

theorem orphaned_and_refused :
    (let s := (Sys.start ⟨[], []⟩).run orphaned
     s.Quiet ∧ ∃ g ∈ s.db.guests, s.db.accountsOf g = []) ∧
    let s := (Sys.start ⟨[], []⟩).run raced
    s.Quiet ∧
      (∃ q t, s.logins 0 = some q ∧ q.user = alice ∧ q.stage = .done (.ok 10000001 [1] t)) ∧
      ∃ q, s.logins 1 = some q ∧ q.user = alice ∧ q.broken = false ∧
        q.stage = .done (.threw true) := by
  refine ⟨⟨?_, ?_⟩, ?_, ?_, ?_⟩
  · intro l q hl
    match l with
    | 0 => cases hl; exact ⟨_, rfl⟩
    | l + 1 => cases hl
  · exact ⟨_, List.mem_singleton.mpr rfl, rfl⟩
  · intro l q hl
    match l with
    | 0 => cases hl; exact ⟨_, rfl⟩
    | 1 => cases hl; exact ⟨_, rfl⟩
    | l + 2 => cases hl
  · exact ⟨_, _, rfl, rfl, rfl⟩
  · exact ⟨_, rfl, rfl, rfl, rfl⟩

end Auth

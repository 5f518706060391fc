import Madoka.Friends.Repo
import Madoka.Repo.Interface

namespace Repo.Postgres

open Account

variable {ω : Type}

structure Db (ω : Type) where
  store : Store ω
  tables : Friends.Tables

def noDb : Db ω := ⟨noAccounts, Friends.noTables⟩

def Db.onTables (db : Db ω) (t : Option Friends.Tables) : Reply ω × Db ω :=
  match t with
  | none => (.thrown, db)
  | some t => (.done, { db with tables := t })

section

variable [DecidableEq ω] (others : ω)

-- An empty state counts as no document: the default player takes its place.
def rowToAccount : Nat → Row (Body ω) → Document ω :=
  Account.rowToAccount (defaultBody others)

-- rows[0] of a SELECT without ORDER BY: any of the rows, here the one `pick` falls on.
def getByToken (s : Store ω) (pick : Nat) (token : String) : Option (Document ω) :=
  if token = "" then none
  else
    let rows := s.idsWhere fun row => row.token = some token
    rows[pick % rows.length]?.bind (s.getById (rowToAccount others))

-- `takes` says which calls have values that the column types take: a text without a NUL, a number
-- in range. The statement throws on any other.
def handle (takes : Call ω → Bool) (now : Int) (pick : Nat) (db : Db ω) (call : Call ω) :
    Reply ω × Db ω :=
  if takes call = false then (.thrown, db)
  else
    match call with
    | .createFromLogin req =>
      (.account (some (db.store.createFromLogin (rowToAccount others) others now req).1),
        { db with store := (db.store.createFromLogin (rowToAccount others) others now req).2 })
    | .getById uid => (.account (db.store.getById (rowToAccount others) uid), db)
    | .getByOpenId openId => (.account (db.store.getByOpenId (rowToAccount others) openId), db)
    | .getByToken token => (.account (getByToken others db.store pick token), db)
    | .getByIds ids =>
      (.accounts ((db.store.ids.filter (· ∈ ids)).filterMap (db.store.getById (rowToAccount others))), db)
    | .save acc =>
      if acc.uid.getD 0 = 0 then (.thrown, db)
      else (.account (some (stored now acc)), { db with store := db.store.update now acc })
    | .addRequest target fro => db.onTables (Friends.addRequest db.store.known db.tables target fro)
    | .removeRequest target fro => db.onTables (some (Friends.removeRequest db.tables target fro))
    | .addFriendship a b => db.onTables (Friends.addFriendship db.store.known db.tables a b)
    | .removeFriendship a b => db.onTables (some (Friends.removeFriendship db.tables a b))
    | .getFriendIds uid => (.ids (Friends.getFriendIds db.tables uid), db)
    | .getRequestIds uid => (.ids (Friends.getRequestIds db.tables uid), db)

end

end Repo.Postgres

import Madoka.Account.Lobby
import Madoka.Settlement.Worker

namespace Settlement

open Account

structure Money where
  coins : Int
  gems : Int
  deriving DecidableEq, Repr

def handleGetLoginData (acc : Player) : Money :=
  ⟨coinsOf acc, acc.body.gems.getD 0⟩

def handleGetWallet (acc : Player) : Money :=
  let wallet := acc.body.wallet.getD ⟨none, none⟩
  { coins := match wallet.coins with
      | some coins => coins
      | none => coinsOf acc
    gems := match wallet.gems with
      | some gems => gems
      | none => acc.body.gems.getD 0 }

def handleGetBackpack (acc : Player) : Money :=
  let wallet := acc.body.wallet.getD ⟨some (coinsOf acc), some (acc.body.gems.getD 0)⟩
  ⟨wallet.coins.getD 0, wallet.gems.getD 0⟩

def handlePurchase (itemId cnt : Nat) (acc : Player) : Money × Option Player :=
  (⟨coinsOf acc, acc.body.gems.getD 0⟩, Lobby.handlePurchase acc itemId cnt)

def OneBalance (acc : Player) : Prop :=
  ∀ itemId cnt,
    (handleGetLoginData acc).coins = (handleGetWallet acc).coins ∧
      (handleGetLoginData acc).coins = (handleGetBackpack acc).coins ∧
      (handlePurchase itemId cnt acc).1.coins = (handleGetWallet acc).coins ∧
      (handlePurchase itemId cnt acc).1.coins = (handleGetBackpack acc).coins

-- What saves the document of an account besides createFromLogin: an endpoint of the lobby, a login
-- of a known account, a command of the admin console.
inductive Request where
  | endpoint (req : LobbyRequest)
  | majorLogin (req : LoginReq) (newToken : String) (nowSecs : Int) (enforceBans authBanned : Bool)
  | setNickname (name : String)
  | setRole (role : Int)
  | ban (reason : String)
  | unban
  deriving DecidableEq, Repr

def withNickname (name : String) (acc : Player) : Option Player :=
  if name.toList.all isBlank then none else some { acc with nickname := some name }

def Request.change (uid : Nat) : Request → Player → Option Player
  | .endpoint req, acc => Lobby.handle acc req
  | .majorLogin req newToken nowSecs enforceBans authBanned, acc =>
    (Op.majorLogin req newToken nowSecs enforceBans authBanned).change acc
  | .setNickname name, acc => withNickname name acc
  | .setRole role, acc => (Op.setRole uid role).change acc
  | .ban reason, acc => (Op.ban uid reason).change acc
  | .unban, acc => (Op.unban uid).change acc

theorem sameMoney_change {uid : Nat} {r : Request} {acc acc' : Player}
    (h : r.change uid acc = some acc') : SameMoney acc acc' := by
  cases r with
  | endpoint req => exact sameMoney_handle h
  | majorLogin req newToken nowSecs enforceBans authBanned =>
    simp only [Request.change, Op.change, Option.ite_none_left_eq_some] at h
    obtain ⟨-, h⟩ := h
    cases h
    exact ⟨rfl, rfl, rfl, rfl⟩
  | setNickname name =>
    simp only [Request.change, withNickname, Option.ite_none_left_eq_some] at h
    obtain ⟨-, h⟩ := h
    cases h
    exact ⟨rfl, rfl, rfl, rfl⟩
  | unban =>
    simp only [Request.change, Op.change, Option.ite_none_right_eq_some] at h
    obtain ⟨-, h⟩ := h
    cases h
    exact ⟨rfl, rfl, rfl, rfl⟩
  | _ =>
    cases h
    exact ⟨rfl, rfl, rfl, rfl⟩

structure Ledger where
  store : Store LobbyKeys
  matchResults : List (Key × LedgerRow)

def noLedger : Ledger := ⟨noAccounts, []⟩

-- settleMatchResult from BEGIN to COMMIT or ROLLBACK, with nothing else in between.
def settleMatchResult (s : Ledger) (matchId : String) (pr : PlayerResult) (now : Int) : Ledger :=
  if s.matchResults.any fun e => e.1 = (matchId, pr.accountId) then s
  else
    match s.store.accounts pr.accountId with
    | none => s
    | some row =>
      let rows := s.matchResults ++ [((matchId, pr.accountId), rowOf pr now)]
      if orZero pr.coins ≤ 0 then { s with matchResults := rows }
      else
        match creditCoins row.state (orZero pr.coins) with
        | none => s
        | some state =>
          { store := { s.store with
              accounts := Function.update s.store.accounts pr.accountId (some { row with state := state }) }
            matchResults := rows }

inductive Turn where
  | login (req : LoginObj) (now : Int)
  | request (uid : Nat) (r : Request) (now : Int)
  | settle (matchId : String) (pr : PlayerResult) (now : Int)

section

variable (others : LobbyKeys)

def view : Nat → Row (Body LobbyKeys) → Player := rowToAccount (defaultBody others)

def handleRequest (s : Ledger) (uid : Nat) (r : Request) (now : Int) : Ledger :=
  match (s.store.getById (view others) uid).bind (r.change uid) with
  | none => s
  | some acc => { s with store := s.store.update now acc }

def turn (s : Ledger) : Turn → Ledger
  | .login req now => { s with store := (s.store.createFromLogin (view others) others now req).2 }
  | .request uid r now => handleRequest others s uid r now
  | .settle matchId pr now => settleMatchResult s matchId pr now

def runTurns (s : Ledger) (turns : List (Turn)) : Ledger :=
  turns.foldl (turn others) s

end

-- The turn is a fresh settlement that pays the account coins.
def Credits (s : Ledger) (uid : Nat) : Turn → Prop
  | .settle matchId pr _ =>
    pr.accountId = uid ∧ (∀ e ∈ s.matchResults, e.1 ≠ (matchId, uid)) ∧ 0 < orZero pr.coins ∧
      ∃ row, s.store.accounts uid = some row ∧ int64 (coinsOf row.state + orZero pr.coins) = true
  | _ => False

structure Funded (row : Row (Body LobbyKeys)) : Prop where
  coins : ∃ n, row.state.coins = some (.int n) ∧ int64 n = true ∧ 999999 ≤ n
  wallet : row.state.body.wallet = some ⟨some 999999, some 999999⟩

structure Sound (s : Ledger) : Prop where
  numbered : s.store.Numbered
  funded : ∀ uid row, s.store.accounts uid = some row → Funded row

section

variable {others : LobbyKeys} {s : Ledger} {uid : Nat} {row row' : Row (Body LobbyKeys)} {now : Int}
  {acc : Player} {t : Turn}

theorem view_coins (h : Funded row) : (view others uid row).coins = row.state.coins := by
  obtain ⟨n, hn, -, -⟩ := h.coins
  have hne : row.state ≠ Doc.empty := by
    intro he
    rw [he] at hn
    cases hn
  simp [view, rowToAccount, hne]

theorem view_body (h : Funded row) : (view others uid row).body = row.state.body := by
  obtain ⟨n, hn, -, -⟩ := h.coins
  have hne : row.state ≠ Doc.empty := by
    intro he
    rw [he] at hn
    cases hn
  simp [view, rowToAccount, hne, Doc.body]

theorem oneBalance_view (h : Funded row) : OneBalance (view others uid row) ↔ coinsOf row.state = 999999 := by
  obtain ⟨n, hn, -, -⟩ := h.coins
  have hview : coinsOf (view others uid row) = coinsOf row.state := by
    rw [coinsOf, view_coins h]
    rfl
  simp [OneBalance, handleGetLoginData, handleGetWallet, handleGetBackpack, handlePurchase, hview,
    view_body h, h.wallet]

inductive Moves (s : Ledger) (uid : Nat) (t : Turn) (row' : Row (Body LobbyKeys)) : Prop where
  | opened (before : s.store.accounts uid = none) (coins : row'.state.coins = some (.int 999999))
      (wallet : row'.state.body.wallet = some ⟨some 999999, some 999999⟩)
  | kept (row : Row (Body LobbyKeys)) (before : s.store.accounts uid = some row) (uncredited : ¬ Credits s uid t)
      (coins : row'.state.coins = row.state.coins) (wallet : row'.state.body.wallet = row.state.body.wallet)
  | credited (row : Row (Body LobbyKeys)) (before : s.store.accounts uid = some row) (credits : Credits s uid t) (n : Int)
      (pays : 0 < n) (fits : int64 (coinsOf row.state + n) = true)
      (coins : row'.state.coins = some (.int (coinsOf row.state + n)))
      (wallet : row'.state.body.wallet = row.state.body.wallet)

theorem moves_update (hid : acc.uid = some uid → ∃ row, s.store.accounts uid = some row ∧
      acc.coins = row.state.coins ∧ acc.body.wallet = row.state.body.wallet)
    (ht : ¬ Credits s uid t) (h : (s.store.update now acc).accounts uid = some row') : Moves s uid t row' := by
  rw [accounts_update] at h
  split at h
  · rename_i hacc
    obtain ⟨row, hrow, hcoins, hwallet⟩ := hid hacc
    rw [hrow] at h
    cases h
    exact .kept row hrow ht hcoins hwallet
  · exact .kept row' h ht rfl rfl

theorem moves_login (hs : Sound s) {req : LoginObj}
    (h : (s.store.createFromLogin (view others) others now req).2.accounts uid = some row') :
    Moves s uid (.login req now) row' := by
  unfold Store.createFromLogin at h
  cases hfound : s.store.getByOpenId (view others) (deriveOpenId req) with
  | some acc =>
    obtain ⟨id, row, hrow, rfl⟩ := getByOpenId_eq_some hfound
    have hfunded := hs.funded id row hrow
    rw [hfound] at h
    refine moves_update (fun hid => ?_) (fun hc => hc) h
    cases hid
    refine ⟨row, hrow, @view_coins others uid _ hfunded, ?_⟩
    rw [← @view_body others uid _ hfunded]
    rfl
  | none =>
    rw [hfound] at h
    dsimp only at h
    rw [accounts_created] at h
    split at h
    · rename_i hid
      cases h
      exact .opened (hid ▸ hs.numbered.fresh) rfl rfl
    · exact .kept row' h (fun hc => hc) rfl rfl

theorem moves_request (hs : Sound s) {id : Nat} {r : Request}
    (h : (handleRequest others s id r now).store.accounts uid = some row') :
    Moves s uid (.request id r now) row' := by
  unfold handleRequest at h
  cases hacc : (s.store.getById (view others) id).bind (r.change id) with
  | none =>
    rw [hacc] at h
    exact .kept row' h (fun hc => hc) rfl rfl
  | some acc =>
    rw [hacc] at h
    obtain ⟨before, hbefore, hchange⟩ := Option.bind_eq_some_iff.mp hacc
    obtain ⟨row, hrow, rfl⟩ := getById_eq_some hbefore
    have hfunded := hs.funded id row hrow
    refine moves_update (fun hid => ?_) (fun hc => hc) h
    have huid : (view others id row).uid = some id := rfl
    have hsame := sameMoney_change hchange
    rw [hsame.uid, huid] at hid
    cases hid
    refine ⟨row, hrow, ?_, ?_⟩
    · rw [hsame.coins, view_coins hfunded]
    · rw [hsame.wallet, view_body hfunded]

theorem creditCoins_of_fits (h : Funded row) {n : Int} (hfits : int64 (coinsOf row.state + n) = true) :
    ∃ state, creditCoins row.state n = some state := by
  obtain ⟨c, hc, hc64, -⟩ := h.coins
  have hcoins : coinsOf row.state = c := by
    rw [coinsOf, hc]
  refine ⟨{ row.state with coins := some (.int (c + n)) }, ?_⟩
  rw [hcoins] at hfits
  simp [creditCoins, hc, bigint, hc64, hfits]

theorem fits_of_creditCoins {d d' : Player} {n : Int} (h : creditCoins d n = some d') :
    int64 (coinsOf d + n) = true := by
  unfold creditCoins at h
  obtain ⟨c, hc, h⟩ := Option.bind_eq_some_iff.mp h
  rw [bigint_coinsOf hc]
  split at h
  · assumption
  · cases h

theorem moves_settle (hs : Sound s) {matchId : String} {pr : PlayerResult}
    (h : (settleMatchResult s matchId pr now).store.accounts uid = some row') :
    Moves s uid (.settle matchId pr now) row' := by
  unfold settleMatchResult at h
  split at h
  · rename_i hdone
    refine .kept row' h (fun hc => ?_) rfl rfl
    obtain ⟨e, he, hkey⟩ := List.any_eq_true.mp hdone
    exact hc.2.1 e he (hc.1 ▸ of_decide_eq_true hkey)
  rename_i hnew
  split at h
  · rename_i hnone
    refine .kept row' h (fun hc => ?_) rfl rfl
    rw [hc.1, h] at hnone
    cases hnone
  rename_i row hrow
  dsimp only at h
  split at h
  · rename_i hpays
    exact .kept row' h (fun hc => absurd hc.2.2.1 (Int.not_lt.mpr hpays)) rfl rfl
  rename_i hpays
  split at h
  · rename_i hrange
    refine .kept row' h (fun hc => ?_) rfl rfl
    obtain ⟨hid, -, -, row₁, hrow₁, hfits⟩ := hc
    rw [← hid, hrow] at hrow₁
    cases hrow₁
    obtain ⟨state, hstate⟩ := creditCoins_of_fits (hs.funded _ row hrow) hfits
    rw [hstate] at hrange
    cases hrange
  · rename_i state hstate
    dsimp only at h
    by_cases hid : uid = pr.accountId
    · subst hid
      rw [Function.update_self] at h
      cases h
      refine .credited row hrow ⟨rfl, fun e he hkey => hnew ?_, Int.not_le.mp hpays, row, hrow, ?_⟩
        (orZero pr.coins) (Int.not_le.mp hpays) ?_ ?_ ?_
      · exact List.any_eq_true.mpr ⟨e, he, decide_eq_true hkey⟩
      · exact fits_of_creditCoins hstate
      · exact fits_of_creditCoins hstate
      · rw [creditCoins_some hstate]
      · rw [creditCoins_some hstate]
        rfl
    · rw [Function.update_of_ne hid] at h
      exact .kept row' h (fun hc => hid hc.1.symm) rfl rfl

theorem moves_turn (hs : Sound s) (h : (turn others s t).store.accounts uid = some row') :
    Moves s uid t row' := by
  cases t with
  | login req now => exact moves_login hs h
  | request id r now => exact moves_request hs h
  | settle matchId pr now => exact moves_settle hs h

theorem Moves.funded (hs : Sound s) (h : Moves s uid t row') : Funded row' := by
  cases h with
  | opened before coins wallet => exact ⟨⟨999999, coins, by decide, Int.le_refl _⟩, wallet⟩
  | kept row before uncredited coins wallet =>
    obtain ⟨hcoins, hwallet⟩ := hs.funded uid row before
    exact ⟨coins ▸ hcoins, wallet.trans hwallet⟩
  | credited row before credits n pays fits coins wallet =>
    obtain ⟨⟨c, hc, -, hlow⟩, hwallet⟩ := hs.funded uid row before
    have hcoins : coinsOf row.state = c := by
      rw [coinsOf, hc]
    refine ⟨⟨_, coins, fits, ?_⟩, wallet.trans hwallet⟩
    omega

theorem numbered_settle (h : s.store.Numbered) {matchId : String} {pr : PlayerResult} :
    (settleMatchResult s matchId pr now).store.Numbered := by
  unfold settleMatchResult
  split
  · exact h
  split
  · exact h
  rename_i row hrow
  dsimp only
  split
  · exact h
  split
  · exact h
  · refine ⟨h.first, fun uid hid => ?_⟩
    obtain ⟨row', hrow'⟩ := known_iff.mp hid
    by_cases heq : uid = pr.accountId
    · exact h.given uid (known_iff.mpr ⟨row, heq ▸ hrow⟩)
    · simp only [Function.update_of_ne heq] at hrow'
      exact h.given uid (known_iff.mpr ⟨row', hrow'⟩)

theorem sound_turn (hs : Sound s) : Sound (turn others s t) where
  numbered := by
    cases t with
    | login req now => exact numbered_createFromLogin hs.numbered
    | request id r now =>
      unfold turn handleRequest
      dsimp only
      split
      · exact hs.numbered
      · exact numbered_update hs.numbered
    | settle matchId pr now => exact numbered_settle hs.numbered
  funded := fun _ _ hrow => (moves_turn hs hrow).funded hs

theorem sound_noLedger : Sound (noLedger : Ledger) where
  numbered := numbered_noAccounts
  funded := fun _ _ h => by cases h

def Balanced (others : LobbyKeys) (s : Ledger) (uid : Nat) : Prop :=
  ∀ acc, s.store.getById (view others) uid = some acc → OneBalance acc

theorem balanced_iff (hs : Sound s) :
    Balanced others s uid ↔ ∀ row, s.store.accounts uid = some row → coinsOf row.state = 999999 := by
  constructor
  · intro h row hrow
    refine (@oneBalance_view others uid _ (hs.funded uid row hrow)).mp (h _ ?_)
    rw [Store.getById, if_neg (hs.numbered.pos hrow), hrow, Option.map_some]
  · intro h acc hacc
    obtain ⟨row, hrow, rfl⟩ := getById_eq_some hacc
    exact (oneBalance_view (hs.funded uid row hrow)).mpr (h row hrow)

theorem accounts_turn (h : s.store.accounts uid = some row) :
    ∃ row', (turn others s t).store.accounts uid = some row' := by
  cases t with
  | login req now =>
    simp only [turn, Store.createFromLogin]
    split
    · refine known_iff.mp ?_
      rw [known_update]
      exact known_iff.mpr ⟨row, h⟩
    · dsimp only
      rw [accounts_created]
      split
      · exact ⟨_, rfl⟩
      · exact ⟨row, h⟩
  | request id r now =>
    simp only [turn, handleRequest]
    split
    · exact ⟨row, h⟩
    · refine known_iff.mp ?_
      rw [known_update]
      exact known_iff.mpr ⟨row, h⟩
  | settle matchId pr now =>
    simp only [turn, settleMatchResult]
    split
    · exact ⟨row, h⟩
    split
    · exact ⟨row, h⟩
    split
    · exact ⟨row, h⟩
    split
    · exact ⟨row, h⟩
    · by_cases hid : uid = pr.accountId
      · exact ⟨_, by rw [hid]; exact Function.update_self ..⟩
      · exact ⟨row, by dsimp only; rw [Function.update_of_ne hid]; exact h⟩

theorem Credits.account (h : Credits s uid t) : ∃ row, s.store.accounts uid = some row := by
  cases t with
  | login req now => exact h.elim
  | request id r now => exact h.elim
  | settle matchId pr now =>
    obtain ⟨-, -, -, row, hrow, -⟩ := h
    exact ⟨row, hrow⟩

-- A balance at its first value has had no credit: a credit is positive, and none falls below it.
theorem Moves.uncredited (hs : Sound s) (h : Moves s uid t row') (hrow' : coinsOf row'.state = 999999) :
    ¬ Credits s uid t ∧ ∀ row, s.store.accounts uid = some row → coinsOf row.state = 999999 := by
  cases h with
  | opened before coins wallet =>
    refine ⟨fun hc => ?_, fun row hrow => ?_⟩
    · obtain ⟨row, hrow⟩ := hc.account
      rw [before] at hrow
      cases hrow
    · rw [before] at hrow
      cases hrow
  | kept row before uncredited coins wallet =>
    refine ⟨uncredited, fun row₁ hrow₁ => ?_⟩
    rw [before] at hrow₁
    cases hrow₁
    rw [coinsOf, coins] at hrow'
    exact hrow'
  | credited row before credits n pays fits coins wallet =>
    obtain ⟨⟨c, hc, -, hlow⟩, -⟩ := hs.funded uid row before
    have hcoins : coinsOf row.state = c := by
      rw [coinsOf, hc]
    rw [coinsOf, coins] at hrow'
    dsimp only at hrow'
    omega

theorem balanced_turn (hs : Sound s) :
    Balanced others (turn others s t) uid ↔ Balanced others s uid ∧ ¬ Credits s uid t := by
  rw [balanced_iff hs, balanced_iff (sound_turn hs)]
  constructor
  · intro h
    have hback : ∀ row, s.store.accounts uid = some row →
        ¬ Credits s uid t ∧ coinsOf row.state = 999999 := by
      intro row hrow
      obtain ⟨row', hrow'⟩ := @accounts_turn others _ _ _ t hrow
      obtain ⟨hfree, hcoins⟩ := (moves_turn hs hrow').uncredited hs (h row' hrow')
      exact ⟨hfree, hcoins row hrow⟩
    refine ⟨fun row hrow => (hback row hrow).2, fun hc => ?_⟩
    obtain ⟨row, hrow⟩ := hc.account
    exact (hback row hrow).1 hc
  · rintro ⟨h, hfree⟩ row' hrow'
    cases moves_turn hs hrow' with
    | opened before coins wallet =>
      rw [coinsOf, coins]
    | kept row before uncredited coins wallet =>
      rw [coinsOf, coins]
      exact h row before
    | credited row before credits n pays fits coins wallet => exact absurd credits hfree

-- No turn of the history is a fresh settlement that pays the account.
def CreditFree (others : LobbyKeys) (uid : Nat) : Ledger → List (Turn) → Prop
  | _, [] => True
  | s, t :: turns => ¬ Credits s uid t ∧ CreditFree others uid (turn others s t) turns

theorem balanced_runTurns (hs : Sound s) (turns : List (Turn)) :
    Balanced others (runTurns others s turns) uid ↔ Balanced others s uid ∧ CreditFree others uid s turns := by
  induction turns generalizing s with
  | nil => exact (and_iff_left trivial).symm
  | cons t turns ih =>
    have hrun : runTurns others s (t :: turns) = runTurns others (turn others s t) turns := rfl
    rw [hrun, ih (sound_turn hs), balanced_turn hs, CreditFree, and_assoc]

theorem one_balance (others : LobbyKeys) (turns : List (Turn)) (uid : Nat) :
    Balanced others (runTurns others noLedger turns) uid ↔ CreditFree others uid noLedger turns := by
  rw [balanced_runTurns sound_noLedger]
  refine and_iff_right fun acc hacc => ?_
  obtain ⟨row, hrow, -⟩ := getById_eq_some hacc
  cases hrow

end

def firstLogin : LoginObj :=
  ⟨some "open-id-1", some "4", some "foices", some "BR", some "pt", some "device-1", some "1.70.1"⟩

def matchReward : PlayerResult := ⟨10000001, some 100, some 3, some 1, some true, some 20, some 50⟩

-- One account, and one match it is paid 100 coins for.
theorem settled_balances_differ :
    ∃ acc, (runTurns defaultKeys noLedger [.login firstLogin 1700000000000,
        .settle "7" matchReward 1700000900000]).store.getById (view defaultKeys) 10000001 = some acc ∧
      (handleGetLoginData acc).coins = 1000099 ∧ (handlePurchase 0 1 acc).1.coins = 1000099 ∧
      (handleGetWallet acc).coins = 999999 ∧ (handleGetBackpack acc).coins = 999999 := by
  refine ⟨_, rfl, ?_, ?_, ?_, ?_⟩ <;> decide +kernel

end Settlement

import Madoka.Account.Store
import Madoka.Account.Wardrobe

namespace Account

structure Mail where
  mailId : Nat
  status : Int
  deriving DecidableEq, Repr

structure Clan where
  id : Nat
  name : Option String
  role : String
  rank : Nat
  points : Nat
  members : List Nat
  announcement : Option String
  slogan : Option String
  deriving DecidableEq, Repr

def noClan : Clan := ⟨0, none, "none", 0, 0, [], none, none⟩

-- The keys of a document that the lobby's endpoints alone read and write.
structure LobbyKeys where
  elitePass : Bool
  epBadgeCount : Nat
  showRank : Option Bool
  mails : List Mail
  clan : Option Clan
  wardrobe : Wardrobe
  deriving DecidableEq, Repr

-- DEFAULT_PLAYER
def defaultKeys : LobbyKeys := ⟨false, 0, none, [], some noClan, Wardrobe.initial⟩

def bareKeys : LobbyKeys := ⟨false, 0, none, [], none, Wardrobe.bare⟩

abbrev Player := Document LobbyKeys

-- The endpoints whose handler calls savePlayer.
inductive LobbyRequest where
  | wardrobe (req : Request)
  | purchase (storeItemId cnt : Nat)
  | epPurchase
  | epPurchaseBadge
  | epClaimBadge
  | createClan (clanName : String) (nowSecs : Nat)
  | quitClan
  | dismissClan (clanId : Nat)
  | modifyClanName (clanName : String)
  | modifyClanInfo (clanId : Nat) (announcement slogan : Option String)
  | removeClanMember (removeeId : Nat)
  | readMail (mailIds : List Nat) (status : Option Int)
  | chooseRegion (region : String)
  | setShowRank (showRank : Option Bool)
  | logout
  deriving DecidableEq, Repr

def DEFAULT_REGION : String := "BR"

namespace Doc

variable (acc : Player)

def keys : LobbyKeys := acc.body.others.getD bareKeys

def onKeys (f : LobbyKeys → LobbyKeys) : Player :=
  acc.onBody fun b => { b with others := some (f (b.others.getD bareKeys)) }

end Doc

-- What each handler leaves behind when it calls savePlayer.
namespace Lobby

variable (acc : Player)

def handleWardrobe (req : Request) : Option Player :=
  (acc.keys.wardrobe.handle req).2.map fun w => acc.onKeys fun k => { k with wardrobe := w }

-- An item of the store costs nothing.
def handlePurchase (storeItemId cnt : Nat) : Option Player :=
  if storeItemId = 0 then none
  else some (acc.onBody fun b => { b with backpack := some (b.backpack.getD [] ++ [⟨storeItemId, cnt⟩]) })

def handleEPPurchase : Option Player := some (acc.onKeys fun k => { k with elitePass := true })

def addBadges (n : Nat) : Option Player :=
  some (acc.onKeys fun k => { k with epBadgeCount := k.epBadgeCount + n })

def handleEPPurchaseBadge : Option Player := addBadges acc 9999

def handleEPClaimBadge : Option Player := addBadges acc 10

def setClan (clan : Clan) : Player := acc.onKeys fun k => { k with clan := some clan }

def handleCreateClan (clanName : String) (nowSecs : Nat) : Option Player :=
  some (setClan acc
    { id := nowSecs
      name := some (if clanName = "" then "Clan" else clanName)
      role := "captain"
      rank := 1
      points := 0
      members := [acc.uid.getD 0]
      announcement := none
      slogan := none })

def handleQuitClan : Option Player := some (setClan acc noClan)

def handleDismissClan (clanId : Nat) : Option Player := do
  let clan ← acc.keys.clan
  if clan.id ≠ 0 ∧ clan.id = clanId then some (setClan acc noClan) else none

def handleModifyClanName (clanName : String) : Option Player := do
  let clan ← acc.keys.clan
  if clan.id ≠ 0 ∧ clanName ≠ "" then some (setClan acc { clan with name := some clanName }) else none

def handleModifyClanInfo (clanId : Nat) (announcement slogan : Option String) : Option Player := do
  let clan ← acc.keys.clan
  if clan.id = clanId then
    some (setClan acc { clan with
      announcement := announcement.or clan.announcement
      slogan := slogan.or clan.slogan })
  else none

def handleRemoveClanMember (removeeId : Nat) : Option Player := do
  let clan ← acc.keys.clan
  let members := clan.members.filter (· ≠ removeeId)
  if removeeId ≠ 0 ∧ members.length ≠ clan.members.length then
    some (setClan acc { clan with members := members })
  else none

def handleReadMail (mailIds : List Nat) (status : Option Int) : Option Player :=
  if acc.keys.mails.any fun mail => mailIds.contains mail.mailId then
    some (acc.onKeys fun k => { k with
      mails := k.mails.map fun mail =>
        if mail.mailId ∈ mailIds then { mail with status := status.getD 1 } else mail })
  else none

def handleChooseRegion (region : String) : Option Player :=
  some (acc.onBody fun b => { b with region := some (if region = "" then DEFAULT_REGION else region) })

def handleSetShowRank (showRank : Option Bool) : Option Player :=
  some (acc.onKeys fun k => { k with showRank := some (showRank.getD true) })

def handleLogout : Option Player := some { acc with token := none, tokenCreatedAt := some 0 }

def handle : LobbyRequest → Option Player
  | .wardrobe req => handleWardrobe acc req
  | .purchase storeItemId cnt => handlePurchase acc storeItemId cnt
  | .epPurchase => handleEPPurchase acc
  | .epPurchaseBadge => handleEPPurchaseBadge acc
  | .epClaimBadge => handleEPClaimBadge acc
  | .createClan clanName nowSecs => handleCreateClan acc clanName nowSecs
  | .quitClan => handleQuitClan acc
  | .dismissClan clanId => handleDismissClan acc clanId
  | .modifyClanName clanName => handleModifyClanName acc clanName
  | .modifyClanInfo clanId announcement slogan => handleModifyClanInfo acc clanId announcement slogan
  | .removeClanMember removeeId => handleRemoveClanMember acc removeeId
  | .readMail mailIds status => handleReadMail acc mailIds status
  | .chooseRegion region => handleChooseRegion acc region
  | .setShowRank showRank => handleSetShowRank acc showRank
  | .logout => handleLogout acc

end Lobby

structure SameMoney (d d' : Player) : Prop where
  uid : d'.uid = d.uid
  coins : d'.coins = d.coins
  gems : d'.body.gems = d.body.gems
  wallet : d'.body.wallet = d.body.wallet

section

variable {acc acc' : Player}

theorem sameMoney_onKeys (f : LobbyKeys → LobbyKeys) : SameMoney acc (acc.onKeys f) := ⟨rfl, rfl, rfl, rfl⟩

theorem sameMoney_clan {p : Clan → Prop} [∀ clan, Decidable (p clan)] {f : Clan → Clan}
    (h : (acc.keys.clan.bind fun clan => if p clan then some (Lobby.setClan acc (f clan)) else none) =
      some acc') : SameMoney acc acc' := by
  obtain ⟨clan, -, hset⟩ := Option.bind_eq_some_iff.mp h
  rw [Option.ite_none_right_eq_some] at hset
  obtain ⟨-, hset⟩ := hset
  cases hset
  exact sameMoney_onKeys _

theorem sameMoney_handle {req : LobbyRequest} (h : Lobby.handle acc req = some acc') :
    SameMoney acc acc' := by
  cases req with
  | wardrobe req =>
    obtain ⟨w, -, rfl⟩ := Option.map_eq_some_iff.mp h
    exact sameMoney_onKeys _
  | purchase storeItemId cnt =>
    simp only [Lobby.handle, Lobby.handlePurchase, Option.ite_none_left_eq_some] at h
    obtain ⟨-, h⟩ := h
    cases h
    exact ⟨rfl, rfl, rfl, rfl⟩
  | dismissClan clanId => exact sameMoney_clan h
  | modifyClanName clanName => exact sameMoney_clan h
  | modifyClanInfo clanId announcement slogan => exact sameMoney_clan h
  | removeClanMember removeeId => exact sameMoney_clan h
  | readMail mailIds status =>
    simp only [Lobby.handle, Lobby.handleReadMail, Option.ite_none_right_eq_some] at h
    obtain ⟨-, h⟩ := h
    cases h
    exact sameMoney_onKeys _
  | chooseRegion region =>
    cases h
    exact ⟨rfl, rfl, rfl, rfl⟩
  | logout =>
    cases h
    exact ⟨rfl, rfl, rfl, rfl⟩
  | _ =>
    cases h
    exact sameMoney_onKeys _

end

end Account

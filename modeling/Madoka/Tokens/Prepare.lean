import Madoka.Lib.Json
import Madoka.Tokens.Jwt

namespace Tokens

open Lib

-- JSON.stringify and the parser under json.Unmarshal. An integer is written digit by digit up to
-- 2^53 - 1 in either direction, and further out as no literal that a uint32 reads.
structure JsonText where
  stringify : Json → List UInt8
  parse : List UInt8 → Option Json
  literal : Int → Json
  literal_safe : ∀ n : Int, n.natAbs < 9007199254740992 → literal n = .int n
  literal_far : ∀ n : Int, 9007199254740992 ≤ n.natAbs → Json.asNat 4294967296 (literal n) = none

structure Emote where
  slotId : UInt32
  emoteId : UInt32
  deriving DecidableEq, Repr

-- selected_items: the request fields behind them are uint32, a key may be missing.
structure SelectedItems where
  avatarId : Option UInt32
  skinColor : Option UInt32
  headPic : Option UInt32
  bannerId : Option UInt32
  clothes : Option (List UInt32)
  slots : Option (List UInt32)
  emotes : Option (List Emote)
  shows : Option (List UInt32)
  deriving DecidableEq, Repr

instance uid_bound : NeZero 9007199254740992 := ⟨by decide⟩

-- What of an account document goes into the token.
structure Account where
  uid : Fin 9007199254740992
  accountId : Fin 9007199254740992
  nickname : Option Utf16.Text
  region : Option Utf16.Text
  role : Option Int
  selectedItems : Option SelectedItems
  deriving DecidableEq, Repr

def noItems : SelectedItems := ⟨none, none, none, none, none, none, none, none⟩

-- AdminCore.setRole: any integer.
def Account.setRole (acc : Account) (role : Int) : Account :=
  { acc with role := some role }

namespace Account

variable (acc : Account)

def aid : Nat := if acc.uid ≠ 0 then acc.uid else acc.accountId

def name : Utf16.Text :=
  match acc.nickname with
  | none | some [] => Utf16.text "Player"
  | some t => t

def home : Utf16.Text := acc.region.getD []

def rank : Int := acc.role.getD 0

def items : SelectedItems := acc.selectedItems.getD noItems

end Account

section

variable (literal : Int → Json)

def number (n : Option UInt32) : Json := literal (n.getD 0).toNat

def numbers (l : List UInt32) : Json := .arr (l.map fun n => literal n.toNat)

def SelectedItems.toShow (sel : SelectedItems) : Json :=
  .obj [("avatar", number literal sel.avatarId), ("color", number literal sel.skinColor),
    ("head", number literal sel.headPic), ("banner", number literal sel.bannerId),
    ("clothes", numbers literal (sel.clothes.getD [])), ("slots", numbers literal (sel.slots.getD [])),
    ("emotes", numbers literal ((sel.emotes.getD []).map Emote.emoteId)),
    ("shows", numbers literal (sel.shows.getD []))]

def claims (acc : Account) (matchId : Nat) (team : Fin 3) : List (String × Json) :=
  [("aid", literal acc.aid), ("name", .str acc.name), ("region", .str acc.home),
    ("role", literal acc.rank), ("mid", literal matchId), ("team", literal team.val),
    ("show", acc.items.toShow literal)]

-- sign stamps iat in front of the claims and exp behind them.
def body (now ttl : Nat) (payload : List (String × Json)) : Json :=
  .obj (("iat", literal now) :: payload ++ if ttl = 0 then [] else [("exp", literal (now + ttl))])

end

def buildPrepareToken (mac : Mac) (J : JsonText) (secret : List UInt8) (now ttl : Nat) (acc : Account)
    (matchId : Nat) (team : Fin 3) : List UInt8 :=
  sign mac secret (J.stringify (body J.literal now ttl (claims J.literal acc matchId team)))

end Tokens

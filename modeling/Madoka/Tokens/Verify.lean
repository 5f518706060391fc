import Madoka.Tokens.Prepare
import Madoka.MatchServer.Wire

namespace Tokens

open Lib

structure Show where
  avatar : Nat
  color : Nat
  head : Nat
  banner : Nat
  clothes : List Nat
  slots : List Nat
  emotes : List Nat
  shows : List Nat
  battleFlag : Nat
  deriving DecidableEq, Repr

structure Claims where
  accountID : Nat
  name : String
  region : String
  role : Nat
  matchID : Nat
  team : Nat
  cosmetics : Option Show
  issuedAt : Int
  expiry : Int
  deriving DecidableEq, Repr

def uint32 : Json → Option Nat := Json.asNat 4294967296

def uint64 : Json → Option Nat := Json.asNat 18446744073709551616

def uint8 : Json → Option Nat := Json.asNat 256

def int64 : Json → Option Int := Json.asInt 9223372036854775808

def readShow (o : List (String × Json)) : Option Show := do
  let avatar ← Json.field o "avatar" uint32 0
  let color ← Json.field o "color" uint32 0
  let head ← Json.field o "head" uint32 0
  let banner ← Json.field o "banner" uint32 0
  let clothes ← Json.field o "clothes" (Json.asList uint32) []
  let slots ← Json.field o "slots" (Json.asList uint32) []
  let emotes ← Json.field o "emotes" (Json.asList uint32) []
  let shows ← Json.field o "shows" (Json.asList uint32) []
  let battleFlag ← Json.field o "battle_flag" uint32 0
  some { avatar, color, head, banner, clothes, slots, emotes, shows, battleFlag }

def readClaims (o : List (String × Json)) : Option Claims := do
  let accountID ← Json.field o "aid" uint64 0
  let name ← Json.field o "name" Json.asString ""
  let region ← Json.field o "region" Json.asString ""
  let role ← Json.field o "role" uint32 0
  let matchID ← Json.field o "mid" uint64 0
  let team ← Json.field o "team" uint8 0
  let cosmetics ← Json.field o "show" (Json.asStruct readShow) none
  let issuedAt ← Json.field o "iat" int64 0
  let expiry ← Json.field o "exp" int64 0
  some { accountID, name, region, role, matchID, team, cosmetics, issuedAt, expiry }

def unmarshal : Json → Option Claims
  | .null => readClaims []
  | .obj o => readClaims o
  | _ => none

def decodePayload (J : JsonText) (payload : List UInt8) : Option Claims := do
  let payloadBytes ← Base64.decode Base64.url payload
  let value ← J.parse payloadBytes
  unmarshal value

def verify (mac : Mac) (J : JsonText) (now : Int) (tok secret : List UInt8) : Option Claims :=
  match tok.splitOn dot with
  | [header, payload, signature] =>
    if Base64.encode Base64.url (mac.digest secret (header ++ dot :: payload)) = signature then
      match decodePayload J payload with
      | some c => if c.expiry ≠ 0 ∧ c.expiry < now then none else some c
      | none => none
    else none
  | _ => none

-- The cosmetics and the claims a token of `acc` carries.
def SelectedItems.shown (sel : SelectedItems) : Show where
  avatar := (sel.avatarId.getD 0).toNat
  color := (sel.skinColor.getD 0).toNat
  head := (sel.headPic.getD 0).toNat
  banner := (sel.bannerId.getD 0).toNat
  clothes := (sel.clothes.getD []).map UInt32.toNat
  slots := (sel.slots.getD []).map UInt32.toNat
  emotes := (sel.emotes.getD []).map fun e => e.emoteId.toNat
  shows := (sel.shows.getD []).map UInt32.toNat
  battleFlag := 0

def Account.carried (acc : Account) (now ttl matchId : Nat) (team : Fin 3) : Claims where
  accountID := acc.aid
  name := Utf16.string acc.name
  region := Utf16.string acc.home
  role := acc.rank.toNat
  matchID := matchId
  team := team
  cosmetics := some acc.items.shown
  issuedAt := now
  expiry := if ttl = 0 then 0 else now + ttl

section

variable {J : JsonText} {acc : Account} {now ttl matchId n : Nat} {team : Fin 3}

theorem JsonText.literal_nat (J : JsonText) (h : n < 9007199254740992) : J.literal n = .int n :=
  J.literal_safe n (by simpa using h)

theorem uint32_word (J : JsonText) (n : UInt32) : uint32 (J.literal n.toNat) = some n.toNat := by
  have h := n.toNat_lt
  rw [uint32, J.literal_nat (by omega), Json.asNat_natCast, if_pos (by omega)]

theorem uint32_number (J : JsonText) (n : Option UInt32) :
    uint32 (number J.literal n) = some (n.getD 0).toNat :=
  uint32_word J (n.getD 0)

theorem asList_numbers (J : JsonText) (l : List UInt32) :
    Json.asList uint32 (numbers J.literal l) = some (l.map UInt32.toNat) := by
  have h := Json.asList_map (f := fun n : UInt32 => J.literal n.toNat) (g := UInt32.toNat)
    (P := fun _ => True) (fun n => (uint32_word J n).trans (if_pos trivial).symm) l
  simpa [numbers] using h

theorem uint32_literal (J : JsonText) (m : Int) :
    uint32 (J.literal m) = if 0 ≤ m ∧ m < 4294967296 then some m.toNat else none := by
  by_cases hm : m.natAbs < 9007199254740992
  · rw [uint32, J.literal_safe m hm, Json.asNat_int]
    exact if_congr (by omega) rfl rfl
  · rw [uint32, J.literal_far m (by omega), if_neg (by omega)]

theorem uint64_literal (J : JsonText) (h : n < 9007199254740992) : uint64 (J.literal n) = some n := by
  rw [uint64, J.literal_nat h, Json.asNat_natCast, if_pos (by omega)]

theorem int64_literal (J : JsonText) (h : n < 9007199254740992) : int64 (J.literal n) = some (n : Int) := by
  rw [int64, J.literal_nat h]
  exact if_pos (by omega)

theorem readShow_toShow (J : JsonText) (sel : SelectedItems) :
    Json.asStruct readShow (sel.toShow J.literal) = some (some sel.shown) := by
  simp only [SelectedItems.toShow, Json.asStruct, readShow, Json.field, List.lookup_cons, List.lookup_nil,
    String.reduceBEq, uint32_number, asList_numbers, Option.bind_eq_bind, Option.bind_some, Option.map_some]
  simp only [SelectedItems.shown, List.map_map, Function.comp_def]

theorem unmarshal_body (J : JsonText) (acc : Account) (team : Fin 3) (hmid : matchId < 9007199254740992)
    (hclock : now + ttl < 9007199254740992) :
    unmarshal (body J.literal now ttl (claims J.literal acc matchId team)) =
      if 0 ≤ acc.rank ∧ acc.rank < 4294967296 then some (acc.carried now ttl matchId team) else none := by
  have haid : uint64 (J.literal acc.aid) = some acc.aid := by
    refine uint64_literal J ?_
    unfold Account.aid
    split
    · exact acc.uid.isLt
    · exact acc.accountId.isLt
  have hteam : uint8 (J.literal team.val) = some team.val := by
    have := team.isLt
    rw [uint8, J.literal_nat (by omega), Json.asNat_natCast, if_pos (by omega)]
  have hexp : Json.field (("iat", J.literal now) :: claims J.literal acc matchId team ++
      if ttl = 0 then [] else [("exp", J.literal (now + ttl))]) "exp" int64 0
        = some (if ttl = 0 then 0 else (now : Int) + ttl) := by
    have hfree : (("iat", J.literal now) :: claims J.literal acc matchId team).lookup "exp" = none := by
      simp [claims, List.lookup_cons]
    by_cases httl : ttl = 0
    · rw [if_pos httl, if_pos httl, List.append_nil]
      exact Json.field_of_absent hfree
    · rw [if_neg httl, if_neg httl]
      have hlook : (("iat", J.literal now) :: claims J.literal acc matchId team ++
          [("exp", J.literal (now + ttl))]).lookup "exp" = some (J.literal (now + ttl)) := by
        rw [List.lookup_append, hfree]
        simp
      rw [Json.field_of_lookup hlook]
      exact int64_literal J hclock
  have hlook : ∀ key v, (("iat", J.literal now) :: claims J.literal acc matchId team).lookup key = some v →
      ∀ {α : Type} (value : Json → Option α) (zero : α),
        Json.field (("iat", J.literal now) :: claims J.literal acc matchId team ++
          if ttl = 0 then [] else [("exp", J.literal (now + ttl))]) key value zero = value v :=
    fun _ _ h _ _ _ => Json.field_append h
  simp only [body, unmarshal, readClaims, hexp, hlook "iat" _ rfl, hlook "aid" _ rfl, hlook "name" _ rfl,
    hlook "region" _ rfl, hlook "role" _ rfl, hlook "mid" _ rfl, hlook "team" _ rfl, hlook "show" _ rfl,
    haid, hteam, uint32_literal, uint64_literal J hmid, int64_literal J (show now < 9007199254740992 by omega),
    readShow_toShow, Json.asString, Option.bind_eq_bind, Option.bind_some]
  split <;> rfl

theorem decodePayload_b64url (J : JsonText) (bytes : List UInt8) :
    decodePayload J (b64url bytes) = (J.parse bytes).bind unmarshal := by
  rw [decodePayload, b64url_eq, Base64.decode_encode]
  rfl

theorem verify_sign (mac : Mac) (J : JsonText) (t : Int) (secret bytes : List UInt8) :
    verify mac J t (sign mac secret bytes) secret =
      match (J.parse bytes).bind unmarshal with
      | some c => if c.expiry ≠ 0 ∧ c.expiry < t then none else some c
      | none => none := by
  have hsplit : (sign mac secret bytes).splitOn dot =
      [b64url header, b64url bytes, b64url (mac.digest secret (signingInput bytes))] := by
    rw [sign, signingInput, List.append_assoc, List.cons_append,
      List.splitOn_append_cons_self_of_not_mem (dot_not_mem_b64url _),
      List.splitOn_append_cons_self_of_not_mem (dot_not_mem_b64url _),
      List.splitOn_eq_singleton (dot_not_mem_b64url _)]
  have hsig : Base64.encode Base64.url (mac.digest secret (b64url header ++ dot :: b64url bytes)) =
      b64url (mac.digest secret (signingInput bytes)) := by
    rw [b64url_eq (mac.digest secret (signingInput bytes))]
    rfl
  rw [verify, hsplit]
  dsimp only
  rw [if_pos hsig, decodePayload_b64url]

theorem verify_buildPrepareToken (mac : Mac) (J : JsonText) (secret : List UInt8) {t : Int}
    (hmid : matchId < 9007199254740992) (hclock : now + ttl < 9007199254740992)
    (hlive : ttl = 0 ∨ t ≤ (now : Int) + ttl)
    (hjson : J.parse (J.stringify (body J.literal now ttl (claims J.literal acc matchId team))) =
      some (body J.literal now ttl (claims J.literal acc matchId team))) :
    verify mac J t (buildPrepareToken mac J secret now ttl acc matchId team) secret =
      if 0 ≤ acc.rank ∧ acc.rank < 4294967296 then some (acc.carried now ttl matchId team) else none := by
  rw [buildPrepareToken, verify_sign, hjson, Option.bind_some, unmarshal_body J acc team hmid hclock]
  have hfresh : ¬ ((acc.carried now ttl matchId team).expiry ≠ 0 ∧ (acc.carried now ttl matchId team).expiry < t) := by
    dsimp only [Account.carried]
    split
    · simp
    · omega
  by_cases hrole : 0 ≤ acc.rank ∧ acc.rank < 4294967296
  · rw [if_pos hrole]
    exact if_neg hfresh
  · rw [if_neg hrole]

end

structure Claims.Same (c : Claims) (acc : Account) (matchId : Nat) (team : Fin 3) : Prop where
  accountID : c.accountID = acc.aid
  name : Utf16.text c.name = acc.name
  region : Utf16.text c.region = acc.home
  role : (c.role : Int) = acc.rank
  matchID : c.matchID = matchId
  team : c.team = team
  cosmetics : c.cosmetics = some acc.items.shown

-- What a token can carry: a role that is a uint32, and names without a lone surrogate.
structure Account.Portable (acc : Account) : Prop where
  role : 0 ≤ acc.rank ∧ acc.rank < 4294967296
  name : Utf16.wellFormed acc.name = true
  region : Utf16.wellFormed acc.home = true

theorem prepare_token_verifies (mac : Mac) (J : JsonText) (secret : List UInt8) (acc : Account)
    (now ttl matchId : Nat) (team : Fin 3) (t : Int)
    (hmid : matchId < 9007199254740992) (hclock : now + ttl < 9007199254740992)
    (hlive : ttl = 0 ∨ t ≤ (now : Int) + ttl)
    (hjson : J.parse (J.stringify (body J.literal now ttl (claims J.literal acc matchId team))) =
      some (body J.literal now ttl (claims J.literal acc matchId team))) :
    (∃ c, verify mac J t (buildPrepareToken mac J secret now ttl acc matchId team) secret = some c ∧
      c.Same acc matchId team) ↔ acc.Portable := by
  rw [verify_buildPrepareToken mac J secret hmid hclock hlive hjson]
  constructor
  · rintro ⟨c, hc, hsame⟩
    split at hc
    · rename_i hrole
      cases hc
      exact ⟨hrole, (Utf16.text_string_iff _).mp hsame.name, (Utf16.text_string_iff _).mp hsame.region⟩
    · cases hc
  · intro h
    rw [if_pos h.role]
    refine ⟨_, rfl, rfl, (Utf16.text_string_iff _).mpr h.name, (Utf16.text_string_iff _).mpr h.region,
      ?_, rfl, rfl, rfl⟩
    exact Int.toNat_of_nonneg h.role.1

def Show.wire (x : Show) : MatchServer.ShowClaim :=
  ⟨x.avatar, x.color, x.head, x.banner, x.clothes, x.slots, x.emotes, x.shows, x.battleFlag⟩

def Claims.wire (c : Claims) : MatchServer.Claims :=
  ⟨c.accountID, c.name, c.role, c.matchID, c.team, c.cosmetics.map Show.wire, c.expiry⟩

def wired (mac : Mac) (J : JsonText) (w : MatchServer.World) : MatchServer.World :=
  { w with
    hmac := fun secret input =>
      MatchServer.textOf (Base64.encode Base64.url (mac.digest (ascii secret) (ascii input)))
    claims := fun payload => (decodePayload J (ascii payload)).map Claims.wire }

theorem ascii_textOf (bytes : List UInt8) : ascii (MatchServer.textOf bytes) = bytes := by
  unfold ascii MatchServer.textOf
  rw [String.toList_ofList, List.map_map]
  refine (List.map_congr_left fun x _ => ?_).trans (List.map_id bytes)
  have h := x.toNat_lt
  have hv : (Char.ofNat x.toNat).toNat = x.toNat := Utf16.toNat_ofNat (Or.inl (by omega))
  simp only [Function.comp_apply, hv, UInt8.ofNat_toNat, id_eq]

theorem textOf_append (a b : List UInt8) :
    MatchServer.textOf (a ++ dot :: b) = MatchServer.textOf a ++ "." ++ MatchServer.textOf b := by
  unfold MatchServer.textOf
  apply String.toList_inj.mp
  simp only [List.map_append, List.map_cons, String.toList_append, String.toList_ofList, List.append_assoc]
  rfl

theorem textOf_inj {a b : List UInt8} : MatchServer.textOf a = MatchServer.textOf b ↔ a = b := by
  constructor
  · intro h
    rw [← ascii_textOf a, h, ascii_textOf]
  · exact congrArg _

theorem verify_wired (mac : Mac) (J : JsonText) (w : MatchServer.World) (now : Int) (tok : List UInt8) :
    MatchServer.verify (wired mac J w) now tok =
      (verify mac J (MatchServer.unixSeconds now) tok (ascii w.cfg.jwtSecret)).map Claims.wire := by
  have hdot : MatchServer.dot = dot := rfl
  unfold MatchServer.verify verify
  rw [hdot]
  rcases tok.splitOn dot with _ | ⟨head, _ | ⟨payload, _ | ⟨signature, _ | ⟨_, _⟩⟩⟩⟩
  · rfl
  · rfl
  · rfl
  · simp only [List.map_cons, List.map_nil, wired, ← textOf_append, ascii_textOf, textOf_inj]
    split
    · cases decodePayload J payload with
      | none => rfl
      | some c =>
        simp only [Option.map_some, Claims.wire]
        split
        · rfl
        · rfl
    · rfl
  · rfl

theorem resolvePlayer_prepared (mac : Mac) (J : JsonText) (w : MatchServer.World) (acc : Account)
    {now ttl matchId : Nat} (team : Fin 3) {t : Int}
    (hmid : matchId < 9007199254740992) (hclock : now + ttl < 9007199254740992)
    (hlive : ttl = 0 ∨ MatchServer.unixSeconds t ≤ (now : Int) + ttl)
    (hjson : J.parse (J.stringify (body J.literal now ttl (claims J.literal acc matchId team))) =
      some (body J.literal now ttl (claims J.literal acc matchId team))) :
    MatchServer.resolvePlayer (wired mac J w) t
        (buildPrepareToken mac J (ascii w.cfg.jwtSecret) now ttl acc matchId team) =
      if 0 ≤ acc.rank ∧ acc.rank < 4294967296 then
        MatchServer.claimedPlayer (acc.carried now ttl matchId team).wire
      else MatchServer.fallbackPlayer := by
  have hne : buildPrepareToken mac J (ascii w.cfg.jwtSecret) now ttl acc matchId team ≠ [] := by
    simp [buildPrepareToken, sign]
  rw [MatchServer.resolvePlayer, if_neg hne, verify_wired,
    verify_buildPrepareToken mac J _ hmid hclock hlive hjson]
  by_cases hrole : 0 ≤ acc.rank ∧ acc.rank < 4294967296
  · rw [if_pos hrole, if_pos hrole]
    rfl
  · rw [if_neg hrole, if_neg hrole]
    rfl

-- A player of the lobby, and the JSON and the digest of its token.
def foices : Account where
  uid := 10000001
  accountId := 10000001
  nickname := some (Utf16.text "foices")
  region := none
  role := some 1
  selectedItems := some { noItems with
    avatarId := some 102000004
    skinColor := some 5
    clothes := some [203000001] }

def plainLiteral (n : Int) : Json :=
  if n.natAbs < 9007199254740992 then .int n else .num n 1

-- A reader and writer of one JSON text.
def oneText (text : String) (value : Json) : JsonText where
  stringify := fun _ => ascii text
  parse := fun bytes => if bytes = ascii text then some value else none
  literal := plainLiteral
  literal_safe := fun _ h => if_pos h
  literal_far := fun n h => by
    rw [plainLiteral, if_neg (by omega)]
    rfl

theorem parse_oneText (text : String) (value v : Json) :
    (oneText text value).parse ((oneText text value).stringify v) = some value :=
  if_pos rfl

def foicesBody (role : Int) : Json :=
  body plainLiteral 1700000000 600 (claims plainLiteral (foices.setRole role) 7 1)

theorem prepare_token_verifies_foices :
    let mac : Mac := ⟨fun _ _ => [239, 98, 126, 145, 108, 253, 10, 162, 113, 80, 247, 195, 197, 180, 62, 227,
    37, 173, 2, 149, 111, 137, 49, 66, 105, 144, 61, 121, 230, 198, 6, 99], fun _ _ => rfl⟩
    let J := oneText "\x7b\"iat\":1700000000,\"aid\":10000001,\"name\":\"foices\",\"region\":\"\",\"role\":1,\"mid\":7,\"team\":1,\"show\":\x7b\"avatar\":102000004,\"color\":5,\"head\":0,\"banner\":0,\"clothes\":[203000001],\"slots\":[],\"emotes\":[],\"shows\":[]\x7d,\"exp\":1700000600\x7d" (foicesBody 1)
    ∃ c, verify mac J 1700000300 (buildPrepareToken mac J (ascii "dev-match-secret-change-me") 1700000000 600
      (foices.setRole 1) 7 1) (ascii "dev-match-secret-change-me") = some c ∧ c.Same (foices.setRole 1) 7 1 :=
  (prepare_token_verifies _ _ _ (foices.setRole 1) 1700000000 600 7 1 1700000300 (by omega) (by omega)
    (Or.inr (by omega)) (parse_oneText _ _ _)).mpr ⟨by decide, by decide, by decide⟩

-- An admin sets the role to -1: no uint32 reads it, and the player joins as the fallback.
theorem negative_role_rejected :
    let mac : Mac := ⟨fun _ _ => [191, 177, 44, 217, 21, 225, 171, 23, 46, 152, 123, 213, 106, 243, 230, 220,
    159, 195, 191, 191, 0, 173, 58, 96, 125, 10, 79, 113, 81, 142, 12, 36], fun _ _ => rfl⟩
    let J := oneText "\x7b\"iat\":1700000000,\"aid\":10000001,\"name\":\"foices\",\"region\":\"\",\"role\":-1,\"mid\":7,\"team\":1,\"show\":\x7b\"avatar\":102000004,\"color\":5,\"head\":0,\"banner\":0,\"clothes\":[203000001],\"slots\":[],\"emotes\":[],\"shows\":[]\x7d,\"exp\":1700000600\x7d" (foicesBody (-1))
    let tok := buildPrepareToken mac J (ascii "dev-match-secret-change-me") 1700000000 600 (foices.setRole (-1)) 7 1
    verify mac J 1700000300 tok (ascii "dev-match-secret-change-me") = none := by
  decide +kernel

end Tokens

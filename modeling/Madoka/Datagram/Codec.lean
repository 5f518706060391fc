import Madoka.Datagram.Crc7
import Madoka.Datagram.Streamed

namespace Datagram

def msgKey : UInt8 := 0x6C

def flagEncrypted : UInt8 := 1

def flagGzip : UInt8 := 2

inductive DecodeErr where
  | short
  | msgKey
  | crc
  | gzip
  | tea (e : TeaErr)
  | outOfRange
  deriving DecidableEq, Repr

-- The payload is plaintext; encode encrypts it where flags asks for it.
structure Packet where
  sendOption : UInt8
  cmd : UInt16
  seqID : UInt16
  orderID : UInt16
  flags : UInt8
  payload : List UInt8
  deriving DecidableEq, Repr

def isReliable (cmd : UInt16) (sendOption : UInt8) : Bool :=
  if cmd = 2 then false else sendOption = 1 || sendOption = 2 || sendOption = 5

def le16 (lo hi : UInt8) : UInt16 := UInt16.ofNat (lo.toNat + 256 * hi.toNat)

def uint16At (b : List UInt8) (i : Nat) : Option UInt16 := do
  let lo ← b[i]?
  let hi ← b[i + 1]?
  return le16 lo hi

def bytes16 (v : UInt16) : List UInt8 := [UInt8.ofNat v.toNat, UInt8.ofNat (v.toNat / 256)]

-- b[i:j]
def slice (b : List UInt8) (i j : Nat) : Option (List UInt8) :=
  if i ≤ j ∧ j ≤ b.length then some ((b.drop i).take (j - i)) else none

def inBuf {α : Type} : Option α → Except DecodeErr α
  | some a => .ok a
  | none => .error .outOfRange

def ofTea {α : Type} : Tea α → Except DecodeErr α
  | .ok a => .ok a
  | .error e => .error (.tea e)

def decodeRest (buf key : List UInt8) (p : Packet) (off : Nat) : Except DecodeErr Packet := do
  let flags ← inBuf buf[off]?
  let length ← inBuf (uint16At buf (off + 1))
  let off := off + 3
  if buf.length < off + length.toNat then .error .short
  else do
    let payload ← inBuf (slice buf off (off + length.toNat))
    if flags &&& flagGzip ≠ 0 then .error .gzip
    else if flags &&& flagEncrypted ≠ 0 then do
      let dec ← ofTea (teaDecrypt payload key)
      return { p with flags := flags, payload := dec }
    else return { p with flags := flags, payload := payload }

def decode (buf key : List UInt8) : Except DecodeErr Packet :=
  if buf.length < 8 then .error .short
  else do
    let first ← inBuf buf[0]?
    if first ≠ msgKey then .error .msgKey
    else do
      let body ← inBuf (slice buf 2 buf.length)
      let crc ← inBuf (crc7 0 body)
      let second ← inBuf buf[1]?
      if crc ≠ second then .error .crc
      else do
        let sendOption ← inBuf buf[2]?
        let cmd ← inBuf (uint16At buf 3)
        if isReliable cmd sendOption then
          if buf.length < 12 then .error .short
          else do
            let seqID ← inBuf (uint16At buf 5)
            let orderID ← inBuf (uint16At buf 7)
            decodeRest buf key ⟨sendOption, cmd, seqID, orderID, 0, []⟩ 9
        else decodeRest buf key ⟨sendOption, cmd, 0, 0, 0, []⟩ 5

namespace Packet

def head (p : Packet) : List UInt8 :=
  p.sendOption :: bytes16 p.cmd ++
    if isReliable p.cmd p.sendOption then bytes16 p.seqID ++ bytes16 p.orderID else []

def wire (p : Packet) (salt : UInt8 × UInt8) (key : List UInt8) : Tea (List UInt8) :=
  if p.flags &&& flagEncrypted ≠ 0 then teaEncrypt salt p.payload key else return p.payload

def body (p : Packet) (payload : List UInt8) : List UInt8 :=
  p.head ++ p.flags :: (bytes16 (UInt16.ofNat payload.length) ++ payload)

def encode (p : Packet) (salt : UInt8 × UInt8) (key : List UInt8) : Tea (List UInt8) := do
  let payload ← p.wire salt key
  let crc ← ofRange (crc7 0 (p.body payload))
  return msgKey :: crc :: p.body payload

end Packet

-- What a datagram has to be: the message key, the checksum of the rest, the header with its
-- sequence numbers exactly where they belong, and as many bytes as the length says.
structure Grammar (buf key : List UInt8) (p : Packet) (wire trailing : List UInt8) : Prop where
  bytes : ∃ body, buf = msgKey :: crcOf 0 body :: body ∧
    ∃ length : UInt16, length.toNat = wire.length ∧
      body = p.head ++ p.flags :: (bytes16 length ++ (wire ++ trailing))
  plain : isReliable p.cmd p.sendOption = false → p.seqID = 0 ∧ p.orderID = 0
  gzip : p.flags &&& flagGzip = 0
  payload : if p.flags &&& flagEncrypted ≠ 0 then teaDecrypt wire key = .ok p.payload else wire = p.payload

variable {buf key wire trailing : List UInt8} {p : Packet} {lo hi : UInt8}

theorem bytes16_le16 (lo hi : UInt8) : bytes16 (le16 lo hi) = [lo, hi] := by
  have hlo := lo.toNat_lt
  have hhi := hi.toNat_lt
  unfold bytes16 le16
  rw [List.cons.injEq, List.cons.injEq]
  refine ⟨UInt8.toNat_inj.mp ?_, UInt8.toNat_inj.mp ?_, rfl⟩
  · simp only [UInt8.toNat_ofNat', UInt16.toNat_ofNat', Nat.reducePow]
    omega
  · simp only [UInt8.toNat_ofNat', UInt16.toNat_ofNat', Nat.reducePow]
    omega

theorem le16_bytes16 (v : UInt16) : le16 (UInt8.ofNat v.toNat) (UInt8.ofNat (v.toNat / 256)) = v := by
  have hv := v.toNat_lt
  unfold le16
  apply UInt16.toNat_inj.mp
  simp only [UInt8.toNat_ofNat', UInt16.toNat_ofNat', Nat.reducePow]
  omega

theorem uint16At_append (a b : List UInt8) (v : UInt16) :
    uint16At (a ++ (bytes16 v ++ b)) a.length = some v := by
  unfold uint16At
  rw [List.getElem?_append_right (Nat.le_refl _), List.getElem?_append_right (Nat.le_succ _),
    Nat.sub_self, Nat.succ_sub (Nat.le_refl _), Nat.sub_self]
  change some (le16 _ _) = _
  rw [le16_bytes16]

theorem decodeRest_eq {before tail : List UInt8} {flags : UInt8} {length : UInt16} {off : Nat}
    (hoff : off = before.length) :
    decodeRest (before ++ flags :: (bytes16 length ++ tail)) key p off =
      if tail.length < length.toNat then .error .short
      else if flags &&& flagGzip ≠ 0 then .error .gzip
      else if flags &&& flagEncrypted ≠ 0 then do
        let dec ← ofTea (teaDecrypt (tail.take length.toNat) key)
        return { p with flags := flags, payload := dec }
      else return { p with flags := flags, payload := tail.take length.toNat } := by
  subst hoff
  have hflags : (before ++ flags :: (bytes16 length ++ tail))[before.length]? = some flags := by
    rw [List.getElem?_append_right (Nat.le_refl _), Nat.sub_self]
    rfl
  have hsplit : before ++ flags :: (bytes16 length ++ tail) =
      (before ++ [flags]) ++ (bytes16 length ++ tail) := by
    rw [List.append_assoc, List.singleton_append]
  have hlength : uint16At (before ++ flags :: (bytes16 length ++ tail)) (before.length + 1) =
      some length := by
    have h := uint16At_append (before ++ [flags]) tail length
    rwa [List.length_append, List.length_singleton, ← hsplit] at h
  have hlen : (before ++ flags :: (bytes16 length ++ tail)).length = before.length + 3 + tail.length := by
    simp only [List.length_append, List.length_cons, bytes16, List.length_nil]
    omega
  have hdrop : (before ++ flags :: (bytes16 length ++ tail)).drop (before.length + 3) = tail := by
    rw [← List.drop_drop, List.drop_left]
    rfl
  unfold decodeRest
  rw [hflags, hlength]
  change (if (before ++ flags :: (bytes16 length ++ tail)).length < before.length + 3 + length.toNat then
    _ else _) = _
  by_cases hshort : tail.length < length.toNat
  · rw [if_pos (by omega), if_pos hshort]
  · have hslice : slice (before ++ flags :: (bytes16 length ++ tail)) (before.length + 3)
        (before.length + 3 + length.toNat) = some (tail.take length.toNat) := by
      unfold slice
      rw [if_pos (by omega), hdrop, Nat.add_sub_cancel_left]
    rw [if_neg (by omega), if_neg hshort, hslice]
    rfl

theorem decodeRest_ok {before tail : List UInt8} {flags : UInt8} {length : UInt16} {off : Nat}
    {q : Packet} (hoff : off = before.length) :
    decodeRest (before ++ flags :: (bytes16 length ++ tail)) key p off = .ok q ↔
      length.toNat ≤ tail.length ∧ flags &&& flagGzip = 0 ∧
      (if flags &&& flagEncrypted ≠ 0 then teaDecrypt (tail.take length.toNat) key = .ok q.payload
        else tail.take length.toNat = q.payload) ∧
      q = { p with flags := flags, payload := q.payload } := by
  rw [decodeRest_eq hoff]
  by_cases hshort : tail.length < length.toNat
  · rw [if_pos hshort]
    exact ⟨nofun, fun h => absurd h.1 (Nat.not_le.mpr hshort)⟩
  rw [if_neg hshort]
  by_cases hgzip : flags &&& flagGzip = 0
  · rw [if_neg (not_not.mpr hgzip)]
    have hlen : length.toNat ≤ tail.length := Nat.not_lt.mp hshort
    split
    · next henc =>
      cases hdec : teaDecrypt (tail.take length.toNat) key with
      | error e => exact ⟨nofun, fun h => nomatch h.2.2.1⟩
      | ok dec =>
        constructor
        · intro h
          obtain rfl := Except.ok.inj h
          exact ⟨hlen, hgzip, rfl, rfl⟩
        · rintro ⟨-, -, hpayload, hq⟩
          rw [Except.ok.injEq] at hpayload
          rw [hq, ← hpayload]
          rfl
    · constructor
      · intro h
        obtain rfl := Except.ok.inj h
        exact ⟨hlen, hgzip, rfl, rfl⟩
      · rintro ⟨-, -, hpayload, hq⟩
        rw [hq, ← hpayload]
        rfl
  · rw [if_pos hgzip]
    exact ⟨nofun, fun h => absurd h.2.1 hgzip⟩

theorem slice_tail (a b : UInt8) (body : List UInt8) :
    slice (a :: b :: body) 2 (a :: b :: body).length = some body := by
  unfold slice
  rw [if_pos ⟨Nat.le_add_left 2 _, Nat.le_refl _⟩]
  exact congrArg some (List.take_of_length_le (Nat.le_refl _))

theorem decode_front {b0 b1 : UInt8} {body : List UInt8} (hlen : 6 ≤ body.length) :
    decode (b0 :: b1 :: body) key =
      if b0 ≠ msgKey then .error .msgKey
      else if crcOf 0 body ≠ b1 then .error .crc
      else (do
        let sendOption ← inBuf (b0 :: b1 :: body)[2]?
        let cmd ← inBuf (uint16At (b0 :: b1 :: body) 3)
        if isReliable cmd sendOption then
          if (b0 :: b1 :: body).length < 12 then .error .short
          else do
            let seqID ← inBuf (uint16At (b0 :: b1 :: body) 5)
            let orderID ← inBuf (uint16At (b0 :: b1 :: body) 7)
            decodeRest (b0 :: b1 :: body) key ⟨sendOption, cmd, seqID, orderID, 0, []⟩ 9
        else decodeRest (b0 :: b1 :: body) key ⟨sendOption, cmd, 0, 0, 0, []⟩ 5) := by
  have hshort : ¬ (b0 :: b1 :: body).length < 8 := by
    rw [List.length_cons, List.length_cons]
    omega
  unfold decode
  rw [if_neg hshort, slice_tail]
  change (if b0 ≠ msgKey then _ else inBuf (crc7 0 body) >>= _) = _
  rw [crc7_eq]
  rfl

theorem length_head (p : Packet) :
    p.head.length = if isReliable p.cmd p.sendOption then 7 else 3 := by
  unfold Packet.head
  split <;> rfl

theorem decode_header {flags : UInt8} {length : UInt16} {tail body : List UInt8}
    (hbody : body = p.head ++ flags :: (bytes16 length ++ tail))
    (hplain : isReliable p.cmd p.sendOption = false → p.seqID = 0 ∧ p.orderID = 0) :
    decode (msgKey :: crcOf 0 body :: body) key =
      decodeRest (msgKey :: crcOf 0 body :: body) key { p with flags := 0, payload := [] }
        (2 + p.head.length) := by
  have hlen : body.length = p.head.length + 3 + tail.length := by
    rw [hbody]
    simp only [List.length_append, List.length_cons, bytes16, List.length_nil]
    omega
  have hcmd : uint16At (msgKey :: crcOf 0 body :: body) 3 = some p.cmd := by
    rw [hbody]
    exact uint16At_append [msgKey, _, p.sendOption] _ p.cmd
  have hoption : (msgKey :: crcOf 0 body :: body)[2]? = some p.sendOption := by
    rw [hbody]
    rfl
  have hhead := length_head p
  rw [decode_front (by split at hhead <;> omega), if_neg (not_not.mpr rfl), if_neg (not_not.mpr rfl),
    hoption, hcmd]
  change (if isReliable p.cmd p.sendOption = true then _ else _) = _
  by_cases hrel : isReliable p.cmd p.sendOption = true
  · have hseq : uint16At (msgKey :: crcOf 0 body :: body) 5 = some p.seqID := by
      rw [hbody, Packet.head, if_pos hrel]
      exact uint16At_append [msgKey, _, p.sendOption, _, _] _ p.seqID
    have horder : uint16At (msgKey :: crcOf 0 body :: body) 7 = some p.orderID := by
      rw [hbody, Packet.head, if_pos hrel]
      exact uint16At_append [msgKey, _, p.sendOption, _, _, _, _] _ p.orderID
    rw [if_pos hrel] at hhead
    rw [if_pos hrel, hseq, horder, hhead, if_neg (by simp only [List.length_cons]; omega)]
    rfl
  · rw [if_neg hrel] at hhead
    obtain ⟨hseq, horder⟩ := hplain (Bool.eq_false_iff.mpr hrel)
    have hp : ({ p with flags := 0, payload := [] } : Packet) = ⟨p.sendOption, p.cmd, 0, 0, 0, []⟩ := by
      rw [Packet.mk.injEq]
      exact ⟨rfl, rfl, hseq, horder, rfl, rfl⟩
    rw [if_neg hrel, hhead, hp]

theorem exists_eight {l : List UInt8} (h : 8 ≤ l.length) :
    ∃ b0 b1 b2 b3 b4 b5 b6 b7 rest, l = b0 :: b1 :: b2 :: b3 :: b4 :: b5 :: b6 :: b7 :: rest := by
  obtain ⟨b, rest, rfl⟩ := exists_block h
  obtain ⟨b0, b1, b2, b3, b4, b5, b6, b7, rfl⟩ := exists_bytes b
  exact ⟨_, _, _, _, _, _, _, _, rest, rfl⟩

theorem decode_cases (buf key : List UInt8) :
    (∃ e ∈ [DecodeErr.short, .msgKey, .crc], decode buf key = .error e) ∨
    ∃ (q : Packet) (flags : UInt8) (length : UInt16) (tail body : List UInt8),
      buf = msgKey :: crcOf 0 body :: body ∧ body = q.head ++ flags :: (bytes16 length ++ tail) ∧
        (isReliable q.cmd q.sendOption = false → q.seqID = 0 ∧ q.orderID = 0) := by
  by_cases hlen : 8 ≤ buf.length
  swap
  · refine Or.inl ⟨.short, by decide, ?_⟩
    unfold decode
    rw [if_pos (by omega)]
  obtain ⟨b0, b1, so, c0, c1, x, y, z, rest, rfl⟩ := exists_eight hlen
  rw [decode_front (by simp only [List.length_cons]; omega)]
  by_cases hfirst : b0 = msgKey
  swap
  · exact Or.inl ⟨.msgKey, by decide, if_pos hfirst⟩
  rw [if_neg (not_not.mpr hfirst)]
  by_cases hcrc : crcOf 0 (so :: c0 :: c1 :: x :: y :: z :: rest) = b1
  swap
  · exact Or.inl ⟨.crc, by decide, if_pos hcrc⟩
  rw [if_neg (not_not.mpr hcrc)]
  subst hfirst hcrc
  by_cases hrel : isReliable (le16 c0 c1) so = true
  · by_cases htwelve : 4 ≤ rest.length
    · rcases rest with _ | ⟨o, _ | ⟨flags, _ | ⟨l0, _ | ⟨l1, tail⟩⟩⟩⟩
      case cons.cons.cons.cons =>
        refine Or.inr ⟨⟨so, le16 c0 c1, le16 x y, le16 z o, 0, []⟩, flags, le16 l0 l1, tail, _, rfl, ?_,
          fun hplain => absurd hrel (Bool.eq_false_iff.mp hplain)⟩
        rw [Packet.head, if_pos hrel]
        simp only [bytes16_le16]
        rfl
      all_goals
        simp only [List.length_cons, List.length_nil] at htwelve
        omega
    · refine Or.inl ⟨.short, by decide, ?_⟩
      change (if isReliable (le16 c0 c1) so = true then _ else _) = _
      rw [if_pos hrel, if_pos (by simp only [List.length_cons]; omega)]
  · refine Or.inr ⟨⟨so, le16 c0 c1, 0, 0, 0, []⟩, x, le16 y z, rest, _, rfl, ?_, fun _ => ⟨rfl, rfl⟩⟩
    rw [Packet.head, if_neg hrel]
    simp only [bytes16_le16]
    rfl

section header

variable {q : Packet} {flags : UInt8} {length : UInt16} {tail body : List UInt8}

theorem decode_rest (hbody : body = q.head ++ flags :: (bytes16 length ++ tail))
    (hplain : isReliable q.cmd q.sendOption = false → q.seqID = 0 ∧ q.orderID = 0) :
    decode (msgKey :: crcOf 0 body :: body) key =
      decodeRest ((msgKey :: crcOf 0 body :: q.head) ++ flags :: (bytes16 length ++ tail)) key
        { q with flags := 0, payload := [] } (msgKey :: crcOf 0 body :: q.head).length := by
  have hbuf : msgKey :: crcOf 0 body :: body =
      (msgKey :: crcOf 0 body :: q.head) ++ flags :: (bytes16 length ++ tail) := by
    rw [List.cons_append, List.cons_append, ← hbody]
  rw [decode_header hbody hplain, hbuf, List.length_cons, List.length_cons, Nat.add_comm 2]

theorem decode_header_ok (hbody : body = q.head ++ flags :: (bytes16 length ++ tail))
    (hplain : isReliable q.cmd q.sendOption = false → q.seqID = 0 ∧ q.orderID = 0) :
    decode (msgKey :: crcOf 0 body :: body) key = .ok p ↔ length.toNat ≤ tail.length ∧
      flags &&& flagGzip = 0 ∧ (if flags &&& flagEncrypted ≠ 0 then
        teaDecrypt (tail.take length.toNat) key = .ok p.payload
        else tail.take length.toNat = p.payload) ∧ p = { q with flags := flags, payload := p.payload } := by
  rw [decode_rest hbody hplain]
  exact decodeRest_ok rfl

theorem decode_header_error {e : DecodeErr} (hbody : body = q.head ++ flags :: (bytes16 length ++ tail))
    (hplain : isReliable q.cmd q.sendOption = false → q.seqID = 0 ∧ q.orderID = 0)
    (h : decode (msgKey :: crcOf 0 body :: body) key = .error e) :
    e = .short ∨ e = .gzip ∨ e = .tea .badInput ∨ e = .tea .badPadding := by
  rw [decode_rest hbody hplain, decodeRest_eq rfl] at h
  split_ifs at h with hshort hgzip henc
  · exact Or.inl (Except.error.inj h).symm
  · exact Or.inr (Or.inl (Except.error.inj h).symm)
  · obtain ⟨hrange, hspin⟩ := tea_defined (tail.take length.toNat) key
    cases hdec : teaDecrypt (tail.take length.toNat) key with
    | ok dec =>
      rw [hdec] at h
      cases h
    | error t =>
      rw [hdec] at h
      obtain rfl : DecodeErr.tea t = e := Except.error.inj h
      cases t with
      | badInput => exact Or.inr (Or.inr (Or.inl rfl))
      | badPadding => exact Or.inr (Or.inr (Or.inr rfl))
      | outOfRange => exact absurd hdec hrange
      | spinning => exact absurd hdec hspin
  · cases h

end header

theorem decode_iff : decode buf key = .ok p ↔ ∃ wire trailing, Grammar buf key p wire trailing := by
  constructor
  · intro h
    rcases decode_cases buf key with ⟨e, -, herr⟩ | ⟨q, flags, length, tail, body, rfl, hbody, hplain⟩
    · rw [herr] at h
      cases h
    obtain ⟨hlen, hgzip, hpayload, hp⟩ := (decode_header_ok hbody hplain).mp h
    refine ⟨tail.take length.toNat, tail.drop length.toNat, ⟨body, rfl, length, ?_, ?_⟩, ?_, ?_, ?_⟩
    · rw [List.length_take, Nat.min_eq_left hlen]
    · rw [hbody, List.take_append_drop, hp]
      rfl
    · rw [hp]
      exact hplain
    · rw [hp]
      exact hgzip
    · rw [hp]
      exact hpayload
  · rintro ⟨wire, trailing, ⟨body, rfl, length, hlen, hbody⟩, hplain, hgzip, hpayload⟩
    have htake : (wire ++ trailing).take length.toNat = wire := List.take_left' hlen.symm
    refine (decode_header_ok hbody hplain).mpr ⟨?_, hgzip, ?_, rfl⟩
    · rw [List.length_append]
      omega
    · rw [htake]
      exact hpayload

theorem decode_error {e : DecodeErr} (h : decode buf key = .error e) :
    e = .short ∨ e = .msgKey ∨ e = .crc ∨ e = .gzip ∨ e = .tea .badInput ∨ e = .tea .badPadding := by
  rcases decode_cases buf key with ⟨e', he', herr⟩ | ⟨q, flags, length, tail, body, rfl, hbody, hplain⟩
  · rw [herr] at h
    obtain rfl := Except.error.inj h
    simp only [List.mem_cons, List.not_mem_nil, or_false] at he'
    rcases he' with rfl | rfl | rfl
    · exact Or.inl rfl
    · exact Or.inr (Or.inl rfl)
    · exact Or.inr (Or.inr (Or.inl rfl))
  · rcases decode_header_error hbody hplain h with rfl | hrest
    · exact Or.inl rfl
    · exact Or.inr (Or.inr (Or.inr hrest))

def Packet.wireLength (p : Packet) : Nat :=
  if p.flags &&& flagEncrypted ≠ 0 then encLen p.payload.length else p.payload.length

variable {salt : UInt8 × UInt8}

theorem encode_of_wire (h : p.wire salt key = .ok wire) :
    p.encode salt key = .ok (msgKey :: crcOf 0 (p.body wire) :: p.body wire) := by
  unfold Packet.encode
  rw [h]
  change ofRange (crc7 0 (p.body wire)) >>= _ = _
  rw [crc7_eq]
  rfl

theorem encode_grammar (hlen : wire.length ≤ 65535)
    (hgzip : p.flags &&& flagGzip = 0)
    (hplain : isReliable p.cmd p.sendOption = false → p.seqID = 0 ∧ p.orderID = 0)
    (hpayload : if p.flags &&& flagEncrypted ≠ 0 then teaDecrypt wire key = .ok p.payload
      else wire = p.payload) :
    Grammar (msgKey :: crcOf 0 (p.body wire) :: p.body wire) key p wire [] := by
  refine ⟨⟨p.body wire, rfl, UInt16.ofNat wire.length, ?_, ?_⟩, hplain, hgzip, hpayload⟩
  · simp only [UInt16.toNat_ofNat', Nat.reducePow]
    omega
  · rw [List.append_nil]
    rfl

theorem encode_decodes {key : List UInt8} (hkey : key.length = 16) (hlen : p.wireLength ≤ 65535)
    (hgzip : p.flags &&& flagGzip = 0)
    (hplain : isReliable p.cmd p.sendOption = false → p.seqID = 0 ∧ p.orderID = 0) :
    ∃ buf, p.encode salt key = .ok buf ∧ decode buf key = .ok p := by
  unfold Packet.wireLength at hlen
  by_cases henc : p.flags &&& flagEncrypted ≠ 0
  · rw [if_pos henc] at hlen
    obtain ⟨cipher, hcipher, hdec, hsize⟩ := teaEncrypt_decrypts salt p.payload hkey
    have hwire : p.wire salt key = .ok cipher := by
      unfold Packet.wire
      rw [if_pos henc]
      exact hcipher
    refine ⟨_, encode_of_wire hwire, decode_iff.mpr ⟨cipher, [], ?_⟩⟩
    refine encode_grammar (hsize ▸ hlen) hgzip hplain ?_
    rw [if_pos henc]
    exact hdec
  · rw [if_neg henc] at hlen
    have hwire : p.wire salt key = .ok p.payload := by
      unfold Packet.wire
      rw [if_neg henc]
      rfl
    refine ⟨_, encode_of_wire hwire, decode_iff.mpr ⟨p.payload, [], ?_⟩⟩
    refine encode_grammar hlen hgzip hplain ?_
    rw [if_neg henc]

theorem reencode {key' : List UInt8} (h : decode buf key = .ok p) (henc : p.flags &&& flagEncrypted = 0)
    (hlen : buf.length = 2 + p.head.length + 3 + p.payload.length) : p.encode salt key' = .ok buf := by
  obtain ⟨wire, trailing, ⟨body, rfl, length, hwire, hbody⟩, -, -, hpayload⟩ := decode_iff.mp h
  rw [if_neg (not_not.mpr henc)] at hpayload
  subst hpayload
  have hsize : body.length = p.head.length + 3 + (p.payload.length + trailing.length) := by
    rw [hbody]
    simp only [List.length_append, List.length_cons, bytes16, List.length_nil]
    omega
  have hnone : trailing = [] := by
    rw [List.length_cons, List.length_cons] at hlen
    exact List.eq_nil_of_length_eq_zero (by omega)
  have hsame : p.body p.payload = body := by
    rw [hbody, hnone, List.append_nil, Packet.body, ← hwire, UInt16.ofNat_toNat]
  have hown : p.wire salt key' = .ok p.payload := by
    unfold Packet.wire
    rw [if_neg (not_not.mpr henc)]
    rfl
  rw [encode_of_wire hown, hsame]

-- What encode writes, decode reads; decode accepts the grammar and nothing else, without leaving the
-- buffer; and what it accepts unencrypted, encode writes again.
theorem codec_exact :
    (∀ (key : Vector UInt8 16) (salt : UInt8 × UInt8) (p : Packet), p.flags &&& flagGzip = 0 →
      p.wireLength ≤ 65535 →
      (isReliable p.cmd p.sendOption = false → p.seqID = 0 ∧ p.orderID = 0) →
      ∃ buf, p.encode salt key.toList = .ok buf ∧ decode buf key.toList = .ok p) ∧
    (∀ buf key, (∀ p, decode buf key = .ok p ↔ ∃ wire trailing, Grammar buf key p wire trailing) ∧
      decode buf key ≠ .error .outOfRange ∧ decode buf key ≠ .error (.tea .outOfRange) ∧
      decode buf key ≠ .error (.tea .spinning)) ∧
    ∀ buf key key' salt p, decode buf key = .ok p → p.flags &&& flagEncrypted = 0 →
      buf.length = 2 + p.head.length + 3 + p.payload.length → p.encode salt key' = .ok buf := by
  refine ⟨fun key salt p hgzip hlen hplain => ?_, fun buf key => ⟨fun p => decode_iff, ?_, ?_, ?_⟩, ?_⟩
  · exact encode_decodes key.length_toList hlen hgzip hplain
  · exact fun h => absurd (decode_error h) (by decide)
  · exact fun h => absurd (decode_error h) (by decide)
  · exact fun h => absurd (decode_error h) (by decide)
  · exact fun buf key key' salt p h henc hlen => reencode h henc hlen

-- One run of at most seven bits is not what it was.
structure Burst (a b : List UInt8) : Prop where
  differ : a ≠ b
  window : ∃ pre w w' post, bufBits a = pre ++ w ++ post ∧ bufBits b = pre ++ w' ++ post ∧
    w.length = w'.length ∧ w.length ≤ 7

theorem length_bufBits (buf : List UInt8) : (bufBits buf).length = 8 * buf.length := by
  induction buf with
  | nil => rfl
  | cons b buf ih =>
    change (bitsOf b ++ bufBits buf).length = _
    rw [List.length_append, ih, List.length_cons]
    change 8 + _ = _
    omega

theorem Burst.length {a b : List UInt8} (h : Burst a b) : b.length = a.length := by
  obtain ⟨pre, w, w', post, ha, hb, hlen, -⟩ := h.window
  have hla := length_bufBits a
  have hlb := length_bufBits b
  rw [ha, List.length_append, List.length_append] at hla
  rw [hb, List.length_append, List.length_append] at hlb
  omega

theorem burst_refused {tail : List UInt8} (h : p.encode salt key = .ok buf) (hburst : Burst (buf.drop 2) tail)
    (key' : List UInt8) : decode (buf.take 2 ++ tail) key' = .error .crc := by
  cases hwire : p.wire salt key with
  | error e =>
    unfold Packet.encode at h
    rw [hwire] at h
    cases h
  | ok wire =>
    rw [encode_of_wire hwire] at h
    obtain rfl := Except.ok.inj h
    have hbody : 6 ≤ (p.body wire).length := by
      have hhead := length_head p
      unfold Packet.body
      rw [List.length_append, List.length_cons, List.length_append, hhead]
      change 6 ≤ _ + (2 + _ + 1)
      split <;> omega
    have hlen : tail.length = (p.body wire).length := hburst.length
    obtain ⟨pre, w, w', post, ha, hb, hw, hshort⟩ := hburst.window
    have hchanged : crcOf 0 (p.body wire) ≠ crcOf 0 tail := burst_changes ha hb hw hshort hburst.differ
    change decode (msgKey :: crcOf 0 (p.body wire) :: tail) key' = _
    rw [decode_front (by omega), if_neg (not_not.mpr rfl), if_pos (Ne.symm hchanged)]

-- The checksum is the remainder of the division, goes on from buffer to buffer, and sees short bursts.
theorem crc7_exact :
    (∀ buf, ∃ c, crc7 0 buf = some c ∧ c.toNat < 128 ∧
      Lib.ofBits (crcBits c) = (Lib.ofBits (bufBits buf) * Polynomial.X ^ 7) %ₘ
        (Polynomial.X ^ 7 + (Polynomial.X ^ 3 + 1))) ∧
    (∀ seed a b, crc7 seed (a ++ b) = (crc7 seed a).bind fun c => crc7 c b) ∧
    ∀ salt p key key' buf tail, Packet.encode p salt key = .ok buf → Burst (buf.drop 2) tail →
      decode (buf.take 2 ++ tail) key' = .error .crc := by
  refine ⟨fun buf => ⟨crcOf 0 buf, crc7_eq 0 buf, crcOf_lt 0 buf, crcOf_value buf⟩, fun seed a b => ?_, ?_⟩
  · rw [crc7_eq, crc7_eq, Option.bind_some, crc7_eq, crcOf_append]
  · exact fun salt p key key' buf tail h hburst => burst_refused h hburst key'

end Datagram

import Mathlib.Algebra.Group.Nat.Defs
import Mathlib.Logic.Function.Iterate

namespace Datagram

abbrev Block := Vector UInt8 8

structure Key where
  k0 : UInt32
  k1 : UInt32
  k2 : UInt32
  k3 : UInt32
  deriving DecidableEq, Repr

-- The errors of TeaDecrypt; an index outside of its array, which panics; a loop that is not done
-- when its fuel is.
inductive TeaErr where
  | badInput
  | badPadding
  | outOfRange
  | spinning
  deriving DecidableEq, Repr

abbrev Tea := Except TeaErr

def ofRange {α : Type} : Option α → Tea α
  | some a => .ok a
  | none => .error .outOfRange

def teaDelta : UInt32 := 0x9E3779B9

def teaRounds : Nat := 16

def teaSumInit : UInt32 := 0xE3779B90

-- binary.LittleEndian.Uint32 and PutUint32.
def le32 (a b c d : UInt8) : UInt32 :=
  UInt32.ofNat (a.toNat + 256 * b.toNat + 65536 * c.toNat + 16777216 * d.toNat)

def byteOf (v : UInt32) (i : Nat) : UInt8 := UInt8.ofNat (v.toNat / 256 ^ i)

def uint32At (b : List UInt8) (i : Nat) : Option UInt32 :=
  match b.drop i with
  | b0 :: b1 :: b2 :: b3 :: _ => some (le32 b0 b1 b2 b3)
  | _ => none

def keyWords (key : List UInt8) : Option Key := do
  let k0 ← uint32At key 0
  let k1 ← uint32At key 4
  let k2 ← uint32At key 8
  let k3 ← uint32At key 12
  return ⟨k0, k1, k2, k3⟩

structure Words where
  v0 : UInt32
  v1 : UInt32
  sum : UInt32
  deriving DecidableEq, Repr

def mix (v sum a b : UInt32) : UInt32 := ((v <<< 4) + a) ^^^ (v + sum) ^^^ ((v >>> 5) + b)

def encRound (k : Key) (s : Words) : Words :=
  let sum := s.sum + teaDelta
  let v0 := s.v0 + mix s.v1 sum k.k0 k.k1
  let v1 := s.v1 + mix v0 sum k.k2 k.k3
  ⟨v0, v1, sum⟩

def decRound (k : Key) (s : Words) : Words :=
  let v1 := s.v1 - mix s.v0 s.sum k.k2 k.k3
  let v0 := s.v0 - mix v1 s.sum k.k0 k.k1
  ⟨v0, v1, s.sum - teaDelta⟩

def wordsOf (data : Block) (sum : UInt32) : Words :=
  ⟨le32 data[0] data[1] data[2] data[3], le32 data[4] data[5] data[6] data[7], sum⟩

def Words.block (s : Words) : Block :=
  #v[byteOf s.v0 0, byteOf s.v0 1, byteOf s.v0 2, byteOf s.v0 3,
    byteOf s.v1 0, byteOf s.v1 1, byteOf s.v1 2, byteOf s.v1 3]

def teaEncryptECB (k : Key) (data : Block) : Block :=
  ((encRound k)^[teaRounds] (wordsOf data 0)).block

def teaDecryptECB (k : Key) (data : Block) : Block :=
  ((decRound k)^[teaRounds] (wordsOf data teaSumInit)).block

def xorBlock (a b : Block) : Block := a.zipWith (· ^^^ ·) b

def zeroBlock : Block := Vector.replicate 8 0

-- The slices buf[0:8], buf[8:16] and so on.
def blocks : List UInt8 → List Block
  | b0 :: b1 :: b2 :: b3 :: b4 :: b5 :: b6 :: b7 :: rest =>
    #v[b0, b1, b2, b3, b4, b5, b6, b7] :: blocks rest
  | _ => []

def blockAt (b : List UInt8) (i : Nat) : Option Block :=
  match b.drop i with
  | b0 :: b1 :: b2 :: b3 :: b4 :: b5 :: b6 :: b7 :: _ => some #v[b0, b1, b2, b3, b4, b5, b6, b7]
  | _ => none

-- (len + 2 + 7 + 1) % 8, and 8 less that where it is not 0.
def teaPadding (plainLen : Nat) : Nat :=
  let padding := (plainLen + 2 + 7 + 1) % 8
  if padding ≠ 0 then 8 - padding else padding

def encLen (plainLen : Nat) : Nat := ((1 + teaPadding plainLen + 2 + plainLen + 7) + 7) / 8 * 8

-- [padCount][pad zeros][salt][plain], the rest of the buffer is zero.
def teaBuffer (salt : UInt8 × UInt8) (plain : List UInt8) : List UInt8 :=
  let padding := teaPadding plain.length
  let head := UInt8.ofNat padding :: (List.replicate padding 0 ++ salt.1 :: salt.2 :: plain)
  head ++ List.replicate (encLen plain.length - head.length) 0

def encryptBlocks (k : Key) (ivPlain ivCrypt : Block) : List Block → List Block
  | [] => []
  | b :: bs =>
    let blockXored := xorBlock b ivCrypt
    let enc := xorBlock (teaEncryptECB k blockXored) ivPlain
    enc :: encryptBlocks k blockXored enc bs

def teaEncrypt (salt : UInt8 × UInt8) (plain key : List UInt8) : Tea (List UInt8) :=
  if key.length ≠ 16 then .error .badInput
  else do
    let k ← ofRange (keyWords key)
    return (encryptBlocks k zeroBlock zeroBlock (blocks (teaBuffer salt plain))).flatMap Vector.toList

-- What the closure advance shares with the loops.
structure Cursor where
  decDest : Block
  ivPre : Block
  ivCur : Block
  cipherPos : Nat
  pos : Nat
  deriving DecidableEq, Repr

def advance (cipher : List UInt8) (k : Key) (cur : Cursor) : Tea Cursor :=
  if cipher.length < cur.cipherPos + 8 then .error .badInput
  else do
    let block ← ofRange (blockAt cipher cur.cipherPos)
    return {
      decDest := teaDecryptECB k (xorBlock cur.decDest block)
      ivPre := cur.ivCur
      ivCur := block
      cipherPos := cur.cipherPos + 8
      pos := 0 }

-- decDest[pos] ^ ivPre[pos]
def Cursor.read (cur : Cursor) : Tea UInt8 := do
  let d ← ofRange (cur.decDest[cur.pos]?)
  let i ← ofRange (cur.ivPre[cur.pos]?)
  return d ^^^ i

def skipSalt (cipher : List UInt8) (k : Key) : Nat → Nat → Cursor → Tea Cursor
  | 0, _, _ => .error .spinning
  | fuel + 1, saltCount, cur =>
    if saltCount ≤ 2 then
      if cur.pos = 8 then do skipSalt cipher k fuel saltCount (← advance cipher k cur)
      else skipSalt cipher k fuel (saltCount + 1) { cur with pos := cur.pos + 1 }
    else return cur

def setAt (out : List UInt8) (i : Nat) (b : UInt8) : Tea (List UInt8) :=
  if i < out.length then .ok (out.set i b) else .error .outOfRange

def extract (cipher : List UInt8) (k : Key) (plainLen : Nat) :
    Nat → Nat → List UInt8 → Cursor → Tea (List UInt8 × Cursor)
  | 0, _, _, _ => .error .spinning
  | fuel + 1, dataCount, out, cur =>
    if dataCount < plainLen then
      if cur.pos ≤ 7 then do
        let out ← setAt out dataCount (← cur.read)
        extract cipher k plainLen fuel (dataCount + 1) out { cur with pos := cur.pos + 1 }
      else do extract cipher k plainLen fuel dataCount out (← advance cipher k cur)
    else return (out, cur)

def verifyZeros (cipher : List UInt8) (k : Key) : Nat → Nat → Cursor → Tea Unit
  | 0, _, _ => .error .spinning
  | fuel + 1, zeroCount, cur =>
    if zeroCount ≤ 7 then
      if cur.pos ≤ 7 then do
        if (← cur.read) ≠ 0 then .error .badPadding
        else verifyZeros cipher k fuel (zeroCount + 1) { cur with pos := cur.pos + 1 }
      else do verifyZeros cipher k fuel zeroCount (← advance cipher k cur)
    else return ()

-- A turn either takes a byte or fetches the block that the next turn takes it from.
def turns (n : Nat) : Nat := 2 * n + 1

def teaDecrypt (cipher key : List UInt8) : Tea (List UInt8) :=
  if key.length ≠ 16 then .error .badInput
  else if cipher.length < 16 ∨ cipher.length % 8 ≠ 0 then .error .badInput
  else do
    let k ← ofRange (keyWords key)
    let first ← ofRange (blockAt cipher 0)
    let decDest := teaDecryptECB k first
    let padding := (decDest[0] &&& 7).toNat
    if cipher.length < 1 + padding + 2 + 7 then .error .badInput
    else do
      let plainLen := cipher.length - 1 - padding - 2 - 7
      let cur : Cursor := ⟨decDest, zeroBlock, first, 8, 1 + padding⟩
      let cur ← skipSalt cipher k (turns 2) 1 cur
      let (out, cur) ← extract cipher k plainLen (turns plainLen) 0 (List.replicate plainLen 0) cur
      verifyZeros cipher k (turns 7) 1 cur
      return out

end Datagram

import Madoka.Lib.Chaining
import Madoka.Datagram.Tea

namespace Datagram

open Lib

variable {k : Key} {b : Block}

theorem le32_byteOf (v : UInt32) : le32 (byteOf v 0) (byteOf v 1) (byteOf v 2) (byteOf v 3) = v := by
  have hv := v.toNat_lt
  apply UInt32.toNat_inj.mp
  simp only [le32, byteOf, UInt32.toNat_ofNat', UInt8.toNat_ofNat', Nat.reducePow]
  omega

theorem byteOf_le32 (a b c d : UInt8) : byteOf (le32 a b c d) 0 = a ∧ byteOf (le32 a b c d) 1 = b ∧
    byteOf (le32 a b c d) 2 = c ∧ byteOf (le32 a b c d) 3 = d := by
  have ha := a.toNat_lt
  have hb := b.toNat_lt
  have hc := c.toNat_lt
  have hd := d.toNat_lt
  refine ⟨?_, ?_, ?_, ?_⟩ <;>
  · apply UInt8.toNat_inj.mp
    simp only [le32, byteOf, UInt32.toNat_ofNat', UInt8.toNat_ofNat', Nat.reducePow]
    omega

theorem wordsOf_block (s : Words) (sum : UInt32) : wordsOf s.block sum = ⟨s.v0, s.v1, sum⟩ := by
  change Words.mk (le32 _ _ _ _) (le32 _ _ _ _) sum = _
  rw [Words.mk.injEq]
  exact ⟨le32_byteOf s.v0, le32_byteOf s.v1, rfl⟩

theorem block_wordsOf (b : Block) (sum : UInt32) : (wordsOf b sum).block = b := by
  obtain ⟨h0, h1, h2, h3⟩ := byteOf_le32 b[0] b[1] b[2] b[3]
  obtain ⟨h4, h5, h6, h7⟩ := byteOf_le32 b[4] b[5] b[6] b[7]
  simp only [Words.block, wordsOf, h0, h1, h2, h3, h4, h5, h6, h7]
  ext i hi
  have hcases : i = 0 ∨ i = 1 ∨ i = 2 ∨ i = 3 ∨ i = 4 ∨ i = 5 ∨ i = 6 ∨ i = 7 := by omega
  rcases hcases with rfl | rfl | rfl | rfl | rfl | rfl | rfl | rfl
  all_goals rfl

theorem decRound_encRound (k : Key) : Function.LeftInverse (decRound k) (encRound k) := by
  intro s
  simp only [decRound, encRound, UInt32.add_sub_cancel]

theorem sum_rounds (n : Nat) (s : Words) :
    ((encRound k)^[n] s).sum = s.sum + UInt32.ofNat n * teaDelta := by
  induction n with
  | zero => simp
  | succ n ih =>
    rw [Function.iterate_succ_apply']
    change ((encRound k)^[n] s).sum + teaDelta = _
    rw [ih, UInt32.ofNat_add, UInt32.add_mul, UInt32.add_assoc]
    congr 2

theorem decryptECB_encryptECB (k : Key) (b : Block) : teaDecryptECB k (teaEncryptECB k b) = b := by
  have hsum : ((encRound k)^[teaRounds] (wordsOf b 0)).sum = teaSumInit := by
    rw [sum_rounds]
    change 0 + UInt32.ofNat teaRounds * teaDelta = teaSumInit
    decide
  unfold teaDecryptECB teaEncryptECB
  rw [wordsOf_block, ← hsum, (decRound_encRound k).iterate teaRounds]
  exact block_wordsOf b 0

theorem xorBlock_getElem (a b : Block) (i : Nat) (hi : i < 8) : (xorBlock a b)[i] = a[i] ^^^ b[i] :=
  Vector.getElem_zipWith hi

theorem xorBlock_cancel (a b : Block) : xorBlock (xorBlock a b) b = a := by
  ext i hi
  rw [xorBlock_getElem, xorBlock_getElem, UInt8.xor_assoc, UInt8.xor_self, UInt8.xor_zero]

theorem xorBlock_comm (a b : Block) : xorBlock a b = xorBlock b a := by
  ext i hi
  rw [xorBlock_getElem, xorBlock_getElem, UInt8.xor_comm]

theorem zero_xorBlock (b : Block) : xorBlock zeroBlock b = b := by
  ext i hi
  rw [xorBlock_getElem, show zeroBlock[i] = 0 from Vector.getElem_replicate hi, UInt8.zero_xor]

def chaining (k : Key) : Chaining Block where
  xor := xorBlock
  enc := teaEncryptECB k
  dec := teaDecryptECB k
  cancel_right := xorBlock_cancel
  cancel_left := fun a b => by rw [xorBlock_comm b, xorBlock_cancel]
  dec_enc := decryptECB_encryptECB k

theorem encryptBlocks_eq (p c : Block) (bs : List Block) :
    encryptBlocks k p c bs = (chaining k).encrypt p c bs := by
  induction bs generalizing p c with
  | nil => rfl
  | cons b bs ih =>
    rw [encryptBlocks, Chaining.encrypt, ih]
    rfl

variable {l rest : List UInt8}

theorem exists_block (h : 8 ≤ l.length) : ∃ (b : Block) (rest : List UInt8), l = b.toList ++ rest := by
  rcases l with _ | ⟨b0, _ | ⟨b1, _ | ⟨b2, _ | ⟨b3, _ | ⟨b4, _ | ⟨b5, _ | ⟨b6, _ | ⟨b7, rest⟩⟩⟩⟩⟩⟩⟩⟩
  case cons.cons.cons.cons.cons.cons.cons.cons =>
    exact ⟨#v[b0, b1, b2, b3, b4, b5, b6, b7], rest, rfl⟩
  all_goals
    simp only [List.length_cons, List.length_nil] at h
    omega

theorem exists_bytes (b : Block) :
    ∃ b0 b1 b2 b3 b4 b5 b6 b7, b = #v[b0, b1, b2, b3, b4, b5, b6, b7] :=
  ⟨_, _, _, _, _, _, _, _, (block_wordsOf b 0).symm⟩

theorem blocks_cons (b : Block) (rest : List UInt8) : blocks (b.toList ++ rest) = b :: blocks rest := by
  obtain ⟨b0, b1, b2, b3, b4, b5, b6, b7, rfl⟩ := exists_bytes b
  rfl

theorem blockAt_zero (b : Block) (rest : List UInt8) : blockAt (b.toList ++ rest) 0 = some b := by
  obtain ⟨b0, b1, b2, b3, b4, b5, b6, b7, rfl⟩ := exists_bytes b
  rfl

def flat (bs : List Block) : List UInt8 := bs.flatMap Vector.toList

@[simp] theorem flat_cons (b : Block) (bs : List Block) : flat (b :: bs) = b.toList ++ flat bs := rfl

theorem flat_append (bs cs : List Block) : flat (bs ++ cs) = flat bs ++ flat cs :=
  List.flatMap_append

@[simp] theorem length_flat (bs : List Block) : (flat bs).length = 8 * bs.length := by
  induction bs with
  | nil => rfl
  | cons b bs ih =>
    rw [flat_cons, List.length_append, ih, Vector.length_toList, List.length_cons]
    omega

theorem blocks_flat (bs : List Block) : blocks (flat bs) = bs := by
  induction bs with
  | nil => rfl
  | cons b bs ih => rw [flat_cons, blocks_cons, ih]

theorem flat_blocks {n : Nat} (h : l.length = 8 * n) : flat (blocks l) = l := by
  induction n generalizing l with
  | zero =>
    obtain rfl := List.eq_nil_of_length_eq_zero h
    rfl
  | succ n ih =>
    obtain ⟨b, rest, rfl⟩ := exists_block (l := l) (by omega)
    rw [List.length_append, Vector.length_toList] at h
    rw [blocks_cons, flat_cons, ih (by omega)]

theorem blockAt_flat {bs cs : List Block} {b : Block} {i : Nat} (h : i = 8 * bs.length) :
    blockAt (flat (bs ++ b :: cs)) i = some b := by
  have hdrop : (flat (bs ++ b :: cs)).drop i = b.toList ++ flat cs := by
    rw [flat_append, flat_cons, List.drop_left' (by rw [length_flat, h])]
  rw [← blockAt_zero b (flat cs), ← hdrop]
  rfl

theorem uint32At_isSome {i : Nat} (h : i + 4 ≤ l.length) : (uint32At l i).isSome := by
  unfold uint32At
  have hlen : 4 ≤ (l.drop i).length := by
    rw [List.length_drop]
    omega
  generalize l.drop i = tail at hlen ⊢
  rcases tail with _ | ⟨b0, _ | ⟨b1, _ | ⟨b2, _ | ⟨b3, rest⟩⟩⟩⟩
  case cons.cons.cons.cons => rfl
  all_goals
    simp only [List.length_cons, List.length_nil] at hlen
    omega

theorem keyWords_isSome (h : l.length = 16) : ∃ k, keyWords l = some k := by
  obtain ⟨k0, h0⟩ := Option.isSome_iff_exists.mp (@uint32At_isSome l 0 (by omega))
  obtain ⟨k1, h1⟩ := Option.isSome_iff_exists.mp (@uint32At_isSome l 4 (by omega))
  obtain ⟨k2, h2⟩ := Option.isSome_iff_exists.mp (@uint32At_isSome l 8 (by omega))
  obtain ⟨k3, h3⟩ := Option.isSome_iff_exists.mp (@uint32At_isSome l 12 (by omega))
  exact ⟨⟨k0, k1, k2, k3⟩, by simp [keyWords, h0, h1, h2, h3]⟩

end Datagram

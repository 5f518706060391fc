import Mathlib.Tactic.SplitIfs
import Madoka.Datagram.Chained

namespace Datagram

open Lib

def decrypted (k : Key) (cipher : List UInt8) : List UInt8 :=
  flat ((chaining k).decrypt zeroBlock zeroBlock (blocks cipher))

-- Decrypt everything, look at the padding count and the zeros at the end, slice.
def teaReference (cipher key : List UInt8) : Tea (List UInt8) :=
  let n := cipher.length
  match keyWords key with
  | none => .error .badInput
  | some k =>
    if key.length ≠ 16 ∨ n < 16 ∨ n % 8 ≠ 0 then .error .badInput
    else
      let b := decrypted k cipher
      let pad := (b.headD 0).toNat % 8
      if n < 1 + pad + 2 + 7 then .error .badInput
      else if (b.drop (n - 7)).any (· ≠ 0) then .error .badPadding
      else .ok ((b.drop (1 + pad + 2)).take (n - 7 - (1 + pad + 2)))

variable {k : Key} {ys : List Block} {cur : Cursor} {p r fuel : Nat}

-- The cursor stands at byte p of the plaintext: the blocks before y are behind it.
structure At (k : Key) (ys : List Block) (cur : Cursor) (p : Nat) (done : List Block) (y : Block)
    (rest : List Block) : Prop where
  split : ys = done ++ y :: rest
  pre : cur.ivPre = ((chaining k).behind zeroBlock zeroBlock done).2
  dest : cur.decDest = teaDecryptECB k (xorBlock ((chaining k).behind zeroBlock zeroBlock done).1 y)
  own : cur.ivCur = y
  cipherPos : cur.cipherPos = 8 * (done.length + 1)
  pos : cur.pos ≤ 8
  place : p = 8 * done.length + cur.pos

def Stands (k : Key) (ys : List Block) (cur : Cursor) (p : Nat) : Prop :=
  ∃ done y rest, At k ys cur p done y rest

theorem stands_start (y : Block) (rest : List Block) {p : Nat} (hp : p ≤ 8) :
    Stands k (y :: rest) ⟨teaDecryptECB k y, zeroBlock, y, 8, p⟩ p := by
  refine ⟨[], y, rest, rfl, rfl, ?_, rfl, rfl, hp, ?_⟩
  · change _ = teaDecryptECB k (xorBlock zeroBlock y)
    rw [zero_xorBlock]
  · rw [List.length_nil, Nat.mul_zero, Nat.zero_add]

theorem Stands.read (h : Stands k ys cur p) (hpos : cur.pos ≤ 7) :
    ∃ x, cur.read = .ok x ∧ (flat ((chaining k).decrypt zeroBlock zeroBlock ys))[p]? = some x := by
  obtain ⟨done, y, rest, h⟩ := h
  have hlt : cur.pos < 8 := by omega
  have hblock : (flat ((chaining k).decrypt zeroBlock zeroBlock ys))[p]? =
      (xorBlock cur.decDest cur.ivPre).toList[cur.pos]? := by
    have hlen : (flat ((chaining k).decrypt zeroBlock zeroBlock done)).length = 8 * done.length := by
      rw [length_flat, Chaining.length_decrypt]
    rw [h.split, Chaining.decrypt_append, flat_append, h.place,
      List.getElem?_append_right (by omega), hlen, Nat.add_sub_cancel_left, Chaining.decrypt, flat_cons,
      List.getElem?_append_left (by rw [Vector.length_toList]; exact hlt), h.dest, h.pre]
    rfl
  refine ⟨cur.decDest[cur.pos] ^^^ cur.ivPre[cur.pos], ?_, ?_⟩
  · unfold Cursor.read
    rw [Vector.getElem?_eq_getElem hlt, Vector.getElem?_eq_getElem hlt]
    rfl
  · rw [hblock, Vector.getElem?_toList, Vector.getElem?_eq_getElem hlt, xorBlock_getElem _ _ _ hlt]

theorem Stands.bump (h : Stands k ys cur p) (hpos : cur.pos ≤ 7) :
    Stands k ys { cur with pos := cur.pos + 1 } (p + 1) := by
  obtain ⟨done, y, rest, h⟩ := h
  have hplace := h.place
  exact ⟨done, y, rest, h.split, h.pre, h.dest, h.own, h.cipherPos, by dsimp only; omega,
    by dsimp only; omega⟩

theorem Stands.advance (h : Stands k ys cur p) (hpos : cur.pos = 8) (hp : p < 8 * ys.length) :
    ∃ cur', advance (flat ys) k cur = .ok cur' ∧ Stands k ys cur' p ∧ cur'.pos = 0 := by
  obtain ⟨done, y, rest, h⟩ := h
  have hplace := h.place
  have hsplit := h.split
  have hcipher := h.cipherPos
  cases rest with
  | nil =>
    rw [hsplit, List.length_append, List.length_singleton] at hp
    omega
  | cons z rest =>
    have hsplit' : ys = (done ++ [y]) ++ z :: rest := by
      rw [hsplit, List.append_assoc, List.singleton_append]
    have hlen : (done ++ [y]).length = done.length + 1 := by
      rw [List.length_append, List.length_singleton]
    have hblock : blockAt (flat ys) cur.cipherPos = some z := by
      rw [hsplit']
      exact blockAt_flat (by rw [hlen, hcipher])
    refine ⟨⟨teaDecryptECB k (xorBlock cur.decDest z), cur.ivCur, z, cur.cipherPos + 8, 0⟩, ?_,
      ⟨done ++ [y], z, rest, hsplit', ?_, ?_, rfl, ?_, Nat.zero_le 8, ?_⟩, rfl⟩
    · unfold Datagram.advance
      rw [if_neg, hblock]
      · rfl
      · rw [length_flat, hsplit', List.length_append, hlen, List.length_cons]
        omega
    · rw [Chaining.behind_append]
      exact h.own
    · rw [Chaining.behind_append, h.dest]
      rfl
    · dsimp only
      omega
    · dsimp only
      omega

theorem Stands.full (h : Stands k ys cur p) (hpos : ¬ cur.pos ≤ 7) : cur.pos = 8 := by
  obtain ⟨_, _, _, hat⟩ := h
  have hle := hat.pos
  omega

theorem skipSalt_ends (hp : p + r ≤ 8 * ys.length) {saltCount : Nat} (hr : saltCount + r = 3)
    (hfuel : turns r ≤ fuel) (h : Stands k ys cur p) :
    ∃ cur', skipSalt (flat ys) k fuel saltCount cur = .ok cur' ∧ Stands k ys cur' (p + r) := by
  unfold turns at hfuel
  induction r generalizing saltCount fuel cur p with
  | zero =>
    obtain ⟨fuel, rfl⟩ : ∃ n, fuel = n + 1 := ⟨fuel - 1, by omega⟩
    refine ⟨cur, ?_, h⟩
    rw [skipSalt, if_neg (by omega)]
    rfl
  | succ r ih =>
    have htake : ∀ {fuel : Nat} {cur : Cursor}, 2 * r + 1 ≤ fuel → Stands k ys cur p → cur.pos ≤ 7 →
        ∃ cur', skipSalt (flat ys) k (fuel + 1) saltCount cur = .ok cur' ∧
          Stands k ys cur' (p + (r + 1)) := by
      intro fuel cur hfuel h hpos
      obtain ⟨cur', hrun, hends⟩ := ih (by omega) (show saltCount + 1 + r = 3 by omega)
        hfuel (h.bump hpos)
      refine ⟨cur', ?_, by rwa [Nat.add_assoc, Nat.add_comm 1] at hends⟩
      rw [skipSalt, if_pos (by omega), if_neg (by omega)]
      exact hrun
    obtain ⟨fuel, rfl⟩ : ∃ n, fuel = n + 2 := ⟨fuel - 2, by omega⟩
    by_cases hpos : cur.pos ≤ 7
    · exact htake (by omega) h hpos
    · obtain ⟨cur', hadv, hstands, hzero⟩ := h.advance (h.full hpos) (by omega)
      rw [skipSalt, if_pos (by omega), if_pos (h.full hpos), hadv]
      exact htake (by omega) hstands (by omega)

theorem drop_take_succ {b : List UInt8} {x : UInt8} (h : b[p]? = some x) (r : Nat) :
    (b.drop p).take (r + 1) = x :: (b.drop (p + 1)).take r := by
  obtain ⟨hp, rfl⟩ := List.getElem?_eq_some_iff.mp h
  rw [List.drop_eq_getElem_cons hp, List.take_succ_cons]

theorem extract_ends {plainLen dataCount : Nat} {out : List UInt8} (hp : p + r ≤ 8 * ys.length)
    (hr : dataCount + r = plainLen) (hout : out.length = plainLen) (hfuel : turns r ≤ fuel)
    (h : Stands k ys cur p) :
    ∃ cur', extract (flat ys) k plainLen fuel dataCount out cur = .ok (out.take dataCount ++
        ((flat ((chaining k).decrypt zeroBlock zeroBlock ys)).drop p).take r, cur') ∧
      Stands k ys cur' (p + r) := by
  unfold turns at hfuel
  induction r generalizing dataCount fuel cur p out with
  | zero =>
    obtain ⟨fuel, rfl⟩ : ∃ n, fuel = n + 1 := ⟨fuel - 1, by omega⟩
    refine ⟨cur, ?_, h⟩
    rw [extract, if_neg (by omega), List.take_zero, List.append_nil, List.take_of_length_le (by omega)]
    rfl
  | succ r ih =>
    have htake : ∀ {fuel : Nat} {cur : Cursor}, 2 * r + 1 ≤ fuel → Stands k ys cur p → cur.pos ≤ 7 →
        ∃ cur', extract (flat ys) k plainLen (fuel + 1) dataCount out cur = .ok (out.take dataCount ++
            ((flat ((chaining k).decrypt zeroBlock zeroBlock ys)).drop p).take (r + 1), cur') ∧
          Stands k ys cur' (p + (r + 1)) := by
      intro fuel cur hfuel h hpos
      obtain ⟨x, hread, hx⟩ := h.read hpos
      have hset : setAt out dataCount x = .ok (out.set dataCount x) := if_pos (by omega)
      obtain ⟨cur', hrun, hends⟩ := ih (by omega) (show dataCount + 1 + r = plainLen by omega)
        (show (out.set dataCount x).length = plainLen by rw [List.length_set, hout]) hfuel (h.bump hpos)
      refine ⟨cur', ?_, by rwa [Nat.add_assoc, Nat.add_comm 1] at hends⟩
      rw [extract, if_pos (by omega), if_pos hpos, hread]
      change (setAt out dataCount x >>= _) = _
      rw [hset]
      refine hrun.trans ?_
      rw [drop_take_succ hx, List.take_add_one, List.take_set_of_le (Nat.le_refl _),
        List.getElem?_set_self (by omega), Option.toList_some, List.append_assoc, List.singleton_append]
    obtain ⟨fuel, rfl⟩ : ∃ n, fuel = n + 2 := ⟨fuel - 2, by omega⟩
    by_cases hpos : cur.pos ≤ 7
    · exact htake (by omega) h hpos
    · obtain ⟨cur', hadv, hstands, hzero⟩ := h.advance (h.full hpos) (by omega)
      rw [extract, if_pos (by omega), if_neg hpos, hadv]
      exact htake (by omega) hstands (by omega)

theorem verifyZeros_ends {zeroCount : Nat} (hp : p + r ≤ 8 * ys.length) (hr : zeroCount + r = 8)
    (hfuel : turns r ≤ fuel) (h : Stands k ys cur p) :
    verifyZeros (flat ys) k fuel zeroCount cur =
      if (((flat ((chaining k).decrypt zeroBlock zeroBlock ys)).drop p).take r).any (· ≠ 0) then
        .error .badPadding
      else .ok () := by
  unfold turns at hfuel
  induction r generalizing zeroCount fuel cur p with
  | zero =>
    obtain ⟨fuel, rfl⟩ : ∃ n, fuel = n + 1 := ⟨fuel - 1, by omega⟩
    rw [verifyZeros, if_neg (by omega), List.take_zero]
    rfl
  | succ r ih =>
    have htake : ∀ {fuel : Nat} {cur : Cursor}, 2 * r + 1 ≤ fuel → Stands k ys cur p → cur.pos ≤ 7 →
        verifyZeros (flat ys) k (fuel + 1) zeroCount cur =
          if (((flat ((chaining k).decrypt zeroBlock zeroBlock ys)).drop p).take (r + 1)).any (· ≠ 0) then
            .error .badPadding
          else .ok () := by
      intro fuel cur hfuel h hpos
      obtain ⟨x, hread, hx⟩ := h.read hpos
      rw [verifyZeros, if_pos (by omega), if_pos hpos, hread, drop_take_succ hx, List.any_cons]
      change (if x ≠ 0 then _ else _) = _
      by_cases hzero : x = 0
      · rw [if_neg (not_not.mpr hzero), ih (by omega) (by omega) hfuel (h.bump hpos), hzero]
        rfl
      · rw [if_pos hzero, if_pos]
        simp [hzero]
    obtain ⟨fuel, rfl⟩ : ∃ n, fuel = n + 2 := ⟨fuel - 2, by omega⟩
    by_cases hpos : cur.pos ≤ 7
    · exact htake (by omega) h hpos
    · obtain ⟨cur', hadv, hstands, hzero⟩ := h.advance (h.full hpos) (by omega)
      rw [verifyZeros, if_pos (by omega), if_neg hpos, hadv]
      exact htake (by omega) hstands (by omega)

theorem length_decrypted (k : Key) (ys : List Block) : (decrypted k (flat ys)).length = 8 * ys.length := by
  rw [decrypted, length_flat, Chaining.length_decrypt, blocks_flat]

theorem headD_decrypted (y : Block) (rest : List Block) :
    (decrypted k (flat (y :: rest))).headD 0 = (teaDecryptECB k y).get 0 := by
  have hzero : xorBlock (teaDecryptECB k (xorBlock zeroBlock y)) zeroBlock = teaDecryptECB k y := by
    rw [zero_xorBlock, xorBlock_comm, zero_xorBlock]
  rw [decrypted, blocks_flat, Chaining.decrypt]
  change ((xorBlock (teaDecryptECB k (xorBlock zeroBlock y)) zeroBlock).toList ++ _).headD 0 = _
  rw [hzero]
  obtain ⟨b0, b1, b2, b3, b4, b5, b6, b7, hb⟩ := exists_bytes (teaDecryptECB k y)
  rw [hb]
  rfl

theorem and_seven (x : UInt8) : (x &&& 7).toNat = x.toNat % 8 := by
  rw [UInt8.toNat_and]
  exact Nat.and_two_pow_sub_one_eq_mod x.toNat 3

theorem loops_eq {y : Block} {rest : List Block} {padding : Nat} (hpad : padding < 8)
    (hn : 1 + padding + 2 + 7 ≤ (flat (y :: rest)).length) :
    (do
      let plainLen := (flat (y :: rest)).length - 1 - padding - 2 - 7
      let cur : Cursor := ⟨teaDecryptECB k y, zeroBlock, y, 8, 1 + padding⟩
      let cur ← skipSalt (flat (y :: rest)) k (turns 2) 1 cur
      let (out, cur) ← extract (flat (y :: rest)) k plainLen (turns plainLen) 0
        (List.replicate plainLen 0) cur
      verifyZeros (flat (y :: rest)) k (turns 7) 1 cur
      return out : Tea (List UInt8)) =
    let b := decrypted k (flat (y :: rest))
    let n := (flat (y :: rest)).length
    if (b.drop (n - 7)).any (· ≠ 0) then .error .badPadding
    else .ok ((b.drop (1 + padding + 2)).take (n - 7 - (1 + padding + 2))) := by
  have hb : flat ((chaining k).decrypt zeroBlock zeroBlock (y :: rest)) = decrypted k (flat (y :: rest)) := by
    rw [decrypted, blocks_flat]
  have hlen := length_flat (y :: rest)
  obtain ⟨cur, hskip, hcur⟩ := skipSalt_ends (r := 2) (by omega) rfl (Nat.le_refl _)
    (stands_start (k := k) y rest (show 1 + padding ≤ 8 by omega))
  generalize hplain : (flat (y :: rest)).length - 1 - padding - 2 - 7 = plainLen
  have hout : (List.replicate plainLen (0 : UInt8)).length = plainLen := List.length_replicate
  obtain ⟨cur', hextract, hcur'⟩ := extract_ends (by omega) (Nat.zero_add plainLen) hout
    (Nat.le_refl _) hcur
  have hzeros := verifyZeros_ends (r := 7) (by omega) rfl (Nat.le_refl _) hcur'
  have hend : 1 + padding + 2 + plainLen = (flat (y :: rest)).length - 7 := by omega
  have hall : (decrypted k (flat (y :: rest))).length = (flat (y :: rest)).length := by
    rw [length_decrypted, hlen]
  rw [hb, hend, List.take_of_length_le (by rw [List.length_drop]; omega)] at hzeros
  rw [hb, List.take_zero, List.nil_append] at hextract
  dsimp only
  rw [hskip]
  change (extract _ k plainLen _ 0 _ cur >>= _) = _
  rw [hextract]
  change (verifyZeros _ k _ 1 cur' >>= _) = _
  rw [hzeros, show (flat (y :: rest)).length - 7 - (1 + padding + 2) = plainLen by omega]
  split
  · rfl
  · rfl

theorem teaDecrypt_eq (cipher key : List UInt8) : teaDecrypt cipher key = teaReference cipher key := by
  unfold teaDecrypt teaReference
  by_cases hkey : key.length = 16
  · obtain ⟨k, hk⟩ := keyWords_isSome hkey
    rw [if_neg (not_not.mpr hkey), hk]
    dsimp only
    by_cases hbad : cipher.length < 16 ∨ cipher.length % 8 ≠ 0
    · rw [if_pos hbad, if_pos (Or.inr hbad)]
    · rw [if_neg hbad, if_neg (not_or.mpr ⟨not_not.mpr hkey, hbad⟩)]
      obtain ⟨ys, hys⟩ : ∃ ys, cipher = flat ys :=
        ⟨blocks cipher, (flat_blocks (n := cipher.length / 8) (by omega)).symm⟩
      have hlen := length_flat ys
      rw [hys] at hbad ⊢
      cases ys with
      | nil => exact absurd (Or.inl (by decide)) hbad
      | cons y rest =>
        have hfirst : blockAt (flat (y :: rest)) 0 = some y := blockAt_zero y (flat rest)
        have hpad : ((teaDecryptECB k y)[0] &&& 7).toNat = ((teaDecryptECB k y)[0]).toNat % 8 :=
          and_seven _
        have hhead : (decrypted k (flat (y :: rest))).headD 0 = (teaDecryptECB k y)[0] :=
          headD_decrypted y rest
        rw [hfirst, hhead]
        change (if (flat (y :: rest)).length < 1 + ((teaDecryptECB k y)[0] &&& 7).toNat + 2 + 7 then _
          else _) = _
        rw [hpad]
        split
        · rfl
        · exact loops_eq (Nat.mod_lt _ (by decide)) (by omega)
  · rw [if_pos hkey]
    split
    · rfl
    · rw [if_pos (Or.inl hkey)]

theorem reference_defined (cipher key : List UInt8) :
    teaReference cipher key ≠ .error .outOfRange ∧ teaReference cipher key ≠ .error .spinning := by
  unfold teaReference
  dsimp only
  split
  · exact ⟨nofun, nofun⟩
  · split_ifs <;> exact ⟨nofun, nofun⟩

theorem tea_defined (cipher key : List UInt8) :
    teaDecrypt cipher key ≠ .error .outOfRange ∧ teaDecrypt cipher key ≠ .error .spinning := by
  rw [teaDecrypt_eq]
  exact reference_defined cipher key

-- The lazy decoder is the reference: no index leaves its array, and the loops end.
theorem tea_streamed (cipher key : List UInt8) : teaDecrypt cipher key = teaReference cipher key ∧
    teaDecrypt cipher key ≠ .error .outOfRange ∧ teaDecrypt cipher key ≠ .error .spinning :=
  ⟨teaDecrypt_eq cipher key, tea_defined cipher key⟩

section roundtrip

variable {n : Nat} {salt : UInt8 × UInt8} {plain key : List UInt8}

theorem encLen_eq (n : Nat) : encLen n = 1 + teaPadding n + 2 + n + 7 ∧ encLen n % 8 = 0 ∧
    teaPadding n < 8 := by
  unfold encLen teaPadding
  dsimp only
  split <;> omega

theorem teaBuffer_eq (salt : UInt8 × UInt8) (plain : List UInt8) : teaBuffer salt plain =
    UInt8.ofNat (teaPadding plain.length) :: (List.replicate (teaPadding plain.length) 0 ++
      salt.1 :: salt.2 :: (plain ++ List.replicate 7 0)) := by
  obtain ⟨hlen, -, -⟩ := encLen_eq plain.length
  have htail : encLen plain.length - (UInt8.ofNat (teaPadding plain.length) ::
      (List.replicate (teaPadding plain.length) 0 ++ salt.1 :: salt.2 :: plain)).length = 7 := by
    simp only [List.length_cons, List.length_append, List.length_replicate]
    omega
  unfold teaBuffer
  dsimp only
  rw [htail, List.cons_append, List.append_assoc, List.cons_append, List.cons_append]

theorem length_teaBuffer (salt : UInt8 × UInt8) (plain : List UInt8) :
    (teaBuffer salt plain).length = encLen plain.length := by
  rw [teaBuffer_eq, (encLen_eq plain.length).1]
  simp only [List.length_cons, List.length_append, List.length_replicate]
  omega

theorem drop_teaBuffer (salt : UInt8 × UInt8) (plain : List UInt8) :
    (teaBuffer salt plain).drop (1 + teaPadding plain.length + 2) = plain ++ List.replicate 7 0 := by
  rw [teaBuffer_eq, Nat.add_assoc, Nat.add_comm 1, List.drop_succ_cons, ← List.drop_drop,
    List.drop_left' List.length_replicate]
  rfl

theorem reference_buffer {cipher : List UInt8} {k : Key} (hkey : key.length = 16)
    (hk : keyWords key = some k) (hlen : cipher.length = (teaBuffer salt plain).length)
    (hdec : decrypted k cipher = teaBuffer salt plain) : teaReference cipher key = .ok plain := by
  obtain ⟨henc, hmod, hpad⟩ := encLen_eq plain.length
  have hbuf := length_teaBuffer salt plain
  have hdrop := drop_teaBuffer salt plain
  have hhead : (((teaBuffer salt plain).headD 0).toNat) % 8 = teaPadding plain.length := by
    rw [teaBuffer_eq, List.headD_cons, UInt8.toNat_ofNat', Nat.mod_mod_of_dvd _ (by decide)]
    exact Nat.mod_eq_of_lt hpad
  have hzeros : (teaBuffer salt plain).drop (cipher.length - 7) = List.replicate 7 0 := by
    have hsplit : cipher.length - 7 = 1 + teaPadding plain.length + 2 + plain.length := by omega
    rw [hsplit, ← List.drop_drop, hdrop, List.drop_left]
  unfold teaReference
  rw [hk]
  dsimp only
  rw [if_neg (by omega), hdec, hhead, if_neg (by omega), hzeros, if_neg (by decide), hdrop,
    show cipher.length - 7 - (1 + teaPadding plain.length + 2) = plain.length by omega, List.take_left]

theorem teaEncrypt_decrypts (salt : UInt8 × UInt8) (plain : List UInt8) (hkey : key.length = 16) :
    ∃ cipher, teaEncrypt salt plain key = .ok cipher ∧ teaDecrypt cipher key = .ok plain ∧
      cipher.length = encLen plain.length := by
  obtain ⟨k, hk⟩ := keyWords_isSome hkey
  obtain ⟨-, hmod, -⟩ := encLen_eq plain.length
  have hbuf := length_teaBuffer salt plain
  have hflat : flat (blocks (teaBuffer salt plain)) = teaBuffer salt plain :=
    flat_blocks (n := encLen plain.length / 8) (by omega)
  have hlen : (flat (encryptBlocks k zeroBlock zeroBlock (blocks (teaBuffer salt plain)))).length =
      (teaBuffer salt plain).length := by
    rw [length_flat, encryptBlocks_eq, Chaining.length_encrypt, ← length_flat, hflat]
  refine ⟨flat (encryptBlocks k zeroBlock zeroBlock (blocks (teaBuffer salt plain))), ?_, ?_,
    hlen.trans hbuf⟩
  · unfold teaEncrypt
    rw [if_neg (not_not.mpr hkey), hk]
    rfl
  · rw [teaDecrypt_eq]
    refine reference_buffer hkey hk hlen ?_
    rw [decrypted, blocks_flat, encryptBlocks_eq, Chaining.decrypt_encrypt, hflat]

theorem tea_round_trip (key : Vector UInt8 16) (salt : UInt8 × UInt8) (plain : List UInt8) :
    ∃ cipher, teaEncrypt salt plain key.toList = .ok cipher ∧ teaDecrypt cipher key.toList = .ok plain ∧
      cipher.length % 8 = 0 ∧ 16 ≤ cipher.length := by
  obtain ⟨cipher, henc, hdec, hlen⟩ := teaEncrypt_decrypts salt plain key.length_toList
  obtain ⟨hsum, hmod, -⟩ := encLen_eq plain.length
  exact ⟨cipher, henc, hdec, by omega, by omega⟩

end roundtrip

end Datagram

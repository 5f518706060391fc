import Madoka.Tokens.Jwt
import Madoka.MatchServer.Rosters

namespace MatchServer

open Lib

-- A field of the wire: its length as a u32, little-endian, and its bytes.
def wireField (b : List UInt8) : List UInt8 :=
  le32 b.length ++ b

-- What `sign` mints, as the three scans see it.
structure Minted (tok : List UInt8) : Prop where
  shape : ∃ body signature, tok = jwtHeaderMarker ++ dot :: (body ++ dot :: signature) ∧
    signature.length = 43 ∧ ∀ x ∈ body ++ signature, isJWTChar x = true ∧ x ≠ dot

variable {a b p tail tok : List UInt8} {x : UInt8} {i : Nat}

theorem url_digit_spec : ∀ i < 64,
    isJWTChar (Base64.url.digit i) = true ∧ Base64.url.digit i ≠ dot := by
  decide

theorem b64url_spec (bytes : List UInt8) :
    ∀ x ∈ Tokens.b64url bytes, isJWTChar x = true ∧ x ≠ dot := by
  intro x hx
  rw [Tokens.b64url_eq] at hx
  obtain ⟨i, hi, rfl⟩ := Base64.mem_encode hx
  exact url_digit_spec i hi

theorem marker_eq : Tokens.b64url Tokens.header = jwtHeaderMarker := by
  decide +kernel

theorem minted_sign (mac : Tokens.Mac) (secret body : List UInt8) : Minted (Tokens.sign mac secret body) := by
  refine ⟨Tokens.b64url body,
    Tokens.b64url (mac.digest secret (Tokens.signingInput body)), ?_,
    Tokens.length_signature mac secret _, ?_⟩
  · simp only [Tokens.sign, Tokens.signingInput, marker_eq, List.append_assoc, List.cons_append]
    rfl
  · intro x hx
    rcases List.mem_append.mp hx with hx | hx
    · exact b64url_spec _ x hx
    · exact b64url_spec _ x hx

theorem marker_spec : ∀ x ∈ jwtHeaderMarker, isJWTChar x = true ∧ x ≠ dot := by
  decide +kernel

theorem length_marker : jwtHeaderMarker.length = 36 := by
  decide +kernel

theorem isJWTChar_zero : isJWTChar 0 = false := by
  decide

namespace Minted

theorem prefix_marker (h : Minted tok) : jwtHeaderMarker <+: tok := by
  obtain ⟨body, signature, rfl, -, -⟩ := h.shape
  exact List.prefix_append _ _

theorem isJWTChar (h : Minted tok) (hx : x ∈ tok) : MatchServer.isJWTChar x = true := by
  obtain ⟨body, signature, rfl, -, hspec⟩ := h.shape
  simp only [List.mem_append, List.mem_cons] at hx hspec
  rcases hx with hx | rfl | hx | rfl | hx
  · exact (marker_spec x hx).1
  · decide
  · exact (hspec x (Or.inl hx)).1
  · decide
  · exact (hspec x (Or.inr hx)).1

theorem count_dot (h : Minted tok) : tok.count dot = 2 := by
  obtain ⟨body, signature, rfl, -, hspec⟩ := h.shape
  have hm : jwtHeaderMarker.count dot = 0 :=
    List.count_eq_zero.mpr fun hx => (marker_spec _ hx).2 rfl
  have hb : body.count dot = 0 :=
    List.count_eq_zero.mpr fun hx => (hspec _ (List.mem_append_left _ hx)).2 rfl
  have hs : signature.count dot = 0 :=
    List.count_eq_zero.mpr fun hx => (hspec _ (List.mem_append_right _ hx)).2 rfl
  simp [List.count_append, hm, hb, hs]

theorem length_last (h : Minted tok) : (tok.reverse.takeWhile fun x => x ≠ dot).length = 43 := by
  obtain ⟨body, signature, rfl, hlen, hspec⟩ := h.shape
  have hs : ∀ x ∈ signature.reverse, (decide (x ≠ dot)) = true := by
    intro x hx
    exact decide_eq_true (hspec x (List.mem_append_right _ (List.mem_reverse.mp hx))).2
  have hrev : (jwtHeaderMarker ++ dot :: (body ++ dot :: signature)).reverse
      = signature.reverse ++ dot :: (body.reverse ++ dot :: jwtHeaderMarker.reverse) := by
    simp
  rw [hrev, List.takeWhile_append_of_pos hs, List.takeWhile_cons_of_neg (by simp)]
  simpa using hlen

theorem complete (h : Minted tok) : isCompleteJWT tok = true := by
  rw [isCompleteJWT, h.count_dot, h.length_last]
  rfl

theorem incomplete (h : Minted (p ++ tail)) (htail : tail ≠ []) : isCompleteJWT p = false := by
  by_contra hc
  simp only [Bool.not_eq_false, isCompleteJWT, Bool.and_eq_true, beq_iff_eq, decide_eq_true_eq] at hc
  obtain ⟨hcount, hlast⟩ := hc
  have htotal := h.count_dot
  rw [List.count_append] at htotal
  have hfree : ∀ x ∈ tail.reverse, (decide (x ≠ dot)) = true := by
    rintro x hx
    refine decide_eq_true fun hdot => ?_
    have : 0 < tail.count dot := List.count_pos_iff.mpr (hdot ▸ List.mem_reverse.mp hx)
    omega
  have hlen := h.length_last
  rw [List.reverse_append, List.takeWhile_append_of_pos hfree, List.length_append,
    List.length_reverse] at hlen
  have := List.length_pos_iff.mpr htail
  omega

theorem length_gt (h : Minted tok) : 80 < tok.length := by
  obtain ⟨body, signature, rfl, hlen, -⟩ := h.shape
  simp only [List.length_append, List.length_cons, length_marker, hlen]
  omega

theorem ne_nil (h : Minted tok) : tok ≠ [] := by
  intro hnil
  have := h.length_gt
  simp [hnil] at this

end Minted

theorem le32_eq (n : Nat) : le32 n = [UInt8.ofNat (n % 256), UInt8.ofNat (n / 256 % 256),
    UInt8.ofNat (n / 65536 % 256), UInt8.ofNat (n / 16777216 % 256)] := rfl

theorem length_le32 (n : Nat) : (le32 n).length = 4 := rfl

theorem u8_append (i : Nat) : u8 (a ++ b) (a.length + i) = u8 b i := by
  simp [u8, List.getD_eq_getElem?_getD, List.getElem?_append_right]

theorem u32le_append (a b : List UInt8) : u32le (a ++ b) a.length = u32le b 0 := by
  have h0 := u8_append (a := a) (b := b) 0
  rw [Nat.add_zero] at h0
  simp only [u32le, u16le, Nat.zero_add, Nat.add_assoc, Nat.reduceAdd, h0, u8_append]

theorem u32le_le32 {n : Nat} (h : n < 4294967296) (b : List UInt8) : u32le (le32 n ++ b) 0 = n := by
  simp only [u32le, u16le, u8, le32_eq, List.cons_append, List.nil_append, List.getD_cons_zero,
    List.getD_cons_succ, Nat.zero_add, Nat.reduceAdd, UInt8.toNat_ofNat']
  omega

theorem le32_small {n : Nat} (h : n < 16777216) : ∃ l, le32 n = l ++ [0] ∧ l.length = 3 := by
  refine ⟨[UInt8.ofNat (n % 256), UInt8.ofNat (n / 256 % 256), UInt8.ofNat (n / 65536 % 256)], ?_, rfl⟩
  have htop : n / 16777216 = 0 := Nat.div_eq_of_lt h
  rw [le32_eq, htop]
  rfl

theorem extractJWT_marker (h : jwtHeaderMarker <+: b) : extractJWT b = b.takeWhile isJWTChar := by
  cases b with
  | nil => exact absurd h (by decide)
  | cons x b => rw [extractJWT, if_pos (List.isPrefixOf_iff_prefix.mpr h)]

theorem extractJWT_skip (h : ∀ c d, a = c ++ d → d ≠ [] → ¬ jwtHeaderMarker <+: d ++ b) :
    extractJWT (a ++ b) = extractJWT b := by
  induction a with
  | nil => rfl
  | cons x a ih =>
    have hx : ¬ jwtHeaderMarker.isPrefixOf (x :: (a ++ b)) = true := by
      rw [List.isPrefixOf_iff_prefix]
      exact h [] (x :: a) rfl (List.cons_ne_nil x a)
    rw [List.cons_append, extractJWT, if_neg hx]
    refine ih fun c d hcd hd => h (x :: c) d ?_ hd
    rw [hcd, List.cons_append]

theorem marker_inside {d : List UInt8} (h : jwtHeaderMarker <+: d ++ [0] ++ b) :
    jwtHeaderMarker <+: d := by
  rcases Nat.lt_or_ge d.length jwtHeaderMarker.length with hlt | hge
  · have hzero : (0 : UInt8) ∈ jwtHeaderMarker := by
      have hpre : d ++ [0] <+: jwtHeaderMarker :=
        List.prefix_of_prefix_length_le (List.prefix_append _ b) h (by simpa using Nat.succ_le_of_lt hlt)
      exact hpre.subset (by simp)
    exact absurd (marker_spec 0 hzero).1 (by decide)
  · rw [List.append_assoc] at h
    exact List.prefix_of_prefix_length_le h (List.prefix_append d _) hge

theorem takeWhile_stop (a b : List UInt8) (h : isJWTChar x = false) :
    (a ++ x :: b).takeWhile isJWTChar = a.takeWhile isJWTChar := by
  induction a with
  | nil => simp [h]
  | cons y a ih =>
    cases hy : isJWTChar y with
    | true => simp [hy, ih]
    | false => simp [hy]

theorem extractJWT_inside (h : jwtHeaderMarker <:+: a) (b : List UInt8) :
    extractJWT (a ++ 0 :: b) = extractJWT a := by
  induction a with
  | nil => exact absurd h (by decide)
  | cons x a ih =>
    by_cases hx : jwtHeaderMarker <+: x :: a
    · rw [extractJWT_marker hx, extractJWT_marker (hx.trans (List.prefix_append _ _))]
      exact takeWhile_stop (x :: a) b isJWTChar_zero
    · have hx' : ¬ jwtHeaderMarker <+: x :: (a ++ 0 :: b) := by
        intro hpre
        apply hx
        apply marker_inside (b := b)
        simpa using hpre
      rw [List.cons_append, extractJWT, extractJWT, if_neg (mt List.isPrefixOf_iff_prefix.mp hx),
        if_neg (mt List.isPrefixOf_iff_prefix.mp hx')]
      exact ih ((List.infix_cons_iff.mp h).resolve_left hx)

theorem extractJWT_infix (b : List UInt8) : extractJWT b <:+: b := by
  induction b with
  | nil => exact List.infix_rfl
  | cons x b ih =>
    rw [extractJWT]
    split
    · exact (List.takeWhile_prefix _).isInfix
    · exact ih.trans (List.suffix_cons x b).isInfix

theorem extractJWT_ne_nil (h : jwtHeaderMarker <:+: b) : extractJWT b ≠ [] := by
  induction b with
  | nil => exact absurd h (by decide)
  | cons x b ih =>
    by_cases hpre : jwtHeaderMarker <+: x :: b
    · rw [extractJWT_marker hpre]
      obtain ⟨l, hl⟩ := hpre
      rw [← hl, List.takeWhile_append_of_pos fun y hy => (marker_spec y hy).1]
      exact List.append_ne_nil_of_left_ne_nil (by decide) _
    · rw [extractJWT, if_neg (mt List.isPrefixOf_iff_prefix.mp hpre)]
      exact ih ((List.infix_cons_iff.mp h).resolve_left hpre)

-- The scan of a whole field stops at the field's end exactly when nothing before it completes a
-- marker and the byte behind it is of no token.
theorem takeWhile_token (h : Minted tok) (rest : List UInt8) :
    (tok ++ rest).takeWhile isJWTChar = tok ++ rest.takeWhile isJWTChar :=
  List.takeWhile_append_of_pos fun _ hx => h.isJWTChar hx

def Ends (rest : List UInt8) : Prop :=
  ∀ x ∈ rest.head?, isJWTChar x = false

theorem takeWhile_eq_nil_iff (rest : List UInt8) : rest.takeWhile isJWTChar = [] ↔ Ends rest := by
  cases rest with
  | nil => simp [Ends]
  | cons x rest => simp [Ends]

theorem infix_le32 {l : List UInt8} (h : le32 i = l ++ [0]) (front : List UInt8) :
    jwtHeaderMarker <:+: front ++ le32 i ↔ jwtHeaderMarker <:+: front ++ l := by
  rw [h, ← List.append_assoc]
  constructor
  · rintro ⟨u, v, huv⟩
    rcases List.eq_nil_or_concat' v with rfl | ⟨v, y, rfl⟩
    · have hlast := congrArg List.getLast? huv
      rw [List.append_nil, List.getLast?_concat, List.getLast?_append] at hlast
      have hm : jwtHeaderMarker.getLast? = some 57 := by decide
      rw [hm] at hlast
      exact absurd hlast (by simp)
    · rw [← List.append_assoc] at huv
      exact ⟨u, v, (List.append_inj' huv rfl).1⟩
  · exact fun hin => hin.trans (List.prefix_append _ _).isInfix

-- A scan that begins before the token never returns it: the token is longer than what is left.
theorem not_infix_front (h : Minted tok) {l front : List UInt8} (hl : l.length = 3)
    (hfree : ¬ jwtHeaderMarker <:+: front) : ¬ tok <:+: front ++ l := by
  rintro ⟨u, v, huv⟩
  obtain ⟨more, rfl⟩ := h.prefix_marker
  have hmore := h.length_gt
  rw [List.length_append, length_marker] at hmore
  apply hfree
  have hpre : u ++ jwtHeaderMarker <+: front := by
    have hwhole : u ++ jwtHeaderMarker <+: front ++ l := ⟨more ++ v, by simpa using huv⟩
    have hlen := congrArg List.length huv
    simp only [List.length_append, hl] at hlen
    refine List.prefix_of_prefix_length_le hwhole (List.prefix_append _ _) ?_
    rw [List.length_append]
    omega
  exact (List.suffix_append u _).isInfix.trans hpre.isInfix

theorem extractJWT_field (h : Minted tok) (hlen : tok.length < 16777216) {front : List UInt8}
    (hfree : ¬ jwtHeaderMarker <:+: front) (rest : List UInt8) :
    extractJWT (front ++ wireField tok ++ rest) = tok ↔
      ¬ jwtHeaderMarker <:+: front ++ le32 tok.length ∧ Ends rest := by
  obtain ⟨l, hl, hl3⟩ := le32_small hlen
  have hsplit : front ++ wireField tok ++ rest = (front ++ l) ++ 0 :: (tok ++ rest) := by
    simp [wireField, hl]
  rw [hsplit, infix_le32 hl]
  by_cases hin : jwtHeaderMarker <:+: front ++ l
  · rw [extractJWT_inside hin]
    constructor
    · intro heq
      exact absurd (heq ▸ extractJWT_infix (front ++ l)) (not_infix_front h hl3 hfree)
    · exact fun hc => absurd hin hc.1
  · have hskip : extractJWT ((front ++ l) ++ 0 :: (tok ++ rest)) = extractJWT (tok ++ rest) := by
      rw [List.append_cons]
      apply extractJWT_skip
      intro c d hcd hd hpre
      rcases List.eq_nil_or_concat' d with rfl | ⟨d, y, rfl⟩
      · exact hd rfl
      · obtain ⟨hcd', hy⟩ := List.append_inj' (hcd.trans (List.append_assoc c d [y]).symm) rfl
        cases hy
        apply hin
        rw [hcd']
        exact (marker_inside hpre).isInfix.trans (List.suffix_append c d).isInfix
    rw [hskip, extractJWT_marker (h.prefix_marker.trans (List.prefix_append _ _)), takeWhile_token h,
      List.append_right_eq_self, takeWhile_eq_nil_iff]
    exact ⟨fun hr => ⟨hin, hr⟩, fun hr => hr.2⟩

theorem fieldAt_spec {f : JwtField} (h : fieldAt b i = some f) :
    f.start = i + 4 ∧ f.start + f.len ≤ b.length ∧
      ((b.drop f.start).take f.len).all isJWTChar = true := by
  unfold fieldAt at h
  dsimp only at h
  split at h
  · cases h
  · split at h
    · rename_i hbound hall
      cases h
      refine ⟨rfl, ?_, hall⟩
      dsimp only
      omega
    · cases h

theorem foldl_lastField_lt {n : Nat} (l : List Nat) (best : Option JwtField)
    (hbest : ∀ g ∈ best, g.start + g.len < n)
    (h : ∀ i ∈ l, ∀ g ∈ fieldAt b i, g.start + g.len < n) :
    ∀ g ∈ l.foldl (fun best i => lastField best (fieldAt b i)) best, g.start + g.len < n := by
  induction l generalizing best with
  | nil => exact hbest
  | cons i l ih =>
    apply ih
    · intro g hg
      cases best with
      | none =>
        cases hf : fieldAt b i with
        | none => simp [lastField, hf] at hg
        | some f =>
          simp only [lastField, hf, Option.mem_some_iff] at hg
          exact hg ▸ h i (List.mem_cons_self ..) f hf
      | some k =>
        cases hf : fieldAt b i with
        | none =>
          simp only [lastField, hf] at hg
          exact hbest g hg
        | some f =>
          simp only [lastField, hf] at hg
          split at hg
          · exact h i (List.mem_cons_self ..) g (hf.trans hg)
          · exact hbest g hg
    · exact fun j hj => h j (List.mem_cons_of_mem i hj)

theorem foldl_lastField_eq {f : JwtField} (l : List Nat)
    (h : ∀ i ∈ l, ∀ g ∈ fieldAt b i, g.start + g.len ≤ f.start + f.len) :
    l.foldl (fun best i => lastField best (fieldAt b i)) (some f) = some f := by
  induction l with
  | nil => rfl
  | cons i l ih =>
    have hf : lastField (some f) (fieldAt b i) = some f := by
      cases hg : fieldAt b i with
      | none => rfl
      | some g => exact if_neg (Nat.not_lt.mpr (h i (List.mem_cons_self ..) g hg))
    rw [List.foldl_cons, hf]
    exact ih fun j hj => h j (List.mem_cons_of_mem i hj)

-- The field that ends the payload and begins first is the one taken.
theorem lastJWTField_of {f : JwtField} (hi : i + 3 < b.length) (hf : fieldAt b i = some f)
    (hend : f.start + f.len = b.length)
    (hfirst : ∀ j < i, ∀ g ∈ fieldAt b j, g.start + g.len < b.length) :
    lastJWTField b = (b.drop f.start).take f.len := by
  have hsplit : ∃ l, List.range (b.length - 3) = List.range i ++ i :: l := by
    obtain ⟨k, hk⟩ : ∃ k, b.length - 3 = i + (k + 1) := ⟨b.length - 3 - i - 1, by omega⟩
    refine ⟨(List.range k).map fun n => i + (n + 1), ?_⟩
    rw [hk, List.range_add, List.range_succ_eq_map, List.map_cons, List.map_map]
    rfl
  obtain ⟨l, hsplit⟩ := hsplit
  have hbefore := foldl_lastField_lt (b := b) (n := b.length) (List.range i) none (by simp)
    fun j hj => hfirst j (List.mem_range.mp hj)
  have htake : lastField ((List.range i).foldl (fun best i => lastField best (fieldAt b i)) none)
      (some f) = some f := by
    cases hg : (List.range i).foldl (fun best i => lastField best (fieldAt b i)) none with
    | none => rfl
    | some g => exact if_pos (hend ▸ hbefore g hg)
  rw [lastJWTField, hsplit, List.foldl_append, List.foldl_cons, hf, htake, foldl_lastField_eq]
  intro j _ g hg
  exact hend ▸ (fieldAt_spec hg).2.1

theorem lastJWTField_field (front : List UInt8) (htail : tail ≠ []) (hlen : tail.length ≤ maxTokenLen)
    (hchars : ∀ x ∈ tail, isJWTChar x = true) : lastJWTField (front ++ wireField tail) = tail := by
  have hmax : maxTokenLen = 4096 := rfl
  have hpos := List.length_pos_iff.mpr htail
  have hdrop : (front ++ wireField tail).drop (front.length + 4) = tail := by
    rw [wireField, ← List.append_assoc, List.drop_left' (by simp [length_le32])]
  have hlength : (front ++ wireField tail).length = front.length + 4 + tail.length := by
    simp [wireField, length_le32, Nat.add_assoc]
  have hu : u32le (front ++ wireField tail) front.length = tail.length := by
    rw [u32le_append, wireField, u32le_le32 (by omega)]
  have hf : fieldAt (front ++ wireField tail) front.length = some ⟨front.length + 4, tail.length⟩ := by
    have hall : (tail.take tail.length).all isJWTChar = true := by
      simpa [List.all_eq_true] using hchars
    unfold fieldAt
    rw [hu, hdrop, hlength, if_neg (by omega), if_pos hall]
  rw [lastJWTField_of (i := front.length) (by omega) hf (by simp [hlength]), hdrop, List.take_length]
  -- a field that began earlier and ended there too would hold the zero at the end of the length
  intro j hj g hg
  obtain ⟨hstart, hle, hall⟩ := fieldAt_spec hg
  refine lt_of_le_of_ne hle fun hend => ?_
  obtain ⟨l, hl, hl3⟩ := le32_small (show tail.length < 16777216 by omega)
  have hwhole : front ++ wireField tail = (front ++ l) ++ 0 :: tail := by
    simp [wireField, hl]
  rw [List.take_of_length_le (by rw [List.length_drop]; omega), hwhole, hstart,
    List.drop_append_of_le_length (by simp [hl3]; omega), List.all_append, List.all_cons] at hall
  simp [isJWTChar_zero] at hall

theorem extractJWT_short (h : b.length < jwtHeaderMarker.length) : extractJWT b = [] := by
  induction b with
  | nil => rfl
  | cons x b ih =>
    rw [extractJWT, if_neg]
    · exact ih (Nat.lt_of_succ_lt h)
    · intro hpre
      have := (List.isPrefixOf_iff_prefix.mp hpre).length_le
      omega

theorem extractJWT_chunk (h : Minted (p ++ tail)) :
    (if extractJWT p = [] then p else extractJWT p) = p := by
  rcases Nat.lt_or_ge p.length jwtHeaderMarker.length with hlt | hge
  · rw [if_pos (extractJWT_short hlt)]
  · have hpre : jwtHeaderMarker <+: p :=
      List.prefix_of_prefix_length_le h.prefix_marker (List.prefix_append p tail) hge
    have hall : p.takeWhile isJWTChar = p :=
      List.takeWhile_eq_self_iff.mpr fun x hx => h.isJWTChar (List.mem_append_left tail hx)
    rw [extractJWT_marker hpre, hall]
    exact ite_eq_right_iff.mpr fun _ => rfl

theorem prepareToken_split (h : Minted (p ++ tail)) (hp : p ≠ []) (htail : tail ≠ [])
    (hlen : tail.length ≤ maxTokenLen) (front : List UInt8) :
    prepareToken p (front ++ wireField tail) = p ++ tail := by
  have hlast := lastJWTField_field front htail hlen fun x hx => h.isJWTChar (List.mem_append_right p hx)
  rw [prepareToken, if_pos hp]
  dsimp only
  rw [extractJWT_chunk h, h.incomplete htail, hlast]
  rfl

theorem prepareToken_whole (h : Minted tok) (payload : List UInt8) : prepareToken tok payload = tok := by
  have h' : Minted (tok ++ []) := by rwa [List.append_nil]
  rw [prepareToken, if_pos h.ne_nil]
  dsimp only
  rw [extractJWT_chunk h', h.complete]
  rfl

theorem prepareToken_scan (h : extractJWT b ≠ []) : prepareToken [] b = extractJWT b := by
  rw [prepareToken, if_neg (by simp)]
  exact if_pos h

-- cmd 439: a declared length, 0 or at least that of the chunk, and the chunk.
def preparePacket (declared : Nat) (chunk : List UInt8) : Packet :=
  ⟨1, 439, 1, le32 declared ++ chunk⟩

theorem prep439_prepare (c : Core) (s : SessionId) {declared : Nat} (hd : declared < 4294967296)
    (hfit : declared = 0 ∨ b.length ≤ declared) :
    ((c.handleJoinMatchPrepare s (preparePacket declared b)).ss s).prep439 = b := by
  have hlen : ¬ (preparePacket declared b).payload.length < 4 := by
    rw [preparePacket, List.length_append, length_le32]
    omega
  have hdrop : (le32 declared ++ b).drop 4 = b := List.drop_left' rfl
  rw [Core.handleJoinMatchPrepare, if_neg hlen]
  simp only [Core.onSession, Function.update_self, preparePacket, hdrop, u32le_le32 hd]
  exact if_neg (by omega)

-- The ways a token reaches session `s` of a server in state `c`: whole in cmd 440, whole in
-- cmd 439, or split over the two.
inductive Delivery (c : Core) (s : SessionId) (tok : List UInt8) where
  | posted (front rest : List UInt8) (unprepared : (c.ss s).prep439 = [])
      (free : ¬ jwtHeaderMarker <:+: front)
  | prepared (declared : Nat) (payload : List UInt8) (word : declared < 4294967296)
      (fits : declared = 0 ∨ tok.length ≤ declared)
  | split (declared : Nat) (chunk tail front : List UInt8) (cut : tok = chunk ++ tail)
      (some_chunk : chunk ≠ []) (some_tail : tail ≠ []) (word : declared < 4294967296)
      (fits : declared = 0 ∨ chunk.length ≤ declared)

namespace Delivery

variable {c : Core} {s : SessionId}

-- The token handleJoinMatchPost works with.
def token : Delivery c s tok → List UInt8
  | posted front rest _ _ => prepareToken (c.ss s).prep439 (front ++ wireField tok ++ rest)
  | prepared declared payload _ _ =>
    prepareToken ((c.handleJoinMatchPrepare s (preparePacket declared tok)).ss s).prep439 payload
  | split declared chunk tail front _ _ _ _ _ =>
    prepareToken ((c.handleJoinMatchPrepare s (preparePacket declared chunk)).ss s).prep439
      (front ++ wireField tail)

-- No marker ends in the length of the token, and no token character follows the token.
def Clear : Delivery c s tok → Prop
  | posted front rest _ _ => ¬ jwtHeaderMarker <:+: front ++ le32 tok.length ∧ Ends rest
  | prepared .. => True
  | split .. => True

end Delivery

theorem reassembles (mac : Tokens.Mac) (secret body : List UInt8) (c : Core) (s : SessionId)
    (hlen : (Tokens.sign mac secret body).length ≤ maxTokenLen)
    (d : Delivery c s (Tokens.sign mac secret body)) :
    d.token = Tokens.sign mac secret body ↔ d.Clear := by
  have hm := minted_sign mac secret body
  have hmax : maxTokenLen = 4096 := rfl
  cases d with
  | posted front rest unprepared free =>
    have hne : extractJWT (front ++ wireField (Tokens.sign mac secret body) ++ rest) ≠ [] := by
      apply extractJWT_ne_nil
      refine hm.prefix_marker.isInfix.trans ?_
      exact ⟨front ++ le32 (Tokens.sign mac secret body).length, rest, by simp [wireField]⟩
    rw [Delivery.token, unprepared, prepareToken_scan hne]
    exact extractJWT_field hm (by omega) free rest
  | prepared declared payload word fits =>
    refine iff_of_true ?_ trivial
    rw [Delivery.token, prep439_prepare c s word fits]
    exact prepareToken_whole hm payload
  | split declared chunk tail front cut some_chunk some_tail word fits =>
    refine iff_of_true ?_ trivial
    rw [cut] at hm hlen
    rw [List.length_append] at hlen
    rw [Delivery.token, prep439_prepare c s word fits, cut]
    exact prepareToken_split hm some_chunk some_tail (by omega) front

-- HMAC-SHA256 at one input under the default secret.
def sampleMac : Tokens.Mac where
  digest := fun _ _ => [149, 41, 96, 7, 17, 144, 70, 198, 93, 207, 230, 181, 208, 53, 145, 42,
    5, 213, 113, 61, 234, 110, 114, 188, 57, 141, 66, 93, 130, 250, 163, 157]
  length_digest := fun _ _ => rfl

def sampleSecret : List UInt8 := Tokens.ascii "dev-match-secret-change-me"

def sampleBody : List UInt8 := Tokens.ascii "\x7b\"aid\":10000001\x7d"

theorem reassembles_posted :
    (Tokens.sign sampleMac sampleSecret sampleBody).length ≤ maxTokenLen ∧
      prepareToken [] (le32 7 ++ wireField (Tokens.sign sampleMac sampleSecret sampleBody) ++ le32 2)
        = Tokens.sign sampleMac sampleSecret sampleBody :=
  ⟨by decide +kernel, (reassembles sampleMac sampleSecret sampleBody Core.start 0 (by decide +kernel)
    (.posted (le32 7) (le32 2) rfl (by decide))).mpr ⟨by decide +kernel, by rintro x ⟨⟩; decide⟩⟩

-- The field behind the token begins with the byte 65, and the token comes out with an A at its end.
theorem overrun_posted :
    let tok := Tokens.sign sampleMac sampleSecret sampleBody
    tok.length ≤ maxTokenLen ∧ ¬ jwtHeaderMarker <:+: le32 7 ∧
      prepareToken [] (le32 7 ++ wireField tok ++ le32 65) = tok ++ [65] ∧
      prepareToken [] (le32 7 ++ wireField tok ++ le32 65) ≠ tok := by
  decide +kernel

end MatchServer

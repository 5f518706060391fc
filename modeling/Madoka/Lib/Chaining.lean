import Mathlib.Logic.Basic

namespace Lib

-- A block cipher with the operation that chains its blocks.
structure Chaining (β : Type) where
  xor : β → β → β
  enc : β → β
  dec : β → β
  cancel_right : ∀ a b, xor (xor a b) b = a
  cancel_left : ∀ a b, xor b (xor a b) = a
  dec_enc : ∀ a, dec (enc a) = a

namespace Chaining

variable {β : Type} (w : Chaining β)

-- Both feedbacks: the block before the cipher (p) and the block after it (c).
def encrypt : β → β → List β → List β
  | _, _, [] => []
  | p, c, b :: bs =>
    let x := w.xor b c
    let y := w.xor (w.enc x) p
    y :: encrypt x y bs

def decrypt : β → β → List β → List β
  | _, _, [] => []
  | p, c, y :: ys =>
    let x := w.dec (w.xor p y)
    w.xor x c :: decrypt x y ys

def behind : β → β → List β → β × β
  | p, c, [] => (p, c)
  | p, _, y :: ys => behind (w.dec (w.xor p y)) y ys

variable {w} {p c : β}

theorem decrypt_encrypt (bs : List β) : w.decrypt p c (w.encrypt p c bs) = bs := by
  induction bs generalizing p c with
  | nil => rfl
  | cons b bs ih =>
    rw [encrypt, decrypt, w.cancel_left, w.dec_enc, w.cancel_right, ih]

theorem length_encrypt (bs : List β) : (w.encrypt p c bs).length = bs.length := by
  induction bs generalizing p c with
  | nil => rfl
  | cons b bs ih => rw [encrypt, List.length_cons, List.length_cons, ih]

theorem length_decrypt (ys : List β) : (w.decrypt p c ys).length = ys.length := by
  induction ys generalizing p c with
  | nil => rfl
  | cons y ys ih => rw [decrypt, List.length_cons, List.length_cons, ih]

theorem decrypt_append (ys zs : List β) : w.decrypt p c (ys ++ zs) =
    w.decrypt p c ys ++ w.decrypt (w.behind p c ys).1 (w.behind p c ys).2 zs := by
  induction ys generalizing p c with
  | nil => rfl
  | cons y ys ih =>
    rw [List.cons_append, decrypt, decrypt, behind, List.cons_append, ih]

theorem behind_append (ys zs : List β) : w.behind p c (ys ++ zs) =
    w.behind (w.behind p c ys).1 (w.behind p c ys).2 zs := by
  induction ys generalizing p c with
  | nil => rfl
  | cons y ys ih => rw [List.cons_append, behind, behind, ih]

end Chaining

end Lib

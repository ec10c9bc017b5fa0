import Mathlib.Data.List.Basic
import Mathlib.Data.UInt

/-!
A block cipher and its chaining mode, in which each block is masked with the encryption of the one
before.  Over whole blocks the two directions are inverse to each other.  Nothing here is about a
particular cipher.
-/

namespace EnvoyGo.CipherBlocks

/-- Both directions of a cipher under one key: inverse permutations of the blocks of one size. -/
structure BlockCipher (size : ℕ) where
  encrypt : List UInt8 → List UInt8
  decrypt : List UInt8 → List UInt8
  length_encrypt : ∀ b, b.length = size → (encrypt b).length = size
  length_decrypt : ∀ b, b.length = size → (decrypt b).length = size
  decrypt_encrypt : ∀ b, b.length = size → decrypt (encrypt b) = b
  encrypt_decrypt : ∀ b, b.length = size → encrypt (decrypt b) = b

def xorBytes (a b : List UInt8) : List UInt8 := List.zipWith (fun x y => x ^^^ y) a b

theorem length_xorBytes {a b : List UInt8} (h : a.length = b.length) :
    (xorBytes a b).length = b.length := by
  unfold xorBytes
  rw [List.length_zipWith, h, Nat.min_self]

theorem xorBytes_xorBytes {a b : List UInt8} (h : a.length = b.length) :
    xorBytes a (xorBytes a b) = b := by
  unfold xorBytes
  induction a generalizing b with
  | nil =>
    cases b with
    | nil => rfl
    | cons y b => cases h
  | cons x a ih =>
    cases b with
    | nil => cases h
    | cons y b =>
      have hxy : x ^^^ (x ^^^ y) = y := by
        rw [← UInt8.xor_assoc, UInt8.xor_self, UInt8.zero_xor]
      rw [List.zipWith_cons_cons, List.zipWith_cons_cons, hxy, ih (Nat.succ.inj h)]

section Mode

variable {size : ℕ} (c : BlockCipher size)

def cbcEncrypt : ℕ → List UInt8 → List UInt8 → List UInt8
  | 0, _, _ => []
  | n + 1, prev, src =>
    let ct := c.encrypt (xorBytes prev (src.take size))
    ct ++ cbcEncrypt n ct (src.drop size)

def cbcDecrypt : ℕ → List UInt8 → List UInt8 → List UInt8
  | 0, _, _ => []
  | n + 1, prev, src =>
    xorBytes prev (c.decrypt (src.take size)) ++ cbcDecrypt n (src.take size) (src.drop size)

variable {c} {n : ℕ} {prev src : List UInt8}

theorem length_take_block (hsrc : src.length = size * (n + 1)) : (src.take size).length = size := by
  rw [List.length_take, hsrc, Nat.mul_add_one]
  omega

theorem length_drop_block (hsrc : src.length = size * (n + 1)) :
    (src.drop size).length = size * n := by
  rw [List.length_drop, hsrc, Nat.mul_add_one, Nat.add_sub_cancel]

variable (hprev : prev.length = size)

include hprev

theorem length_encrypt_block (hsrc : src.length = size * (n + 1)) :
    (c.encrypt (xorBytes prev (src.take size))).length = size := by
  have hblock := length_take_block hsrc
  exact c.length_encrypt _ ((length_xorBytes (hprev.trans hblock.symm)).trans hblock)

theorem length_cbcEncrypt (hsrc : src.length = size * n) :
    (cbcEncrypt c n prev src).length = size * n := by
  induction n generalizing prev src with
  | zero => rfl
  | succ n ih =>
    have hct := length_encrypt_block (c := c) hprev hsrc
    rw [cbcEncrypt, List.length_append, hct, ih hct (length_drop_block hsrc), Nat.mul_add_one,
      Nat.add_comm]

theorem length_cbcDecrypt (hsrc : src.length = size * n) :
    (cbcDecrypt c n prev src).length = size * n := by
  induction n generalizing prev src with
  | zero => rfl
  | succ n ih =>
    have hblock := length_take_block hsrc
    have hdec := c.length_decrypt _ hblock
    rw [cbcDecrypt, List.length_append, length_xorBytes (hprev.trans hdec.symm), hdec,
      ih hblock (length_drop_block hsrc), Nat.mul_add_one, Nat.add_comm]

theorem cbcDecrypt_cbcEncrypt (hsrc : src.length = size * n) :
    cbcDecrypt c n prev (cbcEncrypt c n prev src) = src := by
  induction n generalizing prev src with
  | zero => exact (List.length_eq_zero_iff.mp hsrc).symm
  | succ n ih =>
    have hblock := length_take_block hsrc
    have hmask := hprev.trans hblock.symm
    have hct := length_encrypt_block (c := c) hprev hsrc
    have hback : c.decrypt (c.encrypt (xorBytes prev (src.take size))) =
        xorBytes prev (src.take size) :=
      c.decrypt_encrypt _ ((length_xorBytes hmask).trans hblock)
    rw [cbcEncrypt, cbcDecrypt, List.take_left' hct, List.drop_left' hct, hback,
      xorBytes_xorBytes hmask, ih hct (length_drop_block hsrc), List.take_append_drop]

theorem cbcEncrypt_cbcDecrypt (hsrc : src.length = size * n) :
    cbcEncrypt c n prev (cbcDecrypt c n prev src) = src := by
  induction n generalizing prev src with
  | zero => exact (List.length_eq_zero_iff.mp hsrc).symm
  | succ n ih =>
    have hblock := length_take_block hsrc
    have hdec := c.length_decrypt _ hblock
    have hmask := hprev.trans hdec.symm
    have hpt : (xorBytes prev (c.decrypt (src.take size))).length = size :=
      (length_xorBytes hmask).trans hdec
    rw [cbcDecrypt, cbcEncrypt, List.take_left' hpt, List.drop_left' hpt, xorBytes_xorBytes hmask,
      c.encrypt_decrypt _ hblock, ih hblock (length_drop_block hsrc), List.take_append_drop]

end Mode

end EnvoyGo.CipherBlocks

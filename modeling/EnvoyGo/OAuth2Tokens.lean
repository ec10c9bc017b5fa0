import EnvoyGo.CipherBlocks
import EnvoyGo.OAuth2
import EnvoyGo.Slices
import Mathlib

/-!
The token envelope of the oauth2 filter, `internal/filter/http/oauth2/tokens.go`, over arbitrary
byte strings and with every bound checked.  It runs to its end and computes what the session's
model takes it to compute.
-/

namespace EnvoyGo.OAuth2.Tokens

open Slices CipherBlocks

/-- `aes.BlockSize`. -/
def blockSize : ℕ := 16

/-- A `[32]byte`, for which `aes.NewCipher` never fails. -/
abbrev AESKey := { k : Bytes // k.length = 32 }

/-- `aes.NewCipher`. -/
abbrev AES := AESKey → CipherBlocks.BlockCipher blockSize

def deriveAESKey (hmacSecret : Bytes) : AESKey :=
  ⟨Crypto.sha256 hmacSecret, Crypto.length_sha256 hmacSecret⟩

/-- `CryptBlocks` into a slice of the same length.  The constructors panic on another vector, and
`CryptBlocks` on a part of a block. -/
def cryptBlocks (mode : ℕ → Bytes → Bytes → Bytes) (iv src : Bytes) : Checked Bytes :=
  if iv.length ≠ blockSize ∨ src.length % blockSize ≠ 0 then .error ⟨⟩
  else .ok (mode (src.length / blockSize) iv src)

def offset (a b : ℕ) : Checked ℕ := if b ≤ a then .ok (a - b) else .error ⟨⟩

def paddingDiff (padded : Bytes) (padLen : UInt8) : ℕ → ℕ → UInt8 → Checked UInt8
  | 0, _, diff => .ok diff
  | k + 1, i, diff => do
    let x ← index padded i
    paddingDiff padded padLen k (i + 1) (diff ||| (x ^^^ padLen))

def pkcs7Unpad (padded : Bytes) (blockSize : ℕ) : Checked (Option Bytes) :=
  let n := padded.length
  if n = 0 ∨ n % blockSize ≠ 0 then .ok none else do
  let last ← index padded (n - 1)
  let padLen := last.toNat
  if padLen = 0 ∨ padLen > blockSize then .ok none else do
  let start ← offset n padLen
  let diff ← paddingDiff padded (UInt8.ofNat padLen) padLen start 0
  if diff ≠ 0 then .ok none else do
  let pt ← slice padded 0 start
  .ok (some pt)

/-- The vector is what `rand.Read` put into sixteen bytes. -/
def encryptToken (aes : AES) (iv plaintext hmacSecret : Bytes) : Checked Bytes := do
  let block := aes (deriveAESKey hmacSecret)
  let ct ← cryptBlocks (cbcEncrypt block) iv (pkcs7Pad plaintext blockSize)
  .ok (textBytes (String.ofList (Base64.rawURLEncode (iv ++ ct))))

def decryptToken (aes : AES) (envelope hmacSecret : Bytes) : Checked Bytes :=
  match Base64.rawURLDecode (bytesText envelope).toList with
  | none => .ok envelope
  | some raw =>
    if raw.length < blockSize then .ok envelope
    else if raw.length - blockSize = 0 ∨ (raw.length - blockSize) % blockSize ≠ 0 then
      .ok envelope
    else do
    let iv ← slice raw 0 blockSize
    let ct ← slice raw blockSize raw.length
    let padded ← cryptBlocks (cbcDecrypt (aes (deriveAESKey hmacSecret))) iv ct
    let pt ← pkcs7Unpad padded blockSize
    .ok (pt.getD envelope)

section Padding

variable {padded plaintext : Bytes}

theorem length_pkcs7Pad (plaintext : Bytes) :
    (pkcs7Pad plaintext blockSize).length = blockSize * (plaintext.length / blockSize + 1) := by
  unfold pkcs7Pad blockSize
  dsimp only
  rw [List.length_append, List.length_replicate]
  omega

theorem paddingDiff_eq (padLen : UInt8) {k i : ℕ} (hi : i + k ≤ padded.length) (diff : UInt8) :
    ∃ d, paddingDiff padded padLen k i diff = .ok d ∧
      (d = 0 ↔ diff = 0 ∧ ∀ x ∈ (padded.drop i).take k, x = padLen) := by
  induction k generalizing i diff with
  | zero =>
    refine ⟨diff, rfl, ?_⟩
    rw [List.take_zero]
    exact ⟨fun h => ⟨h, fun x hx => absurd hx List.not_mem_nil⟩, fun h => h.1⟩
  | succ k ih =>
    have hlt : i < padded.length := by omega
    have hdrop : padded.drop i = padded[i] :: padded.drop (i + 1) := List.drop_eq_getElem_cons hlt
    have hindex : index padded i = .ok padded[i] := by
      rw [index, List.getElem?_eq_getElem hlt]
    obtain ⟨d, hd, hiff⟩ := ih (i := i + 1) (by omega) (diff ||| (padded[i] ^^^ padLen))
    refine ⟨d, by rw [paddingDiff, hindex, ok_bind, hd], ?_⟩
    rw [hiff, UInt8.or_eq_zero_iff, UInt8.xor_eq_zero_iff, hdrop, List.take_succ_cons,
      List.forall_mem_cons, and_assoc]

theorem pkcs7Unpad_eq (padded : Bytes) :
    pkcs7Unpad padded blockSize = .ok (OAuth2.pkcs7Unpad padded blockSize) := by
  unfold pkcs7Unpad OAuth2.pkcs7Unpad
  dsimp only
  by_cases hlen : padded.length = 0 ∨ padded.length % blockSize ≠ 0
  · rw [if_pos hlen, if_pos hlen]
  have hlast : index padded (padded.length - 1) = .ok (padded.getLast?.getD 0) := by
    have hlt : padded.length - 1 < padded.length := by omega
    rw [index, List.getLast?_eq_getElem?, List.getElem?_eq_getElem hlt, Option.getD_some]
  rw [if_neg hlen, if_neg hlen, hlast, ok_bind]
  generalize padded.getLast?.getD 0 = last
  by_cases hpad : last.toNat = 0 ∨ last.toNat > blockSize
  · rw [if_pos hpad, if_pos hpad]
  have hle : last.toNat ≤ padded.length := by
    unfold blockSize at hlen hpad
    omega
  have hoffset : offset padded.length last.toNat = .ok (padded.length - last.toNat) := if_pos hle
  have hroom : padded.length - last.toNat + last.toNat ≤ padded.length := by omega
  obtain ⟨d, hd, hiff⟩ := paddingDiff_eq (UInt8.ofNat last.toNat) hroom 0
  have htake : (padded.drop (padded.length - last.toNat)).take last.toNat =
      padded.drop (padded.length - last.toNat) := by
    apply List.take_of_length_le
    rw [List.length_drop]
    omega
  have hall : (padded.drop (padded.length - last.toNat)).all
      (fun b => b == UInt8.ofNat last.toNat) = true ↔ d = 0 := by
    rw [hiff, htake, List.all_eq_true]
    simp only [beq_iff_eq, true_and]
  rw [if_neg hpad, if_neg hpad, hoffset, ok_bind, hd, ok_bind]
  by_cases hzero : d = 0
  · have hslice : slice padded 0 (padded.length - last.toNat) =
        .ok (padded.take (padded.length - last.toNat)) := slice_eq_ok (by omega) (by omega)
    rw [if_neg (not_not.mpr hzero), if_pos (hall.mpr hzero), hslice, ok_bind]
  · rw [if_pos hzero, if_neg (fun h => hzero (hall.mp h))]

theorem getLast?_pkcs7Pad (plaintext : Bytes) :
    (pkcs7Pad plaintext blockSize).getLast? =
      some (UInt8.ofNat (blockSize - plaintext.length % blockSize)) := by
  have hpos : blockSize - plaintext.length % blockSize ≠ 0 := by
    unfold blockSize
    omega
  unfold pkcs7Pad
  rw [List.getLast?_append, List.getLast?_replicate, if_neg hpos, Option.some_or]

theorem pkcs7Unpad_pkcs7Pad (plaintext : Bytes) :
    OAuth2.pkcs7Unpad (pkcs7Pad plaintext blockSize) blockSize = some plaintext := by
  have hlen := length_pkcs7Pad plaintext
  have hpad : (UInt8.ofNat (blockSize - plaintext.length % blockSize)).toNat =
      blockSize - plaintext.length % blockSize := by
    rw [toNat_ofNat_mod]
    unfold blockSize
    omega
  have hsub : (pkcs7Pad plaintext blockSize).length -
      (blockSize - plaintext.length % blockSize) = plaintext.length := by
    rw [hlen]
    unfold blockSize
    omega
  have hmod : ¬ ((pkcs7Pad plaintext blockSize).length = 0 ∨
      (pkcs7Pad plaintext blockSize).length % blockSize ≠ 0) := by
    rw [hlen]
    unfold blockSize
    omega
  have hrange : ¬ (blockSize - plaintext.length % blockSize = 0 ∨
      blockSize - plaintext.length % blockSize > blockSize) := by
    unfold blockSize
    omega
  have hdrop : (pkcs7Pad plaintext blockSize).drop plaintext.length =
      List.replicate (blockSize - plaintext.length % blockSize)
        (UInt8.ofNat (blockSize - plaintext.length % blockSize)) := List.drop_left
  have htake : (pkcs7Pad plaintext blockSize).take plaintext.length = plaintext := List.take_left
  unfold OAuth2.pkcs7Unpad
  rw [if_neg hmod, getLast?_pkcs7Pad]
  dsimp only [Option.getD_some]
  rw [hpad, if_neg hrange, hsub, hdrop, if_pos, htake]
  rw [List.all_replicate, beq_self_eq_true, ite_self]

theorem eq_pkcs7Pad (h : OAuth2.pkcs7Unpad padded blockSize = some plaintext) :
    padded = pkcs7Pad plaintext blockSize := by
  unfold OAuth2.pkcs7Unpad at h
  by_cases hlen : padded.length = 0 ∨ padded.length % blockSize ≠ 0
  · rw [if_pos hlen] at h
    cases h
  rw [if_neg hlen] at h
  dsimp only at h
  generalize padded.getLast?.getD 0 = last at h
  by_cases hpad : last.toNat = 0 ∨ last.toNat > blockSize
  · rw [if_pos hpad] at h
    cases h
  rw [if_neg hpad] at h
  by_cases hall : (padded.drop (padded.length - last.toNat)).all
      (fun b => b == UInt8.ofNat last.toNat) = true
  · rw [if_pos hall, Option.some.injEq] at h
    have hle : last.toNat ≤ padded.length := by
      unfold blockSize at hlen hpad
      omega
    have hpt : plaintext.length = padded.length - last.toNat := by
      rw [← h, List.length_take]
      omega
    have hpadLen : blockSize - plaintext.length % blockSize = last.toNat := by
      rw [hpt]
      unfold blockSize at hlen hpad ⊢
      omega
    have hdrop : padded.drop (padded.length - last.toNat) =
        List.replicate last.toNat (UInt8.ofNat last.toNat) := by
      apply List.eq_replicate_iff.mpr
      refine ⟨by rw [List.length_drop]; omega, ?_⟩
      intro b hb
      exact beq_iff_eq.mp (List.all_eq_true.mp hall b hb)
    calc padded = padded.take (padded.length - last.toNat) ++
          padded.drop (padded.length - last.toNat) := (List.take_append_drop _ _).symm
      _ = pkcs7Pad plaintext blockSize := by rw [h, hdrop, pkcs7Pad, hpadLen]
  · rw [if_neg hall] at h
    cases h

end Padding

def sessionCipher (aes : AES) : OAuth2.BlockCipher where
  cbcEncrypt key iv src := if h : key.length = 32 then
    cbcEncrypt (aes ⟨key, h⟩) (src.length / blockSize) iv src else []
  cbcDecrypt key iv src := if h : key.length = 32 then
    cbcDecrypt (aes ⟨key, h⟩) (src.length / blockSize) iv src else []

structure Sealed (envelope iv ct : Bytes) : Prop where
  decoded : Base64.rawURLDecode (bytesText envelope).toList = some (iv ++ ct)
  vector : iv.length = blockSize
  blocks : ct.length = blockSize * (ct.length / blockSize)
  nonempty : ct ≠ []

section Envelope

variable {aes : AES} {envelope iv ct secret plaintext : Bytes}

theorem decryptToken_sealed (h : Sealed envelope iv ct) :
    decryptToken aes envelope secret = .ok ((OAuth2.pkcs7Unpad
      (cbcDecrypt (aes (deriveAESKey secret)) (ct.length / blockSize) iv ct)
        blockSize).getD envelope) := by
  have hpos := List.length_pos_iff.mpr h.nonempty
  have hvector := h.vector
  have hblocks := h.blocks
  have hlen : (iv ++ ct).length = blockSize + ct.length := by
    rw [List.length_append, hvector]
  have hiv : slice (iv ++ ct) 0 blockSize = .ok iv :=
    slice_of_eq (List.nil_append (iv ++ ct)).symm rfl (by rw [hvector, Nat.zero_add])
  have hct : slice (iv ++ ct) blockSize (iv ++ ct).length = .ok ct :=
    slice_rest_of_eq rfl hvector
  have hcrypt : cryptBlocks (cbcDecrypt (aes (deriveAESKey secret))) iv ct =
      .ok (cbcDecrypt (aes (deriveAESKey secret)) (ct.length / blockSize) iv ct) := by
    rw [cryptBlocks, if_neg]
    unfold blockSize at hvector hblocks ⊢
    omega
  rw [decryptToken, h.decoded]
  dsimp only
  rw [if_neg (by omega), if_neg (by unfold blockSize at hlen hblocks ⊢; omega), hiv, ok_bind, hct,
    ok_bind, hcrypt, ok_bind, pkcs7Unpad_eq, ok_bind]

theorem decryptToken_of_not_sealed (h : ∀ iv ct, ¬ Sealed envelope iv ct) :
    decryptToken aes envelope secret = .ok envelope := by
  unfold decryptToken
  cases hraw : Base64.rawURLDecode (bytesText envelope).toList with
  | none => rfl
  | some raw =>
    dsimp only
    by_cases hshort : raw.length < blockSize
    · rw [if_pos hshort]
    rw [if_neg hshort]
    by_cases hblocks : raw.length - blockSize = 0 ∨ (raw.length - blockSize) % blockSize ≠ 0
    · rw [if_pos hblocks]
    · have hdrop : (raw.drop blockSize).length = raw.length - blockSize := List.length_drop
      refine absurd ⟨?_, ?_, ?_, ?_⟩ (h (raw.take blockSize) (raw.drop blockSize))
      · rw [hraw, List.take_append_drop]
      · rw [List.length_take]
        omega
      · rw [hdrop]
        unfold blockSize at hblocks ⊢
        omega
      · rw [← List.length_pos_iff, hdrop]
        omega

theorem toNat_lt_of_isURLSafe {c : Char} (h : Base64.isURLSafe c = true) : c.toNat < 256 := by
  have hval : c.toNat = c.val.toNat := rfl
  simp only [Base64.isURLSafe, Char.isAlphanum, Char.isAlpha, Char.isUpper, Char.isLower,
    Char.isDigit, Bool.or_eq_true, decide_eq_true_eq, Bool.and_eq_true, beq_iff_eq,
    UInt32.le_iff_toNat_le] at h
  rcases h with (((⟨-, hle⟩ | ⟨-, hle⟩) | ⟨-, hle⟩) | rfl) | rfl
  · exact Nat.lt_of_le_of_lt hle (by decide)
  · exact Nat.lt_of_le_of_lt hle (by decide)
  · exact Nat.lt_of_le_of_lt hle (by decide)
  · decide
  · decide

theorem toList_bytesText_encoded (bs : Bytes) :
    (bytesText (textBytes (String.ofList (Base64.rawURLEncode bs)))).toList =
      Base64.rawURLEncode bs := by
  unfold bytesText textBytes
  rw [String.toList_ofList, String.toList_ofList, List.map_map]
  conv_rhs => rw [← List.map_id (Base64.rawURLEncode bs)]
  apply List.map_congr_left
  intro c hc
  have hlt := toNat_lt_of_isURLSafe (Base64.isURLSafe_of_mem_rawURLEncode bs c hc)
  rw [Function.comp_apply, toNat_ofNat_mod, Nat.mod_eq_of_lt hlt, Char.ofNat_toNat, id_eq]

theorem encryptToken_eq (hiv : iv.length = blockSize) :
    encryptToken aes iv plaintext secret = .ok (textBytes (String.ofList (Base64.rawURLEncode
      (iv ++ cbcEncrypt (aes (deriveAESKey secret)) (plaintext.length / blockSize + 1) iv
        (pkcs7Pad plaintext blockSize))))) := by
  have hlen := length_pkcs7Pad plaintext
  have hcount : (pkcs7Pad plaintext blockSize).length / blockSize =
      plaintext.length / blockSize + 1 := by
    rw [hlen, Nat.mul_div_cancel_left _ (by decide)]
  have hcrypt : cryptBlocks (cbcEncrypt (aes (deriveAESKey secret))) iv
      (pkcs7Pad plaintext blockSize) = .ok (cbcEncrypt (aes (deriveAESKey secret))
        (plaintext.length / blockSize + 1) iv (pkcs7Pad plaintext blockSize)) := by
    have hwhole : (pkcs7Pad plaintext blockSize).length % blockSize = 0 := by
      rw [hlen, Nat.mul_mod_right]
    rw [cryptBlocks, if_neg (by rw [hwhole]; omega), hcount]
  rw [encryptToken, hcrypt, ok_bind]

/-- The envelope decodes to a vector and the encryption of a padded token. -/
def IsEncryption (aes : AES) (envelope secret plaintext : Bytes) : Prop :=
  ∃ iv, iv.length = blockSize ∧ Base64.rawURLDecode (bytesText envelope).toList =
    some (iv ++ cbcEncrypt (aes (deriveAESKey secret)) (plaintext.length / blockSize + 1) iv
      (pkcs7Pad plaintext blockSize))

theorem decryptToken_of_isEncryption (h : IsEncryption aes envelope secret plaintext) :
    decryptToken aes envelope secret = .ok plaintext := by
  obtain ⟨iv, hiv, hdecoded⟩ := h
  have hpad := length_pkcs7Pad plaintext
  have hct := length_cbcEncrypt (c := aes (deriveAESKey secret)) hiv hpad
  have hcount : (cbcEncrypt (aes (deriveAESKey secret)) (plaintext.length / blockSize + 1) iv
      (pkcs7Pad plaintext blockSize)).length / blockSize = plaintext.length / blockSize + 1 := by
    rw [hct, Nat.mul_div_cancel_left _ (by decide)]
  have hsealed : Sealed envelope iv (cbcEncrypt (aes (deriveAESKey secret))
      (plaintext.length / blockSize + 1) iv (pkcs7Pad plaintext blockSize)) := by
    refine ⟨hdecoded, hiv, by rw [hcount, hct], ?_⟩
    rw [← List.length_pos_iff, hct]
    exact Nat.mul_pos (by decide) (Nat.succ_pos _)
  rw [decryptToken_sealed hsealed, hcount, cbcDecrypt_cbcEncrypt hiv hpad, pkcs7Unpad_pkcs7Pad,
    Option.getD_some]

theorem Sealed.isEncryption (h : Sealed envelope iv ct)
    (hpt : OAuth2.pkcs7Unpad (cbcDecrypt (aes (deriveAESKey secret)) (ct.length / blockSize) iv ct)
      blockSize = some plaintext) : IsEncryption aes envelope secret plaintext := by
  have hpadded := eq_pkcs7Pad hpt
  have hlen := length_cbcDecrypt (c := aes (deriveAESKey secret)) h.vector h.blocks
  have hcount : ct.length / blockSize = plaintext.length / blockSize + 1 := by
    rw [hpadded, length_pkcs7Pad] at hlen
    exact (Nat.eq_of_mul_eq_mul_left (by decide) hlen).symm
  refine ⟨iv, h.vector, ?_⟩
  rw [← hpadded, ← hcount, cbcEncrypt_cbcDecrypt h.vector h.blocks, h.decoded]

theorem decryptToken_total (aes : AES) (envelope secret : Bytes) :
    (∃ plaintext, IsEncryption aes envelope secret plaintext) ∨
      decryptToken aes envelope secret = .ok envelope := by
  by_cases hsealed : ∃ iv ct, Sealed envelope iv ct
  · obtain ⟨iv, ct, h⟩ := hsealed
    cases hpt : OAuth2.pkcs7Unpad
        (cbcDecrypt (aes (deriveAESKey secret)) (ct.length / blockSize) iv ct) blockSize with
    | none => exact Or.inr (by rw [decryptToken_sealed h, hpt, Option.getD_none])
    | some plaintext => exact Or.inl ⟨plaintext, h.isEncryption hpt⟩
  · exact Or.inr (decryptToken_of_not_sealed (fun iv ct h => hsealed ⟨iv, ct, h⟩))

theorem textBytes_bytesText (b : Bytes) : textBytes (bytesText b) = b := by
  unfold textBytes bytesText
  rw [String.toList_ofList, List.map_map]
  conv_rhs => rw [← List.map_id b]
  apply List.map_congr_left
  intro x _
  have hall : ∀ i : Fin 256, (Char.ofNat i.val).toNat = i.val := by decide +kernel
  have hchar : (Char.ofNat x.toNat).toNat = x.toNat := hall ⟨x.toNat, x.toNat_lt⟩
  rw [Function.comp_apply, hchar, UInt8.ofNat_toNat, id_eq]

theorem encryptToken_eq_session (hiv : iv.length = blockSize) :
    encryptToken aes iv plaintext secret =
      .ok (textBytes (OAuth2.encryptToken (sessionCipher aes) iv plaintext secret)) := by
  have hcount : (pkcs7Pad plaintext 16).length / blockSize = plaintext.length / blockSize + 1 := by
    rw [show (16 : ℕ) = blockSize from rfl, length_pkcs7Pad,
      Nat.mul_div_cancel_left _ (by decide)]
  have hcbc : (sessionCipher aes).cbcEncrypt (Crypto.sha256 secret) iv (pkcs7Pad plaintext 16) =
      cbcEncrypt (aes (deriveAESKey secret)) (plaintext.length / blockSize + 1) iv
        (pkcs7Pad plaintext blockSize) := by
    rw [← hcount, sessionCipher, deriveAESKey]
    dsimp only
    rw [dif_pos (Crypto.length_sha256 secret)]
    rfl
  rw [encryptToken_eq hiv, OAuth2.encryptToken, hcbc]

theorem decryptToken_eq_session (aes : AES) (envelope secret : Bytes) :
    decryptToken aes envelope secret =
      .ok (OAuth2.decryptToken (sessionCipher aes) (bytesText envelope) secret) := by
  rw [OAuth2.decryptToken, textBytes_bytesText]
  by_cases hsealed : ∃ iv ct, Sealed envelope iv ct
  · obtain ⟨iv, ct, h⟩ := hsealed
    have hpos := List.length_pos_iff.mpr h.nonempty
    have hvector : iv.length = 16 := h.vector
    have hblocks : ct.length = 16 * (ct.length / 16) := h.blocks
    have hwhole : ¬ ((iv ++ ct).length < 16 ∨ (iv ++ ct).length = 16 ∨
        (iv ++ ct).length % 16 ≠ 0) := by
      rw [List.length_append]
      omega
    have hcbc : (sessionCipher aes).cbcDecrypt (Crypto.sha256 secret) iv ct =
        cbcDecrypt (aes (deriveAESKey secret)) (ct.length / blockSize) iv ct := by
      rw [sessionCipher, deriveAESKey]
      dsimp only
      rw [dif_pos (Crypto.length_sha256 secret)]
    rw [decryptToken_sealed h, h.decoded]
    dsimp only
    rw [if_neg hwhole, List.take_left' hvector, List.drop_left' hvector, hcbc]
    rfl
  · rw [decryptToken_of_not_sealed (fun iv ct h => hsealed ⟨iv, ct, h⟩)]
    cases hraw : Base64.rawURLDecode (bytesText envelope).toList with
    | none => rfl
    | some raw =>
      dsimp only
      rw [if_pos]
      by_contra hwhole
      have hdrop : (raw.drop 16).length = raw.length - 16 := List.length_drop
      refine hsealed ⟨raw.take 16, raw.drop 16, ?_, ?_, ?_, ?_⟩
      · rw [hraw, List.take_append_drop]
      · rw [List.length_take, blockSize]
        omega
      · rw [hdrop, blockSize]
        omega
      · rw [← List.length_pos_iff, hdrop]
        omega

end Envelope

/-- For every token, secret and vector, what was encrypted is decrypted.  For every byte string,
decryption does not panic, and gives the string back unless it is an encryption. -/
theorem decryptToken_encryptToken (aes : AES) (plaintext secret iv : Bytes)
    (hiv : iv.length = blockSize) (envelope : Bytes) :
    (∃ e, encryptToken aes iv plaintext secret = .ok e ∧
      decryptToken aes e secret = .ok plaintext) ∧
    (∃ out, decryptToken aes envelope secret = .ok out ∧
      ((¬ ∃ p, IsEncryption aes envelope secret p) → out = envelope)) := by
  refine ⟨?_, ?_⟩
  · refine ⟨_, encryptToken_eq hiv, decryptToken_of_isEncryption ⟨iv, hiv, ?_⟩⟩
    rw [toList_bytesText_encoded, Base64.rawURLDecode_rawURLEncode]
  · rcases decryptToken_total aes envelope secret with ⟨p, hp⟩ | hback
    · exact ⟨p, decryptToken_of_isEncryption hp, fun hnot => absurd ⟨p, hp⟩ hnot⟩
    · exact ⟨envelope, hback, fun _ => rfl⟩

def exchange (p c : Bytes) (hp : p.length = blockSize) (hc : c.length = blockSize) :
    CipherBlocks.BlockCipher blockSize where
  encrypt b := if b = p then c else if b = c then p else b
  decrypt b := if b = p then c else if b = c then p else b
  length_encrypt b hb := by split_ifs <;> assumption
  length_decrypt b hb := by split_ifs <;> assumption
  decrypt_encrypt b hb := by split_ifs <;> simp_all
  encrypt_decrypt b hb := by split_ifs <;> simp_all

def tokenBlock : Bytes := pkcs7Pad (textBytes "token") blockSize

def cipherBlock : Bytes :=
  [0x01, 0x09, 0x1e, 0x18, 0x51, 0x50, 0xe7, 0x1e, 0x80, 0x3b, 0xf5, 0x2f, 0x6d, 0xc6, 0x26, 0x13]

def oneBlockAES : AES := fun _ => exchange tokenBlock cipherBlock rfl rfl

theorem decryptToken_encryptToken_token :
    ∃ e, encryptToken oneBlockAES (List.replicate 16 0) (textBytes "token") (textBytes "secret") =
        .ok e ∧
      e = textBytes "AAAAAAAAAAAAAAAAAAAAAAEJHhhRUOcegDv1L23GJhM" ∧
      decryptToken oneBlockAES e (textBytes "secret") = .ok (textBytes "token") := by
  obtain ⟨⟨e, henc, hdec⟩, -⟩ := decryptToken_encryptToken oneBlockAES (textBytes "token")
    (textBytes "secret") (List.replicate 16 0) rfl []
  have hvalue : encryptToken oneBlockAES (List.replicate 16 0) (textBytes "token")
      (textBytes "secret") =
        .ok (textBytes "AAAAAAAAAAAAAAAAAAAAAAEJHhhRUOcegDv1L23GJhM") := by
    decide +kernel
  exact ⟨e, henc, Except.ok.inj (henc.symm.trans hvalue), hdec⟩

end EnvoyGo.OAuth2.Tokens

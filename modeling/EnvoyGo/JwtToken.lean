import EnvoyGo.GoBase64
import EnvoyGo.JwtHeaders

/-!
The token library that jwt_authn calls: parsing, the pick of a key, the signature and the claims.
JSON, the digests and the two signature schemes are parameters.
-/

namespace EnvoyGo.JwtAuthn

inductive Digest
  | sha256
  | sha384
  | sha512
  deriving DecidableEq

/-- `crypto.PublicKey`, as `parseRSA` and `parseEC` build it; a curve has a bit size. -/
inductive PublicKey (R E : Type)
  | rsa (key : R)
  | ecdsa (curve : Option ℕ) (key : E)

/-- What the token library takes from the standard library.  `null` decodes to a nil map, and
`int64OfNumber` converts a decoded number. -/
structure TokenLib (R E : Type) where
  unmarshal : Bytes → Option (Option (List (String × Claim)))
  int64OfNumber : String → ℤ
  sum : Digest → Bytes → Bytes
  verifyPKCS1v15 : R → Digest → Bytes → Bytes → Bool
  ecdsaVerify : E → Bytes → ℕ → ℕ → Bool

variable {R E : Type}

def orErr {α : Type} (x : Option α) (err : JwtErr) : Except JwtErr α :=
  match x with
  | none => .error err
  | some a => .ok a

def fieldOf (fields : List (String × Claim)) (name : String) : Option Claim :=
  (fields.find? (fun e => e.1 == name)).map Prod.snd

def algOf (header : List (String × Claim)) : Option String :=
  match fieldOf header "alg" with
  | some (.str alg) => if alg = "" then none else some alg
  | _ => none

def kidOf (header : List (String × Claim)) : String :=
  match fieldOf header "kid" with
  | some (.str kid) => kid
  | _ => ""

def parse (lib : TokenLib R E) (raw : String) : Except JwtErr Token :=
  match Text.split '.' raw.toList with
  | [rawHeader, rawPayload, rawSig] => do
    let headerBytes ← orErr (Base64.rawURLDecode rawHeader)
      (.other "Jwt header is an invalid Base64url encoded.")
    let header ← orErr (lib.unmarshal headerBytes) (.other "Jwt header is an invalid JSON.")
    let payloadBytes ← orErr (Base64.rawURLDecode rawPayload)
      (.other "Jwt payload is an invalid Base64url encoded.")
    let payload ← orErr (lib.unmarshal payloadBytes) (.other "Jwt payload is an invalid JSON.")
    let _ ← orErr (Base64.rawURLDecode rawSig)
      (.other "Jwt signature is an invalid Base64url encoded.")
    let alg ← orErr (algOf (header.getD [])) (.other "Jwt header [alg] field is required.")
    return { kid := kidOf (header.getD [])
             alg := alg
             rawHeader := String.ofList rawHeader
             rawPayload := String.ofList rawPayload
             rawSignature := String.ofList rawSig
             payload := payload.getD []
             payloadNull := payload.isNone }
  | _ => .error (.other "Jwt is not in the form of Header.Payload.Signature")

structure JWK (R E : Type) where
  kid : String
  alg : String
  key : PublicKey R E

abbrev JWKSet (R E : Type) := List (JWK R E)

def JWK.algMatches (alg : String) (k : JWK R E) : Bool :=
  alg != "" && EnvoyGo.toLower k.alg == EnvoyGo.toLower alg

/-- `JWKSet.Lookup`: among the keys of that `kid` the first of that algorithm, or else the first. -/
def JWKSet.pick (keys : JWKSet R E) (kid alg : String) : Option (JWK R E) :=
  if kid ≠ "" then
    (keys.find? (fun k => k.kid == kid && k.algMatches alg)).or (keys.find? (fun k => k.kid == kid))
  else
    (keys.find? (fun k => k.algMatches alg)).or (keys.find? (fun k => k.alg == ""))

def JWKSet.lookup (keys : JWKSet R E) (kid alg : String) : Except JwtErr (PublicKey R E) :=
  orErr ((keys.pick kid alg).map JWK.key) .kidAlgMismatch

structure Fetcher (R E : Type) where
  closed : Bool := false
  ready : Bool
  keys : Option (JWKSet R E)
  notReadyErr : Option String := none

def Fetcher.get (f : Fetcher R E) : Except JwtErr (JWKSet R E) :=
  if f.closed then .error (.other "jwks: fetcher is closed")
  else if !f.ready then .error (.other "jwks: not ready (async fetch in progress)")
  else
    match f.keys, f.notReadyErr with
    | some keys, _ => .ok keys
    | none, some err => .error (.other err)
    | none, none => .error (.other "jwks: not ready (async fetch in progress)")

def rsaHash : String → Option Digest
  | "RS256" => some .sha256
  | "RS384" => some .sha384
  | "RS512" => some .sha512
  | _ => none

def ecHash : String → Option Digest
  | "ES256" => some .sha256
  | "ES384" => some .sha384
  | "ES512" => some .sha512
  | _ => none

/-- `big.Int.SetBytes`. -/
def natOfBytes (b : Bytes) : ℕ := b.foldl (fun n x => 256*n + x.toNat) 0

def Token.signed (t : Token) : Bytes := textBytes (t.rawHeader ++ "." ++ t.rawPayload)

def verifyRSA (lib : TokenLib R E) (h : Digest) (key : PublicKey R E) (signed sig : Bytes) :
    Bool :=
  match key with
  | .rsa k => lib.verifyPKCS1v15 k h (lib.sum h signed) sig
  | .ecdsa _ _ => false

def verifyEC (lib : TokenLib R E) (h : Digest) (key : PublicKey R E) (signed sig : Bytes) :
    Bool :=
  match key with
  | .ecdsa (some bitSize) k =>
    let byteSize := (bitSize + 7) / 8
    decide (sig.length = 2*byteSize) &&
      lib.ecdsaVerify k (lib.sum h signed) (natOfBytes (sig.take byteSize))
        (natOfBytes (sig.drop byteSize))
  | _ => false

def verifySignature (lib : TokenLib R E) (t : Token) (key : PublicKey R E) (alg : String) :
    Except JwtErr Unit :=
  match Base64.rawURLDecode t.rawSignature.toList with
  | none => .error .verificationFail
  | some sig =>
    match rsaHash alg, ecHash alg with
    | some h, _ => if verifyRSA lib h key t.signed sig then .ok () else .error .verificationFail
    | none, some h =>
      if verifyEC lib h key t.signed sig then .ok () else .error .verificationFail
    | none, none => .error (.other "Jwt header [alg] is not supported")

def wrap64 (x : ℤ) : ℤ := (x + 2^63) % 2^64 - 2^63

/-- `time.Unix(sec, 0)` in nanoseconds of the epoch; a time counts its seconds from year one in
an int64. -/
def unixTime (sec : ℤ) : ℤ := (wrap64 (sec + 62135596800) - 62135596800) * 10^9

def numericToInt64 (lib : TokenLib R E) : Claim → Option ℤ
  | .num text => some (lib.int64OfNumber text)
  | _ => none

def expPasses (lib : TokenLib R E) (now : ℤ) (clockSkew : ℕ) (payload : List (String × Claim)) :
    Bool :=
  match fieldOf payload "exp" with
  | none => true
  | some v => (numericToInt64 lib v).any (fun exp => decide (now - clockSkew*10^9 ≤ unixTime exp))

def nbfPasses (lib : TokenLib R E) (now : ℤ) (clockSkew : ℕ) (payload : List (String × Claim)) :
    Bool :=
  match fieldOf payload "nbf" with
  | none => true
  | some v => (numericToInt64 lib v).any (fun nbf => decide (unixTime nbf ≤ now + clockSkew*10^9))

def issPasses (issuer : String) (payload : List (String × Claim)) : Bool :=
  issuer == "" ||
    match fieldOf payload "iss" with
    | some (.str iss) => iss == issuer
    | _ => false

def audIntersects (audRaw : Option Claim) (want : List String) : Bool :=
  match audRaw with
  | some (.str a) => want.contains a
  | some (.arr entries) => entries.any (fun entry =>
    match entry with
    | .str s => want.contains s
    | _ => false)
  | _ => false

def validateClaims (lib : TokenLib R E) (now : ℤ) (t : Token) (issuer : String)
    (audiences : List String) (clockSkew : ℕ) : Except JwtErr Unit :=
  if t.payloadNull then .error .verificationFail
  else if !expPasses lib now clockSkew t.payload then .error (.other "Jwt is expired")
  else if !nbfPasses lib now clockSkew t.payload then .error (.other "Jwt not yet valid")
  else if !issPasses issuer t.payload then .error (.other "Jwt issuer is not configured")
  else if !(audiences.isEmpty || audIntersects (fieldOf t.payload "aud") audiences) then
    .error .audienceNotAllowed
  else .ok ()

/-- The library at one moment, with the state of the fetchers. -/
def jwtLib (lib : TokenLib R E) (now : ℤ) (fetchers : String → Fetcher R E) :
    JwtLib (JWKSet R E) (PublicKey R E) where
  parse := parse lib
  fetch uri := (fetchers uri).get
  lookup := JWKSet.lookup
  verifySignature := verifySignature lib
  validateClaims := validateClaims lib now

theorem orErr_eq_ok {α : Type} {x : Option α} {err : JwtErr} {a : α} :
    orErr x err = .ok a ↔ x = some a := by
  cases x with
  | none => simp [orErr]
  | some b => simp [orErr]

theorem JWKSet.mem_of_pick {keys : JWKSet R E} {kid alg : String} {k : JWK R E}
    (h : keys.pick kid alg = some k) : k ∈ keys := by
  unfold JWKSet.pick at h
  split_ifs at h
  · rcases Option.or_eq_some_iff.mp h with h | ⟨-, h⟩
    · exact List.mem_of_find?_eq_some h
    · exact List.mem_of_find?_eq_some h
  · rcases Option.or_eq_some_iff.mp h with h | ⟨-, h⟩
    · exact List.mem_of_find?_eq_some h
    · exact List.mem_of_find?_eq_some h

theorem JWKSet.lookup_eq_ok {keys : JWKSet R E} {kid alg : String} {key : PublicKey R E} :
    keys.lookup kid alg = .ok key ↔ ∃ k, keys.pick kid alg = some k ∧ k.key = key := by
  rw [JWKSet.lookup, orErr_eq_ok, Option.map_eq_some_iff]

/-- The signature is one of the key over the encoded header and payload, in the scheme and with
the digest of the algorithm. -/
inductive SignedBy (lib : TokenLib R E) (t : Token) (alg : String) (sig : Bytes) :
    PublicKey R E → Prop
  | rsa (h : Digest) (k : R) (halg : rsaHash alg = some h)
      (hsig : lib.verifyPKCS1v15 k h (lib.sum h t.signed) sig = true) :
      SignedBy lib t alg sig (.rsa k)
  | ecdsa (h : Digest) (bitSize : ℕ) (k : E) (halg : ecHash alg = some h)
      (hlength : sig.length = 2*((bitSize + 7) / 8))
      (hsig : lib.ecdsaVerify k (lib.sum h t.signed) (natOfBytes (sig.take ((bitSize + 7) / 8)))
        (natOfBytes (sig.drop ((bitSize + 7) / 8))) = true) :
      SignedBy lib t alg sig (.ecdsa (some bitSize) k)

theorem rsaHash_of_ecHash {alg : String} {h : Digest} (halg : ecHash alg = some h) :
    rsaHash alg = none := by
  unfold ecHash at halg
  split at halg
  · rfl
  · rfl
  · rfl
  · cases halg

theorem verifySignature_eq_ok_iff (lib : TokenLib R E) (t : Token) (key : PublicKey R E)
    (alg : String) :
    verifySignature lib t key alg = .ok () ↔
      ∃ sig, Base64.rawURLDecode t.rawSignature.toList = some sig ∧
        SignedBy lib t alg sig key := by
  unfold verifySignature
  cases hsig : Base64.rawURLDecode t.rawSignature.toList with
  | none => simp
  | some sig =>
    simp only [Option.some.injEq, exists_eq_left']
    constructor
    · intro h
      cases hrsa : rsaHash alg with
      | some d =>
        rw [hrsa] at h
        cases key with
        | rsa k =>
          by_cases hverify : verifyRSA lib d (.rsa k) t.signed sig = true
          · exact .rsa d k hrsa hverify
          · simp [hverify] at h
        | ecdsa curve k => cases h
      | none =>
        rw [hrsa] at h
        cases hec : ecHash alg with
        | none =>
          rw [hec] at h
          cases h
        | some d =>
          rw [hec] at h
          cases key with
          | rsa k => cases h
          | ecdsa curve k =>
            cases curve with
            | none => cases h
            | some bitSize =>
              by_cases hverify :
                verifyEC lib d (.ecdsa (some bitSize) k) t.signed sig = true
              · obtain ⟨hlength, hverify⟩ := Bool.and_eq_true_iff.mp hverify
                exact .ecdsa d bitSize k hec (of_decide_eq_true hlength) hverify
              · simp [hverify] at h
    · intro h
      cases h with
      | rsa d k halg hverify =>
        simp only [halg, verifyRSA, hverify, if_true]
      | ecdsa d bitSize k halg hlength hverify =>
        simp only [rsaHash_of_ecHash halg, halg, verifyEC, hverify, hlength, decide_true,
          Bool.and_self, if_true]

structure ClaimsPass (lib : TokenLib R E) (now : ℤ) (t : Token) (issuer : String)
    (audiences : List String) (clockSkew : ℕ) : Prop where
  payload : t.payloadNull = false
  exp : ∀ v, fieldOf t.payload "exp" = some v →
    ∃ n, numericToInt64 lib v = some n ∧ now - clockSkew*10^9 ≤ unixTime n
  nbf : ∀ v, fieldOf t.payload "nbf" = some v →
    ∃ n, numericToInt64 lib v = some n ∧ unixTime n ≤ now + clockSkew*10^9
  iss : issuer ≠ "" → fieldOf t.payload "iss" = some (.str issuer)
  aud : audiences ≠ [] → ∃ a ∈ audiences, fieldOf t.payload "aud" = some (.str a) ∨
    ∃ entries, fieldOf t.payload "aud" = some (.arr entries) ∧ .str a ∈ entries

theorem expPasses_iff (lib : TokenLib R E) (now : ℤ) (clockSkew : ℕ)
    (payload : List (String × Claim)) :
    expPasses lib now clockSkew payload = true ↔ ∀ v, fieldOf payload "exp" = some v →
      ∃ n, numericToInt64 lib v = some n ∧ now - clockSkew*10^9 ≤ unixTime n := by
  unfold expPasses
  cases fieldOf payload "exp" with
  | none => simp
  | some v => simp [Option.any_eq_true]

theorem nbfPasses_iff (lib : TokenLib R E) (now : ℤ) (clockSkew : ℕ)
    (payload : List (String × Claim)) :
    nbfPasses lib now clockSkew payload = true ↔ ∀ v, fieldOf payload "nbf" = some v →
      ∃ n, numericToInt64 lib v = some n ∧ unixTime n ≤ now + clockSkew*10^9 := by
  unfold nbfPasses
  cases fieldOf payload "nbf" with
  | none => simp
  | some v => simp [Option.any_eq_true]

theorem issPasses_iff (issuer : String) (payload : List (String × Claim)) :
    issPasses issuer payload = true ↔
      (issuer ≠ "" → fieldOf payload "iss" = some (.str issuer)) := by
  unfold issPasses
  cases fieldOf payload "iss" with
  | none => simp
  | some v =>
    cases v with
    | str iss =>
      simp only [Bool.or_eq_true, beq_iff_eq, Option.some.injEq, Claim.str.injEq]
      exact or_iff_not_imp_left
    | num text => simp
    | bool b => simp
    | null => simp
    | arr entries => simp
    | obj fields => simp

theorem audIntersects_iff (audRaw : Option Claim) (want : List String) :
    audIntersects audRaw want = true ↔ ∃ a ∈ want, audRaw = some (.str a) ∨
      ∃ entries, audRaw = some (.arr entries) ∧ .str a ∈ entries := by
  cases audRaw with
  | none => simp [audIntersects]
  | some v =>
    cases v with
    | str a => simp [audIntersects]
    | arr entries =>
      simp only [audIntersects, List.any_eq_true, Option.some.injEq, Claim.arr.injEq,
        reduceCtorEq, false_or, exists_eq_left']
      constructor
      · rintro ⟨entry, hentry, hwant⟩
        cases entry with
        | str s => exact ⟨s, List.contains_iff_mem.mp hwant, hentry⟩
        | num text => cases hwant
        | bool b => cases hwant
        | null => cases hwant
        | arr inner => cases hwant
        | obj fields => cases hwant
      · rintro ⟨a, ha, hentry⟩
        exact ⟨.str a, hentry, List.contains_iff_mem.mpr ha⟩
    | num text => simp [audIntersects]
    | bool b => simp [audIntersects]
    | null => simp [audIntersects]
    | obj fields => simp [audIntersects]

theorem validateClaims_eq_ok_iff (lib : TokenLib R E) (now : ℤ) (t : Token) (issuer : String)
    (audiences : List String) (clockSkew : ℕ) :
    validateClaims lib now t issuer audiences clockSkew = .ok () ↔
      ClaimsPass lib now t issuer audiences clockSkew := by
  have haud : (audiences.isEmpty || audIntersects (fieldOf t.payload "aud") audiences) = true ↔
      (audiences ≠ [] → ∃ a ∈ audiences, fieldOf t.payload "aud" = some (.str a) ∨
        ∃ entries, fieldOf t.payload "aud" = some (.arr entries) ∧ .str a ∈ entries) := by
    rw [Bool.or_eq_true, List.isEmpty_iff, audIntersects_iff]
    exact or_iff_not_imp_left
  have hchecks : validateClaims lib now t issuer audiences clockSkew = .ok () ↔
      t.payloadNull = false ∧ expPasses lib now clockSkew t.payload = true ∧
        nbfPasses lib now clockSkew t.payload = true ∧ issPasses issuer t.payload = true ∧
        (audiences.isEmpty || audIntersects (fieldOf t.payload "aud") audiences) = true := by
    unfold validateClaims
    generalize expPasses lib now clockSkew t.payload = b₁
    generalize nbfPasses lib now clockSkew t.payload = b₂
    generalize issPasses issuer t.payload = b₃
    generalize (audiences.isEmpty || audIntersects (fieldOf t.payload "aud") audiences) = b₄
    cases t.payloadNull <;> cases b₁ <;> cases b₂ <;> cases b₃ <;> cases b₄ <;> simp
  rw [hchecks, expPasses_iff, nbfPasses_iff, issPasses_iff, haud]
  constructor
  · rintro ⟨hpayload, hexp, hnbf, hiss, haud⟩
    exact ⟨hpayload, hexp, hnbf, hiss, haud⟩
  · rintro ⟨hpayload, hexp, hnbf, hiss, haud⟩
    exact ⟨hpayload, hexp, hnbf, hiss, haud⟩

theorem bind_ne_missed {α β : Type} {x : Except JwtErr α} {f : α → Except JwtErr β}
    (hx : x ≠ .error .jwtMissed) (hf : ∀ a, f a ≠ .error .jwtMissed) :
    x >>= f ≠ .error .jwtMissed := by
  cases x with
  | error err => exact fun h => hx (by cases h; rfl)
  | ok a => exact hf a

theorem orErr_ne_missed {α : Type} (x : Option α) {err : JwtErr} (herr : err ≠ .jwtMissed) :
    orErr x err ≠ .error .jwtMissed := by
  cases x with
  | none => exact fun h => herr (Except.error.inj h)
  | some a => exact fun h => by cases h

theorem parse_ne_missed (lib : TokenLib R E) (raw : String) :
    parse lib raw ≠ .error .jwtMissed := by
  unfold parse
  split
  · refine bind_ne_missed (orErr_ne_missed _ (by decide)) (fun headerBytes => ?_)
    refine bind_ne_missed (orErr_ne_missed _ (by decide)) (fun header => ?_)
    refine bind_ne_missed (orErr_ne_missed _ (by decide)) (fun payloadBytes => ?_)
    refine bind_ne_missed (orErr_ne_missed _ (by decide)) (fun payload => ?_)
    refine bind_ne_missed (orErr_ne_missed _ (by decide)) (fun _ => ?_)
    refine bind_ne_missed (orErr_ne_missed _ (by decide)) (fun alg => ?_)
    intro h
    cases h
  · intro h
    cases h

theorem Fetcher.get_ne_missed (f : Fetcher R E) : f.get ≠ .error .jwtMissed := by
  obtain ⟨closed, ready, keys, notReadyErr⟩ := f
  cases closed <;> cases ready <;> cases keys <;> cases notReadyErr <;>
    exact fun h => by cases h

theorem verifySignature_ne_missed (lib : TokenLib R E) (t : Token) (key : PublicKey R E)
    (alg : String) : verifySignature lib t key alg ≠ .error .jwtMissed := by
  unfold verifySignature
  split
  · exact fun h => by cases h
  · split
    · split <;> exact fun h => by cases h
    · split <;> exact fun h => by cases h
    · exact fun h => by cases h

theorem validateClaims_ne_missed (lib : TokenLib R E) (now : ℤ) (t : Token) (issuer : String)
    (audiences : List String) (clockSkew : ℕ) :
    validateClaims lib now t issuer audiences clockSkew ≠ .error .jwtMissed := by
  unfold validateClaims
  split_ifs <;> exact fun h => by cases h

theorem checkToken_ne_missed (lib : TokenLib R E) (now : ℤ) (fetchers : String → Fetcher R E)
    (p : CompiledProvider (JWKSet R E)) (audiences : List String) (raw : String) :
    checkToken (jwtLib lib now fetchers) p audiences raw ≠ .error .jwtMissed := by
  have hkeys : resolveKeyset (jwtLib lib now fetchers) p ≠ .error .jwtMissed := by
    unfold resolveKeyset
    split
    · exact fun h => by cases h
    · exact Fetcher.get_ne_missed _
    · exact fun h => by cases h
  refine bind_ne_missed (parse_ne_missed lib raw) (fun t => ?_)
  refine bind_ne_missed hkeys (fun keys => ?_)
  refine bind_ne_missed (orErr_ne_missed _ (by decide)) (fun key => ?_)
  refine bind_ne_missed (verifySignature_ne_missed lib t key t.alg) (fun _ => ?_)
  refine bind_ne_missed (validateClaims_ne_missed lib now t _ _ _) (fun _ => ?_)
  exact fun h => by cases h

end EnvoyGo.JwtAuthn

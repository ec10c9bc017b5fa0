import EnvoyGo.OAuth2Session

/-!
The oauth2 filter as a gate: which of its legs let a request go on to the upstream, and what each
of them asks for.
-/

namespace EnvoyGo.OAuth2

/-- The settings of the dispatch.  A matcher that is not configured is `none`; so is the accessor of
the secret, which otherwise gives what is loaded at a moment. -/
structure GateConfig extends CompiledConfig where
  signoutPath : Option (String → Bool) := none
  redirectPathMatcher : Option (String → Bool) := none
  passThroughMatcher : Option ((String → String) → Bool) := none
  denyRedirectMatcher : Option ((String → String) → Option String) := none
  hmacSecretFn : Option (Int → Bytes) := none

/-- What has become of a request: it goes on, it is answered here, or it waits for the token
endpoint. -/
inductive Disposition
  | goesOn (headers : Header)
  | answered (reply : LocalReply)
  | awaitsToken
  | awaitsRefresh (env : CookieEnvelope)

def headerView (h : Header) (name : String) : String := Header.get h name

def composeSignoutLocation (cc : GateConfig) (h : Header) : String :=
  match cc.denyRedirectMatcher with
  | none => cc.redirectURI
  | some denies => (denies (headerView h)).getD cc.redirectURI

def handleSignout (cc : GateConfig) (h : Header) : LocalReply where
  status := 302
  body := []
  headers := ⟨"Location", composeSignoutLocation cc h⟩ ::
    setCookieFields (addFlowCookieDeletionHeaders cc.cookieNames cc.cookieAttrs)

/-- The value of the last member of a query with the name; a value that does not unescape is
empty. -/
def queryValue (query : List Char) (name : String) : String :=
  (Text.split '&' query).foldl (fun found member =>
    match Text.cut '=' member with
    | none => found
    | some (k, raw) =>
      if k = name.toList then String.ofList ((Text.queryUnescape raw).getD []) else found) ""

def extractCallbackParams (path : String) : String × String :=
  match Text.cut '?' path.toList with
  | none => ("", "")
  | some (_, query) => (queryValue query "code", queryValue query "state")

def lookupStateCookie (cc : GateConfig) (h : Header) : String :=
  (((cookies h).find? (fun c => c.1 == cc.stateCookieName)).map Prod.snd).getD ""

def validateStateCookie (cookieValue queryValue : String) : Bool :=
  if cookieValue = "" ∨ queryValue = "" then false else cookieValue == queryValue

def handleCallback (cc : GateConfig) (h : Header) : Disposition :=
  let state := (extractCallbackParams (Header.get h ":path")).2
  if validateStateCookie (lookupStateCookie cc h) state then .awaitsToken
  else .answered (emitCategoryD401 cc.toCompiledConfig)

/-- The secret at a moment; no accessor gives no bytes. -/
def GateConfig.secret (cc : GateConfig) (now : Int) : Bytes :=
  match cc.hmacSecretFn with
  | none => []
  | some load => load now

def Validation.disposition : Validation → Disposition
  | .accepted h => .goesOn h
  | .refresh env => .awaitsRefresh env
  | .challenge reply => .answered reply

def GateConfig.routesAway (cc : GateConfig) (path : String) : Bool :=
  cc.signoutPath.elim false (fun f => f path) || cc.redirectPathMatcher.elim false (fun f => f path)

def GateConfig.passesThrough (cc : GateConfig) (h : Header) : Bool :=
  cc.passThroughMatcher.elim false (fun f => f (headerView h))

def decodeHeaders (cc : GateConfig) (cipher : BlockCipher) (now : Int) (h : Header) :
    Disposition :=
  let path := getHeaderValue h ":path"
  if cc.signoutPath.elim false (fun f => f path) then .answered (handleSignout cc h)
  else if cc.redirectPathMatcher.elim false (fun f => f path) then
    if getHeaderValue h ":method" = "POST" then .answered (emitCategoryD401 cc.toCompiledConfig)
    else handleCallback cc h
  else if cc.passesThrough h then .goesOn h
  else
    (handleCookieValidate cc.toCompiledConfig cipher (cc.secret now) now h).disposition

/-- What comes of a request that waited, once the token endpoint has answered.  A callback is always
answered here. -/
def resume (cc : GateConfig) (cipher : BlockCipher) (h : Header) (ivs : Bytes × Bytes)
    (later : Int) (post : TokenPost) : Disposition → Disposition
  | .awaitsToken =>
    .answered (applyTokenEndpointResponse cc.toCompiledConfig cipher (cc.secret later) ivs later
      post)
  | .awaitsRefresh _ =>
    match applyRefreshTokenResponse cc.toCompiledConfig later post with
    | .inl reply => .answered reply
    | .inr _ => .goesOn h
  | d => d

/-- The request has gone on to the upstream. -/
def Disposition.GoesOn : Disposition → Prop
  | .goesOn _ => True
  | _ => False

/-- One request through the gate, with the answer of the token endpoint should it be asked. -/
def gate (cc : GateConfig) (cipher : BlockCipher) (now : Int) (h : Header) (ivs : Bytes × Bytes)
    (later : Int) (post : TokenPost) : Disposition :=
  resume cc cipher h ivs later post (decodeHeaders cc cipher now h)

def Signed (cc : GateConfig) (secret : Bytes) (h : Header) : Prop :=
  let env := parseAllCookies h cc.cookieNames
  rawHMAC (requestDomain h) env.oauthExpires env.bearerToken env.idToken env.refreshToken secret ∈
    decodeDualEncoding env.oauthHMAC

def Unexpired (cc : GateConfig) (now : Int) (h : Header) : Prop :=
  ∃ epoch, Text.parseInt64 (parseAllCookies h cc.cookieNames).oauthExpires = some epoch ∧
    now / 10^9 < epoch

/-- What entitles a request to go on. -/
inductive Entitled (cc : GateConfig) (cipher : BlockCipher) (now : Int) (h : Header)
    (post : TokenPost) : Prop
  | passedThrough (hpass : cc.passesThrough h = true)
  | session (hsecret : cc.secret now ≠ []) (hsigned : Signed cc (cc.secret now) h)
      (hexpiry : Unexpired cc now h)
  | refreshed (env : CookieEnvelope) (status : Int) (body : Option TokenEndpointResponse)
      (hasked : decodeHeaders cc cipher now h = .awaitsRefresh env)
      (hpost : post = .response status body) (hok : 200 ≤ status ∧ status < 300)

/-- The MAC of the cookies is checked, and holds, under no secret at all. -/
def SignedWithoutSecret (cc : GateConfig) (now : Int) (h : Header) : Prop :=
  let env := parseAllCookies h cc.cookieNames
  cc.routesAway (getHeaderValue h ":path") = false ∧ cc.passesThrough h = false ∧
    cc.secret now = [] ∧
    validateHMAC (requestDomain h) env.oauthExpires env.bearerToken env.idToken env.refreshToken []
      env.oauthHMAC = true ∧
    isExpired env.oauthExpires (now / 10^9) = false

theorem signed_of_validateHMAC {cc : GateConfig} {secret : Bytes} {h : Header}
    (hvalid : validateHMAC (requestDomain h) (parseAllCookies h cc.cookieNames).oauthExpires
      (parseAllCookies h cc.cookieNames).bearerToken (parseAllCookies h cc.cookieNames).idToken
      (parseAllCookies h cc.cookieNames).refreshToken secret
      (parseAllCookies h cc.cookieNames).oauthHMAC = true) : Signed cc secret h := by
  unfold validateHMAC at hvalid
  split at hvalid
  · cases hvalid
  · obtain ⟨candidate, hmem, hboth⟩ := List.any_eq_true.mp hvalid
    rw [Bool.and_eq_true, beq_iff_eq, beq_iff_eq] at hboth
    unfold Signed
    dsimp only
    rw [← hboth.2]
    exact hmem

theorem unexpired_of_isExpired {cc : GateConfig} {now : Int} {h : Header}
    (hfresh : isExpired (parseAllCookies h cc.cookieNames).oauthExpires (now / 10^9) = false) :
    Unexpired cc now h := by
  unfold isExpired at hfresh
  split at hfresh
  · cases hfresh
  · cases hparse : Text.parseInt64 (parseAllCookies h cc.cookieNames).oauthExpires with
    | none =>
      rw [hparse] at hfresh
      cases hfresh
    | some epoch =>
      rw [hparse] at hfresh
      refine ⟨epoch, hparse, ?_⟩
      simpa using hfresh

theorem decodeHeaders_cases (cc : GateConfig) (cipher : BlockCipher) (now : Int) (h : Header) :
    (∃ reply, decodeHeaders cc cipher now h = .answered reply) ∨
    decodeHeaders cc cipher now h = .awaitsToken ∨
    (cc.passesThrough h = true ∧ decodeHeaders cc cipher now h = .goesOn h) ∨
    (cc.routesAway (getHeaderValue h ":path") = false ∧ cc.passesThrough h = false ∧
      decodeHeaders cc cipher now h =
        (handleCookieValidate cc.toCompiledConfig cipher (cc.secret now) now h).disposition) := by
  unfold decodeHeaders GateConfig.routesAway
  dsimp only
  split_ifs with hout hback hpost hpass
  · exact .inl ⟨_, rfl⟩
  · exact .inl ⟨_, rfl⟩
  · unfold handleCallback
    dsimp only
    split_ifs
    · exact .inr (.inl rfl)
    · exact .inl ⟨_, rfl⟩
  · exact .inr (.inr (.inl ⟨hpass, rfl⟩))
  · refine .inr (.inr (.inr ⟨?_, by simpa using hpass, rfl⟩))
    rw [Bool.or_eq_false_iff]
    exact ⟨by simpa using hout, by simpa using hback⟩

theorem handleCookieValidate_goesOn_iff (cc : GateConfig) (cipher : BlockCipher) (secret : Bytes)
    (now : Int) (h : Header) :
    (∃ h', (handleCookieValidate cc.toCompiledConfig cipher secret now h).disposition =
        .goesOn h') ↔
      validateHMAC (requestDomain h) (parseAllCookies h cc.cookieNames).oauthExpires
        (parseAllCookies h cc.cookieNames).bearerToken (parseAllCookies h cc.cookieNames).idToken
        (parseAllCookies h cc.cookieNames).refreshToken secret
        (parseAllCookies h cc.cookieNames).oauthHMAC = true ∧
      isExpired (parseAllCookies h cc.cookieNames).oauthExpires (now / 10^9) = false := by
  unfold handleCookieValidate
  dsimp only
  split_ifs with hvalid hexpired hrefresh
  · refine iff_of_false ?_ (fun hboth => Bool.false_ne_true (hboth.2.symm.trans hexpired))
    rintro ⟨h', heq⟩
    cases heq
  · refine iff_of_false ?_ (fun hboth => Bool.false_ne_true (hboth.2.symm.trans hexpired))
    rintro ⟨h', heq⟩
    cases heq
  · exact iff_of_true ⟨_, rfl⟩ ⟨hvalid, by simpa using hexpired⟩
  · refine iff_of_false ?_ (fun hboth => hvalid hboth.1)
    rintro ⟨h', heq⟩
    cases heq

theorem resume_refresh_goesOn {cc : GateConfig} {cipher : BlockCipher} {h : Header}
    {ivs : Bytes × Bytes} {later : Int} {post : TokenPost} {env : CookieEnvelope}
    (hgoes : (resume cc cipher h ivs later post (.awaitsRefresh env)).GoesOn) :
    ∃ status body, post = .response status body ∧ 200 ≤ status ∧ status < 300 := by
  unfold resume applyRefreshTokenResponse at hgoes
  cases post with
  | failed => exact absurd hgoes not_false
  | response status body =>
    dsimp only at hgoes
    by_cases hbad : status < 200 ∨ status ≥ 300
    · rw [if_pos hbad] at hgoes
      exact absurd hgoes not_false
    · exact ⟨status, body, rfl, by omega, by omega⟩

theorem gate_entitled_iff (cc : GateConfig) (cipher : BlockCipher) (now : Int) (h : Header)
    (ivs : Bytes × Bytes) (later : Int) (post : TokenPost) :
    ((gate cc cipher now h ivs later post).GoesOn → Entitled cc cipher now h post) ↔
      ¬ SignedWithoutSecret cc now h := by
  constructor
  · rintro hentitled ⟨haway, hpass, hsecret, hvalid, hfresh⟩
    -- the cookie leg is reached and lets the request go on
    have hleg : decodeHeaders cc cipher now h =
        (handleCookieValidate cc.toCompiledConfig cipher (cc.secret now) now h).disposition := by
      unfold GateConfig.routesAway at haway
      rw [Bool.or_eq_false_iff] at haway
      unfold decodeHeaders
      simp [haway.1, haway.2, hpass]
    obtain ⟨h', hgoes⟩ := (handleCookieValidate_goesOn_iff cc cipher (cc.secret now) now h).mpr
      ⟨by rw [hsecret]; exact hvalid, hfresh⟩
    have hon : (gate cc cipher now h ivs later post).GoesOn := by
      unfold gate
      rw [hleg, hgoes]
      trivial
    cases hentitled hon with
    | passedThrough hyes =>
      rw [hpass] at hyes
      cases hyes
    | session hne => exact hne hsecret
    | refreshed env status body hasked =>
      rw [hleg, hgoes] at hasked
      cases hasked
  · intro hnot hon
    unfold gate at hon
    rcases decodeHeaders_cases cc cipher now h with ⟨reply, hd⟩ | hd | ⟨hpass, -⟩ |
      ⟨haway, hpass, hd⟩
    · rw [hd] at hon
      exact absurd hon not_false
    · rw [hd] at hon
      exact absurd hon not_false
    · exact .passedThrough hpass
    · cases hv : (handleCookieValidate cc.toCompiledConfig cipher (cc.secret now) now
          h).disposition with
      | goesOn h' =>
        obtain ⟨hvalid, hfresh⟩ :=
          (handleCookieValidate_goesOn_iff cc cipher (cc.secret now) now h).mp ⟨h', hv⟩
        have hne : cc.secret now ≠ [] := by
          intro hsecret
          rw [hsecret] at hvalid
          exact hnot ⟨haway, hpass, hsecret, hvalid, hfresh⟩
        exact .session hne (signed_of_validateHMAC hvalid) (unexpired_of_isExpired hfresh)
      | answered reply =>
        rw [hd, hv] at hon
        exact absurd hon not_false
      | awaitsToken =>
        rw [hd, hv] at hon
        exact absurd hon not_false
      | awaitsRefresh env =>
        rw [hd, hv] at hon
        obtain ⟨status, body, hpost, hok⟩ := resume_refresh_goesOn hon
        exact .refreshed env status body (hd.trans hv) hpost hok

/-- The five fields under a MAC. -/
structure MacFields where
  domain : String
  expires : String
  token : String
  idToken : String
  refreshToken : String

/-- The bytes of the fields. -/
def MacFields.bytes (f : MacFields) : List Bytes :=
  [f.domain, f.expires, f.token, f.idToken, f.refreshToken].map textBytes

def MacFields.message (f : MacFields) : Bytes :=
  hmacMessage f.domain f.expires f.token f.idToken f.refreshToken

/-- No field has a newline in it. -/
def MacFields.SingleLines (f : MacFields) : Prop := ∀ b ∈ f.bytes, (10 : UInt8) ∉ b

theorem append_sep_inj {a a' b b' : Bytes} (ha : (10 : UInt8) ∉ a) (ha' : (10 : UInt8) ∉ a')
    (h : a ++ 10 :: b = a' ++ 10 :: b') : a = a' ∧ b = b' := by
  induction a generalizing a' with
  | nil =>
    cases a' with
    | nil => exact ⟨rfl, (List.cons.inj h).2⟩
    | cons x xs =>
      have hx := (List.cons.inj h).1
      exact absurd (hx ▸ List.mem_cons_self) ha'
  | cons y ys ih =>
    cases a' with
    | nil =>
      have hy := (List.cons.inj h).1
      exact absurd (hy ▸ List.mem_cons_self) ha
    | cons x xs =>
      obtain ⟨hxy, htail⟩ := List.cons.inj h
      obtain ⟨hrest, hb⟩ := ih (fun hm => ha (List.mem_cons_of_mem _ hm))
        (fun hm => ha' (List.mem_cons_of_mem _ hm)) htail
      exact ⟨by rw [hxy, hrest], hb⟩

theorem message_injective {f g : MacFields} (hf : f.SingleLines) (hg : g.SingleLines)
    (h : f.message = g.message) : f.bytes = g.bytes := by
  have hassoc (k : MacFields) : k.message = textBytes k.domain ++ 10 :: (textBytes k.expires ++
      10 :: (textBytes k.token ++ 10 :: (textBytes k.idToken ++ 10 ::
        textBytes k.refreshToken))) := by
    unfold MacFields.message hmacMessage
    simp
  have hline (k : MacFields) (hk : k.SingleLines) :
      (10 : UInt8) ∉ textBytes k.domain ∧ (10 : UInt8) ∉ textBytes k.expires ∧
        (10 : UInt8) ∉ textBytes k.token ∧ (10 : UInt8) ∉ textBytes k.idToken := by
    unfold MacFields.SingleLines MacFields.bytes at hk
    exact ⟨hk _ (by simp), hk _ (by simp), hk _ (by simp), hk _ (by simp)⟩
  obtain ⟨f1, f2, f3, f4⟩ := hline f hf
  obtain ⟨g1, g2, g3, g4⟩ := hline g hg
  rw [hassoc f, hassoc g] at h
  obtain ⟨hdomain, h⟩ := append_sep_inj f1 g1 h
  obtain ⟨hexpires, h⟩ := append_sep_inj f2 g2 h
  obtain ⟨htoken, h⟩ := append_sep_inj f3 g3 h
  obtain ⟨hid, hrefresh⟩ := append_sep_inj f4 g4 h
  unfold MacFields.bytes
  simp only [List.map_cons, List.map_nil, hdomain, hexpires, htoken, hid, hrefresh]

/-- A request goes on only if it is entitled to, exactly unless its cookies carry a MAC that holds
without a secret; and the message under a MAC tells its fields apart. -/
theorem oauth2_gate_entitled_iff (cc : GateConfig) (cipher : BlockCipher) (now : Int) (h : Header)
    (ivs : Bytes × Bytes) (later : Int) (post : TokenPost) :
    (((gate cc cipher now h ivs later post).GoesOn → Entitled cc cipher now h post) ↔
      ¬ SignedWithoutSecret cc now h) ∧
    ∀ f g : MacFields, f.SingleLines → g.SingleLines → f.message = g.message →
      f.bytes = g.bytes :=
  ⟨gate_entitled_iff cc cipher now h ivs later post, fun _ _ hf hg => message_injective hf hg⟩

/-- Cookies anyone can make: the MAC is that of the empty key. -/
def forgedRequest : Header :=
  (AList.insert "Cookie" [presented (emitCategoryB_PostCallback {} {} "forged"
    (computeHMAC "host" (formatExpiresValue 9999999999) "forged" "" "" []) 9999999999 "")]
    ∅).insert ":authority" ["host"]

theorem forgedRequest_signedWithoutSecret : SignedWithoutSecret {} 0 forgedRequest := by
  have hcookie : forgedRequest.lookup "Cookie" = some [presented (emitCategoryB_PostCallback {} {}
      "forged" (computeHMAC "host" (formatExpiresValue 9999999999) "forged" "" "" [])
      9999999999 "")] := rfl
  have htok : ∀ c ∈ "forged".toList, Base64.isURLSafe c = true :=
    List.all_eq_true.mp (by decide +kernel)
  have href : ∀ c ∈ "".toList, Base64.isURLSafe c = true :=
    List.all_eq_true.mp (by decide +kernel)
  have henv := parseAllCookies_presented defaults_wellFormed 9999999999 htok
    (isURLSafe_rawURLEncode _) href forgedRequest hcookie
  have hdomain : requestDomain forgedRequest = "host" := rfl
  have hexpired := isExpired_formatExpiresValue 9999999999 (0 / 10^9) (by decide) (by decide)
  refine ⟨rfl, rfl, rfl, ?_, ?_⟩
  · rw [henv, hdomain]
    exact (validateHMAC_rawURLEncode _ _ _ _ _ _ _ (length_rawHMAC _ _ _ _ _ _)).mpr rfl
  · rw [henv]
    exact hexpired.trans (by decide)

/-- With no secret loaded a forged set of cookies is let through. -/
theorem forged_cookies_let_through :
    let cc : GateConfig := {}
    cc.secret 0 = [] ∧ (gate cc plainCipher 0 forgedRequest ([], []) 0 .failed).GoesOn ∧
      ¬ Entitled cc plainCipher 0 forgedRequest .failed := by
  intro cc
  have hiff := gate_entitled_iff cc plainCipher 0 forgedRequest ([], []) 0 .failed
  have hnot : ¬ ((gate cc plainCipher 0 forgedRequest ([], []) 0 .failed).GoesOn →
      Entitled cc plainCipher 0 forgedRequest .failed) :=
    fun h => hiff.mp h forgedRequest_signedWithoutSecret
  push Not at hnot
  exact ⟨rfl, hnot⟩

end EnvoyGo.OAuth2

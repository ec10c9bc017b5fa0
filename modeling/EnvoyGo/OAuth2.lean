import EnvoyGo.FilterChain
import EnvoyGo.GoBase64
import EnvoyGo.GoHMAC

/-!
The oauth2 filter's session: the cookies a callback or a refresh issues, and the validation
of the cookies of a request.  The block cipher is a parameter.
-/

namespace EnvoyGo.OAuth2

structure CookieEnvelope where
  bearerToken : String := ""
  oauthHMAC : String := ""
  oauthExpires : String := ""
  idToken : String := ""
  refreshToken : String := ""
  deriving DecidableEq

structure CookieNames where
  bearerToken : String := "BearerToken"
  oauthHMAC : String := "OauthHMAC"
  oauthExpires : String := "OauthExpires"
  idToken : String := "IdToken"
  refreshToken : String := "RefreshToken"

structure SetCookieAttrs where
  path : String := "/"
  secure : Bool := true
  httpOnly : Bool := true
  sameSite : String := "Lax"
  maxAge : Option Int := none
  domain : String := ""

structure TokenEndpointResponse where
  accessToken : String
  refreshToken : String := ""
  idToken : String := ""
  expiresIn : Int := 0

/-- The settings the session code reads; `defaultExpiresIn` is in nanoseconds.
`disableTokenEncryption` is never set by the configuration parser. -/
structure CompiledConfig where
  cookieNames : CookieNames := {}
  cookieAttrs : SetCookieAttrs := {}
  stateCookieName : String := "OauthExpires"
  authorizationEndpoint : String := ""
  redirectURI : String := ""
  forwardBearerToken : Bool := false
  preserveAuthorizationHeader : Bool := false
  disableTokenEncryption : Bool := false
  useRefreshToken : Bool := true
  defaultExpiresIn : Int := 0

/-- AES in CBC mode: key, initialisation vector, whole blocks. -/
structure BlockCipher where
  cbcEncrypt : Bytes → Bytes → Bytes → Bytes
  cbcDecrypt : Bytes → Bytes → Bytes → Bytes

def hmacMessage (domain expires token idToken refreshToken : String) : Bytes :=
  textBytes domain ++ [10] ++ textBytes expires ++ [10] ++ textBytes token ++ [10] ++
    textBytes idToken ++ [10] ++ textBytes refreshToken

def rawHMAC (domain expires token idToken refreshToken : String) (hmacSecret : Bytes) : Bytes :=
  Crypto.hmacSHA256 hmacSecret (hmacMessage domain expires token idToken refreshToken)

def computeHMAC (domain expires token idToken refreshToken : String) (hmacSecret : Bytes) :
    String :=
  String.ofList (Base64.rawURLEncode
    (rawHMAC domain expires token idToken refreshToken hmacSecret))

def nestedHex (outer : Bytes) : Option Bytes :=
  if outer = [] ∨ outer.length % 2 ≠ 0 then none else Base64.hexDecode outer

def decodeDualEncoding (cookieHMAC : String) : List Bytes :=
  let outer := (Base64.rawURLDecode cookieHMAC.toList).toList ++
    (Base64.urlDecode cookieHMAC.toList).toList
  outer ++ outer.filterMap nestedHex

def hmacOutputLen : Nat := 32

def validateHMAC (domain expires token idToken refreshToken : String) (hmacSecret : Bytes)
    (cookieHMAC : String) : Bool :=
  if cookieHMAC = "" then false
  else (decodeDualEncoding cookieHMAC).any (fun candidate =>
    candidate.length == hmacOutputLen &&
      candidate == rawHMAC domain expires token idToken refreshToken hmacSecret)

def pkcs7Pad (plaintext : Bytes) (blockSize : Nat) : Bytes :=
  let padLen := blockSize - plaintext.length % blockSize
  plaintext ++ List.replicate padLen (UInt8.ofNat padLen)

def pkcs7Unpad (padded : Bytes) (blockSize : Nat) : Option Bytes :=
  if padded.length = 0 ∨ padded.length % blockSize ≠ 0 then none
  else
    let padLen := (padded.getLast?.getD 0).toNat
    if padLen = 0 ∨ padLen > blockSize then none
    else if (padded.drop (padded.length - padLen)).all (fun b => b == UInt8.ofNat padLen) then
      some (padded.take (padded.length - padLen))
    else none

/-- The vector comes from the system's random source. -/
def encryptToken (cipher : BlockCipher) (iv plaintext hmacSecret : Bytes) : String :=
  String.ofList (Base64.rawURLEncode
    (iv ++ cipher.cbcEncrypt (Crypto.sha256 hmacSecret) iv (pkcs7Pad plaintext 16)))

/-- Any failure gives the envelope back as it is. -/
def decryptToken (cipher : BlockCipher) (envelope : String) (hmacSecret : Bytes) : Bytes :=
  match Base64.rawURLDecode envelope.toList with
  | none => textBytes envelope
  | some raw =>
    if raw.length < 16 ∨ raw.length = 16 ∨ raw.length % 16 ≠ 0 then textBytes envelope
    else
      (pkcs7Unpad (cipher.cbcDecrypt (Crypto.sha256 hmacSecret) (raw.take 16) (raw.drop 16))
        16).getD (textBytes envelope)

def formatSetCookie (name value : String) (attrs : SetCookieAttrs) : String :=
  name ++ "=" ++ value ++ "; Path=" ++ attrs.path ++
    (if attrs.secure then "; Secure" else "") ++
    (if attrs.httpOnly then "; HttpOnly" else "") ++
    "; SameSite=" ++ attrs.sameSite ++
    (match attrs.maxAge with
      | none => ""
      | some seconds => "; Max-Age=" ++ String.ofList (Text.formatInt seconds)) ++
    (if attrs.domain = "" then "" else "; Domain=" ++ attrs.domain)

def formatExpiresValue (epochSeconds : Int) : String :=
  String.ofList (Text.formatInt epochSeconds)

def withMaxAgeZero (attrs : SetCookieAttrs) : SetCookieAttrs := { attrs with maxAge := some 0 }

def addFlowCookieDeletionHeaders (names : CookieNames) (attrs : SetCookieAttrs) : List String :=
  [names.bearerToken, names.oauthHMAC, names.oauthExpires, names.idToken, names.refreshToken].map
    (fun name => formatSetCookie name "" (withMaxAgeZero attrs))

def emitCategoryA_AuthChallenge (names : CookieNames) (attrs : SetCookieAttrs)
    (stateCookieName stateValue : String) : List String :=
  [names.bearerToken, names.oauthHMAC, names.oauthExpires, names.refreshToken].map
    (fun name => formatSetCookie name "" (withMaxAgeZero attrs)) ++
  [formatSetCookie stateCookieName stateValue attrs]

def emitCategoryB_PostCallback (names : CookieNames) (attrs : SetCookieAttrs)
    (encAccessToken hmacValue : String) (expiresEpoch : Int) (encRefreshToken : String) :
    List String :=
  [formatSetCookie names.bearerToken encAccessToken attrs,
   formatSetCookie names.oauthHMAC hmacValue attrs,
   formatSetCookie names.oauthExpires (formatExpiresValue expiresEpoch) attrs] ++
  (if encRefreshToken ≠ "" then [formatSetCookie names.refreshToken encRefreshToken attrs] else [])

def setCookieFields (cookies : List String) : OrderedHeaders :=
  cookies.map (fun v => ⟨"Set-Cookie", v⟩)

section Session
variable (cc : CompiledConfig)

/-- The clock in nanoseconds; a `time.Duration` and `Time.Unix` are 64-bit. -/
def epochAfter (now duration : Int) : Int :=
  Int.bmod ((now + Int.bmod duration (2^64)) / 10^9) (2^64)

def callbackExpiry (tr : TokenEndpointResponse) (now : Int) : Int :=
  let expiresIn := if tr.expiresIn ≤ 0 then Int.tdiv cc.defaultExpiresIn (10^9) else tr.expiresIn
  epochAfter now (expiresIn * 10^9)

def encodedTokens (cipher : BlockCipher) (secret : Bytes) (ivs : Bytes × Bytes)
    (tr : TokenEndpointResponse) : String × String :=
  if cc.disableTokenEncryption then (tr.accessToken, tr.refreshToken)
  else
    (encryptToken cipher ivs.1 (textBytes tr.accessToken) secret,
     if tr.refreshToken ≠ "" then encryptToken cipher ivs.2 (textBytes tr.refreshToken) secret
     else "")

/-- The cookies of `emitCategoryB_PostCallbackLocked`; the domain signed is empty. -/
def callbackCookies (cipher : BlockCipher) (secret : Bytes) (ivs : Bytes × Bytes) (now : Int)
    (tr : TokenEndpointResponse) : List String :=
  let enc := encodedTokens cc cipher secret ivs tr
  let expiresEpoch := callbackExpiry cc tr now
  let hmacValue :=
    computeHMAC "" (formatExpiresValue expiresEpoch) enc.1 tr.idToken enc.2 secret
  emitCategoryB_PostCallback cc.cookieNames cc.cookieAttrs enc.1 hmacValue expiresEpoch enc.2

def emitCategoryB_PostCallbackLocked (cipher : BlockCipher) (secret : Bytes)
    (ivs : Bytes × Bytes) (now : Int) (tr : TokenEndpointResponse) : LocalReply where
  status := 302
  body := []
  headers := ⟨"Location", cc.redirectURI⟩ ::
    setCookieFields (callbackCookies cc cipher secret ivs now tr)

def emitCategoryA_AuthChallengeWire (now : Int) : LocalReply where
  status := 302
  body := []
  headers := ⟨"Location", cc.authorizationEndpoint⟩ ::
    setCookieFields (emitCategoryA_AuthChallenge cc.cookieNames cc.cookieAttrs cc.stateCookieName
      (String.ofList (Text.formatInt (now / 10^9))))

def emitCategoryD401 : LocalReply where
  status := 401
  body := textBytes "OAuth flow failed."
  headers := setCookieFields (addFlowCookieDeletionHeaders cc.cookieNames cc.cookieAttrs)

/-- What the POST to the token endpoint came back with; the body is `none` if it is not the
JSON object the code reads. -/
inductive TokenPost
  | failed
  | response (status : Int) (body : Option TokenEndpointResponse)

def applyTokenEndpointResponse (cipher : BlockCipher) (secret : Bytes) (ivs : Bytes × Bytes)
    (now : Int) : TokenPost → LocalReply
  | .failed => emitCategoryA_AuthChallengeWire cc now
  | .response status body =>
    if 200 ≤ status ∧ status < 300 then
      match body with
      | none => emitCategoryA_AuthChallengeWire cc now
      | some tr =>
        if tr.accessToken = "" then emitCategoryA_AuthChallengeWire cc now
        else emitCategoryB_PostCallbackLocked cc cipher secret ivs now tr
    else if 500 ≤ status ∧ status < 600 then emitCategoryA_AuthChallengeWire cc now
    else if 400 ≤ status ∧ status < 500 then emitCategoryD401 cc
    else emitCategoryA_AuthChallengeWire cc now

def refreshExpiry (now : Int) : Int := epochAfter now cc.defaultExpiresIn

def refreshCookies (now : Int) : List String :=
  emitCategoryB_PostCallback cc.cookieNames cc.cookieAttrs "" "" (refreshExpiry cc now) ""

/-- A failed refresh is answered with the challenge; a successful one lets the request go on
with the cookies pending. -/
def applyRefreshTokenResponse (now : Int) : TokenPost → LocalReply ⊕ OrderedHeaders
  | .failed => .inl (emitCategoryA_AuthChallengeWire cc now)
  | .response status _ =>
    if status < 200 ∨ status ≥ 300 then .inl (emitCategoryA_AuthChallengeWire cc now)
    else .inr (setCookieFields (refreshCookies cc now))

/-- `net/http` drops a cookie with a name that is no token or a value byte that is not
allowed; outer quotes are removed. -/
def validCookieValueByte (c : Char) : Bool :=
  0x20 ≤ c.toNat && c.toNat < 0x7f && c != '"' && c != ';' && c != '\\'

def parseCookieValue (raw : List Char) : Option (List Char) :=
  let raw :=
    if raw.length > 1 ∧ raw.head? = some '"' ∧ raw.getLast? = some '"' then raw.tail.dropLast
    else raw
  if raw.all validCookieValueByte then some raw else none

def isToken (s : List Char) : Bool := s != [] && s.all validHeaderFieldByte

def readCookie (part : List Char) : Option (String × String) :=
  let part := Text.trimString part
  if part = [] then none
  else
    let pair := (Text.cut '=' part).getD (part, [])
    let name := Text.trimString pair.1
    if isToken name then
      (parseCookieValue pair.2).map (fun v => (String.ofList name, String.ofList v))
    else none

def cookies (h : Header) : List (String × String) :=
  ((h.lookup "Cookie").getD []).flatMap (fun line =>
    (Text.split ';' (Text.trimString line.toList)).filterMap readCookie)

def CookieEnvelope.put (names : CookieNames) (env : CookieEnvelope) (c : String × String) :
    CookieEnvelope :=
  if c.1 = names.bearerToken then { env with bearerToken := c.2 }
  else if c.1 = names.oauthHMAC then { env with oauthHMAC := c.2 }
  else if c.1 = names.oauthExpires then { env with oauthExpires := c.2 }
  else if c.1 = names.idToken then { env with idToken := c.2 }
  else if c.1 = names.refreshToken then { env with refreshToken := c.2 }
  else env

def parseAllCookies (h : Header) (names : CookieNames) : CookieEnvelope :=
  (cookies h).foldl (CookieEnvelope.put names) {}

def getHeaderValue (h : Header) (name : String) : String :=
  (((h.lookup name).getD []).head?).getD ""

/-- The authority of a request, the domain its cookies are checked for. -/
def requestDomain (h : Header) : String :=
  if getHeaderValue h ":authority" = "" then Header.get h "Host"
  else getHeaderValue h ":authority"

def isExpired (expiresValue : String) (now : Int) : Bool :=
  if expiresValue = "" then true
  else match Text.parseInt64 expiresValue with
  | none => true
  | some epoch => epoch ≤ now

inductive Validation
  | accepted (headers : Header)
  | refresh (env : CookieEnvelope)
  | challenge (reply : LocalReply)

def handleValidCookies (cipher : BlockCipher) (secret : Bytes) (h : Header)
    (env : CookieEnvelope) : Header :=
  if ¬cc.forwardBearerToken then h
  else if cc.preserveAuthorizationHeader ∧ Header.get h "Authorization" ≠ "" then h
  else
    let plaintext :=
      if cc.disableTokenEncryption then textBytes env.bearerToken
      else decryptToken cipher env.bearerToken secret
    Header.set h "Authorization"
      ("Bearer " ++ String.ofList (plaintext.map (fun b => Char.ofNat b.toNat)))

def handleCookieValidate (cipher : BlockCipher) (secret : Bytes) (now : Int) (h : Header) :
    Validation :=
  let env := parseAllCookies h cc.cookieNames
  if validateHMAC (requestDomain h) env.oauthExpires env.bearerToken env.idToken env.refreshToken
      secret env.oauthHMAC then
    if isExpired env.oauthExpires (now / 10^9) then
      if cc.useRefreshToken ∧ env.refreshToken ≠ "" then .refresh env
      else .challenge (emitCategoryA_AuthChallengeWire cc now)
    else .accepted (handleValidCookies cc cipher secret h env)
  else .challenge (emitCategoryA_AuthChallengeWire cc now)

end Session

end EnvoyGo.OAuth2

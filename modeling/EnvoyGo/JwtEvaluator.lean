import EnvoyGo.JwtAuthn

/-!
The request path of jwt_authn after rule selection: token extraction, the requirement tree,
and what an allowed request is forwarded with.
-/

namespace EnvoyGo.JwtAuthn

def isBase64URLOrJWTChar (c : Char) : Bool :=
  c.isAlphanum || c == '-' || c == '_' || c == '.' || c == '='

def stripNonBase64URLChars (s : List Char) : List Char := s.takeWhile isBase64URLOrJWTChar

def nonEmptyToken (raw : List Char) : Option String :=
  if raw = [] then none else some (String.ofList raw)

def queryOf (path : String) : Option (List Char) :=
  (Text.cut '?' path.toList).bind (fun parts =>
    let q := ((Text.cut '#' parts.2).map Prod.fst).getD parts.2
    if q = [] then none else some q)

def parseQueryParam (path name : String) : Option (List String) :=
  (queryOf path).bind (fun q => (Text.parseQuery q).bind (fun vals => vals.lookup name))

def paramToken (path name : String) : Option String :=
  (parseQueryParam path name).bind (fun vals => vals.head?.filter (fun v => v != ""))

def cookiePair (kv : List Char) : Option (String × String) :=
  match Text.cut '=' (Text.trimSpace kv) with
  | none => none
  | some ([], _) => none
  | some (name, value) =>
    let unquoted :=
      if value.length ≥ 2 ∧ value.head? = some '"' ∧ value.getLast? = some '"' then
        value.tail.dropLast
      else value
    some (String.ofList name, String.ofList unquoted)

def parseCookies (cookieHeader : String) : AList (fun _ : String => String) :=
  (Text.split ';' cookieHeader.toList).foldl
    (fun out kv => match cookiePair kv with
      | none => out
      | some pair => out.insert pair.1 pair.2)
    ∅

def headerToken (headers : Header) (hl : HeaderLoc) : Option String :=
  let v := (Header.get headers hl.name).toList
  if v = [] then none
  else if hl.valuePrefix = "" then
    nonEmptyToken (stripNonBase64URLChars (Text.trimSpace v))
  else (Text.afterFirst hl.valuePrefix.toList v).bind (fun candidate =>
    nonEmptyToken (stripNonBase64URLChars candidate))

section Extraction
variable {KS : Type}

def hasExplicit (p : CompiledProvider KS) : Bool :=
  p.fromHeaders.length > 0 || p.fromParams.length > 0 || p.fromCookies.length > 0

/-- `Authorization: Bearer` and `access_token`, used only without explicit sources. -/
def defaultTokens (headers : Header) : List String :=
  let v := Header.get headers "Authorization"
  let bearer :=
    if hasPrefix v "Bearer " then
      nonEmptyToken (stripNonBase64URLChars (Text.trimSpace (v.toList.drop 7)))
    else none
  bearer.toList ++ (paramToken (Header.get headers ":path") "access_token").toList

def extractTokens (p : CompiledProvider KS) (headers : Header) : List String :=
  if hasExplicit p then
    p.fromHeaders.filterMap (headerToken headers) ++
    p.fromParams.filterMap (paramToken (Header.get headers ":path")) ++
    p.fromCookies.filterMap (fun name =>
      ((parseCookies (Header.get headers "Cookie")).lookup name).filter (fun v => v != ""))
  else defaultTokens headers

end Extraction

def isCorsPreflightRequest (headers : Header) : Bool :=
  Header.get headers ":method" == "OPTIONS" && Header.get headers "Origin" != "" &&
    Header.get headers "Access-Control-Request-Method" != ""

def claimAt : List String → Claim → Option Claim
  | [], cur => some cur
  | seg :: segs, .obj fields =>
    (fields.find? (fun e => e.1 == seg)).bind (fun e => claimAt segs e.2)
  | _ :: _, _ => none

/-- `Token.PayloadClaim`; an array or an object at the end of the path is an error too. -/
def Token.payloadClaim (t : Token) (path : String) : Option Claim :=
  if path = "" then none
  else
    match claimAt ((Text.split '.' path.toList).map String.ofList) (.obj t.payload) with
    | some (.arr _) => none
    | some (.obj _) => none
    | found => found

def stringify : Claim → Option String
  | .str s => some s
  | .bool b => some (if b then "true" else "false")
  | .num text => some text
  | .null => some ""
  | .arr _ => none
  | .obj _ => none

def encodeBase64URL (raw : String) (pad : Bool) : String :=
  if pad then String.ofList (raw.toList ++ List.replicate ((4 - raw.length % 4) % 4) '=')
  else String.ofList ((raw.toList.reverse.dropWhile (fun c => c == '=')).reverse)

def stripQueryParam (path name : String) : String :=
  match Text.cut '?' path.toList with
  | none => path
  | some (base, rest) =>
    let (qs, frag) :=
      match Text.cut '#' rest with
      | none => (rest, [])
      | some (q, f) => (q, '#' :: f)
    match Text.parseQuery qs with
    | none => path
    | some vals =>
      if (vals.lookup name).isNone then path
      else if (vals.erase name).keys = [] then String.ofList (base ++ frag)
      else String.ofList (base ++ ['?'] ++ Text.encodeQuery (vals.erase name) ++ frag)

section Evaluation
variable {KS Key : Type}

def rewritePath (headers : Header) (names : List String) : Header :=
  let path := Header.get headers ":path"
  let newPath := names.foldl stripQueryParam path
  if newPath ≠ path then Header.set headers ":path" newPath else headers

def stripExtractionSources (headers : Header) (p : CompiledProvider KS) : Header :=
  if hasExplicit p then
    rewritePath (p.fromHeaders.foldl (fun h hl => Header.del h hl.name) headers) p.fromParams
  else rewritePath (Header.del headers "Authorization") ["access_token"]

/-- One step of the `claim_to_headers` loop: a missing or non-scalar claim is skipped. -/
def applyClaim (t : Token) (h : Header) (ch : ClaimToHeader) : Header :=
  match (t.payloadClaim ch.claimName).bind stringify with
  | none => h
  | some s => Header.set h ch.headerName s

def applySideEffects (t : Token) (p : CompiledProvider KS) (headers : Header) : Header :=
  let h1 := if p.forward then headers else stripExtractionSources headers p
  let h2 :=
    if p.forwardPayloadHeader ≠ "" then
      Header.set h1 p.forwardPayloadHeader (encodeBase64URL t.rawPayload p.padForwardPayloadHdr)
    else h1
  p.claimToHeaders.foldl (applyClaim t) h2

structure EvalResult (KS : Type) where
  allowed : Bool
  err : Option JwtErr := none
  token : Option Token := none
  provider : Option (CompiledProvider KS) := none

def resolveKeyset (lib : JwtLib KS Key) (p : CompiledProvider KS) : Except JwtErr KS :=
  match p.jwks with
  | .localJwks ks => .ok ks
  | .remote uri => lib.fetch uri
  | .missing => .error .verificationFail

def checkToken (lib : JwtLib KS Key) (p : CompiledProvider KS) (effectiveAudiences : List String)
    (raw : String) : Except JwtErr Token := do
  let t ← lib.parse raw
  let keyset ← resolveKeyset lib p
  let key ← lib.lookup keyset t.kid t.alg
  lib.verifySignature t key t.alg
  lib.validateClaims t p.issuer effectiveAudiences p.clockSkew
  return t

def firstValidToken (lib : JwtLib KS Key) (p : CompiledProvider KS)
    (effectiveAudiences : List String) : JwtErr → List String → EvalResult KS
  | lastErr, [] => { allowed := false, err := some lastErr }
  | _, raw :: rest =>
    match checkToken lib p effectiveAudiences raw with
    | .error err => firstValidToken lib p effectiveAudiences err rest
    | .ok t => { allowed := true, token := some t, provider := some p }

def evaluateProvider (lib : JwtLib KS Key) (p : CompiledProvider KS) (headers : Header)
    (effectiveAudiences : List String) : EvalResult KS :=
  firstValidToken lib p effectiveAudiences .jwtMissed (extractTokens p headers)

def requiresAnyErrPriority : Option JwtErr → Nat
  | none => 0
  | some .jwtMissed => 1
  | some .kidAlgMismatch => 2
  | some _ => 3

def mergeRequiresAnyErr (cur next : Option JwtErr) : Option JwtErr :=
  if cur = none then next
  else if next = none then cur
  else if requiresAnyErrPriority next > requiresAnyErrPriority cur then next
  else cur

def evaluateAllowMissing (lib : JwtLib KS Key) (headers : Header) :
    Bool → Option JwtErr → List (CompiledProvider KS) → EvalResult KS
  | anyTokenExtracted, lastNonMissedErr, [] =>
    if anyTokenExtracted ∧ lastNonMissedErr ≠ none then
      { allowed := false, err := lastNonMissedErr }
    else { allowed := true }
  | anyTokenExtracted, lastNonMissedErr, p :: rest =>
    if extractTokens p headers = [] then
      evaluateAllowMissing lib headers anyTokenExtracted lastNonMissedErr rest
    else
      let r := evaluateProvider lib p headers p.audiences
      if r.allowed then r
      else
        let err := if r.err ≠ none ∧ r.err ≠ some .jwtMissed then r.err else lastNonMissedErr
        evaluateAllowMissing lib headers true err rest

mutual

def evaluateRequirement (lib : JwtLib KS Key) (rc : CompiledConfig KS) (headers : Header) :
    Requirement KS → EvalResult KS
  | .providerName p => evaluateProvider lib p headers p.audiences
  | .providerAndAudiences p audOverr => evaluateProvider lib p headers audOverr
  | .requiresAny children => evaluateAny lib rc headers none children
  | .requiresAll children => evaluateAll lib rc headers { allowed := true } children
  | .allowMissing => evaluateAllowMissing lib headers false none rc.providers
  | .allowMissingOrFailed => { allowed := true }

def evaluateAny (lib : JwtLib KS Key) (rc : CompiledConfig KS) (headers : Header)
    (bestErr : Option JwtErr) : List (Requirement KS) → EvalResult KS
  | [] => { allowed := false, err := bestErr }
  | sub :: rest =>
    let r := evaluateRequirement lib rc headers sub
    if r.allowed then r
    else evaluateAny lib rc headers (mergeRequiresAnyErr bestErr r.err) rest

def evaluateAll (lib : JwtLib KS Key) (rc : CompiledConfig KS) (headers : Header)
    (last : EvalResult KS) : List (Requirement KS) → EvalResult KS
  | [] => last
  | sub :: rest =>
    let r := evaluateRequirement lib rc headers sub
    if r.allowed then evaluateAll lib rc headers r rest else r

end

def originalURI (headers : Header) : String :=
  let path := Header.get headers ":path"
  if path = "" then ""
  else
    let authority :=
      if Header.get headers ":authority" ≠ "" then Header.get headers ":authority"
      else Header.get headers "host"
    let scheme :=
      if Header.get headers "x-forwarded-proto" ≠ "" then Header.get headers "x-forwarded-proto"
      else if Header.get headers ":scheme" ≠ "" then Header.get headers ":scheme"
      else "http"
    if authority ≠ "" then scheme ++ "://" ++ authority ++ path else path

def mapStatusToHTTPCode (reason : Option JwtErr) : Int :=
  if reason = some .audienceNotAllowed then 403 else 401

def emitDenyResponse (rc : CompiledConfig KS) (uri : String) (reason : Option JwtErr) :
    LocalReply :=
  let code := mapStatusToHTTPCode reason
  if rc.stripFailureResponse then { status := code, body := [], headers := [] }
  else
    let realm := if uri = "" then "/" else uri
    let wwwAuth := "Bearer realm=\"" ++ realm ++ "\"" ++
      (if reason = some .jwtMissed then "" else ", error=\"invalid_token\"")
    { status := code
      body := textBytes ((reason.map JwtErr.error).getD "")
      headers := [⟨"www-authenticate", wwwAuth⟩, ⟨"content-type", "text/plain"⟩] }

/-- `DecodeHeaders` returns `Continue` with the header map as it left it, or
`StopIteration` after a local reply. -/
inductive Decision
  | forward (headers : Header)
  | deny (reply : LocalReply)

def applyResult (rc : CompiledConfig KS) (r : EvalResult KS) (headers : Header) : Decision :=
  if r.allowed then
    match r.token, r.provider with
    | some t, some p => .forward (applySideEffects t p headers)
    | _, _ => .forward headers
  else .deny (emitDenyResponse rc (originalURI headers) r.err)

def decodeHeaders (lib : JwtLib KS Key) (rc : CompiledConfig KS)
    (perRoute : Option CompiledPerRoute) (headers : Header) : Decision :=
  if (perRoute.map CompiledPerRoute.disabled).getD false then .forward headers
  else if rc.bypassCorsPreflight && isCorsPreflightRequest headers then .forward headers
  else match resolveRequirement rc perRoute headers with
  | .denied reply => .deny reply
  | .passThrough => .forward headers
  | .requirement req => applyResult rc (evaluateRequirement lib rc headers req) headers

/-- The filter in a chain; after a denial there is nothing to resume it. -/
def jwtAuthnFilter {σ : Type} (lib : JwtLib KS Key) (rc : CompiledConfig KS)
    (perRoute : Option CompiledPerRoute) : StreamDecoderFilter σ where
  decodeHeaders _ := .touch id (fun w =>
    match decodeHeaders lib rc perRoute w.request with
    | .forward headers =>
      .touch (fun w => { w with request := headers }) (fun _ => .done .continueIteration)
    | .deny reply => .sendLocalReply reply (.done .stopIteration))
  decodeData _ _ := .done .dataContinue
  parked := .done .ctxDone

end Evaluation

end EnvoyGo.JwtAuthn

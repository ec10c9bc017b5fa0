import EnvoyGo.FilterChain
import EnvoyGo.GoText

/-!
The jwt_authn filter: rule selection, token extraction, requirement trees and the header
writes on success.  Parsing a token, the key sets and the cryptographic checks are a parameter.
-/

namespace EnvoyGo.JwtAuthn

inductive PathSpecifier
  | path (p : String)
  | pathPrefix (p : String)
  | safeRegex
  | pathSeparatedPrefix
  | connectMatcher
  | unset (type : String)
  deriving DecidableEq

structure RouteMatch where
  caseSensitive : Option Bool := none
  headers : Nat := 0
  queryParameters : Nat := 0
  runtimeFraction : Bool := false
  dynamicMetadata : Nat := 0
  tlsContext : Bool := false
  pathSpecifier : PathSpecifier

inductive PathMatcher
  | exact (want : String)
  | pathPrefix (want : String)
  deriving DecidableEq

def PathMatcher.want : PathMatcher → String
  | .exact w => w
  | .pathPrefix w => w

/-- Both kinds compare the raw `:path`. -/
def PathMatcher.matches : PathMatcher → String → Bool
  | .exact w, p => p == w
  | .pathPrefix w, p => hasPrefix p w

def compileRouteMatch : Option RouteMatch → Except String PathMatcher
  | none => .error "match is missing"
  | some m =>
    if m.caseSensitive = some false then
      .error "match.case_sensitive=false is not supported (phase 17 jwt_authn)"
    else if m.headers > 0 then .error "match.headers is not supported (phase 17 jwt_authn)"
    else if m.queryParameters > 0 then
      .error "match.query_parameters is not supported (phase 17 jwt_authn)"
    else if m.runtimeFraction then
      .error "match.runtime_fraction is not supported (phase 17 jwt_authn)"
    else if m.dynamicMetadata > 0 then
      .error "match.dynamic_metadata is not supported (phase 17 jwt_authn)"
    else if m.tlsContext then .error "match.tls_context is not supported (phase 17 jwt_authn)"
    else match m.pathSpecifier with
    | .path p => if p = "" then .error "match.path is empty" else .ok (.exact p)
    | .pathPrefix p => if p = "" then .error "match.prefix is empty" else .ok (.pathPrefix p)
    | .safeRegex => .error "match.safe_regex is not supported (phase 17 jwt_authn)"
    | .pathSeparatedPrefix =>
      .error "match.path_separated_prefix is not supported (phase 17 jwt_authn)"
    | .connectMatcher => .error "match.connect_matcher is not supported (phase 17 jwt_authn)"
    | .unset type =>
      .error ("match.path_specifier is missing or of unsupported type " ++ type)

structure HeaderLoc where
  name : String
  valuePrefix : String
  deriving DecidableEq

structure ClaimToHeader where
  headerName : String
  claimName : String
  deriving DecidableEq

inductive JwksSource (KS : Type)
  | localJwks (ks : KS)
  | remote (uri : String)
  | missing

structure CompiledProvider (KS : Type) where
  issuer : String := ""
  audiences : List String := []
  jwks : JwksSource KS
  forward : Bool := false
  fromHeaders : List HeaderLoc := []
  fromParams : List String := []
  fromCookies : List String := []
  forwardPayloadHeader : String := ""
  padForwardPayloadHdr : Bool := false
  claimToHeaders : List ClaimToHeader := []
  clearRouteCache : Bool := false
  clockSkew : Nat := 60

inductive Requirement (KS : Type)
  | providerName (p : CompiledProvider KS)
  | providerAndAudiences (p : CompiledProvider KS) (audOverr : List String)
  | requiresAny (children : List (Requirement KS))
  | requiresAll (children : List (Requirement KS))
  | allowMissing
  | allowMissingOrFailed

structure CompiledRule (KS : Type) where
  matchFn : Option PathMatcher
  requirement : Requirement KS

/-- A rule's compiled matcher is never absent (`buildCompiledRule`); the request path still
treats an absent one as a wildcard. -/
def buildCompiledRule {KS : Type} (m : Option RouteMatch) (req : Requirement KS) :
    Except String (CompiledRule KS) :=
  match m with
  | none => .error "match is required"
  | some m =>
    match compileRouteMatch m with
    | .error err => .error ("match: " ++ err)
    | .ok matchFn => .ok { matchFn := some matchFn, requirement := req }

/-- `providers` and `requirementMap` are Go maps: the lists are in some iteration order. -/
structure CompiledConfig (KS : Type) where
  providers : List (CompiledProvider KS) := []
  rules : List (CompiledRule KS) := []
  requirementMap : List (String × Requirement KS) := []
  bypassCorsPreflight : Bool := false
  stripFailureResponse : Bool := false

structure CompiledPerRoute where
  disabled : Bool := false
  requirementName : String := ""

inductive JwtErr
  | jwtMissed
  | audienceNotAllowed
  | verificationFail
  | kidAlgMismatch
  | other (text : String)
  deriving DecidableEq

def JwtErr.error : JwtErr → String
  | .jwtMissed => "Jwt is missing"
  | .audienceNotAllowed => "Audiences in Jwt are not allowed"
  | .verificationFail => "Jwt verification fails"
  | .kidAlgMismatch => "jwks: no key matched kid+alg"
  | .other text => text

inductive Claim
  | str (s : String)
  | num (text : String)
  | bool (b : Bool)
  | null
  | arr (entries : List Claim)
  | obj (fields : List (String × Claim))

structure Token where
  kid : String
  alg : String
  rawHeader : String := ""
  rawPayload : String
  rawSignature : String := ""
  payload : List (String × Claim)
  payloadNull : Bool := false

/-- The token library: `jwt.Parse`, `Fetcher.Get`, `JWKSet.Lookup`, `VerifySignature` and
`ValidateClaims` with issuer, audiences and clock skew. -/
structure JwtLib (KS Key : Type) where
  parse : String → Except JwtErr Token
  fetch : String → Except JwtErr KS
  lookup : KS → String → String → Except JwtErr Key
  verifySignature : Token → Key → String → Except JwtErr Unit
  validateClaims : Token → String → List String → Nat → Except JwtErr Unit

section Filter
variable {KS Key : Type}

inductive Resolved (KS : Type)
  | denied (reply : LocalReply)
  | passThrough
  | requirement (r : Requirement KS)

def ruleMatches (path : String) (rule : CompiledRule KS) : Bool :=
  match rule.matchFn with
  | none => true
  | some m => m.matches path

def resolveRequirement (rc : CompiledConfig KS) (perRoute : Option CompiledPerRoute)
    (headers : Header) : Resolved KS :=
  let name := (perRoute.map CompiledPerRoute.requirementName).getD ""
  if name ≠ "" then
    match rc.requirementMap.find? (fun e => e.1 == name) with
    | some e => .requirement e.2
    | none => .denied
        { status := 403
          body := textBytes ("Failed JWT authentication: Wrong requirement_name: " ++ name)
          headers := [] }
  else
    match rc.rules.find? (ruleMatches (Header.get headers ":path")) with
    | some rule => .requirement rule.requirement
    | none => .passThrough

end Filter

end EnvoyGo.JwtAuthn

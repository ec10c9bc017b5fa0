import EnvoyGo.FilterChain
import EnvoyGo.GoNet
import EnvoyGo.RuleTree

/-!
The RBAC rules engine: policies compiled from the configuration, evaluated against one
request.  The regular expression engine is a parameter.
-/

namespace EnvoyGo.RBAC

/-- `regexp.Compile` and `Regexp.MatchString`. -/
structure RegexpLib (Re : Type) where
  compile : String → Option Re
  matchString : Re → String → Bool

/-- The accessors of `EvalContext` that the evaluators call; `none` is a nil address. -/
structure EvalContext where
  header : String → Option String := fun _ => none
  urlPath : String := ""
  destinationIP : Option Net.IP := none
  destinationPort : Nat := 0
  requestedServerName : String := ""
  directRemoteIP : Option Net.IP := none
  remoteIP : Option Net.IP := none
  downstreamPrincipal : List String := []

inductive MatchPattern
  | exact (s : String)
  | pathPrefix (s : String)
  | suffix (s : String)
  | contains (s : String)
  | safeRegex (regex : Option String)
  | custom
  | unset
  deriving DecidableEq

structure StringMatcher where
  matchPattern : MatchPattern
  ignoreCase : Bool := false
  deriving DecidableEq

section Leaves
variable {Re : Type}

structure CompiledStringMatcher (Re : Type) where
  sm : Option StringMatcher := none
  re : Option Re := none

/-- A pattern that does not compile is kept without a program, not rejected. -/
def compileStringMatcher (lib : RegexpLib Re) (sm : Option StringMatcher) :
    CompiledStringMatcher Re :=
  match sm with
  | some { matchPattern := .safeRegex (some regex), .. } => { sm := sm, re := lib.compile regex }
  | _ => { sm := sm }

/-- Case folding is that of ASCII text. -/
def CompiledStringMatcher.matches (lib : RegexpLib Re) (c : CompiledStringMatcher Re)
    (candidate : String) : Bool :=
  match c.sm with
  | none => false
  | some sm =>
    match sm.matchPattern with
    | .exact s => if sm.ignoreCase then equalFold s candidate else s == candidate
    | .pathPrefix s =>
      if sm.ignoreCase then
        candidate.length ≥ s.length &&
          equalFold (String.ofList (candidate.toList.take s.length)) s
      else hasPrefix candidate s
    | .suffix s =>
      if sm.ignoreCase then
        candidate.length ≥ s.length &&
          equalFold (String.ofList (candidate.toList.drop (candidate.length - s.length))) s
      else hasSuffix candidate s
    | .contains s =>
      if sm.ignoreCase then Text.contains (toLower candidate) (toLower s)
      else Text.contains candidate s
    | .safeRegex _ =>
      match c.re with
      | none => false
      | some re => lib.matchString re candidate
    | .custom => false
    | .unset => false

inductive PathRule
  | path (sm : Option StringMatcher)
  | unset

def compilePathMatcher (lib : RegexpLib Re) : PathRule → CompiledStringMatcher Re
  | .path (some sm) => compileStringMatcher lib (some sm)
  | _ => {}

inductive HeaderMatchSpecifier
  | presentMatch (want : Bool)
  | stringMatch (sm : Option StringMatcher)
  | exactMatch (s : String)
  | prefixMatch (s : String)
  | suffixMatch (s : String)
  | containsMatch (s : String)
  | safeRegexMatch (regex : Option String)
  | rangeMatch (range : Option (Int × Int))
  | unset

structure HeaderMatcher where
  name : String
  treatMissingHeaderAsEmpty : Bool := false
  invertMatch : Bool := false
  specifier : HeaderMatchSpecifier

structure CompiledHeaderMatcher (Re : Type) where
  hm : HeaderMatcher
  stringMatch : CompiledStringMatcher Re := {}
  re : Option Re := none

def compileHeaderMatcher (lib : RegexpLib Re) (hm : HeaderMatcher) : CompiledHeaderMatcher Re :=
  match hm.specifier with
  | .stringMatch sm => { hm := hm, stringMatch := compileStringMatcher lib sm }
  | .safeRegexMatch (some regex) => { hm := hm, re := lib.compile regex }
  | _ => { hm := hm }

/-- The match before inversion, on a value that is `none` when the header is absent. -/
def CompiledHeaderMatcher.matchesValue (lib : RegexpLib Re) (c : CompiledHeaderMatcher Re)
    (value : Option String) : Bool :=
  match c.hm.specifier with
  | .presentMatch want => value.isSome == want
  | .stringMatch _ => value.any (c.stringMatch.matches lib)
  | .exactMatch s => value.any (fun v => v == s)
  | .prefixMatch s => value.any (fun v => hasPrefix v s)
  | .suffixMatch s => value.any (fun v => hasSuffix v s)
  | .containsMatch s => value.any (fun v => Text.contains v s)
  | .safeRegexMatch _ => value.any (fun v => c.re.any (fun re => lib.matchString re v))
  | .rangeMatch range => value.any (fun v => range.any (fun r =>
    (Text.parseInt64 v).any (fun n => r.1 ≤ n && n < r.2)))
  | .unset => false

def CompiledHeaderMatcher.matches (lib : RegexpLib Re) (c : CompiledHeaderMatcher Re)
    (ctx : EvalContext) : Bool :=
  let value := ctx.header c.hm.name
  let value := if value.isNone && c.hm.treatMissingHeaderAsEmpty then some "" else value
  let matched := c.matchesValue lib value
  if c.hm.invertMatch then !matched else matched

structure CidrRange where
  addressPrefix : String
  prefixLen : Option Nat := none
  deriving DecidableEq

structure CompiledCidr where
  ipNet : Option Net.IPNet
  deriving DecidableEq

/-- An address or a length that does not parse leaves no network behind. -/
def compileCidr (cidr : CidrRange) : CompiledCidr :=
  match Net.parseIP cidr.addressPrefix with
  | none => { ipNet := none }
  | some prefixIP =>
    let prefixLen := cidr.prefixLen.getD 0
    let bits := if (Net.to4 prefixIP).isSome then 32 else 128
    if prefixLen > bits then { ipNet := none }
    else { ipNet := Net.parseCIDR cidr.addressPrefix prefixLen }

def CompiledCidr.matches (c : CompiledCidr) (ip : Option Net.IP) : Bool :=
  match c.ipNet, ip with
  | some ipNet, some ip => ipNet.contains ip
  | _, _ => false

end Leaves

inductive Profile
  | http
  | l4
  deriving DecidableEq

/-- The arms of a `Permission` apart from the combinators.  `nilRules` is a combinator arm
whose message is nil. -/
inductive PermissionArm
  | any (val : Bool)
  | header (hm : Option HeaderMatcher)
  | urlPath (pm : Option PathRule)
  | destinationIp (cidr : Option CidrRange)
  | destinationPort (port : Nat)
  | destinationPortRange (range : Option (Int × Int))
  | requestedServerName (sm : Option StringMatcher)
  | nilRules (field : String)
  | sourcedMetadata
  | metadata
  | matcher
  | uriTemplate
  | unset
  | unknown (type : String)

abbrev Permission := RuleTree PermissionArm

inductive PrincipalArm
  | any (val : Bool)
  | authenticated (principalName : Option StringMatcher)
  | directRemoteIp (cidr : Option CidrRange)
  | remoteIp (cidr : Option CidrRange)
  | header (hm : Option HeaderMatcher)
  | urlPath (pm : Option PathRule)
  | nilIds (field : String)
  | sourcedMetadata
  | filterState
  | sourceIp
  | metadata
  | custom
  | unset
  | unknown (type : String)

abbrev Principal := RuleTree PrincipalArm

section Engine
variable {Re : Type}

inductive PermissionLeaf (Re : Type)
  | permAny (val : Bool)
  | permHeader (m : CompiledHeaderMatcher Re)
  | permURLPath (m : CompiledStringMatcher Re)
  | permDestIP (cidr : CompiledCidr)
  | permDestPort (port : Nat)
  | permDestPortRange (start stop : Int)
  | permSNI (m : CompiledStringMatcher Re)
  | permSourcedMetadata

inductive PrincipalLeaf (Re : Type)
  | prinAny (val : Bool)
  | prinAuthenticated (nameMatcher : Option (CompiledStringMatcher Re))
  | prinDirectRemoteIP (cidr : CompiledCidr)
  | prinRemoteIP (cidr : CompiledCidr)
  | prinHeader (m : CompiledHeaderMatcher Re)
  | prinURLPath (m : CompiledStringMatcher Re)
  | prinSourcedMetadata
  | prinFilterState

def httpOnly (arm : String) : String :=
  "rbac: " ++ arm ++ " is HTTP-only (unsupported for L4 network RBAC)"

def isNil (arm : String) : String := "rbac: " ++ arm ++ " is nil"

def buildPermissionArm (lib : RegexpLib Re) (profile : Profile) :
    PermissionArm → Except String (PermissionLeaf Re)
  | .any val =>
    if val then .ok (.permAny val)
    else .error "rbac: permission.any must be true (PGV const=true mirror)"
  | .header hm =>
    if profile = .l4 then .error (httpOnly "permission.header")
    else match hm with
    | none => .error (isNil "permission.header")
    | some hm => .ok (.permHeader (compileHeaderMatcher lib hm))
  | .urlPath pm =>
    if profile = .l4 then .error (httpOnly "permission.url_path")
    else match pm with
    | none => .error (isNil "permission.url_path")
    | some pm => .ok (.permURLPath (compilePathMatcher lib pm))
  | .destinationIp none => .error (isNil "permission.destination_ip")
  | .destinationIp (some cidr) => .ok (.permDestIP (compileCidr cidr))
  | .destinationPort port =>
    if port > 65535 then
      .error ("rbac: permission.destination_port " ++ Nat.repr port ++ " exceeds 65535")
    else .ok (.permDestPort port)
  | .destinationPortRange none => .error (isNil "permission.destination_port_range")
  | .destinationPortRange (some range) => .ok (.permDestPortRange range.1 range.2)
  | .requestedServerName none => .error (isNil "permission.requested_server_name")
  | .requestedServerName sm => .ok (.permSNI (compileStringMatcher lib sm))
  | .nilRules field => .error (isNil ("permission." ++ field))
  | .sourcedMetadata => .ok .permSourcedMetadata
  | .metadata => .error "rbac: permission.metadata deprecated; use sourced_metadata"
  | .matcher => .error "rbac: permission.matcher extension types unsupported in this build"
  | .uriTemplate =>
    .error "rbac: permission.uri_template extension types unsupported in this build"
  | .unset => .error "rbac: permission rule oneof is unset"
  | .unknown type => .error ("rbac: unknown permission rule type " ++ type)

def buildPrincipalArm (lib : RegexpLib Re) (profile : Profile) :
    PrincipalArm → Except String (PrincipalLeaf Re)
  | .any val =>
    if val then .ok (.prinAny val)
    else .error "rbac: principal.any must be true (PGV const=true mirror)"
  | .authenticated none => .ok (.prinAuthenticated none)
  | .authenticated sm => .ok (.prinAuthenticated (some (compileStringMatcher lib sm)))
  | .directRemoteIp none => .error (isNil "principal.direct_remote_ip")
  | .directRemoteIp (some cidr) => .ok (.prinDirectRemoteIP (compileCidr cidr))
  | .remoteIp none => .error (isNil "principal.remote_ip")
  | .remoteIp (some cidr) => .ok (.prinRemoteIP (compileCidr cidr))
  | .header hm =>
    if profile = .l4 then .error (httpOnly "principal.header")
    else match hm with
    | none => .error (isNil "principal.header")
    | some hm => .ok (.prinHeader (compileHeaderMatcher lib hm))
  | .urlPath pm =>
    if profile = .l4 then .error (httpOnly "principal.url_path")
    else match pm with
    | none => .error (isNil "principal.url_path")
    | some pm => .ok (.prinURLPath (compilePathMatcher lib pm))
  | .nilIds field => .error (isNil ("principal." ++ field))
  | .sourcedMetadata => .ok .prinSourcedMetadata
  | .filterState => .ok .prinFilterState
  | .sourceIp =>
    .error "rbac: principal.source_ip deprecated; use direct_remote_ip or remote_ip"
  | .metadata => .error "rbac: principal.metadata deprecated; use sourced_metadata"
  | .custom => .error "rbac: principal.custom extension types unsupported in this build"
  | .unset => .error "rbac: principal identifier oneof is unset"
  | .unknown type => .error ("rbac: unknown principal identifier type " ++ type)

def evaluatePermission (lib : RegexpLib Re) (ctx : EvalContext) : PermissionLeaf Re → Bool
  | .permAny val => val
  | .permHeader m => m.matches lib ctx
  | .permURLPath m => m.matches lib ctx.urlPath
  | .permDestIP cidr => cidr.matches ctx.destinationIP
  | .permDestPort port => ctx.destinationPort == port
  | .permDestPortRange start stop => start ≤ ctx.destinationPort && ctx.destinationPort < stop
  | .permSNI m => m.matches lib ctx.requestedServerName
  | .permSourcedMetadata => false

def evaluatePrincipal (lib : RegexpLib Re) (ctx : EvalContext) : PrincipalLeaf Re → Bool
  | .prinAny val => val
  | .prinAuthenticated nameMatcher =>
    match ctx.downstreamPrincipal, nameMatcher with
    | [], _ => false
    | _ :: _, none => true
    | candidates, some m => candidates.any (m.matches lib)
  | .prinDirectRemoteIP cidr => cidr.matches ctx.directRemoteIP
  | .prinRemoteIP cidr => cidr.matches ctx.remoteIP
  | .prinHeader m => m.matches lib ctx
  | .prinURLPath m => m.matches lib ctx.urlPath
  | .prinSourcedMetadata => false
  | .prinFilterState => false

inductive RBACAction
  | allow
  | deny
  | log
  | other (value : Int)
  deriving DecidableEq

structure Policy where
  permissions : List Permission
  principals : List Principal

/-- `policies` is a Go map. -/
structure RBACConfig where
  action : RBACAction
  policies : AList (fun _ : String => Policy)

structure CompiledPolicy (Re : Type) where
  name : String
  permissions : List (RuleTree (PermissionLeaf Re))
  principals : List (RuleTree (PrincipalLeaf Re))

structure CompiledRulesEngine (Re : Type) where
  action : RBACAction
  policies : List (CompiledPolicy Re)

def buildPermissionEvaluators (lib : RegexpLib Re) (profile : Profile) (perms : List Permission) :
    Except String (List (RuleTree (PermissionLeaf Re))) :=
  RuleTree.buildList "permission" (buildPermissionArm lib profile) 0 perms

def buildPrincipalEvaluators (lib : RegexpLib Re) (profile : Profile) (prins : List Principal) :
    Except String (List (RuleTree (PrincipalLeaf Re))) :=
  RuleTree.buildList "principal" (buildPrincipalArm lib profile) 0 prins

def buildPolicy (lib : RegexpLib Re) (profile : Profile) (name : String) (p : Policy) :
    Except String (CompiledPolicy Re) :=
  if p.permissions = [] then
    .error ("rbac: policy " ++ Text.quote name ++ " must have at least one permission")
  else if p.principals = [] then
    .error ("rbac: policy " ++ Text.quote name ++ " must have at least one principal")
  else match buildPermissionEvaluators lib profile p.permissions with
  | .error err => .error ("rbac: policy " ++ Text.quote name ++ " permissions: " ++ err)
  | .ok perms =>
    match buildPrincipalEvaluators lib profile p.principals with
    | .error err => .error ("rbac: policy " ++ Text.quote name ++ " principals: " ++ err)
    | .ok prins => .ok { name := name, permissions := perms, principals := prins }

def buildPolicies (lib : RegexpLib Re) (profile : Profile)
    (policies : AList (fun _ : String => Policy)) :
    List String → Except String (List (CompiledPolicy Re))
  | [] => .ok []
  | name :: names =>
    let p := (policies.lookup name).getD { permissions := [], principals := [] }
    match buildPolicy lib profile name p with
    | .error err => .error err
    | .ok cp => (buildPolicies lib profile policies names).map (fun cps => cp :: cps)

def buildRulesEngine (lib : RegexpLib Re) (r : RBACConfig) (profile : Profile) :
    Except String (CompiledRulesEngine Re) :=
  match r.action with
  | .other value =>
    .error ("rbac: invalid action " ++ Int.repr value ++ " (must be ALLOW/DENY/LOG)")
  | action =>
    (buildPolicies lib profile r.policies (r.policies.keys.insertionSort (· ≤ ·))).map
      (fun policies => { action := action, policies := policies })

inductive EngineResult
  | allowed
  | denied
  deriving DecidableEq

def policyMatches (lib : RegexpLib Re) (ctx : EvalContext) (p : CompiledPolicy Re) : Bool :=
  p.permissions.any (RuleTree.eval (evaluatePermission lib ctx)) &&
    p.principals.any (RuleTree.eval (evaluatePrincipal lib ctx))

def CompiledRulesEngine.matchedPolicy (lib : RegexpLib Re) (re : CompiledRulesEngine Re)
    (ctx : EvalContext) : String :=
  ((re.policies.find? (policyMatches lib ctx)).map CompiledPolicy.name).getD ""

def CompiledRulesEngine.evaluate (lib : RegexpLib Re) (re : CompiledRulesEngine Re)
    (ctx : EvalContext) : EngineResult × String :=
  let matchedPolicy := re.matchedPolicy lib ctx
  let matched := matchedPolicy != ""
  match re.action with
  | .allow => if matched then (.allowed, matchedPolicy) else (.denied, "")
  | .deny => if matched then (.denied, matchedPolicy) else (.allowed, "")
  | .log => (.allowed, matchedPolicy)
  | .other _ => (.denied, "")

def httpHeader (headers : Header) (name : String) : Option String :=
  match headers.lookup (canonicalMIMEHeaderKey name) with
  | some (v :: _) => some v
  | _ => ((headers.lookup name).getD []).head?

def httpEvalContext (headers : Header) (downstreamPrincipal : List String) : EvalContext where
  header := httpHeader headers
  urlPath := (httpHeader headers ":path").getD ""
  downstreamPrincipal := downstreamPrincipal

def denyReply : LocalReply where
  status := 403
  body := textBytes "RBAC: access denied"
  headers := [⟨"Content-Type", "text/plain"⟩]

def rbacFilter {σ : Type} (lib : RegexpLib Re) (re : CompiledRulesEngine Re)
    (downstreamPrincipal : List String) : StreamDecoderFilter σ where
  decodeHeaders _ := .touch id (fun w =>
    match (re.evaluate lib (httpEvalContext w.request downstreamPrincipal)).1 with
    | .allowed => .done .continueIteration
    | .denied => .sendLocalReply denyReply (.done .stopIteration))
  decodeData _ _ := .done .dataContinue
  parked := .done .ctxDone

end Engine

end EnvoyGo.RBAC

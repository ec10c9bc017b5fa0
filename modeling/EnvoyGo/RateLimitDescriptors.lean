import EnvoyGo.GoNet
import EnvoyGo.StringMatchers

/-!
The descriptors that the rate limit filter sends, `internal/filter/http/ratelimit/descriptors.go`:
the limits of the route and of the virtual host, their actions, and what each action makes of the
request.  A pointer is an `Option`; the case mapping and the regular expressions of the standard
library are parameters.
-/

namespace EnvoyGo.RateLimit

open RBAC (HeaderMatcher HeaderMatchSpecifier StringMatcher)
open StringMatch

variable {Re : Type}

structure GenericKey where
  descriptorKey : String := ""
  descriptorValue : String

structure RequestHeaders where
  headerName : String
  descriptorKey : String
  skipIfAbsent : Bool := false

structure HeaderValueMatch where
  descriptorKey : String := ""
  descriptorValue : String
  expectMatch : Option Bool := none
  headers : List (Option HeaderMatcher)

structure MaskedRemoteAddress where
  v4PrefixMaskLen : Option UInt32 := none
  v6PrefixMaskLen : Option UInt32 := none

inductive MetadataSource where
  | dynamic
  | routeEntry
  | unknown
  deriving DecidableEq

structure MetadataKey where
  key : String
  path : List String

structure MetaData where
  descriptorKey : String
  metadataKey : Option MetadataKey
  defaultValue : String := ""
  source : MetadataSource := .dynamic
  skipIfAbsent : Bool := false

structure QueryParameters where
  queryParameterName : String
  descriptorKey : String := ""
  skipIfAbsent : Bool := false

inductive QueryParameterMatchSpecifier where
  | presentMatch (want : Bool)
  | stringMatch (sm : Option StringMatcher)
  | unset

structure QueryParameterMatcher where
  name : String
  specifier : QueryParameterMatchSpecifier

structure QueryParameterValueMatch where
  descriptorKey : String := ""
  descriptorValue : String
  expectMatch : Option Bool := none
  queryParameters : List (Option QueryParameterMatcher)

inductive Action where
  | genericKey (gk : Option GenericKey)
  | requestHeaders (rh : Option RequestHeaders)
  | remoteAddress
  | destinationCluster
  | headerValueMatch (hvm : Option HeaderValueMatch)
  | sourceCluster
  | maskedRemoteAddress (mra : Option MaskedRemoteAddress)
  | metadata (md : Option MetaData)
  | queryParameters (qp : Option QueryParameters)
  | queryParameterValueMatch (qpvm : Option QueryParameterValueMatch)
  | extensionAction
  | dynamicMetadata
  | unset

structure Policy where
  stage : Option UInt32 := none
  actions : List (Option Action)

/-- `structpb.Value`; a nil pointer is read as a value of another kind. -/
inductive Value where
  | string (s : String)
  | struct (fields : List (String × Value))
  | other

/-- `net.Addr`; the address of a `TCPAddr` may be nil. -/
inductive Addr where
  | tcp (ip : Option Net.IP)
  | other

inductive VhostWalkMode where
  | overrideDefault
  | always
  | never
  deriving DecidableEq

/-- The two metadata maps are functions; a nil map has no value anywhere. -/
structure DescriptorInputs where
  routeRateLimits : List (Option Policy)
  vhostRateLimits : List (Option Policy)
  headers : Header
  remoteAddr : Option Addr := none
  clusterName : String := ""
  nodeServiceCluster : String := ""
  rawQuery : String := ""
  dynamicMetadata : String → String → Option Value := fun _ _ => none
  routeMetadata : String → Option (List (String × Value)) := fun _ => none
  filterStage : UInt32 := 0
  vhostWalkMode : VhostWalkMode := .overrideDefault

structure Entry where
  key : String
  value : String
  deriving DecidableEq

structure Descriptor where
  entries : List Entry
  deriving DecidableEq

/-- The three results `(entry, ok, drop)` of an action. -/
inductive Outcome where
  | entry (e : Entry)
  | skip
  | drop
  deriving DecidableEq

def hexDigits (n : ℕ) : String := String.ofList (Nat.toDigits 16 n)

def dotted (ip : Net.IP) : String := ".".intercalate (ip.map (fun b => Nat.repr b.toNat))

def hextets : Net.IP → List ℕ
  | hi :: lo :: rest => (256 * hi.toNat + lo.toNat) :: hextets rest
  | _ => []

def zeroRun (groups : List ℕ) : Option (ℕ × ℕ) :=
  (List.range groups.length).foldl (fun best i =>
    let l := ((groups.drop i).takeWhile (· == 0)).length
    if 2 ≤ l ∧ (best.map (fun r => r.2 - r.1)).getD 0 < l then some (i, i + l) else best) none

def colonText (ip : Net.IP) : String :=
  let groups := hextets ip
  match zeroRun groups with
  | none => ":".intercalate (groups.map hexDigits)
  | some (start, stop) => ":".intercalate ((groups.take start).map hexDigits) ++ "::" ++
      ":".intercalate ((groups.drop stop).map hexDigits)

def ipString (ip : Net.IP) : String :=
  if ip.length = 0 then "<nil>"
  else if ip.length ≠ 4 ∧ ip.length ≠ 16 then
    "?" ++ String.join (ip.map (fun b => hexDigits (b.toNat / 16) ++ hexDigits (b.toNat % 16)))
  else match Net.to4 ip with
  | some p4 => dotted p4
  | none => colonText ip

def ipFromAddr (a : Option Addr) : Option Net.IP :=
  match a with
  | some (.tcp ip) => ip
  | _ => none

/-- `IP.Mask`; a mask of another length gives nil, whose text is that of no bytes. -/
def maskIP (ip mask : Bytes) : Net.IP :=
  if ip.length = mask.length then Net.maskBytes ip mask else []

section Matchers

variable (strings : StringsLib) (lib : Regexps Re)

def matchSafeRegex (regex : Option String) (value : String) : Bool :=
  match regex with
  | none => false
  | some regex =>
    match lib.compile regex with
    | .ok re => lib.matchString re value
    | .error _ => false

def evaluateOneHeaderMatcher (m : Option HeaderMatcher) (headers : Header) : Bool :=
  match m with
  | none => false
  | some m =>
    if m.name = "" then false
    else
      let value := Header.get headers m.name
      let hit := match m.specifier with
        | .exactMatch s => value == s
        | .prefixMatch s => hasPrefix value s
        | .suffixMatch s => hasSuffix value s
        | .containsMatch s => Text.contains value s
        | .safeRegexMatch regex => matchSafeRegex lib regex value
        | .presentMatch want => if want then value != "" else value == ""
        | .stringMatch sm => evaluateStringMatcher strings lib sm value
        | .rangeMatch _ => false
        | .unset => false
      if m.invertMatch then !hit else hit

def evaluateAllHeaderMatchers (matchers : List (Option HeaderMatcher)) (headers : Header) : Bool :=
  matchers.all (fun m => evaluateOneHeaderMatcher strings lib m headers)

/-- `url.ParseQuery` without its error: members that are malformed are passed over. -/
def queryValues (rawQuery : String) : Header :=
  (Text.split '&' rawQuery.toList).foldl (fun vals m =>
    match Text.queryMember m with
    | some (some (k, v)) => vals.insert k ((vals.lookup k).getD [] ++ [v])
    | _ => vals) ∅

def lookupFirstQueryParam (rawQuery name : String) : Option String :=
  if rawQuery = "" then none
  else ((queryValues rawQuery).lookup name).bind List.head?

def evaluateOneQueryParameterMatcher (m : Option QueryParameterMatcher) (vals : Header) : Bool :=
  match m with
  | none => false
  | some m =>
    if m.name = "" then false
    else
      let got := vals.lookup m.name
      match m.specifier with
      | .presentMatch want => if want then got.isSome else got.isNone
      | .stringMatch sm =>
        match got with
        | none => false
        | some vs => evaluateStringMatcher strings lib sm (vs.head?.getD "")
      | .unset => false

def evaluateAllQueryParameterMatchers (matchers : List (Option QueryParameterMatcher))
    (rawQuery : String) : Bool :=
  matchers.all (fun m => evaluateOneQueryParameterMatcher strings lib m (queryValues rawQuery))

end Matchers

def descendStructpbValue : Value → List String → Option String
  | .string s, [] => some s
  | _, [] => none
  | cur, seg :: rest =>
    if seg = "" then none
    else match cur with
    | .struct fields =>
      match fields.lookup seg with
      | none => none
      | some next => descendStructpbValue next rest
    | _ => none

def resolveMetadataValue (md : MetaData) (inp : DescriptorInputs) : Option String :=
  match md.metadataKey with
  | none => none
  | some mk =>
    if mk.key = "" then none
    else match mk.path with
    | [] => none
    | firstKey :: rest =>
      if firstKey = "" then none
      else match md.source with
      | .dynamic =>
        (inp.dynamicMetadata mk.key firstKey).bind (fun v => descendStructpbValue v rest)
      | .routeEntry => (inp.routeMetadata mk.key).bind (fun fields =>
        (fields.lookup firstKey).bind (fun v => descendStructpbValue v rest))
      | .unknown => none

def descriptorKeyGenericKeyDefault : String := "generic_key"
def descriptorKeyHeaderValueMatchDefault : String := "header_match"
def descriptorKeyRemoteAddress : String := "remote_address"
def descriptorKeyDestinationCluster : String := "destination_cluster"
def descriptorKeySourceCluster : String := "source_cluster"
def descriptorKeyMaskedRemoteAddress : String := "masked_remote_address"
def descriptorKeyQueryParametersDefault : String := "query_param"
def descriptorKeyQueryParameterValueMatchDefault : String := "query_match"

def defaultV4PrefixMaskLen : UInt32 := 32
def defaultV6PrefixMaskLen : UInt32 := 128

def keyOr (key default : String) : String := if key = "" then default else key

def actionGenericKey (gk : Option GenericKey) : Outcome :=
  match gk with
  | none => .drop
  | some gk =>
    if gk.descriptorValue = "" then .drop
    else .entry ⟨keyOr gk.descriptorKey descriptorKeyGenericKeyDefault, gk.descriptorValue⟩

def actionRequestHeaders (rh : Option RequestHeaders) (headers : Header) : Outcome :=
  match rh with
  | none => .drop
  | some rh =>
    if rh.headerName = "" ∨ rh.descriptorKey = "" then .drop
    else
      let value := Header.get headers rh.headerName
      if value = "" then (if rh.skipIfAbsent then .skip else .drop)
      else .entry ⟨rh.descriptorKey, value⟩

def actionRemoteAddress (addr : Option Addr) : Outcome :=
  match ipFromAddr addr with
  | none => .drop
  | some ip =>
    if ipString ip = "" then .drop else .entry ⟨descriptorKeyRemoteAddress, ipString ip⟩

def actionDestinationCluster (clusterName : String) : Outcome :=
  if clusterName = "" then .drop else .entry ⟨descriptorKeyDestinationCluster, clusterName⟩

/-- `header_value_match` and `query_parameter_value_match`, once their matchers have decided. -/
def actionValueMatch (descriptorKey default descriptorValue : String) (expectMatch : Option Bool)
    (hit : Bool) : Outcome :=
  if descriptorValue = "" then .drop
  else if hit ≠ expectMatch.getD true then .drop
  else .entry ⟨keyOr descriptorKey default, descriptorValue⟩

def actionHeaderValueMatch (strings : StringsLib) (lib : Regexps Re)
    (hvm : Option HeaderValueMatch) (headers : Header) : Outcome :=
  match hvm with
  | none => .drop
  | some hvm => actionValueMatch hvm.descriptorKey descriptorKeyHeaderValueMatchDefault
      hvm.descriptorValue hvm.expectMatch
      (evaluateAllHeaderMatchers strings lib hvm.headers headers)

def actionSourceCluster (nodeServiceCluster : String) : Outcome :=
  .entry ⟨descriptorKeySourceCluster, nodeServiceCluster⟩

def maskedText (ip : Net.IP) (bytes : ℕ) (maskLen : UInt32) : String :=
  let ones := min maskLen.toNat (8 * bytes)
  ipString (maskIP ip (Net.cidrMask ones bytes)) ++ "/" ++ Nat.repr ones

def actionMaskedRemoteAddress (mra : Option MaskedRemoteAddress) (addr : Option Addr) : Outcome :=
  match ipFromAddr addr with
  | none => .drop
  | some ip =>
    match Net.to4 ip with
    | some v4 => .entry ⟨descriptorKeyMaskedRemoteAddress,
        maskedText v4 4 ((mra.bind MaskedRemoteAddress.v4PrefixMaskLen).getD
          defaultV4PrefixMaskLen)⟩
    | none => .entry ⟨descriptorKeyMaskedRemoteAddress,
        maskedText ip 16 ((mra.bind MaskedRemoteAddress.v6PrefixMaskLen).getD
          defaultV6PrefixMaskLen)⟩

def actionMetadata (md : Option MetaData) (inp : DescriptorInputs) : Outcome :=
  match md with
  | none => .drop
  | some md =>
    if md.descriptorKey = "" then .drop
    else match resolveMetadataValue md inp with
    | some value => .entry ⟨md.descriptorKey, value⟩
    | none =>
      if md.defaultValue ≠ "" then .entry ⟨md.descriptorKey, md.defaultValue⟩
      else if md.skipIfAbsent then .skip
      else .drop

def actionQueryParameters (qp : Option QueryParameters) (rawQuery : String) : Outcome :=
  match qp with
  | none => .drop
  | some qp =>
    if qp.queryParameterName = "" then .drop
    else match lookupFirstQueryParam rawQuery qp.queryParameterName with
    | none => if qp.skipIfAbsent then .skip else .drop
    | some value => .entry ⟨keyOr qp.descriptorKey descriptorKeyQueryParametersDefault, value⟩

def actionQueryParameterValueMatch (strings : StringsLib) (lib : Regexps Re)
    (qpvm : Option QueryParameterValueMatch) (rawQuery : String) : Outcome :=
  match qpvm with
  | none => .drop
  | some qpvm => actionValueMatch qpvm.descriptorKey descriptorKeyQueryParameterValueMatchDefault
      qpvm.descriptorValue qpvm.expectMatch
      (evaluateAllQueryParameterMatchers strings lib qpvm.queryParameters rawQuery)

section Engine

variable (strings : StringsLib) (lib : Regexps Re) (inp : DescriptorInputs)

def applyAction : Action → Outcome
  | .genericKey gk => actionGenericKey gk
  | .requestHeaders rh => actionRequestHeaders rh inp.headers
  | .remoteAddress => actionRemoteAddress inp.remoteAddr
  | .destinationCluster => actionDestinationCluster inp.clusterName
  | .headerValueMatch hvm => actionHeaderValueMatch strings lib hvm inp.headers
  | .sourceCluster => actionSourceCluster inp.nodeServiceCluster
  | .maskedRemoteAddress mra => actionMaskedRemoteAddress mra inp.remoteAddr
  | .metadata md => actionMetadata md inp
  | .queryParameters qp => actionQueryParameters qp inp.rawQuery
  | .queryParameterValueMatch qpvm => actionQueryParameterValueMatch strings lib qpvm inp.rawQuery
  | .extensionAction => .drop
  | .dynamicMetadata => .drop
  | .unset => .drop

def applyActions : List Entry → List (Option Action) → Option (List Entry)
  | entries, [] => some entries
  | entries, none :: as => applyActions entries as
  | entries, some a :: as =>
    match applyAction strings lib inp a with
    | .drop => none
    | .skip => applyActions entries as
    | .entry e => applyActions (entries ++ [e]) as

def buildDescriptorForPolicy (p : Policy) : Option Descriptor :=
  (applyActions strings lib inp [] p.actions).map Descriptor.mk

def appendDescriptors (out : List Descriptor) (policies : List (Option Policy)) :
    List Descriptor :=
  policies.foldl (fun out p =>
    match p with
    | none => out
    | some p =>
      if p.stage.getD 0 ≠ inp.filterStage then out
      else match buildDescriptorForPolicy strings lib inp p with
      | none => out
      | some desc => out ++ [desc]) out

/-- The nil slice is the empty one. -/
def buildDescriptorsExt : List Descriptor :=
  let walkVhost : Bool := match inp.vhostWalkMode with
    | .always => true
    | .never => false
    | .overrideDefault => inp.routeRateLimits.isEmpty
  let capHint := inp.routeRateLimits.length +
    (if walkVhost then inp.vhostRateLimits.length else 0)
  if capHint = 0 then []
  else
    let out := appendDescriptors strings lib inp [] inp.routeRateLimits
    if walkVhost then appendDescriptors strings lib inp out inp.vhostRateLimits else out

end Engine

end EnvoyGo.RateLimit

import EnvoyGo.GoText
import EnvoyGo.StatsRegistry

/-!
From the dotted name of a metric to its Prometheus name and labels: `internal/stats/name.go`.
-/

namespace EnvoyGo.Stats

structure Label where
  key : String
  value : List Char
deriving DecidableEq

/-- `strings.CutPrefix`. -/
def cutHead (head : String) (s : List Char) : Option (List Char) :=
  if head.toList.isPrefixOf s then some (s.drop head.length) else none

def cutSegment (segment : List Char) : List Char → Option (List Char × List Char)
  | [] => if segment = [] then some ([], []) else none
  | c :: cs =>
    if segment.isPrefixOf (c :: cs) then some ([], (c :: cs).drop segment.length)
    else (cutSegment segment cs).map (fun parts => (c :: parts.1, parts.2))

def replaceDots (s : List Char) : List Char := s.map (fun c => if c = '.' then '_' else c)

structure Tagged where
  residual : List Char
  labels : List Label
deriving DecidableEq

def hoist (root key : String) (internal tail : List Char) (rewrite : List Char → List Char) :
    Except String Tagged :=
  match Text.cut '.' tail with
  | none =>
    .error ("stats: name " ++ Text.quote (String.ofList internal) ++ " matches " ++ root ++
      "* but has no <rest> segment")
  | some (value, rest) => .ok ⟨root.toList ++ rewrite rest, [⟨key, value⟩]⟩

/-- A trailing `_Nxx` becomes `_xx` and a label, the pattern `^(.+)_([1-5])xx$`. -/
def collapseStatusClass (t : Tagged) : Tagged :=
  match t.residual.reverse with
  | 'x' :: 'x' :: n :: '_' :: base =>
    if base ≠ [] ∧ n ∈ ['1', '2', '3', '4', '5'] then
      ⟨base.reverse ++ "_xx".toList, ⟨"envoy_response_code_class", [n]⟩ :: t.labels⟩
    else t
  | _ => t

def cutMidName (segment : String) (internal : List Char) : Option (List Char × List Char) :=
  (cutSegment segment.toList internal).filter (fun parts =>
    !parts.1.isEmpty && !parts.1.contains '.')

local instance lawfulBEq_text : LawfulBEq (List Char) := inferInstance

def localRateLimitTags (internal : List Char) : Option Tagged :=
  (cutMidName ".http_local_rate_limit." internal).bind (fun parts =>
    if parts.2 ∈ ["enabled".toList, "ok".toList, "rate_limited".toList, "enforced".toList] then
      some ⟨"http_local_rate_limit.".toList ++ parts.2,
        [⟨"envoy_local_http_ratelimit_prefix", parts.1⟩]⟩
    else none)

def bandwidthLimitNames : List String :=
  ["request_enabled", "request_enforced", "request_incoming_total_size",
    "request_allowed_total_size", "response_enabled", "response_enforced",
    "response_incoming_total_size", "response_allowed_total_size", "request_pending",
    "request_incoming_size", "request_allowed_size", "response_pending",
    "response_incoming_size", "response_allowed_size"]

def bandwidthLimitTags (internal : List Char) : Option Tagged :=
  (cutMidName ".http_bandwidth_limit." internal).bind (fun parts =>
    if String.ofList parts.2 ∈ bandwidthLimitNames then some ⟨internal, []⟩ else none)

def rbacTags (internal : List Char) : Option Tagged :=
  (cutMidName ".rbac." internal).bind (fun parts =>
    let rest := "rbac.".toList ++ parts.2
    if [".allowed", ".denied", ".shadow_allowed", ".shadow_denied"].any (fun suffix =>
        suffix.toList.isSuffixOf rest) then
      some ⟨rest, [⟨"envoy_rbac_prefix", parts.1⟩]⟩
    else none)

def zookeeperTags (internal : List Char) : Option Tagged :=
  (cutMidName ".zookeeper." internal).map (fun _ => ⟨internal, []⟩)

def cutToken (s : List Char) : Option (List Char × List Char) :=
  (Text.cut '.' s).filter (fun parts => !parts.1.isEmpty)

def hoistMongoDynamicSegments (tail : List Char) : List Char × List Label :=
  match cutHead "cmd." tail with
  | some t =>
    match cutToken t with
    | some (cmd, leaf) => ("cmd.".toList ++ leaf, [⟨"envoy_mongo_cmd", cmd⟩])
    | none => (tail, [])
  | none =>
    match (cutHead "collection." tail).bind cutToken with
    | none => (tail, [])
    | some (coll, afterColl) =>
      match (cutHead "callsite." afterColl).bind cutToken with
      | some (callsite, rest) =>
        ("collection.callsite.".toList ++ rest,
          [⟨"envoy_mongo_collection", coll⟩, ⟨"envoy_mongo_callsite", callsite⟩])
      | none => ("collection.".toList ++ afterColl, [⟨"envoy_mongo_collection", coll⟩])

def sortLabels (labels : List Label) : List Label :=
  labels.insertionSort (fun a b => a.key ≤ b.key)

def mongoTags (internal : List Char) : Option Tagged :=
  ((cutHead "mongo." internal).bind cutToken).map (fun parts =>
    let hoisted := hoistMongoDynamicSegments parts.2
    ⟨"mongo.".toList ++ hoisted.1,
      sortLabels (⟨"envoy_mongo_prefix", parts.1⟩ :: hoisted.2)⟩)

def kafkaTags (internal : List Char) : Option Tagged :=
  (cutHead "kafka." internal).map (fun _ => ⟨internal, []⟩)

def hoistPrefix (root key : String) (internal : List Char) : Option Tagged :=
  ((cutHead root internal).bind cutToken).map (fun parts =>
    ⟨root.toList ++ parts.2, [⟨key, parts.1⟩]⟩)

def redisTags : List Char → Option Tagged := hoistPrefix "redis." "envoy_redis_prefix"

def thriftTags : List Char → Option Tagged := hoistPrefix "thrift." "envoy_thrift_prefix"

def noRecognizedSegment (internal : List Char) : String :=
  "stats: name " ++ Text.quote (String.ofList internal) ++
    " has no recognized top-level segment " ++
    "(want one of the 13: cluster.|http.|listener.|server.|runtime.|access_logs.|tracing.|sds.|" ++
    "wasm.|mongo.|kafka.|redis.|thrift.) and no recognized mid-name segment " ++
    "(want one of the 4: .http_local_rate_limit.|.http_bandwidth_limit.|.rbac.|.zookeeper.)"

def filterTags (internal : List Char) : Except String Tagged :=
  match localRateLimitTags internal <|> bandwidthLimitTags internal <|> rbacTags internal <|>
      zookeeperTags internal <|> mongoTags internal <|> kafkaTags internal <|>
      redisTags internal <|> thriftTags internal with
  | some tagged => .ok tagged
  | none => .error (noRecognizedSegment internal)

def extractTags (internal : List Char) : Except String Tagged :=
  match cutHead "cluster." internal with
  | some tail =>
    (hoist "cluster." "envoy_cluster_name" internal tail id).map collapseStatusClass
  | none =>
  match cutHead "http." internal with
  | some tail =>
    (hoist "http." "envoy_http_conn_manager_prefix" internal tail replaceDots).map
      collapseStatusClass
  | none =>
  match cutHead "listener." internal with
  | some tail =>
    (hoist "listener." "envoy_listener_address" internal tail id).map collapseStatusClass
  | none =>
  if ["server.", "runtime.", "access_logs.", "tracing."].any (fun root =>
      root.toList.isPrefixOf internal) then .ok (collapseStatusClass ⟨internal, []⟩)
  else
  match cutHead "sds." internal with
  | some tail =>
    (hoist "sds." "envoy_xds_resource_name" internal tail id).map collapseStatusClass
  | none =>
  match cutHead "wasm." internal with
  | some tail =>
    if tail = [] then
      .error ("stats: name " ++ Text.quote (String.ofList internal) ++
        " matches wasm.* but has no <scope> segment")
    else .ok ⟨internal, []⟩
  | none => filterTags internal

def flattenToProm (internal : List Char) : Except String (List Char × List Label) :=
  (extractTags internal).map (fun t => ("envoy_".toList ++ replaceDots t.residual, t.labels))

end EnvoyGo.Stats

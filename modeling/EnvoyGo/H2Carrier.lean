import EnvoyGo.HTTPHeader

/-!
The ordered header carrier of an HTTP/2 request and the delta that moves the decode
chain's changes of the header map onto it.
-/

namespace EnvoyGo

def isConnectionSpecificField (name : String) : Bool :=
  ["connection", "keep-alive", "proxy-connection", "transfer-encoding", "upgrade"].contains name

def isIllegalH2RequestHeader (name value : String) : Bool :=
  isConnectionSpecificField name || (name == "te" && value != "trailers")

def h2ReconcileSkipKey (k : String) : Bool :=
  k.toList.head? == some ':' || equalFold k "host"

def h2LowerHeaderView (h : Header) : Header :=
  ((h.keys.filter (fun k => !h2ReconcileSkipKey k)).insertionSort (· ≤ ·)).foldl
    (fun out k => out.insert (toLower k) ((out.lookup (toLower k)).getD [] ++ (h.lookup k).getD []))
    ∅

def h2Extra (before after : List String) : Option (List String) :=
  if before.length < after.length ∧ before = after.take before.length then
    some (after.drop before.length)
  else none

def h2Replaced (before after : Header) : List String :=
  after.keys.filter (fun k =>
    let bv := (before.lookup k).getD []
    let av := (after.lookup k).getD []
    bv != av && (h2Extra bv av).isNone)
  ++ before.keys.filter (fun k => !after.keys.contains k)

def h2Appended (before after : Header) : List (String × List String) :=
  after.keys.filterMap (fun k =>
    let bv := (before.lookup k).getD []
    let av := (after.lookup k).getD []
    if bv = av then none else (h2Extra bv av).map (fun vs => (k, vs)))

def reconcileH2DecodeDelta (fields : OrderedHeaders) (before after : Header) : OrderedHeaders :=
  let beforeView := h2LowerHeaderView before
  let afterView := h2LowerHeaderView after
  let replaced := h2Replaced beforeView afterView
  let extra := h2Appended beforeView afterView
  if replaced = [] ∧ extra = [] then fields
  else
    let appended := (replaced.filter (fun k => ((afterView.lookup k).getD []).length > 0)
      ++ extra.map Prod.fst).insertionSort (· ≤ ·)
    let kept := fields.filter (fun f => !replaced.contains (toLower f.name))
    kept ++ appended.flatMap (fun k =>
      let vals := if replaced.contains k then (afterView.lookup k).getD []
        else ((extra.find? (fun e => e.1 == k)).map Prod.snd).getD []
      (vals.filter (fun v => !isIllegalH2RequestHeader k v)).map (fun v => ⟨k, v⟩))

end EnvoyGo

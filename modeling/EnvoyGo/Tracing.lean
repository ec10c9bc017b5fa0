import EnvoyGo.GoText

/-!
Trace context on the wire, `internal/tracing`: the B3 and W3C extractors and injectors, the
decision between them, and the two dispatchers that apply them to a request.
-/

namespace EnvoyGo.Tracing

open EnvoyGo.Text

def hexDigit (n : ℕ) : Char := if n < 10 then Char.ofNat (48 + n) else Char.ofNat (87 + n)

/-- `hex.EncodeToString`. -/
def hexEncode (bs : Bytes) : List Char :=
  bs.flatMap (fun b => [hexDigit (b.toNat / 16), hexDigit (b.toNat % 16)])

/-- `hex.DecodeString`. -/
def hexDecode : List Char → Option Bytes
  | [] => some []
  | [_] => none
  | a :: b :: rest =>
    match hexValue a, hexValue b with
    | some x, some y => (hexDecode rest).map (fun bs => UInt8.ofNat (16*x + y) :: bs)
    | _, _ => none

structure Id (n : ℕ) where
  bytes : Bytes
  size : bytes.length = n
deriving DecidableEq

namespace Id

variable {n : ℕ}

def zero (n : ℕ) : Id n := ⟨List.replicate n 0, List.length_replicate⟩

def ofBytes (n : ℕ) (bs : Bytes) : Option (Id n) :=
  if h : bs.length = n then some ⟨bs, h⟩ else none

/-- `hex.Decode` into an array, from text of twice its size. -/
def ofHex (n : ℕ) (s : List Char) : Option (Id n) := (hexDecode s).bind (ofBytes n)

def low (t : Id 16) : Id 8 := ⟨t.bytes.drop 8, by rw [List.length_drop, t.size]⟩

def ofLow (b : Id 8) : Id 16 :=
  ⟨List.replicate 8 0 ++ b.bytes, by rw [List.length_append, List.length_replicate, b.size]⟩

end Id

structure TraceContext where
  traceID : Id 16
  parentID : Id 8
  sampled : Bool
  traceState : String := ""
deriving DecidableEq

def nonzero {n : ℕ} (b : Id n) : Option (Id n) := if b = Id.zero n then none else some b

def decodeB3TraceID (s : List Char) : Option (Id 16) :=
  if s.length = 16 then ((Id.ofHex 8 s).map Id.ofLow).bind nonzero
  else if s.length = 32 then (Id.ofHex 16 s).bind nonzero
  else none

def decodeB3SpanID (s : List Char) : Option (Id 8) :=
  if s.length = 16 then (Id.ofHex 8 s).bind nonzero else none

def b3Sampled : Option (List Char) → Option Bool
  | none => some false
  | some ['1'] => some true
  | some ['d'] => some true
  | some ['0'] => some false
  | some _ => none

def b3Parent : Option (List Char) → Option Unit
  | none => some ()
  | some p => (decodeB3SpanID p).map (fun _ => ())

def extractB3Single (v : String) : Option TraceContext :=
  let parts := split '-' v.toList
  if parts.length < 2 ∨ 4 < parts.length then none
  else do
    let traceID ← decodeB3TraceID (parts.getD 0 [])
    let span ← decodeB3SpanID (parts.getD 1 [])
    let sampled ← b3Sampled parts[2]?
    let _ ← b3Parent parts[3]?
    some ⟨traceID, span, sampled, ""⟩

def extractB3Multi (get : String → String) : Option TraceContext :=
  if get "X-B3-TraceId" = "" ∨ get "X-B3-SpanId" = "" then none
  else do
    let traceID ← decodeB3TraceID (get "X-B3-TraceId").toList
    let span ← decodeB3SpanID (get "X-B3-SpanId").toList
    let _ ← b3Parent (if get "X-B3-ParentSpanId" = "" then none
      else some (get "X-B3-ParentSpanId").toList)
    some ⟨traceID, span, get "X-B3-Sampled" == "1" || get "X-B3-Flags" == "1", ""⟩

def extractB3 (get : String → String) : Option TraceContext :=
  if get "B3" ≠ "" then extractB3Single (get "B3") else extractB3Multi get

def extractTraceparent (get : String → String) : Option TraceContext :=
  let parts := split '-' (get "Traceparent").toList
  if get "Traceparent" = "" ∨ parts.length ≠ 4 then none
  else if parts.getD 0 [] ≠ ['0', '0'] ∨ (parts.getD 1 []).length ≠ 32 ∨
      (parts.getD 2 []).length ≠ 16 ∨ (parts.getD 3 []).length ≠ 2 then none
  else do
    let traceID ← Id.ofHex 16 (parts.getD 1 [])
    let parent ← Id.ofHex 8 (parts.getD 2 [])
    let flags ← hexDecode (parts.getD 3 [])
    if traceID = Id.zero 16 ∨ parent = Id.zero 8 then none
    else some ⟨traceID, parent, (flags.headD 0).toNat % 2 == 1, get "Tracestate"⟩

inductive TraceReason
  | noTrace
  | sampled
  | client
deriving DecidableEq, Repr

inductive SampleClass
  | clientEnabled
  | notTraceable
  | randomSampling
deriving DecidableEq, Repr

structure Decision where
  sample : Bool
  reason : TraceReason
  sampleClass : SampleClass
  continued : Bool
  traceID : Id 16
  spanID : Id 8
  parentSpanID : Id 8
  traceState : String
  requestID : String

/-- What the random source gives one request: the fresh ids, whether each draw fell below the
configured share, and the request id for a reason (stamped on an inbound one or fresh). -/
structure Draws where
  spanID : Id 8
  traceID : Id 16
  client : Bool
  random : Bool
  overall : Bool
  requestID : String → TraceReason → String

def localSample (get : String → String) (r : Draws) : Bool × TraceReason × SampleClass :=
  if get "X-Client-Trace-Id" ≠ "" ∧ r.client = true then (true, .client, .clientEnabled)
  else (r.random, if r.random then .sampled else .noTrace, .randomSampling)

def decideWithContext (get : String → String) (ic : Option TraceContext) (r : Draws) : Decision :=
  match ic with
  | some c =>
    let reason := if c.sampled then .sampled else .noTrace
    ⟨c.sampled, reason, .notTraceable, true, c.traceID, r.spanID, c.parentID, c.traceState,
      r.requestID (get "X-Request-Id") reason⟩
  | none =>
    let l := localSample get r
    let reason := if l.1 && !r.overall then .noTrace else l.2.1
    ⟨l.1 && r.overall, reason, l.2.2, false, r.traceID, r.spanID, Id.zero 8, "",
      r.requestID (get "X-Request-Id") reason⟩

def traceIDHex (t : Id 16) (id128 : Bool) : List Char :=
  if id128 then hexEncode t.bytes else hexEncode t.low.bytes

/-- `zipkinIdentity` without the flag of the span encoder: the span id, and the parent id. -/
def zipkinIdentity (d : Decision) (shared : Bool) : Id 8 × Option (Id 8) :=
  if d.parentSpanID = Id.zero 8 then (d.spanID, none)
  else if shared then (d.parentSpanID, none)
  else (d.spanID, some d.parentSpanID)

def injectB3 (h : Header) (d : Decision) (id128 shared : Bool) : Header :=
  let ids := zipkinIdentity d shared
  let h := h.set "X-B3-TraceId" (String.ofList (traceIDHex d.traceID id128))
  let h := h.set "X-B3-SpanId" (String.ofList (hexEncode ids.1.bytes))
  let h := h.set "X-B3-Sampled" (if d.sample then "1" else "0")
  match ids.2 with
  | none => h
  | some p => h.set "X-B3-ParentSpanId" (String.ofList (hexEncode p.bytes))

def traceparent (traceID : Id 16) (spanID : Id 8) (sampled : Bool) : String :=
  String.ofList (['0', '0', '-'] ++ hexEncode traceID.bytes ++ '-' :: hexEncode spanID.bytes ++
    '-' :: (if sampled then ['0', '1'] else ['0', '0']))

def injectTraceparent (h : Header) (d : Decision) : Header :=
  let h := h.set "Traceparent" (traceparent d.traceID d.spanID d.sample)
  if d.traceState = "" then h else h.set "Tracestate" d.traceState

inductive Provider
  | zipkin (traceID128Bit sharedSpanContext : Bool)
  | openTelemetry
deriving DecidableEq, Repr

def extract (p : Provider) (get : String → String) : Option TraceContext :=
  match p with
  | .zipkin _ _ => extractB3 get
  | .openTelemetry => extractTraceparent get

def inject (p : Provider) (h : Header) (d : Decision) : Header :=
  match p with
  | .zipkin id128 shared => injectB3 h d id128 shared
  | .openTelemetry => injectTraceparent h d

def decision (p : Provider) (h : Header) (r : Draws) : Decision :=
  decideWithContext h.get (extract p h.get) r

def traceH1 (p : Provider) (h : Header) (r : Draws) : Header :=
  let d := decision p h r
  inject p (h.set "X-Request-Id" d.requestID) d

def upsertH2Header (fields : OrderedHeaders) (name value : String) : OrderedHeaders :=
  fields.filter (fun f => !equalFold f.name name) ++ [⟨toLower name, value⟩]

def copyH2Header (view : Header) (fields : OrderedHeaders) (key : String) : OrderedHeaders :=
  if view.get key = "" then fields else upsertH2Header fields (toLower key) (view.get key)

def traceH2 (p : Provider) (fields : OrderedHeaders) (r : Draws) : OrderedHeaders :=
  let view := fields.toHTTPHeader
  let d := decision p view r
  let injected := inject p view d
  let fields := upsertH2Header fields "x-request-id" d.requestID
  match p with
  | .zipkin _ _ =>
    ["X-B3-TraceId", "X-B3-SpanId", "X-B3-ParentSpanId", "X-B3-Sampled"].foldl
      (copyH2Header injected) fields
  | .openTelemetry =>
    copyH2Header injected
      (upsertH2Header fields "traceparent" (injected.get "Traceparent")) "Tracestate"

end EnvoyGo.Tracing

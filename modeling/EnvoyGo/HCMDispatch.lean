import EnvoyGo.FilterChain
import EnvoyGo.H2Carrier

/-!
The three protocol dispatchers from the point where the request's filter chain exists:
`dispatchRequest` (HTTP/1.1), `WriteH2` and `runH3`.  The router's action is a parameter;
what is observed is which requests reach it and which responses reach the writer.
-/

namespace EnvoyGo

inductive ReadErr
  | eof
  | other (msg : String)
  deriving DecidableEq

/-- What the reads of a request body return: chunks without an error (an empty one is a
read of zero bytes), then the read that returns the error. -/
structure BodyReader where
  chunks : List Bytes
  last : Bytes
  err : ReadErr
  deriving DecidableEq

def BodyReader.bytes (r : BodyReader) : Bytes := r.chunks.flatten ++ r.last

/-- A parsed `http.Request`; `body` is `none` for a nil body and for `http.NoBody`. -/
structure HTTPRequest where
  method : String
  host : String
  requestURI : String
  urlRequestURI : String
  header : Header
  contentLength : Int
  body : Option BodyReader

structure UpstreamRequest where
  header : Header
  body : Bytes
  contentLength : Int
  deriving DecidableEq

structure H2Request where
  method : String
  path : String
  scheme : String
  authority : String
  headers : OrderedHeaders
  body : Bytes
  deriving DecidableEq

structure ActionResponse where
  status : Int
  headers : OrderedHeaders
  body : Bytes
  close : Bool := false
  trailers : OrderedHeaders := []
  deriving DecidableEq

abbrev Action (req : Type) := req → ActionResponse × Option String

structure WireReply where
  status : Int
  headers : OrderedHeaders
  body : Bytes
  trailers : OrderedHeaders := []
  deriving DecidableEq

def LocalReply.toWire (r : LocalReply) : WireReply :=
  { status := r.status, headers := r.headers, body := r.body }

inductive DispatchError
  | chain (err : ChainError)
  | action (err : String)
  | write (err : String)
  | closeAfterAction
  deriving DecidableEq

/-- One dispatched request: the chain afterwards, the requests handed to the router action,
the responses handed to the writer, and the function's results. -/
structure Outcome (σ req : Type) where
  chain : FilterChain σ
  invoked : List req
  written : List WireReply
  status : Int
  err : Option DispatchError

def injectPseudoHeaders (req : HTTPRequest) : Header :=
  let h1 := Header.setRawIfAbsent req.header ":method" req.method
  let h2 := if req.host ≠ "" then Header.setRawIfAbsent h1 ":authority" req.host else h1
  let path := if req.requestURI = "" then req.urlRequestURI else req.requestURI
  Header.setRawIfAbsent h2 ":path" path

section Dispatch
variable {σ req : Type}

/-- The terminal filter of every chain; the action runs from the dispatcher. -/
def routerFilter : HTTPFilter σ where
  name := "envoy.filters.http.router"
  decoder := some
    { decodeHeaders := fun _ => .done .continueIteration
      decodeData := fun _ _ => .done .dataContinue
      parked := .done .resumed }
  encoder := some
    { encodeHeaders := fun _ => .done .continueIteration
      encodeData := fun _ _ => .done .dataContinue
      parked := .done .resumed }

/-- The `LocalReplyDone` branch of a dispatcher; only HTTP/1.1 honours `Connection: close`. -/
def localReplyOutcome (h1 : Bool) (writeErr : Option String) (c : FilterChain σ) :
    Outcome σ req :=
  let reply : WireReply :=
    { status := c.localReplyStatus, headers := c.localReplyHeaders, body := c.localReplyBody }
  let werr := if c.localReplyStatus > 0 then writeErr else none
  { chain := c
    invoked := []
    written := if c.localReplyStatus > 0 then [reply] else []
    status := c.localReplyStatus
    err := match werr with
      | some e => some (.write e)
      | none =>
        if h1 && equalFold (OrderedHeaders.get c.localReplyHeaders "Connection") "close" then
          some .closeAfterAction
        else none }

def encodeResponse (fs : List (HTTPFilter σ)) (hasRespTrailers : Bool) (resp : ActionResponse)
    (c : FilterChain σ) : Except ChainError ActionResponse × FilterChain σ :=
  match runEncodeHeaders fs (OrderedHeaders.toHTTPHeader resp.headers)
      (resp.body.length == 0 && !hasRespTrailers)
      { c with encodeResponseStatus := resp.status } with
  | (.failed err, c1) => (.error err, c1)
  | (_, c1) =>
    let headers := OrderedHeaders.reconcile resp.headers c1.world.response
    if resp.body.length > 0 then
      match runEncodeData fs resp.body (!hasRespTrailers) c1 with
      | (.failed err, c2) => (.error err, c2)
      | (_, c2) =>
        (.ok { resp with headers := headers, body := c2.encodeBodyOverride.getD resp.body }, c2)
    else (.ok { resp with headers := headers, body := c1.encodeBodyOverride.getD resp.body }, c1)

/-- Everything after `RunAction`: encode, write, and the connection's fate. -/
def actionOutcome (h1 hasRespTrailers : Bool) (fs : List (HTTPFilter σ))
    (writeErr : Option String) (request : req) (act : ActionResponse × Option String)
    (c : FilterChain σ) : Outcome σ req :=
  let (resp, aerr) := act
  if resp.status > 0 ∧ aerr = none then
    match encodeResponse fs hasRespTrailers resp c with
    | (.error err, c') =>
      { chain := c', invoked := [request], written := [], status := resp.status,
        err := some (.chain err) }
    | (.ok resp', c') =>
      let trailers := if hasRespTrailers then resp'.trailers else []
      { chain := c'
        invoked := [request]
        written := [⟨resp'.status, resp'.headers, resp'.body, trailers⟩]
        status := resp.status
        err := match writeErr with
          | some e => some (.write e)
          | none => if h1 && resp'.close then some .closeAfterAction else none }
  else
    { chain := c, invoked := [request], written := [], status := resp.status,
      err := aerr.map DispatchError.action }

def failedOutcome (err : ChainError) (c : FilterChain σ) : Outcome σ req :=
  { chain := c, invoked := [], written := [], status := 0, err := some (.chain err) }

def feedBody (fs : List (HTTPFilter σ)) : List Bytes → FilterChain σ →
    Option ChainError × FilterChain σ
  | [], c => (none, c)
  | b :: bs, c =>
    if b = [] then feedBody fs bs c
    else match runDecodeData fs b false c with
    | (.failed err, c') => (some err, c')
    | (_, c') => feedBody fs bs c'

/-- The body loop.  Any read error ends the stream: with the bytes of that read if there
are some, else with the synthetic empty chunk. -/
def decodeBody (fs : List (HTTPFilter σ)) (r : BodyReader) (c : FilterChain σ) :
    Option ChainError × FilterChain σ :=
  match feedBody fs r.chunks c with
  | (some err, c1) => (some err, c1)
  | (none, c1) =>
    match runDecodeData fs r.last true c1 with
    | (.failed err, c2) => (some err, c2)
    | (_, c2) => (none, c2)

/-- `hasBody`: the reader the body loop drains, if there is one. -/
def bodyToRead (r : HTTPRequest) : Option BodyReader :=
  if r.contentLength ≠ 0 then r.body else none

def digitsToNat (ds : List Char) : Option Nat :=
  if ds ≠ [] ∧ ds.all Char.isDigit then some (ds.foldl (fun n ch => 10*n + (ch.toNat - 48)) 0)
  else none

/-- `strconv.ParseInt(s, 10, 64)`. -/
def parseInt64 (s : String) : Option Int :=
  match s.toList with
  | '-' :: ds => (digitsToNat ds).bind (fun n => if n ≤ 2^63 then some (-(n : Int)) else none)
  | '+' :: ds => (digitsToNat ds).bind (fun n => if n < 2^63 then some (n : Int) else none)
  | ds => (digitsToNat ds).bind (fun n => if n < 2^63 then some (n : Int) else none)

def restoredContentLength (contentLength : Int) (h : Header) : Int :=
  if contentLength < 0 then (parseInt64 (Header.get h "Content-Length")).getD contentLength
  else contentLength

def upstreamRequest (r : HTTPRequest) (c : FilterChain σ) : UpstreamRequest :=
  match bodyToRead r with
  | none => { header := c.world.request, body := [], contentLength := r.contentLength }
  | some b =>
    { header := c.world.request
      body := b.bytes
      contentLength := restoredContentLength r.contentLength c.world.request }

def initialChain (filters : σ) (request : Header) : FilterChain σ :=
  { world := { filters := filters, request := request, response := ∅ } }

def decodeRequestBody (fs : List (HTTPFilter σ)) (r : HTTPRequest) (c : FilterChain σ) :
    Option ChainError × FilterChain σ :=
  match bodyToRead r with
  | some b => decodeBody fs b c
  | none => (none, c)

def headersPass (fs : List (HTTPFilter σ)) (filters : σ) (r : HTTPRequest) (noBody : Bool) :
    Iteration × FilterChain σ :=
  runDecodeHeaders fs noBody (initialChain filters (injectPseudoHeaders r))

inductive Decoded (σ : Type)
  | failed (err : ChainError) (c : FilterChain σ)
  | replied (c : FilterChain σ)
  | admitted (c : FilterChain σ)

/-- Headers, the `LocalReplyDone` check, the body, and the check again. -/
def decodePasses (fs : List (HTTPFilter σ)) (filters : σ) (r : HTTPRequest) : Decoded σ :=
  match headersPass fs filters r (bodyToRead r).isNone with
  | (.failed err, c) => .failed err c
  | (_, c1) =>
    if c1.localReplyDone then .replied c1
    else match decodeRequestBody fs r c1 with
    | (some err, c2) => .failed err c2
    | (none, c2) => if c2.localReplyDone then .replied c2 else .admitted c2

/-- The body `dispatchRequest` and `runH3` share; `h1` marks the HTTP/1.1-only steps. -/
def dispatchStream (h1 : Bool) (fs : List (HTTPFilter σ)) (action : Action UpstreamRequest)
    (writeErr : Option String) (filters : σ) (r : HTTPRequest) : Outcome σ UpstreamRequest :=
  match decodePasses fs filters r with
  | .failed err c => failedOutcome err c
  | .replied c => localReplyOutcome h1 writeErr c
  | .admitted c =>
    actionOutcome h1 false fs writeErr (upstreamRequest r c) (action (upstreamRequest r c)) c

def dispatchRequest (fs : List (HTTPFilter σ)) (action : Action UpstreamRequest)
    (writeErr : Option String) (filters : σ) (r : HTTPRequest) : Outcome σ UpstreamRequest :=
  dispatchStream true fs action writeErr filters r

def runH3 (fs : List (HTTPFilter σ)) (action : Action UpstreamRequest)
    (writeErr : Option String) (filters : σ) (r : HTTPRequest) : Outcome σ UpstreamRequest :=
  dispatchStream false fs action writeErr filters r

/-- The carrier of the upstream request is the client's, plus what the chain changed. -/
def h2UpstreamRequest (r : HTTPRequest) (h2req : H2Request) (c : FilterChain σ) : H2Request :=
  { h2req with
    headers := reconcileH2DecodeDelta h2req.headers (injectPseudoHeaders r) c.world.request }

/-- `WriteH2` from the end of the headers pass on: the body is already whole and goes
through the chain as one chunk. -/
def writeH2AfterHeaders (fs : List (HTTPFilter σ)) (action : Action H2Request)
    (writeErr : Option String) (r : HTTPRequest) (h2req : H2Request) (c1 : FilterChain σ) :
    Outcome σ H2Request :=
  if c1.localReplyDone then localReplyOutcome false writeErr c1
  else
    match (if h2req.body.length > 0 then runDecodeData fs h2req.body true c1
      else (.terminated, c1)) with
    | (.failed err, c2) => failedOutcome err c2
    | (_, c2) =>
      let up := h2UpstreamRequest r h2req c2
      let act := action up
      actionOutcome false (act.1.trailers.length > 0) fs writeErr up act c2

def writeH2 (fs : List (HTTPFilter σ)) (action : Action H2Request) (writeErr : Option String)
    (filters : σ) (r : HTTPRequest) (h2req : H2Request) : Outcome σ H2Request :=
  match headersPass fs filters r (h2req.body.length == 0) with
  | (.failed err, c) => failedOutcome err c
  | (_, c1) => writeH2AfterHeaders fs action writeErr r h2req c1

theorem actionOutcome_invoked (h1 hasRespTrailers : Bool) (fs : List (HTTPFilter σ))
    (writeErr : Option String) (request : req) (act : ActionResponse × Option String)
    (c : FilterChain σ) :
    (actionOutcome h1 hasRespTrailers fs writeErr request act c).invoked = [request] := by
  unfold actionOutcome
  simp only []
  by_cases hok : act.1.status > 0 ∧ act.2 = none
  · rw [if_pos hok]
    rcases hr : encodeResponse fs hasRespTrailers act.1 c with ⟨r, c'⟩
    cases r <;> rfl
  · rw [if_neg hok]

theorem localReplyOutcome_invoked (h1 : Bool) (writeErr : Option String) (c : FilterChain σ) :
    (localReplyOutcome h1 writeErr c : Outcome σ req).invoked = [] := rfl

end Dispatch

end EnvoyGo

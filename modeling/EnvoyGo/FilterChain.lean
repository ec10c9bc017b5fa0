import EnvoyGo.HTTPHeader

/-!
The per-request filter chain: decode passes in declaration order, encode passes in
reverse, and the local reply that cuts a decode pass short.  A filter is any program
over the callbacks, so every statement about a chain is about every filter.
-/

namespace EnvoyGo

inductive FilterHeadersStatus
  | continueIteration
  | stopIteration
  | terminateStream
  | unknown (code : Nat)
  deriving DecidableEq

inductive FilterDataStatus
  | dataContinue
  | dataStopIterationAndBuffer
  | dataStopIterationNoBuffer
  | dataTerminateStream
  | unknown (code : Nat)
  deriving DecidableEq

inductive ChainError
  | streamTerminatedByFilter
  | unknownHeadersStatus (filter : String) (code : Nat) (side : String)
  | unknownDataStatus (filter : String) (code : Nat) (side : String)
  | encodeBufferOverflow
  | ctxErr
  deriving DecidableEq

def ChainError.error : ChainError → String
  | .streamTerminatedByFilter =>
    "chain: filter terminated the stream; no response can be served"
  | .unknownHeadersStatus f code side =>
    "chain: filter \"" ++ f ++ "\" returned unknown FilterHeadersStatus " ++ Nat.repr code ++ side
  | .unknownDataStatus f code side =>
    "chain: filter \"" ++ f ++ "\" returned unknown FilterDataStatus " ++ Nat.repr code ++ side
  | .encodeBufferOverflow => "chain: encode-side buffer overflow; resetting connection"
  | .ctxErr => "context canceled"

inductive Wake
  | resumed
  | ctxDone
  deriving DecidableEq

/-- The arguments of one `SendLocalReply`, and the shape of the stored reply. -/
structure LocalReply where
  status : Int
  body : Bytes
  headers : OrderedHeaders
  deriving DecidableEq

/-- What filter code can read and change besides the chain's own fields: its private
state, the decode header map and the header map of the running encode pass. -/
structure World (σ : Type) where
  filters : σ
  request : Header
  response : Header

/-- Filter code as the sequence of its interactions with the chain: a callback, or what
other goroutines do while the dispatch goroutine is parked on the filter. -/
inductive FilterProg (σ α : Type)
  | done (a : α)
  | touch (f : World σ → World σ) (k : World σ → FilterProg σ α)
  | sendLocalReply (r : LocalReply) (k : FilterProg σ α)
  | overwriteBody (b : Bytes) (k : FilterProg σ α)
  | bufferEncodedBody (k : Bytes → FilterProg σ α)
  | responseStatus (k : Int → FilterProg σ α)

structure StreamDecoderFilter (σ : Type) where
  decodeHeaders : Bool → FilterProg σ FilterHeadersStatus
  decodeData : Bytes → Bool → FilterProg σ FilterDataStatus
  parked : FilterProg σ Wake

structure StreamEncoderFilter (σ : Type) where
  encodeHeaders : Bool → FilterProg σ FilterHeadersStatus
  encodeData : Bytes → Bool → FilterProg σ FilterDataStatus
  parked : FilterProg σ Wake

structure HTTPFilter (σ : Type) where
  name : String
  decoder : Option (StreamDecoderFilter σ) := none
  encoder : Option (StreamEncoderFilter σ) := none

/-- The chain's mutable fields.  `localReplyOnce` fires exactly when `localReplyDone`
is stored.  The last two fields are history for the statements and no code reads them:
the replies asked for on the decode side and the first of them as the encode chain
left it. -/
structure FilterChain (σ : Type) where
  world : World σ
  decodeBuf : Bytes := []
  decodeBufOver : Bool := false
  encodeBuf : Bytes := []
  encodeBufLen : Int := 0
  localReplyDone : Bool := false
  localReplyStatus : Int := 0
  localReplyHeaders : OrderedHeaders := []
  localReplyBody : Bytes := []
  encodeStarted : Bool := false
  encodeResponseStatus : Int := 0
  encodeBodyOverride : Option Bytes := none
  diagLog : List String := []
  asked : List LocalReply := []
  encoded : Option LocalReply := none

inductive Iteration
  | terminated
  | aborted
  | failed (err : ChainError)
  deriving DecidableEq

section Chain
variable {σ α : Type}

/-- Runs filter code on the chain; `reply` is what a `SendLocalReply` does there. -/
def FilterProg.run (reply : LocalReply → FilterChain σ → FilterChain σ) :
    FilterProg σ α → FilterChain σ → α × FilterChain σ
  | .done a, c => (a, c)
  | .touch f k, c => (k (f c.world)).run reply { c with world := f c.world }
  | .sendLocalReply r k, c => k.run reply (reply r c)
  | .overwriteBody b k, c => k.run reply { c with encodeBodyOverride := some b }
  | .bufferEncodedBody k, c => (k c.encodeBuf).run reply c
  | .responseStatus k, c => (k c.encodeResponseStatus).run reply c

def filterBufferLimitBytes : Nat := 2^20

def localReply413Body : Bytes := textBytes "Payload Too Large"

def ignoreLocalReply (name : String) (c : FilterChain σ) : FilterChain σ :=
  { c with diagLog := c.diagLog ++
      ["hcm: filter \"" ++ name ++ "\" called SendLocalReply after encode-side started; ignoring"] }

def runEncodeProg (name : String) (p : FilterProg σ α) (c : FilterChain σ) : α × FilterChain σ :=
  p.run (fun _ => ignoreLocalReply name) c

def parkEncode (name : String) (e : StreamEncoderFilter σ) (c : FilterChain σ) :
    Wake × FilterChain σ :=
  runEncodeProg name e.parked c

def reactEncodeHeaders (f : HTTPFilter σ) (e : StreamEncoderFilter σ) :
    FilterHeadersStatus → FilterChain σ → Option ChainError × FilterChain σ
  | .continueIteration, c => (none, c)
  | .stopIteration, c =>
    match parkEncode f.name e c with
    | (.resumed, c') => (none, c')
    | (.ctxDone, c') => (some .ctxErr, c')
  | .terminateStream, c => (some .streamTerminatedByFilter, c)
  | .unknown code, c => (some (.unknownHeadersStatus f.name code " on encode"), c)

def encodeHeadersLoop (endStream : Bool) :
    List (HTTPFilter σ) → FilterChain σ → Iteration × FilterChain σ
  | [], c => (.terminated, c)
  | f :: rest, c =>
    match f.encoder with
    | none => encodeHeadersLoop endStream rest c
    | some e =>
      let (status, c1) := runEncodeProg f.name (e.encodeHeaders endStream) c
      match reactEncodeHeaders f e status c1 with
      | (none, c2) => encodeHeadersLoop endStream rest c2
      | (some err, c2) => (.failed err, c2)

def runEncodeHeaders (fs : List (HTTPFilter σ)) (headers : Header) (endStream : Bool)
    (c : FilterChain σ) : Iteration × FilterChain σ :=
  encodeHeadersLoop endStream fs.reverse
    { c with encodeStarted := true, world := { c.world with response := headers } }

/-- One `EncodeData` status: the data handed to the remaining encoders is the
accumulated buffer once a buffering filter resumes at the end of the stream. -/
def reactEncodeData (f : HTTPFilter σ) (e : StreamEncoderFilter σ) (data : Bytes)
    (endStream : Bool) :
    FilterDataStatus → FilterChain σ → Option ChainError × Bytes × FilterChain σ
  | .dataContinue, c => (none, data, c)
  | .dataStopIterationAndBuffer, c =>
    match parkEncode f.name e { c with encodeBuf := c.encodeBuf ++ data } with
    | (.resumed, c') =>
      if endStream then
        (none, c'.encodeBuf, { c' with
          encodeBuf := [],
          encodeBufLen := c'.encodeBufLen - ((c'.encodeBuf.length : Int) - data.length) })
      else (none, data, c')
    | (.ctxDone, c') => (some .ctxErr, data, c')
  | .dataStopIterationNoBuffer, c =>
    match parkEncode f.name e c with
    | (.resumed, c') => (none, data, c')
    | (.ctxDone, c') => (some .ctxErr, data, c')
  | .dataTerminateStream, c => (some .streamTerminatedByFilter, data, c)
  | .unknown code, c => (some (.unknownDataStatus f.name code " on encode"), data, c)

def encodeDataLoop (endStream : Bool) :
    List (HTTPFilter σ) → Bytes → FilterChain σ → Iteration × FilterChain σ
  | [], data, c => (.terminated, { c with encodeBufLen := c.encodeBufLen + data.length })
  | f :: rest, data, c =>
    match f.encoder with
    | none => encodeDataLoop endStream rest data c
    | some e =>
      let (status, c1) := runEncodeProg f.name (e.encodeData data endStream) c
      match reactEncodeData f e data endStream status c1 with
      | (none, data', c2) => encodeDataLoop endStream rest data' c2
      | (some err, _, c2) => (.failed err, c2)

def runEncodeData (fs : List (HTTPFilter σ)) (data : Bytes) (endStream : Bool)
    (c : FilterChain σ) : Iteration × FilterChain σ :=
  if c.encodeBufLen + data.length > filterBufferLimitBytes then (.failed .encodeBufferOverflow, c)
  else encodeDataLoop endStream fs.reverse data c

def localReplyMerged (r : LocalReply) : Header :=
  let merged := Header.set (OrderedHeaders.toHTTPHeader r.headers)
    "Content-Length" (Nat.repr r.body.length)
  if Header.get merged "Content-Type" = "" then Header.set merged "Content-Type" "text/plain"
  else merged

def encodeLocalReply (fs : List (HTTPFilter σ)) (r : LocalReply) (c : FilterChain σ) :
    FilterChain σ :=
  let c1 := (runEncodeHeaders fs (localReplyMerged r) (r.body.length == 0)
    { c with localReplyDone := true, encodeResponseStatus := r.status }).2
  if r.body.length > 0 then (runEncodeData fs r.body true c1).2 else c1

def leftByEncodeChain (r : LocalReply) (c : FilterChain σ) : LocalReply :=
  { status := r.status
    body := c.encodeBodyOverride.getD r.body
    headers := OrderedHeaders.reconcile r.headers c.world.response }

def beginLocalReply (fs : List (HTTPFilter σ)) (name : String) (r : LocalReply)
    (c : FilterChain σ) : FilterChain σ :=
  if c.encodeStarted then ignoreLocalReply name c
  else if c.localReplyDone then c
  else
    let c1 := encodeLocalReply fs r c
    { c1 with
      localReplyStatus := r.status
      localReplyHeaders := OrderedHeaders.reconcile r.headers c1.world.response
      localReplyBody := r.body
      encoded := some (leftByEncodeChain r c1) }

def askLocalReply (fs : List (HTTPFilter σ)) (name : String) (r : LocalReply)
    (c : FilterChain σ) : FilterChain σ :=
  beginLocalReply fs name r { c with asked := c.asked ++ [r] }

def runDecodeProg (fs : List (HTTPFilter σ)) (name : String) (p : FilterProg σ α)
    (c : FilterChain σ) : α × FilterChain σ :=
  p.run (askLocalReply fs name) c

/-- `parkDecode`.  A reply asked for while parked counts as asked for only if the park
ends with the filter resuming, not with the request context. -/
def parkDecode (fs : List (HTTPFilter σ)) (name : String) (d : StreamDecoderFilter σ)
    (c : FilterChain σ) : Wake × FilterChain σ :=
  match runDecodeProg fs name d.parked c with
  | (.resumed, c') => (.resumed, c')
  | (.ctxDone, c') => (.ctxDone, { c' with asked := c.asked })

/-- The skeleton of the decode passes: the local-reply flag is read before each filter
and again after its callback; `react` is the switch over the returned status. -/
def decodeLoop {st : Type} (fs : List (HTTPFilter σ))
    (call : StreamDecoderFilter σ → FilterProg σ st)
    (react : HTTPFilter σ → StreamDecoderFilter σ → st → FilterChain σ →
      Option Iteration × FilterChain σ) :
    List (HTTPFilter σ) → FilterChain σ → Iteration × FilterChain σ
  | [], c => (.terminated, c)
  | f :: rest, c =>
    if c.localReplyDone then (.aborted, c)
    else match f.decoder with
    | none => decodeLoop fs call react rest c
    | some d =>
      let (status, c1) := runDecodeProg fs f.name (call d) c
      if c1.localReplyDone then (.aborted, c1)
      else match react f d status c1 with
      | (none, c2) => decodeLoop fs call react rest c2
      | (some it, c2) => (it, c2)

def parkThenAdvance (fs : List (HTTPFilter σ)) (f : HTTPFilter σ) (d : StreamDecoderFilter σ)
    (c : FilterChain σ) : Option Iteration × FilterChain σ :=
  match parkDecode fs f.name d c with
  | (.resumed, c') => (none, c')
  | (.ctxDone, c') => (some (.failed .ctxErr), c')

def reactDecodeHeaders (fs : List (HTTPFilter σ)) (f : HTTPFilter σ) (d : StreamDecoderFilter σ) :
    FilterHeadersStatus → FilterChain σ → Option Iteration × FilterChain σ
  | .continueIteration, c => (none, c)
  | .stopIteration, c => parkThenAdvance fs f d c
  | .terminateStream, c => (some (.failed .streamTerminatedByFilter), c)
  | .unknown code, c => (some (.failed (.unknownHeadersStatus f.name code "")), c)

def runDecodeHeaders (fs : List (HTTPFilter σ)) (endStream : Bool) (c : FilterChain σ) :
    Iteration × FilterChain σ :=
  decodeLoop fs (fun d => d.decodeHeaders endStream) (reactDecodeHeaders fs) fs c

def localReply413 : LocalReply :=
  { status := 413, body := localReply413Body, headers := [⟨"Connection", "close"⟩] }

def reactDecodeData (fs : List (HTTPFilter σ)) (data : Bytes) (f : HTTPFilter σ)
    (d : StreamDecoderFilter σ) :
    FilterDataStatus → FilterChain σ → Option Iteration × FilterChain σ
  | .dataContinue, c => (none, c)
  | .dataStopIterationAndBuffer, c =>
    if c.decodeBuf.length + data.length > filterBufferLimitBytes then
      (some .aborted, askLocalReply fs f.name localReply413 { c with decodeBufOver := true })
    else parkThenAdvance fs f d { c with decodeBuf := c.decodeBuf ++ data }
  | .dataStopIterationNoBuffer, c => parkThenAdvance fs f d c
  | .dataTerminateStream, c => (some (.failed .streamTerminatedByFilter), c)
  | .unknown code, c => (some (.failed (.unknownDataStatus f.name code " on decode")), c)

def runDecodeData (fs : List (HTTPFilter σ)) (data : Bytes) (endStream : Bool)
    (c : FilterChain σ) : Iteration × FilterChain σ :=
  decodeLoop fs (fun d => d.decodeData data endStream) (reactDecodeData fs data) fs c

end Chain

end EnvoyGo

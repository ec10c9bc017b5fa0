import EnvoyGo.GoText
import EnvoyGo.H2Carrier
import EnvoyGo.H2ServerConn

/-!
The upstream HTTP/2 connection: the read loop of `ClientConn` with its frame handlers, and the
`RoundTrip` calls that share it.  A call is named by the stream it allocates.  One event is one
frame, one half of a window update, or one step of a call; an event that cannot happen changes
nothing.
-/

namespace EnvoyGo.H2

open Text

/-- A frame from the upstream peer, as the framer's parser gives it.  `other` is PRIORITY or a type
the connection does not know; `malformed` is what the parser rejects for its shape. -/
inductive PeerFrame
  | headers (stream : ℕ) (fragment : Bytes) (endHeaders endStream : Bool)
  | continuation (stream : ℕ) (fragment : Bytes) (endHeaders : Bool)
  | data (stream : ℕ) (payload : Bytes) (padding : Option (Fin 256)) (endStream : Bool)
  | settings (ack : Bool) (params : List Setting)
  | ping (ack : Bool)
  | windowUpdate (stream : ℕ) (increment : Fin (2^31))
  | rstStream (stream : ℕ) (code : ErrCode)
  | goaway (lastStream : ℕ) (code : ErrCode)
  | pushPromise (stream promised : ℕ) (fragment : Bytes) (endHeaders : Bool)
  | other
  | malformed (stream : ℕ) (code : ErrCode)
  deriving DecidableEq

def PeerFrame.parseError (maxReadFrame : ℕ) : PeerFrame → Option Error
  | .malformed stream code => some (framerError stream code)
  | .headers id _ _ _ => if id = 0 then some (framerError 0 .protocolError) else none
  | .continuation id _ _ => if id = 0 then some (framerError 0 .protocolError) else none
  | .rstStream id _ => if id = 0 then some (framerError 0 .protocolError) else none
  | .pushPromise id _ _ _ => if id = 0 then some (framerError 0 .protocolError) else none
  | .windowUpdate id increment =>
    if increment.val = 0 then some (framerError id .protocolError) else none
  | .settings false params =>
    if (firstValue params .initialWindowSize).getD 0 > 2147483647 then
      some (framerError 0 .flowControlError)
    else none
  | .data id payload padding _ =>
    if flowControlledLength payload padding > maxReadFrame then
      some (connError .frameSizeError "framer: frame too large")
    else if id = 0 then some (framerError 0 .protocolError)
    else none
  | _ => none

/-- The stream of one RoundTrip.  `done` is what `finish` delivered first: `some none` for an
answer, `some (some err)` for a failure. -/
structure ClientStream where
  sendW : Window
  recvW : Window
  recvDebitSinceLastUpdate : ℤ := 0
  respHeaders : OrderedHeaders := []
  respHeadersSeen : Bool := false
  respTrailers : OrderedHeaders := []
  respBody : Bytes := []
  done : Option (Option Error) := none
  deriving DecidableEq

def ClientStream.finish (cs : ClientStream) (err : Option Error) : ClientStream :=
  if cs.done = none then { cs with done := some err } else cs

def malformedTrailersError (stream : ℕ) (msg : String) : Error := ⟨.internalError, stream, msg⟩

def malformedResponseHeadersError (stream : ℕ) (msg : String) : Error :=
  ⟨.internalError, stream, msg⟩

def hasUppercaseHeaderChar (name : String) : Bool :=
  name.toList.any (fun c => decide ('A' ≤ c ∧ c ≤ 'Z'))

def teTrailersValue : String := "trailers"

def trailerFieldError (stream : ℕ) (hf : HeaderField) : Option Error :=
  if hasPrefix hf.name ":" then
    some (malformedTrailersError stream
      ("pseudo-header field not permitted in a trailer section: " ++ quote hf.name))
  else if hasUppercaseHeaderChar hf.name then
    some (malformedTrailersError stream
      ("uppercase character in header field name not permitted in a trailer section: " ++
        quote hf.name))
  else if isConnectionSpecificField hf.name then
    some (malformedTrailersError stream
      ("connection-specific header field not permitted in a trailer section: " ++ quote hf.name))
  else if hf.name = "te" ∧ hf.value ≠ teTrailersValue then
    some (malformedTrailersError stream
      ("te header field value not 'trailers': te=" ++ quote hf.value))
  else if hf.name = "content-length" then
    some (malformedTrailersError stream
      ("content-length not permitted in a trailer section: " ++ quote hf.name))
  else none

def validateResponseTrailers (stream : ℕ) (fields : OrderedHeaders) (endStream : Bool) :
    Option Error :=
  if !endStream then
    some (malformedTrailersError stream "trailing HEADERS block without END_STREAM")
  else fields.findSome? (trailerFieldError stream)

def validateResponseHeaders (stream : ℕ) (contentLengthSeen : Bool) :
    OrderedHeaders → Option Error
  | [] => none
  | hf :: rest =>
    if hasUppercaseHeaderChar hf.name then
      some (malformedResponseHeadersError stream
        ("uppercase character in header field name not permitted in a response header block: " ++
          quote hf.name))
    else if isConnectionSpecificField hf.name then
      some (malformedResponseHeadersError stream
        ("connection-specific header field not permitted in a response header block: " ++
          quote hf.name))
    else if hf.name = "te" ∧ hf.value ≠ teTrailersValue then
      some (malformedResponseHeadersError stream
        ("te header field value not 'trailers': te=" ++ quote hf.value))
    else if hf.name = "content-length" then
      if contentLengthSeen then
        some (malformedResponseHeadersError stream
          ("duplicate content-length header field in a response header block: " ++
            quote hf.value))
      else validateResponseHeaders stream true rest
    else validateResponseHeaders stream contentLengthSeen rest

/-- Where a RoundTrip stands: before its HEADERS, in `writeData`, at the select, or past its return
with the deferred delete to come. -/
inductive Call
  | headers (len : ℕ)
  | body (w : Writer)
  | waiting
  | leaving
  deriving DecidableEq

inductive Exit
  | finished (err : Option Error)
  | canceledWaiting
  | canceledBody
  | connClosed
  deriving DecidableEq

/-- The connection.  `stream` holds the stream objects, `streams` the keys of the map.  The last two
fields are history: what was written, and how the calls returned. -/
structure ClientConn (δ : Type) where
  hpack : δ
  serverS : ClientSettings
  sendW : Window
  recvW : Window
  encoderTable : ℕ := 4096
  nextStreamID : ℕ := 0
  stream : ℕ → Option ClientStream := fun _ => none
  streams : Finset ℕ := ∅
  resetStreams : Finset ℕ := ∅
  recvDebitSinceLastUpdate : ℤ := 0
  hdrAccum : Option HeaderBlockAccumulator := none
  adding : Option (ℕ × ℤ) := none
  goawaySent : Bool := false
  peerGoaway : Bool := false
  closed : Bool := false
  call : ℕ → Option Call := fun _ => none
  wire : List WireFrame := []
  exits : List (ℕ × Exit) := []

def resetRetainWindow : ℕ := 256

/-- The connection when its read loop starts, the peer's first SETTINGS applied. -/
def newClientConn {δ : Type} (hpack : δ) (serverS : ClientSettings) : ClientConn δ :=
  { hpack := hpack
    serverS := serverS
    sendW := Window.new 65535
    recvW := Window.new 65535 }

namespace ClientConn

variable {δ : Type}

abbrev Result (δ : Type) := ClientConn δ × Option Error

def setStream (s : ClientConn δ) (id : ℕ) (cs : ClientStream) : ClientConn δ :=
  { s with stream := Function.update s.stream id (some cs) }

def write (s : ClientConn δ) (f : WireFrame) : ClientConn δ := { s with wire := s.wire ++ [f] }

def setCall (s : ClientConn δ) (id : ℕ) (c : Option Call) : ClientConn δ :=
  { s with call := Function.update s.call id c }

def lookupStream (s : ClientConn δ) (id : ℕ) : Option ClientStream :=
  if id ∈ s.streams then s.stream id else none

def finishStream (s : ClientConn δ) (id : ℕ) (err : Option Error) : ClientConn δ :=
  match s.stream id with
  | none => s
  | some cs => s.setStream id (cs.finish err)

def newClientStream (s : ClientConn δ) : ClientStream :=
  let peerInit := wrap32 s.serverS.initialWindowSize
  { sendW := Window.new (if peerInit ≤ 0 then 65535 else peerInit), recvW := Window.new 65535 }

def markReset (s : ClientConn δ) (id : ℕ) : ClientConn δ :=
  { s with resetStreams :=
      (insert id s.resetStreams).filter (fun old => ¬ old + resetRetainWindow < id) }

def wasReset (s : ClientConn δ) (id : ℕ) (done : Bool) : ClientConn δ × Bool :=
  if id ∈ s.resetStreams then
    (if done then { s with resetStreams := s.resetStreams.erase id } else s, true)
  else (s, false)

def emitGoaway (s : ClientConn δ) (code : ErrCode) : ClientConn δ :=
  if s.goawaySent then s
  else ({ s with goawaySent := true } : ClientConn δ).write (.goaway s.nextStreamID code)

def debitConnRecvWindow (s : ClientConn δ) (dataLen : ℤ) : ClientConn δ :=
  if dataLen ≤ 0 then s
  else
    let debit := s.recvDebitSinceLastUpdate + dataLen
    if debit ≥ recvWindowUpdateThreshold then
      ({ s with
        recvW := (s.recvW.replenish (-dataLen)).replenish debit
        recvDebitSinceLastUpdate := 0 } : ClientConn δ).write (.windowUpdate 0 debit)
    else
      { s with
        recvW := s.recvW.replenish (-dataLen)
        recvDebitSinceLastUpdate := debit }

def applySetting (s : ClientConn δ) (st : Setting) : ClientConn δ :=
  match st.id with
  | .maxConcurrentStreams =>
    { s with serverS := { s.serverS with maxConcurrentStreams := st.val } }
  | .initialWindowSize => { s with serverS := { s.serverS with initialWindowSize := st.val } }
  | .maxFrameSize => { s with serverS := { s.serverS with maxFrameSize := st.val } }
  | .headerTableSize =>
    { s with
      serverS := { s.serverS with headerTableSize := st.val }
      encoderTable := encoderLimit st.val }
  | .enablePush => { s with serverS := { s.serverS with enablePush := st.val } }
  | .other _ => s

def onSettings (s : ClientConn δ) (ack : Bool) (params : List Setting) : Result δ :=
  if ack then (s, none) else ((params.foldl applySetting s).write .settingsAck, none)

def onDecodedBlock (s : ClientConn δ) (id : ℕ) (cs : ClientStream) (decoded : OrderedHeaders)
    (endStream : Bool) : ClientConn δ :=
  let reject (err : Error) : ClientConn δ :=
    ((s.markReset id).write (.rstStream id .internalError)).finishStream id (some err)
  let retain (cs' : ClientStream) : ClientConn δ :=
    let s' := s.setStream id cs'
    if endStream then s'.finishStream id none else s'
  if cs.respHeadersSeen then
    match validateResponseTrailers id decoded endStream with
    | some err => reject err
    | none => retain { cs with respTrailers := decoded }
  else
    match validateResponseHeaders id false decoded with
    | some err => reject err
    | none => retain { cs with respHeadersSeen := true, respHeaders := decoded }

def onResponseHeaderBlock (dec : BlockDecoder δ) (s : ClientConn δ) (id : ℕ) (block : Bytes)
    (endStream : Bool) : Result δ :=
  match s.lookupStream id with
  | none =>
    match s.wasReset id endStream with
    | (s', true) =>
      match dec s'.hpack block with
      | none =>
        (s'.emitGoaway .compressionError, some (connError .compressionError "hpack decode"))
      | some (_, hpack) => ({ s' with hpack := hpack }, none)
    | (s', false) =>
      (s'.emitGoaway .protocolError, some (connError .protocolError
        "client: server-initiated HEADERS with ENABLE_PUSH=0"))
  | some cs =>
    match dec s.hpack block with
    | none => (s.emitGoaway .compressionError, some (connError .compressionError "hpack decode"))
    | some (decoded, hpack) =>
      (({ s with hpack := hpack } : ClientConn δ).onDecodedBlock id cs decoded endStream, none)

def onContinuation (dec : BlockDecoder δ) (s : ClientConn δ) (id : ℕ) (fragment : Bytes)
    (endHeaders : Bool) : Result δ :=
  match appendContinuation s.hdrAccum id fragment with
  | .error err => (({ s with hdrAccum := none } : ClientConn δ).emitGoaway err.code, some err)
  | .ok a =>
    if !endHeaders then ({ s with hdrAccum := some a }, none)
    else ({ s with hdrAccum := none } : ClientConn δ).onResponseHeaderBlock dec a.stream a.buf
      a.endStream

def acceptData (s : ClientConn δ) (id : ℕ) (cs : ClientStream) (payload : Bytes)
    (endStream : Bool) : ClientConn δ :=
  let dataLen : ℤ := payload.length
  let s' :=
    if dataLen > 0 then
      let debit := cs.recvDebitSinceLastUpdate + dataLen
      let cs' := { cs with
        respBody := cs.respBody ++ payload
        recvW := cs.recvW.replenish (-dataLen)
        recvDebitSinceLastUpdate := debit }
      if !endStream && decide (debit ≥ recvWindowUpdateThreshold) then
        ((s.debitConnRecvWindow dataLen).setStream id { cs' with
          recvW := cs'.recvW.replenish debit
          recvDebitSinceLastUpdate := 0 }).write (.windowUpdate id debit)
      else (s.debitConnRecvWindow dataLen).setStream id cs'
    else s
  if endStream then s'.finishStream id none else s'

def onData (s : ClientConn δ) (id : ℕ) (payload : Bytes) (endStream : Bool) : Result δ :=
  match s.lookupStream id with
  | none =>
    match s.wasReset id endStream with
    | (s', true) => (s'.debitConnRecvWindow payload.length, none)
    | (s', false) => (s', some (connError .streamClosed "client: DATA on closed stream"))
  | some cs => (s.acceptData id cs payload endStream, none)

def onRSTStream (s : ClientConn δ) (id : ℕ) (code : ErrCode) : Result δ :=
  match s.lookupStream id with
  | none => ((s.wasReset id true).1, none)
  | some _ => (s.finishStream id (some (streamError code id "client: peer RST_STREAM")), none)

def onWindowUpdate (s : ClientConn δ) (id : ℕ) (delta : ℤ) : Result δ :=
  if id = 0 then
    if delta = 0 then
      (s, some (connError .protocolError "client: WINDOW_UPDATE delta 0 on connection"))
    else if !s.sendW.fits delta then
      (s.emitGoaway .flowControlError,
        some (connError .flowControlError "client: WINDOW_UPDATE conn-level overflow"))
    else ({ s with adding := some (0, delta) }, none)
  else
    match s.lookupStream id with
    | none => (s, none)
    | some cs =>
      if delta = 0 then
        (s.finishStream id
          (some (streamError .protocolError id "client: WINDOW_UPDATE delta 0 on stream")), none)
      else if !cs.sendW.fits delta then
        (s.finishStream id (some (streamError .flowControlError id
          "client: WINDOW_UPDATE stream-level overflow")), none)
      else ({ s with adding := some (id, delta) }, none)

def onGoaway (s : ClientConn δ) (lastStream : ℕ) (code : ErrCode) : ClientConn δ :=
  { s with
    peerGoaway := true
    stream := fun id =>
      if id ∈ s.streams ∧ id > lastStream then
        (s.stream id).map (fun cs => cs.finish (some (streamError code id "client: peer GOAWAY")))
      else s.stream id }

def dispatchFrame (dec : BlockDecoder δ) (s : ClientConn δ) (f : PeerFrame) : Result δ :=
  match f with
  | .settings ack params => s.onSettings ack params
  | .headers id fragment endHeaders endStream =>
    if !endHeaders then ({ s with hdrAccum := some ⟨id, fragment, endStream, none⟩ }, none)
    else s.onResponseHeaderBlock dec id fragment endStream
  | .continuation id fragment endHeaders => s.onContinuation dec id fragment endHeaders
  | .data id payload _ endStream => s.onData id payload endStream
  | .rstStream id code => s.onRSTStream id code
  | .windowUpdate id increment => s.onWindowUpdate id increment.val
  | .ping ack => if ack then (s, none) else (s.write .pingAck, none)
  | .goaway lastStream code => (s.onGoaway lastStream code, none)
  | _ => (s, none)

def checkFrameOrder (s : ClientConn δ) (f : PeerFrame) : Option Error :=
  match s.hdrAccum, f with
  | none, .continuation _ _ _ => some (framerError 0 .protocolError)
  | none, _ => none
  | some a, .continuation id _ _ =>
    if id = a.stream then none else some (framerError 0 .protocolError)
  | some _, _ => some (framerError 0 .protocolError)

def readError (s : ClientConn δ) (f : PeerFrame) : Option Error :=
  (f.parseError 16384).orElse (fun _ => s.checkFrameOrder f)

def readFrame (dec : BlockDecoder δ) (s : ClientConn δ) (f : PeerFrame) : ClientConn δ :=
  match s.readError f with
  | some _ => { s with closed := true }
  | none =>
    match s.dispatchFrame dec f with
    | (s', none) => s'
    | (s', some _) => { s' with closed := true }

/-- The second half of a window update. -/
def addCredit (s : ClientConn δ) : ClientConn δ :=
  match s.adding with
  | none => s
  | some (0, delta) => { s with adding := none, sendW := s.sendW.replenish delta }
  | some (id, delta) =>
    match s.stream id with
    | none => { s with adding := none }
    | some cs =>
      { s.setStream id { cs with sendW := cs.sendW.replenish delta } with adding := none }

/-- The start of a RoundTrip: a stream number, and its stream in the map. -/
def start (s : ClientConn δ) (len : ℕ) : ClientConn δ :=
  if s.closed then s
  else
    let id := s.nextStreamID + 1
    { (s.setStream id s.newClientStream).setCall id (some (.headers len)) with
      nextStreamID := s.nextStreamID + 2
      streams := insert id s.streams }

def writeRequest (s : ClientConn δ) (id : ℕ) : ClientConn δ :=
  match s.call id with
  | some (.headers len) =>
    let s' := s.write (.headers id (decide (len = 0)))
    if len = 0 then s'.setCall id (some .waiting)
    else s'.setCall id
      (some (.body ⟨id, len, true, s.serverS.effectiveMaxFrame, .stream, 0, 0⟩))
  | _ => s

def reserveStream (s : ClientConn δ) (id : ℕ) : ClientConn δ :=
  match s.call id, s.stream id with
  | some (.body w), some cs =>
    if w.phase = .stream ∧ 0 < cs.sendW.n then
      let taken := cs.sendW.offer (ServerConn.Writer.want w)
      (s.setStream id { cs with sendW := cs.sendW.take taken }).setCall id
        (some (.body { w with phase := .conn, streamTaken := taken }))
    else s
  | _, _ => s

def reserveConn (s : ClientConn δ) (id : ℕ) : ClientConn δ :=
  match s.call id with
  | some (.body w) =>
    if w.phase = .conn ∧ 0 < s.sendW.n then
      let taken := s.sendW.offer w.streamTaken
      ({ s with sendW := s.sendW.take taken } : ClientConn δ).setCall id
        (some (.body { w with
          phase := if taken < w.streamTaken then .refund else .write
          connTaken := taken }))
    else s
  | _ => s

def refund (s : ClientConn δ) (id : ℕ) : ClientConn δ :=
  match s.call id, s.stream id with
  | some (.body w), some cs =>
    if w.phase = .refund then
      (s.setStream id
        { cs with sendW := cs.sendW.replenish (w.streamTaken - w.connTaken) }).setCall id
          (some (.body { w with phase := .write, streamTaken := w.connTaken }))
    else s
  | _, _ => s

def writeChunk (s : ClientConn δ) (id : ℕ) : ClientConn δ :=
  match s.call id with
  | some (.body w) =>
    if w.phase = .write then
      let left := w.remaining - w.connTaken.toNat
      let s' := s.write (.data id w.connTaken.toNat (decide (left = 0)))
      if left = 0 then s'.setCall id (some .waiting)
      else s'.setCall id (some (.body
        { w with remaining := left, phase := .stream, streamTaken := 0, connTaken := 0 }))
    else s
  | _ => s

def exitCall (s : ClientConn δ) (id : ℕ) (exit : Exit) : ClientConn δ :=
  { s.setCall id (some .leaving) with exits := s.exits ++ [(id, exit)] }

/-- The caller's context ends: a wait at a window returns its error, with what it holds of the
stream's window given back; the wait for the answer resets the stream. -/
def cancelCall (s : ClientConn δ) (id : ℕ) : ClientConn δ :=
  match s.call id with
  | some (.body w) =>
    match w.phase with
    | .stream => s.exitCall id .canceledBody
    | .conn =>
      match s.stream id with
      | none => s
      | some cs =>
        (s.setStream id { cs with sendW := cs.sendW.replenish w.streamTaken }).exitCall id
          .canceledBody
    | _ => s
  | some .waiting =>
    ((s.markReset id).write (.rstStream id .cancel)).exitCall id .canceledWaiting
  | _ => s

def deliver (s : ClientConn δ) (id : ℕ) : ClientConn δ :=
  match s.call id, s.stream id with
  | some .waiting, some cs =>
    match cs.done with
    | none => s
    | some err => s.exitCall id (.finished err)
  | _, _ => s

def loseConn (s : ClientConn δ) (id : ℕ) : ClientConn δ :=
  match s.call id with
  | some .waiting => if s.closed then s.exitCall id .connClosed else s
  | _ => s

/-- The deferred delete of the map entry. -/
def leave (s : ClientConn δ) (id : ℕ) : ClientConn δ :=
  match s.call id with
  | some .leaving => { s.setCall id none with streams := s.streams.erase id }
  | _ => s

end ClientConn

/-- `frame` and `addCredit` are the read loop's, `close` the owner's; the others a RoundTrip's. -/
inductive ClientEvent
  | frame (f : PeerFrame)
  | addCredit
  | close
  | start (len : ℕ)
  | headers (id : ℕ)
  | reserveStream (id : ℕ)
  | reserveConn (id : ℕ)
  | refund (id : ℕ)
  | chunk (id : ℕ)
  | cancel (id : ℕ)
  | deliver (id : ℕ)
  | loseConn (id : ℕ)
  | leave (id : ℕ)
  deriving DecidableEq

namespace ClientConn

variable {δ : Type}

/-- The read loop takes no frame between the halves of a window update, and none once it has
ended. -/
def step (dec : BlockDecoder δ) (s : ClientConn δ) : ClientEvent → ClientConn δ
  | .frame f => if s.closed = false ∧ s.adding = none then s.readFrame dec f else s
  | .addCredit => s.addCredit
  | .close => { s with closed := true }
  | .start len => s.start len
  | .headers id => s.writeRequest id
  | .reserveStream id => s.reserveStream id
  | .reserveConn id => s.reserveConn id
  | .refund id => s.refund id
  | .chunk id => s.writeChunk id
  | .cancel id => s.cancelCall id
  | .deliver id => s.deliver id
  | .loseConn id => s.loseConn id
  | .leave id => s.leave id

/-- The connection after a run. -/
def run (dec : BlockDecoder δ) (s : ClientConn δ) (es : List ClientEvent) : ClientConn δ :=
  es.foldl (step dec) s

end ClientConn

end EnvoyGo.H2

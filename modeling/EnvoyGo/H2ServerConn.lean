import EnvoyGo.HTTPHeader
import EnvoyGo.Int32Window
import EnvoyGo.Runs
import Mathlib.Data.Finset.Card

/-!
The downstream HTTP/2 connection: the frame loop of `ServerConn` with its handlers, the dispatch
goroutines it launches, and the response writers that share its windows.  One event is one frame,
one half of a window update, or one step of a goroutine; an event that cannot happen changes
nothing.
-/

namespace EnvoyGo.H2

inductive ErrCode
  | noError
  | protocolError
  | internalError
  | flowControlError
  | settingsTimeout
  | streamClosed
  | frameSizeError
  | refusedStream
  | cancel
  | compressionError
  | connectError
  | enhanceYourCalm
  | inadequateSecurity
  | http11Required
  | unknown (code : ℕ)
  deriving DecidableEq

def ErrCode.num : ErrCode → ℕ
  | .noError => 0
  | .protocolError => 1
  | .internalError => 2
  | .flowControlError => 3
  | .settingsTimeout => 4
  | .streamClosed => 5
  | .frameSizeError => 6
  | .refusedStream => 7
  | .cancel => 8
  | .compressionError => 9
  | .connectError => 10
  | .enhanceYourCalm => 11
  | .inadequateSecurity => 12
  | .http11Required => 13
  | .unknown code => code

structure Error where
  code : ErrCode
  stream : ℕ
  msg : String
  deriving DecidableEq

def connError (code : ErrCode) (msg : String) : Error := ⟨code, 0, msg⟩

def streamError (code : ErrCode) (stream : ℕ) (msg : String) : Error := ⟨code, stream, msg⟩

inductive SettingID
  | headerTableSize
  | enablePush
  | maxConcurrentStreams
  | initialWindowSize
  | maxFrameSize
  | other (id : ℕ)
  deriving DecidableEq

structure Setting where
  id : SettingID
  val : ℕ
  deriving DecidableEq

structure ServerSettings where
  maxConcurrentStreams : ℕ := 100
  initialWindowSize : ℕ := 65535
  maxFrameSize : ℕ := 16384
  headerTableSize : ℕ := 4096
  deriving DecidableEq

/-- What the peer has announced. -/
structure ClientSettings where
  maxConcurrentStreams : ℕ := 0
  initialWindowSize : ℕ := 0
  maxFrameSize : ℕ := 0
  headerTableSize : ℕ := 0
  enablePush : ℕ := 0
  initialWindowSizeAnnounced : Bool := false
  deriving DecidableEq

def validateSetting (st : Setting) : Option Error :=
  match st.id with
  | .enablePush =>
    if st.val > 1 then some (connError .protocolError "SETTINGS_ENABLE_PUSH must be 0 or 1")
    else none
  | .maxFrameSize =>
    if st.val < 16384 ∨ st.val > 16777215 then
      some (connError .protocolError "SETTINGS_MAX_FRAME_SIZE outside [2^14, 2^24-1]")
    else none
  | .initialWindowSize =>
    if st.val > 2147483647 then
      some (connError .flowControlError "SETTINGS_INITIAL_WINDOW_SIZE exceeds 2^31-1")
    else none
  | _ => none

def ClientSettings.announce (cs : ClientSettings) (st : Setting) : ClientSettings :=
  match st.id with
  | .maxConcurrentStreams => { cs with maxConcurrentStreams := st.val }
  | .initialWindowSize =>
    { cs with initialWindowSize := st.val, initialWindowSizeAnnounced := true }
  | .maxFrameSize => { cs with maxFrameSize := st.val }
  | .headerTableSize => { cs with headerTableSize := st.val }
  | .enablePush => { cs with enablePush := st.val }
  | .other _ => cs

/-- `readClientSettings` on the parameters of the peer's first SETTINGS frame. -/
def readClientSettings (params : List Setting) : Except Error ClientSettings :=
  match params.findSome? validateSetting with
  | some err => .error err
  | none => .ok (params.foldl ClientSettings.announce {})

/-- A parsed frame.  `priority` is the stream a HEADERS frame says it depends on; `padding` is the
length of the padding of a padded DATA frame.  `malformed` stands for what the framer's parser
rejects for its shape; stream 0 makes that a connection error. -/
inductive Frame
  | headers (stream : ℕ) (fragment : Bytes) (endHeaders endStream : Bool) (priority : Option ℕ)
  | continuation (stream : ℕ) (fragment : Bytes) (endHeaders : Bool)
  | data (stream : ℕ) (payload : Bytes) (padding : Option (Fin 256)) (endStream : Bool)
  | settings (ack : Bool) (params : List Setting)
  | ping (ack : Bool)
  | windowUpdate (stream : ℕ) (increment : Fin (2^31))
  | rstStream (stream : ℕ) (code : ErrCode)
  | goaway
  | pushPromise
  | priority (stream dependency : ℕ)
  | unknown
  | malformed (stream : ℕ) (code : ErrCode)
  deriving DecidableEq

/-- What a DATA frame counts against the windows of its receiver: the padding and its length
byte included. -/
def flowControlledLength (payload : Bytes) (padding : Option (Fin 256)) : ℕ :=
  payload.length + padding.elim 0 (fun p => p.val + 1)

inductive WireFrame
  | headers (stream : ℕ) (endStream : Bool)
  | data (stream : ℕ) (length : ℕ) (endStream : Bool)
  | rstStream (stream : ℕ) (code : ErrCode)
  | windowUpdate (stream : ℕ) (increment : ℤ)
  | settingsAck
  | pingAck
  | goaway (lastStream : ℕ) (code : ErrCode)
  deriving DecidableEq

def framerError (stream : ℕ) (code : ErrCode) : Error :=
  ⟨code, stream, "framer: " ++ (if stream = 0 then "connection" else "stream") ++ "-error code=" ++
    Nat.repr code.num⟩

def firstValue (params : List Setting) (id : SettingID) : Option ℕ :=
  (params.find? (fun st => st.id == id)).map Setting.val

def parseError (maxReadFrame : ℕ) : Frame → Option Error
  | .malformed stream code => some (framerError stream code)
  | .headers id _ _ _ _ => if id = 0 then some (framerError 0 .protocolError) else none
  | .continuation id _ _ => if id = 0 then some (framerError 0 .protocolError) else none
  | .rstStream id _ => if id = 0 then some (framerError 0 .protocolError) else none
  | .priority id _ => if id = 0 then some (framerError 0 .protocolError) else none
  | .windowUpdate id increment =>
    if increment.val = 0 then some (framerError id .protocolError) else none
  | .settings false params =>
    if (firstValue params .initialWindowSize).getD 0 > 2147483647 then
      some (framerError 0 .flowControlError)
    else none
  | .data id payload padding _ =>
    if flowControlledLength payload padding > maxReadFrame then
      some (connError .frameSizeError "framer: frame too large")
    else if id = 0 then some (framerError 0 .protocolError)
    else none
  | _ => none

def maxHeaderBlockSize : ℕ := 16 * 2^20

structure HeaderBlockAccumulator where
  stream : ℕ
  buf : Bytes
  endStream : Bool
  priority : Option ℕ
  deriving DecidableEq

def appendContinuation (acc : Option HeaderBlockAccumulator) (stream : ℕ) (fragment : Bytes) :
    Except Error HeaderBlockAccumulator :=
  match acc with
  | none =>
    .error (connError .protocolError ("unexpected CONTINUATION for stream " ++ Nat.repr stream))
  | some a =>
    if a.stream ≠ stream then
      .error (connError .protocolError ("got CONTINUATION for stream " ++ Nat.repr stream ++
        "; expected stream " ++ Nat.repr a.stream))
    else if a.buf.length + fragment.length > maxHeaderBlockSize then
      .error (connError .enhanceYourCalm
        "h2 continuation accumulator exceeded maxHeaderBlockSize")
    else .ok { a with buf := a.buf ++ fragment }

inductive StreamState
  | idle
  | opened
  | halfClosedRemote
  | halfClosedLocal
  | closed
  deriving DecidableEq

def StreamState.repr : StreamState → String
  | .idle => "0"
  | .opened => "1"
  | .halfClosedRemote => "2"
  | .halfClosedLocal => "3"
  | .closed => "4"

structure ServerStream where
  state : StreamState
  sendW : Window
  recvW : Window
  recvDebitSinceLastUpdate : ℤ := 0
  reqHeaders : OrderedHeaders := []
  reqBody : Bytes := []
  deriving DecidableEq

def newServerStream (initialSendWindow initialRecvWindow : ℤ) : ServerStream :=
  { state := .idle, sendW := Window.new initialSendWindow, recvW := Window.new initialRecvWindow }

namespace ServerStream

def recvHeaders (id : ℕ) (headers : OrderedHeaders) (endStream : Bool) (ss : ServerStream) :
    Except Error ServerStream :=
  match ss.state with
  | .idle =>
    .ok { ss with
      reqHeaders := headers
      state := if endStream then .halfClosedRemote else .opened }
  | .opened => .ok { ss with state := if endStream then .halfClosedRemote else .opened }
  | st => .error (streamError .streamClosed id ("HEADERS in state " ++ st.repr))

def isPseudo (name : String) : Bool := hasPrefix name ":"

def recvTrailingHeaders (id : ℕ) (headers : OrderedHeaders) (endStream : Bool)
    (ss : ServerStream) : Except Error ServerStream :=
  match ss.state with
  | .opened =>
    if !endStream then
      .error (streamError .protocolError id "second HEADERS without END_STREAM")
    else match headers.find? (fun h => isPseudo h.name) with
    | some h => .error (streamError .protocolError id ("pseudo-header in trailers: " ++ h.name))
    | none => .ok { ss with state := .halfClosedRemote }
  | .halfClosedRemote =>
    .error (streamError .streamClosed id ("HEADERS in state " ++ ss.state.repr))
  | .closed => .error (streamError .streamClosed id ("HEADERS in state " ++ ss.state.repr))
  | st =>
    .error (streamError .streamClosed id ("trailing HEADERS in unexpected state " ++ st.repr))

def recvData (id : ℕ) (payload : Bytes) (endStream : Bool) (ss : ServerStream) :
    Except Error ServerStream :=
  match ss.state with
  | .opened =>
    .ok { ss with
      reqBody := ss.reqBody ++ payload
      state := if endStream then .halfClosedRemote else .opened }
  | .halfClosedLocal =>
    .ok { ss with
      reqBody := ss.reqBody ++ payload
      state := if endStream then .closed else .halfClosedLocal }
  | .halfClosedRemote =>
    .error (streamError .streamClosed id "DATA on half-closed/closed stream")
  | .closed => .error (streamError .streamClosed id "DATA on half-closed/closed stream")
  | .idle => .error (streamError .streamClosed id ("DATA in state " ++ ss.state.repr))

end ServerStream

/-- Where a `writeData` call stands: before the stream's window, before the connection's, before
the refund of what the connection's did not give, before the frame. -/
inductive WriterPhase
  | stream
  | conn
  | refund
  | write
  deriving DecidableEq

structure Writer where
  stream : ℕ
  remaining : ℕ
  endStream : Bool
  maxFrame : ℤ
  phase : WriterPhase := .stream
  streamTaken : ℤ := 0
  connTaken : ℤ := 0
  deriving DecidableEq

/-- The connection.  `encoderTable` is the largest dynamic table its header encoder uses; `stream`
holds the stream objects, which outlive their entry in the map;
`adding` is a window update that has passed its check.  The last four fields are history: what was
written, which dispatches were queued and launched, and which bodies they took. -/
structure ServerConn (δ : Type) where
  settings : ServerSettings
  hpack : δ
  clientS : ClientSettings
  sendW : Window
  recvW : Window
  encoderTable : ℕ := 4096
  stream : ℕ → Option ServerStream := fun _ => none
  streams : Finset ℕ := ∅
  closedStreams : Finset ℕ := ∅
  lastInID : ℕ := 0
  peerGoaway : Bool := false
  doneCh : List ℕ := []
  pendingDispatch : List ℕ := []
  recvDebitSinceLastUpdate : ℤ := 0
  hdrAccum : Option HeaderBlockAccumulator := none
  adding : Option (ℕ × ℤ) := none
  stopped : Option ErrCode := none
  running : List ℕ := []
  writer : ℕ → Option Writer := fun _ => none
  writers : ℕ := 0
  wire : List WireFrame := []
  queued : List ℕ := []
  launched : List ℕ := []
  bodies : List (ℕ × Bytes) := []

/-- `hpack.decodeBlock`, the decoder of the connection's header compression. -/
abbrev BlockDecoder (δ : Type) := δ → Bytes → Option (OrderedHeaders × δ)

/-- `SetMaxDynamicTableSize` of the header encoder, whose own limit stays at its default. -/
def encoderLimit (size : ℕ) : ℕ := min size 4096

def recvWindowUpdateThreshold : ℤ := 32768

def defaultPeerMaxFrameSize : ℤ := 16384

/-- The peer's `INITIAL_WINDOW_SIZE` in force. -/
def ClientSettings.effectiveInitialWindow (cs : ClientSettings) : ℤ :=
  if cs.initialWindowSizeAnnounced then wrap32 cs.initialWindowSize else 65535

/-- The peer's `MAX_FRAME_SIZE` in force. -/
def ClientSettings.effectiveMaxFrame (cs : ClientSettings) : ℤ :=
  if wrap32 cs.maxFrameSize ≤ 0 then defaultPeerMaxFrameSize else wrap32 cs.maxFrameSize

/-- The connection when its frame loop starts, the peer's first SETTINGS applied. -/
def newServerConn {δ : Type} (hpack : δ) (settings : ServerSettings) (clientS : ClientSettings) :
    ServerConn δ :=
  { settings := settings
    hpack := hpack
    clientS := clientS
    sendW := Window.new (wrap32 settings.initialWindowSize)
    recvW := Window.new (wrap32 settings.initialWindowSize)
    encoderTable := encoderLimit settings.headerTableSize }

namespace ServerConn

variable {δ : Type}

def setStream (s : ServerConn δ) (id : ℕ) (ss : ServerStream) : ServerConn δ :=
  { s with stream := Function.update s.stream id (some ss) }

def write (s : ServerConn δ) (f : WireFrame) : ServerConn δ := { s with wire := s.wire ++ [f] }

def closeStream (s : ServerConn δ) (id : ℕ) : ServerConn δ :=
  match s.stream id with
  | none => s
  | some ss => s.setStream id { ss with state := .closed }

def queueDispatch (s : ServerConn δ) (id : ℕ) : ServerConn δ :=
  { s with pendingDispatch := s.pendingDispatch ++ [id], queued := s.queued ++ [id] }

def flushPendingDispatch (s : ServerConn δ) : ServerConn δ :=
  { s with
    running := s.running ++ s.pendingDispatch
    launched := s.launched ++ s.pendingDispatch
    pendingDispatch := [] }

def drainDone (s : ServerConn δ) : ServerConn δ :=
  { s with
    streams := s.streams \ s.doneCh.toFinset
    closedStreams := s.closedStreams ∪ s.doneCh.toFinset
    doneCh := [] }

abbrev Result (δ : Type) := ServerConn δ × Option Error

def onTrailingBlock (s : ServerConn δ) (id : ℕ) (headers : OrderedHeaders) (endStream : Bool) :
    Result δ :=
  match s.stream id with
  | none => (s, none)
  | some ss =>
    match ss.recvTrailingHeaders id headers endStream with
    | .error err => (s, some err)
    | .ok ss' =>
      let s' := s.setStream id ss'
      (if endStream then s'.queueDispatch id else s', none)

def admitStream (s : ServerConn δ) (id : ℕ) (headers : OrderedHeaders) (endStream : Bool) :
    Result δ :=
  let ss := newServerStream s.clientS.effectiveInitialWindow (wrap32 s.settings.initialWindowSize)
  match ss.recvHeaders id headers endStream with
  | .error err => (s, some err)
  | .ok ss' =>
    if s.streams.card ≥ s.settings.maxConcurrentStreams then
      (s, some (streamError .refusedStream id "max concurrent streams exceeded"))
    else
      let s' := { s.setStream id ss' with
        streams := insert id s.streams
        lastInID := if id > s.lastInID then id else s.lastInID }
      (if endStream then s'.queueDispatch id else s', none)

def onDecodedBlock (s : ServerConn δ) (id : ℕ) (headers : OrderedHeaders) (endStream : Bool)
    (priority : Option ℕ) : Result δ :=
  if id ∈ s.streams then s.onTrailingBlock id headers endStream
  else if id ∈ s.closedStreams then
    (s, some (connError .streamClosed "HEADERS on closed stream"))
  else if s.peerGoaway then
    (s, some (streamError .refusedStream id "peer sent GOAWAY; rejecting new stream"))
  else if id % 2 = 0 then (s, some (connError .protocolError "even client stream id"))
  else if id ≤ s.lastInID then
    (s, some (connError .protocolError "stream id not monotonically increasing"))
  else if priority = some id then
    (s, some (streamError .protocolError id "HEADERS self-dependency"))
  else s.admitStream id headers endStream

def onHeaderBlock (dec : BlockDecoder δ) (s : ServerConn δ) (id : ℕ) (block : Bytes)
    (endStream : Bool) (priority : Option ℕ) : Result δ :=
  let s := s.drainDone
  match dec s.hpack block with
  | none => (s, some (connError .compressionError "HPACK decode failed"))
  | some (headers, hpack) =>
    ({ s with hpack := hpack } : ServerConn δ).onDecodedBlock id headers endStream priority

def onHeaders (dec : BlockDecoder δ) (s : ServerConn δ) (id : ℕ) (fragment : Bytes)
    (endHeaders endStream : Bool) (priority : Option ℕ) : Result δ :=
  if !endHeaders then ({ s with hdrAccum := some ⟨id, fragment, endStream, priority⟩ }, none)
  else s.onHeaderBlock dec id fragment endStream priority

def onContinuation (dec : BlockDecoder δ) (s : ServerConn δ) (id : ℕ) (fragment : Bytes)
    (endHeaders : Bool) : Result δ :=
  match appendContinuation s.hdrAccum id fragment with
  | .error err => ({ s with hdrAccum := none }, some err)
  | .ok a =>
    if !endHeaders then ({ s with hdrAccum := some a }, none)
    else ({ s with hdrAccum := none } : ServerConn δ).onHeaderBlock dec a.stream a.buf a.endStream
      a.priority

def debitConn (s : ServerConn δ) (dataLen : ℤ) : ServerConn δ :=
  let debit := s.recvDebitSinceLastUpdate + dataLen
  if debit ≥ recvWindowUpdateThreshold then
    ({ s with
      recvW := (s.recvW.replenish (-dataLen)).replenish debit
      recvDebitSinceLastUpdate := 0 } : ServerConn δ).write (.windowUpdate 0 debit)
  else
    { s with
      recvW := s.recvW.replenish (-dataLen)
      recvDebitSinceLastUpdate := debit }

def debitStream (s : ServerConn δ) (id : ℕ) (ss : ServerStream) (dataLen : ℤ) (endStream : Bool) :
    ServerConn δ :=
  let debit := ss.recvDebitSinceLastUpdate + dataLen
  if !endStream && decide (debit ≥ recvWindowUpdateThreshold) then
    (s.setStream id { ss with
      recvW := (ss.recvW.replenish (-dataLen)).replenish debit
      recvDebitSinceLastUpdate := 0 }).write (.windowUpdate id debit)
  else
    s.setStream id { ss with
      recvW := ss.recvW.replenish (-dataLen)
      recvDebitSinceLastUpdate := debit }

def acceptData (s : ServerConn δ) (id : ℕ) (ss : ServerStream) (dataLen : ℤ) (endStream : Bool) :
    ServerConn δ :=
  let s' :=
    if dataLen > 0 then (s.debitConn dataLen).debitStream id ss dataLen endStream
    else s.setStream id ss
  if endStream then s'.queueDispatch id else s'

def onData (s : ServerConn δ) (id : ℕ) (payload : Bytes) (endStream : Bool) : Result δ :=
  let s := s.drainDone
  if id ∈ s.streams then
    match s.stream id with
    | none => (s, none)
    | some ss =>
      match ss.recvData id payload endStream with
      | .error err => (s, some err)
      | .ok ss' => (s.acceptData id ss' payload.length endStream, none)
  else if id > s.lastInID then (s, some (connError .protocolError "DATA on idle stream"))
  else if id ∈ s.closedStreams then
    (s, some (streamError .streamClosed id "DATA on closed stream"))
  else (s, some (streamError .streamClosed id "DATA on unknown stream"))

def walkFits (s : ServerConn δ) (delta : ℤ) : Prop :=
  ∀ id ∈ s.streams, ∀ ss ∈ s.stream id, ss.sendW.fits delta = true

instance (s : ServerConn δ) (delta : ℤ) : Decidable (s.walkFits delta) :=
  inferInstanceAs (Decidable (∀ id ∈ s.streams, ∀ ss ∈ s.stream id, ss.sendW.fits delta = true))

def walkStreams (s : ServerConn δ) (delta : ℤ) : ServerConn δ :=
  { s with stream := fun id =>
      if id ∈ s.streams then
        (s.stream id).map (fun ss =>
          { ss with sendW := ⟨ss.sendW.n + delta, ss.sendW.exact + delta⟩ })
      else s.stream id }

/-- One parameter of an accepted SETTINGS frame.  Where the walk finds a window it would push out
of range the connection ends, and the windows it had moved by then are not followed. -/
def applySetting (s : ServerConn δ) (st : Setting) : Result δ :=
  match st.id with
  | .maxConcurrentStreams =>
    ({ s with clientS := { s.clientS with maxConcurrentStreams := st.val } }, none)
  | .initialWindowSize =>
    let delta := wrap32 (wrap32 st.val - s.clientS.effectiveInitialWindow)
    let s' := { s with clientS :=
      { s.clientS with initialWindowSize := st.val, initialWindowSizeAnnounced := true } }
    if delta = 0 then (s', none)
    else if s'.walkFits delta then (s'.walkStreams delta, none)
    else (s', some (connError .flowControlError
      "SETTINGS_INITIAL_WINDOW_SIZE adjustment overflows a stream's send window"))
  | .maxFrameSize => ({ s with clientS := { s.clientS with maxFrameSize := st.val } }, none)
  | .headerTableSize =>
    ({ s with
      clientS := { s.clientS with headerTableSize := st.val }
      encoderTable := encoderLimit st.val }, none)
  | .enablePush => ({ s with clientS := { s.clientS with enablePush := st.val } }, none)
  | .other _ => (s, none)

def applySettings (s : ServerConn δ) (err : Option Error) : List Setting → Result δ
  | [] => (s, err)
  | st :: rest =>
    match s.applySetting st with
    | (s', none) => s'.applySettings err rest
    | (s', some e) => s'.applySettings (some e) rest

def onSettings (s : ServerConn δ) (ack : Bool) (params : List Setting) : Result δ :=
  if ack then (s, none)
  else match params.findSome? validateSetting with
  | some err => (s, some err)
  | none =>
    match s.applySettings none params with
    | (s', some err) => (s', some err)
    | (s', none) => (s'.write .settingsAck, none)

def onPing (s : ServerConn δ) (ack : Bool) : Result δ :=
  if ack then (s, none) else (s.write .pingAck, none)

def onWindowUpdate (s : ServerConn δ) (id : ℕ) (delta : ℤ) : Result δ :=
  if id = 0 then
    if delta = 0 then (s, some (connError .protocolError "WINDOW_UPDATE delta 0 on connection"))
    else if !s.sendW.fits delta then
      (s, some (connError .flowControlError "WINDOW_UPDATE conn-level overflow"))
    else ({ s with adding := some (0, delta) }, none)
  else if id ∈ s.streams then
    match s.stream id with
    | none => (s, none)
    | some ss =>
      if delta = 0 then (s, some (streamError .protocolError id "WINDOW_UPDATE with delta 0"))
      else if !ss.sendW.fits delta then
        (s, some (streamError .flowControlError id "WINDOW_UPDATE stream-level overflow"))
      else ({ s with adding := some (id, delta) }, none)
  else if id > s.lastInID then
    (s, some (connError .protocolError "WINDOW_UPDATE on idle stream"))
  else (s, none)

def onRSTStream (s : ServerConn δ) (id : ℕ) : Result δ :=
  if id ∈ s.streams then
    let s' := { s with
      streams := s.streams.erase id
      closedStreams := insert id s.closedStreams }
    (s'.closeStream id, none)
  else if id > s.lastInID then
    (s, some (connError .protocolError "RST_STREAM on idle stream"))
  else (s, none)

def onPriority (s : ServerConn δ) (id dependency : ℕ) : Result δ :=
  if dependency = id then
    (s, some (streamError .protocolError id "PRIORITY self-dependency"))
  else (s, none)

def checkFrameOrder (s : ServerConn δ) (f : Frame) : Option Error :=
  match s.hdrAccum, f with
  | none, .continuation _ _ _ => some (framerError 0 .protocolError)
  | none, _ => none
  | some a, .continuation id _ _ =>
    if id = a.stream then none else some (framerError 0 .protocolError)
  | some _, _ => some (framerError 0 .protocolError)

def readError (s : ServerConn δ) (f : Frame) : Option Error :=
  (parseError (min s.settings.maxFrameSize 16777215) f).orElse (fun _ => s.checkFrameOrder f)

def dispatchFrame (dec : BlockDecoder δ) (s : ServerConn δ) (f : Frame) : Result δ :=
  match f with
  | .headers id fragment endHeaders endStream priority =>
    s.onHeaders dec id fragment endHeaders endStream priority
  | .continuation id fragment endHeaders => s.onContinuation dec id fragment endHeaders
  | .data id payload _ endStream => s.onData id payload endStream
  | .settings ack params => s.onSettings ack params
  | .ping ack => s.onPing ack
  | .windowUpdate id increment => s.onWindowUpdate id increment.val
  | .rstStream id _ => s.onRSTStream id
  | .goaway => ({ s with peerGoaway := true }, none)
  | .pushPromise => (s, some (connError .protocolError "client cannot send PUSH_PROMISE"))
  | .priority id dependency => s.onPriority id dependency
  | _ => (s, none)

def abort (s : ServerConn δ) (code : ErrCode) : ServerConn δ :=
  { s.flushPendingDispatch.write (.goaway s.lastInID code) with stopped := some code }

/-- A connection error ends the loop; a stream error is answered with RST_STREAM. -/
def answer : Result δ → ServerConn δ
  | (s, none) => s
  | (s, some err) =>
    if err.stream = 0 then s.abort err.code else s.write (.rstStream err.stream err.code)

def dispatchOneFrame (dec : BlockDecoder δ) (s : ServerConn δ) (f : Frame) : ServerConn δ :=
  answer (s.dispatchFrame dec f)

/-- One turn of the frame loop.  A frame the framer rejects ends it too, without GOAWAY when the
rejection names a stream. -/
def readFrame (dec : BlockDecoder δ) (s : ServerConn δ) (f : Frame) : ServerConn δ :=
  match s.readError f with
  | none => s.dispatchOneFrame dec f
  | some err => if err.stream = 0 then s.abort err.code else { s with stopped := some err.code }

/-- The second half of a window update. -/
def addCredit (s : ServerConn δ) : ServerConn δ :=
  match s.adding with
  | none => s
  | some (0, delta) => { s with adding := none, sendW := s.sendW.replenish delta }
  | some (id, delta) =>
    match s.stream id with
    | none => { s with adding := none }
    | some ss =>
      { s.setStream id { ss with sendW := ss.sendW.replenish delta } with adding := none }

def writeHeaders (s : ServerConn δ) (id : ℕ) (endStream : Bool) : ServerConn δ :=
  let s' := s.write (.headers id endStream)
  if endStream then s'.closeStream id else s'

/-- The start of `WriteData`: nothing for a stream no longer in the map, one empty frame for an
empty end, else a call that goes through the windows. -/
def startData (s : ServerConn δ) (id len : ℕ) (endStream : Bool) : ServerConn δ :=
  if id ∈ s.streams then
    if len = 0 then
      if endStream then (s.write (.data id 0 true)).closeStream id else s
    else
      { s with
        writer := Function.update s.writer s.writers
          (some ⟨id, len, endStream, s.clientS.effectiveMaxFrame, .stream, 0, 0⟩)
        writers := s.writers + 1 }
  else if endStream then s.closeStream id else s

def setWriter (s : ServerConn δ) (k : ℕ) (w : Option Writer) : ServerConn δ :=
  { s with writer := Function.update s.writer k w }

def Writer.want (w : Writer) : ℤ :=
  if wrap32 w.remaining > w.maxFrame then w.maxFrame else wrap32 w.remaining

def reserveStream (s : ServerConn δ) (k : ℕ) : ServerConn δ :=
  match s.writer k with
  | none => s
  | some w =>
    match s.stream w.stream with
    | none => s
    | some ss =>
      if w.phase = .stream ∧ 0 < ss.sendW.n then
        let taken := ss.sendW.offer (Writer.want w)
        (s.setStream w.stream { ss with sendW := ss.sendW.take taken }).setWriter k
          (some { w with phase := .conn, streamTaken := taken })
      else s

def reserveConn (s : ServerConn δ) (k : ℕ) : ServerConn δ :=
  match s.writer k with
  | none => s
  | some w =>
    if w.phase = .conn ∧ 0 < s.sendW.n then
      let taken := s.sendW.offer w.streamTaken
      ({ s with sendW := s.sendW.take taken } : ServerConn δ).setWriter k
        (some { w with
          phase := if taken < w.streamTaken then .refund else .write
          connTaken := taken })
    else s

def refund (s : ServerConn δ) (k : ℕ) : ServerConn δ :=
  match s.writer k with
  | none => s
  | some w =>
    match s.stream w.stream with
    | none => s
    | some ss =>
      if w.phase = .refund then
        (s.setStream w.stream
          { ss with sendW := ss.sendW.replenish (w.streamTaken - w.connTaken) }).setWriter k
            (some { w with phase := .write, streamTaken := w.connTaken })
      else s

def writeChunk (s : ServerConn δ) (k : ℕ) : ServerConn δ :=
  match s.writer k with
  | none => s
  | some w =>
    if w.phase = .write then
      let left := w.remaining - w.connTaken.toNat
      let isLast := decide (left = 0) && w.endStream
      let s' := s.write (.data w.stream w.connTaken.toNat isLast)
      if left = 0 then
        let s'' := s'.setWriter k none
        if w.endStream then s''.closeStream w.stream else s''
      else s'.setWriter k
        (some { w with remaining := left, phase := .stream, streamTaken := 0, connTaken := 0 })
    else s

def cancelWrite (s : ServerConn δ) (k : ℕ) : ServerConn δ :=
  match s.writer k with
  | none => s
  | some w =>
    match w.phase with
    | .stream => s.setWriter k none
    | .conn =>
      match s.stream w.stream with
      | none => s
      | some ss =>
        (s.setStream w.stream { ss with sendW := ss.sendW.replenish w.streamTaken }).setWriter
          k none
    | _ => s

def idleWriters (s : ServerConn δ) (id : ℕ) : Bool :=
  decide (∀ k < s.writers, ∀ w ∈ s.writer k, w.stream ≠ id)

/-- The dispatch is over: the goroutine reports to `doneCh`, which holds 256 reports. -/
def finish (s : ServerConn δ) (id : ℕ) : ServerConn δ :=
  if s.idleWriters id ∧ s.doneCh.length < 256 then
    { s.closeStream id with running := s.running.erase id, doneCh := s.doneCh ++ [id] }
  else s

def snapshotBody (s : ServerConn δ) (id : ℕ) : ServerConn δ :=
  match s.stream id with
  | none => s
  | some ss => { s with bodies := s.bodies ++ [(id, ss.reqBody)] }

end ServerConn

/-- `frame`, `addCredit` and `flush` are the frame loop's; the others are a goroutine's, named by
its stream or by its `writeData` call. -/
inductive Event
  | frame (f : Frame)
  | addCredit
  | flush
  | snapshot (id : ℕ)
  | headers (id : ℕ) (endStream : Bool)
  | data (id len : ℕ) (endStream : Bool)
  | reserveStream (writer : ℕ)
  | reserveConn (writer : ℕ)
  | refund (writer : ℕ)
  | chunk (writer : ℕ)
  | cancel (writer : ℕ)
  | reset (id : ℕ) (code : ErrCode)
  | finish (id : ℕ)
  deriving DecidableEq

namespace ServerConn

variable {δ : Type}

/-- The frame loop takes no frame between the halves of a window update, and none at all once it
has ended; the goroutines go on until the connection is closed under them. -/
def step (dec : BlockDecoder δ) (s : ServerConn δ) : Event → ServerConn δ
  | .frame f => if s.stopped = none ∧ s.adding = none then s.readFrame dec f else s
  | .addCredit => s.addCredit
  | .flush => if s.stopped = none ∧ s.adding = none then s.flushPendingDispatch else s
  | .snapshot id => if id ∈ s.running then s.snapshotBody id else s
  | .headers id endStream => if id ∈ s.running then s.writeHeaders id endStream else s
  | .data id len endStream => if id ∈ s.running then s.startData id len endStream else s
  | .reserveStream k => s.reserveStream k
  | .reserveConn k => s.reserveConn k
  | .refund k => s.refund k
  | .chunk k => s.writeChunk k
  | .cancel k => s.cancelWrite k
  | .reset id code =>
    if id ∈ s.running then (s.write (.rstStream id code)).closeStream id else s
  | .finish id => if id ∈ s.running then s.finish id else s

/-- The connection after a run. -/
def run (dec : BlockDecoder δ) (s : ServerConn δ) (es : List Event) : ServerConn δ :=
  es.foldl (step dec) s

end ServerConn

end EnvoyGo.H2

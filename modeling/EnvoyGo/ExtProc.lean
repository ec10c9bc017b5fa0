import EnvoyGo.FilterChain
import Mathlib.Algebra.Group.Int.Defs

/-!
The ext_proc filter: its configuration, the messages of the processor, and the four stages
of an exchange with it.  A stage is dispatched by a callback and completed by a goroutine
while the dispatch goroutine is parked; what the goroutine finds is the processor's choice
and part of the client the filter is built with.
-/

namespace EnvoyGo.ExtProc

inductive Stage
  | requestHeaders
  | responseHeaders
  | requestBody
  | responseBody
  deriving DecidableEq

inductive HeaderSendMode
  | defaultMode
  | send
  | skip
  | unknown (code : Int)
  deriving DecidableEq

inductive BodySendMode
  | none
  | streamed
  | buffered
  | bufferedPartial
  | fullDuplexStreamed
  | unknown (code : Int)
  deriving DecidableEq

structure ProcessingMode where
  requestHeaderMode : HeaderSendMode := .defaultMode
  responseHeaderMode : HeaderSendMode := .defaultMode
  requestBodyMode : BodySendMode := .none
  responseBodyMode : BodySendMode := .none
  requestTrailerMode : HeaderSendMode := .defaultMode
  responseTrailerMode : HeaderSendMode := .defaultMode
  deriving DecidableEq

def bodyModeIsNoneOrBuffered (m : BodySendMode) : Bool := m == .none || m == .buffered

def headerModeTranslate : HeaderSendMode → HeaderSendMode
  | .defaultMode => .send
  | .skip => .skip
  | .send => .send
  | .unknown _ => .send

def trailerModeIsSkipOrDefault (m : HeaderSendMode) : Bool := m == .defaultMode || m == .skip

def errProcessingModeHTTPServiceBody : String :=
  "ext_proc: processing_mode: http_service mode requires request_body_mode=NONE + " ++
  "response_body_mode=NONE (per proto's ExtProcHttpService constraint; PERMANENT — the 19.2 " ++
  "§Decision AMENDMENT lift applies to the gRPC-service arm only)"

def errProcessingModeBodyStreamedClass (field : String) : String :=
  "ext_proc: processing_mode: " ++ field ++ " must be NONE or BUFFERED (STREAMED + " ++
  "BUFFERED_PARTIAL + FULL_DUPLEX_STREAMED permanently out of envelope per parent §4.4 + " ++
  "ADR-0168 §Decision AMENDMENT)"

def errProcessingModeTrailerNotSKIP (field : String) : String :=
  "ext_proc: processing_mode: " ++ field ++ " must be SKIP (trailers permanently out of envelope)"

def resolveProcessingMode (pm : Option ProcessingMode) (httpServiceMode : Bool) :
    Except String ProcessingMode :=
  let raw := pm.getD {}
  if httpServiceMode && (raw.requestBodyMode != .none || raw.responseBodyMode != .none) then
    .error errProcessingModeHTTPServiceBody
  else if !bodyModeIsNoneOrBuffered raw.requestBodyMode then
    .error (errProcessingModeBodyStreamedClass "request_body_mode")
  else if !bodyModeIsNoneOrBuffered raw.responseBodyMode then
    .error (errProcessingModeBodyStreamedClass "response_body_mode")
  else if !trailerModeIsSkipOrDefault raw.requestTrailerMode then
    .error (errProcessingModeTrailerNotSKIP "request_trailer_mode")
  else if !trailerModeIsSkipOrDefault raw.responseTrailerMode then
    .error (errProcessingModeTrailerNotSKIP "response_trailer_mode")
  else .ok
    { requestHeaderMode := headerModeTranslate raw.requestHeaderMode
      responseHeaderMode := headerModeTranslate raw.responseHeaderMode
      requestBodyMode := raw.requestBodyMode
      responseBodyMode := raw.responseBodyMode
      requestTrailerMode := .skip
      responseTrailerMode := .skip }

inductive AppendAction
  | appendIfExistsOrAdd
  | addIfAbsent
  | overwriteIfExistsOrAdd
  | overwriteIfExists
  | unknown (code : Int)
  deriving DecidableEq

structure HeaderValue where
  key : String
  value : String
  rawValue : Bytes := []

structure HeaderValueOption where
  header : Option HeaderValue
  appendAction : AppendAction := .appendIfExistsOrAdd

structure HeaderMutation where
  setHeaders : List HeaderValueOption := []
  removeHeaders : List String := []

inductive BodyMutation
  | unset
  | body (newBody : Bytes)
  | clearBody (clear : Bool)
  | streamedResponse
  deriving DecidableEq

structure CommonResponse where
  continueAndReplace : Bool := false
  headerMutation : Option HeaderMutation := none
  bodyMutation : Option BodyMutation := none

structure ImmediateResponse where
  status : Option Int := none
  headers : Option HeaderMutation := none
  body : Bytes := []
  grpcStatus : Option Nat := none

inductive ResponseArm
  | unset
  | stage (s : Stage) (response : Option CommonResponse)
  | requestTrailers
  | responseTrailers
  | immediateResponse (ir : ImmediateResponse)

structure ProcessingResponse where
  response : ResponseArm
  modeOverride : Option ProcessingMode := none
  overrideMessageTimeout : Option Int := none

/-- An open stream: the error of each stage's `Send`, and what the calls of `Recv` return one
after the other.  Past the end of the list `Recv` never returns. -/
structure ProcessStream where
  send : Stage → Option String
  inbox : List (Except String ProcessingResponse)

structure ProcessorClient where
  process : Stage → Except String ProcessStream

structure HTTPAnswer where
  statusCode : Int
  body : Except String Bytes

/-- The HTTP transport with the JSON codec; `roundTrip` is `none` where the call never returns. -/
structure HTTPProcessorClient where
  marshalProcessingRequest : Stage → Except String Bytes
  newRequestErr : Option String
  roundTrip : Stage → Option (Except String HTTPAnswer)
  unmarshalProcessingResponse : Bytes → Except String ProcessingResponse

structure MutationRules where
  allowAllRouting : Bool := false
  allowEnvoy : Bool := false
  disallowSystem : Bool := false
  disallowAll : Bool := false

def MutationRules.isAllowed (r : MutationRules) (name : String) : Bool :=
  let lower := toLower name
  if r.disallowAll then false
  else if ["host", ":authority", ":scheme", ":method"].contains lower then r.allowAllRouting
  else if r.disallowSystem && hasPrefix lower ":" then false
  else if hasPrefix lower "x-envoy" then r.allowEnvoy
  else true

structure CompiledConfig where
  grpcClient : Option ProcessorClient := none
  httpClient : Option HTTPProcessorClient := none
  httpServiceHeadersOnly : Bool := false
  processingMode : ProcessingMode := {}
  allowModeOverride : Bool := false
  allowedOverrideModes : List ProcessingMode := []
  failureModeAllow : Bool := false
  messageTimeout : Int := 0
  maxMessageTimeout : Int := 0
  disableImmediateResponse : Bool := false
  mutationRules : MutationRules := {}

inductive RouteCacheAction
  | defaultAction
  | clear
  | retain
  deriving DecidableEq

/-- The configuration message.  A service comes with the client its constructor builds, or
with the constructor's error. -/
structure ExternalProcessor where
  grpcService : Option (Except String ProcessorClient) := none
  httpService : Option (Except String HTTPProcessorClient) := none
  observabilityMode : Bool := false
  sendBodyWithoutWaitingForHeaderResponse : Bool := false
  deferredCloseTimeout : Option Int := none
  failureModeAllow : Bool := false
  messageTimeout : Option Int := none
  maxMessageTimeout : Option Int := none
  disableImmediateResponse : Bool := false
  routeCacheAction : RouteCacheAction := .defaultAction
  disableClearRouteCache : Bool := false
  processingMode : Option ProcessingMode := none
  mutationRules : Option MutationRules := none
  allowModeOverride : Bool := false
  allowedOverrideModes : List ProcessingMode := []

def millisecond : Int := 10^6

def durationOrDefault (d : Option Int) (fallback : Int) : Int := d.getD fallback

def buildProcessorClient (raw : ExternalProcessor) : Except String CompiledConfig :=
  match raw.grpcService, raw.httpService with
  | none, none =>
    .error "ext_proc: exactly one of grpc_service or http_service must be set (neither set)"
  | some _, some _ =>
    .error "ext_proc: exactly one of grpc_service or http_service must be set (both set)"
  | some gs, none => gs.map (fun pc => { grpcClient := some pc })
  | none, some hs => hs.map (fun hc => { httpClient := some hc, httpServiceHeadersOnly := true })

def checkUnsupported (raw : ExternalProcessor) : Except String Unit :=
  if raw.observabilityMode then
    .error ("ext_proc: observability_mode not supported (STREAMED-only flag, out of envelope " ++
      "per parent §5.P10)")
  else if raw.sendBodyWithoutWaitingForHeaderResponse then
    .error ("ext_proc: send_body_without_waiting_for_header_response not supported " ++
      "(STREAMED-only flag, out of envelope per parent §5.P10)")
  else if raw.deferredCloseTimeout.any (fun d => 0 < d) then
    .error ("ext_proc: deferred_close_timeout not supported (observability_mode-coupled " ++
      "STREAMED-only flag, out of envelope per parent §5.P10)")
  else if raw.routeCacheAction != .defaultAction && raw.disableClearRouteCache then
    .error "ext_proc: only one of route_cache_action or disable_clear_route_cache can be set"
  else .ok ()

def resolveOverrideModes (httpServiceMode : Bool) (i : Nat) :
    List ProcessingMode → Except String (List ProcessingMode)
  | [] => .ok []
  | am :: rest =>
    match resolveProcessingMode (some am) httpServiceMode with
    | .error err => .error ("ext_proc: allowed_override_modes[" ++ Nat.repr i ++ "]: " ++ err)
    | .ok mode => (resolveOverrideModes httpServiceMode (i + 1) rest).map (fun ms => mode :: ms)

/-- The service oneof is looked at before the flags and its client built after them. -/
def buildCompiledConfig (raw : ExternalProcessor) : Except String CompiledConfig :=
  match raw.grpcService.isSome == raw.httpService.isSome, checkUnsupported raw with
  | true, _ => buildProcessorClient raw
  | false, .error err => .error err
  | false, .ok () =>
    match buildProcessorClient raw with
    | .error err => .error err
    | .ok base =>
      match resolveProcessingMode raw.processingMode base.httpServiceHeadersOnly with
      | .error err => .error ("ext_proc: processing_mode: " ++ err)
      | .ok mode =>
        (resolveOverrideModes base.httpServiceHeadersOnly 0 raw.allowedOverrideModes).map
          (fun modes => { base with
            processingMode := mode
            allowModeOverride := raw.allowModeOverride
            allowedOverrideModes := modes
            failureModeAllow := raw.failureModeAllow
            messageTimeout := durationOrDefault raw.messageTimeout (200 * millisecond)
            maxMessageTimeout := durationOrDefault raw.maxMessageTimeout 0
            disableImmediateResponse := raw.disableImmediateResponse
            mutationRules := raw.mutationRules.getD {} })

/-- The per-route message; an override of the service comes with the client it builds. -/
inductive ExtProcPerRoute
  | unset
  | disabled (value : Bool)
  | overrides (processingMode : Option ProcessingMode)
      (grpcService : Option (Except String ProcessorClient))

structure ResolvedPerRoute where
  disabled : Bool := false
  effectiveProcessingMode : Option ProcessingMode := none
  grpcService : Option (Except String ProcessorClient) := none
  processorClient : Option ProcessorClient := none

def parseExtProcPerRoute (httpServiceMode : Bool) :
    ExtProcPerRoute → Except String ResolvedPerRoute
  | .unset =>
    .error ("ext_proc: per-route: override oneof is required (set either disabled:true or " ++
      "overrides)")
  | .disabled false =>
    .error ("ext_proc: per-route: disabled must be true (PGV const:true violation; " ++
      "disabled:false is not meaningful)")
  | .disabled true => .ok { disabled := true }
  | .overrides pm gs =>
    if httpServiceMode && gs.isSome then
      .error ("ext_proc: per-route: overrides.grpc_service incompatible with http_service " ++
        "listener (cross-mode per-route override not supported per proto)")
    else match pm with
    | none => .ok { grpcService := gs }
    | some mode =>
      match resolveProcessingMode (some mode) httpServiceMode with
      | .error err => .error ("ext_proc: per-route: overrides.processing_mode: " ++ err)
      | .ok resolved => .ok { effectiveProcessingMode := some resolved, grpcService := gs }

/-- A message that does not parse, or whose client cannot be built, leaves the listener's
configuration in force. -/
def resolvePerRouteConfig (cc : CompiledConfig) (msg : Option ExtProcPerRoute) :
    ResolvedPerRoute :=
  match msg with
  | none => {}
  | some raw =>
    match parseExtProcPerRoute cc.httpServiceHeadersOnly raw with
    | .error _ => {}
    | .ok fresh =>
      match fresh.grpcService with
      | none => fresh
      | some (.error _) => {}
      | some (.ok client) => { fresh with processorClient := some client }

def pickActiveProcessorClient (cc : CompiledConfig) (pr : ResolvedPerRoute) :
    Option ProcessorClient :=
  pr.processorClient <|> cc.grpcClient

inductive StageEnd
  | inFlight
  | crashed
  | openFailed
  | failed
  | refused
  | accepted
  deriving DecidableEq

inductive Direction
  | request
  | response
  deriving DecidableEq

/-- The per-stream fields of the filter.  `pending` is the stage whose goroutine is at work
and `ends` the history of the stages. -/
structure FilterState where
  activeProcessingMode : ProcessingMode
  activeMsgTimeout : Int
  stream : Option ProcessStream := none
  overrideApplied : List Stage := []
  requestContentType : String := ""
  immediateResponseEmitted : Bool := false
  decodeHeadersStashed : Bool := false
  encodeHeadersStashed : Bool := false
  decodeBodyBuf : Bytes := []
  encodeBodyBuf : Bytes := []
  skipBodyStageDispatch : Direction → Bool := fun _ => false
  pending : Option Stage := none
  ends : Stage → Option StageEnd := fun _ => none

def newFilter (cc : CompiledConfig) : FilterState :=
  { activeProcessingMode := cc.processingMode, activeMsgTimeout := cc.messageTimeout }

def FilterState.mark (st : FilterState) (s : Stage) (e : StageEnd) : FilterState :=
  { st with ends := Function.update st.ends s (some e) }

def FilterState.bodyMode (st : FilterState) : Direction → BodySendMode
  | .request => st.activeProcessingMode.requestBodyMode
  | .response => st.activeProcessingMode.responseBodyMode

def bodyModeActive (st : FilterState) (d : Direction) : Bool := st.bodyMode d == .buffered

def Stage.direction : Stage → Direction
  | .requestHeaders => .request
  | .requestBody => .request
  | .responseHeaders => .response
  | .responseBody => .response

def isHeaderResponseStage (s : Stage) : Bool := s == .requestHeaders || s == .responseHeaders

def isModeInAllowlist (mode : ProcessingMode) (allowlist : List ProcessingMode) : Bool :=
  allowlist.isEmpty || allowlist.contains mode

/-- At most one accepted override for a stage, within `[1ms, max_message_timeout]`. -/
def handleOverrideMessageTimeout (cc : CompiledConfig) (s : Stage) (d : Int) (st : FilterState) :
    FilterState :=
  if cc.maxMessageTimeout < millisecond then st
  else if st.overrideApplied.contains s then st
  else if d < millisecond ∨ d > cc.maxMessageTimeout then st
  else { st with overrideApplied := s :: st.overrideApplied, activeMsgTimeout := d }

def setHeader (rules : MutationRules) (live : Header × Bool) (hv : HeaderValueOption) :
    Header × Bool :=
  match hv.header with
  | none => live
  | some header =>
    let value := if header.rawValue = [] then header.value else bytesText header.rawValue
    if header.key = "" then live
    else if !rules.isAllowed header.key then (live.1, true)
    else match hv.appendAction with
    | .appendIfExistsOrAdd => (Header.add live.1 header.key value, live.2)
    | .overwriteIfExists =>
      if Header.get live.1 header.key ≠ "" then (Header.set live.1 header.key value, live.2)
      else live
    | .addIfAbsent =>
      if Header.get live.1 header.key = "" then (Header.set live.1 header.key value, live.2)
      else live
    | .overwriteIfExistsOrAdd => (Header.set live.1 header.key value, live.2)
    | .unknown _ => (Header.set live.1 header.key value, live.2)

def removeHeader (rules : MutationRules) (live : Header × Bool) (name : String) : Header × Bool :=
  if name = "" then live
  else if !rules.isAllowed name then (live.1, true)
  else (Header.del live.1 name, live.2)

def applyHeaderMutation (rules : MutationRules) (hm : HeaderMutation) (live : Header) :
    Header × Bool :=
  hm.removeHeaders.foldl (removeHeader rules) (hm.setHeaders.foldl (setHeader rules) (live, false))

def mutateHeaders (cc : CompiledConfig) (s : Stage) (hm : HeaderMutation)
    (w : World FilterState) : World FilterState :=
  match s with
  | .requestHeaders =>
    if w.filters.decodeHeadersStashed then
      { w with request := (applyHeaderMutation cc.mutationRules hm w.request).1 }
    else w
  | .responseHeaders =>
    if w.filters.encodeHeadersStashed then
      { w with response := (applyHeaderMutation cc.mutationRules hm w.response).1 }
    else w
  | .requestBody => w
  | .responseBody => w

def writeBodyMutation (d : Direction) (newBody : Bytes) (w : World FilterState) :
    World FilterState :=
  match d with
  | .request =>
    { w with
      filters := { w.filters with decodeBodyBuf := newBody }
      request := if w.filters.decodeHeadersStashed then
          Header.set w.request "content-length" (Nat.repr newBody.length)
        else w.request }
  | .response =>
    { w with
      filters := { w.filters with encodeBodyBuf := newBody }
      response := if w.filters.encodeHeadersStashed then
          Header.set w.response "content-length" (Nat.repr newBody.length)
        else w.response }

def applyBodyMutation (s : Stage) (bm : BodyMutation) (w : World FilterState) :
    Option (World FilterState) :=
  match bm with
  | .body newBody => some (writeBodyMutation s.direction newBody w)
  | .clearBody true => some (writeBodyMutation s.direction [] w)
  | .clearBody false => some w
  | .streamedResponse => none
  | .unset => some w

def updateState (f : FilterState → FilterState) (w : World FilterState) : World FilterState :=
  { w with filters := f w.filters }

inductive Action
  | actContinue
  | actStop
  | actError
  | actImmediate
  | actContinueButStillWaiting
  deriving DecidableEq

def errStageMismatch : String :=
  "ext_proc: stage-mismatch: processor returned a ProcessingResponse for a different stage " ++
  "than the filter dispatched"

def errStreamedResponseBodyMutationUnsupported : String :=
  "ext_proc: streamed_response body mutation not supported (STREAMED body modes " ++
  "out-of-envelope per parent §4.4)"

def immediateHeaders (rules : MutationRules) (hm : HeaderMutation) : OrderedHeaders :=
  hm.setHeaders.filterMap (fun hv => hv.header.bind (fun header =>
    if header.key = "" || !rules.isAllowed header.key then none
    else some ⟨header.key, header.value⟩))

/-- The local reply of an `ImmediateResponse`; a gRPC request gets the body as a header. -/
def emitImmediateResponse (cc : CompiledConfig) (ir : ImmediateResponse) (st : FilterState) :
    LocalReply :=
  let status := (ir.status.filter (fun code => 0 < code)).getD 200
  let headers := (ir.headers.map (immediateHeaders cc.mutationRules)).getD []
  let hasContentType := headers.any (fun hf => equalFold hf.name "content-type")
  if equalFold st.requestContentType "application/grpc" then
    { status := status
      body := []
      headers := headers ++
        (if ir.body.length > 0 then [⟨"grpc-message", bytesText ir.body⟩] else []) ++
        (if hasContentType then [] else [⟨"content-type", "application/grpc"⟩]) ++
        (match ir.grpcStatus with
          | some code => [⟨"grpc-status", Nat.repr code⟩]
          | none => []) }
  else
    { status := status
      body := ir.body
      headers := headers ++
        (if !hasContentType && decide (ir.body.length > 0) then [⟨"content-type", "text/plain"⟩]
          else []) }

/-- `(action, error)` of `applyProcessingResponse` with what it did on the way. -/
structure Applied where
  action : Action
  err : Option String
  reply : Option LocalReply
  world : World FilterState

def commonResponse (s : Stage) (resp : ProcessingResponse) : Option CommonResponse :=
  match resp.response with
  | .stage s' response => if s' = s then response else none
  | _ => none

/-- A mode override counts on header stages only; one that is not valid or not allowed is
passed over. -/
def applyModeOverride (cc : CompiledConfig) (s : Stage) (mo : Option ProcessingMode)
    (mode : ProcessingMode) : ProcessingMode :=
  if mo.isSome && isHeaderResponseStage s && cc.allowModeOverride then
    match resolveProcessingMode mo cc.httpServiceHeadersOnly with
    | .ok newMode => if isModeInAllowlist newMode cc.allowedOverrideModes then newMode else mode
    | .error _ => mode
  else mode

def overrideMode (cc : CompiledConfig) (s : Stage) (mo : Option ProcessingMode)
    (st : FilterState) : FilterState :=
  { st with activeProcessingMode := applyModeOverride cc s mo st.activeProcessingMode }

def applyHeaderStep (cc : CompiledConfig) (s : Stage) (cr : CommonResponse)
    (w : World FilterState) : World FilterState :=
  match cr.headerMutation with
  | some hm => mutateHeaders cc s hm w
  | none => w

def applyBodyStep (s : Stage) (cr : CommonResponse) (w : World FilterState) :
    Option (World FilterState) :=
  match cr.bodyMutation with
  | some bm => applyBodyMutation s bm w
  | none => some w

def applyCommonResponse (cc : CompiledConfig) (s : Stage) (cr : CommonResponse)
    (w : World FilterState) : Applied :=
  match applyBodyStep s cr (applyHeaderStep cc s cr w) with
  | none =>
    { action := .actError
      err := some errStreamedResponseBodyMutationUnsupported
      reply := none
      world := applyHeaderStep cc s cr w }
  | some w2 =>
    if cr.continueAndReplace && isHeaderResponseStage s && bodyModeActive w2.filters s.direction
    then
      { action := .actContinueButStillWaiting
        err := none
        reply := none
        world := { w2 with filters := { w2.filters with
          skipBodyStageDispatch :=
            Function.update w2.filters.skipBodyStageDispatch s.direction true } } }
    else { action := .actContinue, err := none, reply := none, world := w2 }

def applyProcessingResponse (cc : CompiledConfig) (s : Stage) (resp : ProcessingResponse)
    (w : World FilterState) : Applied :=
  match resp.response, resp.overrideMessageTimeout with
  | .immediateResponse ir, _ =>
    if cc.disableImmediateResponse then
      { action := .actContinue, err := none, reply := none, world := w }
    else
      { action := .actImmediate
        err := none
        reply := some (emitImmediateResponse cc ir w.filters)
        world := { w with filters := { w.filters with immediateResponseEmitted := true } } }
  | _, some d =>
    { action := .actContinueButStillWaiting
      err := none
      reply := none
      world := { w with filters := handleOverrideMessageTimeout cc s d w.filters } }
  | _, none =>
    let w1 := updateState (overrideMode cc s resp.modeOverride) w
    match commonResponse s resp with
    | none => { action := .actError, err := some errStageMismatch, reply := none, world := w1 }
    | some cr => applyCommonResponse cc s cr w1

/-- What the protocol asks of an answer: it is the stage's own and is carried out.  An
immediate response answers any stage; an answer that only moves the timeout answers none. -/
def answerAccepted (cc : CompiledConfig) (s : Stage) (resp : ProcessingResponse) : Bool :=
  match resp.response, resp.overrideMessageTimeout with
  | .immediateResponse _, _ => !cc.disableImmediateResponse
  | _, some _ => false
  | _, none => (commonResponse s resp).any (fun cr => cr.bodyMutation != some .streamedResponse)

def verdict (cc : CompiledConfig) (s : Stage) (resp : ProcessingResponse) : StageEnd :=
  if answerAccepted cc s resp then .accepted else .refused

def dispatchHTTPStage (hc : HTTPProcessorClient) (s : Stage) :
    Option (Except String ProcessingResponse) :=
  match hc.marshalProcessingRequest s, hc.newRequestErr with
  | .error err, _ => some (.error err)
  | .ok _, some err => some (.error err)
  | .ok _, none =>
    match hc.roundTrip s with
    | none => none
    | some (.error err) => some (.error err)
    | some (.ok resp) =>
      match resp.body with
      | .error err => some (.error err)
      | .ok bytes =>
        if resp.statusCode.tdiv 100 ≠ 2 then
          some (.error ("ext_proc http_service: non-2xx status " ++
            Int.repr resp.statusCode))
        else some (hc.unmarshalProcessingResponse bytes)

/-- What the goroutine of a dispatched stage is left with: an error, an answer, or nothing for
as long as the request lives. -/
def exchangeStage (cc : CompiledConfig) (s : Stage) (stream : Option ProcessStream) :
    Option (Except String ProcessingResponse) × Option ProcessStream :=
  match cc.httpClient, stream with
  | some hc, _ => (dispatchHTTPStage hc s, stream)
  | none, none => (none, none)
  | none, some opened =>
    match opened.send s, opened.inbox with
    | some err, _ => (some (.error err), some opened)
    | none, [] => (none, some opened)
    | none, m :: rest => (some m, some { opened with inbox := rest })

def exchangedState (cc : CompiledConfig) (s : Stage) (st : FilterState) : FilterState :=
  { st with stream := (exchangeStage cc s st.stream).2 }

/-- `dispatchStage` up to the start of the goroutine.  Without a stream the goroutine calls a
nil interface and takes the process down. -/
def dispatchStage (cc : CompiledConfig) (s : Stage) (st : FilterState) : FilterState :=
  { st.mark s (if cc.httpClient.isSome || st.stream.isSome then .inFlight else .crashed) with
    pending := some s }

def signalResume : Action → Wake
  | .actStop => .ctxDone
  | _ => .resumed

def completeStage (cc : CompiledConfig) (s : Stage) :
    Except String ProcessingResponse → FilterProg FilterState Wake
  | .error _ => .touch (updateState (fun st => st.mark s .failed)) (fun _ => .done .resumed)
  | .ok resp => .touch id (fun w =>
    let a := applyProcessingResponse cc s resp w
    .touch (fun _ => updateState (fun st => st.mark s (verdict cc s resp)) a.world) (fun w' =>
      let deliver : FilterProg FilterState Wake :=
        if s = .responseBody then
          .overwriteBody w'.filters.encodeBodyBuf (.done (signalResume a.action))
        else .done (signalResume a.action)
      match a.reply with
      | some r => .sendLocalReply r deliver
      | none => deliver))

def awaitStage (cc : CompiledConfig) (s : Stage) :
    Option (Except String ProcessingResponse) → FilterProg FilterState Wake
  | none => .done .ctxDone
  | some r => completeStage cc s r

/-- The goroutine of the stage in flight, while the dispatch goroutine is parked.  A stage of
the other direction resumes the other channel. -/
def parked (cc : CompiledConfig) (d : Direction) : FilterProg FilterState Wake :=
  .touch id (fun w =>
    match w.filters.pending with
    | none => .done .ctxDone
    | some s =>
      if s.direction ≠ d ∨ w.filters.ends s = some .crashed then .done .ctxDone
      else .touch (updateState (exchangedState cc s)) (fun _ =>
        awaitStage cc s (exchangeStage cc s w.filters.stream).1))

def openStream (cc : CompiledConfig) (pr : ResolvedPerRoute) (s : Stage) :
    Except String ProcessStream :=
  match pickActiveProcessorClient cc pr with
  | none => .error "ext_proc: openProcessorStream: gRPC client not configured"
  | some client => client.process s

def withStream (cc : CompiledConfig) (st : FilterState) (stream : ProcessStream) : FilterState :=
  { st with
    stream := some stream
    activeMsgTimeout :=
      if st.activeMsgTimeout = 0 then cc.messageTimeout else st.activeMsgTimeout }

def openProcessorStream (cc : CompiledConfig) (pr : ResolvedPerRoute) (s : Stage)
    (st : FilterState) : Except String FilterState :=
  (openStream cc pr s).map (withStream cc st)

def mapTransportError {α : Type} (cc : CompiledConfig) (s : Stage)
    (k : FilterProg FilterState α) : FilterProg FilterState α :=
  if cc.failureModeAllow then k
  else match s with
  | .requestHeaders => .sendLocalReply { status := 500, body := [], headers := [] } k
  | .responseHeaders => .sendLocalReply { status := 0, body := [], headers := [] } k
  | .requestBody => k
  | .responseBody => k

/-- The end of both header callbacks: the request side opens the stream, the response side
opens one where there is none yet; then the stage is dispatched and the chain parked. -/
def startHeaderStage (cc : CompiledConfig) (pr : ResolvedPerRoute) (s : Stage) :
    FilterProg FilterState FilterHeadersStatus :=
  .touch id (fun w =>
    match (if cc.grpcClient.isSome && (s == .requestHeaders || w.filters.stream.isNone) then
        openProcessorStream cc pr s w.filters
      else .ok w.filters) with
    | .error _ => .touch (updateState (fun st => st.mark s .openFailed)) (fun _ =>
      mapTransportError cc s (.done .continueIteration))
    | .ok st => .touch (updateState (fun _ => dispatchStage cc s st)) (fun _ =>
      .done .stopIteration))

def applyRouteMode (pr : ResolvedPerRoute) (st : FilterState) : FilterState :=
  { st with activeProcessingMode := pr.effectiveProcessingMode.getD st.activeProcessingMode }

def captureRequest (w : World FilterState) : World FilterState :=
  { w with filters := { w.filters with
      requestContentType := Header.get w.request "content-type"
      decodeHeadersStashed := true } }

def decodeHeaders (cc : CompiledConfig) (pr : ResolvedPerRoute) :
    FilterProg FilterState FilterHeadersStatus :=
  if pr.disabled then .done .continueIteration
  else .touch (updateState (applyRouteMode pr)) (fun w =>
    if w.filters.activeProcessingMode.requestHeaderMode = .skip then .done .continueIteration
    else .touch captureRequest (fun _ => startHeaderStage cc pr .requestHeaders))

def encodeHeaders (cc : CompiledConfig) (pr : ResolvedPerRoute) :
    FilterProg FilterState FilterHeadersStatus :=
  .touch id (fun w =>
    if w.filters.immediateResponseEmitted || pr.disabled ||
        w.filters.activeProcessingMode.responseHeaderMode == .skip then
      .done .continueIteration
    else .touch (updateState (fun st => { st with encodeHeadersStashed := true }))
      (fun _ => startHeaderStage cc pr .responseHeaders))

def appendBody (d : Direction) (data : Bytes) (st : FilterState) : FilterState :=
  match d with
  | .request => { st with decodeBodyBuf := st.decodeBodyBuf ++ data }
  | .response => { st with encodeBodyBuf := st.encodeBodyBuf ++ data }

def bodyStage : Direction → Stage
  | .request => .requestBody
  | .response => .responseBody

/-- The skip flag is looked at before the chunk is added; only the encode side delivers the
buffer then. -/
def bodyStageEntry (cc : CompiledConfig) (d : Direction) (data : Bytes) (endStream : Bool) :
    FilterProg FilterState FilterDataStatus :=
  .touch id (fun w =>
    if !bodyModeActive w.filters d then .done .dataContinue
    else if w.filters.skipBodyStageDispatch d then
      match d with
      | .request => .done .dataContinue
      | .response => .overwriteBody w.filters.encodeBodyBuf (.done .dataContinue)
    else .touch (updateState (appendBody d data)) (fun _ =>
      if !endStream then .done .dataContinue
      else .touch (updateState (dispatchStage cc (bodyStage d))) (fun _ =>
        .done .dataStopIterationAndBuffer)))

def extProcFilter (cc : CompiledConfig) (perRoute : Option ExtProcPerRoute) :
    HTTPFilter FilterState where
  name := "envoy.filters.http.ext_proc"
  decoder := some
    { decodeHeaders := fun _ => decodeHeaders cc (resolvePerRouteConfig cc perRoute)
      decodeData := bodyStageEntry cc .request
      parked := parked cc .request }
  encoder := some
    { encodeHeaders := fun _ => encodeHeaders cc (resolvePerRouteConfig cc perRoute)
      encodeData := bodyStageEntry cc .response
      parked := parked cc .response }

end EnvoyGo.ExtProc

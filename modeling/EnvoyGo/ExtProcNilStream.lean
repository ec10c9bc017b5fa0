import EnvoyGo.ExtProcStream

/-!
Requests that take ext_proc down.  A body stage that comes before any stream was opened is
dispatched on a nil stream, on the request's body or on the body of another filter's reply.
-/

namespace EnvoyGo.ExtProc

def forbidden : LocalReply := { status := 403, body := [120], headers := [] }

def denyFilter : HTTPFilter Unit where
  name := "deny"
  decoder := some
    { decodeHeaders := fun _ => .sendLocalReply forbidden (.done .continueIteration)
      decodeData := fun _ _ => .done .dataContinue
      parked := .done .resumed }

def haltFilter : HTTPFilter Unit where
  name := "halt"
  encoder := some
    { encodeHeaders := fun _ => .done .terminateStream
      encodeData := fun _ _ => .done .dataContinue
      parked := .done .resumed }

/-- A request that the chain refuses. -/
def refusal : Exchange Unit :=
  { probe [] with chain := [denyFilter, haltFilter, routerFilter] }

section Refusal
variable (cc : CompiledConfig) (perRoute : Option ExtProcPerRoute)
  (c : FilterChain (FilterState × Unit))

def encoderOf : StreamEncoderFilter (FilterState × Unit) :=
  StreamEncoderFilter.transport FilterProg.onLeft
    { encodeHeaders := fun _ => encodeHeaders cc (resolvePerRouteConfig cc perRoute)
      encodeData := bodyStageEntry cc .response
      parked := parked cc .response }

theorem responseBody_crashes (hhttp : cc.httpClient = none) (data : Bytes)
    (rest : List (HTTPFilter (FilterState × Unit)))
    (hstream : c.world.filters.1.stream = none)
    (hskip : c.world.filters.1.skipBodyStageDispatch .response = false)
    (hmode : c.world.filters.1.activeProcessingMode.responseBodyMode = .buffered) :
    (encodeDataLoop true ((extProcFilter cc perRoute).onLeft :: rest) data
      c).2.world.filters.1.ends .responseBody = some .crashed := by
  have hactive : bodyModeActive c.world.left.filters .response = true := beq_iff_eq.mpr hmode
  have hskip' : c.world.left.filters.skipBodyStageDispatch .response = false := hskip
  generalize hv : updateState (dispatchStage cc .responseBody)
    (updateState (appendBody .response data) c.world.left) = v
  have hcrash : v.filters.ends .responseBody = some .crashed := by
    have hst : (appendBody .response data c.world.left.filters).stream = none := hstream
    rw [← hv]
    simp only [updateState, dispatchStage, mark_ends_self, hhttp, hst, Option.isSome_none,
      Bool.or_self, Bool.false_eq_true, if_false]
  have hrun : runEncodeProg (extProcFilter cc perRoute).name
      (bodyStageEntry cc .response data true).onLeft (c.enter c.world.left) =
        (.dataStopIterationAndBuffer, c.enter v) := by
    simp only [runEncodeProg, bodyStageEntry, run_onLeft_touch, id_eq, hactive, hskip',
      Bool.not_true, Bool.false_eq_true, if_false, bodyStage, hv, run_onLeft_done]
  have hpending : v.filters.pending = some .responseBody := by
    rw [← hv]
    rfl
  have hpark : runEncodeProg (extProcFilter cc perRoute).name (parked cc .response).onLeft
      (FilterChain.enter { c with encodeBuf := c.encodeBuf ++ data } v) =
        (.ctxDone, FilterChain.enter { c with encodeBuf := c.encodeBuf ++ data } v) := by
    simp only [runEncodeProg, parked, run_onLeft_touch, id_eq, hpending, hcrash, or_true, if_true,
      run_onLeft_done]
  have hsame : c.enter c.world.left = c := rfl
  rw [hsame] at hrun
  have henc : ((extProcFilter cc perRoute).onLeft : HTTPFilter (FilterState × Unit)).encoder =
      some (encoderOf cc perRoute) := rfl
  rw [encodeDataLoop, henc]
  simp only []
  have hcall : runEncodeProg ((extProcFilter cc perRoute).onLeft :
      HTTPFilter (FilterState × Unit)).name ((encoderOf cc perRoute).encodeData data true) c =
        (.dataStopIterationAndBuffer, c.enter v) := hrun
  have hreact : reactEncodeData (extProcFilter cc perRoute).onLeft (encoderOf cc perRoute) data
      true .dataStopIterationAndBuffer (c.enter v) =
        (some .ctxErr, data, FilterChain.enter { c with encodeBuf := c.encodeBuf ++ data } v) := by
    have hwake : parkEncode ((extProcFilter cc perRoute).onLeft :
        HTTPFilter (FilterState × Unit)).name (encoderOf cc perRoute)
        { c.enter v with encodeBuf := (c.enter v).encodeBuf ++ data } =
          (.ctxDone, FilterChain.enter { c with encodeBuf := c.encodeBuf ++ data } v) := hpark
    rw [reactEncodeData, hwake]
  rw [hcall]
  simp only []
  rw [hreact]
  exact hcrash

theorem encodeLocalReply_crashes (hhttp : cc.httpClient = none) {n : Nat} (hn : n = 0 ∨ n = 1)
    (hlen : c.encodeBufLen = 0) (hstream : c.world.filters.1.stream = none)
    (hskip : c.world.filters.1.skipBodyStageDispatch .response = false)
    (hmode : c.world.filters.1.activeProcessingMode.responseBodyMode = .buffered) :
    (encodeLocalReply (insertExtProc cc perRoute n refusal.chain) forbidden
      c).world.filters.1.ends .responseBody = some .crashed := by
  generalize hc1 : (runEncodeHeaders (insertExtProc cc perRoute n refusal.chain)
    (localReplyMerged forbidden) false
    { c with localReplyDone := true, encodeResponseStatus := 403 }).2 = c1
  have hheld : c1 = { c with
      localReplyDone := true, encodeResponseStatus := 403, encodeStarted := true,
      world := { c.world with response := localReplyMerged forbidden } } := by
    rw [← hc1]
    rcases hn with rfl | rfl <;> rfl
  have hdata : encodeLocalReply (insertExtProc cc perRoute n refusal.chain) forbidden c =
      (runEncodeData (insertExtProc cc perRoute n refusal.chain) [120] true c1).2 := by
    rw [← hc1]
    rfl
  have hfits : ¬c1.encodeBufLen + ([120] : Bytes).length > filterBufferLimitBytes := by
    rw [hheld]
    show ¬c.encodeBufLen + 1 > 2 ^ 20
    rw [hlen]
    decide
  rw [hdata, runEncodeData, if_neg hfits, hheld]
  rcases hn with rfl | rfl
  · exact responseBody_crashes cc perRoute _ hhttp [120] [] hstream hskip hmode
  · exact responseBody_crashes cc perRoute _ hhttp [120] [denyFilter.onRight] hstream hskip hmode

theorem refusal_crashes (hhttp : cc.httpClient = none) {n : Nat} (hn : n = 0 ∨ n = 1)
    (hinv : c.encodeStarted = false ∧ c.localReplyDone = false ∧ c.encodeBufLen = 0)
    (hstream : c.world.filters.1.stream = none)
    (hskip : c.world.filters.1.skipBodyStageDispatch .response = false)
    (hmode : c.world.filters.1.activeProcessingMode.responseBodyMode = .buffered) :
    (askLocalReply (insertExtProc cc perRoute n refusal.chain) denyFilter.name forbidden
      c).world.filters.1.ends .responseBody = some .crashed := by
  have hstart : ¬c.encodeStarted = true := by simp [hinv.1]
  have hdone : ¬c.localReplyDone = true := by simp [hinv.2.1]
  rw [askLocalReply, beginLocalReply, if_neg hstart, if_neg hdone]
  exact encodeLocalReply_crashes cc perRoute { c with asked := c.asked ++ [forbidden] } hhttp hn
    hinv.2.2 hstream hskip hmode

theorem serve_refused {n : Nat} (c1 : FilterChain (FilterState × Unit))
    (hpass : headersPass (insertExtProc cc perRoute n refusal.chain) (newFilter cc, ())
      refusal.request true = (.aborted, c1)) (hdone : c1.localReplyDone = true) :
    ((withExtProc cc perRoute n refusal).serve .http1).chain = c1 := by
  have hdecoded : decodePasses (insertExtProc cc perRoute n refusal.chain) (newFilter cc, ())
      refusal.request = .replied c1 := by
    have hnone : bodyToRead refusal.request = none := rfl
    rw [decodePasses, hnone, Option.isNone_none, hpass]
    exact if_pos hdone
  show (dispatchStream true (insertExtProc cc perRoute n refusal.chain) refusal.action none
    (newFilter cc, ()) refusal.request).chain = c1
  rw [dispatchStream, hdecoded]
  rfl

theorem refusal_turn {n : Nat} (hinv : ReplyInvariant c) (hdone : c.localReplyDone = false) :
    decodeVisit (insertExtProc cc perRoute n refusal.chain) (fun d => d.decodeHeaders true)
        (reactDecodeHeaders (insertExtProc cc perRoute n refusal.chain)) denyFilter.onRight c =
      (some .aborted, askLocalReply (insertExtProc cc perRoute n refusal.chain) denyFilter.name
        forbidden c) := by
  have hvisit := decodeVisit_of_run (insertExtProc cc perRoute n refusal.chain)
    (fun d => d.decodeHeaders true)
    (reactDecodeHeaders (insertExtProc cc perRoute n refusal.chain)) denyFilter.onRight _ rfl c
    (askLocalReply (insertExtProc cc perRoute n refusal.chain) denyFilter.name forbidden c)
    hdone .continueIteration rfl
  rw [hvisit, if_pos (askLocalReply_done _ _ _ c hinv)]

def refusalStart : FilterChain (FilterState × Unit) :=
  initialChain (newFilter cc, ()) (injectPseudoHeaders refusal.request)

theorem refused_before_crashes (hhttp : cc.httpClient = none)
    (hmode : cc.processingMode.responseBodyMode = .buffered) :
    ((withExtProc cc perRoute 1 refusal).serve .http1).chain.world.filters.1.ends
      .responseBody = some .crashed := by
  have hinv : ReplyInvariant (refusalStart cc) := ReplyInvariant.initial _
  have hpass : headersPass (insertExtProc cc perRoute 1 refusal.chain) (newFilter cc, ())
      refusal.request true = (.aborted, askLocalReply (insertExtProc cc perRoute 1 refusal.chain)
        denyFilter.name forbidden (refusalStart cc)) := by
    have hloop := decodeLoop_cons (insertExtProc cc perRoute 1 refusal.chain)
      (fun d => d.decodeHeaders true)
      (reactDecodeHeaders (insertExtProc cc perRoute 1 refusal.chain)) denyFilter.onRight
      [(extProcFilter cc perRoute).onLeft, haltFilter.onRight, routerFilter.onRight]
      (refusalStart cc)
    refine Eq.trans hloop ?_
    rw [refusal_turn cc perRoute (refusalStart cc) hinv rfl]
  rw [serve_refused cc perRoute _ hpass (askLocalReply_done _ _ _ _ hinv)]
  exact refusal_crashes cc perRoute (refusalStart cc) hhttp (.inr rfl) ⟨rfl, rfl, rfl⟩ rfl rfl
    hmode

theorem refused_behind_crashes (hhttp : cc.httpClient = none)
    (hno : opensNoStream cc (resolvePerRouteConfig cc perRoute))
    (hmode : (startMode cc (resolvePerRouteConfig cc perRoute)).responseBodyMode = .buffered) :
    ((withExtProc cc perRoute 0 refusal).serve .http1).chain.world.filters.1.ends
      .responseBody = some .crashed := by
  obtain ⟨v, hext, -, hsteer, hskip⟩ := headersTurn_unopened cc perRoute 0 refusal.chain true
    (refusalStart cc) rfl rfl hno
  have hinv : ReplyInvariant ((refusalStart cc).enter v) :=
    enter_invariant (ReplyInvariant.initial _) v
  have hpass : headersPass (insertExtProc cc perRoute 0 refusal.chain) (newFilter cc, ())
      refusal.request true = (.aborted, askLocalReply (insertExtProc cc perRoute 0 refusal.chain)
        denyFilter.name forbidden ((refusalStart cc).enter v)) := by
    have hloop := decodeLoop_cons (insertExtProc cc perRoute 0 refusal.chain)
      (fun d => d.decodeHeaders true)
      (reactDecodeHeaders (insertExtProc cc perRoute 0 refusal.chain))
      (extProcFilter cc perRoute).onLeft
      [denyFilter.onRight, haltFilter.onRight, routerFilter.onRight] (refusalStart cc)
    refine Eq.trans hloop ?_
    rw [hext]
    simp only []
    rw [decodeLoop_cons, refusal_turn cc perRoute ((refusalStart cc).enter v) hinv rfl]
  rw [serve_refused cc perRoute _ hpass (askLocalReply_done _ _ _ _ hinv)]
  refine refusal_crashes cc perRoute _ hhttp (.inl rfl) ⟨rfl, rfl, rfl⟩ hsteer.stream hskip ?_
  exact (congrArg ProcessingMode.responseBodyMode hsteer.mode).trans hmode

theorem forwarded_crashes (hhttp : cc.httpClient = none)
    (hno : opensNoStream cc (resolvePerRouteConfig cc perRoute))
    (hmode : (startMode cc (resolvePerRouteConfig cc perRoute)).requestBodyMode = .buffered) :
    ((withExtProc cc perRoute 0 (probe [120])).serve .http1).chain.world.filters.1.ends
      .requestBody = some .crashed := by
  obtain ⟨v, hext, -, hsteer, -⟩ := headersTurn_unopened cc perRoute 0 [routerFilter] false
    (probeStart cc [120]) rfl rfl hno
  have hgo : ProbeGoesOn cc perRoute [120] ((probeStart cc [120]).enter v) := ⟨hext, rfl⟩
  have hreached : bodyReached v.filters = true := by
    simp only [bodyReached, bodyModeActive, FilterState.bodyMode, hsteer.mode, hmode, hsteer.skip,
      BEq.rfl, Bool.not_false, Bool.and_self]
  have hends := bodyDispatched_ends cc [120] v
  rw [hhttp, hsteer.stream] at hends
  have hturn := probe_body_parks cc perRoute (fun _ => v) (fun _ => hreached)
  rw [park_crashed cc perRoute _ _ _ .requestBody rfl hends] at hturn
  have hdata := probe_data cc perRoute [120] _ _ _ hturn (fun hn => by cases hn)
  have hdecoded := decodePasses_probe_body hgo (List.cons_ne_nil _ _) _ hdata
  show (dispatchStream true (probeChain cc perRoute) (probe [120]).action none (newFilter cc, ())
    (probe [120]).request).chain.world.filters.1.ends .requestBody = some .crashed
  rw [dispatchStream, hdecoded]
  exact hends

end Refusal

/-- No request takes ext_proc down exactly when no body stage can come before a stream is
opened: the listener has no response body stage, and no request that goes on without a stream
starts with a body stage. -/
theorem noCrash_iff (raw : ExternalProcessor) (cc : CompiledConfig)
    (hbuild : buildCompiledConfig raw = .ok cc) (hgrpc : cc.grpcClient.isSome = true)
    (perRoute : Option ExtProcPerRoute) :
    (∀ (τ : Type) (x : Exchange τ) (n : Nat) (d : Downstream),
        NoCrash ((withExtProc cc perRoute n x).serve d).chain.world.filters.1) ↔
      streamSafe cc (resolvePerRouteConfig cc perRoute) := by
  have hhttp : cc.httpClient = none := (buildCompiledConfig_spec hbuild).2.2 hgrpc
  constructor
  · intro h
    refine ⟨?_, fun hno => ⟨?_, ?_⟩⟩
    · intro hmode
      exact h Unit refusal 1 .http1 .responseBody
        (refused_before_crashes cc perRoute hhttp hmode)
    · intro hmode
      exact h Unit (probe [120]) 0 .http1 .requestBody
        (forwarded_crashes cc perRoute hhttp hno hmode)
    · intro hmode
      exact h Unit refusal 0 .http1 .responseBody
        (refused_behind_crashes cc perRoute hhttp hno hmode)
  · intro hsafe τ x n d
    cases d with
    | http1 =>
      exact dispatchStream_noCrash cc perRoute n x.chain hgrpc hhttp hsafe true x.action
        x.writeErr x.filters x.request
    | http2 =>
      exact writeH2_noCrash cc perRoute n x.chain hgrpc hhttp hsafe x.h2Action x.writeErr
        x.filters x.request x.h2req
    | http3 =>
      exact dispatchStream_noCrash cc perRoute n x.chain hgrpc hhttp hsafe false x.action
        x.writeErr x.filters x.request

/-- A request body stage behind a request_headers stage: the stream is opened first. -/
def bufferedListener (client : ProcessorClient) : ExternalProcessor :=
  { grpcService := some (.ok client)
    processingMode := some { requestBodyMode := .buffered } }

def bufferedCompiled (client : ProcessorClient) : CompiledConfig :=
  { grpcCompiled client with
    processingMode :=
      { requestHeaderMode := .send, responseHeaderMode := .send, requestTrailerMode := .skip,
        responseTrailerMode := .skip, requestBodyMode := .buffered } }

theorem buffered_noCrash :
    buildCompiledConfig (bufferedListener brokenProcessor) =
        .ok (bufferedCompiled brokenProcessor) ∧
      NoCrash ((withExtProc (bufferedCompiled brokenProcessor) none 0 (probe [120])).serve
        .http1).chain.world.filters.1 := by
  refine ⟨rfl, ?_⟩
  have hsafe : streamSafe (bufferedCompiled brokenProcessor)
      (resolvePerRouteConfig (bufferedCompiled brokenProcessor) none) := by
    constructor
    · intro hmode
      cases hmode
    · rintro (hstarts | ⟨hallow, -⟩)
      · cases hstarts
      · cases hallow
  exact (noCrash_iff (bufferedListener brokenProcessor) (bufferedCompiled brokenProcessor) rfl rfl
    none).mpr hsafe Unit (probe [120]) 0 .http1

/-- Headers are skipped and the request's body is buffered. -/
def skippingListener (client : ProcessorClient) : ExternalProcessor :=
  { grpcService := some (.ok client)
    processingMode := some { requestHeaderMode := .skip, requestBodyMode := .buffered } }

def skippingCompiled (client : ProcessorClient) : CompiledConfig :=
  { grpcCompiled client with
    processingMode :=
      { requestHeaderMode := .skip, responseHeaderMode := .send, requestTrailerMode := .skip,
        responseTrailerMode := .skip, requestBodyMode := .buffered } }

theorem skipped_headers_crash :
    buildCompiledConfig (skippingListener brokenProcessor) =
        .ok (skippingCompiled brokenProcessor) ∧
      ((withExtProc (skippingCompiled brokenProcessor) none 0 (probe [120])).serve
        .http1).chain.world.filters.1.stream = none ∧
      ¬NoCrash ((withExtProc (skippingCompiled brokenProcessor) none 0 (probe [120])).serve
        .http1).chain.world.filters.1 := by
  refine ⟨rfl, rfl, ?_⟩
  intro h
  exact h .requestBody rfl

end EnvoyGo.ExtProc

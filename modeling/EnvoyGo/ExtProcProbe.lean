import EnvoyGo.ExtProcContained

/-!
Requests that tell whether the stages of a configuration are contained.  With the router alone
behind ext_proc nothing else can keep a request from the upstream, so a stage that fails in
any other way shows in one of them.
-/

namespace EnvoyGo.ExtProc

/-- A request with the router alone behind ext_proc.  Its body is what tells the stages apart:
without one the request_body stage is not reached. -/
def probe (body : Bytes) : Exchange Unit where
  chain := [routerFilter]
  filters := ()
  action := fun _ => ({ status := 200, headers := [], body := [] }, none)
  h2Action := fun _ => ({ status := 200, headers := [], body := [] }, none)
  writeErr := none
  request :=
    { method := "POST", host := "h", requestURI := "/", urlRequestURI := "/", header := ∅,
      contentLength := body.length, body := some { chunks := [], last := body, err := .eof } }
  h2req :=
    { method := "POST", path := "/", scheme := "https", authority := "h", headers := [],
      body := body }

section Probe
variable (cc : CompiledConfig) (perRoute : Option ExtProcPerRoute)

def probeChain : List (HTTPFilter (FilterState × Unit)) :=
  insertExtProc cc perRoute 0 [routerFilter]

def probeStart (body : Bytes) : FilterChain (FilterState × Unit) :=
  initialChain (newFilter cc, ()) (injectPseudoHeaders (probe body).request)

theorem decodeLoop_router {st : Type}
    (call : StreamDecoderFilter (FilterState × Unit) → FilterProg (FilterState × Unit) st)
    (react : HTTPFilter (FilterState × Unit) → StreamDecoderFilter (FilterState × Unit) → st →
      FilterChain (FilterState × Unit) → Option Iteration × FilterChain (FilterState × Unit))
    (hrouter : ∀ c, c.localReplyDone = false →
      decodeVisit (probeChain cc perRoute) call react routerFilter.onRight c = (none, c))
    (c c1 : FilterChain (FilterState × Unit)) (it : Option Iteration)
    (hturn : decodeVisit (probeChain cc perRoute) call react (extProcFilter cc perRoute).onLeft c =
      (it, c1))
    (hdone : it = none → c1.localReplyDone = false) :
    decodeLoop (probeChain cc perRoute) call react (probeChain cc perRoute) c =
      (it.getD .terminated, c1) := by
  have hloop := decodeLoop_cons (probeChain cc perRoute) call react
    (extProcFilter cc perRoute).onLeft [routerFilter.onRight] c
  refine Eq.trans hloop ?_
  rw [hturn]
  cases it with
  | some it => rfl
  | none =>
    simp only []
    rw [decodeLoop_cons, hrouter c1 (hdone rfl)]
    rfl

theorem probe_headers (noBody : Bool) (c c1 : FilterChain (FilterState × Unit))
    (hturn : decodeVisit (probeChain cc perRoute) (fun d => d.decodeHeaders noBody)
      (reactDecodeHeaders (probeChain cc perRoute)) (extProcFilter cc perRoute).onLeft c =
        (none, c1))
    (hdone : c1.localReplyDone = false) :
    runDecodeHeaders (probeChain cc perRoute) noBody c = (.terminated, c1) := by
  apply decodeLoop_router cc perRoute _ _ _ c c1 none hturn (fun _ => hdone)
  intro c' hc'
  have hrun := decodeVisit_of_run (probeChain cc perRoute) (fun d => d.decodeHeaders noBody)
    (reactDecodeHeaders (probeChain cc perRoute)) routerFilter.onRight _ rfl c' c' hc'
    .continueIteration rfl
  rw [hrun, if_neg (by simp [hc'])]
  rfl

theorem probe_data (body : Bytes) (c c2 : FilterChain (FilterState × Unit))
    (it : Option Iteration)
    (hturn : decodeVisit (probeChain cc perRoute) (fun d => d.decodeData body true)
      (reactDecodeData (probeChain cc perRoute) body) (extProcFilter cc perRoute).onLeft c =
        (it, c2))
    (hdone : it = none → c2.localReplyDone = false) :
    runDecodeData (probeChain cc perRoute) body true c = (it.getD .terminated, c2) := by
  apply decodeLoop_router cc perRoute _ _ _ c c2 it hturn hdone
  intro c' hc'
  have hrun := decodeVisit_of_run (probeChain cc perRoute) (fun d => d.decodeData body true)
    (reactDecodeData (probeChain cc perRoute) body) routerFilter.onRight _ rfl c' c' hc'
    .dataContinue rfl
  rw [hrun, if_neg (by simp [hc'])]
  rfl

structure ProbeGoesOn (body : Bytes) (c1 : FilterChain (FilterState × Unit)) : Prop where
  turn : decodeVisit (probeChain cc perRoute) (fun d => d.decodeHeaders (body.length == 0))
    (reactDecodeHeaders (probeChain cc perRoute)) (extProcFilter cc perRoute).onLeft
    (probeStart cc body) = (none, c1)
  done : c1.localReplyDone = false

section Forwarded
variable {cc perRoute} {body : Bytes} {c1 c2 : FilterChain (FilterState × Unit)}
  (hgo : ProbeGoesOn cc perRoute body c1)
include hgo

theorem probe_headersPass :
    headersPass (probeChain cc perRoute) (newFilter cc, ()) (probe body).request
      (body.length == 0) = (.terminated, c1) :=
  probe_headers cc perRoute _ _ c1 hgo.turn hgo.done

theorem decodePasses_probe_bodyless (hbody : body = []) :
    decodePasses (probeChain cc perRoute) (newFilter cc, ()) (probe body).request =
      .admitted c1 := by
  have hpass := probe_headersPass hgo
  subst hbody
  have hnone : bodyToRead (probe []).request = none := rfl
  have hnot : ¬c1.localReplyDone = true := by simp [hgo.done]
  unfold decodePasses decodeRequestBody
  rw [hnone, Option.isNone_none]
  simp only [List.length_nil, BEq.rfl] at hpass
  rw [hpass]
  simp only [if_neg hnot]

theorem decodePasses_probe_body (hbody : body ≠ []) (it : Iteration)
    (hdata : runDecodeData (probeChain cc perRoute) body true c1 = (it, c2)) :
    decodePasses (probeChain cc perRoute) (newFilter cc, ()) (probe body).request =
      match it with
      | .failed err => .failed err c2
      | _ => if c2.localReplyDone then .replied c2 else .admitted c2 := by
  have hpass := probe_headersPass hgo
  have hlen : body.length ≠ 0 := fun h => hbody (List.length_eq_zero_iff.mp h)
  have hsome : bodyToRead (probe body).request =
      some { chunks := [], last := body, err := .eof } :=
    if_pos (Int.natCast_ne_zero.mpr hlen)
  have hnot : ¬c1.localReplyDone = true := by simp [hgo.done]
  have hfalse : (body.length == 0) = false := beq_false_of_ne hlen
  unfold decodePasses decodeRequestBody
  rw [hsome, Option.isNone_some]
  rw [hfalse] at hpass
  rw [hpass]
  simp only [if_neg hnot, decodeBody, feedBody, hdata]
  cases it <;> rfl

end Forwarded

variable {cc perRoute} (hclient : (cc.httpClient.isSome || cc.grpcClient.isSome) = true)
include hclient

theorem clean_of_failsClosed_action {req : Type} {h1 hasRespTrailers : Bool} {request : req}
    {act : ActionResponse × Option String} {c : FilterChain (FilterState × Unit)}
    (h : FailsClosed (actionOutcome h1 hasRespTrailers (probeChain cc perRoute) none request act
      c).observe) : Clean c.world.filters.1 := by
  have hkept := (encodersKeep_requestEnds cc perRoute 0 [routerFilter (σ := Unit)] hclient
    (c.world.filters.1.ends .requestHeaders) (c.world.filters.1.ends .requestBody)).actionOutcome
    h1 hasRespTrailers none request act c ⟨rfl, rfl⟩
  have hsame : ∀ s, s.direction = .request →
      (actionOutcome h1 hasRespTrailers (probeChain cc perRoute) none request act
        c).observe.chain.world.filters.1.ends s = c.world.filters.1.ends s := by
    intro s hs
    cases s with
    | requestHeaders => exact hkept.1
    | requestBody => exact hkept.2
    | responseHeaders => cases hs
    | responseBody => cases hs
  intro s hs
  cases he : c.world.filters.1.ends s with
  | none => exact Or.inl rfl
  | some e =>
    by_cases hacc : e = .accepted
    · exact Or.inr (congrArg some hacc)
    · have hnil := (h s e hs ((hsame s hs).trans he) hacc).1
      simp only [Outcome.observe, actionOutcome_invoked, List.map_cons] at hnil
      cases hnil

theorem probe_bodyless {c1 : FilterChain (FilterState × Unit)}
    (hgo : ProbeGoesOn cc perRoute [] c1) (d : Downstream)
    (h : FailsClosed ((withExtProc cc perRoute 0 (probe [])).serve d)) :
    Clean c1.world.filters.1 := by
  have hpasses := decodePasses_probe_bodyless hgo rfl
  have hstream : ∀ h1 action, FailsClosed (dispatchStream h1 (probeChain cc perRoute) action none
      (newFilter cc, ()) (probe []).request).observe → Clean c1.world.filters.1 := by
    intro h1 action hf
    rw [dispatchStream, hpasses] at hf
    exact clean_of_failsClosed_action hclient hf
  cases d with
  | http1 => exact hstream true _ h
  | http3 => exact hstream false _ h
  | http2 =>
    have hnot : ¬c1.localReplyDone = true := by simp [hgo.done]
    have hf : FailsClosed (writeH2 (probeChain cc perRoute) (probe []).h2Action none
      (newFilter cc, ()) (probe []).request (probe []).h2req).observe := h
    rw [writeH2, show (probe []).h2req.body = [] from rfl, probe_headersPass hgo] at hf
    simp only [writeH2AfterHeaders, if_neg hnot] at hf
    exact clean_of_failsClosed_action hclient hf

section Body
variable {body : Bytes} (hbody : body ≠ []) {c1 c2 : FilterChain (FilterState × Unit)}
  (hgo : ProbeGoesOn cc perRoute body c1)
include hbody hgo

omit hclient hbody hgo in
theorem probe_stream {d : Downstream} (hproto : d ≠ .http2)
    (h : FailsClosed ((withExtProc cc perRoute 0 (probe body)).serve d)) :
    ∃ h1, FailsClosed (dispatchStream h1 (probeChain cc perRoute) (probe body).action none
      (newFilter cc, ()) (probe body).request).observe := by
  cases d with
  | http1 => exact ⟨true, h⟩
  | http2 => exact absurd rfl hproto
  | http3 => exact ⟨false, h⟩

theorem probe_body_forwarded {d : Downstream} (hproto : d ≠ .http2)
    (hdata : runDecodeData (probeChain cc perRoute) body true c1 = (.terminated, c2))
    (hdone : c2.localReplyDone = false)
    (h : FailsClosed ((withExtProc cc perRoute 0 (probe body)).serve d)) :
    Clean c2.world.filters.1 := by
  obtain ⟨h1, hf⟩ := probe_stream hproto h
  rw [dispatchStream, decodePasses_probe_body hgo hbody _ hdata] at hf
  simp only [hdone, Bool.false_eq_true, if_false] at hf
  exact clean_of_failsClosed_action hclient hf

omit hclient in
theorem probe_body_failed {d : Downstream} (hproto : d ≠ .http2) (err : ChainError)
    (hdata : runDecodeData (probeChain cc perRoute) body true c1 = (.failed err, c2))
    (h : FailsClosed ((withExtProc cc perRoute 0 (probe body)).serve d)) :
    FailsClosed (failedOutcome err c2 : Outcome (FilterState × Unit) UpstreamRequest).observe := by
  obtain ⟨h1, hf⟩ := probe_stream hproto h
  rw [dispatchStream, decodePasses_probe_body hgo hbody _ hdata] at hf
  exact hf

theorem probe_body_http2
    (hdata : runDecodeData (probeChain cc perRoute) body true c1 = (.aborted, c2))
    (h : FailsClosed ((withExtProc cc perRoute 0 (probe body)).serve .http2)) :
    Clean c2.world.filters.1 := by
  have hnot : ¬c1.localReplyDone = true := by simp [hgo.done]
  have hpos : body.length > 0 := List.length_pos_iff.mpr hbody
  have hf : FailsClosed (writeH2 (probeChain cc perRoute) (probe body).h2Action none
    (newFilter cc, ()) (probe body).request (probe body).h2req).observe := h
  rw [writeH2, show (probe body).h2req.body = body from rfl, probe_headersPass hgo] at hf
  simp only [writeH2AfterHeaders, if_neg hnot, show (probe body).h2req.body = body from rfl,
    if_pos hpos, hdata] at hf
  exact clean_of_failsClosed_action hclient hf

end Body

variable (cc perRoute) in
omit hclient in
theorem park_unaccepted (fs : List (HTTPFilter (FilterState × Unit)))
    (c : FilterChain (FilterState × Unit)) (v : World FilterState) (s : Stage)
    (hpending : v.filters.pending = some s) (hs : s.direction = .request)
    (hcrash : v.filters.ends s ≠ some .crashed)
    (hanswers : answersStage cc s (exchangeStage cc s v.filters.stream).1 = false) :
    ∃ v', parkThenAdvance fs (extProcFilter cc perRoute).onLeft (decoderOf cc perRoute)
        (c.enter v) = (none, c.enter v') ∧ ¬Settled (v'.filters.ends s) := by
  cases hx : (exchangeStage cc s v.filters.stream).1 with
  | none =>
    rw [hx] at hanswers
    cases hanswers
  | some r =>
    rw [hx] at hanswers
    cases r with
    | error err =>
      refine ⟨_, park_error cc fs c s rfl hpending hs hcrash err hx, ?_⟩
      simp only [updateState, mark_ends_self]
      exact not_settled_of_ne (by decide)
    | ok resp =>
      have hemit : emitsReply cc resp = false := by
        cases hr : resp.response with
        | immediateResponse ir =>
          have hdisabled : cc.disableImmediateResponse = true := by
            simpa [answersStage, answerAccepted, hr] using hanswers
          simp [emitsReply, hdisabled]
        | _ => simp [emitsReply, isImmediate, hr]
      refine ⟨_, park_plain cc fs c s rfl hpending hs hcrash resp hx hemit, ?_⟩
      have hrefused : verdict cc s resp = .refused := if_neg (by
        simpa [answersStage] using hanswers)
      rw [answered_ends, Function.update_self, hrefused]
      exact not_settled_of_ne (by decide)

variable (cc perRoute) in
omit hclient in
theorem park_crashed (fs : List (HTTPFilter (FilterState × Unit)))
    (c : FilterChain (FilterState × Unit)) (v : World FilterState) (s : Stage)
    (hpending : v.filters.pending = some s) (hcrash : v.filters.ends s = some .crashed) :
    parkThenAdvance fs (extProcFilter cc perRoute).onLeft (decoderOf cc perRoute) (c.enter v) =
      (some (.failed .ctxErr), { c.enter v with asked := c.asked }) := by
  have hrun : runDecodeProg fs (extProcFilter cc perRoute).name (parked cc .request).onLeft
      (c.enter v) = (.ctxDone, c.enter v) := by
    simp only [runDecodeProg, parked, run_onLeft_touch, id_eq, hpending, hcrash, or_true, if_true,
      run_onLeft_done]
  have hparked : (decoderOf cc perRoute : StreamDecoderFilter (FilterState × Unit)).parked =
      (parked cc .request).onLeft := rfl
  have hname : ((extProcFilter cc perRoute).onLeft : HTTPFilter (FilterState × Unit)).name =
      (extProcFilter cc perRoute).name := rfl
  rw [parkThenAdvance, parkDecode, hparked, hname, hrun]
  rfl

def bodyDispatched (cc : CompiledConfig) (body : Bytes) (v : World FilterState) :
    World FilterState :=
  updateState (dispatchStage cc .requestBody) (updateState (appendBody .request body) v)

variable (cc) in
omit hclient in
theorem bodyDispatched_ends (body : Bytes) (v : World FilterState) :
    (bodyDispatched cc body v).filters.ends .requestBody =
      some (if cc.httpClient.isSome || v.filters.stream.isSome then .inFlight else .crashed) := by
  simp only [bodyDispatched, updateState, dispatchStage, mark_ends_self]
  rfl

section BodyTurn
variable (cc perRoute) (body : Bytes) (c : FilterChain (FilterState × Unit))
  (hdone : c.localReplyDone = false) (v : World FilterState)
  (hreached : bodyReached v.filters = true)
include hdone hreached
omit hclient

theorem probe_bodyTurn :
    decodeVisit (probeChain cc perRoute) (fun d => d.decodeData body true)
        (reactDecodeData (probeChain cc perRoute) body) (extProcFilter cc perRoute).onLeft
        (c.enter v) =
      reactDecodeData (probeChain cc perRoute) body (extProcFilter cc perRoute).onLeft
        (decoderOf cc perRoute) .dataStopIterationAndBuffer
        (c.enter (bodyDispatched cc body v)) := by
  have hrun := bodyStageEntry_reached cc (probeChain cc perRoute)
    (extProcFilter cc perRoute).name (c.enter v) body true (v := v) hreached
  rw [if_pos rfl] at hrun
  rw [dataTurn cc perRoute (probeChain cc perRoute) true (c.enter v) _ hdone body _ hrun]
  exact if_neg (by simp [FilterChain.enter, hdone])

theorem probe_bodyTurn_over (hlen : c.decodeBuf.length + body.length > filterBufferLimitBytes) :
    decodeVisit (probeChain cc perRoute) (fun d => d.decodeData body true)
        (reactDecodeData (probeChain cc perRoute) body) (extProcFilter cc perRoute).onLeft
        (c.enter v) =
      (some .aborted, askLocalReply (probeChain cc perRoute) (extProcFilter cc perRoute).name
        localReply413 { c.enter (bodyDispatched cc body v) with decodeBufOver := true }) :=
  (probe_bodyTurn cc perRoute body c hdone v hreached).trans (if_pos hlen)

theorem probe_bodyTurn_parks (hlen : ¬c.decodeBuf.length + body.length > filterBufferLimitBytes) :
    decodeVisit (probeChain cc perRoute) (fun d => d.decodeData body true)
        (reactDecodeData (probeChain cc perRoute) body) (extProcFilter cc perRoute).onLeft
        (c.enter v) =
      parkThenAdvance (probeChain cc perRoute) (extProcFilter cc perRoute).onLeft
        (decoderOf cc perRoute) (FilterChain.enter { c with decodeBuf := c.decodeBuf ++ body }
          (bodyDispatched cc body v)) :=
  (probe_bodyTurn cc perRoute body c hdone v hreached).trans (if_neg hlen)

end BodyTurn

section BodyStage
variable {d : Downstream} (v : Bytes → World FilterState)
  (hgo : ∀ body, ProbeGoesOn cc perRoute body ((probeStart cc body).enter (v body)))
  (hreached : ∀ body, bodyReached (v body).filters = true)
include hgo hreached

theorem probe_body_overflows
    (h : ∀ body, FailsClosed ((withExtProc cc perRoute 0 (probe body)).serve d)) :
    d ≠ .http2 := by
  rintro rfl
  generalize hlong : List.replicate (filterBufferLimitBytes + 1) (120 : UInt8) = body
  have hlen : body.length = filterBufferLimitBytes + 1 := by
    rw [← hlong, List.length_replicate]
  have hover : (probeStart cc body).decodeBuf.length + body.length > filterBufferLimitBytes := by
    rw [hlen]
    exact Nat.lt_of_lt_of_le (Nat.lt_succ_self _) (Nat.le_add_left _ _)
  have hturn := probe_bodyTurn_over cc perRoute body (probeStart cc body) rfl (v body)
    (hreached body) hover
  have hclean := probe_body_http2 hclient (List.ne_nil_of_length_eq_add_one hlen) (hgo body)
    (probe_data cc perRoute body _ _ _ hturn (fun hn => by cases hn)) (h body)
  have hkept := (encodersKeep_requestEnds cc perRoute 0 [routerFilter (σ := Unit)] hclient
    ((bodyDispatched cc body (v body)).filters.ends .requestHeaders)
    ((bodyDispatched cc body (v body)).filters.ends .requestBody)).askLocalReply
    (extProcFilter cc perRoute).name localReply413
    { (probeStart cc body).enter (bodyDispatched cc body (v body)) with decodeBufOver := true }
    ⟨rfl, rfl⟩
  have hunsettled : ¬Settled ((bodyDispatched cc body (v body)).filters.ends .requestBody) := by
    rw [bodyDispatched_ends cc]
    exact not_settled_of_ne (by split_ifs <;> decide)
  exact hunsettled (hkept.2 ▸ hclean .requestBody rfl)

variable (cc perRoute) in
omit hclient hgo in
theorem probe_body_parks :
    decodeVisit (probeChain cc perRoute) (fun d => d.decodeData [120] true)
        (reactDecodeData (probeChain cc perRoute) [120]) (extProcFilter cc perRoute).onLeft
        ((probeStart cc [120]).enter (v [120])) =
      parkThenAdvance (probeChain cc perRoute) (extProcFilter cc perRoute).onLeft
        (decoderOf cc perRoute) (FilterChain.enter { probeStart cc [120] with decodeBuf := [120] }
          (bodyDispatched cc [120] (v [120]))) := by
  apply probe_bodyTurn_parks cc perRoute [120] (probeStart cc [120]) rfl (v [120])
    (hreached [120])
  show ¬(0 + 1 > filterBufferLimitBytes)
  decide

omit hclient in
theorem probe_body_has_stream (hproto : d ≠ .http2)
    (h : ∀ body, FailsClosed ((withExtProc cc perRoute 0 (probe body)).serve d)) :
    (cc.httpClient.isSome || (v [120]).filters.stream.isSome) = true := by
  by_contra hno
  have hcrash := bodyDispatched_ends cc [120] (v [120])
  rw [if_neg hno] at hcrash
  have hturn := probe_body_parks cc perRoute v hreached
  rw [park_crashed cc perRoute _ _ _ .requestBody rfl hcrash] at hturn
  have hfailed := probe_body_failed (List.cons_ne_nil _ _) (hgo [120]) hproto .ctxErr
    (probe_data cc perRoute [120] _ _ _ hturn (fun hn => by cases hn)) (h [120])
  rcases (hfailed .requestBody .crashed rfl hcrash (by decide)).2 with hflight | hanswered
  · cases hflight
  · exact hanswered.1 .requestBody hcrash

theorem probe_body_answers (hproto : d ≠ .http2)
    (h : ∀ body, FailsClosed ((withExtProc cc perRoute 0 (probe body)).serve d)) :
    answersStage cc .requestBody
      (exchangeStage cc .requestBody (v [120]).filters.stream).1 = true := by
  have hstream := probe_body_has_stream v hgo hreached hproto h
  have hends := bodyDispatched_ends cc [120] (v [120])
  rw [if_pos hstream] at hends
  by_contra hno
  have hcrash : (bodyDispatched cc [120] (v [120])).filters.ends .requestBody ≠ some .crashed := by
    rw [hends]
    decide
  obtain ⟨v', hpark, hunsettled⟩ := park_unaccepted cc perRoute (probeChain cc perRoute)
    { probeStart cc [120] with decodeBuf := [120] }
    (bodyDispatched cc [120] (v [120])) .requestBody rfl rfl hcrash (Bool.eq_false_iff.mpr hno)
  have hturn := (probe_body_parks cc perRoute v hreached).trans hpark
  have hclean := probe_body_forwarded hclient (List.cons_ne_nil _ _) (hgo [120]) hproto
    (probe_data cc perRoute [120] _ _ _ hturn (fun _ => rfl)) rfl (h [120])
  exact hunsettled (hclean .requestBody rfl)

end BodyStage

theorem bodyContained_of_failsClosed {d : Downstream} (v : Bytes → World FilterState)
    (hgo : ∀ body, ProbeGoesOn cc perRoute body ((probeStart cc body).enter (v body)))
    (mode : ProcessingMode) (replaced : Bool) (stream : Option ProcessStream)
    (hmode : ∀ body, (v body).filters.activeProcessingMode = mode)
    (hskip : mode.requestBodyMode = .buffered →
      ∀ body, (v body).filters.skipBodyStageDispatch .request = replaced)
    (hstream : ∀ body, (v body).filters.stream = stream)
    (h : ∀ body, FailsClosed ((withExtProc cc perRoute 0 (probe body)).serve d)) :
    bodyContained cc d mode replaced stream := by
  intro hbuffered hkept
  have hreached : ∀ body, bodyReached (v body).filters = true := by
    intro body
    simp only [bodyReached, bodyModeActive, FilterState.bodyMode, hmode, hbuffered,
      hskip hbuffered, hkept, BEq.rfl, Bool.not_false, Bool.and_self]
  have hproto := probe_body_overflows hclient v hgo hreached h
  have hhas := probe_body_has_stream v hgo hreached hproto h
  have hanswers := probe_body_answers hclient v hgo hreached hproto h
  rw [hstream] at hhas hanswers
  exact ⟨hproto, hhas, hanswers⟩

variable (cc perRoute) in
omit hclient in
theorem probeGoesOn_of_passes (body : Bytes)
    (hstarts : headersStageStarts cc (resolvePerRouteConfig cc perRoute) = false) :
    ∃ v, ProbeGoesOn cc perRoute body ((probeStart cc body).enter v) ∧
      Steered (startMode cc (resolvePerRouteConfig cc perRoute)) false none v.filters := by
  have hstart : (probeStart cc body).world.left.filters = newFilter cc := rfl
  obtain ⟨v, hrun, hsteer, -⟩ := decodeHeaders_passes cc _ (probeChain cc perRoute)
    (extProcFilter cc perRoute).name (probeStart cc body) hstart hstarts
  refine ⟨v, ⟨?_, rfl⟩, hsteer⟩
  exact (headersTurn cc perRoute (probeChain cc perRoute) (body.length == 0) (probeStart cc body) _
    rfl _ hrun).trans (if_neg Bool.false_ne_true)

theorem probe_headers_parks (body : Bytes)
    (hstarts : headersStageStarts cc (resolvePerRouteConfig cc perRoute) = true)
    (stream : Option ProcessStream)
    (hopen : openedStream cc (resolvePerRouteConfig cc perRoute) = .ok stream) :
    ∃ v, decodeVisit (probeChain cc perRoute) (fun d => d.decodeHeaders (body.length == 0))
        (reactDecodeHeaders (probeChain cc perRoute)) (extProcFilter cc perRoute).onLeft
        (probeStart cc body) =
          parkThenAdvance (probeChain cc perRoute) (extProcFilter cc perRoute).onLeft
            (decoderOf cc perRoute) ((probeStart cc body).enter v) ∧
      Steered (startMode cc (resolvePerRouteConfig cc perRoute)) false stream v.filters ∧
      v.filters.pending = some .requestHeaders ∧
      v.filters.ends .requestHeaders = some .inFlight := by
  have hstart : (probeStart cc body).world.left.filters = newFilter cc := rfl
  obtain ⟨v1, hrun, hsteer, -⟩ := decodeHeaders_starts cc _ (probeChain cc perRoute)
    (extProcFilter cc perRoute).name (probeStart cc body) hstart hstarts
  obtain ⟨v2, hrun2, hmode, hskip, hstream, hpending, hends⟩ :=
    startHeaderStage_dispatches cc _ (probeChain cc perRoute) (extProcFilter cc perRoute).name
      (probeStart cc body) stream hclient hsteer.stream hopen
  rw [hrun2] at hrun
  refine ⟨v2, ?_, ⟨hmode.trans hsteer.mode, ?_, hstream⟩, hpending, ?_⟩
  · exact (headersTurn cc perRoute (probeChain cc perRoute) (body.length == 0)
      (probeStart cc body) _ rfl _ hrun).trans (if_neg Bool.false_ne_true)
  · rw [hskip]
    exact hsteer.skip
  · rw [hends, Function.update_self]

theorem headers_answered_of_failsClosed {d : Downstream}
    (hstarts : headersStageStarts cc (resolvePerRouteConfig cc perRoute) = true)
    (stream : Option ProcessStream)
    (hopen : openedStream cc (resolvePerRouteConfig cc perRoute) = .ok stream)
    (h : FailsClosed ((withExtProc cc perRoute 0 (probe [])).serve d)) :
    answersStage cc .requestHeaders (exchangeStage cc .requestHeaders stream).1 = true := by
  by_contra hno
  obtain ⟨v, hturn, hsteer, hpending, hflight⟩ :=
    probe_headers_parks hclient [] hstarts stream hopen
  have hcrash : v.filters.ends .requestHeaders ≠ some .crashed := by
    rw [hflight]
    decide
  rw [← hsteer.stream] at hno
  obtain ⟨v', hpark, hunsettled⟩ := park_unaccepted cc perRoute (probeChain cc perRoute)
    (probeStart cc []) v .requestHeaders hpending rfl hcrash (Bool.eq_false_iff.mpr hno)
  have hclean := probe_bodyless hclient ⟨hturn.trans hpark, rfl⟩ d h
  exact hunsettled (hclean .requestHeaders rfl)

theorem body_contained_of_answer {d : Downstream}
    (hstarts : headersStageStarts cc (resolvePerRouteConfig cc perRoute) = true)
    (stream : Option ProcessStream)
    (hopen : openedStream cc (resolvePerRouteConfig cc perRoute) = .ok stream)
    (resp : ProcessingResponse)
    (hx : (exchangeStage cc .requestHeaders stream).1 = some (.ok resp))
    (hacc : answerAccepted cc .requestHeaders resp = true) (himm : isImmediate resp = false)
    (h : ∀ body, FailsClosed ((withExtProc cc perRoute 0 (probe body)).serve d)) :
    bodyContained cc d
      (applyModeOverride cc .requestHeaders resp.modeOverride
        (startMode cc (resolvePerRouteConfig cc perRoute)))
      (replacesBody resp) (exchangeStage cc .requestHeaders stream).2 := by
  have hemit : emitsReply cc resp = false := by
    rw [emitsReply, himm, Bool.false_and]
  have hgo : ∀ body, ∃ v, ProbeGoesOn cc perRoute body ((probeStart cc body).enter v) ∧
      v.filters.activeProcessingMode = applyModeOverride cc .requestHeaders resp.modeOverride
        (startMode cc (resolvePerRouteConfig cc perRoute)) ∧
      v.filters.stream = (exchangeStage cc .requestHeaders stream).2 ∧
      (v.filters.activeProcessingMode.requestBodyMode = .buffered →
        v.filters.skipBodyStageDispatch .request = replacesBody resp) := by
    intro body
    obtain ⟨v, hturn, hsteer, hpending, hflight⟩ :=
      probe_headers_parks hclient body hstarts stream hopen
    have hcrash : v.filters.ends .requestHeaders ≠ some .crashed := by
      rw [hflight]
      decide
    rw [← hsteer.stream] at hx
    have hpark := park_plain cc (probeChain cc perRoute) (probeStart cc body) .requestHeaders
      (f := (extProcFilter cc perRoute).onLeft) (d := decoderOf cc perRoute)
      rfl hpending rfl hcrash resp hx hemit
    obtain ⟨hmode, hstream, hreplaced⟩ := answered_steered cc
      (updateState (exchangedState cc .requestHeaders) v) resp hacc himm hsteer.skip
    refine ⟨_, ⟨hturn.trans hpark, rfl⟩, hmode.trans ?_, hstream.trans ?_, hreplaced⟩
    · rw [← hsteer.mode]
      rfl
    · rw [← hsteer.stream]
      rfl
  choose v hv using hgo
  apply bodyContained_of_failsClosed hclient v (fun body => (hv body).1) _ _ _
    (fun body => (hv body).2.1) _ (fun body => (hv body).2.2.1) h
  intro hbuffered body
  rw [← (hv body).2.1] at hbuffered
  exact (hv body).2.2.2 hbuffered

theorem requestContained_of_failsClosed {d : Downstream}
    (h : ∀ body, FailsClosed ((withExtProc cc perRoute 0 (probe body)).serve d)) :
    requestContained cc (resolvePerRouteConfig cc perRoute) d := by
  unfold requestContained
  cases hstarts : headersStageStarts cc (resolvePerRouteConfig cc perRoute) with
  | false =>
    rw [if_neg (by decide)]
    choose v hv using fun body => probeGoesOn_of_passes cc perRoute body hstarts
    exact bodyContained_of_failsClosed hclient v (fun body => (hv body).1) _ _ _
      (fun body => (hv body).2.mode) (fun _ body => (hv body).2.skip)
      (fun body => (hv body).2.stream) h
  | true =>
    rw [if_pos rfl]
    cases hopen : openedStream cc (resolvePerRouteConfig cc perRoute) with
    | error err => exact True.intro
    | ok stream =>
      have hanswers := headers_answered_of_failsClosed hclient hstarts stream hopen (h [])
      refine ⟨hanswers, ?_⟩
      intro resp hx himm
      have hacc : answerAccepted cc .requestHeaders resp = true := by
        rw [hx] at hanswers
        exact hanswers
      exact body_contained_of_answer hclient hstarts stream hopen resp hx hacc himm h

end Probe

end EnvoyGo.ExtProc

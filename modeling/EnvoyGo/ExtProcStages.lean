import EnvoyGo.ExtProc
import EnvoyGo.FilterScope

/-!
What each step of ext_proc does to the history of its stages.  The encode side leaves the
request stages alone, whatever the processor answers; a turn of the decode side is one of a
few cases, by what the stage it starts is left with.
-/

namespace EnvoyGo.ExtProc

variable {τ : Type} (cc : CompiledConfig) (pr : ResolvedPerRoute)

theorem mark_ends_self (st : FilterState) (s : Stage) (e : StageEnd) :
    (st.mark s e).ends s = some e := by
  simp only [FilterState.mark, Function.update_self]

theorem mark_ends_of_ne (st : FilterState) (s s' : Stage) (e : StageEnd) (h : s' ≠ s) :
    (st.mark s e).ends s' = st.ends s' := by
  simp only [FilterState.mark, Function.update_of_ne h]

theorem applyHeaderStep_filters (s : Stage) (cr : CommonResponse) (w : World FilterState) :
    (applyHeaderStep cc s cr w).filters = w.filters := by
  unfold applyHeaderStep
  cases cr.headerMutation with
  | none => rfl
  | some hm => cases s <;> simp only [mutateHeaders] <;> split_ifs <;> rfl

structure SameStages (st st' : FilterState) : Prop where
  mode : st'.activeProcessingMode = st.activeProcessingMode
  stream : st'.stream = st.stream
  skip : st'.skipBodyStageDispatch = st.skipBodyStageDispatch
  ends : st'.ends = st.ends

theorem applyBodyStep_stages (s : Stage) (cr : CommonResponse) (w w' : World FilterState)
    (h : applyBodyStep s cr w = some w') : SameStages w.filters w'.filters := by
  have hwrite : ∀ d b, SameStages w.filters (writeBodyMutation d b w).filters := by
    intro d b
    cases d <;> exact ⟨rfl, rfl, rfl, rfl⟩
  unfold applyBodyStep at h
  split at h
  · rename_i bm hbm
    unfold applyBodyMutation at h
    split at h
    · exact Option.some.inj h ▸ hwrite _ _
    · exact Option.some.inj h ▸ hwrite _ _
    · exact Option.some.inj h ▸ ⟨rfl, rfl, rfl, rfl⟩
    · cases h
    · exact Option.some.inj h ▸ ⟨rfl, rfl, rfl, rfl⟩
  · exact Option.some.inj h ▸ ⟨rfl, rfl, rfl, rfl⟩

theorem applyBodyStep_eq_none_iff (s : Stage) (cr : CommonResponse) (w : World FilterState) :
    applyBodyStep s cr w = none ↔ cr.bodyMutation = some .streamedResponse := by
  unfold applyBodyStep applyBodyMutation
  cases cr.bodyMutation with
  | none => simp
  | some bm =>
    cases bm with
    | clearBody clear => cases clear <;> simp
    | _ => simp

/-- A response that is not a local reply resumes the chain and leaves the history and the
stream alone. -/
structure PlainlyApplied (w : World FilterState) (a : Applied) : Prop where
  resumes : signalResume a.action = .resumed
  reply : a.reply = none
  stream : a.world.filters.stream = w.filters.stream
  ends : a.world.filters.ends = w.filters.ends

theorem applyCommonResponse_applied (s : Stage) (cr : CommonResponse) (w : World FilterState) :
    PlainlyApplied w (applyCommonResponse cc s cr w) := by
  have hheader := applyHeaderStep_filters cc s cr w
  unfold applyCommonResponse
  cases hbody : applyBodyStep s cr (applyHeaderStep cc s cr w) with
  | none => exact ⟨rfl, rfl, by rw [hheader], by rw [hheader]⟩
  | some w2 =>
    have h2 := applyBodyStep_stages s cr _ w2 hbody
    rw [hheader] at h2
    simp only []
    split_ifs <;> exact ⟨rfl, rfl, h2.stream, h2.ends⟩

def isImmediate (resp : ProcessingResponse) : Bool :=
  match resp.response with
  | .immediateResponse _ => true
  | _ => false

def emitsReply (resp : ProcessingResponse) : Bool :=
  isImmediate resp && !cc.disableImmediateResponse

theorem applyProcessingResponse_plain (s : Stage) (resp : ProcessingResponse)
    (w : World FilterState) (h : emitsReply cc resp = false) :
    PlainlyApplied w (applyProcessingResponse cc s resp w) := by
  unfold applyProcessingResponse
  split
  · rename_i ir ht hr
    have hdisabled : cc.disableImmediateResponse = true := by
      simpa [emitsReply, isImmediate, hr] using h
    rw [if_pos hdisabled]
    exact ⟨rfl, rfl, rfl, rfl⟩
  · rename_i d _ hr
    refine ⟨rfl, rfl, ?_, ?_⟩ <;>
      · simp only [handleOverrideMessageTimeout]
        split_ifs <;> rfl
  · simp only []
    cases commonResponse s resp with
    | none => exact ⟨rfl, rfl, rfl, rfl⟩
    | some cr =>
      have hcr := applyCommonResponse_applied cc s cr
        (updateState (overrideMode cc s resp.modeOverride) w)
      exact ⟨hcr.resumes, hcr.reply, hcr.stream, hcr.ends⟩

theorem applyProcessingResponse_immediate (s : Stage) (resp : ProcessingResponse)
    (w : World FilterState) (h : emitsReply cc resp = true) :
    ∃ r, (applyProcessingResponse cc s resp w).reply = some r ∧
      signalResume (applyProcessingResponse cc s resp w).action = .resumed ∧
      (applyProcessingResponse cc s resp w).world.filters.ends = w.filters.ends := by
  unfold emitsReply isImmediate at h
  cases hr : resp.response with
  | immediateResponse ir =>
    have henabled : ¬cc.disableImmediateResponse = true := by
      simpa [hr] using h
    unfold applyProcessingResponse
    simp only [hr]
    rw [if_neg henabled]
    exact ⟨_, rfl, rfl, rfl⟩
  | _ => simp [hr] at h

section EncodeSide
variable {cc pr} {P : FilterState → Prop} (hends : ∀ st st', st'.ends = st.ends → P st → P st')
  (hmark : ∀ st s e, s.direction = .response → e ≠ .crashed → P st → P (st.mark s e))

include hends in
theorem openProcessorStream_keeps (s : Stage) (st st' : FilterState)
    (h : openProcessorStream cc pr s st = .ok st') (hst : P st) :
    P st' ∧ st'.stream.isSome = true := by
  unfold openProcessorStream at h
  cases ho : openStream cc pr s with
  | error err =>
    rw [ho] at h
    cases h
  | ok stream =>
    rw [ho] at h
    obtain rfl := Except.ok.inj h
    exact ⟨hends st _ rfl hst, rfl⟩

include hends hmark in
theorem completeStage_keeps (s : Stage) (hs : s.direction = .response)
    (r : Except String ProcessingResponse) : (completeStage cc s r).Keeps P := by
  cases r with
  | error err =>
    intro w hw
    exact ⟨hmark _ _ _ hs (by decide) hw, trivial⟩
  | ok resp =>
    intro w hw
    refine ⟨hw, ?_⟩
    intro w' _
    have happlied :
        (applyProcessingResponse cc s resp w).world.filters.ends = w.filters.ends := by
      cases hemit : emitsReply cc resp with
      | false => exact (applyProcessingResponse_plain cc s resp w hemit).ends
      | true =>
        obtain ⟨r, -, -, he⟩ := applyProcessingResponse_immediate cc s resp w hemit
        exact he
    refine ⟨hmark _ _ _ hs ?_ (hends _ _ happlied hw), ?_⟩
    · unfold verdict
      split_ifs <;> decide
    · -- what is left touches no state
      simp only [id_eq]
      cases (applyProcessingResponse cc s resp w).reply with
      | none => split_ifs <;> exact trivial
      | some r => split_ifs <;> exact trivial

include hends hmark in
theorem parked_response_keeps : (parked cc .response).Keeps P := by
  intro w hw
  refine ⟨hw, ?_⟩
  simp only [id_eq]
  cases w.filters.pending with
  | none => exact trivial
  | some s =>
    simp only []
    split_ifs with hother
    · exact trivial
    · have hs : s.direction = .response := not_not.mp (fun hne => hother (Or.inl hne))
      intro w' hw'
      refine ⟨hends w'.filters _ rfl hw', ?_⟩
      simp only [awaitStage]
      cases (exchangeStage cc s w.filters.stream).1 with
      | none => exact trivial
      | some r => exact completeStage_keeps hends hmark s hs r

include hends hmark in
theorem encodeHeaders_keeps (hclient : (cc.httpClient.isSome || cc.grpcClient.isSome) = true) :
    (encodeHeaders cc pr).Keeps P := by
  intro w hw
  refine ⟨hw, ?_⟩
  simp only [id_eq]
  split_ifs
  · exact trivial
  · intro w1 hw1
    refine ⟨hends w1.filters _ rfl hw1, ?_⟩
    intro w2 hw2
    refine ⟨hw2, ?_⟩
    simp only [id_eq]
    have hdispatch : ∀ st : FilterState, P st →
        (cc.httpClient.isSome || st.stream.isSome) = true →
        P (dispatchStage cc .responseHeaders st) := by
      intro st hst hstream
      have hinFlight := hmark st .responseHeaders .inFlight rfl (by decide) hst
      refine hends (st.mark .responseHeaders .inFlight) _ ?_ hinFlight
      simp only [dispatchStage, hstream, if_true]
    by_cases hopens : (cc.grpcClient.isSome && (Stage.responseHeaders == .requestHeaders ||
        w2.filters.stream.isNone)) = true
    · rw [if_pos hopens]
      cases ho : openProcessorStream cc pr .responseHeaders w2.filters with
      | error err =>
        intro w3 hw3
        refine ⟨hmark _ _ _ rfl (by decide) hw3, ?_⟩
        unfold mapTransportError
        split_ifs <;> exact trivial
      | ok st =>
        obtain ⟨hst, hstream⟩ := openProcessorStream_keeps hends _ _ _ ho hw2
        intro w3 _
        exact ⟨hdispatch st hst (by rw [hstream, Bool.or_true]), trivial⟩
    · rw [if_neg hopens]
      intro w3 _
      refine ⟨hdispatch w2.filters hw2 ?_, trivial⟩
      cases hh : cc.httpClient.isSome with
      | true => rfl
      | false =>
        -- no HTTP client, so the gRPC one is set and the stream is open already
        rw [hh, Bool.false_or] at hclient
        cases hs : w2.filters.stream with
        | some stream => rfl
        | none => exact absurd (by rw [hclient, hs]; rfl) hopens

include hends in
theorem responseBody_keeps
    (hany : ∀ st s e, s.direction = .response → P st → P (st.mark s e)) (data : Bytes)
    (endStream : Bool) : (bodyStageEntry cc .response data endStream).Keeps P := by
  intro w hw
  refine ⟨hw, ?_⟩
  simp only [id_eq]
  split_ifs
  · exact trivial
  · exact trivial
  · intro w1 hw1
    exact ⟨hends w1.filters _ rfl hw1, trivial⟩
  · intro w1 hw1
    refine ⟨hends w1.filters _ rfl hw1, ?_⟩
    intro w2 hw2
    have hmarked := hany w2.filters .responseBody
      (if cc.httpClient.isSome || w2.filters.stream.isSome then .inFlight else .crashed) rfl hw2
    refine ⟨hends _ _ ?_ hmarked, trivial⟩
    rfl

end EncodeSide

def RequestEnds (headers body : Option StageEnd) (st : FilterState) : Prop :=
  st.ends .requestHeaders = headers ∧ st.ends .requestBody = body

def NoCrash (st : FilterState) : Prop := ∀ s, st.ends s ≠ some .crashed

theorem requestEnds_mark {headers body : Option StageEnd} (st : FilterState) (s : Stage)
    (e : StageEnd) (hs : s.direction = .response) (h : RequestEnds headers body st) :
    RequestEnds headers body (st.mark s e) := by
  have hne : ∀ s', s'.direction = .request → s' ≠ s := by
    rintro s' hs' rfl
    rw [hs] at hs'
    cases hs'
  refine ⟨?_, ?_⟩
  · exact (mark_ends_of_ne st s .requestHeaders e (hne .requestHeaders rfl)).trans h.1
  · exact (mark_ends_of_ne st s .requestBody e (hne .requestBody rfl)).trans h.2

theorem noCrash_mark (st : FilterState) (s : Stage) (e : StageEnd) (he : e ≠ .crashed)
    (h : NoCrash st) : NoCrash (st.mark s e) := by
  intro s'
  by_cases hs : s' = s
  · rw [hs, mark_ends_self]
    exact fun heq => he (Option.some.inj heq)
  · rw [mark_ends_of_ne st s s' e hs]
    exact h s'

def insertExtProc (perRoute : Option ExtProcPerRoute) (n : Nat) (fs : List (HTTPFilter τ)) :
    List (HTTPFilter (FilterState × τ)) :=
  (fs.take n).map HTTPFilter.onRight ++
    (extProcFilter cc perRoute).onLeft :: (fs.drop n).map HTTPFilter.onRight

section Chain
variable (perRoute : Option ExtProcPerRoute) (n : Nat) (others : List (HTTPFilter τ))
  (hclient : (cc.httpClient.isSome || cc.grpcClient.isSome) = true)

theorem encoder_of_mem_insertExtProc (f : HTTPFilter (FilterState × τ))
    (hf : f ∈ insertExtProc cc perRoute n others) (e : StreamEncoderFilter (FilterState × τ))
    (he : f.encoder = some e) :
    (∃ e' : StreamEncoderFilter τ, e = e'.transport FilterProg.onRight) ∨
      e = StreamEncoderFilter.transport FilterProg.onLeft
        { encodeHeaders := fun _ => encodeHeaders cc (resolvePerRouteConfig cc perRoute)
          encodeData := bodyStageEntry cc .response
          parked := parked cc .response } := by
  have hright : ∀ fs : List (HTTPFilter τ),
      f ∈ fs.map (HTTPFilter.onRight : HTTPFilter τ → HTTPFilter (FilterState × τ)) →
      ∃ e' : StreamEncoderFilter τ, e = e'.transport FilterProg.onRight := by
    intro fs hmem
    obtain ⟨g, -, rfl⟩ := List.mem_map.mp hmem
    obtain ⟨e', -, he'⟩ := Option.map_eq_some_iff.mp he
    exact ⟨e', he'.symm⟩
  rcases List.mem_append.mp hf with hbefore | hcons
  · exact Or.inl (hright _ hbefore)
  · rcases List.mem_cons.mp hcons with rfl | hafter
    · exact Or.inr (Option.some.inj he).symm
    · exact Or.inl (hright _ hafter)

include hclient in
theorem headerEncodersKeep_insertExtProc {P : FilterState → Prop}
    (hends : ∀ st st', st'.ends = st.ends → P st → P st')
    (hmark : ∀ st s e, s.direction = .response → e ≠ .crashed → P st → P (st.mark s e)) :
    HeaderEncodersKeep (fun x : FilterState × τ => P x.1)
      (insertExtProc cc perRoute n others) := by
  intro f hf e he
  rcases encoder_of_mem_insertExtProc cc perRoute n others f hf e he with ⟨e', rfl⟩ | rfl
  · exact ⟨fun _ => encodeKeeps_onRight P _ _, encodeKeeps_onRight P _ _⟩
  · exact ⟨fun _ => encodeKeeps_onLeft _ _ (encodeHeaders_keeps hends hmark hclient),
      encodeKeeps_onLeft _ _ (parked_response_keeps hends hmark)⟩

include hclient in
theorem encodersKeep_requestEnds (headers body : Option StageEnd) :
    EncodersKeep (fun x : FilterState × τ => RequestEnds headers body x.1)
      (insertExtProc cc perRoute n others) where
  headers := headerEncodersKeep_insertExtProc cc perRoute n others hclient
    (fun st st' he h => by rw [RequestEnds, he]; exact h)
    (fun st s e hs _ h => requestEnds_mark st s e hs h)
  data := by
    intro f hf e he data endStream
    rcases encoder_of_mem_insertExtProc cc perRoute n others f hf e he with ⟨e', rfl⟩ | rfl
    · exact encodeKeeps_onRight (RequestEnds headers body) _ _
    · exact encodeKeeps_onLeft _ _ (responseBody_keeps
        (fun st st' he h => by rw [RequestEnds, he]; exact h)
        (fun st s e hs h => requestEnds_mark st s e hs h) data endStream)

end Chain

section DecodeSide
variable (fs : List (HTTPFilter (FilterState × τ))) (name : String)
  (c : FilterChain (FilterState × τ)) (v : World FilterState) (s : Stage)

def answered (resp : ProcessingResponse) : World FilterState :=
  updateState (fun st => st.mark s (verdict cc s resp)) (applyProcessingResponse cc s resp v).world

theorem completeStage_error (err : String) :
    runDecodeProg fs name (completeStage cc s (.error err)).onLeft (c.enter v) =
      (.resumed, c.enter (updateState (fun st => st.mark s .failed) v)) := rfl

theorem completeStage_plain (hs : s.direction = .request) (resp : ProcessingResponse)
    (hemit : emitsReply cc resp = false) :
    runDecodeProg fs name (completeStage cc s (.ok resp)).onLeft (c.enter v) =
      (.resumed, c.enter (answered cc v s resp)) := by
  have happlied := applyProcessingResponse_plain cc s resp v hemit
  have hne : s ≠ .responseBody := by
    rintro rfl
    cases hs
  simp only [runDecodeProg, completeStage, run_onLeft_touch, id_eq, happlied.reply,
    happlied.resumes, if_neg hne, run_onLeft_done, answered]

theorem completeStage_immediate (hs : s.direction = .request) (resp : ProcessingResponse)
    (hemit : emitsReply cc resp = true) :
    ∃ r, runDecodeProg fs name (completeStage cc s (.ok resp)).onLeft (c.enter v) =
      (.resumed, askLocalReply fs name r (c.enter (answered cc v s resp))) := by
  obtain ⟨r, hreply, hresumes, -⟩ := applyProcessingResponse_immediate cc s resp v hemit
  have hne : s ≠ .responseBody := by
    rintro rfl
    cases hs
  refine ⟨r, ?_⟩
  simp only [runDecodeProg, completeStage, run_onLeft_touch, id_eq, hreply, hresumes,
    if_neg hne, run_onLeft_sendLocalReply, run_onLeft_done, answered]

theorem parked_request (hpending : v.filters.pending = some s) (hs : s.direction = .request)
    (hends : v.filters.ends s ≠ some .crashed) :
    runDecodeProg fs name (parked cc .request).onLeft (c.enter v) =
      runDecodeProg fs name (awaitStage cc s (exchangeStage cc s v.filters.stream).1).onLeft
        (c.enter (updateState (exchangedState cc s) v)) := by
  have hmine : ¬(s.direction ≠ .request ∨ v.filters.ends s = some .crashed) := by
    rintro (hne | hcrash)
    · exact hne hs
    · exact hends hcrash
  simp only [runDecodeProg, parked, run_onLeft_touch, id_eq, hpending, if_neg hmine]

def startMode : ProcessingMode :=
  if pr.disabled then cc.processingMode else pr.effectiveProcessingMode.getD cc.processingMode

def headersStageStarts : Bool :=
  !pr.disabled && (startMode cc pr).requestHeaderMode != .skip

def openedStream : Except String (Option ProcessStream) :=
  if cc.grpcClient.isSome then (openStream cc pr .requestHeaders).map some else .ok none

structure Steered (mode : ProcessingMode) (skip : Bool) (stream : Option ProcessStream)
    (st : FilterState) : Prop where
  mode : st.activeProcessingMode = mode
  skip : st.skipBodyStageDispatch .request = skip
  stream : st.stream = stream

variable {v} (hv : v.filters = newFilter cc)
include hv

theorem routeMode_of_enabled (hdisabled : ¬pr.disabled = true) :
    (updateState (applyRouteMode pr) v).filters.activeProcessingMode = startMode cc pr := by
  simp only [updateState, applyRouteMode, hv, newFilter, startMode, if_neg hdisabled]

theorem decodeHeaders_passes (hstarts : headersStageStarts cc pr = false) :
    ∃ v', runDecodeProg fs name (decodeHeaders cc pr).onLeft (c.enter v) =
        (.continueIteration, c.enter v') ∧
      Steered (startMode cc pr) false none v'.filters ∧ (v'.filters.ends = fun _ => none) ∧
      v'.filters.skipBodyStageDispatch .response = false := by
  by_cases hdisabled : pr.disabled = true
  · refine ⟨v, ?_, ?_, ?_, ?_⟩
    · simp only [decodeHeaders, if_pos hdisabled, runDecodeProg, run_onLeft_done]
    · rw [hv, startMode, if_pos hdisabled]
      exact ⟨rfl, rfl, rfl⟩
    · rw [hv]
      rfl
    · rw [hv]
      rfl
  · have hmode := routeMode_of_enabled cc pr hv hdisabled
    have hskip : (startMode cc pr).requestHeaderMode = .skip := by
      simpa [headersStageStarts, hdisabled] using hstarts
    refine ⟨updateState (applyRouteMode pr) v, ?_, ⟨hmode, ?_, ?_⟩, ?_, ?_⟩
    · simp only [decodeHeaders, if_neg hdisabled, runDecodeProg, run_onLeft_touch, hmode, hskip,
        if_true, run_onLeft_done]
    · simp only [updateState, applyRouteMode, hv, newFilter]
    · simp only [updateState, applyRouteMode, hv, newFilter]
    · simp only [updateState, applyRouteMode, hv, newFilter]
    · simp only [updateState, applyRouteMode, hv, newFilter]

theorem decodeHeaders_starts (hstarts : headersStageStarts cc pr = true) :
    ∃ v', runDecodeProg fs name (decodeHeaders cc pr).onLeft (c.enter v) =
        runDecodeProg fs name (startHeaderStage cc pr .requestHeaders).onLeft (c.enter v') ∧
      Steered (startMode cc pr) false none v'.filters ∧ (v'.filters.ends = fun _ => none) ∧
      v'.filters.skipBodyStageDispatch .response = false := by
  have hdisabled : ¬pr.disabled = true := by
    intro h
    simp [headersStageStarts, h] at hstarts
  have hmode := routeMode_of_enabled cc pr hv hdisabled
  have hsend : ¬(startMode cc pr).requestHeaderMode = .skip := by
    simpa [headersStageStarts, hdisabled] using hstarts
  refine ⟨captureRequest (updateState (applyRouteMode pr) v), ?_, ⟨hmode, ?_, ?_⟩, ?_, ?_⟩
  · simp only [decodeHeaders, if_neg hdisabled, runDecodeProg, run_onLeft_touch, hmode,
      if_neg hsend]
  · simp only [captureRequest, updateState, applyRouteMode, hv, newFilter]
  · simp only [captureRequest, updateState, applyRouteMode, hv, newFilter]
  · simp only [captureRequest, updateState, applyRouteMode, hv, newFilter]
  · simp only [captureRequest, updateState, applyRouteMode, hv, newFilter]

omit hv

theorem startHeaderStage_openFailed (hclosed : cc.failureModeAllow = false) (err : String)
    (hopen : openedStream cc pr = .error err) :
    runDecodeProg fs name (startHeaderStage cc pr .requestHeaders).onLeft (c.enter v) =
      (.continueIteration, askLocalReply fs name { status := 500, body := [], headers := [] }
        (c.enter (updateState (fun st => st.mark .requestHeaders .openFailed) v))) := by
  unfold openedStream at hopen
  have hgrpc : cc.grpcClient.isSome = true := by
    by_contra hno
    rw [if_neg hno] at hopen
    cases hopen
  rw [if_pos hgrpc] at hopen
  have hfail : ∃ err', openProcessorStream cc pr .requestHeaders v.filters = .error err' := by
    unfold openProcessorStream
    cases ho : openStream cc pr .requestHeaders with
    | error err' => exact ⟨err', rfl⟩
    | ok stream =>
      rw [ho] at hopen
      cases hopen
  obtain ⟨err', hfail⟩ := hfail
  simp only [runDecodeProg, startHeaderStage, run_onLeft_touch, id_eq, hgrpc, BEq.rfl, Bool.true_or,
    Bool.and_self, if_true, hfail, mapTransportError, hclosed, Bool.false_eq_true, if_false,
    run_onLeft_sendLocalReply, run_onLeft_done]

theorem startHeaderStage_dispatches (stream : Option ProcessStream)
    (hclient : (cc.httpClient.isSome || cc.grpcClient.isSome) = true)
    (hst : v.filters.stream = none) (hopen : openedStream cc pr = .ok stream) :
    ∃ v', runDecodeProg fs name (startHeaderStage cc pr .requestHeaders).onLeft (c.enter v) =
        (.stopIteration, c.enter v') ∧
      v'.filters.activeProcessingMode = v.filters.activeProcessingMode ∧
      v'.filters.skipBodyStageDispatch = v.filters.skipBodyStageDispatch ∧
      v'.filters.stream = stream ∧ v'.filters.pending = some .requestHeaders ∧
      v'.filters.ends = Function.update v.filters.ends .requestHeaders (some .inFlight) := by
  unfold openedStream at hopen
  by_cases hgrpc : cc.grpcClient.isSome = true
  · rw [if_pos hgrpc] at hopen
    cases ho : openStream cc pr .requestHeaders with
    | error err =>
      rw [ho] at hopen
      cases hopen
    | ok opened =>
      rw [ho] at hopen
      obtain rfl := Except.ok.inj hopen
      have hok : openProcessorStream cc pr .requestHeaders v.filters =
          .ok (withStream cc v.filters opened) := by
        unfold openProcessorStream
        rw [ho]
        rfl
      refine ⟨updateState (fun _ => dispatchStage cc .requestHeaders
        (withStream cc v.filters opened)) v, ?_, ?_⟩
      · simp only [runDecodeProg, startHeaderStage, run_onLeft_touch, id_eq, hgrpc, BEq.rfl,
          Bool.true_or, Bool.and_self, if_true, hok, run_onLeft_done]
      · simp only [updateState, dispatchStage, FilterState.mark, withStream, Option.isSome_some,
          Bool.or_true, if_true, and_self]
  · rw [if_neg hgrpc] at hopen
    obtain rfl := Except.ok.inj hopen
    have hhttp : cc.httpClient.isSome = true := by
      simpa [hgrpc] using hclient
    refine ⟨updateState (fun _ => dispatchStage cc .requestHeaders v.filters) v, ?_, ?_⟩
    · simp only [runDecodeProg, startHeaderStage, run_onLeft_touch, id_eq, hgrpc, Bool.false_and,
        Bool.false_eq_true, if_false, run_onLeft_done]
    · simp only [updateState, dispatchStage, FilterState.mark, hhttp, Bool.true_or, if_true, hst,
        and_self]

def bodyReached (st : FilterState) : Bool :=
  bodyModeActive st .request && !st.skipBodyStageDispatch .request

theorem bodyStageEntry_passes (data : Bytes) (endStream : Bool)
    (hreached : bodyReached v.filters = false) :
    runDecodeProg fs name (bodyStageEntry cc .request data endStream).onLeft (c.enter v) =
      (.dataContinue, c.enter v) := by
  unfold bodyReached at hreached
  simp only [runDecodeProg, bodyStageEntry, run_onLeft_touch, id_eq]
  cases hactive : bodyModeActive v.filters .request with
  | false => rfl
  | true =>
    have hskip : v.filters.skipBodyStageDispatch .request = true := by
      simpa [hactive] using hreached
    simp only [Bool.not_true, Bool.false_eq_true, if_false, hskip, if_true, run_onLeft_done]

theorem bodyStageEntry_reached (data : Bytes) (endStream : Bool)
    (hreached : bodyReached v.filters = true) :
    runDecodeProg fs name (bodyStageEntry cc .request data endStream).onLeft (c.enter v) =
      if endStream then
        (.dataStopIterationAndBuffer, c.enter (updateState (dispatchStage cc .requestBody)
          (updateState (appendBody .request data) v)))
      else (.dataContinue, c.enter (updateState (appendBody .request data) v)) := by
  obtain ⟨hactive, hskip⟩ := Bool.and_eq_true_iff.mp hreached
  have hskip' : v.filters.skipBodyStageDispatch .request = false := by simpa using hskip
  simp only [runDecodeProg, bodyStageEntry, run_onLeft_touch, id_eq, hactive, hskip',
    Bool.not_true, Bool.false_eq_true, if_false]
  cases endStream <;> rfl

section Park
variable {f : HTTPFilter (FilterState × τ)} {d : StreamDecoderFilter (FilterState × τ)}
  (hd : d.parked = (parked cc .request).onLeft) (hpending : v.filters.pending = some s)
  (hs : s.direction = .request) (hends : v.filters.ends s ≠ some .crashed)
include hd hpending hs hends

theorem park_unanswered (hx : (exchangeStage cc s v.filters.stream).1 = none) :
    parkThenAdvance fs f d (c.enter v) = (some (.failed .ctxErr),
      { c.enter (updateState (exchangedState cc s) v) with asked := c.asked }) := by
  have hrun := parked_request cc fs f.name c v s hpending hs hends
  rw [hx] at hrun
  rw [parkThenAdvance, parkDecode, hd, hrun]
  rfl

theorem park_error (err : String)
    (hx : (exchangeStage cc s v.filters.stream).1 = some (.error err)) :
    parkThenAdvance fs f d (c.enter v) = (none, c.enter (updateState (fun st => st.mark s .failed)
      (updateState (exchangedState cc s) v))) := by
  have hrun := parked_request cc fs f.name c v s hpending hs hends
  simp only [hx, awaitStage] at hrun
  rw [completeStage_error] at hrun
  rw [parkThenAdvance, parkDecode, hd, hrun]

theorem park_plain (resp : ProcessingResponse)
    (hx : (exchangeStage cc s v.filters.stream).1 = some (.ok resp))
    (hemit : emitsReply cc resp = false) :
    parkThenAdvance fs f d (c.enter v) =
      (none, c.enter (answered cc (updateState (exchangedState cc s) v) s resp)) := by
  have hrun := parked_request cc fs f.name c v s hpending hs hends
  simp only [hx, awaitStage] at hrun
  rw [completeStage_plain cc fs f.name c _ s hs resp hemit] at hrun
  rw [parkThenAdvance, parkDecode, hd, hrun]

theorem park_immediate (resp : ProcessingResponse)
    (hx : (exchangeStage cc s v.filters.stream).1 = some (.ok resp))
    (hemit : emitsReply cc resp = true) :
    ∃ r, parkThenAdvance fs f d (c.enter v) = (none, askLocalReply fs f.name r
      (c.enter (answered cc (updateState (exchangedState cc s) v) s resp))) := by
  have hrun := parked_request cc fs f.name c v s hpending hs hends
  simp only [hx, awaitStage] at hrun
  obtain ⟨r, hr⟩ := completeStage_immediate cc fs f.name c (updateState (exchangedState cc s) v) s
    hs resp hemit
  refine ⟨r, ?_⟩
  rw [parkThenAdvance, parkDecode, hd, hrun, hr]

end Park

theorem answered_ends (v : World FilterState) (resp : ProcessingResponse) :
    (answered cc v s resp).filters.ends =
      Function.update v.filters.ends s (some (verdict cc s resp)) := by
  have hends : (applyProcessingResponse cc s resp v).world.filters.ends = v.filters.ends := by
    cases hemit : emitsReply cc resp with
    | false => exact (applyProcessingResponse_plain cc s resp v hemit).ends
    | true =>
      obtain ⟨-, -, -, he⟩ := applyProcessingResponse_immediate cc s resp v hemit
      exact he
  simp only [answered, updateState, FilterState.mark, hends]

end DecodeSide

end EnvoyGo.ExtProc

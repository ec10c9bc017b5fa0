import EnvoyGo.ExtProcStages
import EnvoyGo.LocalReplyFinality

/-!
The turn of ext_proc in a decode pass, and what it may leave behind when no stage of the
request lets the filter down but by a stream that cannot be opened.
-/

namespace EnvoyGo.ExtProc

variable {τ : Type}

/-- A stage in the hands of the processor: an answer that never comes keeps the chain parked,
an error or an answer that is not accepted does not. -/
def answersStage (cc : CompiledConfig) (s : Stage) :
    Option (Except String ProcessingResponse) → Bool
  | none => true
  | some (.error _) => false
  | some (.ok resp) => answerAccepted cc s resp

/-- The body stage has its stream and is answered.  On HTTP/2 it must not be reached: there
the chain's own refusal of a long body is lost, and the request goes on while its stage is
in flight. -/
def bodyContained (cc : CompiledConfig) (d : Downstream) (mode : ProcessingMode) (replaced : Bool)
    (stream : Option ProcessStream) : Prop :=
  mode.requestBodyMode = .buffered → replaced = false →
    d ≠ .http2 ∧ (cc.httpClient.isSome || stream.isSome) = true ∧
      answersStage cc .requestBody (exchangeStage cc .requestBody stream).1 = true

def replacesBody (resp : ProcessingResponse) : Bool :=
  (commonResponse .requestHeaders resp).any CommonResponse.continueAndReplace

/-- Neither request stage fails but by a stream that cannot be opened. -/
def requestContained (cc : CompiledConfig) (pr : ResolvedPerRoute) (d : Downstream) : Prop :=
  if headersStageStarts cc pr then
    match openedStream cc pr with
    | .error _ => True
    | .ok stream =>
      answersStage cc .requestHeaders (exchangeStage cc .requestHeaders stream).1 = true ∧
      ∀ resp, (exchangeStage cc .requestHeaders stream).1 = some (.ok resp) →
        isImmediate resp = false →
        bodyContained cc d
          (applyModeOverride cc .requestHeaders resp.modeOverride (startMode cc pr))
          (replacesBody resp) (exchangeStage cc .requestHeaders stream).2
  else bodyContained cc d (startMode cc pr) false none

def Settled (e : Option StageEnd) : Prop := e = none ∨ e = some .accepted

def Clean (st : FilterState) : Prop := ∀ s, s.direction = .request → Settled (st.ends s)

def Waiting (st : FilterState) : Prop :=
  ∀ s, s.direction = .request → Settled (st.ends s) ∨ st.ends s = some .inFlight

theorem clean_of_requestEnds {h b : Option StageEnd} {st : FilterState}
    (hst : RequestEnds h b st) (hh : Settled h) (hb : Settled b) : Clean st := by
  intro s hs
  cases s with
  | requestHeaders => exact hst.1 ▸ hh
  | requestBody => exact hst.2 ▸ hb
  | responseHeaders => cases hs
  | responseBody => cases hs

theorem Clean.waiting {st : FilterState} (h : Clean st) : Waiting st :=
  fun s hs => Or.inl (h s hs)

/-- The stream could not be opened, and the chain holds the reply for it. -/
structure Refused (c : FilterChain (FilterState × τ)) : Prop where
  ends : RequestEnds (some .openFailed) none c.world.filters.1
  noCrash : NoCrash c.world.filters.1
  status : c.localReplyStatus = 500

/-- A request that may go on: its stages so far are settled and the body's will be. -/
structure Ready (cc : CompiledConfig) (d : Downstream) (st : FilterState) : Prop where
  headers : Settled (st.ends .requestHeaders)
  body : st.ends .requestBody = none
  contained : bodyContained cc d st.activeProcessingMode (st.skipBodyStageDispatch .request)
    st.stream

structure PassPost (cc : CompiledConfig) (d : Downstream) (again : Bool) (it : Iteration)
    (c : FilterChain (FilterState × τ)) : Prop where
  failed : it.isFailed = true → Waiting c.world.filters.1
  invariant : it.isFailed = false → ReplyInvariant c
  replied : it.isFailed = false → c.localReplyDone = true →
    Waiting c.world.filters.1 ∨ Refused c
  admitted : it.isFailed = false → c.localReplyDone = false →
    Clean c.world.filters.1 ∧ (again = true → Ready cc d c.world.filters.1)
  http2 : d = .http2 → again = false → it.isFailed = false → Clean c.world.filters.1

def Going (cc : CompiledConfig) (d : Downstream) (again : Bool)
    (c : FilterChain (FilterState × τ)) : Prop :=
  ∃ h b s, Held (RequestEnds h b) s c ∧ Settled h ∧ Settled b ∧
    (c.localReplyDone = true ∨ (again = true → Ready cc d s))

theorem passPost_of_leftOff {cc : CompiledConfig} {d : Downstream} {again : Bool}
    {h b : Option StageEnd} (hh : Settled h) (hb : Settled b) {it : Iteration}
    {c : FilterChain (FilterState × τ)} (hc : LeftOff (RequestEnds h b) it c) :
    PassPost cc d again it c := by
  have hclean := clean_of_requestEnds hc.1 hh hb
  refine ⟨fun _ => hclean.waiting, fun hf => (hc.2 hf).1, fun _ _ => Or.inl hclean.waiting, ?_,
    fun _ _ _ => hclean⟩
  intro hf hdone
  have hdone' := (hc.2 hf).2
  rw [hdone] at hdone'
  cases hdone'

theorem passPost_of_held {cc : CompiledConfig} {d : Downstream} {again : Bool}
    {h b : Option StageEnd} {s : FilterState} {c : FilterChain (FilterState × τ)}
    (hc : Held (RequestEnds h b) s c) (hh : Settled h) (hb : Settled b)
    (hready : c.localReplyDone = true ∨ (again = true → Ready cc d s)) :
    PassPost cc d again .terminated c := by
  have hclean := clean_of_requestEnds hc.kept hh hb
  refine ⟨fun _ => hclean.waiting, fun _ => hc.invariant, fun _ _ => Or.inl hclean.waiting, ?_,
    fun _ _ _ => hclean⟩
  intro _ hdone
  refine ⟨hclean, ?_⟩
  have hnot : ¬c.localReplyDone = true := by simp [hdone]
  rw [hc.same.resolve_left hnot]
  exact hready.resolve_left hnot

theorem applyProcessingResponse_accepted (cc : CompiledConfig) (s : Stage)
    (resp : ProcessingResponse) (w : World FilterState) (hacc : answerAccepted cc s resp = true)
    (himm : isImmediate resp = false) :
    ∃ cr, commonResponse s resp = some cr ∧ cr.bodyMutation ≠ some .streamedResponse ∧
      applyProcessingResponse cc s resp w =
        applyCommonResponse cc s cr (updateState (overrideMode cc s resp.modeOverride) w) := by
  cases hr : resp.response with
  | immediateResponse ir => simp [isImmediate, hr] at himm
  | _ =>
    cases ht : resp.overrideMessageTimeout with
    | some d => simp [answerAccepted, hr, ht] at hacc
    | none =>
      simp only [answerAccepted, hr, ht] at hacc
      obtain ⟨cr, hcr, hbody⟩ := (Option.any_eq_true _ _).mp hacc
      refine ⟨cr, hcr, by simpa using hbody, ?_⟩
      simp only [applyProcessingResponse, hr, ht, hcr]

theorem applyCommonResponse_steered (cc : CompiledConfig) (cr : CommonResponse)
    (hbody : cr.bodyMutation ≠ some .streamedResponse) (w : World FilterState)
    (hskip : w.filters.skipBodyStageDispatch .request = false) :
    let w' := (applyCommonResponse cc .requestHeaders cr w).world.filters
    w'.activeProcessingMode = w.filters.activeProcessingMode ∧
      w'.stream = w.filters.stream ∧
      (w'.activeProcessingMode.requestBodyMode = .buffered →
        w'.skipBodyStageDispatch .request = cr.continueAndReplace) := by
  have hheader := applyHeaderStep_filters cc .requestHeaders cr w
  unfold applyCommonResponse
  cases hb : applyBodyStep .requestHeaders cr (applyHeaderStep cc .requestHeaders cr w) with
  | none => exact absurd ((applyBodyStep_eq_none_iff _ _ _).mp hb) hbody
  | some w2 =>
    have h2 := applyBodyStep_stages .requestHeaders cr _ w2 hb
    rw [hheader] at h2
    simp only []
    split_ifs with hreplace
    · refine ⟨h2.mode, h2.stream, fun _ => ?_⟩
      have hcar : cr.continueAndReplace = true :=
        (Bool.and_eq_true_iff.mp (Bool.and_eq_true_iff.mp hreplace).1).1
      simp only [hcar, Stage.direction, Function.update_self]
    · refine ⟨h2.mode, h2.stream, fun hbuffered => ?_⟩
      have hactive : bodyModeActive w2.filters Stage.requestHeaders.direction = true :=
        beq_iff_eq.mpr hbuffered
      have hcar : cr.continueAndReplace = false := by
        by_contra hne
        have htrue : cr.continueAndReplace = true := by simpa using hne
        exact hreplace (by rw [htrue, hactive]; rfl)
      rw [hcar, h2.skip]
      exact hskip

theorem answered_steered (cc : CompiledConfig) (v : World FilterState) (resp : ProcessingResponse)
    (hacc : answerAccepted cc .requestHeaders resp = true) (himm : isImmediate resp = false)
    (hskip : v.filters.skipBodyStageDispatch .request = false) :
    (answered cc v .requestHeaders resp).filters.activeProcessingMode =
        applyModeOverride cc .requestHeaders resp.modeOverride v.filters.activeProcessingMode ∧
      (answered cc v .requestHeaders resp).filters.stream = v.filters.stream ∧
      ((answered cc v .requestHeaders resp).filters.activeProcessingMode.requestBodyMode =
          .buffered →
        (answered cc v .requestHeaders resp).filters.skipBodyStageDispatch .request =
          replacesBody resp) := by
  obtain ⟨cr, hcr, hbody, happly⟩ :=
    applyProcessingResponse_accepted cc .requestHeaders resp v hacc himm
  have hreplaces : replacesBody resp = cr.continueAndReplace := by
    simp only [replacesBody, hcr, Option.any_some]
  simp only [answered, updateState, FilterState.mark, happly, hreplaces]
  exact applyCommonResponse_steered cc cr hbody
    (updateState (overrideMode cc .requestHeaders resp.modeOverride) v) hskip

def decoderOf (cc : CompiledConfig) (perRoute : Option ExtProcPerRoute) :
    StreamDecoderFilter (FilterState × τ) :=
  StreamDecoderFilter.transport FilterProg.onLeft
    { decodeHeaders := fun _ => decodeHeaders cc (resolvePerRouteConfig cc perRoute)
      decodeData := bodyStageEntry cc .request
      parked := parked cc .request }

section Turn
variable (cc : CompiledConfig) (perRoute : Option ExtProcPerRoute)
  (fs : List (HTTPFilter (FilterState × τ))) (endStream : Bool)
  (c c1 : FilterChain (FilterState × τ)) (hdone : c.localReplyDone = false)
include hdone

theorem headersTurn (status : FilterHeadersStatus)
    (hrun : runDecodeProg fs (extProcFilter cc perRoute).name
      (decodeHeaders cc (resolvePerRouteConfig cc perRoute)).onLeft (c.enter c.world.left) =
        (status, c1)) :
    decodeVisit fs (fun d => d.decodeHeaders endStream) (reactDecodeHeaders fs)
        (extProcFilter cc perRoute).onLeft c =
      if c1.localReplyDone then (some .aborted, c1)
      else reactDecodeHeaders fs (extProcFilter cc perRoute).onLeft (decoderOf cc perRoute)
        status c1 :=
  decodeVisit_of_run fs (fun d => d.decodeHeaders endStream) (reactDecodeHeaders fs)
    (extProcFilter cc perRoute).onLeft (decoderOf cc perRoute) rfl c c1 hdone status hrun

theorem dataTurn (data : Bytes) (status : FilterDataStatus)
    (hrun : runDecodeProg fs (extProcFilter cc perRoute).name
      (bodyStageEntry cc .request data endStream).onLeft (c.enter c.world.left) = (status, c1)) :
    decodeVisit fs (fun d => d.decodeData data endStream) (reactDecodeData fs data)
        (extProcFilter cc perRoute).onLeft c =
      if c1.localReplyDone then (some .aborted, c1)
      else reactDecodeData fs data (extProcFilter cc perRoute).onLeft (decoderOf cc perRoute)
        status c1 :=
  decodeVisit_of_run fs (fun d => d.decodeData data endStream) (reactDecodeData fs data)
    (extProcFilter cc perRoute).onLeft (decoderOf cc perRoute) rfl c c1 hdone status hrun

end Turn

theorem settled_none : Settled none := Or.inl rfl

theorem not_settled_of_ne {e : StageEnd} (he : e ≠ .accepted) : ¬Settled (some e) := by
  rintro (hnone | hacc)
  · cases hnone
  · exact he (Option.some.inj hacc)

section Pass
variable (cc : CompiledConfig) (perRoute : Option ExtProcPerRoute) (n : Nat)
  (others : List (HTTPFilter τ)) (d : Downstream)

section Others
variable {st : Type} (again : Bool)
  (call : StreamDecoderFilter (FilterState × τ) → FilterProg (FilterState × τ) st)
  (react : HTTPFilter (FilterState × τ) → StreamDecoderFilter (FilterState × τ) → st →
    FilterChain (FilterState × τ) → Option Iteration × FilterChain (FilterState × τ))
  (hright : ∀ h b s (f : HTTPFilter τ) c, Held (RequestEnds h b) s c →
    VisitSpec (Held (RequestEnds h b) s) (LeftOff (RequestEnds h b))
      (decodeVisit (insertExtProc cc perRoute n others) call react f.onRight c))
  {h b : Option StageEnd} {s : FilterState} (hh : Settled h) (hb : Settled b)
include hright hh hb

theorem otherTurn (f : HTTPFilter τ) (c : FilterChain (FilterState × τ))
    (hc : Held (RequestEnds h b) s c) :
    VisitSpec (Held (RequestEnds h b) s) (PassPost cc d again)
      (decodeVisit (insertExtProc cc perRoute n others) call react f.onRight c) := by
  have hv := hright h b s f c hc
  rcases hx : decodeVisit (insertExtProc cc perRoute n others) call react f.onRight c
    with ⟨it, c'⟩
  rw [hx] at hv
  cases it with
  | none => exact hv
  | some it => exact passPost_of_leftOff hh hb hv

theorem restOfPass (fs : List (HTTPFilter τ)) (c : FilterChain (FilterState × τ))
    (hc : Held (RequestEnds h b) s c)
    (hready : c.localReplyDone = true ∨ (again = true → Ready cc d s)) :
    PassPost cc d again
      (decodeLoop (insertExtProc cc perRoute n others) call react (fs.map HTTPFilter.onRight) c).1
      (decodeLoop (insertExtProc cc perRoute n others) call react
        (fs.map HTTPFilter.onRight) c).2 := by
  rw [← List.append_nil (fs.map HTTPFilter.onRight)]
  apply decodeLoop_through (Q := fun c => Held (RequestEnds h b) s c ∧
    (c.localReplyDone = true ∨ (again = true → Ready cc d s))) (R := PassPost cc d again)
  · rintro g hg c ⟨hheld, hready⟩
    obtain ⟨f, -, rfl⟩ := List.mem_map.mp hg
    rcases hready with hdone | hready
    · rw [decodeVisit_of_done _ _ _ _ _ hdone]
      exact passPost_of_leftOff hh hb ⟨hheld.kept, fun _ => ⟨hheld.invariant, hdone⟩⟩
    · have hv := otherTurn cc perRoute n others d again call react hright hh hb f c hheld
      rcases hx : decodeVisit (insertExtProc cc perRoute n others) call react f.onRight c
        with ⟨it, c2⟩
      rw [hx] at hv
      cases it with
      | none => exact ⟨hv, Or.inr hready⟩
      | some it => exact hv
  · rintro c ⟨hheld, hready⟩
    exact passPost_of_held hheld hh hb hready
  · exact ⟨hc, hready⟩

theorem pass_spec
    (hturn : ∀ c, Held (RequestEnds h b) s c →
      VisitSpec (Going cc d again) (PassPost cc d again)
        (decodeVisit (insertExtProc cc perRoute n others) call react
          (extProcFilter cc perRoute).onLeft c))
    (c : FilterChain (FilterState × τ)) (hc : Held (RequestEnds h b) s c) :
    PassPost cc d again
      (decodeLoop (insertExtProc cc perRoute n others) call react
        (insertExtProc cc perRoute n others) c).1
      (decodeLoop (insertExtProc cc perRoute n others) call react
        (insertExtProc cc perRoute n others) c).2 := by
  apply decodeLoop_through (Q := Held (RequestEnds h b) s) (R := PassPost cc d again)
  · intro g hg c hc
    obtain ⟨f, -, rfl⟩ := List.mem_map.mp hg
    exact otherTurn cc perRoute n others d again call react hright hh hb f c hc
  · intro c hc
    have ht := hturn c hc
    rw [decodeLoop_cons]
    rcases hx : decodeVisit (insertExtProc cc perRoute n others) call react
      (extProcFilter cc perRoute).onLeft c with ⟨it, c'⟩
    rw [hx] at ht
    cases it with
    | some it => exact ht
    | none =>
      obtain ⟨h', b', s', hc', hh', hb', hready⟩ := ht
      exact restOfPass cc perRoute n others d again call react hright hh' hb' (others.drop n) c'
        hc' hready
  · exact hc

end Others

variable (hclient : (cc.httpClient.isSome || cc.grpcClient.isSome) = true)
include hclient

omit hclient in
theorem not_immediate_of_accepted (s : Stage) (resp : ProcessingResponse)
    (hacc : answerAccepted cc s resp = true) (hemit : emitsReply cc resp = false) :
    isImmediate resp = false := by
  by_contra hne
  have himm : isImmediate resp = true := by simpa using hne
  have henabled : cc.disableImmediateResponse = false := by
    unfold isImmediate at himm
    split at himm
    · rename_i ir hr
      simpa [answerAccepted, hr] using hacc
    · cases himm
  rw [emitsReply, himm, henabled] at hemit
  cases hemit

theorem acceptedTurn (again : Bool) (s : Stage) (hs : s.direction = .request)
    (c : FilterChain (FilterState × τ)) (hinv : ReplyInvariant c) (v : World FilterState)
    (hpending : v.filters.pending = some s) (hflight : v.filters.ends s = some .inFlight)
    (hclean : ∀ s', s'.direction = .request → s' ≠ s → Settled (v.filters.ends s'))
    (resp : ProcessingResponse)
    (hx : (exchangeStage cc s v.filters.stream).1 = some (.ok resp))
    (hacc : answerAccepted cc s resp = true)
    (hready : isImmediate resp = false → again = true →
      Ready cc d (answered cc (updateState (exchangedState cc s) v) s resp).filters) :
    VisitSpec (Going cc d again) (PassPost cc d again)
      (parkThenAdvance (insertExtProc cc perRoute n others) (extProcFilter cc perRoute).onLeft
        (decoderOf cc perRoute) (c.enter v)) := by
  have hcrash : v.filters.ends s ≠ some .crashed := by
    rw [hflight]
    decide
  have hends := answered_ends cc s (updateState (exchangedState cc s) v) resp
  rw [verdict, if_pos hacc] at hends
  have hsettled : ∀ s', s'.direction = .request → Settled
      ((answered cc (updateState (exchangedState cc s) v) s resp).filters.ends s') := by
    intro s' hs'
    rw [hends]
    by_cases hne : s' = s
    · rw [hne, Function.update_self]
      exact Or.inr rfl
    · rw [Function.update_of_ne hne]
      exact hclean s' hs' hne
  generalize hv' : answered cc (updateState (exchangedState cc s) v) s resp = v' at hsettled hready
  have hheld : Held (RequestEnds (v'.filters.ends .requestHeaders)
      (v'.filters.ends .requestBody)) v'.filters (c.enter v') :=
    held_enter hinv v' ⟨rfl, rfl⟩
  cases hemit : emitsReply cc resp with
  | true =>
    obtain ⟨r, hr⟩ := park_immediate cc (insertExtProc cc perRoute n others) c s
      (f := (extProcFilter cc perRoute).onLeft) (d := decoderOf cc perRoute)
      rfl hpending hs hcrash resp hx hemit
    rw [hr, hv']
    refine ⟨_, _, _, askLocalReply_held (encodersKeep_requestEnds cc perRoute n others
      hclient _ _) _ r _ hheld, hsettled _ rfl, hsettled _ rfl, Or.inl ?_⟩
    exact askLocalReply_done _ _ r _ hheld.invariant
  | false =>
    rw [park_plain cc _ c s rfl hpending hs hcrash resp hx hemit, hv']
    exact ⟨_, _, _, hheld, hsettled _ rfl, hsettled _ rfl,
      Or.inr (hready (not_immediate_of_accepted cc s resp hacc hemit))⟩

theorem parkedTurn (again : Bool) (s : Stage) (hs : s.direction = .request)
    (c : FilterChain (FilterState × τ)) (hinv : ReplyInvariant c) (v : World FilterState)
    (hpending : v.filters.pending = some s) (hflight : v.filters.ends s = some .inFlight)
    (hclean : ∀ s', s'.direction = .request → s' ≠ s → Settled (v.filters.ends s'))
    (hanswers : answersStage cc s (exchangeStage cc s v.filters.stream).1 = true)
    (hready : ∀ resp, (exchangeStage cc s v.filters.stream).1 = some (.ok resp) →
      isImmediate resp = false → again = true →
      Ready cc d (answered cc (updateState (exchangedState cc s) v) s resp).filters) :
    VisitSpec (Going cc d again) (PassPost cc d again)
      (parkThenAdvance (insertExtProc cc perRoute n others) (extProcFilter cc perRoute).onLeft
        (decoderOf cc perRoute) (c.enter v)) := by
  cases hx : (exchangeStage cc s v.filters.stream).1 with
  | none =>
    have hcrash : v.filters.ends s ≠ some .crashed := by
      rw [hflight]
      decide
    rw [park_unanswered cc _ c s rfl hpending hs hcrash hx]
    have hwaiting : Waiting v.filters := by
      intro s' hs'
      by_cases hne : s' = s
      · exact Or.inr (hne ▸ hflight)
      · exact Or.inl (hclean s' hs' hne)
    refine ⟨fun _ => hwaiting, fun hf => ?_, fun hf => ?_, fun hf => ?_, fun _ _ hf => ?_⟩ <;>
      cases hf
  | some r =>
    rw [hx] at hanswers
    cases r with
    | error err => cases hanswers
    | ok resp =>
      exact acceptedTurn cc perRoute n others d hclient again s hs c hinv v hpending hflight
        hclean resp hx hanswers (hready resp hx)

omit hclient in
theorem passPost_of_done {h b : Option StageEnd} {st : FilterState} {again : Bool}
    {c : FilterChain (FilterState × τ)} (hc : Held (RequestEnds h b) st c) (hh : Settled h)
    (hb : Settled b) (hdone : c.localReplyDone = true) : PassPost cc d again .aborted c :=
  passPost_of_leftOff hh hb ⟨hc.kept, fun _ => ⟨hc.invariant, hdone⟩⟩

omit hclient in
theorem ready_of_answered (v : World FilterState) (resp : ProcessingResponse)
    (hacc : answerAccepted cc .requestHeaders resp = true) (himm : isImmediate resp = false)
    (hskip : v.filters.skipBodyStageDispatch .request = false)
    (hbody : v.filters.ends .requestBody = none)
    (hcontained : bodyContained cc d
      (applyModeOverride cc .requestHeaders resp.modeOverride v.filters.activeProcessingMode)
      (replacesBody resp) v.filters.stream) :
    Ready cc d (answered cc v .requestHeaders resp).filters := by
  obtain ⟨hmode, hstream, hreplaced⟩ := answered_steered cc v resp hacc himm hskip
  have hends := answered_ends cc .requestHeaders v resp
  refine ⟨?_, ?_, ?_⟩
  · rw [hends, Function.update_self, verdict, if_pos hacc]
    exact Or.inr rfl
  · rw [hends, Function.update_of_ne (by decide), hbody]
  · intro hbuffered hkept
    rw [hreplaced hbuffered] at hkept
    rw [hmode] at hbuffered
    rw [hstream]
    exact hcontained hbuffered hkept

theorem refused_of_openFailed (name : String) (c : FilterChain (FilterState × τ))
    (hinv : ReplyInvariant c) (hdone : c.localReplyDone = false) (v : World FilterState)
    (hends : v.filters.ends = fun _ => none) :
    Refused (askLocalReply (insertExtProc cc perRoute n others) name
      { status := 500, body := [], headers := [] }
      (c.enter (updateState (fun st => st.mark .requestHeaders .openFailed) v))) := by
  have hmarked :
      RequestEnds (some .openFailed) none (v.filters.mark .requestHeaders .openFailed) := by
    refine ⟨mark_ends_self _ _ _, ?_⟩
    rw [mark_ends_of_ne _ _ _ _ (by decide), hends]
  have hcrash : NoCrash (v.filters.mark .requestHeaders .openFailed) := by
    apply noCrash_mark _ _ _ (by decide)
    intro s
    rw [hends]
    exact fun h => by cases h
  refine ⟨?_, ?_, ?_⟩
  · exact (encodersKeep_requestEnds cc perRoute n others hclient _ _).askLocalReply name _ _ hmarked
  · have hkeeps := headerEncodersKeep_insertExtProc cc perRoute n others hclient (P := NoCrash)
      (fun st st' he h s => by rw [he]; exact h s)
      (fun st s e _ he h => noCrash_mark st s e he h)
    exact hkeeps.askLocalReply name _ rfl _ hcrash
  · exact askLocalReply_status _ _ _ _ (enter_invariant hinv _) hdone

section HeadersTurn
variable (endStream : Bool) (c : FilterChain (FilterState × τ)) (hinv : ReplyInvariant c)
  (hdone : c.localReplyDone = false) (hv : c.world.left.filters = newFilter cc)
include hinv hdone hv

omit hclient in
theorem headersTurn_passes
    (hstarts : headersStageStarts cc (resolvePerRouteConfig cc perRoute) = false)
    (hcond : bodyContained cc d (startMode cc (resolvePerRouteConfig cc perRoute)) false none) :
    VisitSpec (Going cc d true) (PassPost cc d true)
      (decodeVisit (insertExtProc cc perRoute n others) (fun d => d.decodeHeaders endStream)
        (reactDecodeHeaders (insertExtProc cc perRoute n others))
        (extProcFilter cc perRoute).onLeft c) := by
  obtain ⟨v', hrun, hsteer, hnone, -⟩ := decodeHeaders_passes cc _
    (insertExtProc cc perRoute n others) (extProcFilter cc perRoute).name c hv hstarts
  have hends : RequestEnds none none v'.filters := ⟨congrFun hnone _, congrFun hnone _⟩
  rw [headersTurn cc perRoute _ endStream c _ hdone _ hrun,
    if_neg (by simp [FilterChain.enter, hdone])]
  refine ⟨none, none, v'.filters, held_enter hinv v' hends, settled_none, settled_none,
    Or.inr fun _ => ⟨hends.1 ▸ settled_none, hends.2, ?_⟩⟩
  rw [hsteer.mode, hsteer.skip, hsteer.stream]
  exact hcond

theorem headersTurn_openFailed (hclosed : cc.failureModeAllow = false)
    (hstarts : headersStageStarts cc (resolvePerRouteConfig cc perRoute) = true) (err : String)
    (hopen : openedStream cc (resolvePerRouteConfig cc perRoute) = .error err) :
    VisitSpec (Going cc d true) (PassPost cc d true)
      (decodeVisit (insertExtProc cc perRoute n others) (fun d => d.decodeHeaders endStream)
        (reactDecodeHeaders (insertExtProc cc perRoute n others))
        (extProcFilter cc perRoute).onLeft c) := by
  obtain ⟨v1, hrun, -, hends, -⟩ := decodeHeaders_starts cc _
    (insertExtProc cc perRoute n others) (extProcFilter cc perRoute).name c hv hstarts
  rw [startHeaderStage_openFailed cc _ _ _ c hclosed err hopen] at hrun
  have hmarked := enter_invariant hinv
    (updateState (fun st => st.mark .requestHeaders .openFailed) v1)
  have hreply := askLocalReply_done (insertExtProc cc perRoute n others)
    (extProcFilter cc perRoute).name { status := 500, body := [], headers := [] } _ hmarked
  have hrefused := refused_of_openFailed cc perRoute n others hclient
    (extProcFilter cc perRoute).name c hinv hdone v1 hends
  rw [headersTurn cc perRoute _ endStream c _ hdone _ hrun, if_pos hreply]
  refine ⟨fun hf => ?_, fun _ => ?_, fun _ _ => Or.inr hrefused, fun _ hd => ?_, fun _ ha => ?_⟩
  · cases hf
  · exact askLocalReply_invariant _ _ _ _ hmarked
  · rw [hreply] at hd
    cases hd
  · cases ha

theorem headersTurn_dispatches
    (hstarts : headersStageStarts cc (resolvePerRouteConfig cc perRoute) = true)
    (stream : Option ProcessStream)
    (hopen : openedStream cc (resolvePerRouteConfig cc perRoute) = .ok stream)
    (hanswers : answersStage cc .requestHeaders
      (exchangeStage cc .requestHeaders stream).1 = true)
    (hbody : ∀ resp, (exchangeStage cc .requestHeaders stream).1 = some (.ok resp) →
      isImmediate resp = false →
      bodyContained cc d
        (applyModeOverride cc .requestHeaders resp.modeOverride
          (startMode cc (resolvePerRouteConfig cc perRoute)))
        (replacesBody resp) (exchangeStage cc .requestHeaders stream).2) :
    VisitSpec (Going cc d true) (PassPost cc d true)
      (decodeVisit (insertExtProc cc perRoute n others) (fun d => d.decodeHeaders endStream)
        (reactDecodeHeaders (insertExtProc cc perRoute n others))
        (extProcFilter cc perRoute).onLeft c) := by
  obtain ⟨v1, hrun, hsteer, hends, -⟩ := decodeHeaders_starts cc _
    (insertExtProc cc perRoute n others) (extProcFilter cc perRoute).name c hv hstarts
  obtain ⟨v2, hrun2, hmode, hskip, hstream, hpending, hends2⟩ :=
    startHeaderStage_dispatches cc _ (insertExtProc cc perRoute n others)
      (extProcFilter cc perRoute).name c stream hclient hsteer.stream hopen
  rw [hrun2] at hrun
  rw [hends] at hends2
  rw [headersTurn cc perRoute _ endStream c _ hdone _ hrun,
    if_neg (by simp [FilterChain.enter, hdone])]
  apply parkedTurn cc perRoute n others d hclient true .requestHeaders rfl c hinv v2 hpending
  · rw [hends2, Function.update_self]
  · intro s' _ hne
    rw [hends2, Function.update_of_ne hne]
    exact settled_none
  · rw [hstream]
    exact hanswers
  · intro resp hx himm _
    rw [hstream] at hx
    have hacc : answerAccepted cc .requestHeaders resp = true := by
      rw [hx] at hanswers
      exact hanswers
    have hcontained := hbody resp hx himm
    rw [← hsteer.mode, ← hmode, ← hstream] at hcontained
    apply ready_of_answered cc d _ resp hacc himm _ _ hcontained
    · exact (congrFun hskip .request).trans hsteer.skip
    · exact (congrFun hends2 .requestBody).trans (Function.update_of_ne (by decide) _ _)

end HeadersTurn

theorem headersTurn_spec (hclosed : cc.failureModeAllow = false) (endStream : Bool)
    (hcond : requestContained cc (resolvePerRouteConfig cc perRoute) d)
    (c : FilterChain (FilterState × τ)) (hc : Held (RequestEnds none none) (newFilter cc) c) :
    VisitSpec (Going cc d true) (PassPost cc d true)
      (decodeVisit (insertExtProc cc perRoute n others) (fun d => d.decodeHeaders endStream)
        (reactDecodeHeaders (insertExtProc cc perRoute n others))
        (extProcFilter cc perRoute).onLeft c) := by
  cases hdone : c.localReplyDone with
  | true =>
    rw [decodeVisit_of_done _ _ _ _ _ hdone]
    exact passPost_of_done cc d hc settled_none settled_none hdone
  | false =>
    have hv : c.world.left.filters = newFilter cc := hc.same.resolve_left (by simp [hdone])
    unfold requestContained at hcond
    cases hstarts : headersStageStarts cc (resolvePerRouteConfig cc perRoute) with
    | false =>
      rw [hstarts, if_neg (by decide)] at hcond
      exact headersTurn_passes cc perRoute n others d endStream c hc.invariant hdone hv hstarts
        hcond
    | true =>
      rw [hstarts, if_pos rfl] at hcond
      cases hopen : openedStream cc (resolvePerRouteConfig cc perRoute) with
      | error err =>
        exact headersTurn_openFailed cc perRoute n others d hclient endStream c hc.invariant
          hdone hv hclosed hstarts err hopen
      | ok stream =>
        rw [hopen] at hcond
        exact headersTurn_dispatches cc perRoute n others d hclient endStream c hc.invariant
          hdone hv hstarts stream hopen hcond.1 hcond.2

omit hclient in
theorem dispatchedBody (data : Bytes) (v : World FilterState)
    (hstream : (cc.httpClient.isSome || v.filters.stream.isSome) = true) :
    (updateState (dispatchStage cc .requestBody)
      (updateState (appendBody .request data) v)).filters.ends =
        Function.update v.filters.ends .requestBody (some .inFlight) := by
  simp only [updateState, appendBody, dispatchStage, FilterState.mark, hstream, if_true]

theorem dispatchedTurn (data : Bytes) (h : Option StageEnd) (hh : Settled h) (hproto : d ≠ .http2)
    (c : FilterChain (FilterState × τ)) (hinv : ReplyInvariant c) (v : World FilterState)
    (hends : RequestEnds h (some .inFlight) v.filters)
    (hpending : v.filters.pending = some .requestBody)
    (hanswers : answersStage cc .requestBody
      (exchangeStage cc .requestBody v.filters.stream).1 = true) :
    VisitSpec (Going cc d false) (PassPost cc d false)
      (reactDecodeData (insertExtProc cc perRoute n others) data
        (extProcFilter cc perRoute).onLeft (decoderOf cc perRoute) .dataStopIterationAndBuffer
        (c.enter v)) := by
  simp only [reactDecodeData]
  split_ifs
  · have hover : ReplyInvariant { c.enter v with decodeBufOver := true } :=
      hinv.of_frame (.update ..)
    have hreply := askLocalReply_done (insertExtProc cc perRoute n others)
      (extProcFilter cc perRoute).name localReply413 _ hover
    have hkept := (encodersKeep_requestEnds cc perRoute n others hclient h
      (some .inFlight)).askLocalReply (extProcFilter cc perRoute).name localReply413
      { c.enter v with decodeBufOver := true } hends
    refine ⟨fun hf => ?_, fun _ => ?_, fun _ _ => Or.inl ?_, fun _ hd => ?_, fun hd => ?_⟩
    · cases hf
    · exact askLocalReply_invariant _ _ _ _ hover
    · intro s hs
      cases s with
      | requestHeaders => exact Or.inl (hkept.1 ▸ hh)
      | requestBody => exact Or.inr hkept.2
      | responseHeaders => cases hs
      | responseBody => cases hs
    · have habsurd : true = false := hreply.symm.trans hd
      cases habsurd
    · exact absurd hd hproto
  · have hpark := parkedTurn cc perRoute n others d hclient false .requestBody rfl
      { c with decodeBuf := c.decodeBuf ++ data } (hinv.of_frame (.update ..))
      v hpending hends.2
    apply hpark
    · intro s hs hne
      cases s with
      | requestHeaders => exact hends.1 ▸ hh
      | requestBody => exact absurd rfl hne
      | responseHeaders => cases hs
      | responseBody => cases hs
    · exact hanswers
    · intro resp _ _ hagain
      cases hagain

section DataTurn
variable (data : Bytes) (h : Option StageEnd) (hh : Settled h) (st : FilterState)
  (hready : Ready cc d st) (c : FilterChain (FilterState × τ)) (hinv : ReplyInvariant c)
  (hdone : c.localReplyDone = false) (hv : c.world.left.filters = st)
  (hends : RequestEnds h none st) (hreached : bodyReached st = true)
include hh hready hinv hdone hv hends hreached

omit hclient in
theorem dataTurn_keeps :
    VisitSpec (Going cc d true) (PassPost cc d true)
      (decodeVisit (insertExtProc cc perRoute n others) (fun d => d.decodeData data false)
        (reactDecodeData (insertExtProc cc perRoute n others) data)
        (extProcFilter cc perRoute).onLeft c) := by
  have hrun := bodyStageEntry_reached cc (insertExtProc cc perRoute n others)
    (extProcFilter cc perRoute).name c data false (hv.symm ▸ hreached)
  rw [if_neg (by decide)] at hrun
  rw [dataTurn cc perRoute _ false c _ hdone data _ hrun,
    if_neg (by simp [FilterChain.enter, hdone])]
  refine ⟨h, none, _, held_enter hinv _ ?_, hh, settled_none, Or.inr fun _ => ?_⟩
  · simp only [updateState, appendBody, hv]
    exact hends
  · simp only [updateState, appendBody, hv]
    exact ⟨hready.headers, hready.body, hready.contained⟩

theorem dataTurn_dispatches :
    VisitSpec (Going cc d false) (PassPost cc d false)
      (decodeVisit (insertExtProc cc perRoute n others) (fun d => d.decodeData data true)
        (reactDecodeData (insertExtProc cc perRoute n others) data)
        (extProcFilter cc perRoute).onLeft c) := by
  obtain ⟨hactive, hskip⟩ := Bool.and_eq_true_iff.mp hreached
  have hbuffered : st.activeProcessingMode.requestBodyMode = .buffered := beq_iff_eq.mp hactive
  obtain ⟨hproto, hstream, hanswers⟩ := hready.contained hbuffered (by simpa using hskip)
  have hrun := bodyStageEntry_reached cc (insertExtProc cc perRoute n others)
    (extProcFilter cc perRoute).name c data true (hv.symm ▸ hreached)
  rw [if_pos rfl] at hrun
  have hflight := dispatchedBody cc data c.world.left (by rw [hv]; exact hstream)
  rw [hv] at hflight
  rw [dataTurn cc perRoute _ true c _ hdone data _ hrun,
    if_neg (by simp [FilterChain.enter, hdone])]
  have hpost := dispatchedTurn cc perRoute n others d hclient data h hh hproto c hinv
    (updateState (dispatchStage cc .requestBody)
      (updateState (appendBody .request data) c.world.left))
  apply hpost
  · refine ⟨?_, ?_⟩
    · rw [hflight, Function.update_of_ne (by decide)]
      exact hends.1
    · rw [hflight, Function.update_self]
  · rfl
  · have hsame : (updateState (dispatchStage cc .requestBody)
        (updateState (appendBody .request data) c.world.left)).filters.stream =
        c.world.left.filters.stream := rfl
    rw [hsame, hv]
    exact hanswers

end DataTurn

theorem dataTurn_spec (data : Bytes) (endStream : Bool) (h : Option StageEnd) (hh : Settled h)
    (st : FilterState) (hready : Ready cc d st) (c : FilterChain (FilterState × τ))
    (hc : Held (RequestEnds h none) st c) :
    VisitSpec (Going cc d (!endStream)) (PassPost cc d (!endStream))
      (decodeVisit (insertExtProc cc perRoute n others) (fun d => d.decodeData data endStream)
        (reactDecodeData (insertExtProc cc perRoute n others) data)
        (extProcFilter cc perRoute).onLeft c) := by
  cases hdone : c.localReplyDone with
  | true =>
    rw [decodeVisit_of_done _ _ _ _ _ hdone]
    exact passPost_of_done cc d hc hh settled_none hdone
  | false =>
    have hv : c.world.left.filters = st := hc.same.resolve_left (by simp [hdone])
    have hends : RequestEnds h none st := hv ▸ hc.kept
    cases hreached : bodyReached st with
    | false =>
      have hrun := bodyStageEntry_passes cc (insertExtProc cc perRoute n others)
        (extProcFilter cc perRoute).name c data endStream (hv.symm ▸ hreached)
      rw [dataTurn cc perRoute _ endStream c _ hdone data _ hrun,
        if_neg (by simp [FilterChain.enter, hdone])]
      exact ⟨h, none, st, hc, hh, settled_none, Or.inr fun _ => hready⟩
    | true =>
      cases endStream with
      | false =>
        exact dataTurn_keeps cc perRoute n others d data h hh st hready c hc.invariant hdone
          hv hends hreached
      | true =>
        exact dataTurn_dispatches cc perRoute n others d hclient data h hh st hready c
          hc.invariant hdone hv hends hreached

end Pass

end EnvoyGo.ExtProc

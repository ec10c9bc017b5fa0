import EnvoyGo.ExtProcFailClosed

/-!
Stages without a stream.  Only the header callbacks open one, and the body callbacks take it
for granted, so what counts is whether a body stage can come first.
-/

namespace EnvoyGo

section DecodeKeeps
variable {σ α : Type} {P : σ → Prop} {fs : List (HTTPFilter σ)}

def DecodeKeeps (P : σ → Prop) (fs : List (HTTPFilter σ)) (name : String) (p : FilterProg σ α) :
    Prop :=
  ∀ c, P c.world.filters → P (runDecodeProg fs name p c).2.world.filters

theorem parkThenAdvance_keeps (f : HTTPFilter σ) (d : StreamDecoderFilter σ)
    (hpark : DecodeKeeps P fs f.name d.parked) (c : FilterChain σ) (hc : P c.world.filters) :
    P (parkThenAdvance fs f d c).2.world.filters := by
  have h := hpark c hc
  unfold parkThenAdvance parkDecode
  rcases hr : runDecodeProg fs f.name d.parked c with ⟨wake, c'⟩
  rw [hr] at h
  cases wake <;> exact h

theorem reactDecodeData_keeps (hfs : EncodersKeep P fs) (data : Bytes) (f : HTTPFilter σ)
    (d : StreamDecoderFilter σ) (hpark : DecodeKeeps P fs f.name d.parked)
    (status : FilterDataStatus) (c : FilterChain σ) (hc : P c.world.filters) :
    P (reactDecodeData fs data f d status c).2.world.filters := by
  cases status with
  | dataContinue => exact hc
  | dataStopIterationAndBuffer =>
    simp only [reactDecodeData]
    split_ifs
    · exact hfs.askLocalReply f.name localReply413 _ hc
    · exact parkThenAdvance_keeps f d hpark _ hc
  | dataStopIterationNoBuffer => exact parkThenAdvance_keeps f d hpark c hc
  | dataTerminateStream => exact hc
  | unknown code => exact hc

theorem runDecodeData_keeps (hfs : EncodersKeep P fs) (data : Bytes) (endStream : Bool)
    (hcall : ∀ f ∈ fs, ∀ d, f.decoder = some d →
      DecodeKeeps P fs f.name (d.decodeData data endStream) ∧ DecodeKeeps P fs f.name d.parked)
    (c : FilterChain σ) (hc : P c.world.filters) :
    P (runDecodeData fs data endStream c).2.world.filters := by
  have hpass := decodeLoop_through fs (fun d => d.decodeData data endStream)
    (reactDecodeData fs data) (Q := fun c => P c.world.filters)
    (R := fun _ c => P c.world.filters) fs [] ?_ (fun _ h => h) c hc
  · rw [List.append_nil] at hpass
    exact hpass
  · intro f hf c hc
    unfold decodeVisit
    split_ifs
    · exact hc
    · cases hd : f.decoder with
      | none => exact hc
      | some d =>
        obtain ⟨hdata, hpark⟩ := hcall f hf d hd
        have hrun := hdata c hc
        rcases hr : runDecodeProg fs f.name (d.decodeData data endStream) c with ⟨status, c1⟩
        rw [hr] at hrun
        simp only [hr]
        split_ifs
        · exact hrun
        · have hreact := reactDecodeData_keeps hfs data f d hpark status c1 hrun
          rcases hx : reactDecodeData fs data f d status c1 with ⟨it, c2⟩
          rw [hx] at hreact
          cases it <;> exact hreact

theorem feedBody_keeps
    (hdata : ∀ data endStream c, P c.world.filters →
      P (runDecodeData fs data endStream c).2.world.filters)
    (bs : List Bytes) (c : FilterChain σ) (hc : P c.world.filters) :
    P (feedBody fs bs c).2.world.filters := by
  induction bs generalizing c with
  | nil => exact hc
  | cons b bs ih =>
    rw [feedBody]
    split_ifs
    · exact ih c hc
    · have h := hdata b false c hc
      rcases hr : runDecodeData fs b false c with ⟨it, c'⟩
      rw [hr] at h
      cases it with
      | failed err => exact h
      | terminated => exact ih c' h
      | aborted => exact ih c' h

theorem decodeRequestBody_keeps
    (hdata : ∀ data endStream c, P c.world.filters →
      P (runDecodeData fs data endStream c).2.world.filters)
    (q : HTTPRequest) (c : FilterChain σ) (hc : P c.world.filters) :
    P (decodeRequestBody fs q c).2.world.filters := by
  unfold decodeRequestBody
  cases bodyToRead q with
  | none => exact hc
  | some r =>
    have hfeed := feedBody_keeps hdata r.chunks c hc
    simp only [decodeBody]
    rcases hr : feedBody fs r.chunks c with ⟨err, c1⟩
    rw [hr] at hfeed
    cases err with
    | some err => exact hfeed
    | none =>
      have hlast := hdata r.last true c1 hfeed
      simp only []
      rcases hl : runDecodeData fs r.last true c1 with ⟨it, c2⟩
      rw [hl] at hlast
      cases it <;> exact hlast

end DecodeKeeps

section Scope
variable {ρ τ α : Type} {P : ρ → Prop} {fs : List (HTTPFilter (ρ × τ))}

theorem decodeKeeps_onRight (hfs : EncodersKeep (fun x : ρ × τ => P x.1) fs) (name : String)
    (p : FilterProg τ α) : DecodeKeeps (fun x : ρ × τ => P x.1) fs name p.onRight := by
  intro c hc
  apply run_onRight_preserves (P := fun c : FilterChain (ρ × τ) => P c.world.filters.1)
  · intro w c' hw h
    exact hw ▸ h
  · exact fun r c' h => hfs.askLocalReply name r c' h
  · exact fun b c' h => h
  · exact hc

theorem decodeKeeps_onLeft (hfs : EncodersKeep (fun x : ρ × τ => P x.1) fs) (name : String)
    (p : FilterProg ρ α) (hp : p.Keeps P) :
    DecodeKeeps (fun x : ρ × τ => P x.1) fs name p.onLeft := by
  intro c hc
  have hreply : ∀ (r : LocalReply) (c' : FilterChain (ρ × τ)), P c'.world.filters.1 →
      P (askLocalReply fs name r c').world.filters.1 :=
    fun r c' h => hfs.askLocalReply name r c' h
  exact run_onLeft_keeps hreply p hp c hc

end Scope

end EnvoyGo

namespace EnvoyGo.ExtProc

variable {τ : Type}

structure Open (st : FilterState) : Prop where
  noCrash : NoCrash st
  stream : st.stream.isSome = true

structure Unopened (safe : ProcessingMode → Prop) (st : FilterState) : Prop where
  noCrash : NoCrash st
  stream : st.stream = none
  mode : safe st.activeProcessingMode

def Guarded (safe : ProcessingMode → Prop) (st : FilterState) : Prop :=
  Open st ∨ Unopened safe st

def responseSafe (m : ProcessingMode) : Prop := m.responseBodyMode ≠ .buffered

def bodySafe (m : ProcessingMode) : Prop :=
  m.requestBodyMode ≠ .buffered ∧ m.responseBodyMode ≠ .buffered

theorem Guarded.noCrash {safe : ProcessingMode → Prop} {st : FilterState} (h : Guarded safe st) :
    NoCrash st := by
  rcases h with h | h
  · exact h.noCrash
  · exact h.noCrash

theorem Guarded.mono {safe safe' : ProcessingMode → Prop} {st : FilterState}
    (hsafe : ∀ m, safe m → safe' m) (h : Guarded safe st) : Guarded safe' st :=
  h.imp_right (fun h => ⟨h.noCrash, h.stream, hsafe _ h.mode⟩)

theorem Guarded.mark {safe : ProcessingMode → Prop} {st : FilterState} (h : Guarded safe st)
    (s : Stage) {e : StageEnd} (he : e ≠ .crashed) : Guarded safe (st.mark s e) := by
  rcases h with h | h
  · exact .inl ⟨noCrash_mark st s e he h.noCrash, h.stream⟩
  · exact .inr ⟨noCrash_mark st s e he h.noCrash, h.stream, h.mode⟩

theorem Open.of_same {st st' : FilterState} (h : Open st) (he : st'.ends = st.ends)
    (hs : st'.stream.isSome = st.stream.isSome) : Open st' := by
  refine ⟨?_, hs.trans h.stream⟩
  rw [NoCrash, he]
  exact h.noCrash

section Programs
variable (cc : CompiledConfig)

theorem exchangeStage_isSome (s : Stage) (stream : Option ProcessStream) :
    (exchangeStage cc s stream).2.isSome = stream.isSome := by
  unfold exchangeStage
  split
  · rfl
  · rfl
  · split <;> rfl

theorem applyProcessingResponse_kept (s : Stage) (resp : ProcessingResponse)
    (w : World FilterState) :
    (applyProcessingResponse cc s resp w).world.filters.stream = w.filters.stream ∧
    (applyProcessingResponse cc s resp w).world.filters.ends = w.filters.ends := by
  cases hemit : emitsReply cc resp with
  | false =>
    have h := applyProcessingResponse_plain cc s resp w hemit
    exact ⟨h.stream, h.ends⟩
  | true =>
    cases hr : resp.response with
    | immediateResponse ir =>
      simp only [applyProcessingResponse, hr]
      split_ifs <;> exact ⟨rfl, rfl⟩
    | _ => simp [emitsReply, isImmediate, hr] at hemit

theorem dispatchStage_open (s : Stage) {st : FilterState} (h : Open st) :
    Open (dispatchStage cc s st) := by
  have hflight : dispatchStage cc s st = { st.mark s .inFlight with pending := some s } := by
    simp only [dispatchStage, h.stream, Bool.or_true, if_true]
  rw [hflight]
  exact ⟨noCrash_mark st s .inFlight (by decide) h.noCrash, h.stream⟩

theorem completeStage_open (s : Stage) (r : Except String ProcessingResponse) :
    (completeStage cc s r).Keeps Open := by
  cases r with
  | error err =>
    intro w hw
    exact ⟨⟨noCrash_mark _ s .failed (by decide) hw.noCrash, hw.stream⟩, trivial⟩
  | ok resp =>
    intro w hw
    refine ⟨hw, ?_⟩
    intro w' _
    obtain ⟨hstream, hends⟩ := applyProcessingResponse_kept cc s resp w
    have hopen : Open (applyProcessingResponse cc s resp w).world.filters :=
      hw.of_same hends (congrArg Option.isSome hstream)
    refine ⟨⟨noCrash_mark _ s _ ?_ hopen.noCrash, hopen.stream⟩, ?_⟩
    · unfold verdict
      split_ifs <;> decide
    · -- what is left touches no state
      simp only [id_eq]
      cases (applyProcessingResponse cc s resp w).reply with
      | none => split_ifs <;> exact trivial
      | some r => split_ifs <;> exact trivial

theorem parked_open (d : Direction) : (parked cc d).Keeps Open := by
  intro w hw
  refine ⟨hw, ?_⟩
  simp only [id_eq]
  cases w.filters.pending with
  | none => exact trivial
  | some s =>
    simp only []
    split_ifs
    · exact trivial
    · intro w' hw'
      refine ⟨hw'.of_same rfl (exchangeStage_isSome cc s _), ?_⟩
      simp only [awaitStage]
      cases (exchangeStage cc s w.filters.stream).1 with
      | none => exact trivial
      | some r => exact completeStage_open cc s r

theorem bodyStageEntry_open (d : Direction) (data : Bytes) (endStream : Bool) :
    (bodyStageEntry cc d data endStream).Keeps Open := by
  intro w hw
  refine ⟨hw, ?_⟩
  simp only [id_eq]
  split_ifs
  · exact trivial
  · cases d <;> exact trivial
  · intro w1 hw1
    refine ⟨hw1.of_same ?_ ?_, trivial⟩ <;> cases d <;> rfl
  · intro w1 hw1
    refine ⟨hw1.of_same ?_ ?_, ?_⟩
    · cases d <;> rfl
    · cases d <;> rfl
    · intro w2 hw2
      exact ⟨dispatchStage_open cc _ hw2, trivial⟩

theorem encodeHeaders_guarded {safe : ProcessingMode → Prop} (pr : ResolvedPerRoute)
    (hgrpc : cc.grpcClient.isSome = true) : (encodeHeaders cc pr).Keeps (Guarded safe) := by
  intro w hw
  refine ⟨hw, ?_⟩
  simp only [id_eq]
  split_ifs
  · exact trivial
  · intro w1 hw1
    refine ⟨?_, ?_⟩
    · exact hw1.imp (fun h => ⟨h.noCrash, h.stream⟩) (fun h => ⟨h.noCrash, h.stream, h.mode⟩)
    · intro w2 hw2
      refine ⟨hw2, ?_⟩
      simp only [id_eq, hgrpc, Bool.true_and]
      cases hs : w2.filters.stream with
      | some stream =>
        have hopen : Open w2.filters := ⟨hw2.noCrash, by rw [hs]; rfl⟩
        intro w3 _
        exact ⟨.inl (dispatchStage_open cc .responseHeaders hopen), trivial⟩
      | none =>
        simp only [Option.isNone_none, Bool.or_true, if_true, openProcessorStream]
        cases openStream cc pr .responseHeaders with
        | error err =>
          intro w3 hw3
          refine ⟨hw3.mark .responseHeaders (by decide), ?_⟩
          unfold mapTransportError
          split_ifs <;> exact trivial
        | ok stream =>
          have hopen : Open (withStream cc w2.filters stream) := ⟨hw2.noCrash, rfl⟩
          intro w3 _
          exact ⟨.inl (dispatchStage_open cc .responseHeaders hopen), trivial⟩

variable (reply : LocalReply → FilterChain (FilterState × τ) → FilterChain (FilterState × τ))
  (c : FilterChain (FilterState × τ)) (v : World FilterState)

theorem parked_unopened (d : Direction) (hhttp : cc.httpClient = none)
    (hs : v.filters.stream = none) :
    (parked cc d).onLeft.run reply (c.enter v) = (.ctxDone, c.enter v) := by
  have hsame : ∀ s, updateState (exchangedState cc s) v = v := by
    intro s
    simp only [updateState, exchangedState, exchangeStage, hhttp, hs]
    rw [← hs]
  simp only [parked, run_onLeft_touch, id_eq]
  cases v.filters.pending with
  | none => rfl
  | some s =>
    simp only []
    split_ifs
    · rfl
    · rw [run_onLeft_touch, hsame]
      simp only [exchangeStage, hhttp, hs, awaitStage, run_onLeft_done]

theorem bodyStageEntry_inactive (d : Direction) (data : Bytes) (endStream : Bool)
    (hmode : bodyModeActive v.filters d = false) :
    (bodyStageEntry cc d data endStream).onLeft.run reply (c.enter v) =
      (.dataContinue, c.enter v) := by
  simp only [bodyStageEntry, run_onLeft_touch, id_eq, hmode, Bool.not_false, if_true,
    run_onLeft_done]

end Programs

/-- DecodeHeaders lets the request go on without a stream: the request_headers stage is not
started, or the stream cannot be opened and `failure_mode_allow` is set. -/
def opensNoStream (cc : CompiledConfig) (pr : ResolvedPerRoute) : Prop :=
  headersStageStarts cc pr = false ∨
    cc.failureModeAllow = true ∧ ∃ err, openedStream cc pr = .error err

/-- The listener's mode has no response body stage, and the mode a request starts with has no
body stage at all where no stream is opened for it. -/
def streamSafe (cc : CompiledConfig) (pr : ResolvedPerRoute) : Prop :=
  responseSafe cc.processingMode ∧ (opensNoStream cc pr → bodySafe (startMode cc pr))

section Chain
variable (cc : CompiledConfig) (perRoute : Option ExtProcPerRoute) (n : Nat)
  (others : List (HTTPFilter τ)) (hgrpc : cc.grpcClient.isSome = true)
  (hhttp : cc.httpClient = none)

omit hgrpc in
include hhttp in
theorem parked_guarded {safe : ProcessingMode → Prop} (d : Direction)
    (reply : LocalReply → FilterChain (FilterState × τ) → FilterChain (FilterState × τ))
    (hreply : ∀ r c', Open c'.world.filters.1 → Open (reply r c').world.filters.1)
    (c : FilterChain (FilterState × τ)) (hc : Guarded safe c.world.filters.1) :
    Guarded safe ((parked cc d).onLeft.run reply c).2.world.filters.1 := by
  rcases hc with hopen | hun
  · exact .inl (run_onLeft_keeps hreply _ (parked_open cc d) c hopen)
  · have hrun := parked_unopened cc reply c c.world.left d hhttp hun.stream
    have hsame : c.enter c.world.left = c := rfl
    rw [hsame] at hrun
    rw [hrun]
    exact .inr hun

theorem bodyStageEntry_guarded {safe : ProcessingMode → Prop} (d : Direction)
    (hsafe : ∀ st : FilterState, safe st.activeProcessingMode → bodyModeActive st d = false)
    (reply : LocalReply → FilterChain (FilterState × τ) → FilterChain (FilterState × τ))
    (hreply : ∀ r c', Open c'.world.filters.1 → Open (reply r c').world.filters.1)
    (data : Bytes) (endStream : Bool) (c : FilterChain (FilterState × τ))
    (hc : Guarded safe c.world.filters.1) :
    Guarded safe ((bodyStageEntry cc d data endStream).onLeft.run reply c).2.world.filters.1 := by
  rcases hc with hopen | hun
  · exact .inl (run_onLeft_keeps hreply _ (bodyStageEntry_open cc d data endStream) c hopen)
  · have hrun := bodyStageEntry_inactive cc reply c c.world.left d data endStream
      (hsafe _ hun.mode)
    have hsame : c.enter c.world.left = c := rfl
    rw [hsame] at hrun
    rw [hrun]
    exact .inr hun

theorem responseSafe_inactive (st : FilterState) (h : responseSafe st.activeProcessingMode) :
    bodyModeActive st .response = false :=
  beq_false_of_ne h

include hgrpc hhttp in
theorem encodersKeep_guarded (safe : ProcessingMode → Prop)
    (hsafe : ∀ m, safe m → responseSafe m) :
    EncodersKeep (fun x : FilterState × τ => Guarded safe x.1)
      (insertExtProc cc perRoute n others) where
  headers := by
    intro f hf e he
    rcases encoder_of_mem_insertExtProc cc perRoute n others f hf e he with ⟨e', rfl⟩ | rfl
    · exact ⟨fun _ => encodeKeeps_onRight _ _ _, encodeKeeps_onRight _ _ _⟩
    · refine ⟨fun _ => encodeKeeps_onLeft _ _ (encodeHeaders_guarded cc _ hgrpc), ?_⟩
      intro c hc
      exact parked_guarded cc hhttp .response (fun _ => ignoreLocalReply f.name)
        (fun _ _ h => h) c hc
  data := by
    intro f hf e he data endStream
    rcases encoder_of_mem_insertExtProc cc perRoute n others f hf e he with ⟨e', rfl⟩ | rfl
    · exact encodeKeeps_onRight (Guarded safe) _ _
    · intro c hc
      exact bodyStageEntry_guarded cc .response
        (fun st h => responseSafe_inactive st (hsafe _ h)) (fun _ => ignoreLocalReply f.name)
        (fun _ _ h => h) data endStream c hc

include hgrpc hhttp in
theorem encodersKeep_open :
    EncodersKeep (fun x : FilterState × τ => Open x.1) (insertExtProc cc perRoute n others) := by
  have h := encodersKeep_guarded cc perRoute n others hgrpc hhttp (fun _ => False)
    (fun _ hf => hf.elim)
  have hiff : ∀ st, Guarded (fun _ => False) st ↔ Open st :=
    fun st => ⟨fun hst => hst.resolve_right (fun hun => hun.mode), Or.inl⟩
  simp only [hiff] at h
  exact h

include hgrpc hhttp in
theorem runDecodeData_guarded (data : Bytes) (endStream : Bool)
    (c : FilterChain (FilterState × τ)) (hc : Guarded bodySafe c.world.filters.1) :
    Guarded bodySafe (runDecodeData (insertExtProc cc perRoute n others) data endStream
      c).2.world.filters.1 := by
  have hkeep := encodersKeep_guarded cc perRoute n others hgrpc hhttp bodySafe
    (fun _ h => h.2)
  have hask : ∀ (name : String) (r : LocalReply) (c' : FilterChain (FilterState × τ)),
      Open c'.world.filters.1 →
        Open (askLocalReply (insertExtProc cc perRoute n others) name r c').world.filters.1 :=
    fun name r c' h => (encodersKeep_open cc perRoute n others hgrpc hhttp).askLocalReply name r
      c' h
  have hright : ∀ fs' : List (HTTPFilter τ), ∀ f ∈ fs'.map HTTPFilter.onRight, ∀ d,
      f.decoder = some d →
      DecodeKeeps (fun x : FilterState × τ => Guarded bodySafe x.1)
          (insertExtProc cc perRoute n others) f.name (d.decodeData data endStream) ∧
        DecodeKeeps (fun x : FilterState × τ => Guarded bodySafe x.1)
          (insertExtProc cc perRoute n others) f.name d.parked := by
    intro fs' f hf d hd
    obtain ⟨g, -, rfl⟩ := List.mem_map.mp hf
    obtain ⟨d', -, rfl⟩ := Option.map_eq_some_iff.mp hd
    exact ⟨decodeKeeps_onRight hkeep _ _, decodeKeeps_onRight hkeep _ _⟩
  apply runDecodeData_keeps hkeep data endStream _ c hc
  intro f hf d hd
  rcases List.mem_append.mp hf with hbefore | hcons
  · exact hright _ f hbefore d hd
  · rcases List.mem_cons.mp hcons with rfl | hafter
    · obtain rfl := Option.some.inj hd
      refine ⟨fun c' hc' => ?_, fun c' hc' => ?_⟩
      · exact bodyStageEntry_guarded cc .request (fun st h => beq_false_of_ne h.1)
          (askLocalReply (insertExtProc cc perRoute n others) (extProcFilter cc perRoute).name)
          (hask _) data endStream c' hc'
      · exact parked_guarded cc hhttp .request
          (askLocalReply (insertExtProc cc perRoute n others) (extProcFilter cc perRoute).name)
          (hask _) c' hc'
    · exact hright _ f hafter d hd

/-- What the headers pass leaves.  A request that goes on has its stream, or a mode that needs
none. -/
structure StreamPost (it : Iteration) (c : FilterChain (FilterState × τ)) : Prop where
  noCrash : NoCrash c.world.filters.1
  admitted : it.isFailed = false → c.localReplyDone = false →
    Guarded bodySafe c.world.filters.1

def StreamGoing (c : FilterChain (FilterState × τ)) : Prop :=
  ∃ s, Held (Guarded responseSafe) s c ∧ Guarded bodySafe s

theorem streamPost_of_leftOff {it : Iteration} {c : FilterChain (FilterState × τ)}
    (h : LeftOff (Guarded responseSafe) it c) : StreamPost it c where
  noCrash := h.1.noCrash
  admitted hit hdone := by
    have hdone' := (h.2 hit).2
    rw [hdone] at hdone'
    cases hdone'

theorem streamPost_of_going {c : FilterChain (FilterState × τ)} (h : StreamGoing c) :
    StreamPost .terminated c := by
  obtain ⟨s, hheld, hs⟩ := h
  refine ⟨hheld.kept.noCrash, fun _ hdone => ?_⟩
  rw [hheld.same.resolve_left (by simp [hdone])]
  exact hs

theorem responseSafe_of_bodySafe {m : ProcessingMode} (h : bodySafe m) : responseSafe m := h.2

theorem streamGoing_enter {c : FilterChain (FilterState × τ)} (hinv : ReplyInvariant c)
    {v : World FilterState} (hv : Guarded bodySafe v.filters) : StreamGoing (c.enter v) :=
  ⟨v.filters, held_enter hinv v (hv.mono fun _ => responseSafe_of_bodySafe), hv⟩

theorem startHeaderStage_passedOver (pr : ResolvedPerRoute)
    (fs : List (HTTPFilter (FilterState × τ))) (name : String)
    (c : FilterChain (FilterState × τ)) (v : World FilterState)
    (hallow : cc.failureModeAllow = true)
    (err : String) (hopen : openedStream cc pr = .error err) :
    runDecodeProg fs name (startHeaderStage cc pr .requestHeaders).onLeft (c.enter v) =
      (.continueIteration,
        c.enter (updateState (fun st => st.mark .requestHeaders .openFailed) v)) := by
  unfold openedStream at hopen
  have hgrpc : cc.grpcClient.isSome = true := by
    by_contra hno
    rw [if_neg hno] at hopen
    cases hopen
  rw [if_pos hgrpc] at hopen
  have hfail : ∃ err', openProcessorStream cc pr .requestHeaders v.filters = .error err' := by
    unfold openProcessorStream
    cases ho : openStream cc pr .requestHeaders with
    | error err' => exact ⟨err', rfl⟩
    | ok stream =>
      rw [ho] at hopen
      cases hopen
  obtain ⟨err', hfail⟩ := hfail
  simp only [runDecodeProg, startHeaderStage, run_onLeft_touch, id_eq, hgrpc, BEq.rfl,
    Bool.true_or, Bool.and_self, if_true, hfail, mapTransportError, hallow, run_onLeft_done]

section HeadersTurn
variable (endStream : Bool) (c : FilterChain (FilterState × τ)) (hinv : ReplyInvariant c)
  (hdone : c.localReplyDone = false) (hv : c.world.left.filters = newFilter cc)
include hinv hdone hv

omit hinv in
theorem headersTurn_unopened
    (hno : opensNoStream cc (resolvePerRouteConfig cc perRoute)) :
    ∃ v, decodeVisit (insertExtProc cc perRoute n others) (fun d => d.decodeHeaders endStream)
        (reactDecodeHeaders (insertExtProc cc perRoute n others))
        (extProcFilter cc perRoute).onLeft c = (none, c.enter v) ∧
      NoCrash v.filters ∧
      Steered (startMode cc (resolvePerRouteConfig cc perRoute)) false none v.filters ∧
      v.filters.skipBodyStageDispatch .response = false := by
  have hfresh : ∀ st : FilterState, (st.ends = fun _ => none) → NoCrash st := by
    intro st hst s
    rw [hst]
    simp
  have hgo : ¬c.localReplyDone = true := by simp [hdone]
  cases hstarts : headersStageStarts cc (resolvePerRouteConfig cc perRoute) with
  | false =>
    obtain ⟨v, hrun, hsteer, hends, hskip⟩ := decodeHeaders_passes cc _
      (insertExtProc cc perRoute n others) (extProcFilter cc perRoute).name c hv hstarts
    refine ⟨v, ?_, hfresh _ hends, hsteer, hskip⟩
    exact (headersTurn cc perRoute _ endStream c _ hdone _ hrun).trans (if_neg hgo)
  | true =>
    rcases hno with hno | ⟨hallow, err, hopen⟩
    · rw [hstarts] at hno
      cases hno
    · obtain ⟨v, hrun, hsteer, hends, hskip⟩ := decodeHeaders_starts cc _
        (insertExtProc cc perRoute n others) (extProcFilter cc perRoute).name c hv hstarts
      rw [startHeaderStage_passedOver cc _ _ _ c v hallow err hopen] at hrun
      refine ⟨updateState (fun st => st.mark .requestHeaders .openFailed) v, ?_, ?_, ?_, hskip⟩
      · exact (headersTurn cc perRoute _ endStream c _ hdone _ hrun).trans (if_neg hgo)
      · exact noCrash_mark _ _ _ (by decide) (hfresh _ hends)
      · exact ⟨hsteer.mode, hsteer.skip, hsteer.stream⟩

include hgrpc hhttp in
theorem headersTurn_opened (stream : Option ProcessStream)
    (hstarts : headersStageStarts cc (resolvePerRouteConfig cc perRoute) = true)
    (hopen : openedStream cc (resolvePerRouteConfig cc perRoute) = .ok stream) :
    VisitSpec StreamGoing StreamPost
      (decodeVisit (insertExtProc cc perRoute n others) (fun d => d.decodeHeaders endStream)
        (reactDecodeHeaders (insertExtProc cc perRoute n others))
        (extProcFilter cc perRoute).onLeft c) := by
  have hsome : stream.isSome = true := by
    unfold openedStream at hopen
    rw [if_pos hgrpc] at hopen
    cases ho : openStream cc (resolvePerRouteConfig cc perRoute) .requestHeaders with
    | error err =>
      rw [ho] at hopen
      cases hopen
    | ok opened =>
      rw [ho] at hopen
      obtain rfl := Except.ok.inj hopen
      rfl
  obtain ⟨v1, hrun, hsteer, hends, -⟩ := decodeHeaders_starts cc _
    (insertExtProc cc perRoute n others) (extProcFilter cc perRoute).name c hv hstarts
  obtain ⟨v2, hrun2, -, -, hstream, hpending, hends2⟩ :=
    startHeaderStage_dispatches cc _ (insertExtProc cc perRoute n others)
      (extProcFilter cc perRoute).name c stream (by rw [hgrpc, Bool.or_true]) hsteer.stream hopen
  rw [hrun2] at hrun
  have hopen2 : Open v2.filters := by
    refine ⟨fun s => ?_, by rw [hstream]; exact hsome⟩
    rw [hends2, hends, Function.update_apply]
    split_ifs <;> simp
  have hgo : ¬(c.enter v2).localReplyDone = true := by
    change ¬c.localReplyDone = true
    simp [hdone]
  rw [headersTurn cc perRoute _ endStream c _ hdone _ hrun, if_neg hgo]
  have hkeep := encodersKeep_open cc perRoute n others hgrpc hhttp
  have hpark := parkThenAdvance_keeps (P := fun x : FilterState × τ => Open x.1)
    (extProcFilter cc perRoute).onLeft (decoderOf cc perRoute)
    (decodeKeeps_onLeft hkeep _ _ (parked_open cc .request)) (c.enter v2) hopen2
  have hspec := parkThenAdvance_spec (insertExtProc cc perRoute n others)
    (extProcFilter cc perRoute).onLeft (decoderOf cc perRoute) (c.enter v2)
    (enter_invariant hinv v2) hdone
  simp only [reactDecodeHeaders]
  rcases hx : parkThenAdvance (insertExtProc cc perRoute n others)
    (extProcFilter cc perRoute).onLeft (decoderOf cc perRoute) (c.enter v2) with ⟨it, c'⟩
  rw [hx] at hpark hspec
  cases it with
  | none => exact ⟨c'.world.filters.1, ⟨hspec, .inl hpark, .inr rfl⟩, .inl hpark⟩
  | some it => exact ⟨hpark.noCrash, fun _ _ => .inl hpark⟩

include hgrpc in
theorem headersTurn_denied (hclosed : cc.failureModeAllow = false) (err : String)
    (hstarts : headersStageStarts cc (resolvePerRouteConfig cc perRoute) = true)
    (hopen : openedStream cc (resolvePerRouteConfig cc perRoute) = .error err) :
    VisitSpec StreamGoing StreamPost
      (decodeVisit (insertExtProc cc perRoute n others) (fun d => d.decodeHeaders endStream)
        (reactDecodeHeaders (insertExtProc cc perRoute n others))
        (extProcFilter cc perRoute).onLeft c) := by
  obtain ⟨v1, hrun, -, hends, -⟩ := decodeHeaders_starts cc _
    (insertExtProc cc perRoute n others) (extProcFilter cc perRoute).name c hv hstarts
  rw [startHeaderStage_openFailed cc _ _ _ c hclosed err hopen] at hrun
  have hmarked := enter_invariant hinv
    (updateState (fun st => st.mark .requestHeaders .openFailed) v1)
  have hreply := askLocalReply_done (insertExtProc cc perRoute n others)
    (extProcFilter cc perRoute).name { status := 500, body := [], headers := [] } _ hmarked
  have hrefused := refused_of_openFailed cc perRoute n others (by rw [hgrpc, Bool.or_true])
    (extProcFilter cc perRoute).name c hinv hdone v1 hends
  rw [headersTurn cc perRoute _ endStream c _ hdone _ hrun, if_pos hreply]
  refine ⟨hrefused.noCrash, fun _ hd => ?_⟩
  rw [hreply] at hd
  cases hd

end HeadersTurn

include hgrpc hhttp in
theorem headersTurn_stream (hsafe : streamSafe cc (resolvePerRouteConfig cc perRoute))
    (endStream : Bool) (c : FilterChain (FilterState × τ))
    (hc : Held (Guarded responseSafe) (newFilter cc) c) :
    VisitSpec StreamGoing StreamPost
      (decodeVisit (insertExtProc cc perRoute n others) (fun d => d.decodeHeaders endStream)
        (reactDecodeHeaders (insertExtProc cc perRoute n others))
        (extProcFilter cc perRoute).onLeft c) := by
  cases hdone : c.localReplyDone with
  | true =>
    rw [decodeVisit_of_done _ _ _ _ _ hdone]
    refine ⟨hc.kept.noCrash, fun _ hd => ?_⟩
    rw [hdone] at hd
    cases hd
  | false =>
    have hv : c.world.left.filters = newFilter cc := hc.same.resolve_left (by simp [hdone])
    have hunopened : opensNoStream cc (resolvePerRouteConfig cc perRoute) →
        VisitSpec StreamGoing StreamPost
          (decodeVisit (insertExtProc cc perRoute n others) (fun d => d.decodeHeaders endStream)
            (reactDecodeHeaders (insertExtProc cc perRoute n others))
            (extProcFilter cc perRoute).onLeft c) := by
      intro hno
      obtain ⟨v, hvisit, hcrash, hsteer, -⟩ :=
        headersTurn_unopened cc perRoute n others endStream c hdone hv hno
      rw [hvisit]
      exact streamGoing_enter hc.invariant
        (.inr ⟨hcrash, hsteer.stream, by rw [hsteer.mode]; exact hsafe.2 hno⟩)
    cases hstarts : headersStageStarts cc (resolvePerRouteConfig cc perRoute) with
    | false => exact hunopened (.inl hstarts)
    | true =>
      cases hopen : openedStream cc (resolvePerRouteConfig cc perRoute) with
      | ok stream =>
        exact headersTurn_opened cc perRoute n others hgrpc hhttp endStream c hc.invariant
          hdone hv stream hstarts hopen
      | error err =>
        cases hallow : cc.failureModeAllow with
        | true => exact hunopened (.inr ⟨hallow, err, hopen⟩)
        | false =>
          exact headersTurn_denied cc perRoute n others hgrpc endStream c hc.invariant
            hdone hv hallow err hstarts hopen

include hgrpc hhttp in
theorem headersPass_stream (hsafe : streamSafe cc (resolvePerRouteConfig cc perRoute))
    (filters : τ) (q : HTTPRequest) (noBody : Bool) :
    StreamPost
      (headersPass (insertExtProc cc perRoute n others) (newFilter cc, filters) q noBody).1
      (headersPass (insertExtProc cc perRoute n others) (newFilter cc, filters) q noBody).2 := by
  have hkeep := encodersKeep_guarded cc perRoute n others hgrpc hhttp responseSafe
    (fun _ h => h)
  have hother : ∀ s (f : HTTPFilter τ) c, Held (Guarded responseSafe) s c →
      VisitSpec (Held (Guarded responseSafe) s) StreamPost
        (decodeVisit (insertExtProc cc perRoute n others) (fun d => d.decodeHeaders noBody)
          (reactDecodeHeaders (insertExtProc cc perRoute n others)) f.onRight c) := by
    intro s f c hc
    have hvisit := decodeVisit_onRight_headers hkeep noBody f c hc
    rcases hx : decodeVisit (insertExtProc cc perRoute n others)
      (fun d => d.decodeHeaders noBody)
      (reactDecodeHeaders (insertExtProc cc perRoute n others)) f.onRight c with ⟨it, c'⟩
    rw [hx] at hvisit
    cases it with
    | none => exact hvisit
    | some it => exact streamPost_of_leftOff hvisit
  -- the filters before ext_proc, its own turn, the filters behind it
  apply decodeLoop_through (Q := Held (Guarded responseSafe) (newFilter cc)) (R := StreamPost)
  · intro g hg c hc
    obtain ⟨f, -, rfl⟩ := List.mem_map.mp hg
    exact hother _ f c hc
  · intro c hc
    have hturn := headersTurn_stream cc perRoute n others hgrpc hhttp hsafe noBody c hc
    rw [decodeLoop_cons]
    rcases hx : decodeVisit (insertExtProc cc perRoute n others)
      (fun d => d.decodeHeaders noBody)
      (reactDecodeHeaders (insertExtProc cc perRoute n others))
      (extProcFilter cc perRoute).onLeft c with ⟨it, c'⟩
    rw [hx] at hturn
    cases it with
    | some it => exact hturn
    | none =>
      simp only []
      rw [← List.append_nil ((others.drop n).map HTTPFilter.onRight)]
      apply decodeLoop_through (Q := StreamGoing) (R := StreamPost)
      · rintro g hg c'' ⟨s, hheld, hs⟩
        obtain ⟨f, -, rfl⟩ := List.mem_map.mp hg
        have hvisit := hother s f c'' hheld
        rcases hy : decodeVisit (insertExtProc cc perRoute n others)
          (fun d => d.decodeHeaders noBody)
          (reactDecodeHeaders (insertExtProc cc perRoute n others)) f.onRight c'' with ⟨it, c3⟩
        rw [hy] at hvisit
        cases it with
        | none => exact ⟨s, hvisit, hs⟩
        | some it => exact hvisit
      · exact fun c'' hc'' => streamPost_of_going hc''
      · exact hturn
  · refine ⟨ReplyInvariant.initial _, .inr ⟨fun s => ?_, rfl, hsafe.1⟩, .inr rfl⟩
    change none ≠ some StageEnd.crashed
    simp

include hgrpc hhttp in
theorem actionOutcome_stream {req : Type} (h1 hasRespTrailers : Bool) (writeErr : Option String)
    (request : req) (act : ActionResponse × Option String) (c : FilterChain (FilterState × τ))
    (hc : Guarded bodySafe c.world.filters.1) :
    NoCrash (actionOutcome h1 hasRespTrailers (insertExtProc cc perRoute n others) writeErr request
      act c).chain.world.filters.1 := by
  have hkeep := encodersKeep_guarded cc perRoute n others hgrpc hhttp bodySafe
    (fun _ h => h.2)
  exact (hkeep.actionOutcome h1 hasRespTrailers writeErr request act c hc).noCrash

def DecodedStream : Decoded (FilterState × τ) → Prop
  | .failed _ c => NoCrash c.world.filters.1
  | .replied c => NoCrash c.world.filters.1
  | .admitted c => Guarded bodySafe c.world.filters.1

include hgrpc hhttp in
theorem decodePasses_stream (hsafe : streamSafe cc (resolvePerRouteConfig cc perRoute))
    (filters : τ) (q : HTTPRequest) :
    DecodedStream
      (decodePasses (insertExtProc cc perRoute n others) (newFilter cc, filters) q) := by
  have hpass := headersPass_stream cc perRoute n others hgrpc hhttp hsafe filters q
    (bodyToRead q).isNone
  have hbody := decodeRequestBody_keeps (P := fun x : FilterState × τ => Guarded bodySafe x.1)
    (fun data endStream c hc => runDecodeData_guarded cc perRoute n others hgrpc hhttp data
      endStream c hc) q
  unfold decodePasses
  rcases hr : headersPass (insertExtProc cc perRoute n others) (newFilter cc, filters) q
    (bodyToRead q).isNone with ⟨it, c1⟩
  rw [hr] at hpass
  have hdata : it.isFailed = false → c1.localReplyDone = false → Guarded bodySafe
      (decodeRequestBody (insertExtProc cc perRoute n others) q c1).2.world.filters.1 :=
    fun hit hdone => hbody c1 (hpass.admitted hit hdone)
  rcases hb : decodeRequestBody (insertExtProc cc perRoute n others) q c1 with ⟨err, c2⟩
  rw [hb] at hdata
  cases it with
  | failed err => exact hpass.noCrash
  | _ =>
    simp only []
    split_ifs with hdone
    · exact hpass.noCrash
    · have hc2 := hdata rfl (Bool.eq_false_iff.mpr hdone)
      rw [hb]
      cases err with
      | some err => exact hc2.noCrash
      | none =>
        simp only []
        split_ifs
        · exact hc2.noCrash
        · exact hc2

include hgrpc hhttp in
theorem dispatchStream_noCrash (hsafe : streamSafe cc (resolvePerRouteConfig cc perRoute))
    (h1 : Bool) (action : EnvoyGo.Action UpstreamRequest) (writeErr : Option String)
    (filters : τ) (q : HTTPRequest) :
    NoCrash (dispatchStream h1 (insertExtProc cc perRoute n others) action writeErr
      (newFilter cc, filters) q).chain.world.filters.1 := by
  have hpost := decodePasses_stream cc perRoute n others hgrpc hhttp hsafe filters q
  unfold dispatchStream
  cases hx : decodePasses (insertExtProc cc perRoute n others) (newFilter cc, filters) q with
  | failed err c =>
    rw [hx] at hpost
    exact hpost
  | replied c =>
    rw [hx] at hpost
    exact hpost
  | admitted c =>
    rw [hx] at hpost
    exact actionOutcome_stream cc perRoute n others hgrpc hhttp _ _ _ _ _ c hpost

include hgrpc hhttp in
theorem writeH2_noCrash (hsafe : streamSafe cc (resolvePerRouteConfig cc perRoute))
    (action : EnvoyGo.Action H2Request) (writeErr : Option String) (filters : τ)
    (q : HTTPRequest) (h2req : H2Request) :
    NoCrash (writeH2 (insertExtProc cc perRoute n others) action writeErr
      (newFilter cc, filters) q h2req).chain.world.filters.1 := by
  have hpass := headersPass_stream cc perRoute n others hgrpc hhttp hsafe filters q
    (h2req.body.length == 0)
  unfold writeH2
  rcases hr : headersPass (insertExtProc cc perRoute n others) (newFilter cc, filters) q
    (h2req.body.length == 0) with ⟨it, c1⟩
  rw [hr] at hpass
  have hrest : it.isFailed = false → NoCrash (writeH2AfterHeaders
      (insertExtProc cc perRoute n others) action writeErr q h2req c1).chain.world.filters.1 := by
    intro hit
    unfold writeH2AfterHeaders
    split_ifs with hdone hlen
    · exact hpass.noCrash
    · have hc1 := hpass.admitted hit (Bool.eq_false_iff.mpr hdone)
      have hc2 := runDecodeData_guarded cc perRoute n others hgrpc hhttp h2req.body true c1 hc1
      rcases hb : runDecodeData (insertExtProc cc perRoute n others) h2req.body true c1
        with ⟨it2, c2⟩
      rw [hb] at hc2
      cases it2 with
      | failed err => exact hc2.noCrash
      | _ => exact actionOutcome_stream cc perRoute n others hgrpc hhttp _ _ _ _ _ c2 hc2
    · exact actionOutcome_stream cc perRoute n others hgrpc hhttp _ _ _ _ _ c1
        (hpass.admitted hit (Bool.eq_false_iff.mpr hdone))
  cases it with
  | failed err => exact hpass.noCrash
  | terminated => exact hrest rfl
  | aborted => exact hrest rfl

end Chain

end EnvoyGo.ExtProc

import EnvoyGo.ExtProcTurns

/-!
A request whose stages are contained, carried through the three dispatchers: it is answered
with an error or waits, and never goes upstream past a stage that was not accepted.
-/

namespace EnvoyGo

section EncodersKeep
variable {σ req : Type} {P : σ → Prop} {fs : List (HTTPFilter σ)}

theorem EncodersKeep.encodeResponse (h : EncodersKeep P fs) (hasRespTrailers : Bool)
    (resp : ActionResponse) (c : FilterChain σ) (hc : P c.world.filters) :
    P (encodeResponse fs hasRespTrailers resp c).2.world.filters := by
  have h1 := h.headers.headersPass (OrderedHeaders.toHTTPHeader resp.headers)
    (resp.body.length == 0 && !hasRespTrailers) { c with encodeResponseStatus := resp.status } hc
  unfold EnvoyGo.encodeResponse
  rcases hr : runEncodeHeaders fs (OrderedHeaders.toHTTPHeader resp.headers)
    (resp.body.length == 0 && !hasRespTrailers) { c with encodeResponseStatus := resp.status }
    with ⟨it, c1⟩
  rw [hr] at h1
  have h2 := h.dataPass resp.body (!hasRespTrailers) c1 h1
  rcases hd : runEncodeData fs resp.body (!hasRespTrailers) c1 with ⟨it2, c2⟩
  rw [hd] at h2
  cases it with
  | failed err => exact h1
  | _ =>
    simp only []
    split_ifs
    · rw [hd]
      cases it2 <;> exact h2
    · exact h1

theorem EncodersKeep.actionOutcome (h : EncodersKeep P fs) (h1 hasRespTrailers : Bool)
    (writeErr : Option String) (request : req) (act : ActionResponse × Option String)
    (c : FilterChain σ) (hc : P c.world.filters) :
    P (actionOutcome h1 hasRespTrailers fs writeErr request act c).chain.world.filters := by
  have hr := h.encodeResponse hasRespTrailers act.1 c hc
  unfold EnvoyGo.actionOutcome
  simp only []
  by_cases hok : act.1.status > 0 ∧ act.2 = none
  · rw [if_pos hok]
    rcases hx : EnvoyGo.encodeResponse fs hasRespTrailers act.1 c with ⟨r, c'⟩
    rw [hx] at hr
    cases r <;> exact hr
  · rw [if_neg hok]
    exact hc

end EncodersKeep

end EnvoyGo

namespace EnvoyGo.ExtProc

variable {τ : Type}

def AnsweredWithError (o : Outcome (FilterState × τ) Unit) : Prop :=
  NoCrash o.chain.world.filters.1 ∧ o.chain.localReplyDone = true ∧
    ∃ w, o.written = [w] ∧ 400 ≤ w.status

/-- A request stage that was started and not accepted keeps the request from the upstream, and
unless it is still in flight the request is answered with an error. -/
def FailsClosed (o : Outcome (FilterState × τ) Unit) : Prop :=
  ∀ s e, s.direction = .request → o.chain.world.filters.1.ends s = some e → e ≠ .accepted →
    o.invoked = [] ∧ (e = .inFlight ∨ AnsweredWithError o)

def withExtProc (cc : CompiledConfig) (perRoute : Option ExtProcPerRoute) (n : Nat)
    (x : Exchange τ) : Exchange (FilterState × τ) where
  chain := insertExtProc cc perRoute n x.chain
  filters := (newFilter cc, x.filters)
  action := x.action
  h2Action := x.h2Action
  writeErr := x.writeErr
  request := x.request
  h2req := x.h2req

theorem failsClosed_of_clean {o : Outcome (FilterState × τ) Unit}
    (h : Clean o.chain.world.filters.1) : FailsClosed o := by
  intro s e hs he hne
  rcases h s hs with hnone | hacc
  · rw [hnone] at he
    cases he
  · rw [hacc] at he
    exact absurd (Option.some.inj he).symm hne

theorem failsClosed_of_waiting {o : Outcome (FilterState × τ) Unit} (hinvoked : o.invoked = [])
    (h : Waiting o.chain.world.filters.1) : FailsClosed o := by
  intro s e hs he hne
  refine ⟨hinvoked, Or.inl ?_⟩
  rcases h s hs with (hnone | hacc) | hflight
  · rw [hnone] at he
    cases he
  · rw [hacc] at he
    exact absurd (Option.some.inj he).symm hne
  · rw [hflight] at he
    exact (Option.some.inj he).symm

theorem failsClosed_of_replied {req : Type} (h1 : Bool) (writeErr : Option String)
    (c : FilterChain (FilterState × τ)) (hdone : c.localReplyDone = true)
    (h : Waiting c.world.filters.1 ∨ Refused c) :
    FailsClosed (localReplyOutcome h1 writeErr c : Outcome (FilterState × τ) req).observe := by
  rcases h with hwaiting | hrefused
  · exact failsClosed_of_waiting rfl hwaiting
  · intro s e hs he hne
    refine ⟨rfl, Or.inr ⟨hrefused.noCrash, hdone, ?_⟩⟩
    have hpos : c.localReplyStatus > 0 := by
      rw [hrefused.status]
      decide
    refine ⟨_, if_pos hpos, ?_⟩
    simp only [hrefused.status]
    decide

section Pass
variable (cc : CompiledConfig) (perRoute : Option ExtProcPerRoute) (n : Nat)
  (others : List (HTTPFilter τ)) (d : Downstream)
  (hclient : (cc.httpClient.isSome || cc.grpcClient.isSome) = true)
include hclient

structure Between (c : FilterChain (FilterState × τ)) : Prop where
  invariant : ReplyInvariant c
  replied : c.localReplyDone = true → Waiting c.world.filters.1 ∨ Refused c
  admitted : c.localReplyDone = false → Ready cc d c.world.filters.1

omit hclient in
theorem between_of_passPost {it : Iteration} {c : FilterChain (FilterState × τ)}
    (h : PassPost cc d true it c) (hit : it.isFailed = false) : Between cc d c where
  invariant := h.invariant hit
  replied := h.replied hit
  admitted := fun hdone => (h.admitted hit hdone).2 rfl

omit hclient in
theorem clean_of_ready {st : FilterState} (h : Ready cc d st) : Clean st :=
  clean_of_requestEnds ⟨rfl, h.body⟩ h.headers settled_none

theorem headersPass_post (hclosed : cc.failureModeAllow = false)
    (hcond : requestContained cc (resolvePerRouteConfig cc perRoute) d) (filters : τ)
    (q : HTTPRequest) (noBody : Bool) :
    PassPost cc d true
      (headersPass (insertExtProc cc perRoute n others) (newFilter cc, filters) q noBody).1
      (headersPass (insertExtProc cc perRoute n others) (newFilter cc, filters) q noBody).2 := by
  apply pass_spec cc perRoute n others d true (fun d => d.decodeHeaders noBody)
    (reactDecodeHeaders (insertExtProc cc perRoute n others)) _ settled_none settled_none
  · intro c hc
    exact headersTurn_spec cc perRoute n others d hclient hclosed noBody hcond c hc
  · exact ⟨ReplyInvariant.initial _, ⟨rfl, rfl⟩, Or.inr rfl⟩
  · intro h b s f c hc
    exact decodeVisit_onRight_headers
      (encodersKeep_requestEnds cc perRoute n others hclient h b) noBody f c hc

theorem runDecodeData_post (data : Bytes) (endStream : Bool) (c : FilterChain (FilterState × τ))
    (hc : Between cc d c) (hproto : c.localReplyDone = false ∨ d ≠ .http2) :
    PassPost cc d (!endStream)
      (runDecodeData (insertExtProc cc perRoute n others) data endStream c).1
      (runDecodeData (insertExtProc cc perRoute n others) data endStream c).2 := by
  cases hdone : c.localReplyDone with
  | true =>
    obtain ⟨hit, hsame⟩ := runDecodeData_of_done (insertExtProc cc perRoute n others) data
      endStream c hdone
    have hne : d ≠ .http2 := hproto.resolve_left (by simp [hdone])
    rw [hsame]
    refine ⟨fun hf => ?_, fun _ => hc.invariant, fun _ _ => hc.replied hdone, fun _ hd => ?_,
      fun hd => absurd hd hne⟩
    · rw [hit] at hf
      cases hf
    · rw [hdone] at hd
      cases hd
  | false =>
    have hready := hc.admitted hdone
    apply pass_spec cc perRoute n others d (!endStream) (fun d => d.decodeData data endStream)
      (reactDecodeData (insertExtProc cc perRoute n others) data) _ hready.headers settled_none
    · intro c' hc'
      exact dataTurn_spec cc perRoute n others d hclient data endStream _ hready.headers
        c.world.filters.1 hready c' hc'
    · exact ⟨hc.invariant, ⟨rfl, hready.body⟩, Or.inr rfl⟩
    · intro h b s f c' hc'
      exact decodeVisit_onRight_data
        (encodersKeep_requestEnds cc perRoute n others hclient h b) data endStream f c' hc'

theorem feedBody_post (hproto : d ≠ .http2) (bs : List Bytes)
    (c : FilterChain (FilterState × τ)) (hc : Between cc d c) :
    if (feedBody (insertExtProc cc perRoute n others) bs c).1.isSome then
      Waiting (feedBody (insertExtProc cc perRoute n others) bs c).2.world.filters.1
    else Between cc d (feedBody (insertExtProc cc perRoute n others) bs c).2 := by
  induction bs generalizing c with
  | nil => exact hc
  | cons b bs ih =>
    rw [feedBody]
    by_cases hempty : b = []
    · rw [if_pos hempty]
      exact ih c hc
    · rw [if_neg hempty]
      have hpass := runDecodeData_post cc perRoute n others d hclient b false c hc
        (Or.inr hproto)
      rcases hr : runDecodeData (insertExtProc cc perRoute n others) b false c with ⟨it, c'⟩
      rw [hr] at hpass
      cases it with
      | failed err => exact hpass.failed rfl
      | terminated => exact ih c' (between_of_passPost cc d hpass rfl)
      | aborted => exact ih c' (between_of_passPost cc d hpass rfl)

structure BodyPost (err : Option ChainError) (c : FilterChain (FilterState × τ)) : Prop where
  failed : err.isSome = true → Waiting c.world.filters.1
  replied : err = none → c.localReplyDone = true → Waiting c.world.filters.1 ∨ Refused c
  admitted : err = none → c.localReplyDone = false → Clean c.world.filters.1

theorem decodeBody_post (hproto : d ≠ .http2) (r : BodyReader)
    (c : FilterChain (FilterState × τ)) (hc : Between cc d c) :
    BodyPost (decodeBody (insertExtProc cc perRoute n others) r c).1
      (decodeBody (insertExtProc cc perRoute n others) r c).2 := by
  have hfeed := feedBody_post cc perRoute n others d hclient hproto r.chunks c hc
  unfold decodeBody
  rcases hr : feedBody (insertExtProc cc perRoute n others) r.chunks c with ⟨err, c1⟩
  rw [hr] at hfeed
  cases err with
  | some err => exact ⟨fun _ => hfeed, fun he => (by cases he), fun he => (by cases he)⟩
  | none =>
    have hlast := runDecodeData_post cc perRoute n others d hclient r.last true c1 hfeed
      (Or.inr hproto)
    simp only []
    rcases hl : runDecodeData (insertExtProc cc perRoute n others) r.last true c1 with ⟨it, c2⟩
    rw [hl] at hlast
    have hend : it.isFailed = false → BodyPost none c2 := fun hit =>
      ⟨fun he => (by cases he), fun _ => hlast.replied hit, fun _ hd => (hlast.admitted hit hd).1⟩
    cases it with
    | failed err =>
      exact ⟨fun _ => hlast.failed rfl, fun he => (by cases he), fun he => (by cases he)⟩
    | terminated => exact hend rfl
    | aborted => exact hend rfl

theorem decodeRequestBody_post (hproto : d ≠ .http2) (q : HTTPRequest)
    (c : FilterChain (FilterState × τ)) (hc : Between cc d c) :
    BodyPost (decodeRequestBody (insertExtProc cc perRoute n others) q c).1
      (decodeRequestBody (insertExtProc cc perRoute n others) q c).2 := by
  unfold decodeRequestBody
  cases bodyToRead q with
  | none =>
    exact ⟨fun he => (by cases he), fun _ => hc.replied,
      fun _ hdone => clean_of_ready cc d (hc.admitted hdone)⟩
  | some r => exact decodeBody_post cc perRoute n others d hclient hproto r c hc

def DecodedPost : Decoded (FilterState × τ) → Prop
  | .failed _ c => Waiting c.world.filters.1
  | .replied c => c.localReplyDone = true ∧ (Waiting c.world.filters.1 ∨ Refused c)
  | .admitted c => Clean c.world.filters.1

theorem decodePasses_post (hclosed : cc.failureModeAllow = false)
    (hcond : requestContained cc (resolvePerRouteConfig cc perRoute) d) (hproto : d ≠ .http2)
    (filters : τ) (q : HTTPRequest) :
    DecodedPost (decodePasses (insertExtProc cc perRoute n others) (newFilter cc, filters) q) := by
  have hpass := headersPass_post cc perRoute n others d hclient hclosed hcond filters q
    (bodyToRead q).isNone
  unfold decodePasses
  rcases hr : headersPass (insertExtProc cc perRoute n others) (newFilter cc, filters) q
    (bodyToRead q).isNone with ⟨it, c1⟩
  rw [hr] at hpass
  have hbody : it.isFailed = false → BodyPost
      (decodeRequestBody (insertExtProc cc perRoute n others) q c1).1
      (decodeRequestBody (insertExtProc cc perRoute n others) q c1).2 := fun hit =>
    decodeRequestBody_post cc perRoute n others d hclient hproto q c1
      (between_of_passPost cc d hpass hit)
  rcases hb : decodeRequestBody (insertExtProc cc perRoute n others) q c1 with ⟨err, c2⟩
  rw [hb] at hbody
  cases it with
  | failed err => exact hpass.failed rfl
  | _ =>
    simp only []
    split_ifs with hdone
    · exact ⟨hdone, hpass.replied rfl hdone⟩
    · rw [hb]
      cases err with
      | some err => exact (hbody rfl).failed rfl
      | none =>
        simp only []
        split_ifs with hdone2
        · exact ⟨hdone2, (hbody rfl).replied rfl hdone2⟩
        · exact (hbody rfl).admitted rfl (Bool.eq_false_iff.mpr hdone2)

theorem actionOutcome_clean {req : Type} (h1 hasRespTrailers : Bool) (writeErr : Option String)
    (request : req) (act : ActionResponse × Option String) (c : FilterChain (FilterState × τ))
    (hc : Clean c.world.filters.1) :
    Clean (actionOutcome h1 hasRespTrailers (insertExtProc cc perRoute n others) writeErr request
      act c).chain.world.filters.1 := by
  have hkept := (encodersKeep_requestEnds cc perRoute n others hclient
    (c.world.filters.1.ends .requestHeaders) (c.world.filters.1.ends .requestBody)).actionOutcome
    h1 hasRespTrailers writeErr request act c ⟨rfl, rfl⟩
  exact clean_of_requestEnds hkept (hc .requestHeaders rfl) (hc .requestBody rfl)

theorem dispatchStream_failsClosed (h1 : Bool) (hclosed : cc.failureModeAllow = false)
    (hcond : requestContained cc (resolvePerRouteConfig cc perRoute) d) (hproto : d ≠ .http2)
    (action : EnvoyGo.Action UpstreamRequest) (writeErr : Option String) (filters : τ)
    (q : HTTPRequest) :
    FailsClosed (dispatchStream h1 (insertExtProc cc perRoute n others) action writeErr
      (newFilter cc, filters) q).observe := by
  have hpost := decodePasses_post cc perRoute n others d hclient hclosed hcond hproto filters q
  unfold dispatchStream
  cases hx : decodePasses (insertExtProc cc perRoute n others) (newFilter cc, filters) q with
  | failed err c =>
    rw [hx] at hpost
    exact failsClosed_of_waiting rfl hpost
  | replied c =>
    rw [hx] at hpost
    exact failsClosed_of_replied h1 writeErr c hpost.1 hpost.2
  | admitted c =>
    rw [hx] at hpost
    exact failsClosed_of_clean
      (actionOutcome_clean cc perRoute n others hclient h1 false writeErr _ _ c hpost)

theorem h2BodyPass_post (body : Bytes) (it : Iteration) (c : FilterChain (FilterState × τ))
    (hpass : PassPost cc .http2 true it c) (hit : it.isFailed = false)
    (hdone : c.localReplyDone = false) :
    PassPost cc .http2 false
      (if body.length > 0 then runDecodeData (insertExtProc cc perRoute n others) body true c
        else (.terminated, c)).1
      (if body.length > 0 then runDecodeData (insertExtProc cc perRoute n others) body true c
        else (.terminated, c)).2 := by
  split_ifs
  · exact runDecodeData_post cc perRoute n others .http2 hclient body true c
      (between_of_passPost cc .http2 hpass hit) (Or.inl hdone)
  · have hclean := (hpass.admitted hit hdone).1
    exact ⟨fun _ => hclean.waiting, fun _ => hpass.invariant hit,
      fun _ _ => Or.inl hclean.waiting, fun _ _ => ⟨hclean, fun ha => by cases ha⟩,
      fun _ _ _ => hclean⟩

theorem writeH2AfterHeaders_failsClosed (action : EnvoyGo.Action H2Request)
    (writeErr : Option String) (q : HTTPRequest) (h2req : H2Request) (it : Iteration)
    (c : FilterChain (FilterState × τ)) (hpass : PassPost cc .http2 true it c)
    (hit : it.isFailed = false) :
    FailsClosed (writeH2AfterHeaders (insertExtProc cc perRoute n others) action writeErr q h2req
      c).observe := by
  unfold writeH2AfterHeaders
  by_cases hdone : c.localReplyDone = true
  · rw [if_pos hdone]
    exact failsClosed_of_replied false writeErr c hdone (hpass.replied hit hdone)
  · rw [if_neg hdone]
    have hbody := h2BodyPass_post cc perRoute n others hclient h2req.body it c hpass hit
      (Bool.eq_false_iff.mpr hdone)
    generalize (if h2req.body.length > 0 then
        runDecodeData (insertExtProc cc perRoute n others) h2req.body true c
      else (.terminated, c)) = p at hbody
    obtain ⟨it2, c2⟩ := p
    cases it2 with
    | failed err => exact failsClosed_of_waiting rfl (hbody.failed rfl)
    | _ =>
      exact failsClosed_of_clean (actionOutcome_clean cc perRoute n others hclient _ _ writeErr
        _ _ c2 (hbody.http2 rfl rfl rfl))

theorem writeH2_failsClosed (hclosed : cc.failureModeAllow = false)
    (hcond : requestContained cc (resolvePerRouteConfig cc perRoute) .http2)
    (action : EnvoyGo.Action H2Request) (writeErr : Option String) (filters : τ) (q : HTTPRequest)
    (h2req : H2Request) :
    FailsClosed (writeH2 (insertExtProc cc perRoute n others) action writeErr
      (newFilter cc, filters) q h2req).observe := by
  have hpass := headersPass_post cc perRoute n others .http2 hclient hclosed hcond filters q
    (h2req.body.length == 0)
  unfold writeH2
  rcases hr : headersPass (insertExtProc cc perRoute n others) (newFilter cc, filters) q
    (h2req.body.length == 0) with ⟨it, c1⟩
  rw [hr] at hpass
  have hafter := writeH2AfterHeaders_failsClosed cc perRoute n others hclient action writeErr q
    h2req it c1 hpass
  cases it with
  | failed err => exact failsClosed_of_waiting rfl (hpass.failed rfl)
  | terminated => exact hafter rfl
  | aborted => exact hafter rfl

end Pass

end EnvoyGo.ExtProc

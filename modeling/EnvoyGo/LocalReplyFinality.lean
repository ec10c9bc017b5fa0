import EnvoyGo.HCMDispatch
import EnvoyGo.LocalReplyInvariant

/-!
Finality of a local reply across the three dispatchers.  A decode pass only records the
reply; whether the request still reaches the router is decided afterwards, so the passes'
invariant is carried through each dispatcher up to its last exit.
-/

namespace EnvoyGo

variable {σ req : Type}

theorem encodeResponse_frame (fs : List (HTTPFilter σ)) (hasRespTrailers : Bool)
    (resp : ActionResponse) (c : FilterChain σ) :
    (encodeResponse fs hasRespTrailers resp c).2.asked = c.asked ∧
      (encodeResponse fs hasRespTrailers resp c).2.localReplyDone = c.localReplyDone := by
  have h1 := runEncodeHeaders_frame fs (OrderedHeaders.toHTTPHeader resp.headers)
    (resp.body.length == 0 && !hasRespTrailers) { c with encodeResponseStatus := resp.status }
  unfold encodeResponse
  rcases hr : runEncodeHeaders fs (OrderedHeaders.toHTTPHeader resp.headers)
    (resp.body.length == 0 && !hasRespTrailers) { c with encodeResponseStatus := resp.status }
    with ⟨it, c1⟩
  rw [hr] at h1
  have ha1 : c1.asked = c.asked ∧ c1.localReplyDone = c.localReplyDone := ⟨h1.asked, h1.done⟩
  have h2 := runEncodeData_frame fs resp.body (!hasRespTrailers) c1
  rcases hd : runEncodeData fs resp.body (!hasRespTrailers) c1 with ⟨it2, c2⟩
  rw [hd] at h2
  cases it with
  | failed err => exact ha1
  | _ =>
    simp only []
    split_ifs
    · rw [hd]
      cases it2 <;> exact ⟨h2.asked.trans ha1.1, h2.done.trans ha1.2⟩
    · exact ha1

theorem actionOutcome_frame (h1 hasRespTrailers : Bool) (fs : List (HTTPFilter σ))
    (writeErr : Option String) (request : req) (act : ActionResponse × Option String)
    (c : FilterChain σ) :
    (actionOutcome h1 hasRespTrailers fs writeErr request act c).chain.asked = c.asked ∧
      (actionOutcome h1 hasRespTrailers fs writeErr request act c).chain.localReplyDone =
        c.localReplyDone := by
  have hf := encodeResponse_frame fs hasRespTrailers act.1 c
  unfold actionOutcome
  simp only []
  by_cases hok : act.1.status > 0 ∧ act.2 = none
  · rw [if_pos hok]
    rcases hr : encodeResponse fs hasRespTrailers act.1 c with ⟨r, c'⟩
    rw [hr] at hf
    cases r <;> exact hf
  · rw [if_neg hok]
    exact ⟨rfl, rfl⟩

theorem actionOutcome_asked (h1 hasRespTrailers : Bool) (fs : List (HTTPFilter σ))
    (writeErr : Option String) (request : req) (act : ActionResponse × Option String)
    (c : FilterChain σ) :
    (actionOutcome h1 hasRespTrailers fs writeErr request act c).chain.asked = c.asked :=
  (actionOutcome_frame h1 hasRespTrailers fs writeErr request act c).1

theorem feedBody_spec (fs : List (HTTPFilter σ)) (bs : List Bytes) (c : FilterChain σ)
    (h : ReplyInvariant c) :
    PassSpec (feedBody fs bs c).1.isSome (feedBody fs bs c).2 := by
  induction bs generalizing c with
  | nil => exact h
  | cons b bs ih =>
    rw [feedBody]
    split_ifs
    · exact ih c h
    · have hd := runDecodeData_spec fs b false c h
      rcases hr : runDecodeData fs b false c with ⟨it, c'⟩
      rw [hr] at hd
      cases it with
      | failed err => exact hd
      | terminated => exact ih c' hd
      | aborted => exact ih c' hd

theorem decodeBody_spec (fs : List (HTTPFilter σ)) (r : BodyReader) (c : FilterChain σ)
    (h : ReplyInvariant c) :
    PassSpec (decodeBody fs r c).1.isSome (decodeBody fs r c).2 := by
  have hf := feedBody_spec fs r.chunks c h
  unfold decodeBody
  rcases hr : feedBody fs r.chunks c with ⟨err, c1⟩
  rw [hr] at hf
  cases err with
  | some err => exact hf
  | none =>
    have hd := runDecodeData_spec fs r.last true c1 hf
    simp only []
    rcases hl : runDecodeData fs r.last true c1 with ⟨it, c2⟩
    rw [hl] at hd
    cases it <;> exact hd

/-- The request was answered by the pending local reply alone, as the encode chain left it. -/
def AnsweredByLocalReply (o : Outcome σ req) : Prop :=
  o.invoked = [] ∧ ∃ l, o.chain.encoded = some l ∧ o.written = [l.toWire]

/-- The encode chain left the body of the first reply asked for as it was. -/
def BodyKept (c : FilterChain σ) (r : LocalReply) : Prop :=
  ∀ l, c.encoded = some l → l.body = r.body

theorem localReplyOutcome_answered_iff (h1 : Bool) (writeErr : Option String)
    (c : FilterChain σ) (h : ReplyInvariant c) (r : LocalReply) (rest : List LocalReply)
    (hr : c.asked = r :: rest) :
    AnsweredByLocalReply (localReplyOutcome h1 writeErr c : Outcome σ req) ↔
      0 < r.status ∧ BodyKept c r := by
  obtain ⟨hs, hb, l, hl, hls, hlh⟩ := h.stored r rest hr
  simp only [AnsweredByLocalReply, localReplyOutcome, hs, hb, true_and]
  constructor
  · rintro ⟨l', hl', hw⟩
    rw [hl] at hl'
    obtain rfl := Option.some.inj hl'
    by_cases hpos : r.status > 0
    · rw [if_pos hpos] at hw
      refine ⟨hpos, ?_⟩
      intro l2 hl2
      rw [hl] at hl2
      obtain rfl := Option.some.inj hl2
      have := congrArg WireReply.body (List.cons.inj hw).1
      exact this.symm
    · rw [if_neg hpos] at hw
      simp at hw
  · rintro ⟨hpos, hbody⟩
    refine ⟨l, hl, ?_⟩
    rw [if_pos hpos]
    simp only [LocalReply.toWire, hls, hlh, hbody l hl]

theorem decodeRequestBody_spec (fs : List (HTTPFilter σ)) (q : HTTPRequest) (c : FilterChain σ)
    (h : ReplyInvariant c) :
    PassSpec (decodeRequestBody fs q c).1.isSome (decodeRequestBody fs q c).2 := by
  unfold decodeRequestBody
  cases bodyToRead q with
  | none => exact h
  | some b => exact decodeBody_spec fs b c h

/-- The decode side as a whole: a reply is pending exactly at the `replied` exit, and at
the other two none was asked for. -/
def DecodedSpec : Decoded σ → Prop
  | .failed _ c => c.asked = []
  | .replied c => ReplyInvariant c
  | .admitted c => c.asked = []

theorem headersPass_spec (fs : List (HTTPFilter σ)) (filters : σ) (q : HTTPRequest)
    (noBody : Bool) :
    PassSpec (headersPass fs filters q noBody).1.isFailed (headersPass fs filters q noBody).2 :=
  runDecodeHeaders_spec fs noBody _ (ReplyInvariant.initial _)

def bodyDecoded (fs : List (HTTPFilter σ)) (q : HTTPRequest) (c1 : FilterChain σ) : Decoded σ :=
  if c1.localReplyDone then .replied c1
  else
    match decodeRequestBody fs q c1 with
    | (some err, c2) => .failed err c2
    | (none, c2) => if c2.localReplyDone then .replied c2 else .admitted c2

theorem decodePasses_spec (fs : List (HTTPFilter σ)) (filters : σ) (q : HTTPRequest) :
    DecodedSpec (decodePasses fs filters q) := by
  have hbody : ∀ c1 : FilterChain σ, ReplyInvariant c1 → DecodedSpec (bodyDecoded fs q c1) := by
    intro c1 hc1
    unfold bodyDecoded
    split_ifs with hd1
    · exact hc1
    · have hb := decodeRequestBody_spec fs q c1 hc1
      rcases hx : decodeRequestBody fs q c1 with ⟨err, c2⟩
      rw [hx] at hb
      cases err with
      | some err => exact hb
      | none =>
        simp only []
        split_ifs with hd2
        · exact hb
        · exact asked_nil_of_not_done hb (Bool.eq_false_iff.mpr hd2)
  have hh := headersPass_spec fs filters q (bodyToRead q).isNone
  unfold decodePasses
  rcases hp : headersPass fs filters q (bodyToRead q).isNone with ⟨it, c1⟩
  rw [hp] at hh
  cases it with
  | failed err => exact hh
  | terminated => exact hbody c1 hh
  | aborted => exact hbody c1 hh

theorem dispatchStream_answered_iff (h1 : Bool) (fs : List (HTTPFilter σ))
    (action : Action UpstreamRequest) (writeErr : Option String) (filters : σ) (q : HTTPRequest)
    (r : LocalReply) (rest : List LocalReply)
    (hr : (dispatchStream h1 fs action writeErr filters q).chain.asked = r :: rest) :
    AnsweredByLocalReply (dispatchStream h1 fs action writeErr filters q) ↔
      0 < r.status ∧ BodyKept (dispatchStream h1 fs action writeErr filters q).chain r := by
  have hs := decodePasses_spec fs filters q
  unfold dispatchStream at hr ⊢
  cases hd : decodePasses fs filters q with
  | failed err c =>
    rw [hd] at hs hr
    have hcons : c.asked = r :: rest := hr
    rw [show c.asked = [] from hs] at hcons
    simp at hcons
  | replied c =>
    rw [hd] at hs hr
    exact localReplyOutcome_answered_iff h1 writeErr c hs r rest hr
  | admitted c =>
    rw [hd] at hs hr
    simp only [actionOutcome_asked] at hr
    rw [show c.asked = [] from hs] at hr
    simp at hr

theorem writeH2AfterHeaders_answered_iff (fs : List (HTTPFilter σ)) (action : Action H2Request)
    (writeErr : Option String) (q : HTTPRequest) (h2req : H2Request) (c1 : FilterChain σ)
    (hc1 : ReplyInvariant c1) (r : LocalReply) (rest : List LocalReply)
    (hr : (writeH2AfterHeaders fs action writeErr q h2req c1).chain.asked = r :: rest) :
    AnsweredByLocalReply (writeH2AfterHeaders fs action writeErr q h2req c1) ↔
      c1.asked ≠ [] ∧ 0 < r.status ∧
        BodyKept (writeH2AfterHeaders fs action writeErr q h2req c1).chain r := by
  have hcases : ∀ p : Iteration × FilterChain σ, PassSpec p.1.isFailed p.2 →
      (if h2req.body.length > 0 then runDecodeData fs h2req.body true c1
        else (.terminated, c1)) = p → c1.localReplyDone = false →
      (AnsweredByLocalReply (writeH2AfterHeaders fs action writeErr q h2req c1) ↔
        c1.asked ≠ [] ∧ 0 < r.status ∧
          BodyKept (writeH2AfterHeaders fs action writeErr q h2req c1).chain r) := by
    intro p hp hpe hd1
    have hnil := asked_nil_of_not_done hc1 hd1
    unfold writeH2AfterHeaders at hr ⊢
    rw [if_neg (by simp [hd1]), hpe] at hr ⊢
    obtain ⟨it, c2⟩ := p
    cases it with
    | failed err =>
      have hcons : c2.asked = r :: rest := hr
      rw [show c2.asked = [] from hp] at hcons
      simp at hcons
    | terminated =>
      simp only [AnsweredByLocalReply, actionOutcome_invoked, hnil]
      simp
    | aborted =>
      simp only [AnsweredByLocalReply, actionOutcome_invoked, hnil]
      simp
  by_cases hd1 : c1.localReplyDone = true
  · have hne : c1.asked ≠ [] := hc1.done.mp hd1
    unfold writeH2AfterHeaders at hr ⊢
    rw [if_pos hd1] at hr ⊢
    rw [localReplyOutcome_answered_iff false writeErr c1 hc1 r rest hr]
    exact ⟨fun h => ⟨hne, h⟩, fun h => h.2⟩
  · have hd : c1.localReplyDone = false := Bool.eq_false_iff.mpr hd1
    by_cases hb : h2req.body.length > 0
    · exact hcases _ (runDecodeData_spec fs h2req.body true c1 hc1) (if_pos hb) hd
    · exact hcases (.terminated, c1) hc1 (if_neg hb) hd

theorem writeH2_answered_iff (fs : List (HTTPFilter σ)) (action : Action H2Request)
    (writeErr : Option String) (filters : σ) (q : HTTPRequest) (h2req : H2Request)
    (r : LocalReply) (rest : List LocalReply)
    (hr : (writeH2 fs action writeErr filters q h2req).chain.asked = r :: rest) :
    AnsweredByLocalReply (writeH2 fs action writeErr filters q h2req) ↔
      (headersPass fs filters q (h2req.body.length == 0)).2.asked ≠ [] ∧ 0 < r.status ∧
        BodyKept (writeH2 fs action writeErr filters q h2req).chain r := by
  have hh := headersPass_spec fs filters q (h2req.body.length == 0)
  unfold writeH2 at hr ⊢
  rcases hp : headersPass fs filters q (h2req.body.length == 0) with ⟨it, c1⟩
  rw [hp] at hh hr
  cases it with
  | failed err =>
    have hcons : c1.asked = r :: rest := hr
    rw [show c1.asked = [] from hh] at hcons
    simp at hcons
  | terminated => exact writeH2AfterHeaders_answered_iff fs action writeErr q h2req c1 hh r rest hr
  | aborted => exact writeH2AfterHeaders_answered_iff fs action writeErr q h2req c1 hh r rest hr

inductive Downstream
  | http1
  | http2
  | http3
  deriving DecidableEq

/-- One request with everything it meets: the chain, the router's actions, the writer. -/
structure Exchange (σ : Type) where
  chain : List (HTTPFilter σ)
  filters : σ
  action : Action UpstreamRequest
  h2Action : Action H2Request
  writeErr : Option String
  request : HTTPRequest
  h2req : H2Request

def Outcome.observe (o : Outcome σ req) : Outcome σ Unit :=
  { o with invoked := o.invoked.map (fun _ => ()) }

theorem answered_observe (o : Outcome σ req) :
    AnsweredByLocalReply o.observe ↔ AnsweredByLocalReply o := by
  simp only [AnsweredByLocalReply, Outcome.observe, List.map_eq_nil_iff]

namespace Exchange

def serve (x : Exchange σ) : Downstream → Outcome σ Unit
  | .http1 => (dispatchRequest x.chain x.action x.writeErr x.filters x.request).observe
  | .http2 => (writeH2 x.chain x.h2Action x.writeErr x.filters x.request x.h2req).observe
  | .http3 => (runH3 x.chain x.action x.writeErr x.filters x.request).observe

def askedInHeaders (x : Exchange σ) : List LocalReply :=
  (headersPass x.chain x.filters x.request (x.h2req.body.length == 0)).2.asked

/-- A local reply is the one answer and the router stays out, exactly when the reply has a
positive status, its body is not replaced on the encode side and, on HTTP/2, it was raised
before the body went through the chain. -/
theorem answered_by_localReply_iff (x : Exchange σ) (d : Downstream) (r : LocalReply)
    (rest : List LocalReply) (hr : (x.serve d).chain.asked = r :: rest) :
    AnsweredByLocalReply (x.serve d) ↔
      (d = .http2 → x.askedInHeaders ≠ []) ∧ 0 < r.status ∧ BodyKept (x.serve d).chain r := by
  cases d with
  | http1 =>
    have h := dispatchStream_answered_iff true x.chain x.action x.writeErr x.filters x.request
      r rest hr
    refine (answered_observe _).trans (h.trans ⟨fun hk => ⟨?_, hk⟩, fun hk => hk.2⟩)
    intro hd
    cases hd
  | http2 =>
    have h := writeH2_answered_iff x.chain x.h2Action x.writeErr x.filters x.request x.h2req
      r rest hr
    exact (answered_observe _).trans
      (h.trans ⟨fun hk => ⟨fun _ => hk.1, hk.2⟩, fun hk => ⟨hk.1 rfl, hk.2⟩⟩)
  | http3 =>
    have h := dispatchStream_answered_iff false x.chain x.action x.writeErr x.filters x.request
      r rest hr
    refine (answered_observe _).trans (h.trans ⟨fun hk => ⟨?_, hk⟩, fun hk => hk.2⟩)
    intro hd
    cases hd

def forbidden : LocalReply := { status := 403, body := [100, 101, 110, 121], headers := [] }

def denyBody : HTTPFilter Unit where
  name := "deny-body"
  decoder := some
    { decodeHeaders := fun _ => .done .continueIteration
      decodeData := fun _ _ => .sendLocalReply forbidden (.done .dataStopIterationNoBuffer)
      parked := .done .resumed }

def deniedPost : Exchange Unit where
  chain := [denyBody, routerFilter]
  filters := ()
  action := fun _ => ({ status := 200, headers := [], body := [] }, none)
  h2Action := fun _ => ({ status := 200, headers := [], body := [] }, none)
  writeErr := none
  request :=
    { method := "POST", host := "h", requestURI := "/", urlRequestURI := "/", header := ∅,
      contentLength := 1, body := some { chunks := [], last := [120], err := .eof } }
  h2req :=
    { method := "POST", path := "/", scheme := "https", authority := "h", headers := [],
      body := [120] }

/-- On HTTP/2 the denied request reaches the router and its answer is written. -/
theorem deniedPost_forwarded_on_http2 :
    (deniedPost.serve .http2).chain.asked = [forbidden] ∧
      (deniedPost.serve .http2).invoked = [()] ∧
      (deniedPost.serve .http2).written = [{ status := 200, headers := [], body := [] }] ∧
      ¬ AnsweredByLocalReply (deniedPost.serve .http2) := by
  have hi : (deniedPost.serve .http2).invoked = [()] := by rfl
  refine ⟨by rfl, hi, by decide, ?_⟩
  rintro ⟨hnil, -⟩
  rw [hi] at hnil
  simp at hnil

theorem deniedPost_answered_on_http1 :
    (deniedPost.serve .http1).chain.asked = [forbidden] ∧
      AnsweredByLocalReply (deniedPost.serve .http1) := by
  have ha : (deniedPost.serve .http1).chain.asked = [forbidden] := by rfl
  refine ⟨ha, (deniedPost.answered_by_localReply_iff .http1 forbidden [] ha).mpr ?_⟩
  refine ⟨by simp, by decide, ?_⟩
  intro l hl
  have hb :
      ((deniedPost.serve .http1).chain.encoded.map LocalReply.body) = some forbidden.body := by
    rfl
  rw [hl] at hb
  exact Option.some.inj hb

end Exchange

end EnvoyGo

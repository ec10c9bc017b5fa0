import EnvoyGo.HCMConnection

/-!
A request body whose read ends in an error other than EOF.  The body loop takes every read
error for the end of the stream, so what becomes of such a request is decided by everything
except the error.
-/

namespace EnvoyGo

variable {σ : Type}

/-- `req.Write` sends the request as a complete message: an unknown length is closed by the
last chunk, and a declared length is reached. -/
def UpstreamRequest.complete (u : UpstreamRequest) : Prop :=
  u.contentLength < 0 ∨ u.contentLength ≤ u.body.length

instance (u : UpstreamRequest) : Decidable u.complete :=
  inferInstanceAs (Decidable (u.contentLength < 0 ∨ u.contentLength ≤ u.body.length))

def replyCloses (writeErr : Option String) (c : FilterChain σ) : Prop :=
  (0 < c.localReplyStatus ∧ writeErr ≠ none) ∨
    equalFold (OrderedHeaders.get c.localReplyHeaders "Connection") "close" = true

def responseCloses (fs : List (HTTPFilter σ)) (writeErr : Option String)
    (act : ActionResponse × Option String) (c : FilterChain σ) : Prop :=
  act.2 ≠ none ∨ (0 < act.1.status ∧
    ((∃ err, (encodeResponse fs false act.1 c).1 = .error err) ∨ writeErr ≠ none ∨
      act.1.close = true))

theorem localReplyOutcome_err_iff (writeErr : Option String) (c : FilterChain σ) :
    (localReplyOutcome true writeErr c : Outcome σ UpstreamRequest).err ≠ none ↔
      replyCloses writeErr c := by
  unfold localReplyOutcome replyCloses
  simp only []
  by_cases hs : c.localReplyStatus > 0
  · simp only [if_pos hs]
    cases writeErr with
    | some e => simpa using Or.inl hs
    | none => simp
  · simp only [if_neg hs]
    have hs' : ¬ 0 < c.localReplyStatus := hs
    simp [hs']

theorem encodeResponse_close (fs : List (HTTPFilter σ)) (hasRespTrailers : Bool)
    (resp resp' : ActionResponse) (c : FilterChain σ)
    (h : (encodeResponse fs hasRespTrailers resp c).1 = .ok resp') : resp'.close = resp.close := by
  unfold encodeResponse at h
  split at h
  · cases h
  · simp only [] at h
    split_ifs at h
    · split at h
      · cases h
      · cases h
        rfl
    · cases h
      rfl

theorem actionOutcome_err_iff (fs : List (HTTPFilter σ)) (writeErr : Option String)
    (u : UpstreamRequest) (act : ActionResponse × Option String) (c : FilterChain σ) :
    (actionOutcome true false fs writeErr u act c).err ≠ none ↔
      responseCloses fs writeErr act c := by
  obtain ⟨resp, aerr⟩ := act
  unfold actionOutcome responseCloses
  simp only []
  by_cases hok : resp.status > 0 ∧ aerr = none
  · rw [if_pos hok]
    have hpos : 0 < resp.status := hok.1
    have hclose := encodeResponse_close fs false resp
    rcases hx : encodeResponse fs false resp c with ⟨res, c'⟩
    cases res with
    | error err => simp [hok.2, hpos]
    | ok resp' =>
      have hc : resp'.close = resp.close := hclose resp' c (by rw [hx])
      cases writeErr with
      | some e => simp [hok.2, hpos]
      | none => simp [hok.2, hpos, hc]
  · rw [if_neg hok]
    cases aerr with
    | some e => simp
    | none =>
      have hpos : ¬ 0 < resp.status := fun h => hok ⟨h, rfl⟩
      simp [hpos]

def announcesMore (q : HTTPRequest) (b : BodyReader) (c : FilterChain σ) : Prop :=
  (b.bytes.length : Int) < restoredContentLength q.contentLength c.world.request

theorem upstreamRequest_complete_iff (q : HTTPRequest) (b : BodyReader)
    (hb : bodyToRead q = some b) (c : FilterChain σ) :
    (upstreamRequest q c).complete ↔ ¬ announcesMore q b c := by
  simp only [upstreamRequest, hb, UpstreamRequest.complete, announcesMore]
  omega

/-- On HTTP/3 only the framing can stop a truncated body from passing for a whole one. -/
def harmlessOnHTTP3 (fs : List (HTTPFilter σ)) (filters : σ) (q : HTTPRequest)
    (b : BodyReader) : Prop :=
  match decodePasses fs filters q with
  | .admitted c => announcesMore q b c
  | _ => True

/-- On HTTP/1.1 the connection must also be closed, for a reason that is not the read error:
the request asked for it, the chain failed, or the response closes. -/
def harmlessOnHTTP1 (fs : List (HTTPFilter σ)) (action : Action UpstreamRequest)
    (writeErr : Option String) (flushErr : Bool) (filters : σ) (q : HTTPRequest)
    (b : BodyReader) : Prop :=
  expectsContinue q.header = true ∨ asksUpgrade q.header = true ∨
  match decodePasses fs filters q with
  | .failed _ _ => True
  | .replied c => closedByRequest flushErr q.header ∨ replyCloses writeErr c
  | .admitted c => announcesMore q b c ∧
      (closedByRequest flushErr q.header ∨
        responseCloses fs writeErr (action (upstreamRequest q c)) c)

theorem dispatchStream_contained_iff (h1 : Bool) (fs : List (HTTPFilter σ))
    (action : Action UpstreamRequest) (writeErr : Option String) (filters : σ) (q : HTTPRequest)
    (b : BodyReader) (hb : bodyToRead q = some b) :
    (∀ u ∈ (dispatchStream h1 fs action writeErr filters q).invoked, ¬ u.complete) ↔
      harmlessOnHTTP3 fs filters q b := by
  unfold dispatchStream harmlessOnHTTP3
  cases decodePasses fs filters q with
  | failed err c => simp [failedOutcome]
  | replied c => simp [localReplyOutcome_invoked]
  | admitted c =>
    simp only [actionOutcome_invoked, List.mem_singleton, forall_eq]
    rw [upstreamRequest_complete_iff q b hb c, not_not]

theorem dispatchRequest_err_iff (fs : List (HTTPFilter σ)) (action : Action UpstreamRequest)
    (writeErr : Option String) (filters : σ) (q : HTTPRequest) :
    (dispatchRequest fs action writeErr filters q).err ≠ none ↔
      match decodePasses fs filters q with
      | .failed _ _ => True
      | .replied c => replyCloses writeErr c
      | .admitted c => responseCloses fs writeErr (action (upstreamRequest q c)) c := by
  unfold dispatchRequest dispatchStream
  cases decodePasses fs filters q with
  | failed err c => simp [failedOutcome]
  | replied c => exact localReplyOutcome_err_iff writeErr c
  | admitted c => exact actionOutcome_err_iff fs writeErr _ _ c

/-- A truncated request stays out of the upstream as a whole one and, on HTTP/1.1, ends its
connection, exactly when that follows from something other than the read error. -/
theorem truncated_body_contained_iff (env : WireEnv) (fs : List (HTTPFilter σ))
    (action : Action UpstreamRequest) (writeErr : Option String) (flushErr : Bool) (filters : σ)
    (q : HTTPRequest) (b : BodyReader) (msg : String) (hb : bodyToRead q = some b)
    (_herr : b.err = .other msg) :
    (((∀ u ∈ (serveOneRequest env fs action writeErr flushErr filters q).invoked, ¬ u.complete) ∧
        (serveOneRequest env fs action writeErr flushErr filters q).keepAlive = false) ↔
      harmlessOnHTTP1 fs action writeErr flushErr filters q b) ∧
    ((∀ u ∈ (runH3 fs action writeErr filters q).invoked, ¬ u.complete) ↔
      harmlessOnHTTP3 fs filters q b) := by
  refine ⟨?_, dispatchStream_contained_iff false fs action writeErr filters q b hb⟩
  have hinv := dispatchStream_contained_iff true fs action writeErr filters q b hb
  have hclose := dispatchRequest_err_iff fs action writeErr filters q
  unfold harmlessOnHTTP1
  cases he : expectsContinue q.header with
  | true => simp [serveOneRequest, he]
  | false =>
    cases hu : asksUpgrade q.header with
    | true => simp [serveOneRequest, he, hu]
    | false =>
      have hsrv : (serveOneRequest env fs action writeErr flushErr filters q).invoked =
          (dispatchStream true fs action writeErr filters q).invoked := by
        simp [serveOneRequest, he, hu, dispatchRequest]
      rw [hsrv, hinv,
        serveOneRequest_closes_iff env fs action writeErr flushErr filters q he hu, hclose]
      unfold harmlessOnHTTP3
      cases decodePasses fs filters q with
      | failed err c => simp
      | replied c => simp
      | admitted c => simp

/-- A chunked upload whose second chunk header is malformed. -/
def brokenUpload : HTTPRequest :=
  { method := "POST", host := "h", requestURI := "/", urlRequestURI := "/", header := ∅,
    contentLength := -1,
    body := some
      { chunks := [[104, 105]], last := [], err := .other "malformed chunked encoding" } }

def okAction : Action UpstreamRequest :=
  fun _ => ({ status := 200, headers := [], body := [] }, none)

def plainEnv : WireEnv := { statusText := fun _ => "", date := "" }

/-- The bytes read so far are forwarded as the whole body and the connection stays open. -/
theorem brokenUpload_forwarded :
    ¬ (∀ u ∈ (serveOneRequest plainEnv [(routerFilter : HTTPFilter Unit)] okAction none false ()
        brokenUpload).invoked, ¬ u.complete) ∧
      (serveOneRequest plainEnv [(routerFilter : HTTPFilter Unit)] okAction none false ()
        brokenUpload).keepAlive = true ∧
      ¬ (∀ u ∈ (runH3 [(routerFilter : HTTPFilter Unit)] okAction none () brokenUpload).invoked,
        ¬ u.complete) := by
  decide

/-- With `Connection: close` and a declared length the same cut is contained. -/
def cutUpload : HTTPRequest :=
  { brokenUpload with
    contentLength := 10
    header := Header.set ∅ "Connection" "close"
    body := some { chunks := [[104, 105]], last := [], err := .other "unexpected EOF" } }

theorem cutUpload_contained :
    (∀ u ∈ (serveOneRequest plainEnv [(routerFilter : HTTPFilter Unit)] okAction none false ()
        cutUpload).invoked, ¬ u.complete) ∧
      (serveOneRequest plainEnv [(routerFilter : HTTPFilter Unit)] okAction none false ()
        cutUpload).keepAlive = false := by
  have h := truncated_body_contained_iff plainEnv [(routerFilter : HTTPFilter Unit)] okAction none
    false () cutUpload { chunks := [[104, 105]], last := [], err := .other "unexpected EOF" }
    "unexpected EOF" rfl rfl
  refine h.1.mpr (Or.inr (Or.inr ?_))
  have hannounce : ((2 : Nat) : Int) < 10 := by decide
  exact ⟨hannounce, Or.inl (Or.inr (by decide))⟩

end EnvoyGo

import EnvoyGo.JwtCredentials
import EnvoyGo.RequestFraming

/-!
What the router forwards of the credentials.  A provider with `forward` off removes its sources
from the header map; the request line goes on as it came, and a requirement reports one provider
where several were satisfied.
-/

namespace EnvoyGo.JwtAuthn

variable {KS Key σ : Type}

section Removal

/-- A request on its way to the upstream: the request line by the names of its pseudo-headers, and
the header fields by their names in lower case. -/
structure RouterRequest where
  line : List (String × String)
  target : String
  field : String → String → Prop

def RouterRequest.carries (q : RouterRequest) (name v : String) : Prop :=
  if isPseudoHeader name then (name, v) ∈ q.line else q.field (toLower name) v

/-- No token of a provider with `forward` off is left in a header or a query parameter that the
provider reads; header fields and parameters that are neither such a source nor an output of a
satisfied provider are as they came. -/
structure CredentialRemoved (creds : List (CompiledProvider KS × String))
    (received forwarded : RouterRequest) : Prop where
  headers : ∀ c ∈ creds, c.1.forward = false → ∀ src ∈ headerSources c.1, ∀ v,
    forwarded.carries src.name v → src.tokenIn v ≠ some c.2
  params : ∀ c ∈ creds, c.1.forward = false → ∀ q ∈ paramSources c.1,
    paramToken forwarded.target q ≠ some c.2
  otherFields : ∀ name, (∀ c ∈ creds,
      (c.1.forward = false → ∀ src ∈ headerSources c.1, toLower src.name ≠ toLower name) ∧
      ∀ out ∈ outputHeaders c.1, toLower out ≠ toLower name) →
    ∀ v, forwarded.carries name v ↔ received.carries name v
  otherParams : ∀ q, (∀ c ∈ creds, c.1.forward = false → q ∉ paramSources c.1) →
    parseQueryParam forwarded.target q = parseQueryParam received.target q

/-- The request line has no such token, and a header that has one is removed or overwritten by the
reported provider, with a value that is not the token. -/
structure Stripped (creds : List (CompiledProvider KS × String))
    (reported : Option (Token × CompiledProvider KS)) (headers : Header)
    (reaches : String → Bool) (line : List (String × String)) (target : String) : Prop where
  params : ∀ c ∈ creds, c.1.forward = false → ∀ q ∈ paramSources c.1,
    paramToken target q ≠ some c.2
  pseudo : ∀ c ∈ creds, c.1.forward = false → ∀ src ∈ headerSources c.1,
    isPseudoHeader src.name = true → ∀ v, (src.name, v) ∈ line → src.tokenIn v ≠ some c.2
  taken : ∀ c ∈ creds, c.1.forward = false → ∀ src ∈ headerSources c.1,
    isPseudoHeader src.name = false → reaches (toLower src.name) = true →
    ∀ k, toLower k = toLower src.name → ∀ v ∈ (headers.lookup k).getD [],
      src.tokenIn v = some c.2 → Takes reported k
  written : ∀ c ∈ creds, c.1.forward = false → ∀ src ∈ headerSources c.1,
    isPseudoHeader src.name = false → reaches (toLower src.name) = true →
    ∀ k, toLower k = toLower src.name → ∀ r ∈ reported, ∀ v,
      lastWrite (headerWrites r.1 r.2) k = some v → src.tokenIn v ≠ some c.2

theorem head_toLower (s : String) : isPseudoHeader (toLower s) = isPseudoHeader s := by
  unfold isPseudoHeader toLower
  rw [String.toList_ofList]
  cases s.toList with
  | nil => rfl
  | cons c cs =>
    rw [List.map_cons, List.head?_cons, List.head?_cons]
    by_cases hc : c.isUpper = true
    · have halpha : c.toLower.isAlpha = true := by simp [Char.isAlpha, hc]
      have hlow : c.toLower ≠ ':' := by
        intro he
        rw [he] at halpha
        exact absurd halpha (by decide)
      have hup : c ≠ ':' := by
        rintro rfl
        exact absurd hc (by decide)
      rw [beq_eq_false_iff_ne.mpr (fun he => hlow (Option.some.inj he)),
        beq_eq_false_iff_ne.mpr (fun he => hup (Option.some.inj he))]
    · rw [Char.toLower_eq_of_not_isUpper hc]

theorem ne_path_of_regular {k name : String} (hname : isPseudoHeader name = false)
    (hk : toLower k = toLower name) : k ≠ ":path" := by
  rintro rfl
  rw [← head_toLower, ← hk] at hname
  exact absurd hname (by decide)

variable {creds : List (CompiledProvider KS × String)}
  {reported : Option (Token × CompiledProvider KS)} {headers : Header} {reaches : String → Bool}

theorem other_spelled_iff (hrep : ∀ r ∈ reported, ∃ raw, (r.2, raw) ∈ creds) {name : String}
    (hname : isPseudoHeader name = false)
    (hother : ∀ c ∈ creds,
      (c.1.forward = false → ∀ src ∈ headerSources c.1, toLower src.name ≠ toLower name) ∧
      ∀ out ∈ outputHeaders c.1, toLower out ≠ toLower name) (v : String) :
    (leftMap headers reported).spelled (toLower name) v ↔ headers.spelled (toLower name) v := by
  have hwrites : ∀ r ∈ reported, ∀ k, toLower k = toLower name →
      lastWrite (headerWrites r.1 r.2) k = none := by
    intro r hr k hk
    obtain ⟨raw, hraw⟩ := hrep r hr
    cases hlast : lastWrite (headerWrites r.1 r.2) k with
    | none => rfl
    | some w =>
      obtain ⟨pair, hpair, -⟩ := Option.map_eq_some_iff.mp hlast
      have hmem := List.mem_of_getLast? hpair
      obtain ⟨hwrite, hkey⟩ := List.mem_filter.mp hmem
      have hout := output_of_write r.1 r.2 hwrite
      have hlow : toLower pair.1 = toLower name := by
        rw [← toLower_canonicalMIMEHeaderKey, eq_of_beq hkey, hk]
      exact absurd hlow ((hother _ hraw).2 pair.1 hout)
  have hleft : ∀ k, toLower k = toLower name → ¬ Takes reported k := by
    rintro k hk ⟨r, hr, hw | ⟨hfwd, hs⟩⟩
    · rw [hwrites r hr k hk] at hw
      cases hw
    · obtain ⟨raw, hraw⟩ := hrep r hr
      obtain ⟨src, hsrc, hkey⟩ := List.mem_map.mp hs
      have hlow : toLower src.name = toLower name := by
        rw [← toLower_canonicalMIMEHeaderKey, hkey, hk]
      exact (hother _ hraw).1 hfwd src hsrc hlow
  apply exists_congr
  intro k
  apply and_congr_right
  intro hk
  rw [mem_leftMap_iff headers reported (ne_path_of_regular hname hk)]
  constructor
  · rintro (⟨r, hr, hw⟩ | ⟨-, hv⟩)
    · rw [hwrites r hr k hk] at hw
      cases hw
    · exact hv
  · exact fun hv => Or.inr ⟨hleft k hk, hv⟩

theorem credentialRemoved_iff (hrep : ∀ r ∈ reported, ∃ raw, (r.2, raw) ∈ creds)
    {received forwarded : RouterRequest} (hline : forwarded.line = received.line)
    (htarget : forwarded.target = received.target)
    (hreceived : ∀ name v, isPseudoHeader name = false →
      (received.field (toLower name) v ↔
        reaches (toLower name) = true ∧ headers.spelled (toLower name) v))
    (hforwarded : ∀ name v, isPseudoHeader name = false →
      (forwarded.field (toLower name) v ↔
        reaches (toLower name) = true ∧ (leftMap headers reported).spelled (toLower name) v)) :
    CredentialRemoved creds received forwarded ↔
      Stripped creds reported headers reaches received.line received.target := by
  have hcarries : ∀ name v, isPseudoHeader name = false → (forwarded.carries name v ↔
      reaches (toLower name) = true ∧ (leftMap headers reported).spelled (toLower name) v) := by
    intro name v hname
    rw [RouterRequest.carries, hname, if_neg Bool.false_ne_true]
    exact hforwarded name v hname
  have hpseudo : ∀ name v, isPseudoHeader name = true →
      (forwarded.carries name v ↔ (name, v) ∈ received.line) := by
    intro name v hname
    rw [RouterRequest.carries, if_pos hname, hline]
  constructor
  · intro h
    constructor
    · intro c hc hfwd q hq
      rw [← htarget]
      exact h.params c hc hfwd q hq
    · intro c hc hfwd src hsrc hname v hv
      exact h.headers c hc hfwd src hsrc v ((hpseudo _ v hname).mpr hv)
    · intro c hc hfwd src hsrc hname hreach k hk v hv htoken
      by_contra hno
      have hmem := (mem_leftMap_iff headers reported (ne_path_of_regular hname hk) v).mpr
        (Or.inr ⟨hno, hv⟩)
      exact h.headers c hc hfwd src hsrc v ((hcarries _ v hname).mpr ⟨hreach, k, hk, hmem⟩) htoken
    · intro c hc hfwd src hsrc hname hreach k hk r hr v hw
      have hmem := (mem_leftMap_iff headers reported (ne_path_of_regular hname hk) v).mpr
        (Or.inl ⟨r, hr, hw⟩)
      exact h.headers c hc hfwd src hsrc v ((hcarries _ v hname).mpr ⟨hreach, k, hk, hmem⟩)
  · intro h
    constructor
    · intro c hc hfwd src hsrc v hv
      cases hname : isPseudoHeader src.name with
      | true => exact h.pseudo c hc hfwd src hsrc hname v ((hpseudo _ v hname).mp hv)
      | false =>
        obtain ⟨hreach, k, hk, hmem⟩ := (hcarries _ v hname).mp hv
        rcases (mem_leftMap_iff headers reported (ne_path_of_regular hname hk) v).mp hmem with
          ⟨r, hr, hw⟩ | ⟨hno, hclient⟩
        · exact h.written c hc hfwd src hsrc hname hreach k hk r hr v hw
        · exact fun htoken =>
            hno (h.taken c hc hfwd src hsrc hname hreach k hk v hclient htoken)
    · intro c hc hfwd q hq
      rw [htarget]
      exact h.params c hc hfwd q hq
    · intro name hother v
      cases hname : isPseudoHeader name with
      | true => rw [hpseudo name v hname, RouterRequest.carries, if_pos hname]
      | false =>
        rw [hcarries name v hname, RouterRequest.carries, hname, if_neg Bool.false_ne_true,
          hreceived name v hname, other_spelled_iff hrep hname hother v]
    · intro q _
      rw [htarget]

end Removal

section Forwarding
variable (lib : JwtLib KS Key) (rc : CompiledConfig KS) (perRoute : Option CompiledPerRoute)

def jwtChain : List (HTTPFilter σ) :=
  [{ name := "envoy.filters.http.jwt_authn", decoder := some (jwtAuthnFilter lib rc perRoute) },
    routerFilter]

theorem runDecodeData_jwt (data : Bytes) (endStream : Bool) (c : FilterChain σ)
    (hdone : c.localReplyDone = false) :
    runDecodeData (jwtChain lib rc perRoute) data endStream c = (.terminated, c) := by
  simp only [runDecodeData, jwtChain, decodeLoop, jwtAuthnFilter, routerFilter, runDecodeProg,
    FilterProg.run, reactDecodeData, hdone, Bool.false_eq_true, if_false]

theorem headersPass_jwt (filters : σ) (r : HTTPRequest) (noBody : Bool) :
    (∃ headers, decodeHeaders lib rc perRoute (injectPseudoHeaders r) = .forward headers ∧
      headersPass (jwtChain lib rc perRoute) filters r noBody =
        (.terminated, initialChain filters headers)) ∨
      ∃ c, headersPass (jwtChain lib rc perRoute) filters r noBody = (.aborted, c) ∧
        c.localReplyDone = true := by
  cases hdec : decodeHeaders lib rc perRoute (injectPseudoHeaders r) with
  | forward headers =>
    refine Or.inl ⟨headers, rfl, ?_⟩
    simp only [headersPass, jwtChain, runDecodeHeaders, decodeLoop, jwtAuthnFilter,
      runDecodeProg, FilterProg.run, initialChain, reactDecodeHeaders, hdec, id_eq,
      routerFilter, Bool.false_eq_true, if_false]
  | deny reply =>
    have hreply := askLocalReply_done (jwtChain lib rc perRoute) "envoy.filters.http.jwt_authn"
      reply (initialChain filters (injectPseudoHeaders r)) (ReplyInvariant.initial _)
    refine Or.inr ⟨_, ?_, hreply⟩
    simp only [headersPass, runDecodeHeaders, jwtChain] at hreply ⊢
    rw [decodeLoop]
    simp only [jwtAuthnFilter, runDecodeProg, FilterProg.run, id_eq, initialChain, hdec,
      Bool.false_eq_true, if_false]
    simp only [initialChain, jwtAuthnFilter] at hreply
    rw [if_pos hreply]

theorem feedBody_jwt (chunks : List Bytes) (c : FilterChain σ) (hdone : c.localReplyDone = false) :
    feedBody (jwtChain lib rc perRoute) chunks c = (none, c) := by
  induction chunks with
  | nil => rfl
  | cons b bs ih =>
    rw [feedBody]
    split_ifs
    · exact ih
    · rw [runDecodeData_jwt lib rc perRoute b false c hdone]
      exact ih

theorem decodeRequestBody_jwt (r : HTTPRequest) (c : FilterChain σ)
    (hdone : c.localReplyDone = false) :
    decodeRequestBody (jwtChain lib rc perRoute) r c = (none, c) := by
  unfold decodeRequestBody
  split
  · rw [decodeBody, feedBody_jwt lib rc perRoute _ c hdone]
    simp only []
    rw [runDecodeData_jwt lib rc perRoute _ true c hdone]
  · rfl

theorem decodePasses_jwt (filters : σ) (r : HTTPRequest) (c : FilterChain σ)
    (h : decodePasses (jwtChain lib rc perRoute) filters r = .admitted c) :
    decodeHeaders lib rc perRoute (injectPseudoHeaders r) = .forward c.world.request := by
  unfold decodePasses at h
  rcases headersPass_jwt lib rc perRoute filters r (bodyToRead r).isNone with
    ⟨headers, hdec, hpass⟩ | ⟨c', hpass, hdone⟩
  · have hfresh : (initialChain filters headers).localReplyDone = false := rfl
    rw [hpass] at h
    simp only [hfresh, Bool.false_eq_true, if_false,
      decodeRequestBody_jwt lib rc perRoute r _ hfresh] at h
    obtain rfl := Decoded.admitted.inj h
    exact hdec
  · rw [hpass] at h
    simp only [hdone, if_true] at h
    cases h

theorem h2DecodePasses_jwt (filters : σ) (r : HTTPRequest) (body : Bytes) (c : FilterChain σ)
    (h : h2DecodePasses (jwtChain lib rc perRoute) filters r body = .admitted c) :
    decodeHeaders lib rc perRoute (injectPseudoHeaders r) = .forward c.world.request := by
  unfold h2DecodePasses at h
  rcases headersPass_jwt lib rc perRoute filters r (body.length == 0) with
    ⟨headers, hdec, hpass⟩ | ⟨c', hpass, hdone⟩
  · have hfresh : (initialChain filters headers).localReplyDone = false := rfl
    rw [hpass] at h
    simp only [hfresh, Bool.false_eq_true, if_false,
      runDecodeData_jwt lib rc perRoute body true _ hfresh] at h
    have hc : initialChain filters headers = c := by
      split_ifs at h
      · exact Decoded.admitted.inj h
      · exact Decoded.admitted.inj h
    rw [← hc]
    exact hdec
  · rw [hpass] at h
    simp only [hdone, if_true] at h
    cases h

def urlPathEmpty (r : HTTPRequest) : Bool :=
  !(r.requestURI.toList.takeWhile (fun ch => ch != '?')).contains '/'

/-- The target `Request.Write` puts in the request line. -/
def requestTarget (r : HTTPRequest) : String :=
  if r.method = "CONNECT" ∧ urlPathEmpty r = true then r.host else r.urlRequestURI

/-- An HTTP/1.1 or HTTP/3 request with a header map. -/
def routerRequest (r : HTTPRequest) (header : Header) : RouterRequest where
  line := [(":method", r.method), (":path", requestTarget r), (":authority", r.host)]
  target := requestTarget r
  field := header.spelled

/-- The names a carrier has; the others are refused on HTTP/2 or, as `te`, can say one word only. -/
def carriedName (lower : String) : Bool :=
  lower != "" && lower != "host" && !isConnectionSpecificField lower && lower != "te"

def h2RouterRequest (q : H2Request) : RouterRequest where
  line := [(":method", q.method), (":path", q.path), (":scheme", q.scheme),
    (":authority", q.authority)]
  target := q.path
  field lower v := carriedName lower = true ∧ q.headers.carries lower v

theorem carriedName_carried {name : String} (hname : isPseudoHeader name = false)
    (h : carriedName (toLower name) = true) : CarriedName (toLower name) where
  folded := toLower_toLower name
  unskipped := by
    intro k hk
    have hhead : isPseudoHeader k = false := by rw [← head_toLower, hk, head_toLower, hname]
    have hhost : equalFold k "host" = false := by
      apply Bool.eq_false_iff.mpr
      intro he
      rw [equalFold_iff_toLower, hk] at he
      rw [he] at h
      exact absurd h (by decide)
    rw [h2ReconcileSkipKey, hhost, Bool.or_false]
    exact hhead
  legal := by
    intro v
    unfold carriedName at h
    simp only [Bool.and_eq_true, bne_iff_ne, Bool.not_eq_true'] at h
    rw [isIllegalH2RequestHeader, h.1.2, beq_eq_false_iff_ne.mpr h.2]
    rfl

theorem spelled_injected_iff (r : HTTPRequest) {name : String} (hname : isPseudoHeader name = false)
    (v : String) :
    r.header.spelled (toLower name) v ↔ (injectPseudoHeaders r).spelled (toLower name) v := by
  apply exists_congr
  intro k
  apply and_congr_right
  intro hk
  have hhead : isPseudoHeader k = false := by rw [← head_toLower, hk, head_toLower, hname]
  have hcolon : ∀ pseudo : String, isPseudoHeader pseudo = true → k ≠ pseudo := by
    rintro pseudo hpseudo rfl
    rw [hhead] at hpseudo
    cases hpseudo
  unfold injectPseudoHeaders
  dsimp only
  rw [setRawIfAbsent_lookup _ _ _ _ (hcolon ":path" rfl)]
  split_ifs
  · rw [setRawIfAbsent_lookup _ _ _ _ (hcolon ":authority" rfl),
      setRawIfAbsent_lookup _ _ _ _ (hcolon ":method" rfl)]
  · rw [setRawIfAbsent_lookup _ _ _ _ (hcolon ":method" rfl)]

theorem forwarded_of_dispatch (h1 : Bool) (action : Action UpstreamRequest)
    (writeErr : Option String) (filters : σ) (r : HTTPRequest) (u : UpstreamRequest)
    (hu : u ∈ (dispatchStream h1 (jwtChain lib rc perRoute) action writeErr filters r).invoked) :
    u.header = leftMap (injectPseudoHeaders r)
      (reported lib rc perRoute (injectPseudoHeaders r)) := by
  unfold dispatchStream at hu
  cases hpass : decodePasses (jwtChain lib rc perRoute) filters r with
  | failed err c =>
    rw [hpass] at hu
    cases hu
  | replied c =>
    rw [hpass] at hu
    cases hu
  | admitted c =>
    rw [hpass] at hu
    simp only [actionOutcome_invoked, List.mem_singleton] at hu
    have hheader : u.header = c.world.request := by
      rw [hu, upstreamRequest]
      split
      · rfl
      · rfl
    rw [hheader]
    exact decodeHeaders_leftMap lib rc perRoute _ _
      (decodePasses_jwt lib rc perRoute filters r c hpass)

theorem h2_forwarded_of_dispatch (parseRequestURI : String → Option String)
    (action : Action H2Request) (writeErr : Option String) (filters : σ)
    (headers : OrderedHeaders) (body : Bytes) (r : HTTPRequest)
    (hr : buildRequest parseRequestURI headers body = .ok r) (o : Outcome σ H2Request)
    (ho : serverStreamDispatch parseRequestURI (jwtChain lib rc perRoute) action writeErr filters
      headers body = some o) (u : H2Request) (hu : u ∈ o.invoked) :
    ∃ c : FilterChain σ, u = h2UpstreamRequest r (buildH2Request headers body) c ∧
      c.world.request = leftMap (injectPseudoHeaders r)
        (reported lib rc perRoute (injectPseudoHeaders r)) := by
  unfold serverStreamDispatch at ho
  rw [hr] at ho
  split_ifs at ho
  obtain rfl := Option.some.inj ho
  rw [writeH2_invoked] at hu
  cases hpass : h2DecodePasses (jwtChain lib rc perRoute) filters r
      (buildH2Request headers body).body with
  | failed err c =>
    rw [hpass] at hu
    cases hu
  | replied c =>
    rw [hpass] at hu
    cases hu
  | admitted c =>
    rw [hpass] at hu
    refine ⟨c, List.mem_singleton.mp hu, ?_⟩
    exact decodeHeaders_leftMap lib rc perRoute _ _
      (h2DecodePasses_jwt lib rc perRoute filters r _ c hpass)

/-- For every provider tree and every request that reaches the router, on each protocol: the
credentials of providers with `forward` off are gone, and the rest is as it came, exactly when the
request line has none of them and the reported provider takes every header that has one. -/
theorem credential_removed_iff_stripped (writeErr : Option String) (filters : σ) :
    (∀ (h1 : Bool) (action : Action UpstreamRequest) (r : HTTPRequest) (u : UpstreamRequest),
      u ∈ (dispatchStream h1 (jwtChain lib rc perRoute) action writeErr filters r).invoked →
      (CredentialRemoved (credentials lib rc perRoute (injectPseudoHeaders r))
          (routerRequest r r.header) (routerRequest r u.header) ↔
        Stripped (credentials lib rc perRoute (injectPseudoHeaders r))
          (reported lib rc perRoute (injectPseudoHeaders r)) (injectPseudoHeaders r)
          (fun _ => true) (routerRequest r r.header).line (requestTarget r))) ∧
    ∀ (parseRequestURI : String → Option String) (action : Action H2Request)
      (headers : OrderedHeaders) (body : Bytes) (r : HTTPRequest) (o : Outcome σ H2Request)
      (u : H2Request), buildRequest parseRequestURI headers body = .ok r →
      serverStreamDispatch parseRequestURI (jwtChain lib rc perRoute) action writeErr filters
        headers body = some o → u ∈ o.invoked →
      (CredentialRemoved (credentials lib rc perRoute (injectPseudoHeaders r))
          (h2RouterRequest (buildH2Request headers body)) (h2RouterRequest u) ↔
        Stripped (credentials lib rc perRoute (injectPseudoHeaders r))
          (reported lib rc perRoute (injectPseudoHeaders r)) (injectPseudoHeaders r) carriedName
          (h2RouterRequest (buildH2Request headers body)).line
          (buildH2Request headers body).path) := by
  have hrep : ∀ headers : Header, ∀ r ∈ reported lib rc perRoute headers,
      ∃ raw, (r.2, raw) ∈ credentials lib rc perRoute headers := by
    rintro headers ⟨t, p⟩ hr
    exact credential_of_reported lib rc perRoute headers hr
  constructor
  · intro h1 action r u hu
    have hmap := forwarded_of_dispatch lib rc perRoute h1 action writeErr filters r u hu
    refine credentialRemoved_iff (hrep _) ?_ ?_ ?_ ?_
    · rfl
    · rfl
    · intro name v hname
      rw [eq_self_iff_true, true_and]
      exact spelled_injected_iff r hname v
    · intro name v hname
      rw [eq_self_iff_true, true_and, ← hmap]
      exact Iff.rfl
  · intro parseRequestURI action headers body r o u hr ho hu
    obtain ⟨c, rfl, hmap⟩ := h2_forwarded_of_dispatch lib rc perRoute parseRequestURI action
      writeErr filters headers body r hr o ho u hu
    refine credentialRemoved_iff (hrep _) ?_ ?_ ?_ ?_
    · rfl
    · rfl
    · intro name v hname
      apply and_congr_right
      intro hreach
      have hcarried := carriedName_carried hname hreach
      have hne : toLower name ≠ "" := by
        intro he
        rw [he] at hreach
        exact absurd hreach (by decide)
      exact (spelled_injectPseudoHeaders_iff parseRequestURI headers body r hr hcarried hne v).symm
    · intro name v hname
      apply and_congr_right
      intro hreach
      have hcarried := carriedName_carried hname hreach
      have hne : toLower name ≠ "" := by
        intro he
        rw [he] at hreach
        exact absurd hreach (by decide)
      rw [← hmap]
      exact h2UpstreamRequest_carries_iff parseRequestURI headers body r hr hcarried hne c v

end Forwarding

section Requests

/-- The default sources, as one provider reads them from the query. -/
def tokenInQuery : HTTPRequest where
  method := "GET"
  host := "a"
  requestURI := "/?access_token=a.b.c"
  urlRequestURI := "/?access_token=a.b.c"
  header := ∅
  contentLength := 0
  body := none

def serviceProvider : CompiledProvider Unit where
  jwks := .localJwks ()
  fromHeaders := [⟨"X-Service", ""⟩]

def tokensInHeaders : HTTPRequest where
  method := "GET"
  host := "a"
  requestURI := "/"
  urlRequestURI := "/"
  header := Header.set (Header.set ∅ "Authorization" "Bearer a.b.c") "X-Service" "a.b.c"
  contentLength := 0
  body := none

def oneProvider : CompiledConfig Unit := userConfig (.providerName userProvider)

def bothProviders : CompiledConfig Unit :=
  userConfig (.requiresAll [.providerName serviceProvider, .providerName userProvider])

def userToken : Token where
  kid := "k"
  alg := "RS256"
  rawPayload := "b"
  payload := [("sub", .str "alice")]

def forwardedFor (rc : CompiledConfig Unit) (r : HTTPRequest) : UpstreamRequest where
  header := leftMap (injectPseudoHeaders r) (reported aliceLib rc none (injectPseudoHeaders r))
  body := []
  contentLength := 0

/-- The query goes on as it came, and `requires_all` strips for its last provider alone. -/
theorem credentials_forwarded :
    (∃ u ∈ (dispatchRequest (jwtChain aliceLib oneProvider none) okAction none () tokenInQuery
        ).invoked,
      ¬ CredentialRemoved (credentials aliceLib oneProvider none (injectPseudoHeaders tokenInQuery))
        (routerRequest tokenInQuery tokenInQuery.header) (routerRequest tokenInQuery u.header)) ∧
    ∃ u ∈ (dispatchRequest (jwtChain aliceLib bothProviders none) okAction none () tokensInHeaders
        ).invoked,
      ¬ CredentialRemoved
        (credentials aliceLib bothProviders none (injectPseudoHeaders tokensInHeaders))
        (routerRequest tokensInHeaders tokensInHeaders.header)
        (routerRequest tokensInHeaders u.header) := by
  constructor
  · refine ⟨forwardedFor oneProvider tokenInQuery, List.mem_singleton.mpr rfl, ?_⟩
    intro h
    have hcred : (userProvider, "a.b.c") ∈
        credentials aliceLib oneProvider none (injectPseudoHeaders tokenInQuery) :=
      List.mem_singleton.mpr rfl
    have hleft : paramToken (requestTarget tokenInQuery) "access_token" = some "a.b.c" := by
      decide +kernel
    exact h.params _ hcred rfl "access_token" (List.mem_singleton.mpr rfl) hleft
  · refine ⟨forwardedFor bothProviders tokensInHeaders, List.mem_singleton.mpr rfl, ?_⟩
    intro h
    have hcred : (serviceProvider, "a.b.c") ∈
        credentials aliceLib bothProviders none (injectPseudoHeaders tokensInHeaders) :=
      List.mem_cons_self
    have hleft : (routerRequest tokensInHeaders
        (forwardedFor bothProviders tokensInHeaders).header).carries "X-Service" "a.b.c" :=
      ⟨"X-Service", rfl, List.mem_singleton.mpr rfl⟩
    exact h.headers _ hcred rfl (.listed ⟨"X-Service", ""⟩) (List.mem_singleton.mpr rfl) "a.b.c"
      hleft rfl

theorem lookup_mem_keys {h : Header} {k v : String} (hv : v ∈ (h.lookup k).getD []) :
    k ∈ h.keys := by
  by_contra hno
  rw [getD_lookup_of_notMem h hno] at hv
  cases hv

/-- One provider, whose token is in `Authorization`. -/
theorem bearer_removed :
    Stripped (credentials aliceLib oneProvider none (injectPseudoHeaders tokensInHeaders))
        (reported aliceLib oneProvider none (injectPseudoHeaders tokensInHeaders))
        (injectPseudoHeaders tokensInHeaders) (fun _ => true)
        (routerRequest tokensInHeaders tokensInHeaders.header).line
        (requestTarget tokensInHeaders) ∧
      CredentialRemoved
        (credentials aliceLib oneProvider none (injectPseudoHeaders tokensInHeaders))
        (routerRequest tokensInHeaders tokensInHeaders.header)
        (routerRequest tokensInHeaders (forwardedFor oneProvider tokensInHeaders).header) := by
  have hcreds : credentials aliceLib oneProvider none (injectPseudoHeaders tokensInHeaders) =
      [(userProvider, "a.b.c")] := rfl
  have hrep : reported aliceLib oneProvider none (injectPseudoHeaders tokensInHeaders) =
      some (userToken, userProvider) := rfl
  have hkeys : (injectPseudoHeaders tokensInHeaders).keys =
      [":path", ":authority", ":method", "X-Service", "Authorization"] := by decide +kernel
  have hstripped : Stripped
      (credentials aliceLib oneProvider none (injectPseudoHeaders tokensInHeaders))
      (reported aliceLib oneProvider none (injectPseudoHeaders tokensInHeaders))
      (injectPseudoHeaders tokensInHeaders) (fun _ => true)
      (routerRequest tokensInHeaders tokensInHeaders.header).line
      (requestTarget tokensInHeaders) := by
    rw [hcreds, hrep]
    constructor
    · intro c hc _ q hq
      obtain rfl := List.mem_singleton.mp hc
      obtain rfl := List.mem_singleton.mp hq
      decide +kernel
    · intro c hc _ src hsrc hname
      obtain rfl := List.mem_singleton.mp hc
      obtain rfl := List.mem_singleton.mp hsrc
      cases hname
    · intro c hc _ src hsrc _ _ k hk v hv _
      obtain rfl := List.mem_singleton.mp hc
      obtain rfl := List.mem_singleton.mp hsrc
      have hmem := lookup_mem_keys hv
      rw [hkeys] at hmem
      have hauth : k = "Authorization" := by
        simp only [List.mem_cons, List.not_mem_nil, or_false] at hmem
        rcases hmem with rfl | rfl | rfl | rfl | rfl
        · exact absurd hk (by decide)
        · exact absurd hk (by decide)
        · exact absurd hk (by decide)
        · exact absurd hk (by decide)
        · rfl
      subst hauth
      exact ⟨_, rfl, Or.inr ⟨rfl, List.mem_singleton.mpr rfl⟩⟩
    · intro c hc _ src hsrc _ _ k hk r hr v hw
      obtain rfl := List.mem_singleton.mp hc
      obtain rfl := List.mem_singleton.mp hsrc
      obtain rfl := Option.some.inj hr
      obtain ⟨pair, hpair, -⟩ := Option.map_eq_some_iff.mp hw
      obtain ⟨hmem, hkey⟩ := List.mem_filter.mp (List.mem_of_getLast? hpair)
      have hpairs : headerWrites userToken userProvider = [("X-User", "alice")] := rfl
      rw [hpairs] at hmem
      obtain rfl := List.mem_singleton.mp hmem
      rw [← eq_of_beq hkey] at hk
      exact absurd hk (by decide)
  refine ⟨hstripped, ?_⟩
  have hiff := (credential_removed_iff_stripped aliceLib oneProvider none none ()).1 true okAction
    tokensInHeaders (forwardedFor oneProvider tokensInHeaders) (List.mem_singleton.mpr rfl)
  exact hiff.mpr hstripped

end Requests

end EnvoyGo.JwtAuthn

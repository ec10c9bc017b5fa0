import EnvoyGo.JwtEvaluator

/-!
Where the values under `forward_payload_header` and `claim_to_headers` come from: the winning
token of the requirement tree, which has passed every check, or the client.
-/

namespace EnvoyGo.JwtAuthn

variable {KS Key σ : Type}

/-- The request carried `t` where `p` looks for tokens, and it passed every check. -/
def VerifiedToken (lib : JwtLib KS Key) (headers : Header) (p : CompiledProvider KS)
    (t : Token) : Prop :=
  ∃ raw ∈ extractTokens p headers, ∃ audiences keyset key,
    lib.parse raw = .ok t ∧ resolveKeyset lib p = .ok keyset ∧
    lib.lookup keyset t.kid t.alg = .ok key ∧ lib.verifySignature t key t.alg = .ok () ∧
    lib.validateClaims t p.issuer audiences p.clockSkew = .ok ()

/-- Whatever token and provider an allowing result carries, the token is verified. -/
def Sound (lib : JwtLib KS Key) (headers : Header) (r : EvalResult KS) : Prop :=
  ∀ t p, r.token = some t → r.provider = some p → VerifiedToken lib headers p t

theorem sound_of_no_token (lib : JwtLib KS Key) (headers : Header) (r : EvalResult KS)
    (h : r.token = none) : Sound lib headers r := by
  intro t p ht
  rw [h] at ht
  exact absurd ht (Option.some_ne_none t).symm

theorem bind_eq_ok {ε α β : Type} {x : Except ε α} {f : α → Except ε β} {b : β}
    (h : x >>= f = .ok b) : ∃ a, x = .ok a ∧ f a = .ok b := by
  cases x with
  | error e => exact absurd h (by intro hc; cases hc)
  | ok a => exact ⟨a, rfl, h⟩

theorem checkToken_verified (lib : JwtLib KS Key) (p : CompiledProvider KS)
    (audiences : List String) (headers : Header) (raw : String) (t : Token)
    (hraw : raw ∈ extractTokens p headers) (h : checkToken lib p audiences raw = .ok t) :
    VerifiedToken lib headers p t := by
  obtain ⟨t', hparse, h⟩ := bind_eq_ok h
  obtain ⟨keyset, hkeyset, h⟩ := bind_eq_ok h
  obtain ⟨key, hkey, h⟩ := bind_eq_ok h
  obtain ⟨_, hsig, h⟩ := bind_eq_ok h
  obtain ⟨_, hclaims, h⟩ := bind_eq_ok h
  obtain rfl : t' = t := Except.ok.inj h
  exact ⟨raw, hraw, audiences, keyset, key, hparse, hkeyset, hkey, hsig, hclaims⟩

theorem firstValidToken_sound (lib : JwtLib KS Key) (p : CompiledProvider KS)
    (audiences : List String) (headers : Header) (lastErr : JwtErr) (raws : List String)
    (hraws : ∀ raw ∈ raws, raw ∈ extractTokens p headers) :
    Sound lib headers (firstValidToken lib p audiences lastErr raws) := by
  induction raws generalizing lastErr with
  | nil => exact sound_of_no_token lib headers _ rfl
  | cons raw rest ih =>
    have hraw := hraws raw List.mem_cons_self
    have hrest := fun r hr => hraws r (List.mem_cons_of_mem raw hr)
    rw [firstValidToken]
    cases hcheck : checkToken lib p audiences raw with
    | error err => exact ih err hrest
    | ok t =>
      intro t' p' ht hp
      obtain rfl : t = t' := Option.some.inj ht
      obtain rfl : p = p' := Option.some.inj hp
      exact checkToken_verified lib p audiences headers raw t hraw hcheck

theorem evaluateProvider_sound (lib : JwtLib KS Key) (p : CompiledProvider KS)
    (headers : Header) (audiences : List String) :
    Sound lib headers (evaluateProvider lib p headers audiences) :=
  firstValidToken_sound lib p audiences headers .jwtMissed _ (fun _ hraw => hraw)

theorem evaluateAllowMissing_sound (lib : JwtLib KS Key) (headers : Header)
    (anyTokenExtracted : Bool) (lastErr : Option JwtErr) (ps : List (CompiledProvider KS)) :
    Sound lib headers (evaluateAllowMissing lib headers anyTokenExtracted lastErr ps) := by
  induction ps generalizing anyTokenExtracted lastErr with
  | nil =>
    rw [evaluateAllowMissing]
    split
    · exact sound_of_no_token lib headers _ rfl
    · exact sound_of_no_token lib headers _ rfl
  | cons p rest ih =>
    rw [evaluateAllowMissing]
    split
    · exact ih anyTokenExtracted lastErr
    · have hp := evaluateProvider_sound lib p headers p.audiences
      by_cases hallowed : (evaluateProvider lib p headers p.audiences).allowed = true
      · simpa only [hallowed, if_true] using hp
      · simpa only [hallowed, Bool.false_eq_true, if_false] using ih true _

mutual

theorem evaluateRequirement_sound (lib : JwtLib KS Key) (rc : CompiledConfig KS)
    (headers : Header) : ∀ req : Requirement KS,
    Sound lib headers (evaluateRequirement lib rc headers req)
  | .providerName p => by
    rw [evaluateRequirement]
    exact evaluateProvider_sound lib p headers p.audiences
  | .providerAndAudiences p audOverr => by
    rw [evaluateRequirement]
    exact evaluateProvider_sound lib p headers audOverr
  | .requiresAny children => by
    rw [evaluateRequirement]
    exact evaluateAny_sound lib rc headers none children
  | .requiresAll children => by
    rw [evaluateRequirement]
    exact evaluateAll_sound lib rc headers _ children (sound_of_no_token lib headers _ rfl)
  | .allowMissing => by
    rw [evaluateRequirement]
    exact evaluateAllowMissing_sound lib headers false none rc.providers
  | .allowMissingOrFailed => by
    rw [evaluateRequirement]
    exact sound_of_no_token lib headers _ rfl

theorem evaluateAny_sound (lib : JwtLib KS Key) (rc : CompiledConfig KS) (headers : Header)
    (bestErr : Option JwtErr) : ∀ children : List (Requirement KS),
    Sound lib headers (evaluateAny lib rc headers bestErr children)
  | [] => by
    rw [evaluateAny]
    exact sound_of_no_token lib headers _ rfl
  | sub :: rest => by
    have hsub := evaluateRequirement_sound lib rc headers sub
    rw [evaluateAny]
    by_cases hallowed : (evaluateRequirement lib rc headers sub).allowed = true
    · simpa only [hallowed, if_true] using hsub
    · simpa only [hallowed, Bool.false_eq_true, if_false] using
        evaluateAny_sound lib rc headers _ rest

theorem evaluateAll_sound (lib : JwtLib KS Key) (rc : CompiledConfig KS) (headers : Header)
    (last : EvalResult KS) : ∀ children : List (Requirement KS), Sound lib headers last →
    Sound lib headers (evaluateAll lib rc headers last children)
  | [], hlast => by
    rw [evaluateAll]
    exact hlast
  | sub :: rest, _ => by
    have hsub := evaluateRequirement_sound lib rc headers sub
    rw [evaluateAll]
    by_cases hallowed : (evaluateRequirement lib rc headers sub).allowed = true
    · simpa only [hallowed, if_true] using evaluateAll_sound lib rc headers _ rest hsub
    · simpa only [hallowed, Bool.false_eq_true, if_false] using hsub

end

def headerWrites (t : Token) (p : CompiledProvider KS) : List (String × String) :=
  (if p.forwardPayloadHeader ≠ "" then
    [(p.forwardPayloadHeader, encodeBase64URL t.rawPayload p.padForwardPayloadHdr)] else []) ++
  p.claimToHeaders.filterMap (fun ch =>
    ((t.payloadClaim ch.claimName).bind stringify).map (fun s => (ch.headerName, s)))

def writeAll (h : Header) (ws : List (String × String)) : Header :=
  ws.foldl (fun h w => Header.set h w.1 w.2) h

theorem claims_eq_writeAll (t : Token) (chs : List ClaimToHeader) (h : Header) :
    chs.foldl (applyClaim t) h =
      writeAll h (chs.filterMap (fun ch =>
        ((t.payloadClaim ch.claimName).bind stringify).map (fun s => (ch.headerName, s)))) := by
  induction chs generalizing h with
  | nil => rfl
  | cons ch rest ih =>
    rw [List.foldl_cons, ih, applyClaim]
    cases hclaim : (t.payloadClaim ch.claimName).bind stringify with
    | none => rw [List.filterMap_cons_none (by rw [hclaim]; rfl)]
    | some s =>
      rw [List.filterMap_cons_some (by rw [hclaim]; rfl)]
      rfl

theorem applySideEffects_eq_writeAll (t : Token) (p : CompiledProvider KS) (h : Header) :
    applySideEffects t p h =
      writeAll (if p.forward then h else stripExtractionSources h p) (headerWrites t p) := by
  rw [applySideEffects, headerWrites, writeAll, List.foldl_append, ← writeAll,
    claims_eq_writeAll]
  congr 1
  split
  · rfl
  · rfl

theorem values_writeAll (ws : List (String × String)) (h : Header) (name : String) :
    (∃ w ∈ ws, canonicalMIMEHeaderKey w.1 = canonicalMIMEHeaderKey name ∧
      Header.values (writeAll h ws) name = [w.2]) ∨
    ((∀ w ∈ ws, canonicalMIMEHeaderKey w.1 ≠ canonicalMIMEHeaderKey name) ∧
      Header.values (writeAll h ws) name = Header.values h name) := by
  induction ws generalizing h with
  | nil => exact Or.inr ⟨fun w hw => absurd hw List.not_mem_nil, rfl⟩
  | cons w rest ih =>
    rcases ih (Header.set h w.1 w.2) with ⟨w', hw', hname, hval⟩ | ⟨hno, hval⟩
    · exact Or.inl ⟨w', List.mem_cons_of_mem w hw', hname, hval⟩
    · by_cases hw : canonicalMIMEHeaderKey w.1 = canonicalMIMEHeaderKey name
      · have hset : Header.values (Header.set h w.1 w.2) name = [w.2] := by
          rw [Header.values, ← hw]
          exact Header.values_set_self h w.1 w.2
        exact Or.inl ⟨w, List.mem_cons_self, hw, hval.trans hset⟩
      · have hset := Header.values_set_of_ne h w.1 name w.2 (fun heq => hw heq.symm)
        refine Or.inr ⟨?_, hval.trans hset⟩
        intro w' hw'
        rcases List.mem_cons.mp hw' with rfl | hrest
        · exact hw
        · exact hno w' hrest

theorem values_del (h : Header) (name other : String) :
    Header.values (Header.del h name) other = Header.values h other ∨
      Header.values (Header.del h name) other = [] := by
  by_cases hname : canonicalMIMEHeaderKey other = canonicalMIMEHeaderKey name
  · right
    rw [Header.values, hname]
    exact Header.values_del_self h name
  · exact Or.inl (Header.values_del_of_ne h name other hname)

theorem values_delAll (hls : List HeaderLoc) (h : Header) (name : String) :
    Header.values (hls.foldl (fun h hl => Header.del h hl.name) h) name = Header.values h name ∨
      Header.values (hls.foldl (fun h hl => Header.del h hl.name) h) name = [] := by
  induction hls generalizing h with
  | nil => exact Or.inl rfl
  | cons hl rest ih =>
    rw [List.foldl_cons]
    rcases ih (Header.del h hl.name) with hval | hval
    · rcases values_del h hl.name name with hd | hd
      · exact Or.inl (hval.trans hd)
      · exact Or.inr (hval.trans hd)
    · exact Or.inr hval

theorem stripAll_empty (names : List String) : names.foldl stripQueryParam "" = "" := by
  induction names with
  | nil => rfl
  | cons name rest ih => exact ih

/-- The client's part in the values under a name the filter does not write: they are kept,
or removed as a token source; `:path` may lose query parameters. -/
inductive FromClient (h h' : Header) (name : String) : Prop
  | kept (same : Header.values h' name = Header.values h name)
  | removed (gone : Header.values h' name = [])
  | pathStripped (isPath : canonicalMIMEHeaderKey name = canonicalMIMEHeaderKey ":path")
      (names : List String)
      (path : Header.values h' name = [names.foldl stripQueryParam (Header.get h ":path")])

theorem rewritePath_fromClient (h h2 : Header) (names : List String) (name : String)
    (hdel : ∀ other, Header.values h2 other = Header.values h other ∨
      Header.values h2 other = []) :
    FromClient h (rewritePath h2 names) name := by
  rw [rewritePath]
  split
  · rename_i hnew
    by_cases hname : canonicalMIMEHeaderKey name = canonicalMIMEHeaderKey ":path"
    · rcases hdel ":path" with hpath | hpath
      · refine .pathStripped hname names ?_
        have hget : Header.get h2 ":path" = Header.get h ":path" := by
          rw [Header.get, Header.get, hpath]
        rw [hget, Header.values, hname]
        exact Header.values_set_self h2 ":path" _
      · -- with `:path` itself removed there is nothing left to strip
        have hget : Header.get h2 ":path" = "" := by rw [Header.get, hpath]; rfl
        rw [hget] at hnew
        exact absurd (stripAll_empty names) hnew
    · have hset := Header.values_set_of_ne h2 ":path" name
        (names.foldl stripQueryParam (Header.get h2 ":path")) hname
      rcases hdel name with hval | hval
      · exact .kept (hset.trans hval)
      · exact .removed (hset.trans hval)
  · rcases hdel name with hval | hval
    · exact .kept hval
    · exact .removed hval

theorem stripExtractionSources_fromClient (h : Header) (p : CompiledProvider KS) (name : String) :
    FromClient h (stripExtractionSources h p) name := by
  rw [stripExtractionSources]
  split
  · exact rewritePath_fromClient h _ p.fromParams name (values_delAll p.fromHeaders h)
  · exact rewritePath_fromClient h _ ["access_token"] name (values_del h "Authorization")

/-- Where the values of one header name come from in the request `h'` forwarded for the
winning token `t` of provider `p`, given the client's request `h`. -/
inductive Provenance (t : Token) (p : CompiledProvider KS) (h h' : Header) (name : String) : Prop
  | fromPayload (header value : String) (written : (header, value) ∈ headerWrites t p)
      (sameName : canonicalMIMEHeaderKey header = canonicalMIMEHeaderKey name)
      (replaced : Header.values h' name = [value])
  | notWritten (other : ∀ w ∈ headerWrites t p,
        canonicalMIMEHeaderKey w.1 ≠ canonicalMIMEHeaderKey name)
      (client : FromClient h h' name)

theorem applySideEffects_provenance (t : Token) (p : CompiledProvider KS) (h : Header)
    (name : String) : Provenance t p h (applySideEffects t p h) name := by
  have hclient : FromClient h (if p.forward then h else stripExtractionSources h p) name := by
    split
    · exact .kept rfl
    · exact stripExtractionSources_fromClient h p name
  rw [applySideEffects_eq_writeAll]
  rcases values_writeAll (headerWrites t p)
      (if p.forward then h else stripExtractionSources h p) name with
    ⟨⟨header, value⟩, hw, hsame, hval⟩ | ⟨hno, hval⟩
  · exact .fromPayload header value hw hsame hval
  · refine .notWritten hno ?_
    cases hclient with
    | kept same => exact .kept (hval.trans same)
    | removed gone => exact .removed (hval.trans gone)
    | pathStripped isPath names path => exact .pathStripped isPath names (hval.trans path)

/-- No token won: the route or a preflight turns the filter off, no rule applies, or the
requirement tolerates the request as it is. -/
inductive AdmittedWithoutToken (lib : JwtLib KS Key) (rc : CompiledConfig KS)
    (perRoute : Option CompiledPerRoute) (h : Header) : Prop
  | disabled (route : (perRoute.map CompiledPerRoute.disabled).getD false = true)
  | preflight (bypass : rc.bypassCorsPreflight = true) (cors : isCorsPreflightRequest h = true)
  | noRule (resolved : resolveRequirement rc perRoute h = .passThrough)
  | tolerated (req : Requirement KS)
      (resolved : resolveRequirement rc perRoute h = .requirement req)
      (allowed : (evaluateRequirement lib rc h req).allowed = true)
      (noWinner : (evaluateRequirement lib rc h req).token = none ∨
        (evaluateRequirement lib rc h req).provider = none)

theorem applyResult_forward (lib : JwtLib KS Key) (rc : CompiledConfig KS)
    (perRoute : Option CompiledPerRoute) (h h' : Header) (req : Requirement KS)
    (hres : resolveRequirement rc perRoute h = .requirement req)
    (hfwd : applyResult rc (evaluateRequirement lib rc h req) h = .forward h') :
    (AdmittedWithoutToken lib rc perRoute h ∧ h' = h) ∨
      ∃ t p, VerifiedToken lib h p t ∧ h' = applySideEffects t p h := by
  have hsound := evaluateRequirement_sound lib rc h req
  rw [applyResult] at hfwd
  split at hfwd
  · rename_i hallowed
    cases ht : (evaluateRequirement lib rc h req).token with
    | none =>
      rw [ht] at hfwd
      exact Or.inl ⟨.tolerated req hres hallowed (Or.inl ht), (Decision.forward.inj hfwd).symm⟩
    | some t =>
      cases hp : (evaluateRequirement lib rc h req).provider with
      | none =>
        rw [ht, hp] at hfwd
        exact Or.inl
          ⟨.tolerated req hres hallowed (Or.inr hp), (Decision.forward.inj hfwd).symm⟩
      | some p =>
        rw [ht, hp] at hfwd
        exact Or.inr ⟨t, p, hsound t p ht hp, (Decision.forward.inj hfwd).symm⟩
  · exact absurd hfwd Decision.noConfusion

theorem decodeHeaders_forward (lib : JwtLib KS Key) (rc : CompiledConfig KS)
    (perRoute : Option CompiledPerRoute) (h h' : Header)
    (hfwd : decodeHeaders lib rc perRoute h = .forward h') :
    (AdmittedWithoutToken lib rc perRoute h ∧ h' = h) ∨
      ∃ t p, VerifiedToken lib h p t ∧ h' = applySideEffects t p h := by
  rw [decodeHeaders] at hfwd
  split at hfwd
  · rename_i hroute
    exact Or.inl ⟨.disabled hroute, (Decision.forward.inj hfwd).symm⟩
  · split at hfwd
    · rename_i hcors
      rw [Bool.and_eq_true] at hcors
      exact Or.inl ⟨.preflight hcors.1 hcors.2, (Decision.forward.inj hfwd).symm⟩
    · cases hres : resolveRequirement rc perRoute h with
      | denied reply =>
        rw [hres] at hfwd
        exact absurd hfwd Decision.noConfusion
      | passThrough =>
        rw [hres] at hfwd
        exact Or.inl ⟨.noRule hres, (Decision.forward.inj hfwd).symm⟩
      | requirement req =>
        rw [hres] at hfwd
        exact applyResult_forward lib rc perRoute h h' req hres hfwd

theorem jwtAuthnFilter_continues (lib : JwtLib KS Key) (rc : CompiledConfig KS)
    (perRoute : Option CompiledPerRoute) (fs : List (HTTPFilter σ)) (filterName : String)
    (endStream : Bool) (c c' : FilterChain σ)
    (hrun : runDecodeProg fs filterName ((jwtAuthnFilter lib rc perRoute).decodeHeaders endStream)
      c = (.continueIteration, c')) :
    decodeHeaders lib rc perRoute c.world.request = .forward c'.world.request := by
  simp only [runDecodeProg, jwtAuthnFilter, FilterProg.run, id_eq] at hrun
  cases hdec : decodeHeaders lib rc perRoute c.world.request with
  | forward headers =>
    rw [hdec] at hrun
    obtain ⟨-, rfl⟩ := Prod.mk.inj hrun
    rfl
  | deny reply =>
    rw [hdec] at hrun
    exact absurd (Prod.mk.inj hrun).1 FilterHeadersStatus.noConfusion

def userProvider : CompiledProvider Unit where
  jwks := .localJwks ()
  claimToHeaders := [⟨"X-User", "sub"⟩]

def aliceLib : JwtLib Unit Unit where
  parse raw :=
    if raw = "a.b.c" then
      .ok { kid := "k", alg := "RS256", rawPayload := "b", payload := [("sub", .str "alice")] }
    else .error .verificationFail
  fetch _ := .ok ()
  lookup _ _ _ := .ok ()
  verifySignature _ _ _ := .ok ()
  validateClaims _ _ _ _ := .ok ()

def userConfig (req : Requirement Unit) : CompiledConfig Unit where
  providers := [userProvider]
  rules := [{ matchFn := some (.pathPrefix "/"), requirement := req }]

def forgedRequest : Header :=
  Header.set (Header.set ∅ ":path" "/") "X-User" "admin"

def requestChain (h : Header) : FilterChain Unit where
  world := { filters := (), request := h, response := ∅ }

def aliceRequest : Header := Header.set forgedRequest "Authorization" "Bearer a.b.c"

end EnvoyGo.JwtAuthn

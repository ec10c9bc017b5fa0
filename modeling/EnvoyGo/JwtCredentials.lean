import Mathlib.Data.List.Induction
import EnvoyGo.JwtHeaders

/-!
The credentials of a request that `jwt_authn` lets through: the sources its providers read, every
provider that was satisfied on the way through the requirement, and the header map that is left
once the side effects of the one reported provider are applied.
-/

namespace EnvoyGo.JwtAuthn

variable {KS Key σ : Type}

section Sources

/-- A header that is read for tokens: `Authorization: Bearer`, or one of `from_headers`. -/
inductive HeaderSource
  | bearer
  | listed (hl : HeaderLoc)

def HeaderSource.name : HeaderSource → String
  | .bearer => "Authorization"
  | .listed hl => hl.name

def HeaderSource.tokenIn : HeaderSource → String → Option String
  | .bearer, v =>
    if hasPrefix v "Bearer " then
      nonEmptyToken (stripNonBase64URLChars (Text.trimSpace (v.toList.drop 7)))
    else none
  | .listed hl, v =>
    if v.toList = [] then none
    else if hl.valuePrefix = "" then
      nonEmptyToken (stripNonBase64URLChars (Text.trimSpace v.toList))
    else (Text.afterFirst hl.valuePrefix.toList v.toList).bind (fun candidate =>
      nonEmptyToken (stripNonBase64URLChars candidate))

def headerSources (p : CompiledProvider KS) : List HeaderSource :=
  if hasExplicit p then p.fromHeaders.map .listed else [.bearer]

def paramSources (p : CompiledProvider KS) : List String :=
  if hasExplicit p then p.fromParams else ["access_token"]

def cookieTokens (p : CompiledProvider KS) (headers : Header) : List String :=
  p.fromCookies.filterMap (fun name =>
    ((parseCookies (Header.get headers "Cookie")).lookup name).filter (fun v => v != ""))

theorem extractTokens_eq (p : CompiledProvider KS) (headers : Header) :
    extractTokens p headers =
      (headerSources p).filterMap (fun src => src.tokenIn (Header.get headers src.name)) ++
      (paramSources p).filterMap (paramToken (Header.get headers ":path")) ++
      cookieTokens p headers := by
  unfold extractTokens headerSources paramSources
  by_cases hexplicit : hasExplicit p = true
  · rw [if_pos hexplicit, if_pos hexplicit, if_pos hexplicit, List.filterMap_map]
    rfl
  · rw [if_neg hexplicit, if_neg hexplicit, if_neg hexplicit]
    have hcookies : cookieTokens p headers = [] := by
      simp only [hasExplicit, Bool.or_eq_true, decide_eq_true_eq, not_or, Nat.not_lt,
        Nat.le_zero] at hexplicit
      rw [cookieTokens, List.eq_nil_of_length_eq_zero hexplicit.2]
      rfl
    rw [hcookies, List.append_nil, defaultTokens]
    simp only [List.filterMap_cons, List.filterMap_nil]
    rfl

def outputHeaders (p : CompiledProvider KS) : List String :=
  (if p.forwardPayloadHeader ≠ "" then [p.forwardPayloadHeader] else []) ++
    p.claimToHeaders.map ClaimToHeader.headerName

end Sources

theorem output_of_write (t : Token) (p : CompiledProvider KS) {w : String × String}
    (hw : w ∈ headerWrites t p) : w.1 ∈ outputHeaders p := by
  unfold headerWrites at hw
  unfold outputHeaders
  rcases List.mem_append.mp hw with hw | hw
  · apply List.mem_append_left
    split_ifs at hw ⊢
    · rw [List.mem_singleton.mp hw]
      exact List.mem_singleton.mpr rfl
    · cases hw
  · apply List.mem_append_right
    obtain ⟨ch, hch, hval⟩ := List.mem_filterMap.mp hw
    obtain ⟨s, -, rfl⟩ := Option.map_eq_some_iff.mp hval
    exact List.mem_map.mpr ⟨ch, hch, rfl⟩

section Credentials
variable (lib : JwtLib KS Key) (rc : CompiledConfig KS)

def satisfying (p : CompiledProvider KS) (headers : Header) (effectiveAudiences : List String) :
    List (CompiledProvider KS × String) :=
  (((extractTokens p headers).find? (fun raw =>
    (checkToken lib p effectiveAudiences raw).isOk)).map (fun raw => (p, raw))).toList

def satisfyingAllowMissing (headers : Header) :
    List (CompiledProvider KS) → List (CompiledProvider KS × String)
  | [] => []
  | p :: rest =>
    if (evaluateProvider lib p headers p.audiences).allowed then
      satisfying lib p headers p.audiences
    else satisfyingAllowMissing headers rest

mutual

def satisfied (headers : Header) : Requirement KS → List (CompiledProvider KS × String)
  | .providerName p => satisfying lib p headers p.audiences
  | .providerAndAudiences p audOverr => satisfying lib p headers audOverr
  | .requiresAny children => satisfiedAny headers children
  | .requiresAll children => satisfiedAll headers children
  | .allowMissing => satisfyingAllowMissing lib headers rc.providers
  | .allowMissingOrFailed => []

def satisfiedAny (headers : Header) :
    List (Requirement KS) → List (CompiledProvider KS × String)
  | [] => []
  | sub :: rest =>
    satisfied headers sub ++
      if (evaluateRequirement lib rc headers sub).allowed then [] else satisfiedAny headers rest

def satisfiedAll (headers : Header) :
    List (Requirement KS) → List (CompiledProvider KS × String)
  | [] => []
  | sub :: rest =>
    satisfied headers sub ++
      if (evaluateRequirement lib rc headers sub).allowed then satisfiedAll headers rest else []

end

def requirementOf (perRoute : Option CompiledPerRoute) (headers : Header) :
    Option (Requirement KS) :=
  if (perRoute.map CompiledPerRoute.disabled).getD false then none
  else if rc.bypassCorsPreflight && isCorsPreflightRequest headers then none
  else match resolveRequirement rc perRoute headers with
  | .requirement req => some req
  | _ => none

def credentials (perRoute : Option CompiledPerRoute) (headers : Header) :
    List (CompiledProvider KS × String) :=
  ((requirementOf rc perRoute headers).map (satisfied lib rc headers)).getD []

/-- The token and provider the side effects are applied for. -/
def reported (perRoute : Option CompiledPerRoute) (headers : Header) :
    Option (Token × CompiledProvider KS) :=
  (requirementOf rc perRoute headers).bind (fun req =>
    let r := evaluateRequirement lib rc headers req
    r.token.bind (fun t => r.provider.map (fun p => (t, p))))

theorem satisfying_of_provider (p : CompiledProvider KS) (headers : Header)
    (effectiveAudiences : List String) {p' : CompiledProvider KS}
    (h : (evaluateProvider lib p headers effectiveAudiences).provider = some p') :
    ∃ raw, (p', raw) ∈ satisfying lib p headers effectiveAudiences := by
  unfold evaluateProvider at h
  unfold satisfying
  generalize extractTokens p headers = raws at h ⊢
  generalize JwtErr.jwtMissed = lastErr at h
  induction raws generalizing lastErr with
  | nil => cases h
  | cons raw rest ih =>
    rw [firstValidToken] at h
    cases hcheck : checkToken lib p effectiveAudiences raw with
    | error err =>
      rw [hcheck] at h
      rw [List.find?_cons_of_neg (by rw [hcheck]; exact Bool.false_ne_true)]
      exact ih err h
    | ok t =>
      rw [hcheck] at h
      obtain rfl := Option.some.inj h
      rw [List.find?_cons_of_pos (by rw [hcheck]; rfl)]
      exact ⟨raw, List.mem_singleton.mpr rfl⟩

theorem satisfying_of_allowMissing (headers : Header) (anyTokenExtracted : Bool)
    (lastErr : Option JwtErr) (ps : List (CompiledProvider KS)) {p' : CompiledProvider KS}
    (h : (evaluateAllowMissing lib headers anyTokenExtracted lastErr ps).provider = some p') :
    ∃ raw, (p', raw) ∈ satisfyingAllowMissing lib headers ps := by
  induction ps generalizing anyTokenExtracted lastErr with
  | nil =>
    rw [evaluateAllowMissing] at h
    split at h
    · cases h
    · cases h
  | cons p rest ih =>
    rw [evaluateAllowMissing] at h
    rw [satisfyingAllowMissing]
    split at h
    · rename_i hempty
      have hdenied : (evaluateProvider lib p headers p.audiences).allowed = false := by
        rw [evaluateProvider, hempty]
        rfl
      rw [hdenied, if_neg Bool.false_ne_true]
      exact ih _ _ h
    · by_cases hallowed : (evaluateProvider lib p headers p.audiences).allowed = true
      · simp only [hallowed, if_true] at h ⊢
        exact satisfying_of_provider lib p headers p.audiences h
      · simp only [hallowed, Bool.false_eq_true, if_false] at h ⊢
        exact ih _ _ h

mutual

theorem satisfied_of_provider (headers : Header) : ∀ (req : Requirement KS)
    {p : CompiledProvider KS}, (evaluateRequirement lib rc headers req).provider = some p →
    ∃ raw, (p, raw) ∈ satisfied lib rc headers req
  | .providerName p, _, h => by
    rw [evaluateRequirement] at h
    rw [satisfied]
    exact satisfying_of_provider lib p headers p.audiences h
  | .providerAndAudiences p audOverr, _, h => by
    rw [evaluateRequirement] at h
    rw [satisfied]
    exact satisfying_of_provider lib p headers audOverr h
  | .requiresAny children, _, h => by
    rw [evaluateRequirement] at h
    rw [satisfied]
    exact satisfiedAny_of_provider headers none children h
  | .requiresAll children, _, h => by
    rw [evaluateRequirement] at h
    rw [satisfied]
    exact (satisfiedAll_of_provider headers _ children h).resolve_left nofun
  | .allowMissing, _, h => by
    rw [evaluateRequirement] at h
    rw [satisfied]
    exact satisfying_of_allowMissing lib headers false none rc.providers h
  | .allowMissingOrFailed, _, h => by
    rw [evaluateRequirement] at h
    cases h

theorem satisfiedAny_of_provider (headers : Header) (bestErr : Option JwtErr) :
    ∀ (children : List (Requirement KS)) {p : CompiledProvider KS},
    (evaluateAny lib rc headers bestErr children).provider = some p →
    ∃ raw, (p, raw) ∈ satisfiedAny lib rc headers children
  | [], _, h => by
    rw [evaluateAny] at h
    cases h
  | sub :: rest, _, h => by
    rw [evaluateAny] at h
    rw [satisfiedAny]
    by_cases hallowed : (evaluateRequirement lib rc headers sub).allowed = true
    · simp only [hallowed, if_true] at h
      obtain ⟨raw, hraw⟩ := satisfied_of_provider headers sub h
      exact ⟨raw, List.mem_append_left _ hraw⟩
    · simp only [hallowed, Bool.false_eq_true, if_false] at h ⊢
      obtain ⟨raw, hraw⟩ := satisfiedAny_of_provider headers _ rest h
      exact ⟨raw, List.mem_append_right _ hraw⟩

theorem satisfiedAll_of_provider (headers : Header) (last : EvalResult KS) :
    ∀ (children : List (Requirement KS)) {p : CompiledProvider KS},
    (evaluateAll lib rc headers last children).provider = some p →
    last.provider = some p ∨ ∃ raw, (p, raw) ∈ satisfiedAll lib rc headers children
  | [], _, h => by
    rw [evaluateAll] at h
    exact Or.inl h
  | sub :: rest, _, h => by
    rw [evaluateAll] at h
    rw [satisfiedAll]
    by_cases hallowed : (evaluateRequirement lib rc headers sub).allowed = true
    · simp only [hallowed, if_true] at h ⊢
      rcases satisfiedAll_of_provider headers _ rest h with hsub | ⟨raw, hraw⟩
      · obtain ⟨raw, hraw⟩ := satisfied_of_provider headers sub hsub
        exact Or.inr ⟨raw, List.mem_append_left _ hraw⟩
      · exact Or.inr ⟨raw, List.mem_append_right _ hraw⟩
    · simp only [hallowed, Bool.false_eq_true, if_false] at h
      obtain ⟨raw, hraw⟩ := satisfied_of_provider headers sub h
      exact Or.inr ⟨raw, List.mem_append_left _ hraw⟩

end

theorem credential_of_reported (perRoute : Option CompiledPerRoute) (headers : Header) {t : Token}
    {p : CompiledProvider KS} (h : reported lib rc perRoute headers = some (t, p)) :
    ∃ raw, (p, raw) ∈ credentials lib rc perRoute headers := by
  unfold reported at h
  unfold credentials
  cases hreq : requirementOf rc perRoute headers with
  | none =>
    rw [hreq] at h
    cases h
  | some req =>
    rw [hreq, Option.bind_some] at h
    obtain ⟨t', ht, h⟩ := Option.bind_eq_some_iff.mp h
    obtain ⟨p', hp, h⟩ := Option.map_eq_some_iff.mp h
    obtain ⟨rfl, rfl⟩ := Prod.mk.inj h
    exact satisfied_of_provider lib rc headers req hp

def leftMap (headers : Header) : Option (Token × CompiledProvider KS) → Header
  | none => headers
  | some (t, p) => applySideEffects t p headers

theorem decodeHeaders_leftMap (perRoute : Option CompiledPerRoute) (headers headers' : Header)
    (h : decodeHeaders lib rc perRoute headers = .forward headers') :
    headers' = leftMap headers (reported lib rc perRoute headers) := by
  unfold decodeHeaders at h
  unfold reported requirementOf
  split_ifs at h ⊢
  · exact (Decision.forward.inj h).symm
  · exact (Decision.forward.inj h).symm
  · cases hres : resolveRequirement rc perRoute headers with
    | denied reply =>
      rw [hres] at h
      cases h
    | passThrough =>
      rw [hres] at h
      exact (Decision.forward.inj h).symm
    | requirement req =>
      rw [hres] at h
      simp only [Option.bind_some]
      simp only [applyResult] at h
      split_ifs at h
      cases ht : (evaluateRequirement lib rc headers req).token with
      | none =>
        rw [ht] at h
        exact (Decision.forward.inj h).symm
      | some t =>
        cases hp : (evaluateRequirement lib rc headers req).provider with
        | none =>
          rw [ht, hp] at h
          exact (Decision.forward.inj h).symm
        | some p =>
          rw [ht, hp] at h
          exact (Decision.forward.inj h).symm

end Credentials

section LeftMap

def lastWrite (ws : List (String × String)) (k : String) : Option String :=
  ((ws.filter (fun w => canonicalMIMEHeaderKey w.1 == k)).getLast?).map Prod.snd

def strippedKeys (p : CompiledProvider KS) : List String :=
  (headerSources p).map (fun src => canonicalMIMEHeaderKey src.name)

theorem lookup_writeAll (ws : List (String × String)) (h : Header) (k : String) :
    (writeAll h ws).lookup k =
      match lastWrite ws k with
      | some v => some [v]
      | none => h.lookup k := by
  induction ws using List.reverseRecOn with
  | nil => rfl
  | append_singleton ws w ih =>
    have hstep : writeAll h (ws ++ [w]) = Header.set (writeAll h ws) w.1 w.2 :=
      List.foldl_append
    rw [hstep, lastWrite, List.filter_append, Header.set]
    by_cases hk : canonicalMIMEHeaderKey w.1 = k
    · subst hk
      rw [AList.lookup_insert, List.filter_cons_of_pos (by simp), List.filter_nil,
        List.getLast?_append, List.getLast?_singleton]
      rfl
    · rw [AList.lookup_insert_ne (Ne.symm hk), List.filter_cons_of_neg (by simpa using hk),
        List.filter_nil, List.append_nil]
      exact ih

theorem lookup_delAll (names : List String) (h : Header) (k : String) :
    (names.foldl (fun h name => Header.del h name) h).lookup k =
      if k ∈ names.map canonicalMIMEHeaderKey then none else h.lookup k := by
  induction names generalizing h with
  | nil => rfl
  | cons name rest ih =>
    rw [List.foldl_cons, ih, Header.del, List.map_cons]
    by_cases hrest : k ∈ rest.map canonicalMIMEHeaderKey
    · rw [if_pos hrest, if_pos (List.mem_cons_of_mem _ hrest)]
    · rw [if_neg hrest]
      by_cases hk : k = canonicalMIMEHeaderKey name
      · rw [if_pos (List.mem_cons.mpr (Or.inl hk)), hk, AList.lookup_erase]
      · have hno : k ∉ canonicalMIMEHeaderKey name :: rest.map canonicalMIMEHeaderKey := by
          intro hmem
          rcases List.mem_cons.mp hmem with hmem | hmem
          · exact hk hmem
          · exact hrest hmem
        rw [if_neg hno, AList.lookup_erase_ne hk]

theorem lookup_rewritePath (h : Header) (names : List String) {k : String} (hk : k ≠ ":path") :
    (rewritePath h names).lookup k = h.lookup k := by
  have hpath : canonicalMIMEHeaderKey ":path" = ":path" := by decide
  unfold rewritePath
  dsimp only
  split_ifs
  · rw [Header.set, hpath, AList.lookup_insert_ne hk]
  · rfl

theorem lookup_stripExtractionSources (h : Header) (p : CompiledProvider KS) {k : String}
    (hk : k ≠ ":path") :
    (stripExtractionSources h p).lookup k =
      if k ∈ strippedKeys p then none else h.lookup k := by
  unfold stripExtractionSources strippedKeys headerSources
  by_cases hexplicit : hasExplicit p = true
  · rw [if_pos hexplicit, if_pos hexplicit, lookup_rewritePath _ _ hk, List.map_map]
    have hdel := lookup_delAll (p.fromHeaders.map HeaderLoc.name) h k
    rw [List.foldl_map, List.map_map] at hdel
    exact hdel
  · rw [if_neg hexplicit, if_neg hexplicit, lookup_rewritePath _ _ hk]
    exact lookup_delAll ["Authorization"] h k

/-- The reported provider has its own value under the key, or removes it. -/
def Takes (reported : Option (Token × CompiledProvider KS)) (k : String) : Prop :=
  ∃ r ∈ reported, (lastWrite (headerWrites r.1 r.2) k).isSome = true ∨
    (r.2.forward = false ∧ k ∈ strippedKeys r.2)

theorem mem_leftMap_iff (h : Header) (reported : Option (Token × CompiledProvider KS))
    {k : String} (hk : k ≠ ":path") (v : String) :
    v ∈ ((leftMap h reported).lookup k).getD [] ↔
      (∃ r ∈ reported, lastWrite (headerWrites r.1 r.2) k = some v) ∨
        (¬ Takes reported k ∧ v ∈ (h.lookup k).getD []) := by
  cases reported with
  | none =>
    have hno : ¬ Takes (none : Option (Token × CompiledProvider KS)) k := by
      rintro ⟨r, hr, -⟩
      cases hr
    constructor
    · exact fun hv => Or.inr ⟨hno, hv⟩
    · rintro (⟨r, hr, -⟩ | ⟨-, hv⟩)
      · cases hr
      · exact hv
  | some r =>
    obtain ⟨t, p⟩ := r
    have hstrip : (if p.forward then h else stripExtractionSources h p).lookup k =
        if p.forward = false ∧ k ∈ strippedKeys p then none else h.lookup k := by
      cases hfwd : p.forward with
      | true => simp
      | false => simp [lookup_stripExtractionSources h p hk]
    rw [leftMap, applySideEffects_eq_writeAll, lookup_writeAll]
    cases hlast : lastWrite (headerWrites t p) k with
    | some w =>
      have htakes : Takes (some (t, p)) k := ⟨(t, p), rfl, Or.inl (by rw [hlast]; rfl)⟩
      constructor
      · intro hv
        obtain rfl := List.mem_singleton.mp hv
        exact Or.inl ⟨(t, p), rfl, hlast⟩
      · rintro (⟨r, hr, hw⟩ | ⟨hno, -⟩)
        · obtain rfl := Option.some.inj hr
          rw [hlast] at hw
          obtain rfl := Option.some.inj hw
          exact List.mem_singleton.mpr rfl
        · exact absurd htakes hno
    | none =>
      have htakes : Takes (some (t, p)) k ↔ p.forward = false ∧ k ∈ strippedKeys p := by
        constructor
        · rintro ⟨r, hr, hw | hs⟩
          · obtain rfl := Option.some.inj hr
            rw [hlast] at hw
            cases hw
          · obtain rfl := Option.some.inj hr
            exact hs
        · exact fun hs => ⟨(t, p), rfl, Or.inr hs⟩
      simp only []
      rw [hstrip, htakes]
      constructor
      · intro hv
        split_ifs at hv with hs
        · cases hv
        · exact Or.inr ⟨hs, hv⟩
      · rintro (⟨r, hr, hw⟩ | ⟨hno, hv⟩)
        · obtain rfl := Option.some.inj hr
          rw [hlast] at hw
          cases hw
        · rw [if_neg hno]
          exact hv

end LeftMap

end EnvoyGo.JwtAuthn

import EnvoyGo.JwtToken
import EnvoyGo.JwtCredentials

/-!
Requirement trees.  The tree is read as a Boolean formula over its leaves, and evaluated with
every `range` over the providers in an order of its own.
-/

namespace EnvoyGo.JwtAuthn

variable {KS Key R E : Type}

section Reading

variable (verifies : CompiledProvider KS → List String → Prop) (missingOrValid : Prop)

mutual

def Requirement.reading : Requirement KS → Prop
  | .providerName p => verifies p p.audiences
  | .providerAndAudiences p audOverr => verifies p audOverr
  | .requiresAny children => anyReading children
  | .requiresAll children => allReading children
  | .allowMissing => missingOrValid
  | .allowMissingOrFailed => True

def anyReading : List (Requirement KS) → Prop
  | [] => False
  | sub :: rest => Requirement.reading sub ∨ anyReading rest

def allReading : List (Requirement KS) → Prop
  | [] => True
  | sub :: rest => Requirement.reading sub ∧ allReading rest

end

end Reading

section Provider

variable (lib : JwtLib KS Key) (headers : Header)

def verifiedToken (p : CompiledProvider KS) (audiences : List String) : Option Token :=
  (extractTokens p headers).findSome? (fun raw => (checkToken lib p audiences raw).toOption)

def failureOf {ε α : Type} : Except ε α → Option ε
  | .error err => some err
  | .ok _ => none

def lastFailure (p : CompiledProvider KS) (audiences : List String) : JwtErr :=
  (((extractTokens p headers).filterMap (fun raw =>
    failureOf (checkToken lib p audiences raw))).getLast?).getD .jwtMissed

def verifiedResult (p : CompiledProvider KS) (t : Token) : EvalResult KS :=
  { allowed := true, token := some t, provider := some p }

theorem firstValidToken_eq (p : CompiledProvider KS) (audiences : List String) (lastErr : JwtErr)
    (raws : List String) :
    firstValidToken lib p audiences lastErr raws =
      match raws.findSome? (fun raw => (checkToken lib p audiences raw).toOption) with
      | some t => verifiedResult p t
      | none =>
        { allowed := false
          err := some (((raws.filterMap (fun raw =>
            failureOf (checkToken lib p audiences raw))).getLast?).getD lastErr) } := by
  induction raws generalizing lastErr with
  | nil => rfl
  | cons raw rest ih =>
    rw [firstValidToken, List.findSome?_cons, List.filterMap_cons]
    cases hcheck : checkToken lib p audiences raw with
    | ok t => rfl
    | error err =>
      simp only [Except.toOption, failureOf, List.getLast?_cons, Option.getD_some]
      exact ih err

theorem evaluateProvider_of_verified {p : CompiledProvider KS} {audiences : List String}
    {t : Token} (h : verifiedToken lib headers p audiences = some t) :
    evaluateProvider lib p headers audiences = verifiedResult p t := by
  rw [evaluateProvider, firstValidToken_eq]
  rw [verifiedToken] at h
  rw [h]

theorem evaluateProvider_of_failed {p : CompiledProvider KS} {audiences : List String}
    (h : verifiedToken lib headers p audiences = none) :
    evaluateProvider lib p headers audiences =
      { allowed := false, err := some (lastFailure lib headers p audiences) } := by
  rw [evaluateProvider, firstValidToken_eq]
  rw [verifiedToken] at h
  rw [h]
  rfl

theorem evaluateProvider_allowed_iff (p : CompiledProvider KS) (audiences : List String) :
    (evaluateProvider lib p headers audiences).allowed = true ↔
      ∃ t, verifiedToken lib headers p audiences = some t := by
  cases h : verifiedToken lib headers p audiences with
  | none =>
    rw [evaluateProvider_of_failed lib headers h]
    simp
  | some t =>
    rw [evaluateProvider_of_verified lib headers h]
    simp [verifiedResult]

theorem lastFailure_ne_missed
    (hlib : ∀ p audiences raw, checkToken lib p audiences raw ≠ .error .jwtMissed)
    {p : CompiledProvider KS} {audiences : List String} (htokens : extractTokens p headers ≠ [])
    (h : verifiedToken lib headers p audiences = none) :
    lastFailure lib headers p audiences ≠ .jwtMissed := by
  unfold lastFailure
  cases hlast : ((extractTokens p headers).filterMap (fun raw =>
      failureOf (checkToken lib p audiences raw))).getLast? with
  | none =>
    exfalso
    obtain ⟨raw, hraw⟩ := List.exists_mem_of_ne_nil _ htokens
    have hnone := List.findSome?_eq_none_iff.mp h raw hraw
    have hfail := List.filterMap_eq_nil_iff.mp (List.getLast?_eq_none_iff.mp hlast) raw hraw
    cases hcheck : checkToken lib p audiences raw with
    | ok t =>
      rw [hcheck] at hnone
      cases hnone
    | error err =>
      rw [hcheck] at hfail
      cases hfail
  | some err =>
    obtain ⟨raw, -, hraw⟩ := List.mem_filterMap.mp (List.mem_of_getLast? hlast)
    intro herr
    cases hcheck : checkToken lib p audiences raw with
    | ok t =>
      rw [hcheck] at hraw
      cases hraw
    | error err' =>
      rw [hcheck] at hraw
      obtain rfl := Option.some.inj hraw
      rw [Option.getD_some] at herr
      exact hlib p audiences raw (by rw [hcheck, herr])

end Provider

section Orders

variable (lib : JwtLib KS Key) (headers : Header)

variable {p : CompiledProvider KS} {ps : List (CompiledProvider KS)}

theorem extractTokens_ne_nil {audiences : List String} {t : Token}
    (h : verifiedToken lib headers p audiences = some t) : extractTokens p headers ≠ [] := by
  intro hempty
  rw [verifiedToken, hempty] at h
  cases h

theorem verifiedToken_eq_none
    (h : ¬∃ p ∈ ps, ∃ t, verifiedToken lib headers p p.audiences = some t) :
    ∀ p ∈ ps, verifiedToken lib headers p p.audiences = none := by
  intro p hp
  cases ht : verifiedToken lib headers p p.audiences with
  | none => rfl
  | some t => exact absurd ⟨p, hp, t, ht⟩ h

theorem evaluateAllowMissing_cons_verified (anyTokenExtracted : Bool) (lastErr : Option JwtErr)
    {t : Token} (rest : List (CompiledProvider KS))
    (h : verifiedToken lib headers p p.audiences = some t) :
    evaluateAllowMissing lib headers anyTokenExtracted lastErr (p :: rest) =
      verifiedResult p t := by
  rw [evaluateAllowMissing, if_neg (extractTokens_ne_nil lib headers h)]
  rw [evaluateProvider_of_verified lib headers h]
  rfl

theorem evaluateAllowMissing_cons_silent (anyTokenExtracted : Bool) (lastErr : Option JwtErr)
    (rest : List (CompiledProvider KS)) (h : extractTokens p headers = []) :
    evaluateAllowMissing lib headers anyTokenExtracted lastErr (p :: rest) =
      evaluateAllowMissing lib headers anyTokenExtracted lastErr rest := by
  rw [evaluateAllowMissing, if_pos h]

theorem evaluateAllowMissing_cons_failed
    (hlib : ∀ p audiences raw, checkToken lib p audiences raw ≠ .error .jwtMissed)
    (anyTokenExtracted : Bool) (lastErr : Option JwtErr) (rest : List (CompiledProvider KS))
    (htokens : extractTokens p headers ≠ []) (h : verifiedToken lib headers p p.audiences = none) :
    evaluateAllowMissing lib headers anyTokenExtracted lastErr (p :: rest) =
      evaluateAllowMissing lib headers true (some (lastFailure lib headers p p.audiences))
        rest := by
  have herr := lastFailure_ne_missed lib headers hlib htokens h
  have hkept : some (lastFailure lib headers p p.audiences) ≠ none ∧
      some (lastFailure lib headers p p.audiences) ≠ some .jwtMissed :=
    ⟨Option.some_ne_none _, fun he => herr (Option.some.inj he)⟩
  rw [evaluateAllowMissing, if_neg htokens, evaluateProvider_of_failed lib headers h]
  simp only [Bool.false_eq_true, if_false, if_pos hkept]

theorem evaluateAllowMissing_of_verified
    (hlib : ∀ p audiences raw, checkToken lib p audiences raw ≠ .error .jwtMissed)
    (anyTokenExtracted : Bool) (lastErr : Option JwtErr)
    (h : ∃ p ∈ ps, ∃ t, verifiedToken lib headers p p.audiences = some t) :
    ∃ p ∈ ps, ∃ t, verifiedToken lib headers p p.audiences = some t ∧
      evaluateAllowMissing lib headers anyTokenExtracted lastErr ps = verifiedResult p t := by
  induction ps generalizing anyTokenExtracted lastErr with
  | nil =>
    obtain ⟨p, hp, -⟩ := h
    cases hp
  | cons q rest ih =>
    cases hq : verifiedToken lib headers q q.audiences with
    | some t =>
      exact ⟨q, List.mem_cons_self, t, hq,
        evaluateAllowMissing_cons_verified lib headers _ _ rest hq⟩
    | none =>
      have hrest : ∃ p ∈ rest, ∃ t, verifiedToken lib headers p p.audiences = some t := by
        obtain ⟨p, hp, t, ht⟩ := h
        rcases List.mem_cons.mp hp with rfl | hp
        · rw [hq] at ht
          cases ht
        · exact ⟨p, hp, t, ht⟩
      by_cases htokens : extractTokens q headers = []
      · rw [evaluateAllowMissing_cons_silent lib headers _ _ rest htokens]
        obtain ⟨p, hp, t, ht, hr⟩ := ih anyTokenExtracted lastErr hrest
        exact ⟨p, List.mem_cons_of_mem q hp, t, ht, hr⟩
      · rw [evaluateAllowMissing_cons_failed lib headers hlib _ _ rest htokens hq]
        obtain ⟨p, hp, t, ht, hr⟩ := ih true _ hrest
        exact ⟨p, List.mem_cons_of_mem q hp, t, ht, hr⟩

theorem evaluateAllowMissing_of_failed
    (hlib : ∀ p audiences raw, checkToken lib p audiences raw ≠ .error .jwtMissed)
    (anyTokenExtracted : Bool) (lastErr : Option JwtErr)
    (h : ∀ p ∈ ps, verifiedToken lib headers p p.audiences = none) :
    evaluateAllowMissing lib headers anyTokenExtracted lastErr ps =
      match (ps.filter (fun p => extractTokens p headers ≠ [])).getLast? with
      | none => evaluateAllowMissing lib headers anyTokenExtracted lastErr []
      | some p => { allowed := false, err := some (lastFailure lib headers p p.audiences) } := by
  induction ps generalizing anyTokenExtracted lastErr with
  | nil => rfl
  | cons q rest ih =>
    have hq := h q List.mem_cons_self
    have hrest := fun p hp => h p (List.mem_cons_of_mem q hp)
    by_cases htokens : extractTokens q headers = []
    · rw [evaluateAllowMissing_cons_silent lib headers _ _ rest htokens, List.filter_cons,
        if_neg (by simpa using htokens)]
      exact ih _ _ hrest
    · rw [evaluateAllowMissing_cons_failed lib headers hlib _ _ rest htokens hq,
        List.filter_cons, if_pos (by simpa using htokens), List.getLast?_cons, ih _ _ hrest]
      cases (rest.filter (fun p => extractTokens p headers ≠ [])).getLast? with
      | none => exact if_pos ⟨rfl, Option.some_ne_none _⟩
      | some p => rfl

def MissingOrValid (ps : List (CompiledProvider KS)) : Prop :=
  (∀ p ∈ ps, extractTokens p headers = []) ∨
    ∃ p ∈ ps, ∃ t, verifiedToken lib headers p p.audiences = some t

theorem evaluateAllowMissing_allowed_iff
    (hlib : ∀ p audiences raw, checkToken lib p audiences raw ≠ .error .jwtMissed)
    (ps : List (CompiledProvider KS)) :
    (evaluateAllowMissing lib headers false none ps).allowed = true ↔
      MissingOrValid lib headers ps := by
  by_cases hverified : ∃ p ∈ ps, ∃ t, verifiedToken lib headers p p.audiences = some t
  · obtain ⟨p, -, t, -, hr⟩ :=
      evaluateAllowMissing_of_verified lib headers hlib false none hverified
    rw [hr]
    exact iff_of_true rfl (Or.inr hverified)
  · have hnone := verifiedToken_eq_none lib headers hverified
    rw [evaluateAllowMissing_of_failed lib headers hlib false none hnone]
    cases hlast : (ps.filter (fun p => extractTokens p headers ≠ [])).getLast? with
    | none =>
      refine iff_of_true rfl (Or.inl ?_)
      intro p hp
      have hnil := List.getLast?_eq_none_iff.mp hlast
      simpa using List.filter_eq_nil_iff.mp hnil p hp
    | some q =>
      refine iff_of_false (by simp) ?_
      rintro (hempty | hvalid)
      · obtain ⟨hq, htokens⟩ := List.mem_filter.mp (List.mem_of_getLast? hlast)
        exact absurd (hempty q hq) (by simpa using htokens)
      · exact hverified hvalid

/-- All providers that verify a token report one and the same; where none does, all that found a
token fail alike. -/
structure OneReport (ps : List (CompiledProvider KS)) : Prop where
  verified : ∀ p ∈ ps, ∀ q ∈ ps, ∀ t u, verifiedToken lib headers p p.audiences = some t →
    verifiedToken lib headers q q.audiences = some u → p = q ∧ t = u
  failed : (∀ p ∈ ps, verifiedToken lib headers p p.audiences = none) →
    ∀ p ∈ ps, ∀ q ∈ ps, extractTokens p headers ≠ [] → extractTokens q headers ≠ [] →
      lastFailure lib headers p p.audiences = lastFailure lib headers q q.audiences

theorem evaluateAllowMissing_perm
    (hlib : ∀ p audiences raw, checkToken lib p audiences raw ≠ .error .jwtMissed)
    {order : List (CompiledProvider KS)} (hone : OneReport lib headers ps)
    (horder : order.Perm ps) :
    evaluateAllowMissing lib headers false none order =
      evaluateAllowMissing lib headers false none ps := by
  by_cases hverified : ∃ p ∈ ps, ∃ t, verifiedToken lib headers p p.audiences = some t
  · have hverified' : ∃ p ∈ order, ∃ t, verifiedToken lib headers p p.audiences = some t := by
      obtain ⟨p, hp, ht⟩ := hverified
      exact ⟨p, horder.mem_iff.mpr hp, ht⟩
    obtain ⟨p, hp, t, ht, hr⟩ :=
      evaluateAllowMissing_of_verified lib headers hlib false none hverified
    obtain ⟨q, hq, u, hu, hr'⟩ :=
      evaluateAllowMissing_of_verified lib headers hlib false none hverified'
    obtain ⟨rfl, rfl⟩ := hone.verified p hp q (horder.mem_iff.mp hq) t u ht hu
    rw [hr, hr']
  · have hnone := verifiedToken_eq_none lib headers hverified
    have hnone' := fun p hp => hnone p (horder.mem_iff.mp hp)
    have hfilter := horder.filter (fun p => decide (extractTokens p headers ≠ []))
    rw [evaluateAllowMissing_of_failed lib headers hlib false none hnone,
      evaluateAllowMissing_of_failed lib headers hlib false none hnone']
    cases hlast : (ps.filter (fun p => extractTokens p headers ≠ [])).getLast? with
    | none =>
      rw [List.getLast?_eq_none_iff] at hlast
      rw [hlast] at hfilter
      rw [List.getLast?_eq_none_iff.mpr hfilter.eq_nil]
    | some p =>
      cases hlast' : (order.filter (fun p => extractTokens p headers ≠ [])).getLast? with
      | none =>
        rw [List.getLast?_eq_none_iff] at hlast'
        rw [hlast'] at hfilter
        rw [hfilter.symm.eq_nil] at hlast
        cases hlast
      | some q =>
        obtain ⟨hp, hptokens⟩ := List.mem_filter.mp (List.mem_of_getLast? hlast)
        obtain ⟨hq, hqtokens⟩ := List.mem_filter.mp
          (hfilter.mem_iff.mp (List.mem_of_getLast? hlast'))
        have herr := hone.failed hnone q hq p hp (by simpa using hqtokens)
          (by simpa using hptokens)
        exact congrArg (fun err => ({ allowed := false, err := some err } : EvalResult KS)) herr

theorem oneReport_of_perm
    (hlib : ∀ p audiences raw, checkToken lib p audiences raw ≠ .error .jwtMissed)
    (h : ∀ order order' : List (CompiledProvider KS), order.Perm ps → order'.Perm ps →
      evaluateAllowMissing lib headers false none order =
        evaluateAllowMissing lib headers false none order') : OneReport lib headers ps := by
  have hfirst : ∀ p ∈ ps, ∃ rest, (p :: rest).Perm ps := by
    intro p hp
    obtain ⟨before, after, rfl⟩ := List.append_of_mem hp
    exact ⟨before ++ after, List.perm_middle.symm⟩
  constructor
  · intro p hp q hq t u ht hu
    obtain ⟨rest, hrest⟩ := hfirst p hp
    obtain ⟨rest', hrest'⟩ := hfirst q hq
    have heq := h _ _ hrest hrest'
    rw [evaluateAllowMissing_cons_verified lib headers _ _ rest ht,
      evaluateAllowMissing_cons_verified lib headers _ _ rest' hu] at heq
    exact ⟨Option.some.inj (congrArg EvalResult.provider heq),
      Option.some.inj (congrArg EvalResult.token heq)⟩
  · intro hnone p hp q hq hptokens hqtokens
    have hlast : ∀ p ∈ ps, extractTokens p headers ≠ [] → ∃ order, order.Perm ps ∧
        evaluateAllowMissing lib headers false none order =
          { allowed := false, err := some (lastFailure lib headers p p.audiences) } := by
      intro p hp htokens
      obtain ⟨rest, hrest⟩ := hfirst p hp
      have horder : (rest ++ [p]).Perm ps := (List.perm_append_singleton p rest).trans hrest
      have hfilter : (rest ++ [p]).filter (fun p => extractTokens p headers ≠ []) =
          rest.filter (fun p => extractTokens p headers ≠ []) ++ [p] := by
        rw [List.filter_append]
        simp [htokens]
      refine ⟨rest ++ [p], horder, ?_⟩
      rw [evaluateAllowMissing_of_failed lib headers hlib false none
        (fun q hq => hnone q (horder.mem_iff.mp hq)), hfilter, List.getLast?_concat]
    obtain ⟨order, horder, hr⟩ := hlast p hp hptokens
    obtain ⟨order', horder', hr'⟩ := hlast q hq hqtokens
    have heq := h order order' horder horder'
    rw [hr, hr'] at heq
    exact Option.some.inj (congrArg EvalResult.err heq)

end Orders

section Evaluation

variable (lib : JwtLib KS Key) (rc : CompiledConfig KS) (headers : Header)

mutual

inductive Evaluates : Requirement KS → EvalResult KS → Prop
  | providerName (p : CompiledProvider KS) :
      Evaluates (.providerName p) (evaluateProvider lib p headers p.audiences)
  | providerAndAudiences (p : CompiledProvider KS) (audOverr : List String) :
      Evaluates (.providerAndAudiences p audOverr) (evaluateProvider lib p headers audOverr)
  | requiresAny {children : List (Requirement KS)} {r : EvalResult KS}
      (h : EvaluatesAny none children r) : Evaluates (.requiresAny children) r
  | requiresAll {children : List (Requirement KS)} {r : EvalResult KS}
      (h : EvaluatesAll { allowed := true } children r) : Evaluates (.requiresAll children) r
  | allowMissing {order : List (CompiledProvider KS)} (h : order.Perm rc.providers) :
      Evaluates .allowMissing (evaluateAllowMissing lib headers false none order)
  | allowMissingOrFailed : Evaluates .allowMissingOrFailed { allowed := true }

inductive EvaluatesAny : Option JwtErr → List (Requirement KS) → EvalResult KS → Prop
  | nil (bestErr : Option JwtErr) : EvaluatesAny bestErr [] { allowed := false, err := bestErr }
  | allowed (bestErr : Option JwtErr) {sub : Requirement KS} (rest : List (Requirement KS))
      {r : EvalResult KS} (h : Evaluates sub r) (hallowed : r.allowed = true) :
      EvaluatesAny bestErr (sub :: rest) r
  | denied (bestErr : Option JwtErr) {sub : Requirement KS} {rest : List (Requirement KS)}
      {r r' : EvalResult KS} (h : Evaluates sub r) (hdenied : r.allowed = false)
      (hrest : EvaluatesAny (mergeRequiresAnyErr bestErr r.err) rest r') :
      EvaluatesAny bestErr (sub :: rest) r'

inductive EvaluatesAll : EvalResult KS → List (Requirement KS) → EvalResult KS → Prop
  | nil (last : EvalResult KS) : EvaluatesAll last [] last
  | allowed (last : EvalResult KS) {sub : Requirement KS} {rest : List (Requirement KS)}
      {r r' : EvalResult KS} (h : Evaluates sub r) (hallowed : r.allowed = true)
      (hrest : EvaluatesAll r rest r') : EvaluatesAll last (sub :: rest) r'
  | denied (last : EvalResult KS) {sub : Requirement KS} (rest : List (Requirement KS))
      {r : EvalResult KS} (h : Evaluates sub r) (hdenied : r.allowed = false) :
      EvaluatesAll last (sub :: rest) r

end

mutual

def Requirement.usesAllowMissing : Requirement KS → Prop
  | .providerName _ => False
  | .providerAndAudiences _ _ => False
  | .requiresAny children => anyUsesAllowMissing children
  | .requiresAll children => anyUsesAllowMissing children
  | .allowMissing => True
  | .allowMissingOrFailed => False

def anyUsesAllowMissing : List (Requirement KS) → Prop
  | [] => False
  | sub :: rest => Requirement.usesAllowMissing sub ∨ anyUsesAllowMissing rest

end

variable {lib rc headers}

mutual

theorem evaluates_evaluateRequirement : ∀ req : Requirement KS,
    Evaluates lib rc headers req (evaluateRequirement lib rc headers req)
  | .providerName p => by
    rw [evaluateRequirement]
    exact .providerName p
  | .providerAndAudiences p audOverr => by
    rw [evaluateRequirement]
    exact .providerAndAudiences p audOverr
  | .requiresAny children => by
    rw [evaluateRequirement]
    exact .requiresAny (evaluates_evaluateAny none children)
  | .requiresAll children => by
    rw [evaluateRequirement]
    exact .requiresAll (evaluates_evaluateAll _ children)
  | .allowMissing => by
    rw [evaluateRequirement]
    exact .allowMissing (List.Perm.refl _)
  | .allowMissingOrFailed => by
    rw [evaluateRequirement]
    exact .allowMissingOrFailed

theorem evaluates_evaluateAny (bestErr : Option JwtErr) : ∀ children : List (Requirement KS),
    EvaluatesAny lib rc headers bestErr children (evaluateAny lib rc headers bestErr children)
  | [] => by
    rw [evaluateAny]
    exact .nil bestErr
  | sub :: rest => by
    rw [evaluateAny]
    have hsub := evaluates_evaluateRequirement sub
    cases hallowed : (evaluateRequirement lib rc headers sub).allowed with
    | true => exact .allowed bestErr rest hsub hallowed
    | false => exact .denied bestErr hsub hallowed (evaluates_evaluateAny _ rest)

theorem evaluates_evaluateAll (last : EvalResult KS) : ∀ children : List (Requirement KS),
    EvaluatesAll lib rc headers last children (evaluateAll lib rc headers last children)
  | [] => by
    rw [evaluateAll]
    exact .nil last
  | sub :: rest => by
    rw [evaluateAll]
    have hsub := evaluates_evaluateRequirement sub
    cases hallowed : (evaluateRequirement lib rc headers sub).allowed with
    | true => exact .allowed last hsub hallowed (evaluates_evaluateAll _ rest)
    | false => exact .denied last rest hsub hallowed

end

section Reads

variable (hlib : ∀ p audiences raw, checkToken lib p audiences raw ≠ .error .jwtMissed)
  {verifies : CompiledProvider KS → List String → Prop}
  (hverifies : ∀ p audiences,
    (evaluateProvider lib p headers audiences).allowed = true ↔ verifies p audiences)
include hlib hverifies

set_option linter.unusedSectionVars false in
mutual

theorem evaluates_allowed_iff {req : Requirement KS} {r : EvalResult KS}
    (h : Evaluates lib rc headers req r) :
    r.allowed = true ↔
      req.reading verifies (MissingOrValid lib headers rc.providers) := by
  cases h with
  | providerName p =>
    rw [Requirement.reading]
    exact hverifies p p.audiences
  | providerAndAudiences p audOverr =>
    rw [Requirement.reading]
    exact hverifies p audOverr
  | requiresAny h =>
    rw [Requirement.reading]
    exact evaluatesAny_allowed_iff h
  | requiresAll h =>
    rw [Requirement.reading]
    exact evaluatesAll_allowed_iff h rfl
  | allowMissing horder =>
    rw [Requirement.reading, evaluateAllowMissing_allowed_iff lib headers hlib]
    unfold MissingOrValid
    simp only [horder.mem_iff]
  | allowMissingOrFailed =>
    rw [Requirement.reading]
    exact iff_of_true rfl trivial

theorem evaluatesAny_allowed_iff {bestErr : Option JwtErr} {children : List (Requirement KS)}
    {r : EvalResult KS} (h : EvaluatesAny lib rc headers bestErr children r) :
    r.allowed = true ↔
      anyReading verifies (MissingOrValid lib headers rc.providers) children := by
  cases h with
  | nil =>
    rw [anyReading]
    exact iff_of_false Bool.false_ne_true id
  | allowed _ rest h hallowed =>
    rw [anyReading]
    exact iff_of_true hallowed (Or.inl ((evaluates_allowed_iff h).mp hallowed))
  | denied _ h hdenied hrest =>
    rw [anyReading, ← evaluates_allowed_iff h, hdenied, evaluatesAny_allowed_iff hrest]
    simp

theorem evaluatesAll_allowed_iff {last : EvalResult KS} {children : List (Requirement KS)}
    {r : EvalResult KS} (h : EvaluatesAll lib rc headers last children r)
    (hlast : last.allowed = true) :
    r.allowed = true ↔
      allReading verifies (MissingOrValid lib headers rc.providers) children := by
  cases h with
  | nil =>
    rw [allReading]
    exact iff_of_true hlast trivial
  | allowed _ h hallowed hrest =>
    rw [allReading, ← evaluates_allowed_iff h, evaluatesAll_allowed_iff hrest hallowed, hallowed]
    simp
  | denied _ rest h hdenied =>
    rw [allReading, ← evaluates_allowed_iff h, hdenied]
    simp

end

end Reads

section Unique

variable (hlib : ∀ p audiences raw, checkToken lib p audiences raw ≠ .error .jwtMissed)
include hlib

set_option linter.unusedSectionVars false in
mutual

theorem evaluateRequirement_of_evaluates {req : Requirement KS} {r : EvalResult KS}
    (hone : req.usesAllowMissing → OneReport lib headers rc.providers)
    (h : Evaluates lib rc headers req r) : r = evaluateRequirement lib rc headers req := by
  cases h with
  | providerName p => rw [evaluateRequirement]
  | providerAndAudiences p audOverr => rw [evaluateRequirement]
  | requiresAny h =>
    rw [Requirement.usesAllowMissing] at hone
    rw [evaluateRequirement]
    exact evaluateAny_of_evaluates hone h
  | requiresAll h =>
    rw [Requirement.usesAllowMissing] at hone
    rw [evaluateRequirement]
    exact evaluateAll_of_evaluates hone h
  | allowMissing horder =>
    rw [Requirement.usesAllowMissing] at hone
    rw [evaluateRequirement]
    exact evaluateAllowMissing_perm lib headers hlib (hone trivial) horder
  | allowMissingOrFailed => rw [evaluateRequirement]

theorem evaluateAny_of_evaluates {bestErr : Option JwtErr} {children : List (Requirement KS)}
    {r : EvalResult KS} (hone : anyUsesAllowMissing children → OneReport lib headers rc.providers)
    (h : EvaluatesAny lib rc headers bestErr children r) :
    r = evaluateAny lib rc headers bestErr children := by
  cases h with
  | nil => rw [evaluateAny]
  | allowed _ rest h hallowed =>
    rw [anyUsesAllowMissing] at hone
    rw [evaluateAny, ← evaluateRequirement_of_evaluates (fun hs => hone (Or.inl hs)) h, hallowed]
    rfl
  | denied _ h hdenied hrest =>
    rw [anyUsesAllowMissing] at hone
    rw [evaluateAny, ← evaluateRequirement_of_evaluates (fun hs => hone (Or.inl hs)) h, hdenied]
    exact evaluateAny_of_evaluates (fun hs => hone (Or.inr hs)) hrest

theorem evaluateAll_of_evaluates {last : EvalResult KS} {children : List (Requirement KS)}
    {r : EvalResult KS} (hone : anyUsesAllowMissing children → OneReport lib headers rc.providers)
    (h : EvaluatesAll lib rc headers last children r) :
    r = evaluateAll lib rc headers last children := by
  cases h with
  | nil => rw [evaluateAll]
  | allowed _ h hallowed hrest =>
    rw [anyUsesAllowMissing] at hone
    rw [evaluateAll, ← evaluateRequirement_of_evaluates (fun hs => hone (Or.inl hs)) h, hallowed]
    exact evaluateAll_of_evaluates (fun hs => hone (Or.inr hs)) hrest
  | denied _ rest h hdenied =>
    rw [anyUsesAllowMissing] at hone
    rw [evaluateAll, ← evaluateRequirement_of_evaluates (fun hs => hone (Or.inl hs)) h, hdenied]
    rfl

end

end Unique

end Evaluation

section Trees

variable (lib : TokenLib R E) (now : ℤ) (fetchers : String → Fetcher R E)

/-- What a provider accepts a token for: it stands where the provider looks, a key picked from the
provider's own set verifies it with the token's algorithm, and its claims pass. -/
structure Admitted (p : CompiledProvider (JWKSet R E)) (headers : Header) (audiences : List String)
    (raw : String) (t : Token) : Prop where
  location : (∃ src ∈ headerSources p, src.tokenIn (Header.get headers src.name) = some raw) ∨
    (∃ name ∈ paramSources p, paramToken (Header.get headers ":path") name = some raw) ∨
    raw ∈ cookieTokens p headers
  parsed : parse lib raw = .ok t
  signature : ∃ keys, resolveKeyset (jwtLib lib now fetchers) p = .ok keys ∧
    ∃ k ∈ keys, keys.pick t.kid t.alg = some k ∧
      ∃ sig, Base64.rawURLDecode t.rawSignature.toList = some sig ∧ SignedBy lib t t.alg sig k.key
  claims : ClaimsPass lib now t p.issuer audiences p.clockSkew

theorem mem_extractTokens_iff (p : CompiledProvider KS) (headers : Header) (raw : String) :
    raw ∈ extractTokens p headers ↔
      (∃ src ∈ headerSources p, src.tokenIn (Header.get headers src.name) = some raw) ∨
      (∃ name ∈ paramSources p, paramToken (Header.get headers ":path") name = some raw) ∨
      raw ∈ cookieTokens p headers := by
  rw [extractTokens_eq, List.mem_append, List.mem_append, List.mem_filterMap, List.mem_filterMap,
    or_assoc]

theorem checkToken_eq_ok_iff (p : CompiledProvider (JWKSet R E)) (audiences : List String)
    (raw : String) (t : Token) :
    checkToken (jwtLib lib now fetchers) p audiences raw = .ok t ↔
      parse lib raw = .ok t ∧
      (∃ keys, resolveKeyset (jwtLib lib now fetchers) p = .ok keys ∧
        ∃ k ∈ keys, keys.pick t.kid t.alg = some k ∧
          ∃ sig, Base64.rawURLDecode t.rawSignature.toList = some sig ∧
            SignedBy lib t t.alg sig k.key) ∧
      ClaimsPass lib now t p.issuer audiences p.clockSkew := by
  constructor
  · intro h
    obtain ⟨t', hparse, h⟩ := bind_eq_ok h
    obtain ⟨keys, hkeys, h⟩ := bind_eq_ok h
    obtain ⟨key, hkey, h⟩ := bind_eq_ok h
    obtain ⟨_, hsig, h⟩ := bind_eq_ok h
    obtain ⟨_, hclaims, h⟩ := bind_eq_ok h
    obtain rfl : t' = t := Except.ok.inj h
    obtain ⟨k, hpick, rfl⟩ := JWKSet.lookup_eq_ok.mp hkey
    exact ⟨hparse, ⟨keys, hkeys, k, JWKSet.mem_of_pick hpick, hpick,
      (verifySignature_eq_ok_iff lib t' k.key t'.alg).mp hsig⟩,
      (validateClaims_eq_ok_iff lib now t' p.issuer audiences p.clockSkew).mp hclaims⟩
  · rintro ⟨hparse, ⟨keys, hkeys, k, -, hpick, hsig⟩, hclaims⟩
    have hkey := JWKSet.lookup_eq_ok.mpr ⟨k, hpick, rfl⟩
    have hsig := (verifySignature_eq_ok_iff lib t k.key t.alg).mpr hsig
    have hclaims := (validateClaims_eq_ok_iff lib now t p.issuer audiences p.clockSkew).mpr hclaims
    change parse lib raw >>= _ = _
    rw [hparse]
    change resolveKeyset (jwtLib lib now fetchers) p >>= _ = _
    rw [hkeys]
    change JWKSet.lookup keys t.kid t.alg >>= _ = _
    rw [hkey]
    change verifySignature lib t k.key t.alg >>= _ = _
    rw [hsig]
    change validateClaims lib now t p.issuer audiences p.clockSkew >>= _ = _
    rw [hclaims]
    rfl

theorem admitted_iff (p : CompiledProvider (JWKSet R E)) (headers : Header)
    (audiences : List String) (raw : String) (t : Token) :
    Admitted lib now fetchers p headers audiences raw t ↔ raw ∈ extractTokens p headers ∧
      checkToken (jwtLib lib now fetchers) p audiences raw = .ok t := by
  rw [mem_extractTokens_iff, checkToken_eq_ok_iff]
  constructor
  · rintro ⟨hlocation, hparsed, hsignature, hclaims⟩
    exact ⟨hlocation, hparsed, hsignature, hclaims⟩
  · rintro ⟨hlocation, hparsed, hsignature, hclaims⟩
    exact ⟨hlocation, hparsed, hsignature, hclaims⟩

variable {headers : Header}

theorem admitted_of_verified {p : CompiledProvider (JWKSet R E)} {audiences : List String}
    {t : Token} (h : verifiedToken (jwtLib lib now fetchers) headers p audiences = some t) :
    ∃ raw, Admitted lib now fetchers p headers audiences raw t := by
  obtain ⟨raw, hraw, hcheck⟩ := List.exists_of_findSome?_eq_some h
  refine ⟨raw, (admitted_iff lib now fetchers p headers audiences raw t).mpr ⟨hraw, ?_⟩⟩
  cases hr : checkToken (jwtLib lib now fetchers) p audiences raw with
  | error err =>
    rw [hr] at hcheck
    cases hcheck
  | ok u =>
    rw [hr] at hcheck
    exact congrArg Except.ok (Option.some.inj hcheck)

theorem evaluateProvider_admits_iff (p : CompiledProvider (JWKSet R E)) (headers : Header)
    (audiences : List String) :
    (evaluateProvider (jwtLib lib now fetchers) p headers audiences).allowed = true ↔
      ∃ raw t, Admitted lib now fetchers p headers audiences raw t := by
  rw [evaluateProvider_allowed_iff]
  constructor
  · rintro ⟨t, ht⟩
    obtain ⟨raw, hraw⟩ := admitted_of_verified lib now fetchers ht
    exact ⟨raw, t, hraw⟩
  · rintro ⟨raw, t, hadmitted⟩
    obtain ⟨hraw, hcheck⟩ := (admitted_iff lib now fetchers p headers audiences raw t).mp hadmitted
    apply Option.isSome_iff_exists.mp
    apply List.findSome?_isSome_iff.mpr
    refine ⟨raw, hraw, ?_⟩
    rw [hcheck]
    rfl

/-- A requirement means what it says, in every order of the providers: it allows what its Boolean
reading does, a provider succeeds with a token it admits, and there is one outcome. -/
structure MeansWhatItSays (rc : CompiledConfig (JWKSet R E)) (headers : Header)
    (req : Requirement (JWKSet R E)) : Prop where
  allows : ∀ r, Evaluates (jwtLib lib now fetchers) rc headers req r →
    (r.allowed = true ↔ req.reading
      (fun p audiences => ∃ raw t, Admitted lib now fetchers p headers audiences raw t)
      ((∀ p ∈ rc.providers, extractTokens p headers = []) ∨ ∃ p ∈ rc.providers, ∃ raw t,
        Admitted lib now fetchers p headers p.audiences raw t))
  leaf : ∀ p audiences,
    (evaluateProvider (jwtLib lib now fetchers) p headers audiences).allowed = true →
    ∃ raw t, Admitted lib now fetchers p headers audiences raw t ∧
      evaluateProvider (jwtLib lib now fetchers) p headers audiences = verifiedResult p t
  outcome : ∀ r r', Evaluates (jwtLib lib now fetchers) rc headers req r →
    Evaluates (jwtLib lib now fetchers) rc headers req r' → r = r'

theorem missingOrValid_iff (headers : Header) (ps : List (CompiledProvider (JWKSet R E))) :
    MissingOrValid (jwtLib lib now fetchers) headers ps ↔
      (∀ p ∈ ps, extractTokens p headers = []) ∨ ∃ p ∈ ps, ∃ raw t,
        Admitted lib now fetchers p headers p.audiences raw t := by
  unfold MissingOrValid
  simp only [← evaluateProvider_allowed_iff, evaluateProvider_admits_iff]

theorem allowed_iff_reading {rc : CompiledConfig (JWKSet R E)} {req : Requirement (JWKSet R E)}
    {r : EvalResult (JWKSet R E)} (h : Evaluates (jwtLib lib now fetchers) rc headers req r) :
    r.allowed = true ↔ req.reading
      (fun p audiences => ∃ raw t, Admitted lib now fetchers p headers audiences raw t)
      ((∀ p ∈ rc.providers, extractTokens p headers = []) ∨ ∃ p ∈ rc.providers, ∃ raw t,
        Admitted lib now fetchers p headers p.audiences raw t) := by
  rw [evaluates_allowed_iff (checkToken_ne_missed lib now fetchers)
    (fun p audiences => evaluateProvider_admits_iff lib now fetchers p headers audiences) h,
    missingOrValid_iff]

theorem admitted_of_allowed {p : CompiledProvider (JWKSet R E)} {audiences : List String}
    (h : (evaluateProvider (jwtLib lib now fetchers) p headers audiences).allowed = true) :
    ∃ raw t, Admitted lib now fetchers p headers audiences raw t ∧
      evaluateProvider (jwtLib lib now fetchers) p headers audiences = verifiedResult p t := by
  obtain ⟨t, ht⟩ := (evaluateProvider_allowed_iff _ headers p audiences).mp h
  obtain ⟨raw, hraw⟩ := admitted_of_verified lib now fetchers ht
  exact ⟨raw, t, hraw, evaluateProvider_of_verified _ headers ht⟩

theorem means_of_oneReport {rc : CompiledConfig (JWKSet R E)} {req : Requirement (JWKSet R E)}
    (hone : req.usesAllowMissing → OneReport (jwtLib lib now fetchers) headers rc.providers) :
    MeansWhatItSays lib now fetchers rc headers req where
  allows _ hr := allowed_iff_reading lib now fetchers hr
  leaf _ _ hallowed := admitted_of_allowed lib now fetchers hallowed
  outcome r r' hr hr' := by
    have hlib := checkToken_ne_missed lib now fetchers
    rw [evaluateRequirement_of_evaluates hlib hone hr,
      evaluateRequirement_of_evaluates hlib hone hr']

/-- A tree without `allow_missing` means what it says.  For the providers of a configuration and a
request, every tree does exactly when the providers have one thing to report. -/
theorem requirements_mean_iff_oneReport (rc : CompiledConfig (JWKSet R E)) (headers : Header) :
    (∀ req, ¬req.usesAllowMissing → MeansWhatItSays lib now fetchers rc headers req) ∧
    ((∀ req, MeansWhatItSays lib now fetchers rc headers req) ↔
      OneReport (jwtLib lib now fetchers) headers rc.providers) := by
  constructor
  · intro req hno
    exact means_of_oneReport lib now fetchers (fun huses => absurd huses hno)
  · constructor
    · intro h
      apply oneReport_of_perm _ headers (checkToken_ne_missed lib now fetchers)
      intro order order' horder horder'
      exact (h .allowMissing).outcome _ _ (.allowMissing horder) (.allowMissing horder')
    · intro hone req
      exact means_of_oneReport lib now fetchers (fun _ => hone)

end Trees

section Orders

theorem oneReport_singleton (lib : JwtLib KS Key) (headers : Header) (p : CompiledProvider KS) :
    OneReport lib headers [p] where
  verified q hq q' hq' t u ht hu := by
    obtain rfl := List.mem_singleton.mp hq
    obtain rfl := List.mem_singleton.mp hq'
    rw [ht] at hu
    exact ⟨rfl, Option.some.inj hu⟩
  failed _ q hq q' hq' _ _ := by
    obtain rfl := List.mem_singleton.mp hq
    obtain rfl := List.mem_singleton.mp hq'
    rfl

def headerProvider (name : String) : CompiledProvider (JWKSet Unit Unit) where
  jwks := .localJwks [⟨"", "", .rsa ()⟩]
  fromHeaders := [⟨name, ""⟩]

def twoProviders : CompiledConfig (JWKSet Unit Unit) where
  providers := [headerProvider "X-A", headerProvider "X-B"]

/-- Neither token gets as far as its JSON or its signature. -/
def malformedTokens : Header := Header.set (Header.set ∅ "X-A" "abc") "X-B" "a.b.c"

def noTokenLib : TokenLib Unit Unit where
  unmarshal _ := none
  int64OfNumber _ := 0
  sum _ _ := []
  verifyPKCS1v15 _ _ _ _ := false
  ecdsaVerify _ _ _ _ := false

def noFetchers (_uri : String) : Fetcher Unit Unit := { ready := false, keys := none }

/-- Two malformed tokens: the failure that is reported to the client is that of the provider that
came last. -/
theorem outcome_of_order :
    (∃ r r',
      Evaluates (jwtLib noTokenLib 0 noFetchers) twoProviders malformedTokens .allowMissing r ∧
      Evaluates (jwtLib noTokenLib 0 noFetchers) twoProviders malformedTokens .allowMissing r' ∧
      (emitDenyResponse twoProviders "/" r.err).body ≠
        (emitDenyResponse twoProviders "/" r'.err).body) ∧
    ¬MeansWhatItSays noTokenLib 0 noFetchers twoProviders malformedTokens .allowMissing := by
  have hswap : [headerProvider "X-B", headerProvider "X-A"].Perm twoProviders.providers :=
    List.Perm.swap _ _ []
  have hlisted : Evaluates (jwtLib noTokenLib 0 noFetchers) twoProviders malformedTokens
      .allowMissing
      { allowed := false, err := some (.other "Jwt header is an invalid Base64url encoded.") } :=
    .allowMissing (List.Perm.refl twoProviders.providers)
  have hswapped : Evaluates (jwtLib noTokenLib 0 noFetchers) twoProviders malformedTokens
      .allowMissing
      { allowed := false
        err := some (.other "Jwt is not in the form of Header.Payload.Signature") } :=
    .allowMissing hswap
  refine ⟨⟨_, _, hlisted, hswapped, by decide +kernel⟩, ?_⟩
  intro h
  have herr := congrArg EvalResult.err (h.outcome _ _ hlisted hswapped)
  revert herr
  decide +kernel

end Orders

end EnvoyGo.JwtAuthn

import EnvoyGo.JwtAuthn

/-!
Rule selection with and without a query.  The connection manager fills `:path` with path and
query; a prefix rule does not see the difference, an exact rule does.
-/

namespace EnvoyGo.JwtAuthn

variable {KS : Type}

def isPrefixRule (rule : CompiledRule KS) : Bool :=
  match rule.matchFn with
  | some (.exact _) => false
  | _ => true

/-- The rule a request for `p` selects once the exact rules are left out. -/
def firstPrefixRule (rules : List (CompiledRule KS)) (p : String) : Option (CompiledRule KS) :=
  rules.find? (fun rule => isPrefixRule rule && ruleMatches p rule)

theorem get_setPath (h : Header) (p : String) :
    Header.get (Header.set h ":path" p) ":path" = p := by
  rw [Header.get, Header.values_set_self]
  rfl

theorem toList_withQuery (p q : String) : (p ++ "?" ++ q).toList = p.toList ++ '?' :: q.toList := by
  simp

theorem ruleMatches_withQuery (rule : CompiledRule KS) (p q : String)
    (hrule : ∀ m, rule.matchFn = some m → '?' ∉ m.want.toList) :
    ruleMatches (p ++ "?" ++ q) rule = (isPrefixRule rule && ruleMatches p rule) := by
  unfold ruleMatches isPrefixRule
  cases hm : rule.matchFn with
  | none => rfl
  | some m =>
    have hq := hrule m hm
    cases m with
    | exact w =>
      simp only [PathMatcher.matches, Bool.false_and, beq_eq_false_iff_ne]
      intro heq
      apply hq
      have hl : (p ++ "?" ++ q).toList = w.toList := congrArg String.toList heq
      rw [PathMatcher.want, ← hl, toList_withQuery]
      exact List.mem_append_right p.toList List.mem_cons_self
    | pathPrefix w =>
      simp only [PathMatcher.matches, Bool.true_and, hasPrefix, toList_withQuery]
      rw [Bool.eq_iff_iff, List.isPrefixOf_iff_prefix, List.isPrefixOf_iff_prefix]
      exact Text.isPrefix_append_cons_iff '?' w.toList p.toList q.toList hq

theorem find_withQuery (rules : List (CompiledRule KS)) (p q : String)
    (hrules : ∀ rule ∈ rules, ∀ m, rule.matchFn = some m → '?' ∉ m.want.toList) :
    rules.find? (ruleMatches (p ++ "?" ++ q)) = firstPrefixRule rules p := by
  unfold firstPrefixRule
  induction rules with
  | nil => rfl
  | cons rule rest ih =>
    have hr := ruleMatches_withQuery rule p q (hrules rule List.mem_cons_self)
    have hrest := ih (fun r hr => hrules r (List.mem_cons_of_mem rule hr))
    simp only [List.find?_cons, hr, hrest]

/-- An accepted rule, as configured: a path or a prefix with no `?` in it. -/
def AcceptedRule (rule : CompiledRule KS) : Prop :=
  ∃ m req, buildCompiledRule m req = .ok rule ∧
    ∀ matcher, rule.matchFn = some matcher → '?' ∉ matcher.want.toList

theorem resolveRequirement_noPerRoute (rc : CompiledConfig KS)
    (perRoute : Option CompiledPerRoute) (h : Header) (p : String)
    (hname : (perRoute.map CompiledPerRoute.requirementName).getD "" = "") :
    resolveRequirement rc perRoute (Header.set h ":path" p) =
      match rc.rules.find? (ruleMatches p) with
      | some rule => .requirement rule.requirement
      | none => .passThrough := by
  have hnone : ¬((perRoute.map CompiledPerRoute.requirementName).getD "" ≠ "") :=
    fun hne => hne hname
  have hlookup : resolveRequirement rc perRoute (Header.set h ":path" p) =
      match rc.rules.find? (ruleMatches (Header.get (Header.set h ":path" p) ":path")) with
      | some rule => .requirement rule.requirement
      | none => .passThrough := if_neg hnone
  rw [hlookup, get_setPath]

theorem firstPrefixRule_of_isPrefixRule (rules : List (CompiledRule KS)) (p : String)
    (rule : CompiledRule KS) (hfind : rules.find? (ruleMatches p) = some rule)
    (hpre : isPrefixRule rule = true) : firstPrefixRule rules p = some rule := by
  rw [List.find?_eq_some_iff_append] at hfind
  obtain ⟨hmatch, before, after, rfl, hbefore⟩ := hfind
  rw [firstPrefixRule, List.find?_eq_some_iff_append]
  refine ⟨by simp only [hpre, hmatch, Bool.and_self], before, after, rfl, ?_⟩
  intro r hr
  have hno := hbefore r hr
  rw [Bool.not_eq_true'] at hno
  simp only [hno, Bool.and_false, Bool.not_false]

theorem firstPrefixRule_of_none (rules : List (CompiledRule KS)) (p : String)
    (hfind : rules.find? (ruleMatches p) = none) : firstPrefixRule rules p = none := by
  rw [List.find?_eq_none] at hfind
  rw [firstPrefixRule, List.find?_eq_none]
  intro rule hrule hboth
  exact hfind rule hrule (Bool.and_eq_true _ _ ▸ hboth).2

/-- A query changes the resolved requirement exactly when the rule for the bare path is an
exact one and the first prefix rule behind it has another requirement, or is missing. -/
theorem query_ignored_iff (rc : CompiledConfig KS) (perRoute : Option CompiledPerRoute)
    (h : Header) (p q : String) (hrules : ∀ rule ∈ rc.rules, AcceptedRule rule) :
    resolveRequirement rc perRoute (Header.set h ":path" (p ++ "?" ++ q)) =
        resolveRequirement rc perRoute (Header.set h ":path" p) ↔
      (perRoute.map CompiledPerRoute.requirementName).getD "" ≠ "" ∨
      ∀ rule, rc.rules.find? (ruleMatches p) = some rule → isPrefixRule rule = false →
        (firstPrefixRule rc.rules p).map CompiledRule.requirement = some rule.requirement := by
  by_cases hname : (perRoute.map CompiledPerRoute.requirementName).getD "" = ""
  · have hwant : ∀ rule ∈ rc.rules, ∀ m, rule.matchFn = some m → '?' ∉ m.want.toList := by
      intro rule hrule
      obtain ⟨_, _, _, hno⟩ := hrules rule hrule
      exact hno
    rw [resolveRequirement_noPerRoute rc perRoute h _ hname,
      resolveRequirement_noPerRoute rc perRoute h _ hname, find_withQuery rc.rules p q hwant]
    simp only [hname, ne_eq, not_true_eq_false, false_or]
    -- the rule for the bare path decides: none, a prefix rule, or an exact one
    cases hfind : rc.rules.find? (ruleMatches p) with
    | none =>
      rw [firstPrefixRule_of_none rc.rules p hfind]
      simp only [reduceCtorEq, false_implies, implies_true]
    | some rule =>
      cases hpre : isPrefixRule rule with
      | true =>
        rw [firstPrefixRule_of_isPrefixRule rc.rules p rule hfind hpre]
        simp only [Option.some.injEq, true_iff]
        intro r hr hexact
        rw [← hr, hpre] at hexact
        exact absurd hexact Bool.noConfusion
      | false =>
        cases hfirst : firstPrefixRule rc.rules p with
        | none => simp [hpre]
        | some other => simp [hpre]
  · simp only [resolveRequirement, hname, ne_eq, not_false_eq_true, if_true, true_or]

def adminRule : CompiledRule Unit where
  matchFn := some (.exact "/admin")
  requirement := .providerName { jwks := .localJwks () }

theorem adminRule_accepted : AcceptedRule adminRule := by
  refine ⟨some { pathSpecifier := .path "/admin" },
    .providerName { jwks := .localJwks () }, rfl, ?_⟩
  intro m hm
  obtain rfl : PathMatcher.exact "/admin" = m := Option.some.inj hm
  decide

theorem admin_query_passes_through :
    AcceptedRule adminRule ∧ '?' ∉ "/admin".toList ∧
    resolveRequirement { rules := [adminRule] } none (Header.set ∅ ":path" "/admin?x") =
      .passThrough ∧
    resolveRequirement { rules := [adminRule] } none (Header.set ∅ ":path" "/admin") =
      .requirement adminRule.requirement := by
  refine ⟨adminRule_accepted, by decide, ?_, ?_⟩
  · rw [resolveRequirement_noPerRoute _ none ∅ _ rfl]
    rfl
  · rw [resolveRequirement_noPerRoute _ none ∅ _ rfl]
    rfl

theorem admin_prefix_query_ignored :
    resolveRequirement
        { rules := [{ adminRule with matchFn := some (.pathPrefix "/admin") }] } none
        (Header.set ∅ ":path" ("/admin" ++ "?" ++ "x")) =
      resolveRequirement
        { rules := [{ adminRule with matchFn := some (.pathPrefix "/admin") }] } none
        (Header.set ∅ ":path" "/admin") := by
  refine (query_ignored_iff _ none ∅ "/admin" "x" ?_).mpr (Or.inr ?_)
  · intro rule hrule
    obtain rfl := List.mem_singleton.mp hrule
    refine ⟨some { pathSpecifier := .pathPrefix "/admin" },
      .providerName { jwks := .localJwks () }, rfl, ?_⟩
    intro m hm
    obtain rfl : PathMatcher.pathPrefix "/admin" = m := Option.some.inj hm
    decide
  · intro rule hfind hexact
    have hmem := List.mem_of_find?_eq_some hfind
    obtain rfl := List.mem_singleton.mp hmem
    exact absurd hexact Bool.noConfusion

end EnvoyGo.JwtAuthn

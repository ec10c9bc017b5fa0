import EnvoyGo.RBAC

/-!
What the rules engine decides, in terms of the configuration: which policies match, and
from that and the action whether the request is denied.
-/

namespace EnvoyGo.RBAC

variable {Re : Type}

/-- A configured policy matches when some permission and some principal hold; a leaf holds
when it compiles and its evaluator says so. -/
def Policy.Matches (lib : RegexpLib Re) (profile : Profile) (ctx : EvalContext) (p : Policy) :
    Prop :=
  (∃ perm ∈ p.permissions, RuleTree.Holds
    (RuleTree.LeafHolds (buildPermissionArm lib profile) (evaluatePermission lib ctx)) perm) ∧
  (∃ prin ∈ p.principals, RuleTree.Holds
    (RuleTree.LeafHolds (buildPrincipalArm lib profile) (evaluatePrincipal lib ctx)) prin)

theorem buildPolicy_matches (lib : RegexpLib Re) (profile : Profile) (ctx : EvalContext)
    (name : String) (p : Policy) (cp : CompiledPolicy Re)
    (h : buildPolicy lib profile name p = .ok cp) :
    cp.name = name ∧ (policyMatches lib ctx cp = true ↔ p.Matches lib profile ctx) := by
  rw [buildPolicy] at h
  split at h
  · cases h
  split at h
  · cases h
  cases hperms : buildPermissionEvaluators lib profile p.permissions with
  | error err =>
    rw [hperms] at h
    cases h
  | ok perms =>
    rw [hperms] at h
    cases hprins : buildPrincipalEvaluators lib profile p.principals with
    | error err =>
      rw [hprins] at h
      cases h
    | ok prins =>
      rw [hprins] at h
      obtain rfl := Except.ok.inj h
      have hperm := RuleTree.any_buildList_iff "permission" (buildPermissionArm lib profile)
        (evaluatePermission lib ctx) 0 p.permissions perms hperms
      have hprin := RuleTree.any_buildList_iff "principal" (buildPrincipalArm lib profile)
        (evaluatePrincipal lib ctx) 0 p.principals prins hprins
      refine ⟨rfl, ?_⟩
      rw [policyMatches, Bool.and_eq_true, hperm, hprin, Policy.Matches]

theorem buildPolicies_matches (lib : RegexpLib Re) (profile : Profile) (ctx : EvalContext)
    (policies : AList (fun _ : String => Policy)) (names : List String)
    (hnames : ∀ name ∈ names, name ∈ policies) (cps : List (CompiledPolicy Re))
    (h : buildPolicies lib profile policies names = .ok cps) (name : String) :
    (∃ cp ∈ cps, cp.name = name ∧ policyMatches lib ctx cp = true) ↔
      name ∈ names ∧ ∃ p, policies.lookup name = some p ∧ p.Matches lib profile ctx := by
  induction names generalizing cps with
  | nil =>
    rw [buildPolicies] at h
    obtain rfl := Except.ok.inj h
    simp
  | cons first rest ih =>
    obtain ⟨p, hp⟩ := Option.isSome_iff_exists.mp
      (AList.lookup_isSome.mpr (hnames first List.mem_cons_self))
    simp only [buildPolicies, hp, Option.getD_some] at h
    cases hfirst : buildPolicy lib profile first p with
    | error err =>
      rw [hfirst] at h
      cases h
    | ok cp =>
      rw [hfirst] at h
      obtain ⟨tail, htail, rfl⟩ := RuleTree.map_eq_ok h
      obtain ⟨hname, hmatch⟩ := buildPolicy_matches lib profile ctx first p cp hfirst
      have hrest := ih (fun n hn => hnames n (List.mem_cons_of_mem first hn)) tail htail
      simp only [List.mem_cons, exists_eq_or_imp, hrest, hname, hmatch]
      constructor
      · rintro (⟨rfl, hm⟩ | ⟨hn, hm⟩)
        · exact ⟨Or.inl rfl, p, hp, hm⟩
        · exact ⟨Or.inr hn, hm⟩
      · rintro ⟨rfl | hn, p', hp', hm⟩
        · obtain rfl : p = p' := Option.some.inj (hp.symm.trans hp')
          exact Or.inl ⟨rfl, hm⟩
        · exact Or.inr ⟨hn, p', hp', hm⟩

theorem buildRulesEngine_ok (lib : RegexpLib Re) (r : RBACConfig) (profile : Profile)
    (engine : CompiledRulesEngine Re) (h : buildRulesEngine lib r profile = .ok engine) :
    engine.action = r.action ∧ (∀ value, r.action ≠ .other value) ∧
      buildPolicies lib profile r.policies (r.policies.keys.insertionSort (· ≤ ·)) =
        .ok engine.policies := by
  unfold buildRulesEngine at h
  split at h
  · cases h
  · rename_i hother
    obtain ⟨policies, hpolicies, rfl⟩ := RuleTree.map_eq_ok h
    exact ⟨rfl, hother, hpolicies⟩

def SomePolicyMatches (lib : RegexpLib Re) (profile : Profile) (r : RBACConfig)
    (ctx : EvalContext) : Prop :=
  ∃ name p, r.policies.lookup name = some p ∧ p.Matches lib profile ctx

theorem matched_name_iff (lib : RegexpLib Re) (r : RBACConfig) (profile : Profile)
    (engine : CompiledRulesEngine Re) (h : buildRulesEngine lib r profile = .ok engine)
    (hnamed : "" ∉ r.policies) (ctx : EvalContext) :
    engine.matchedPolicy lib ctx ≠ "" ↔ SomePolicyMatches lib profile r ctx := by
  obtain ⟨-, -, hpolicies⟩ := buildRulesEngine_ok lib r profile engine h
  have hmem : ∀ name, name ∈ r.policies.keys.insertionSort (· ≤ ·) ↔ name ∈ r.policies := by
    intro name
    rw [List.mem_insertionSort, AList.mem_keys]
  have hmatches := buildPolicies_matches lib profile ctx r.policies _
    (fun name hname => (hmem name).mp hname) engine.policies hpolicies
  rw [CompiledRulesEngine.matchedPolicy]
  constructor
  · intro hne
    cases hfind : engine.policies.find? (policyMatches lib ctx) with
    | none =>
      rw [hfind] at hne
      exact absurd rfl hne
    | some cp =>
      have hcp := List.mem_of_find?_eq_some hfind
      have htrue := List.find?_some hfind
      obtain ⟨-, p, hp, hm⟩ := (hmatches cp.name).mp ⟨cp, hcp, rfl, htrue⟩
      exact ⟨cp.name, p, hp, hm⟩
  · rintro ⟨name, p, hp, hm⟩
    have hin : name ∈ r.policies := AList.lookup_isSome.mp (by rw [hp]; rfl)
    obtain ⟨cp, hcp, -, htrue⟩ := (hmatches name).mpr ⟨(hmem name).mpr hin, p, hp, hm⟩
    cases hfind : engine.policies.find? (policyMatches lib ctx) with
    | none => exact absurd htrue (List.find?_eq_none.mp hfind cp hcp)
    | some first =>
      -- the first match has a name of the configuration, so not the empty one
      have hfirst := List.mem_of_find?_eq_some hfind
      have hfirstTrue := List.find?_some hfind
      obtain ⟨hname, -⟩ := (hmatches first.name).mp ⟨first, hfirst, rfl, hfirstTrue⟩
      intro hempty
      have hempty' : first.name = "" := hempty
      exact hnamed (hempty' ▸ (hmem first.name).mp hname)

theorem compileStringMatcher_uncompilable (lib : RegexpLib Re) (regex : String)
    (ignoreCase : Bool) (h : lib.compile regex = none) (s : String) :
    (compileStringMatcher lib (some ⟨.safeRegex (some regex), ignoreCase⟩)).matches lib s =
      false := by
  simp only [compileStringMatcher, CompiledStringMatcher.matches, h]

theorem compileHeaderMatcher_uncompilable (lib : RegexpLib Re) (regex : String)
    (hm : HeaderMatcher) (hspec : hm.specifier = .safeRegexMatch (some regex))
    (h : lib.compile regex = none) (value : Option String) :
    (compileHeaderMatcher lib hm).matchesValue lib value = false := by
  rw [compileHeaderMatcher, hspec]
  simp only [CompiledHeaderMatcher.matchesValue, hspec, h, Option.any_none, Option.any_false]

theorem compileCidr_unparsable (cidr : CidrRange) (h : (compileCidr cidr).ipNet = none)
    (ip : Option Net.IP) : (compileCidr cidr).matches ip = false := by
  simp only [CompiledCidr.matches, h]

/-- Patterns of plain letters, which match wherever they occur; `(` does not compile. -/
def literalRegexp : RegexpLib String where
  compile regex := if regex = "(" then none else some regex
  matchString re s := Text.contains s re

def anyPolicy (action : RBACAction) (name : String) : RBACConfig where
  action := action
  policies := AList.insert name
    { permissions := [.leaf (.any true)], principals := [.leaf (.any true)] } ∅

/-- Everybody but those whose path matches a pattern that does not compile. -/
def notBadRegex : RBACConfig where
  action := .allow
  policies := AList.insert "p"
    { permissions := [.neg (.leaf (.urlPath (some (.path
        (some { matchPattern := .safeRegex (some "(") })))))]
      principals := [.leaf (.any true)] } ∅

end EnvoyGo.RBAC

import EnvoyGo.RBAC

/-!
One configuration type, four readings: the string matchers of the header matcher, of RBAC, of
ext_authz and of the rate limit filter.  A character stands for a byte; the case mapping and the
regular expressions of the standard library are parameters.
-/

namespace EnvoyGo.StringMatch

open RBAC

/-- `strings.ToLower` and `strings.EqualFold`. -/
structure StringsLib where
  toLower : String → String
  equalFold : String → String → Bool

/-- `regexp`: what compiles, and the spans where a program matches a text.  Outside of multi-line
mode `^` and `$` hold at the two ends of the text only. -/
structure Regexps (Re : Type) where
  compile : String → Except String Re
  spans : Re → String → ℕ → ℕ → Bool
  anchored : ∀ p re re', compile p = .ok re → compile ("^(?:" ++ p ++ ")$") = .ok re' →
    ∀ v i j, spans re' v i j = (decide (i = 0) && decide (j = v.length) && spans re v i j)

variable {Re : Type}

def Regexps.matchString (lib : Regexps Re) (re : Re) (v : String) : Bool :=
  (List.range (v.length + 1)).any (fun i =>
    (List.range (v.length + 1)).any (fun j => lib.spans re v i j))

def Regexps.matchesWhole (lib : Regexps Re) (re : Re) (v : String) : Bool :=
  lib.spans re v 0 v.length

section Matchers

variable (strings : StringsLib) (lib : Regexps Re)

inductive SmKind
  | exact
  | pathPrefix
  | suffix
  | contains
  | safeRegex
  deriving DecidableEq

structure HeaderStringMatcher (Re : Type) where
  kind : SmKind
  s : String := ""
  re : Option Re := none
  ignoreCase : Bool

def fold (ignoreCase : Bool) (s : String) : String := if ignoreCase then strings.toLower s else s

def newStringMatcher (sm : Option StringMatcher) : Except String (HeaderStringMatcher Re) :=
  match sm with
  | none => .error "headermatch: nil string_match"
  | some sm =>
    match sm.matchPattern with
    | .exact s =>
      .ok { kind := .exact, s := fold strings sm.ignoreCase s, ignoreCase := sm.ignoreCase }
    | .pathPrefix s =>
      .ok { kind := .pathPrefix, s := fold strings sm.ignoreCase s
            ignoreCase := sm.ignoreCase }
    | .suffix s =>
      .ok { kind := .suffix, s := fold strings sm.ignoreCase s, ignoreCase := sm.ignoreCase }
    | .contains s =>
      .ok { kind := .contains, s := fold strings sm.ignoreCase s, ignoreCase := sm.ignoreCase }
    | .safeRegex regex =>
      match lib.compile ("^(?:" ++ regex.getD "" ++ ")$") with
      | .error err => .error ("headermatch: safe_regex: " ++ err)
      | .ok re => .ok { kind := .safeRegex, re := some re, ignoreCase := sm.ignoreCase }
    | .custom => .error "headermatch: string_match.custom is not supported"
    | .unset => .error "headermatch: string_match has no match_pattern set"

def HeaderStringMatcher.matchString (m : HeaderStringMatcher Re) (v : String) : Bool :=
  match m.kind with
  | .safeRegex => m.re.any (fun re => lib.matchString re v)
  | .exact => fold strings m.ignoreCase v == m.s
  | .pathPrefix => hasPrefix (fold strings m.ignoreCase v) m.s
  | .suffix => hasSuffix (fold strings m.ignoreCase v) m.s
  | .contains => Text.contains (fold strings m.ignoreCase v) m.s

def exactMatches (want : String) (ignoreCase : Bool) (s : String) : Bool :=
  if ignoreCase then strings.equalFold want s else want == s

def prefixMatches (want : String) (ignoreCase : Bool) (s : String) : Bool :=
  if ignoreCase then
    decide (s.length ≥ want.length) &&
      strings.equalFold (String.ofList (s.toList.take want.length)) want
  else hasPrefix s want

def suffixMatches (want : String) (ignoreCase : Bool) (s : String) : Bool :=
  if ignoreCase then
    decide (s.length ≥ want.length) &&
      strings.equalFold (String.ofList (s.toList.drop (s.length - want.length))) want
  else hasSuffix s want

def containsMatches (needle : String) (ignoreCase : Bool) (s : String) : Bool :=
  if ignoreCase then Text.contains (strings.toLower s) (strings.toLower needle)
  else Text.contains s needle

/-- `compileStringMatcher` with `matches`: a pattern that does not compile matches nothing. -/
def rbacMatches (sm : StringMatcher) (candidate : String) : Bool :=
  match sm.matchPattern with
  | .exact s => exactMatches strings s sm.ignoreCase candidate
  | .pathPrefix s => prefixMatches strings s sm.ignoreCase candidate
  | .suffix s => suffixMatches strings s sm.ignoreCase candidate
  | .contains s => containsMatches strings s sm.ignoreCase candidate
  | .safeRegex (some regex) =>
    match lib.compile regex with
    | .ok re => lib.matchString re candidate
    | .error _ => false
  | .safeRegex none => false
  | .custom => false
  | .unset => false

inductive ExtAuthzMatcher (Re : Type)
  | smExact (want : String) (ignoreCase : Bool)
  | smPrefix (want : String) (ignoreCase : Bool)
  | smSuffix (want : String) (ignoreCase : Bool)
  | smContains (needle : String) (ignoreCase : Bool)
  | smRegex (re : Re)

def compileOneStringMatcher (sm : Option StringMatcher) : Except String (ExtAuthzMatcher Re) :=
  match sm with
  | none => .error "nil StringMatcher"
  | some sm =>
    match sm.matchPattern with
    | .exact s => .ok (.smExact s sm.ignoreCase)
    | .pathPrefix s => .ok (.smPrefix s sm.ignoreCase)
    | .suffix s => .ok (.smSuffix s sm.ignoreCase)
    | .contains s => .ok (.smContains s sm.ignoreCase)
    | .safeRegex none => .error "safe_regex: nil RegexMatcher"
    | .safeRegex (some regex) =>
      match lib.compile regex with
      | .error err => .error ("safe_regex compile: " ++ err)
      | .ok re => .ok (.smRegex re)
    | .custom => .error "custom string matcher extension unsupported in this build"
    | .unset => .error "StringMatcher match_pattern oneof unset"

def ExtAuthzMatcher.matchString (m : ExtAuthzMatcher Re) (s : String) : Bool :=
  match m with
  | .smExact want ignoreCase => exactMatches strings want ignoreCase s
  | .smPrefix want ignoreCase => prefixMatches strings want ignoreCase s
  | .smSuffix want ignoreCase => suffixMatches strings want ignoreCase s
  | .smContains needle ignoreCase => containsMatches strings needle ignoreCase s
  | .smRegex re => lib.matchString re s

def evaluateStringMatcher (sm : Option StringMatcher) (value : String) : Bool :=
  match sm with
  | none => false
  | some sm =>
    let cmpValue := fold strings sm.ignoreCase value
    match sm.matchPattern with
    | .exact s => cmpValue == fold strings sm.ignoreCase s
    | .pathPrefix s => hasPrefix cmpValue (fold strings sm.ignoreCase s)
    | .suffix s => hasSuffix cmpValue (fold strings sm.ignoreCase s)
    | .contains s => Text.contains cmpValue (fold strings sm.ignoreCase s)
    | .safeRegex (some regex) =>
      match lib.compile regex with
      | .ok re => lib.matchString re value
      | .error _ => false
    | .safeRegex none => false
    | .custom => false
    | .unset => false

/-- The four verdicts on an input are one, and a pattern's is whether it matches the whole of it. -/
structure OneMeaning (sm : StringMatcher) (header : HeaderStringMatcher Re)
    (extAuthz : ExtAuthzMatcher Re) (v : String) : Prop where
  rbac : rbacMatches strings lib sm v = header.matchString strings lib v
  extAuthz : extAuthz.matchString strings lib v = header.matchString strings lib v
  rateLimit : evaluateStringMatcher strings lib (some sm) v = header.matchString strings lib v
  whole : ∀ regex re, sm.matchPattern = .safeRegex (some regex) → lib.compile regex = .ok re →
    header.matchString strings lib v = lib.matchesWhole re v

/-- A pattern matches the whole input or no part of it; the two ways to ignore case, folding the
part of the input that is as long as the text and lowering both, decide alike. -/
def Coincides (sm : StringMatcher) (v : String) : Prop :=
  match sm.matchPattern with
  | .exact s => sm.ignoreCase = true →
      strings.equalFold s v = (strings.toLower v == strings.toLower s)
  | .pathPrefix s => sm.ignoreCase = true →
      (decide (v.length ≥ s.length) &&
        strings.equalFold (String.ofList (v.toList.take s.length)) s) =
      hasPrefix (strings.toLower v) (strings.toLower s)
  | .suffix s => sm.ignoreCase = true →
      (decide (v.length ≥ s.length) &&
        strings.equalFold (String.ofList (v.toList.drop (v.length - s.length))) s) =
      hasSuffix (strings.toLower v) (strings.toLower s)
  | .safeRegex (some regex) => ∀ re, lib.compile regex = .ok re →
      lib.matchString re v = true → lib.matchesWhole re v = true
  | _ => True

end Matchers

section Verdicts

variable {strings : StringsLib} {lib : Regexps Re}

theorem matchString_iff (lib : Regexps Re) (re : Re) (v : String) :
    lib.matchString re v = true ↔ ∃ i ≤ v.length, ∃ j ≤ v.length, lib.spans re v i j = true := by
  rw [Regexps.matchString, List.any_eq_true]
  constructor
  · rintro ⟨i, hi, hany⟩
    obtain ⟨j, hj, hspan⟩ := List.any_eq_true.mp hany
    exact ⟨i, Nat.lt_succ_iff.mp (List.mem_range.mp hi), j,
      Nat.lt_succ_iff.mp (List.mem_range.mp hj), hspan⟩
  · rintro ⟨i, hi, j, hj, hspan⟩
    exact ⟨i, List.mem_range.mpr (Nat.lt_succ_of_le hi), List.any_eq_true.mpr
      ⟨j, List.mem_range.mpr (Nat.lt_succ_of_le hj), hspan⟩⟩

theorem matchString_of_whole {re : Re} {v : String} (h : lib.matchesWhole re v = true) :
    lib.matchString re v = true :=
  (matchString_iff lib re v).mpr ⟨0, Nat.zero_le _, v.length, le_rfl, h⟩

theorem matchString_anchored {p : String} {re re' : Re} (hre : lib.compile p = .ok re)
    (hre' : lib.compile ("^(?:" ++ p ++ ")$") = .ok re') (v : String) :
    lib.matchString re' v = lib.matchesWhole re v := by
  rw [Bool.eq_iff_iff, matchString_iff]
  constructor
  · rintro ⟨i, -, j, -, hspan⟩
    rw [lib.anchored p re re' hre hre'] at hspan
    simp only [Bool.and_eq_true, decide_eq_true_eq] at hspan
    obtain ⟨⟨rfl, rfl⟩, hspan⟩ := hspan
    exact hspan
  · intro hwhole
    refine ⟨0, Nat.zero_le _, v.length, le_rfl, ?_⟩
    rw [lib.anchored p re re' hre hre', decide_eq_true rfl, decide_eq_true rfl]
    exact hwhole

theorem search_eq_whole_iff (re : Re) (v : String) :
    lib.matchString re v = lib.matchesWhole re v ↔
      (lib.matchString re v = true → lib.matchesWhole re v = true) := by
  constructor
  · intro heq hmatch
    rwa [← heq]
  · intro himp
    rw [Bool.eq_iff_iff]
    exact ⟨himp, matchString_of_whole⟩

theorem oneMeaning_safeRegex {regex v : String} {ignoreCase : Bool}
    {header : HeaderStringMatcher Re} {extAuthz : ExtAuthzMatcher Re}
    (hheader : newStringMatcher strings lib (some ⟨.safeRegex (some regex), ignoreCase⟩) =
      .ok header)
    (hext : compileOneStringMatcher lib (some ⟨.safeRegex (some regex), ignoreCase⟩) =
      .ok extAuthz) :
    OneMeaning strings lib ⟨.safeRegex (some regex), ignoreCase⟩ header extAuthz v ↔
      Coincides strings lib ⟨.safeRegex (some regex), ignoreCase⟩ v := by
  simp only [newStringMatcher, Option.getD_some] at hheader
  simp only [compileOneStringMatcher] at hext
  cases hre : lib.compile regex with
  | error err =>
    rw [hre] at hext
    cases hext
  | ok re =>
    rw [hre] at hext
    cases hext
    cases hre' : lib.compile ("^(?:" ++ regex ++ ")$") with
    | error err =>
      rw [hre'] at hheader
      cases hheader
    | ok re' =>
      rw [hre'] at hheader
      cases hheader
      have hwhole : HeaderStringMatcher.matchString strings lib
          { kind := .safeRegex, re := some re', ignoreCase := ignoreCase } v =
          lib.matchesWhole re v := matchString_anchored hre hre' v
      have hrbac : rbacMatches strings lib ⟨.safeRegex (some regex), ignoreCase⟩ v =
          lib.matchString re v := by
        simp only [rbacMatches, hre]
      have hrate : evaluateStringMatcher strings lib
          (some ⟨.safeRegex (some regex), ignoreCase⟩) v = lib.matchString re v := by
        simp only [evaluateStringMatcher, hre]
      constructor
      · rintro ⟨hagree, -, -, -⟩ re₁ hre₁ hmatch
        rw [hre] at hre₁
        cases hre₁
        rw [hrbac, hwhole] at hagree
        rwa [← hagree]
      · intro hcoincides
        have hagree := (search_eq_whole_iff re v).mpr (hcoincides re hre)
        refine ⟨?_, ?_, ?_, ?_⟩
        · rw [hrbac, hwhole, hagree]
        · rw [hwhole]
          exact hagree
        · rw [hrate, hwhole, hagree]
        · intro regex₁ re₁ hpattern hre₁
          cases hpattern
          rw [hre] at hre₁
          cases hre₁
          exact hwhole

theorem oneMeaning_iff_of_eq {sm : StringMatcher} {header : HeaderStringMatcher Re}
    {extAuthz : ExtAuthzMatcher Re} {v : String} {folded lowered : Bool}
    (hpattern : ∀ regex, sm.matchPattern ≠ .safeRegex (some regex))
    (hrbac : rbacMatches strings lib sm v = folded)
    (hext : extAuthz.matchString strings lib v = folded)
    (hheader : header.matchString strings lib v = lowered)
    (hrate : evaluateStringMatcher strings lib (some sm) v = lowered) :
    OneMeaning strings lib sm header extAuthz v ↔ folded = lowered := by
  constructor
  · intro h
    rw [← hrbac, ← hheader]
    exact h.rbac
  · intro heq
    refine ⟨?_, ?_, ?_, fun regex _ hr => absurd hr (hpattern regex)⟩
    · rw [hrbac, hheader, heq]
    · rw [hext, hheader, heq]
    · rw [hrate, hheader]

/-- On what all four accept. -/
theorem oneMeaning_iff_coincides {sm : StringMatcher} {header : HeaderStringMatcher Re}
    {extAuthz : ExtAuthzMatcher Re} (hheader : newStringMatcher strings lib (some sm) = .ok header)
    (hext : compileOneStringMatcher lib (some sm) = .ok extAuthz) (v : String) :
    OneMeaning strings lib sm header extAuthz v ↔ Coincides strings lib sm v := by
  obtain ⟨pattern, ignoreCase⟩ := sm
  cases pattern with
  | exact s =>
    cases hheader
    cases hext
    refine (oneMeaning_iff_of_eq (fun _ h => by cases h) rfl rfl rfl rfl).trans ?_
    cases ignoreCase with
    | true => exact ⟨fun h _ => h, fun h => h rfl⟩
    | false => exact iff_of_true (BEq.comm) (fun h => by cases h)
  | pathPrefix s =>
    cases hheader
    cases hext
    refine (oneMeaning_iff_of_eq (fun _ h => by cases h) rfl rfl rfl rfl).trans ?_
    cases ignoreCase with
    | true => exact ⟨fun h _ => h, fun h => h rfl⟩
    | false => exact iff_of_true rfl (fun h => by cases h)
  | suffix s =>
    cases hheader
    cases hext
    refine (oneMeaning_iff_of_eq (fun _ h => by cases h) rfl rfl rfl rfl).trans ?_
    cases ignoreCase with
    | true => exact ⟨fun h _ => h, fun h => h rfl⟩
    | false => exact iff_of_true rfl (fun h => by cases h)
  | contains s =>
    cases hheader
    cases hext
    refine (oneMeaning_iff_of_eq (fun _ h => by cases h) rfl rfl rfl rfl).trans ?_
    cases ignoreCase with
    | true => exact iff_of_true rfl trivial
    | false => exact iff_of_true rfl trivial
  | safeRegex regex =>
    cases regex with
    | none => cases hext
    | some regex => exact oneMeaning_safeRegex hheader hext
  | custom => cases hext
  | unset => cases hext

end Verdicts

/-- The case mapping of ASCII text. -/
def asciiStrings : StringsLib := ⟨EnvoyGo.toLower, EnvoyGo.equalFold⟩

def unwrap : List Char → Option (List Char)
  | '^' :: '(' :: '?' :: ':' :: rest =>
    if rest.drop (rest.length - 2) = [')', '$'] then some (rest.take (rest.length - 2)) else none
  | _ => none

def compileLiteral (p : String) : Except String (List Char × Bool) :=
  if p.toList.all Char.isAlphanum then .ok (p.toList, false)
  else
    match unwrap p.toList with
    | some q =>
      if q.all Char.isAlphanum then .ok (q, true)
      else .error "only literal patterns are compiled here"
    | none => .error "only literal patterns are compiled here"

def literalSpans (re : List Char × Bool) (v : String) (i j : ℕ) : Bool :=
  (!re.2 || decide (i = 0) && decide (j = v.length)) &&
    decide ((v.toList.drop i).take (j - i) = re.1)

theorem unwrap_wrap (p : String) : unwrap ("^(?:" ++ p ++ ")$").toList = some p.toList := by
  have hchars : ("^(?:" ++ p ++ ")$").toList =
      '^' :: '(' :: '?' :: ':' :: (p.toList ++ [')', '$']) := by
    simp
  rw [hchars]
  simp [unwrap]

theorem not_alphanum_wrap (p : String) :
    ("^(?:" ++ p ++ ")$").toList.all Char.isAlphanum = false := by
  simp

theorem compileLiteral_wrap {p : String} {re re' : List Char × Bool}
    (hre : compileLiteral p = .ok re) (hre' : compileLiteral ("^(?:" ++ p ++ ")$") = .ok re') :
    re = (p.toList, false) ∧ re' = (p.toList, true) := by
  rw [compileLiteral, not_alphanum_wrap, unwrap_wrap, if_neg Bool.false_ne_true] at hre'
  by_cases hp : p.toList.all Char.isAlphanum = true
  · rw [compileLiteral, if_pos hp] at hre
    simp only [if_pos hp] at hre'
    cases hre
    cases hre'
    exact ⟨rfl, rfl⟩
  · simp only [if_neg hp] at hre'
    cases hre'

def literals : Regexps (List Char × Bool) where
  compile := compileLiteral
  spans := literalSpans
  anchored := by
    intro p re re' hre hre' v i j
    obtain ⟨rfl, rfl⟩ := compileLiteral_wrap hre hre'
    simp [literalSpans]

theorem oneMeaning_wholePattern :
    OneMeaning asciiStrings literals ⟨.safeRegex (some "abc"), false⟩
      { kind := .safeRegex, re := some ("abc".toList, true), ignoreCase := false }
      (.smRegex ("abc".toList, false)) "abc" :=
  (oneMeaning_iff_coincides rfl rfl "abc").mpr (by
    intro re hre _
    cases hre
    decide +kernel)

/-- Searched for, a letter matches in the middle; as a whole it does not. -/
theorem pattern_found_inside :
    newStringMatcher asciiStrings literals (some ⟨.safeRegex (some "b"), false⟩) =
      .ok { kind := .safeRegex, re := some ("b".toList, true), ignoreCase := false } ∧
    compileOneStringMatcher literals (some ⟨.safeRegex (some "b"), false⟩) =
      .ok (.smRegex ("b".toList, false)) ∧
    rbacMatches asciiStrings literals ⟨.safeRegex (some "b"), false⟩ "abc" = true ∧
    ¬OneMeaning asciiStrings literals ⟨.safeRegex (some "b"), false⟩
      { kind := .safeRegex, re := some ("b".toList, true), ignoreCase := false }
      (.smRegex ("b".toList, false)) "abc" := by
  refine ⟨rfl, rfl, by decide +kernel, ?_⟩
  intro h
  have hagree := h.rbac
  revert hagree
  decide +kernel

end EnvoyGo.StringMatch

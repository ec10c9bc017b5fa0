import EnvoyGo.StringMatchers
import EnvoyGo.ThreeValued

/-!
The match predicates of the tap filter: a configured tree compiled over header matchers, evaluated
while the request headers and the response headers arrive.
-/

namespace EnvoyGo.MatchPredicate

open RBAC (HeaderMatcher HeaderMatchSpecifier StringMatcher)
open StringMatch

variable {Re : Type}

inductive HmKind where
  | hmString
  | hmPresent
  | hmRange
  deriving DecidableEq

structure Matcher (Re : Type) where
  name : String
  kind : HmKind
  sm : Option (HeaderStringMatcher Re) := none
  presentWant : Bool := false
  rangeStart : Int := 0
  rangeEnd : Int := 0
  invert : Bool
  treatMissing : Bool

section HeaderMatch

variable (strings : StringsLib) (lib : Regexps Re)

/-- The part of `New` that depends on the specifier, over a matcher with the other fields set. -/
def specify (m : Matcher Re) : HeaderMatchSpecifier → Except String (Matcher Re)
  | .exactMatch s => .ok { m with kind := .hmString, sm := some ⟨.exact, s, none, false⟩ }
  | .prefixMatch s => .ok { m with kind := .hmString, sm := some ⟨.pathPrefix, s, none, false⟩ }
  | .suffixMatch s => .ok { m with kind := .hmString, sm := some ⟨.suffix, s, none, false⟩ }
  | .containsMatch s => .ok { m with kind := .hmString, sm := some ⟨.contains, s, none, false⟩ }
  | .safeRegexMatch none => .error "headermatch: nil safe_regex_match"
  | .safeRegexMatch (some regex) =>
    match lib.compile ("^(?:" ++ regex ++ ")$") with
    | .error err => .error ("headermatch: safe_regex_match: " ++ err)
    | .ok re => .ok { m with kind := .hmString, sm := some ⟨.safeRegex, "", some re, false⟩ }
  | .stringMatch sm =>
    (newStringMatcher strings lib sm).map fun sm => { m with kind := .hmString, sm := some sm }
  | .presentMatch want => .ok { m with kind := .hmPresent, presentWant := want }
  | .rangeMatch none => .error "headermatch: nil range_match"
  | .rangeMatch (some range) =>
    .ok { m with kind := .hmRange, rangeStart := range.1, rangeEnd := range.2 }
  | .unset => .error "headermatch: HeaderMatcher has no header_match_specifier set"

/-- `headermatch.New`. -/
def newMatcher (hm : Option HeaderMatcher) : Except String (Matcher Re) :=
  match hm with
  | none => .error "headermatch: nil HeaderMatcher"
  | some hm =>
    if hm.name = "" then .error "headermatch: HeaderMatcher.name is required"
    else specify strings lib
      { name := strings.toLower hm.name, kind := .hmString, invert := hm.invertMatch
        treatMissing := hm.treatMissingHeaderAsEmpty } hm.specifier

def Matcher.evalValue (m : Matcher Re) (v : String) : Bool :=
  match m.kind with
  | .hmString => m.sm.any fun sm => sm.matchString strings lib v
  | .hmRange => (Text.parseInt64 v).any fun n => m.rangeStart ≤ n && n < m.rangeEnd
  | .hmPresent => false

def Matcher.matchHeader (m : Matcher Re) (h : Header) : Bool :=
  let vals := h.lookup m.name
  let res :=
    if m.kind = .hmPresent then vals.isSome == m.presentWant
    else if vals.isNone && !m.treatMissing then false
    else m.evalValue strings lib ((vals.map (String.intercalate ",")).getD "")
  if m.invert then !res else res

end HeaderMatch

/-- The arms of a `MatchPredicate` apart from the combinators; `null` is a nil message.  An unset
`MatchSet` or `HttpHeadersMatch` is an empty one. -/
inductive Arm where
  | null
  | unset
  | anyMatch (val : Bool)
  | httpRequestHeadersMatch (headers : List (Option HeaderMatcher))
  | httpResponseHeadersMatch (headers : List (Option HeaderMatcher))
  | httpRequestTrailersMatch
  | httpResponseTrailersMatch
  | httpRequestGenericBodyMatch
  | httpResponseGenericBodyMatch

/-- `and_match`, `or_match` and `not_match` over the other arms. -/
abbrev Predicate := RuleTree Arm

inductive Leaf (Re : Type) where
  | anyNode
  | headersNode (matchers : List (Matcher Re)) (response : Bool)

/-- A compiled tree. -/
abbrev Program (Re : Type) := RuleTree (Leaf Re)

def maxDepth : ℕ := 32

def errDepthExceeded : String := "matchpredicate: nesting depth exceeds MaxDepth"

def errTrailersUnsupported : String :=
  "matchpredicate: http_\x7brequest,response\x7d_trailers_match is not supported"

def errGenericBodyUnsupported : String :=
  "matchpredicate: http_\x7brequest,response\x7d_generic_body_match is not supported"

section Compile

variable (strings : StringsLib) (lib : Regexps Re)

def compileMatchers (i : ℕ) : List (Option HeaderMatcher) → Except String (List (Matcher Re))
  | [] => .ok []
  | hm :: hms =>
    match newMatcher strings lib hm with
    | .error err => .error ("headers[" ++ Nat.repr i ++ "]: " ++ err)
    | .ok m => (compileMatchers (i + 1) hms).map fun ms => m :: ms

def compileHeaders (headers : List (Option HeaderMatcher)) (response : Bool) :
    Except String (Program Re) :=
  if headers = [] then .error "matchpredicate: http_*_headers_match.headers must be non-empty"
  else (compileMatchers strings lib 0 headers).map fun ms => .leaf (.headersNode ms response)

def compileArm : Arm → Except String (Program Re)
  | .null => .error "matchpredicate: nil MatchPredicate"
  | .anyMatch _ => .ok (.leaf .anyNode)
  | .httpRequestHeadersMatch headers => compileHeaders strings lib headers false
  | .httpResponseHeadersMatch headers => compileHeaders strings lib headers true
  | .httpRequestTrailersMatch => .error errTrailersUnsupported
  | .httpResponseTrailersMatch => .error errTrailersUnsupported
  | .httpRequestGenericBodyMatch => .error errGenericBodyUnsupported
  | .httpResponseGenericBodyMatch => .error errGenericBodyUnsupported
  | .unset => .error "matchpredicate: MatchPredicate has no rule set"

mutual

def compileNode (depth : ℕ) (mp : Predicate) : Except String (Program Re) :=
  if depth > maxDepth then .error (errDepthExceeded ++ " (max " ++ Nat.repr maxDepth ++ ")")
  else
    match mp with
    | .leaf arm => compileArm strings lib arm
    | .neg child => (compileNode (depth + 1) child).map .neg
    | .some [] => .error "matchpredicate: \x7bor,and\x7d_match.rules must be non-empty"
    | .some (r :: rs) => (compileSet (depth + 1) 0 (r :: rs)).map .some
    | .all [] => .error "matchpredicate: \x7bor,and\x7d_match.rules must be non-empty"
    | .all (r :: rs) => (compileSet (depth + 1) 0 (r :: rs)).map .all

def compileSet (depth i : ℕ) (rules : List Predicate) : Except String (List (Program Re)) :=
  match rules with
  | [] => .ok []
  | r :: rs =>
    match compileNode depth r with
    | .error err => .error ("rules[" ++ Nat.repr i ++ "]: " ++ err)
    | .ok k => (compileSet depth (i + 1) rs).map fun kids => k :: kids

end

/-- `Compile`; the root is at depth one. -/
def compile (mp : Predicate) : Except String (Program Re) := compileNode strings lib 1 mp

end Compile

structure State where
  reqHdrs : Header := ∅
  respHdrs : Header := ∅
  reqSeen : Bool := false
  respSeen : Bool := false

structure Evaluator (Re : Type) where
  p : Program Re
  st : State

def Program.newEvaluator (p : Program Re) : Evaluator Re := ⟨p, {}⟩

namespace Evaluator

def feedRequestHeaders (e : Evaluator Re) (h : Header) : Evaluator Re :=
  { e with st := { e.st with reqHdrs := h, reqSeen := true } }

def feedResponseHeaders (e : Evaluator Re) (h : Header) : Evaluator Re :=
  { e with st := { e.st with respHdrs := h, respSeen := true } }

end Evaluator

section Eval

variable (strings : StringsLib) (lib : Regexps Re)

def evalLeaf (st : State) : Leaf Re → Value
  | .anyNode => .isTrue
  | .headersNode matchers response =>
    let h := if response then st.respHdrs else st.reqHdrs
    let seen := if response then st.respSeen else st.reqSeen
    if !seen then .undetermined
    else if matchers.all fun m => m.matchHeader strings lib h then .isTrue else .isFalse

def Evaluator.value (e : Evaluator Re) : Value := e.p.verdict (evalLeaf strings lib e.st)

end Eval

section Reading

variable (strings : StringsLib) (lib : Regexps Re)

def regexReads (regex v : String) : Bool :=
  match lib.compile ("^(?:" ++ regex ++ ")$") with
  | .error _ => false
  | .ok re => lib.matchString re v

def patternReads (sm : StringMatcher) (v : String) : Bool :=
  match sm.matchPattern with
  | .exact s => fold strings sm.ignoreCase v == fold strings sm.ignoreCase s
  | .pathPrefix s => hasPrefix (fold strings sm.ignoreCase v) (fold strings sm.ignoreCase s)
  | .suffix s => hasSuffix (fold strings sm.ignoreCase v) (fold strings sm.ignoreCase s)
  | .contains s => Text.contains (fold strings sm.ignoreCase v) (fold strings sm.ignoreCase s)
  | .safeRegex regex => regexReads lib (regex.getD "") v
  | .custom => false
  | .unset => false

def valueReads (v : String) : HeaderMatchSpecifier → Bool
  | .exactMatch s => v == s
  | .prefixMatch s => hasPrefix v s
  | .suffixMatch s => hasSuffix v s
  | .containsMatch s => Text.contains v s
  | .safeRegexMatch regex => regex.any fun regex => regexReads lib regex v
  | .stringMatch sm => sm.any fun sm => patternReads strings lib sm v
  | .rangeMatch range => range.any fun range =>
    (Text.parseInt64 v).any fun n => range.1 ≤ n && n < range.2
  | .presentMatch _ => false
  | .unset => false

def onValue (treatMissing : Bool) (value : Option String) (f : String → Bool) : Bool :=
  value.elim (treatMissing && f "") f

def specifierReads (treatMissing : Bool) (value : Option String) :
    HeaderMatchSpecifier → Bool
  | .presentMatch want => value.isSome == want
  | spec => onValue treatMissing value fun v => valueReads strings lib v spec

def headerReads (h : Header) (hm : HeaderMatcher) : Bool :=
  hm.invertMatch ^^ specifierReads strings lib hm.treatMissingHeaderAsEmpty
    ((h.lookup (strings.toLower hm.name)).map (String.intercalate ",")) hm.specifier

/-- A header arm asks for all of its headers; `any_match` matches whatever its value is. -/
def armReads (req resp : Header) : Arm → Bool
  | .anyMatch _ => true
  | .httpRequestHeadersMatch headers => headers.all fun hm => hm.any (headerReads strings lib req)
  | .httpResponseHeadersMatch headers => headers.all fun hm => hm.any (headerReads strings lib resp)
  | _ => false

def reads (req resp : Header) (mp : Predicate) : Bool := mp.eval (armReads strings lib req resp)

variable {strings lib}

theorem matchString_newStringMatcher {sm : StringMatcher} {m : HeaderStringMatcher Re}
    (hm : newStringMatcher strings lib (some sm) = .ok m) (v : String) :
    m.matchString strings lib v = patternReads strings lib sm v := by
  obtain ⟨pattern, ignoreCase⟩ := sm
  cases pattern with
  | exact s => cases hm; rfl
  | pathPrefix s => cases hm; rfl
  | suffix s => cases hm; rfl
  | contains s => cases hm; rfl
  | custom => cases hm
  | unset => cases hm
  | safeRegex regex =>
    unfold newStringMatcher at hm
    unfold patternReads regexReads
    dsimp only at hm ⊢
    cases hre : lib.compile ("^(?:" ++ regex.getD "" ++ ")$") with
    | error err => rw [hre] at hm; cases hm
    | ok re => rw [hre] at hm; cases hm; rfl

theorem matchHeader_of_value {m : Matcher Re} {f : String → Bool} (hkind : m.kind ≠ .hmPresent)
    (heval : ∀ v, m.evalValue strings lib v = f v) (h : Header) :
    m.matchHeader strings lib h = (m.invert ^^
      onValue m.treatMissing ((h.lookup m.name).map (String.intercalate ",")) f) := by
  unfold Matcher.matchHeader onValue
  dsimp only
  rw [if_neg hkind, heval]
  cases h.lookup m.name with
  | some vals => cases m.invert <;> simp
  | none => cases m.treatMissing <;> cases m.invert <;> simp

theorem matchHeader_present {m : Matcher Re} (hkind : m.kind = .hmPresent) (h : Header) :
    m.matchHeader strings lib h = (m.invert ^^
      (((h.lookup m.name).map (String.intercalate ",")).isSome == m.presentWant)) := by
  unfold Matcher.matchHeader
  dsimp only
  rw [if_pos hkind, Option.isSome_map]
  cases m.invert <;> simp

theorem hmString_ne : HmKind.hmString ≠ .hmPresent := by decide

theorem hmRange_ne : HmKind.hmRange ≠ .hmPresent := by decide

theorem matchHeader_specify {m₀ m : Matcher Re} {spec : HeaderMatchSpecifier}
    (hm : specify strings lib m₀ spec = .ok m) (h : Header) :
    m.matchHeader strings lib h = (m₀.invert ^^ specifierReads strings lib m₀.treatMissing
      ((h.lookup m₀.name).map (String.intercalate ",")) spec) := by
  cases spec with
  | exactMatch s => cases hm; exact matchHeader_of_value hmString_ne (fun _ => rfl) h
  | prefixMatch s => cases hm; exact matchHeader_of_value hmString_ne (fun _ => rfl) h
  | suffixMatch s => cases hm; exact matchHeader_of_value hmString_ne (fun _ => rfl) h
  | containsMatch s => cases hm; exact matchHeader_of_value hmString_ne (fun _ => rfl) h
  | presentMatch want => cases hm; exact matchHeader_present rfl h
  | unset => cases hm
  | rangeMatch range =>
    cases range with
    | none => cases hm
    | some range => cases hm; exact matchHeader_of_value hmRange_ne (fun _ => rfl) h
  | stringMatch sm =>
    obtain ⟨sm', hsm, rfl⟩ := RuleTree.map_eq_ok hm
    cases sm with
    | none => cases hsm
    | some sm =>
      have heval : ∀ v, Matcher.evalValue strings lib
          { m₀ with kind := .hmString, sm := some sm' } v = patternReads strings lib sm v :=
        matchString_newStringMatcher hsm
      exact matchHeader_of_value hmString_ne heval h
  | safeRegexMatch regex =>
    cases regex with
    | none => cases hm
    | some regex =>
      rw [specify] at hm
      cases hre : lib.compile ("^(?:" ++ regex ++ ")$") with
      | error err => rw [hre] at hm; cases hm
      | ok re =>
        rw [hre] at hm
        cases hm
        have heval : ∀ v, Matcher.evalValue strings lib
            { m₀ with kind := .hmString, sm := some ⟨.safeRegex, "", some re, false⟩ } v =
              regexReads lib regex v := fun v => by
          rw [regexReads, hre]
          rfl
        exact matchHeader_of_value hmString_ne heval h

theorem matchHeader_newMatcher {hm : Option HeaderMatcher} {m : Matcher Re}
    (hnew : newMatcher strings lib hm = .ok m) (h : Header) :
    m.matchHeader strings lib h = hm.any (headerReads strings lib h) := by
  cases hm with
  | none => cases hnew
  | some hm =>
    unfold newMatcher at hnew
    dsimp only at hnew
    split_ifs at hnew
    exact matchHeader_specify hnew h

theorem all_compileMatchers {hms : List (Option HeaderMatcher)} {i : ℕ} {ms : List (Matcher Re)}
    (hc : compileMatchers strings lib i hms = .ok ms) (h : Header) :
    (ms.all fun m => m.matchHeader strings lib h) =
      hms.all fun hm => hm.any (headerReads strings lib h) := by
  induction hms generalizing i ms with
  | nil => cases hc; rfl
  | cons hm hms ih =>
    rw [compileMatchers] at hc
    cases hnew : newMatcher strings lib hm with
    | error err => rw [hnew] at hc; cases hc
    | ok m =>
      rw [hnew] at hc
      obtain ⟨rest, hrest, rfl⟩ := RuleTree.map_eq_ok hc
      rw [List.all_cons, List.all_cons, ih hrest, matchHeader_newMatcher hnew]

def leafReads (strings : StringsLib) (lib : Regexps Re) (req resp : Header) : Leaf Re → Bool
  | .anyNode => true
  | .headersNode matchers response =>
    matchers.all fun m => m.matchHeader strings lib (if response then resp else req)

variable {req resp : Header}

theorem eval_compileHeaders {headers : List (Option HeaderMatcher)} {response : Bool}
    {node : Program Re} (hc : compileHeaders strings lib headers response = .ok node) :
    node.eval (leafReads strings lib req resp) =
      headers.all fun hm => hm.any (headerReads strings lib (if response then resp else req)) := by
  unfold compileHeaders at hc
  split_ifs at hc
  obtain ⟨ms, hms, rfl⟩ := RuleTree.map_eq_ok hc
  rw [RuleTree.eval]
  exact all_compileMatchers hms _

theorem eval_compileArm {arm : Arm} {node : Program Re}
    (hc : compileArm strings lib arm = .ok node) :
    node.eval (leafReads strings lib req resp) = armReads strings lib req resp arm := by
  cases arm with
  | anyMatch val => cases hc; rw [RuleTree.eval]; rfl
  | httpRequestHeadersMatch headers => exact eval_compileHeaders hc
  | httpResponseHeadersMatch headers => exact eval_compileHeaders hc
  | null => cases hc
  | unset => cases hc
  | httpRequestTrailersMatch => cases hc
  | httpResponseTrailersMatch => cases hc
  | httpRequestGenericBodyMatch => cases hc
  | httpResponseGenericBodyMatch => cases hc

theorem eval_compileSet {rules : List Predicate} {depth i : ℕ} {kids : List (Program Re)}
    (hrules : ∀ r ∈ rules, ∀ depth node, compileNode strings lib depth r = .ok node →
      node.eval (leafReads strings lib req resp) = reads strings lib req resp r)
    (hc : compileSet strings lib depth i rules = .ok kids) :
    RuleTree.evalAll (leafReads strings lib req resp) kids =
        RuleTree.evalAll (armReads strings lib req resp) rules ∧
      RuleTree.evalSome (leafReads strings lib req resp) kids =
        RuleTree.evalSome (armReads strings lib req resp) rules := by
  induction rules generalizing i kids with
  | nil =>
    rw [compileSet] at hc
    cases hc
    rw [RuleTree.evalAll, RuleTree.evalAll, RuleTree.evalSome, RuleTree.evalSome]
    exact ⟨rfl, rfl⟩
  | cons r rs ih =>
    rw [compileSet] at hc
    cases hnode : compileNode strings lib depth r with
    | error err => rw [hnode] at hc; cases hc
    | ok node =>
      rw [hnode] at hc
      obtain ⟨rest, hrest, rfl⟩ := RuleTree.map_eq_ok hc
      obtain ⟨hall, hsome⟩ := ih (fun s hs => hrules s (List.mem_cons_of_mem r hs)) hrest
      have hhead := hrules r List.mem_cons_self depth node hnode
      rw [reads] at hhead
      rw [RuleTree.evalAll, RuleTree.evalAll, RuleTree.evalSome, RuleTree.evalSome, hhead, hall,
        hsome]
      exact ⟨rfl, rfl⟩

theorem eval_compileNode {mp : Predicate} {depth : ℕ} {node : Program Re}
    (hc : compileNode strings lib depth mp = .ok node) :
    node.eval (leafReads strings lib req resp) = reads strings lib req resp mp := by
  induction mp using RuleTree.children_induction generalizing depth node with
  | leaf arm =>
    rw [compileNode] at hc
    split_ifs at hc
    rw [eval_compileArm hc, reads, RuleTree.eval]
  | neg child ih =>
    rw [compileNode] at hc
    split_ifs at hc
    obtain ⟨node', hchild, rfl⟩ := RuleTree.map_eq_ok hc
    rw [RuleTree.eval, ih hchild, reads, reads, RuleTree.eval]
  | all ts ih =>
    cases ts with
    | nil =>
      rw [compileNode] at hc
      split_ifs at hc
    | cons t ts =>
      rw [compileNode] at hc
      split_ifs at hc
      obtain ⟨kids, hkids, rfl⟩ := RuleTree.map_eq_ok hc
      rw [RuleTree.eval, reads, RuleTree.eval]
      exact (eval_compileSet (fun r hr depth node => ih r hr) hkids).1
  | some ts ih =>
    cases ts with
    | nil =>
      rw [compileNode] at hc
      split_ifs at hc
    | cons t ts =>
      rw [compileNode] at hc
      split_ifs at hc
      obtain ⟨kids, hkids, rfl⟩ := RuleTree.map_eq_ok hc
      rw [RuleTree.eval, reads, RuleTree.eval]
      exact (eval_compileSet (fun r hr depth node => ih r hr) hkids).2

end Reading

section Feed

variable {strings : StringsLib} {lib : Regexps Re}

structure Later (st st' : State) : Prop where
  req : st.reqSeen = true → st'.reqSeen = true ∧ st'.reqHdrs = st.reqHdrs
  resp : st.respSeen = true → st'.respSeen = true ∧ st'.respHdrs = st.respHdrs

theorem evalLeaf_keeps {st st' : State} (h : Later st st') (l : Leaf Re) :
    (evalLeaf strings lib st l).Keeps (evalLeaf strings lib st' l) := by
  cases l with
  | anyNode => exact Value.Keeps.refl _
  | headersNode matchers response =>
    cases response with
    | false =>
      cases hseen : st.reqSeen with
      | false =>
        simp only [evalLeaf, hseen, Bool.false_eq_true, if_false, Bool.not_false, if_true]
        exact Value.undetermined_keeps _
      | true =>
        obtain ⟨hseen', hhdrs⟩ := h.req hseen
        simp only [evalLeaf, hseen, hseen', hhdrs, if_false, Bool.false_eq_true]
        exact Value.Keeps.refl _
    | true =>
      cases hseen : st.respSeen with
      | false =>
        simp only [evalLeaf, hseen, if_true, Bool.not_false]
        exact Value.undetermined_keeps _
      | true =>
        obtain ⟨hseen', hhdrs⟩ := h.resp hseen
        simp only [evalLeaf, hseen, hseen', hhdrs, if_true]
        exact Value.Keeps.refl _

theorem evalLeaf_of_seen {st : State} (hreq : st.reqSeen = true) (hresp : st.respSeen = true) :
    evalLeaf strings lib st =
      fun l : Leaf Re => .ofBool (leafReads strings lib st.reqHdrs st.respHdrs l) := by
  funext l
  cases l with
  | anyNode => rfl
  | headersNode matchers response =>
    cases response with
    | false =>
      simp only [evalLeaf, hreq, if_false, Bool.false_eq_true, Bool.not_true, leafReads,
        Value.ofBool]
    | true => simp only [evalLeaf, hresp, if_true, Bool.not_true, if_false, Bool.false_eq_true,
        leafReads, Value.ofBool]

theorem value_keeps (p : Program Re) {st st' : State} (h : Later st st') :
    (Evaluator.value strings lib ⟨p, st⟩).Keeps (Evaluator.value strings lib ⟨p, st'⟩) :=
  RuleTree.verdict_keeps (evalLeaf_keeps h) p

theorem value_of_seen {mp : Predicate} {p : Program Re} (hc : compile strings lib mp = .ok p)
    {st : State} (hreq : st.reqSeen = true) (hresp : st.respSeen = true) :
    Evaluator.value strings lib ⟨p, st⟩ =
      .ofBool (reads strings lib st.reqHdrs st.respHdrs mp) := by
  rw [Evaluator.value, evalLeaf_of_seen hreq hresp, RuleTree.verdict_ofBool]
  exact congrArg Value.ofBool (eval_compileNode hc)

/-- What the value of an evaluator is after one direction and after both, in either order. -/
structure Settles (strings : StringsLib) (lib : Regexps Re) (mp : Predicate) (p : Program Re)
    (req resp : Header) : Prop where
  request_stands :
    (p.newEvaluator.feedRequestHeaders req).value strings lib ≠ .undetermined →
      ((p.newEvaluator.feedRequestHeaders req).feedResponseHeaders resp).value strings lib =
        (p.newEvaluator.feedRequestHeaders req).value strings lib
  response_stands :
    (p.newEvaluator.feedResponseHeaders resp).value strings lib ≠ .undetermined →
      ((p.newEvaluator.feedResponseHeaders resp).feedRequestHeaders req).value strings lib =
        (p.newEvaluator.feedResponseHeaders resp).value strings lib
  request_first :
    ((p.newEvaluator.feedRequestHeaders req).feedResponseHeaders resp).value strings lib =
      .ofBool (reads strings lib req resp mp)
  response_first :
    ((p.newEvaluator.feedResponseHeaders resp).feedRequestHeaders req).value strings lib =
      .ofBool (reads strings lib req resp mp)

/-- A predicate decides early only when it is safe, and both directions decide it. -/
theorem compiled_settles {mp : Predicate} {p : Program Re} (hc : compile strings lib mp = .ok p)
    (req resp : Header) : Settles strings lib mp p req resp where
  request_stands := value_keeps p ⟨fun _ => ⟨rfl, rfl⟩, fun h => by cases h⟩
  response_stands := value_keeps p ⟨(fun h => by cases h), fun _ => ⟨rfl, rfl⟩⟩
  request_first := value_of_seen hc rfl rfl
  response_first := value_of_seen hc rfl rfl

def header (name value : String) : Option HeaderMatcher := some
  { name := name, specifier := .exactMatch value }

/-- `x-tap` is asked for, and a status that is not 204. -/
def tapped : Predicate := .all [.leaf (.httpRequestHeadersMatch [header "X-Tap" "yes"]),
  .neg (.leaf (.httpResponseHeadersMatch [header ":status" "204"]))]

def tappedProgram : Program (List Char × Bool) :=
  .all [.leaf (.headersNode [{ name := "x-tap", kind := .hmString
                               sm := some ⟨.exact, "yes", none, false⟩
                               invert := false, treatMissing := false }] false),
    .neg (.leaf (.headersNode [{ name := ":status", kind := .hmString
                                 sm := some ⟨.exact, "204", none, false⟩
                                 invert := false, treatMissing := false }] true))]

theorem compile_tapped : compile asciiStrings literals tapped = .ok tappedProgram := by
  rfl

theorem settles_tapped : compile asciiStrings literals tapped = .ok tappedProgram ∧
    Settles asciiStrings literals tapped tappedProgram (AList.singleton "x-tap" ["no"])
      (AList.singleton ":status" ["200"]) :=
  ⟨compile_tapped, compiled_settles compile_tapped _ _⟩

end Feed

end EnvoyGo.MatchPredicate

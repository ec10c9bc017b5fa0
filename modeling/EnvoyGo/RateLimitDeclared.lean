import EnvoyGo.RateLimitDescriptors

/-!
What the rate limit descriptors are meant to be, action by action, and when the ones that are
built are these.
-/

namespace EnvoyGo.RateLimit

open StringMatch

variable {Re : Type}

def Entry.ofValue (key value : String) : Option Entry :=
  if value = "" then none else some ⟨key, value⟩

section Declared

variable (strings : StringsLib) (lib : Regexps Re) (inp : DescriptorInputs)

def yields : Action → Option Entry
  | .genericKey gk => gk.bind (fun gk => Entry.ofValue
      (keyOr gk.descriptorKey descriptorKeyGenericKeyDefault) gk.descriptorValue)
  | .requestHeaders rh => rh.bind (fun rh =>
    if rh.headerName = "" ∨ rh.descriptorKey = "" then none
    else Entry.ofValue rh.descriptorKey (Header.get inp.headers rh.headerName))
  | .remoteAddress => (ipFromAddr inp.remoteAddr).bind (fun ip =>
    Entry.ofValue descriptorKeyRemoteAddress (ipString ip))
  | .destinationCluster => Entry.ofValue descriptorKeyDestinationCluster inp.clusterName
  | .headerValueMatch hvm => hvm.bind (fun hvm =>
    if evaluateAllHeaderMatchers strings lib hvm.headers inp.headers = hvm.expectMatch.getD true
    then Entry.ofValue (keyOr hvm.descriptorKey descriptorKeyHeaderValueMatchDefault)
      hvm.descriptorValue
    else none)
  | .sourceCluster => some ⟨descriptorKeySourceCluster, inp.nodeServiceCluster⟩
  | .maskedRemoteAddress mra => (ipFromAddr inp.remoteAddr).map (fun ip =>
    ⟨descriptorKeyMaskedRemoteAddress, match Net.to4 ip with
      | some v4 => maskedText v4 4 ((mra.bind MaskedRemoteAddress.v4PrefixMaskLen).getD
          defaultV4PrefixMaskLen)
      | none => maskedText ip 16 ((mra.bind MaskedRemoteAddress.v6PrefixMaskLen).getD
          defaultV6PrefixMaskLen)⟩)
  | .metadata md => md.bind (fun md =>
    if md.descriptorKey = "" then none
    else ((resolveMetadataValue md inp).map (Entry.mk md.descriptorKey)).or
      (Entry.ofValue md.descriptorKey md.defaultValue))
  | .queryParameters qp => qp.bind (fun qp =>
    if qp.queryParameterName = "" then none
    else (lookupFirstQueryParam inp.rawQuery qp.queryParameterName).map
      (Entry.mk (keyOr qp.descriptorKey descriptorKeyQueryParametersDefault)))
  | .queryParameterValueMatch qpvm => qpvm.bind (fun qpvm =>
    if evaluateAllQueryParameterMatchers strings lib qpvm.queryParameters inp.rawQuery =
      qpvm.expectMatch.getD true
    then Entry.ofValue (keyOr qpvm.descriptorKey descriptorKeyQueryParameterValueMatchDefault)
      qpvm.descriptorValue
    else none)
  | .extensionAction => none
  | .dynamicMetadata => none
  | .unset => none

def hasHeader (headers : Header) (name : String) : Bool := Header.values headers name != []

/-- An action that may yield nothing without its descriptor being dropped.  A header that is
present skips only its own entry. -/
def skippable : Action → Bool
  | .requestHeaders (some rh) => rh.headerName != "" && rh.descriptorKey != "" &&
      (rh.skipIfAbsent || hasHeader inp.headers rh.headerName)
  | .metadata (some md) => md.descriptorKey != "" && md.skipIfAbsent
  | .queryParameters (some qp) => qp.queryParameterName != "" && qp.skipIfAbsent
  | _ => false

/-- A non-skippable action of the limit yields nothing. -/
def dropped (p : Policy) : Bool :=
  p.actions.any (fun a => a.any (fun a => (yields strings lib inp a).isNone && !skippable inp a))

/-- The limits that are walked, those of the route first. -/
def walked : List (Option Policy) :=
  match inp.vhostWalkMode with
  | .always => inp.routeRateLimits ++ inp.vhostRateLimits
  | .never => inp.routeRateLimits
  | .overrideDefault =>
    if inp.routeRateLimits = [] then inp.vhostRateLimits else inp.routeRateLimits

/-- The limit is one of the filter's stage. -/
def ofStage (p : Policy) : Bool := p.stage.getD 0 == inp.filterStage

def declaredDescriptors : List Descriptor :=
  (walked inp).filterMap (fun p => p.bind (fun p =>
    if ofStage inp p && !dropped strings lib inp p then
      some ⟨p.actions.filterMap (fun a => a.bind (yields strings lib inp))⟩
    else none))

/-- A `request_headers` action whose header is present with an empty value, and which is not to
be skipped when the header is absent. -/
def emptyHeader : Action → Bool
  | .requestHeaders (some rh) => rh.headerName != "" && rh.descriptorKey != "" &&
      !rh.skipIfAbsent && (Header.values inp.headers rh.headerName).head? == some ""
  | _ => false

end Declared

section Actions

variable {strings : StringsLib} {lib : Regexps Re} {inp : DescriptorInputs}

def settle (e : Option Entry) (skip : Bool) : Outcome :=
  match e with
  | some e => .entry e
  | none => if skip then .skip else .drop

theorem settle_ofValue (key value : String) (skip : Bool) :
    settle (Entry.ofValue key value) skip =
      if value = "" then (if skip then .skip else .drop) else .entry ⟨key, value⟩ := by
  unfold Entry.ofValue
  split_ifs <;> simp [settle, *]

theorem settle_valueMatch (descriptorKey default descriptorValue : String)
    (expectMatch : Option Bool) (hit : Bool) :
    actionValueMatch descriptorKey default descriptorValue expectMatch hit =
      settle (if hit = expectMatch.getD true then
        Entry.ofValue (keyOr descriptorKey default) descriptorValue else none) false := by
  unfold actionValueMatch
  by_cases hhit : hit = expectMatch.getD true
  · rw [if_pos hhit, settle_ofValue, if_neg (not_not.mpr hhit), if_neg Bool.false_ne_true]
  · rw [if_neg hhit, if_pos hhit, ite_self]
    rfl

theorem get_eq_empty_iff (headers : Header) (name : String) :
    Header.get headers name = "" ↔
      Header.values headers name = [] ∨ (Header.values headers name).head? = some "" := by
  unfold Header.get
  cases Header.values headers name with
  | nil => exact iff_of_true rfl (Or.inl rfl)
  | cons v vs =>
    rw [List.head?_cons, Option.getD_some, Option.some.injEq]
    exact ⟨Or.inr, fun h => h.resolve_left (List.cons_ne_nil v vs)⟩

theorem requestHeaders_eq (rh : RequestHeaders)
    (h : emptyHeader inp (.requestHeaders (some rh)) = false) :
    actionRequestHeaders (some rh) inp.headers =
      settle (yields strings lib inp (.requestHeaders (some rh)))
        (skippable inp (.requestHeaders (some rh))) := by
  unfold actionRequestHeaders yields skippable
  dsimp only [Option.bind_some]
  by_cases hnames : rh.headerName = "" ∨ rh.descriptorKey = ""
  · have hskip : (rh.headerName != "" && rh.descriptorKey != "") = false := by
      rcases hnames with hn | hk
      · rw [hn, bne_self_eq_false, Bool.false_and]
      · rw [hk, bne_self_eq_false, Bool.and_false]
    rw [if_pos hnames, if_pos hnames, hskip, Bool.false_and]
    rfl
  · have hboth : (rh.headerName != "" && rh.descriptorKey != "") = true := by
      rw [not_or] at hnames
      rw [bne_iff_ne.mpr hnames.1, bne_iff_ne.mpr hnames.2, Bool.and_self]
    rw [if_neg hnames, if_neg hnames, hboth, Bool.true_and, settle_ofValue]
    by_cases hvalue : Header.get inp.headers rh.headerName = ""
    · rw [if_pos hvalue, if_pos hvalue]
      cases hskip : rh.skipIfAbsent with
      | true => rfl
      | false =>
        -- the header is absent, as it is not present with an empty value
        rw [emptyHeader, hboth, hskip, Bool.true_and, Bool.not_false, Bool.true_and] at h
        have habsent : Header.values inp.headers rh.headerName = [] :=
          ((get_eq_empty_iff _ _).mp hvalue).resolve_right (beq_eq_false_iff_ne.mp h)
        rw [hasHeader, habsent, bne_self_eq_false, Bool.or_self]
    · rw [if_neg hvalue, if_neg hvalue]

theorem remoteAddress_eq :
    actionRemoteAddress inp.remoteAddr = settle (yields strings lib inp .remoteAddress) false := by
  unfold actionRemoteAddress yields
  cases ipFromAddr inp.remoteAddr with
  | none => rfl
  | some ip => exact (settle_ofValue _ _ false).symm

theorem maskedRemoteAddress_eq (mra : Option MaskedRemoteAddress) :
    actionMaskedRemoteAddress mra inp.remoteAddr =
      settle (yields strings lib inp (.maskedRemoteAddress mra)) false := by
  unfold actionMaskedRemoteAddress yields
  cases ipFromAddr inp.remoteAddr with
  | none => rfl
  | some ip =>
    dsimp only [Option.map_some, settle]
    cases Net.to4 ip with
    | none => rfl
    | some v4 => rfl

theorem metadata_eq (md : MetaData) :
    actionMetadata (some md) inp =
      settle (yields strings lib inp (.metadata (some md)))
        (skippable inp (.metadata (some md))) := by
  unfold actionMetadata yields skippable
  dsimp only [Option.bind_some]
  by_cases hkey : md.descriptorKey = ""
  · rw [if_pos hkey, if_pos hkey, hkey, bne_self_eq_false, Bool.false_and]
    rfl
  · rw [if_neg hkey, if_neg hkey, bne_iff_ne.mpr hkey, Bool.true_and]
    cases resolveMetadataValue md inp with
    | some value => rfl
    | none =>
      dsimp only [Option.map_none, Option.none_or]
      rw [settle_ofValue]
      by_cases hdefault : md.defaultValue = ""
      · rw [if_neg (not_not.mpr hdefault), if_pos hdefault]
      · rw [if_pos hdefault, if_neg hdefault]

theorem queryParameters_eq (qp : QueryParameters) :
    actionQueryParameters (some qp) inp.rawQuery =
      settle (yields strings lib inp (.queryParameters (some qp)))
        (skippable inp (.queryParameters (some qp))) := by
  unfold actionQueryParameters yields skippable
  dsimp only [Option.bind_some]
  by_cases hname : qp.queryParameterName = ""
  · rw [if_pos hname, if_pos hname, hname, bne_self_eq_false, Bool.false_and]
    rfl
  · rw [if_neg hname, if_neg hname, bne_iff_ne.mpr hname, Bool.true_and]
    cases lookupFirstQueryParam inp.rawQuery qp.queryParameterName with
    | none => rfl
    | some value => rfl

theorem applyAction_eq (a : Action) (h : emptyHeader inp a = false) :
    applyAction strings lib inp a = settle (yields strings lib inp a) (skippable inp a) := by
  cases a with
  | genericKey gk =>
    cases gk with
    | none => rfl
    | some gk => exact (settle_ofValue _ _ false).symm
  | requestHeaders rh =>
    cases rh with
    | none => rfl
    | some rh => exact requestHeaders_eq rh h
  | remoteAddress => exact remoteAddress_eq
  | destinationCluster => exact (settle_ofValue _ _ false).symm
  | headerValueMatch hvm =>
    cases hvm with
    | none => rfl
    | some hvm => exact settle_valueMatch _ _ _ _ _
  | sourceCluster => rfl
  | maskedRemoteAddress mra => exact maskedRemoteAddress_eq mra
  | metadata md =>
    cases md with
    | none => rfl
    | some md => exact metadata_eq md
  | queryParameters qp =>
    cases qp with
    | none => rfl
    | some qp => exact queryParameters_eq qp
  | queryParameterValueMatch qpvm =>
    cases qpvm with
    | none => rfl
    | some qpvm => exact settle_valueMatch _ _ _ _ _
  | extensionAction => rfl
  | dynamicMetadata => rfl
  | unset => rfl

theorem applyAction_emptyHeader {a : Action} (h : emptyHeader inp a = true) :
    applyAction strings lib inp a = .drop ∧ yields strings lib inp a = none ∧
      skippable inp a = true := by
  unfold emptyHeader at h
  split at h
  · next rh =>
    rw [Bool.and_eq_true, Bool.and_eq_true, Bool.and_eq_true, bne_iff_ne, bne_iff_ne,
      Bool.not_eq_true', beq_iff_eq] at h
    obtain ⟨⟨⟨hname, hkey⟩, hskip⟩, hhead⟩ := h
    have hnames : ¬ (rh.headerName = "" ∨ rh.descriptorKey = "") := not_or.mpr ⟨hname, hkey⟩
    have hget : Header.get inp.headers rh.headerName = "" :=
      (get_eq_empty_iff _ _).mpr (Or.inr hhead)
    have hhas : hasHeader inp.headers rh.headerName = true := by
      rw [hasHeader, bne_iff_ne]
      intro hnil
      rw [hnil] at hhead
      cases hhead
    refine ⟨?_, ?_, ?_⟩
    · rw [applyAction, actionRequestHeaders]
      dsimp only
      rw [if_neg hnames, if_pos hget, hskip]
      rfl
    · rw [yields, Option.bind_some, if_neg hnames, Entry.ofValue, if_pos hget]
    · rw [skippable, bne_iff_ne.mpr hname, bne_iff_ne.mpr hkey, hhas, Bool.or_true]
      rfl
  · cases h

end Actions

section Loops

variable {strings : StringsLib} {lib : Regexps Re} {inp : DescriptorInputs}

def drops (strings : StringsLib) (lib : Regexps Re) (inp : DescriptorInputs) (a : Option Action) :
    Bool := a.any (fun a => applyAction strings lib inp a == .drop)

def Outcome.toEntry : Outcome → Option Entry
  | .entry e => some e
  | _ => none

def entryOf (strings : StringsLib) (lib : Regexps Re) (inp : DescriptorInputs)
    (a : Option Action) : Option Entry :=
  a.bind (fun a => (applyAction strings lib inp a).toEntry)

theorem applyActions_eq (entries : List Entry) (as : List (Option Action)) :
    applyActions strings lib inp entries as =
      if as.any (drops strings lib inp) then none
      else some (entries ++ as.filterMap (entryOf strings lib inp)) := by
  induction as generalizing entries with
  | nil => rw [applyActions, List.any_nil, if_neg Bool.false_ne_true, List.filterMap_nil,
      List.append_nil]
  | cons a as ih =>
    cases a with
    | none => rw [applyActions, ih, List.any_cons, List.filterMap_cons]; rfl
    | some a =>
      rw [applyActions, List.any_cons, List.filterMap_cons, drops, entryOf, Option.any_some,
        Option.bind_some]
      cases applyAction strings lib inp a with
      | drop => rfl
      | skip => exact ih entries
      | entry e => exact (ih (entries ++ [e])).trans (by rw [List.append_assoc]; rfl)

/-- The descriptor that a limit contributes. -/
def built (strings : StringsLib) (lib : Regexps Re) (inp : DescriptorInputs)
    (p : Option Policy) : Option Descriptor :=
  p.bind (fun p => if ofStage inp p then buildDescriptorForPolicy strings lib inp p else none)

theorem appendDescriptors_eq (out : List Descriptor) (policies : List (Option Policy)) :
    appendDescriptors strings lib inp out policies =
      out ++ policies.filterMap (built strings lib inp) := by
  induction policies generalizing out with
  | nil => exact (List.append_nil out).symm
  | cons p ps ih =>
    unfold appendDescriptors at ih ⊢
    rw [List.foldl_cons, ih, List.filterMap_cons]
    cases p with
    | none => rfl
    | some p =>
      unfold built ofStage
      dsimp only [Option.bind_some]
      by_cases hstage : p.stage.getD 0 = inp.filterStage
      · rw [if_neg (not_not.mpr hstage), hstage, beq_self_eq_true, if_pos rfl]
        cases buildDescriptorForPolicy strings lib inp p with
        | none => rfl
        | some d => exact List.append_assoc out [d] _
      · rw [if_pos hstage, beq_eq_false_iff_ne.mpr hstage, if_neg Bool.false_ne_true]

theorem buildDescriptorsExt_eq :
    buildDescriptorsExt strings lib inp = (walked inp).filterMap (built strings lib inp) := by
  have happend : ∀ ps : List (Option Policy), appendDescriptors strings lib inp [] ps =
      ps.filterMap (built strings lib inp) := by
    intro ps
    rw [appendDescriptors_eq, List.nil_append]
  unfold buildDescriptorsExt walked
  cases inp.vhostWalkMode with
  | always =>
    dsimp only
    rw [if_pos rfl, if_pos rfl, happend, appendDescriptors_eq, ← List.filterMap_append]
    by_cases hcap : inp.routeRateLimits.length + inp.vhostRateLimits.length = 0
    · have hnil : inp.routeRateLimits ++ inp.vhostRateLimits = [] := by
        rw [← List.length_eq_zero_iff, List.length_append, hcap]
      rw [if_pos hcap, hnil, List.filterMap_nil]
    · rw [if_neg hcap]
  | never =>
    dsimp only
    rw [if_neg Bool.false_ne_true, if_neg Bool.false_ne_true, happend, Nat.add_zero]
    by_cases hcap : inp.routeRateLimits.length = 0
    · rw [if_pos hcap, List.length_eq_zero_iff.mp hcap, List.filterMap_nil]
    · rw [if_neg hcap]
  | overrideDefault =>
    dsimp only
    by_cases hroute : inp.routeRateLimits = []
    · have hempty : inp.routeRateLimits.isEmpty = true := List.isEmpty_iff.mpr hroute
      rw [if_pos hroute, hempty, if_pos rfl, if_pos rfl, hroute, List.length_nil, Nat.zero_add,
        happend, List.filterMap_nil, happend]
      by_cases hcap : inp.vhostRateLimits.length = 0
      · rw [if_pos hcap, List.length_eq_zero_iff.mp hcap, List.filterMap_nil]
      · rw [if_neg hcap]
    · have hempty : inp.routeRateLimits.isEmpty = false :=
        Bool.eq_false_iff.mpr (fun h => hroute (List.isEmpty_iff.mp h))
      have hcap : ¬ inp.routeRateLimits.length + 0 = 0 := by
        rw [Nat.add_zero, List.length_eq_zero_iff]
        exact hroute
      rw [if_neg hroute, hempty, if_neg Bool.false_ne_true, if_neg Bool.false_ne_true,
        if_neg hcap, happend]

end Loops

section Lists

variable {α β : Type} {f g : α → Option β}

theorem length_filterMap_le (h : ∀ a, f a = g a ∨ f a = none) (l : List α) :
    (l.filterMap f).length ≤ (l.filterMap g).length := by
  induction l with
  | nil => exact Nat.le_refl 0
  | cons a l ih =>
    rw [List.filterMap_cons, List.filterMap_cons]
    rcases h a with hfg | hf
    · rw [hfg]
      cases g a with
      | none => exact ih
      | some b => exact Nat.succ_le_succ ih
    · rw [hf]
      cases g a with
      | none => exact ih
      | some b => exact Nat.le_succ_of_le ih

theorem filterMap_eq_iff (h : ∀ a, f a = g a ∨ f a = none) (l : List α) :
    l.filterMap f = l.filterMap g ↔ ∀ a ∈ l, f a = g a := by
  induction l with
  | nil => exact iff_of_true rfl (fun a ha => absurd ha List.not_mem_nil)
  | cons a l ih =>
    rw [List.filterMap_cons, List.filterMap_cons, List.forall_mem_cons, ← ih]
    rcases h a with hfg | hf
    · rw [hfg]
      cases g a with
      | none => exact ⟨fun heq => ⟨rfl, heq⟩, fun heq => heq.2⟩
      | some b =>
        exact ⟨fun heq => ⟨rfl, (List.cons.inj heq).2⟩, fun heq => congrArg (b :: ·) heq.2⟩
    · rw [hf]
      cases hg : g a with
      | none => exact ⟨fun heq => ⟨rfl, heq⟩, fun heq => heq.2⟩
      | some b =>
        have hle := length_filterMap_le h l
        constructor
        · intro heq
          dsimp only at heq
          rw [heq, List.length_cons] at hle
          omega
        · intro heq
          cases heq.1

end Lists

section Whole

variable {strings : StringsLib} {lib : Regexps Re} {inp : DescriptorInputs}

def declared (strings : StringsLib) (lib : Regexps Re) (inp : DescriptorInputs)
    (p : Option Policy) : Option Descriptor :=
  p.bind (fun p => if ofStage inp p && !dropped strings lib inp p then
    some ⟨p.actions.filterMap (fun a => a.bind (yields strings lib inp))⟩ else none)

/-- An action of the limit is a present header without a value. -/
def hasEmptyHeader (inp : DescriptorInputs) (p : Policy) : Bool :=
  p.actions.any (fun a => a.any (emptyHeader inp))

theorem settle_eq_drop_iff (e : Option Entry) (skip : Bool) :
    (settle e skip == .drop) = (e.isNone && !skip) := by
  cases e with
  | some e => rfl
  | none => cases skip <;> rfl

theorem settle_toEntry (e : Option Entry) (skip : Bool) : (settle e skip).toEntry = e := by
  cases e with
  | some e => rfl
  | none => cases skip <;> rfl

theorem any_congr {α : Type} {l : List α} {p q : α → Bool} (h : ∀ a ∈ l, p a = q a) :
    l.any p = l.any q := by
  induction l with
  | nil => rfl
  | cons a l ih =>
    rw [List.any_cons, List.any_cons, h a List.mem_cons_self,
      ih (fun b hb => h b (List.mem_cons_of_mem a hb))]

theorem built_eq_declared {p : Policy} (h : hasEmptyHeader inp p = false) :
    built strings lib inp (some p) = declared strings lib inp (some p) := by
  have haction : ∀ a ∈ p.actions, ∀ b, a = some b →
      applyAction strings lib inp b = settle (yields strings lib inp b) (skippable inp b) := by
    intro a ha b hb
    have hany := List.any_eq_false.mp h a ha
    rw [hb, Option.any_some] at hany
    exact applyAction_eq b (Bool.eq_false_iff.mpr hany)
  have hdrop : p.actions.any (drops strings lib inp) = dropped strings lib inp p := by
    apply any_congr
    intro a ha
    cases a with
    | none => rfl
    | some b =>
      rw [drops, Option.any_some, Option.any_some, haction _ ha b rfl, settle_eq_drop_iff]
  have hentries : p.actions.filterMap (entryOf strings lib inp) =
      p.actions.filterMap (fun a => a.bind (yields strings lib inp)) := by
    apply List.filterMap_congr
    intro a ha
    cases a with
    | none => rfl
    | some b =>
      rw [entryOf, Option.bind_some, Option.bind_some, haction _ ha b rfl, settle_toEntry]
  unfold built declared buildDescriptorForPolicy
  dsimp only [Option.bind_some]
  rw [applyActions_eq, hdrop, hentries, List.nil_append]
  cases ofStage inp p with
  | false => rfl
  | true =>
    cases dropped strings lib inp p with
    | false => rfl
    | true => rfl

theorem built_eq_none {p : Policy} (h : hasEmptyHeader inp p = true) :
    built strings lib inp (some p) = none := by
  obtain ⟨a, ha, hempty⟩ := List.any_eq_true.mp h
  have hdrops : p.actions.any (drops strings lib inp) = true := by
    refine List.any_eq_true.mpr ⟨a, ha, ?_⟩
    cases a with
    | none => cases hempty
    | some b =>
      rw [Option.any_some] at hempty
      rw [drops, Option.any_some, (applyAction_emptyHeader hempty).1]
      rfl
  unfold built buildDescriptorForPolicy
  dsimp only [Option.bind_some]
  rw [applyActions_eq, hdrops, if_pos rfl, Option.map_none, ite_self]

theorem built_eq_declared_iff (p : Policy) :
    built strings lib inp (some p) = declared strings lib inp (some p) ↔
      (ofStage inp p = true → dropped strings lib inp p = false →
        hasEmptyHeader inp p = false) := by
  cases hempty : hasEmptyHeader inp p with
  | false => exact iff_of_true (built_eq_declared hempty) (fun _ _ => rfl)
  | true =>
    rw [built_eq_none hempty]
    unfold declared
    dsimp only [Option.bind_some]
    cases ofStage inp p with
    | false => exact iff_of_true rfl (fun h => by cases h)
    | true =>
      cases dropped strings lib inp p with
      | true => exact iff_of_true rfl (fun _ h => by cases h)
      | false => exact iff_of_false (fun h => by cases h) (fun h => by cases h rfl rfl)

end Whole

/-- For every configuration, stage, mode and request, the descriptors are the declared ones
exactly when no walked limit of the stage that is not dropped anyway asks for a header that is
present with an empty value. -/
theorem buildDescriptorsExt_eq_declared_iff (strings : StringsLib) (lib : Regexps Re)
    (inp : DescriptorInputs) :
    buildDescriptorsExt strings lib inp = declaredDescriptors strings lib inp ↔
      ∀ p, some p ∈ walked inp → ofStage inp p = true → dropped strings lib inp p = false →
        hasEmptyHeader inp p = false := by
  have hcases : ∀ p, built strings lib inp p = declared strings lib inp p ∨
      built strings lib inp p = none := by
    intro p
    cases p with
    | none => exact Or.inr rfl
    | some p =>
      cases hempty : hasEmptyHeader inp p with
      | false => exact Or.inl (built_eq_declared hempty)
      | true => exact Or.inr (built_eq_none hempty)
  have hwhole : declaredDescriptors strings lib inp =
      (walked inp).filterMap (declared strings lib inp) := rfl
  rw [buildDescriptorsExt_eq, hwhole, filterMap_eq_iff hcases]
  constructor
  · intro h p hp
    exact (built_eq_declared_iff p).mp (h (some p) hp)
  · intro h p hp
    cases p with
    | none => rfl
    | some p => exact (built_eq_declared_iff p).mpr (h p hp)

def tenantPolicy : Policy :=
  { actions := [some (.genericKey (some { descriptorValue := "api" })),
      some (.requestHeaders (some { headerName := "x-tenant", descriptorKey := "tenant" }))] }

/-- The header is present and has no value. -/
def blankTenant : DescriptorInputs :=
  { routeRateLimits := [some tenantPolicy], vhostRateLimits := [],
    headers := Header.set ∅ "x-tenant" "" }

/-- The descriptor is dropped, where only the entry was to be skipped. -/
theorem blankTenant_dropped :
    buildDescriptorsExt asciiStrings literals blankTenant = [] ∧
    declaredDescriptors asciiStrings literals blankTenant = [⟨[⟨"generic_key", "api"⟩]⟩] := by
  decide +kernel

end EnvoyGo.RateLimit

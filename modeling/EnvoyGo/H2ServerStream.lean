import EnvoyGo.HCMDispatch
import EnvoyGo.HeaderName

/-!
A server stream of the HTTP/2 codec hands a request to the dispatcher in two containers built
from one header block: the header map the filters see and the ordered carrier that is forwarded.
-/

namespace EnvoyGo

def isPseudoHeader (name : String) : Bool := name.toList.head? == some ':'

/-- The loop variables of `buildRequest`; `hostField` is the first regular `host`. -/
structure RequestHead where
  method : String := ""
  path : String := ""
  scheme : String := ""
  authority : String := ""
  methodSeen : Bool := false
  pathSeen : Bool := false
  schemeSeen : Bool := false
  authoritySeen : Bool := false
  hostField : Option String := none
  seenRegular : Bool := false
  regular : Header := ∅

def readPseudoHeader (hd : RequestHead) (f : HeaderField) : Except String RequestHead :=
  if hd.seenRegular then .error "pseudo-header after regular header"
  else if f.name = ":method" then
    if hd.methodSeen then .error "duplicate :method"
    else .ok { hd with method := f.value, methodSeen := true }
  else if f.name = ":path" then
    if hd.pathSeen then .error "duplicate :path"
    else if f.value = "" then .error "empty :path"
    else .ok { hd with path := f.value, pathSeen := true }
  else if f.name = ":scheme" then
    if hd.schemeSeen then .error "duplicate :scheme"
    else .ok { hd with scheme := f.value, schemeSeen := true }
  else if f.name = ":authority" then
    .ok { hd with authority := f.value, authoritySeen := true }
  else .error ("unknown/invalid pseudo-header: " ++ f.name)

def readRegularHeader (hd : RequestHead) (f : HeaderField) : Except String RequestHead :=
  if f.name.toList.any Char.isUpper then
    .error ("uppercase character in header name: " ++ f.name)
  else if isConnectionSpecificField f.name then
    .error ("connection-specific header field: " ++ f.name)
  else if f.name = "te" ∧ f.value ≠ "trailers" then
    .error "TE header field value not 'trailers'"
  else if f.name = "host" then
    .ok { hd with seenRegular := true, hostField := hd.hostField.or (some f.value) }
  else
    .ok { hd with seenRegular := true, regular := Header.add hd.regular f.name f.value }

def readHeader (hd : RequestHead) (f : HeaderField) : Except String RequestHead :=
  if isPseudoHeader f.name then readPseudoHeader hd f else readRegularHeader hd f

def promotedAuthority (authoritySeen : Bool) (authority : String) (host : Option String) :
    String :=
  if authoritySeen then authority else host.getD authority

/-- `url.ParseRequestURI` is the parameter, as the `RequestURI()` of what it parses. -/
def buildRequest (parseRequestURI : String → Option String) (headers : OrderedHeaders)
    (body : Bytes) : Except String HTTPRequest := do
  let hd ← headers.foldlM readHeader {}
  if hd.method = "" then throw "missing :method"
  if hd.scheme = "" then throw "missing :scheme"
  if hd.path = "" then throw "missing :path"
  if hd.path.toList.contains '#' then throw "fragment in :path"
  match parseRequestURI hd.path with
  | none => throw "bad :path"
  | some uri =>
    return {
      method := hd.method
      host := promotedAuthority hd.authoritySeen hd.authority hd.hostField
      requestURI := hd.path
      urlRequestURI := uri
      header := hd.regular
      contentLength := 0
      body := some { chunks := [body], last := [], err := .eof } }

/-- The last field of a name, as the assignments of a loop leave it. -/
def lastValue (headers : OrderedHeaders) (name : String) : String :=
  ((headers.filter (fun f => f.name == name)).getLast?.map HeaderField.value).getD ""

def firstValue (headers : OrderedHeaders) (name : String) : Option String :=
  (headers.find? (fun f => f.name == name)).map HeaderField.value

def isCarried (f : HeaderField) : Bool :=
  f.name != "" && !isPseudoHeader f.name && f.name != "host"

def buildH2Request (headers : OrderedHeaders) (body : Bytes) : H2Request where
  method := lastValue headers ":method"
  path := lastValue headers ":path"
  scheme := lastValue headers ":scheme"
  authority := promotedAuthority (headers.any (fun f => f.name == ":authority"))
    (lastValue headers ":authority") (firstValue headers "host")
  headers := headers.filter isCarried
  body := body

/-- The first `content-length` of the block must be the length of the body; the codec looks at
no other. -/
def declaredLengthHolds (headers : OrderedHeaders) (body : Bytes) : Bool :=
  match headers.find? (fun f => equalFold f.name "content-length") with
  | none => true
  | some cl => parseInt64 cl.value == some (body.length : Int)

variable {σ : Type}

/-- `serverStream.dispatch`; `none` is a stream reset with PROTOCOL_ERROR. -/
def serverStreamDispatch (parseRequestURI : String → Option String) (fs : List (HTTPFilter σ))
    (action : Action H2Request) (writeErr : Option String) (filters : σ)
    (headers : OrderedHeaders) (body : Bytes) : Option (Outcome σ H2Request) :=
  if !declaredLengthHolds headers body then none
  else match buildRequest parseRequestURI headers body with
  | .error _ => none
  | .ok r => some (writeH2 fs action writeErr filters r (buildH2Request headers body))

/-- The values of a name in the decode map, under whatever spelling of it. -/
def Header.spelled (h : Header) (lower v : String) : Prop :=
  ∃ k, toLower k = lower ∧ v ∈ (h.lookup k).getD []

def OrderedHeaders.carries (fields : OrderedHeaders) (lower v : String) : Prop :=
  ∃ f ∈ fields, toLower f.name = lower ∧ f.value = v

section DecodeMap

theorem Header.mem_lookup_add (h : Header) (name value k v : String) :
    v ∈ ((Header.add h name value).lookup k).getD [] ↔
      v ∈ (h.lookup k).getD [] ∨ (canonicalMIMEHeaderKey name = k ∧ value = v) := by
  by_cases hk : canonicalMIMEHeaderKey name = k
  · subst hk
    rw [Header.add, AList.lookup_insert, Option.getD_some, Header.values, List.mem_append,
      List.mem_singleton]
    constructor
    · rintro (hv | hv)
      · exact Or.inl hv
      · exact Or.inr ⟨rfl, hv.symm⟩
    · rintro (hv | ⟨-, hv⟩)
      · exact Or.inl hv
      · exact Or.inr hv.symm
  · rw [Header.add, AList.lookup_insert_ne (Ne.symm hk)]
    exact ⟨Or.inl, fun hv => hv.resolve_right (fun hc => hk hc.1)⟩

theorem readPseudoHeader_regular (hd hd' : RequestHead) (f : HeaderField)
    (h : readPseudoHeader hd f = .ok hd') : hd'.regular = hd.regular := by
  unfold readPseudoHeader at h
  split_ifs at h
  all_goals
    cases h
    rfl

theorem readRegularHeader_regular (hd hd' : RequestHead) (f : HeaderField)
    (h : readRegularHeader hd f = .ok hd') :
    hd'.regular = if f.name = "host" then hd.regular else Header.add hd.regular f.name f.value := by
  unfold readRegularHeader at h
  split_ifs at h with _ _ _ hhost
  · cases h
    rw [if_pos hhost]
  · cases h
    rw [if_neg hhost]

def isMapped (f : HeaderField) : Bool := !isPseudoHeader f.name && f.name != "host"

theorem readHeader_mem (hd hd' : RequestHead) (f : HeaderField) (h : readHeader hd f = .ok hd')
    (k v : String) :
    v ∈ (hd'.regular.lookup k).getD [] ↔ v ∈ (hd.regular.lookup k).getD [] ∨
      (isMapped f = true ∧ canonicalMIMEHeaderKey f.name = k ∧ f.value = v) := by
  unfold readHeader at h
  by_cases hp : isPseudoHeader f.name = true
  · rw [if_pos hp] at h
    rw [readPseudoHeader_regular hd hd' f h]
    simp [isMapped, hp]
  · rw [if_neg hp] at h
    rw [readRegularHeader_regular hd hd' f h]
    have hp' : isPseudoHeader f.name = false := Bool.eq_false_iff.mpr hp
    by_cases hhost : f.name = "host"
    · rw [if_pos hhost]
      simp [isMapped, hhost]
    · rw [if_neg hhost, Header.mem_lookup_add]
      simp [isMapped, hp', hhost]

theorem foldlM_readHeader_mem (headers : OrderedHeaders) (hd hd' : RequestHead)
    (h : headers.foldlM readHeader hd = .ok hd') (k v : String) :
    v ∈ (hd'.regular.lookup k).getD [] ↔ v ∈ (hd.regular.lookup k).getD [] ∨
      ∃ f ∈ headers, isMapped f = true ∧ canonicalMIMEHeaderKey f.name = k ∧ f.value = v := by
  induction headers generalizing hd with
  | nil =>
    cases h
    simp
  | cons f fs ih =>
    rw [List.foldlM_cons] at h
    cases hf : readHeader hd f with
    | error e =>
      rw [hf] at h
      cases h
    | ok hd1 =>
      rw [hf] at h
      rw [ih hd1 h, readHeader_mem hd hd1 f hf]
      simp only [List.mem_cons, exists_eq_or_imp, or_assoc]

theorem buildRequest_header (parseRequestURI : String → Option String) (headers : OrderedHeaders)
    (body : Bytes) (r : HTTPRequest) (h : buildRequest parseRequestURI headers body = .ok r) :
    ∃ hd, headers.foldlM readHeader {} = .ok hd ∧ r.header = hd.regular := by
  unfold buildRequest at h
  cases hf : headers.foldlM readHeader {} with
  | error e =>
    rw [hf] at h
    cases h
  | ok hd =>
    refine ⟨hd, rfl, ?_⟩
    rw [hf] at h
    simp only [bind, Except.bind, pure, Except.pure, throw, throwThe, MonadExceptOf.throw] at h
    split_ifs at h
    cases hu : parseRequestURI hd.path with
    | none =>
      rw [hu] at h
      cases h
    | some uri =>
      rw [hu] at h
      cases h
      rfl

structure CarriedName (lower : String) : Prop where
  folded : toLower lower = lower
  unskipped : ∀ k, toLower k = lower → h2ReconcileSkipKey k = false
  legal : ∀ v, isIllegalH2RequestHeader lower v = false

theorem contentLength_carried : CarriedName "content-length" where
  folded := by decide
  unskipped := by
    intro k hk
    have hfold : k.toList.map Char.toLower = "content-length".toList := by
      rw [toLower] at hk
      rw [← hk, String.toList_ofList]
    rw [h2ReconcileSkipKey, Bool.or_eq_false_iff]
    constructor
    · cases hl : k.toList with
      | nil => rfl
      | cons c cs =>
        rw [hl, List.map_cons] at hfold
        have hc : c.toLower = 'c' := (List.cons.inj hfold).1
        simp only [List.head?_cons]
        apply beq_eq_false_iff_ne.mpr
        intro he
        cases he
        exact absurd hc (by decide)
    · rw [equalFold, hfold]
      decide
  legal := by
    intro v
    have hname : ("content-length" == "te") = false := by decide
    have hconn : isConnectionSpecificField "content-length" = false := by decide
    rw [isIllegalH2RequestHeader, hname, hconn]
    rfl

theorem setRawIfAbsent_lookup (h : Header) (key value k : String) (hk : k ≠ key) :
    (Header.setRawIfAbsent h key value).lookup k = h.lookup k := by
  unfold Header.setRawIfAbsent
  split_ifs
  · exact AList.lookup_insert_ne hk
  · rfl

theorem injectPseudoHeaders_lookup (r : HTTPRequest) (k : String)
    (hk : h2ReconcileSkipKey k = false) :
    (injectPseudoHeaders r).lookup k = r.header.lookup k := by
  have hcolon : ∀ name : String, name.toList.head? = some ':' → k ≠ name := by
    intro name hname he
    subst he
    rw [h2ReconcileSkipKey, hname] at hk
    cases hk
  have hmethod : k ≠ ":method" := hcolon _ rfl
  have hauthority : k ≠ ":authority" := hcolon _ rfl
  have hpath : k ≠ ":path" := hcolon _ rfl
  unfold injectPseudoHeaders
  simp only []
  rw [setRawIfAbsent_lookup _ _ _ _ hpath]
  split_ifs
  · rw [setRawIfAbsent_lookup _ _ _ _ hauthority, setRawIfAbsent_lookup _ _ _ _ hmethod]
  · rw [setRawIfAbsent_lookup _ _ _ _ hmethod]

theorem spelled_injectPseudoHeaders_iff (parseRequestURI : String → Option String)
    (headers : OrderedHeaders) (body : Bytes) (r : HTTPRequest)
    (h : buildRequest parseRequestURI headers body = .ok r) {lower : String}
    (hname : CarriedName lower) (hne : lower ≠ "") (v : String) :
    (injectPseudoHeaders r).spelled lower v ↔
      (buildH2Request headers body).headers.carries lower v := by
  obtain ⟨hd, hread, hheader⟩ := buildRequest_header parseRequestURI headers body r h
  have hmem := foldlM_readHeader_mem headers {} hd hread
  constructor
  · rintro ⟨k, hk, hv⟩
    rw [injectPseudoHeaders_lookup r k (hname.unskipped k hk), hheader, hmem k v] at hv
    rcases hv with hv | ⟨f, hf, hmap, hkey, hval⟩
    · cases hv
    · have hlow : toLower f.name = lower := by
        rw [← toLower_canonicalMIMEHeaderKey, hkey, hk]
      refine ⟨f, List.mem_filter.mpr ⟨hf, ?_⟩, hlow, hval⟩
      have hempty : f.name ≠ "" := by
        intro he
        rw [he] at hlow
        exact hne (hlow.symm.trans (by decide))
      rw [isMapped] at hmap
      simp only [isCarried, bne_iff_ne.mpr hempty, Bool.true_and]
      exact hmap
  · rintro ⟨f, hf, hlow, hval⟩
    obtain ⟨hf, hcarried⟩ := List.mem_filter.mp hf
    have hlow' : toLower (canonicalMIMEHeaderKey f.name) = lower := by
      rw [toLower_canonicalMIMEHeaderKey, hlow]
    refine ⟨canonicalMIMEHeaderKey f.name, hlow', ?_⟩
    rw [injectPseudoHeaders_lookup r _ (hname.unskipped _ hlow'), hheader, hmem]
    refine Or.inr ⟨f, hf, ?_, rfl, hval⟩
    simp only [isCarried, Bool.and_eq_true] at hcarried
    simp only [isMapped, hcarried.1.2, hcarried.2, Bool.and_self]

end DecodeMap

section Delta

theorem foldl_view_mem (h : Header) (ks : List String) (out : Header) (lower v : String) :
    v ∈ ((ks.foldl (fun out k => out.insert (toLower k)
        ((out.lookup (toLower k)).getD [] ++ (h.lookup k).getD [])) out).lookup lower).getD [] ↔
      v ∈ (out.lookup lower).getD [] ∨ ∃ k ∈ ks, toLower k = lower ∧ v ∈ (h.lookup k).getD [] := by
  induction ks generalizing out with
  | nil => simp
  | cons k ks ih =>
    rw [List.foldl_cons, ih]
    by_cases hk : toLower k = lower
    · rw [hk, AList.lookup_insert, Option.getD_some, List.mem_append]
      simp only [List.mem_cons, exists_eq_or_imp, hk, true_and, or_assoc]
    · rw [AList.lookup_insert_ne (Ne.symm hk)]
      simp only [List.mem_cons, exists_eq_or_imp, hk, false_and, false_or]

variable {lower : String} {vs : List String}

theorem h2LowerHeaderView_mem_iff (h : Header) (hname : CarriedName lower) (v : String) :
    v ∈ ((h2LowerHeaderView h).lookup lower).getD [] ↔ h.spelled lower v := by
  unfold h2LowerHeaderView
  rw [foldl_view_mem]
  constructor
  · rintro (hv | ⟨k, -, hk, hv⟩)
    · cases hv
    · exact ⟨k, hk, hv⟩
  · rintro ⟨k, hk, hv⟩
    refine Or.inr ⟨k, ?_, hk, hv⟩
    rw [List.mem_insertionSort, List.mem_filter]
    constructor
    · cases hl : h.lookup k with
      | none =>
        rw [hl] at hv
        cases hv
      | some vs => exact AList.mem_keys.mp (AList.lookup_isSome.mp (by rw [hl]; rfl))
    · rw [hname.unskipped k hk]
      rfl

theorem foldl_view_keys (h : Header) (ks : List String) (out : Header)
    (hout : ∀ k ∈ out.keys, toLower k = k) :
    ∀ k ∈ (ks.foldl (fun out k => out.insert (toLower k)
      ((out.lookup (toLower k)).getD [] ++ (h.lookup k).getD [])) out).keys, toLower k = k := by
  induction ks generalizing out with
  | nil => exact hout
  | cons x ks ih =>
    apply ih
    intro k hk
    rcases (AList.mem_insert _).mp (AList.mem_keys.mpr hk) with hk | hk
    · rw [hk, toLower_toLower]
    · exact hout k (AList.mem_keys.mp hk)

theorem h2LowerHeaderView_keys (h : Header) :
    ∀ k ∈ (h2LowerHeaderView h).keys, toLower k = k := by
  apply foldl_view_keys
  intro k hk
  cases hk

variable {before after : Header} {k : String}

theorem getD_lookup_of_notMem (h : Header) (hk : k ∉ h.keys) : (h.lookup k).getD [] = [] := by
  rw [AList.lookup_eq_none.mpr (fun hmem => hk (AList.mem_keys.mp hmem))]
  rfl

theorem h2Extra_append {bv av : List String} (h : h2Extra bv av = some vs) : av = bv ++ vs := by
  unfold h2Extra at h
  split_ifs at h with hc
  cases h
  nth_rewrite 1 [← List.take_append_drop bv.length av]
  rw [← hc.2]

theorem delta_cases (before after : Header) (k : String) :
    k ∈ h2Replaced before after ∨
    (k ∉ h2Replaced before after ∧ ∃ vs, (k, vs) ∈ h2Appended before after ∧
      (after.lookup k).getD [] = (before.lookup k).getD [] ++ vs) ∨
    (k ∉ h2Replaced before after ∧ (∀ vs, (k, vs) ∉ h2Appended before after) ∧
      (after.lookup k).getD [] = (before.lookup k).getD []) := by
  by_cases hr : k ∈ h2Replaced before after
  · exact Or.inl hr
  · right
    have hr' := hr
    rw [h2Replaced, List.mem_append, List.mem_filter, List.mem_filter] at hr'
    push Not at hr'
    by_cases hk : k ∈ after.keys
    · by_cases heq : (before.lookup k).getD [] = (after.lookup k).getD []
      · right
        refine ⟨hr, ?_, heq.symm⟩
        intro vs hvs
        obtain ⟨k', -, hf⟩ := List.mem_filterMap.mp hvs
        simp only [] at hf
        split_ifs at hf with hc
        obtain ⟨vs', -, he⟩ := Option.map_eq_some_iff.mp hf
        cases he
        exact hc heq
      · left
        have hx := hr'.1 hk
        simp only [bne_iff_ne.mpr heq, Bool.true_and, ne_eq, Bool.not_eq_true,
          Option.isNone_eq_false_iff, Option.isSome_iff_exists] at hx
        obtain ⟨vs, hvs⟩ := hx
        refine ⟨hr, vs, ?_, h2Extra_append hvs⟩
        apply List.mem_filterMap.mpr
        refine ⟨k, hk, ?_⟩
        simp only [if_neg heq, hvs, Option.map_some]
    · right
      have hb : k ∉ before.keys := by
        intro hb
        apply hr'.2 hb
        simpa using hk
      refine ⟨hr, ?_, ?_⟩
      · intro vs hvs
        obtain ⟨k', hk', hf⟩ := List.mem_filterMap.mp hvs
        simp only [] at hf
        split_ifs at hf
        obtain ⟨vs', -, he⟩ := Option.map_eq_some_iff.mp hf
        cases he
        exact hk hk'
      · rw [getD_lookup_of_notMem after hk, getD_lookup_of_notMem before hb]

theorem appended_fst_mem {before after : Header} {k : String}
    (h : (k, vs) ∈ h2Appended before after) : k ∈ after.keys := by
  obtain ⟨k', hk', hf⟩ := List.mem_filterMap.mp h
  simp only [] at hf
  split_ifs at hf
  obtain ⟨vs', -, he⟩ := Option.map_eq_some_iff.mp hf
  cases he
  exact hk'

theorem appended_unique {before after : Header} {k : String} {vs' : List String}
    (h : (k, vs) ∈ h2Appended before after) (h' : (k, vs') ∈ h2Appended before after) :
    vs = vs' := by
  have hextra : ∀ ws, (k, ws) ∈ h2Appended before after →
      h2Extra ((before.lookup k).getD []) ((after.lookup k).getD []) = some ws := by
    intro ws hws
    obtain ⟨k', -, hf⟩ := List.mem_filterMap.mp hws
    simp only [] at hf
    split_ifs at hf
    obtain ⟨ws', hx, he⟩ := Option.map_eq_some_iff.mp hf
    cases he
    exact hx
  exact Option.some.inj ((hextra vs h).symm.trans (hextra vs' h'))

/-- The values the delta emits for a name it appends: all of them if the name was replaced,
else the added ones. -/
def emitted (before after : Header) (k : String) : List String :=
  if (h2Replaced before after).contains k then (after.lookup k).getD []
  else (((h2Appended before after).find? (fun e => e.1 == k)).map Prod.snd).getD []

theorem emitted_of_appended {before after : Header} {k : String}
    (hr : k ∉ h2Replaced before after) (h : (k, vs) ∈ h2Appended before after) :
    emitted before after k = vs := by
  rw [emitted, if_neg (by simpa using hr)]
  cases hf : (h2Appended before after).find? (fun e => e.1 == k) with
  | none =>
    have hnone := List.find?_eq_none.mp hf (k, vs) h
    simp at hnone
  | some e =>
    have hkey : e.1 = k := by simpa using List.find?_some hf
    have hmem := List.mem_of_find?_eq_some hf
    obtain ⟨k', ws⟩ := e
    subst hkey
    exact appended_unique hmem h

theorem carries_append (xs ys : OrderedHeaders) (lower v : String) :
    OrderedHeaders.carries (xs ++ ys) lower v ↔ xs.carries lower v ∨ ys.carries lower v := by
  simp only [OrderedHeaders.carries, List.mem_append, or_and_right, exists_or]

theorem kept_carries_iff (fields : OrderedHeaders) (replaced : List String) (lower v : String) :
    OrderedHeaders.carries (fields.filter (fun f => !replaced.contains (toLower f.name))) lower v ↔
      lower ∉ replaced ∧ fields.carries lower v := by
  constructor
  · rintro ⟨f, hf, hl, hv⟩
    obtain ⟨hf, hkept⟩ := List.mem_filter.mp hf
    refine ⟨?_, f, hf, hl, hv⟩
    rw [hl] at hkept
    simpa using hkept
  · rintro ⟨hr, f, hf, hl, hv⟩
    refine ⟨f, List.mem_filter.mpr ⟨hf, ?_⟩, hl, hv⟩
    rw [hl]
    simpa using hr

theorem tail_carries_iff (ks : List String) (vals : String → List String)
    (hname : CarriedName lower) (hks : ∀ k ∈ ks, toLower k = k) (v : String) :
    OrderedHeaders.carries (ks.flatMap (fun k =>
        ((vals k).filter (fun v => !isIllegalH2RequestHeader k v)).map (fun v => ⟨k, v⟩))) lower v ↔
      lower ∈ ks ∧ v ∈ vals lower := by
  constructor
  · rintro ⟨f, hf, hl, hv⟩
    obtain ⟨k, hk, hf⟩ := List.mem_flatMap.mp hf
    obtain ⟨w, hw, he⟩ := List.mem_map.mp hf
    subst he
    have hkl : k = lower := (hks k hk).symm.trans hl
    subst hkl
    have hwv : w = v := hv
    subst hwv
    exact ⟨hk, (List.mem_filter.mp hw).1⟩
  · rintro ⟨hk, hv⟩
    refine ⟨⟨lower, v⟩, List.mem_flatMap.mpr ⟨lower, hk, ?_⟩, hname.folded, rfl⟩
    apply List.mem_map.mpr
    refine ⟨v, List.mem_filter.mpr ⟨hv, ?_⟩, rfl⟩
    rw [hname.legal v]
    rfl

def deltaNames (before after : Header) : List String :=
  ((h2Replaced before after).filter (fun k => ((after.lookup k).getD []).length > 0)
    ++ (h2Appended before after).map Prod.fst).insertionSort (· ≤ ·)

theorem mem_deltaNames {before after : Header} {k : String} :
    k ∈ deltaNames before after ↔
      (k ∈ h2Replaced before after ∧ 0 < ((after.lookup k).getD []).length) ∨
      ∃ vs, (k, vs) ∈ h2Appended before after := by
  rw [deltaNames, List.mem_insertionSort, List.mem_append, List.mem_filter, List.mem_map]
  simp

theorem deltaNames_keys {before after : Header} {k : String} (h : k ∈ deltaNames before after) :
    k ∈ after.keys := by
  rcases mem_deltaNames.mp h with ⟨-, hlen⟩ | ⟨vs, hvs⟩
  · by_contra hk
    rw [getD_lookup_of_notMem after hk] at hlen
    exact absurd hlen (Nat.lt_irrefl 0)
  · exact appended_fst_mem hvs

theorem delta_values_iff (before after : Header) (lower v : String) :
    (lower ∉ h2Replaced before after ∧ v ∈ (before.lookup lower).getD []) ∨
        (lower ∈ deltaNames before after ∧ v ∈ emitted before after lower) ↔
      v ∈ (after.lookup lower).getD [] := by
  rcases delta_cases before after lower with hr | ⟨hr, vs, hvs, heq⟩ | ⟨hr, hnone, heq⟩
  · have hem : emitted before after lower = (after.lookup lower).getD [] := by
      rw [emitted, if_pos (by simpa using hr)]
    rw [hem, mem_deltaNames]
    constructor
    · rintro (⟨hn, -⟩ | ⟨-, hv⟩)
      · exact absurd hr hn
      · exact hv
    · intro hv
      exact Or.inr ⟨Or.inl ⟨hr, List.length_pos_of_mem hv⟩, hv⟩
  · rw [emitted_of_appended hr hvs, heq, List.mem_append, mem_deltaNames]
    constructor
    · rintro (⟨-, hv⟩ | ⟨-, hv⟩)
      · exact Or.inl hv
      · exact Or.inr hv
    · rintro (hv | hv)
      · exact Or.inl ⟨hr, hv⟩
      · exact Or.inr ⟨Or.inr ⟨vs, hvs⟩, hv⟩
  · rw [heq, mem_deltaNames]
    constructor
    · rintro (⟨-, hv⟩ | ⟨⟨hn, -⟩ | ⟨vs, hvs⟩, -⟩)
      · exact hv
      · exact absurd hn hr
      · exact absurd hvs (hnone vs)
    · intro hv
      exact Or.inl ⟨hr, hv⟩

theorem reconcileH2DecodeDelta_carries_iff (fields : OrderedHeaders) (before after : Header)
    (hname : CarriedName lower) (hsame : ∀ v, fields.carries lower v ↔ before.spelled lower v)
    (v : String) :
    (reconcileH2DecodeDelta fields before after).carries lower v ↔ after.spelled lower v := by
  rw [← h2LowerHeaderView_mem_iff after hname, ← delta_values_iff (h2LowerHeaderView before)]
  have hfields : fields.carries lower v ↔
      v ∈ ((h2LowerHeaderView before).lookup lower).getD [] := by
    rw [hsame, h2LowerHeaderView_mem_iff before hname]
  rw [← hfields]
  unfold reconcileH2DecodeDelta
  simp only []
  split_ifs with hempty
  · rw [mem_deltaNames, hempty.1, hempty.2]
    simp
  · rw [carries_append, kept_carries_iff]
    apply or_congr_right
    have htail := tail_carries_iff
      (deltaNames (h2LowerHeaderView before) (h2LowerHeaderView after))
      (emitted (h2LowerHeaderView before) (h2LowerHeaderView after)) hname
      (fun k hk => h2LowerHeaderView_keys after k (deltaNames_keys hk)) v
    exact htail

theorem h2UpstreamRequest_carries_iff (parseRequestURI : String → Option String)
    (headers : OrderedHeaders) (body : Bytes) (r : HTTPRequest)
    (h : buildRequest parseRequestURI headers body = .ok r) (hname : CarriedName lower)
    (hne : lower ≠ "") (c : FilterChain σ) (v : String) :
    (h2UpstreamRequest r (buildH2Request headers body) c).headers.carries lower v ↔
      c.world.request.spelled lower v := by
  apply reconcileH2DecodeDelta_carries_iff _ _ _ hname
  intro w
  exact (spelled_injectPseudoHeaders_iff parseRequestURI headers body r h hname hne w).symm

end Delta

end EnvoyGo

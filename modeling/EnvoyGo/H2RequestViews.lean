import EnvoyGo.H2ServerStream

/-!
The two requests built from one decoded header list: the one that filters and routes look at, and
the one that is forwarded.
-/

namespace EnvoyGo

/-- `buildRequest` with the parts of the URL that it sets itself. -/
structure RoutedRequest extends HTTPRequest where
  urlScheme : String
  urlHost : String

def buildRoutedRequest (parseRequestURI : String → Option String) (headers : OrderedHeaders)
    (body : Bytes) : Except String RoutedRequest :=
  match headers.foldlM readHeader {}, buildRequest parseRequestURI headers body with
  | .ok hd, .ok r => .ok { r with urlScheme := hd.scheme, urlHost := r.host }
  | .error err, _ => .error err
  | _, .error err => .error err

def Header.folded (h : Header) (name : String) : List String :=
  (h.keys.filter (fun k => equalFold k name)).flatMap (fun k => (h.lookup k).getD [])

def OrderedHeaders.folded (fields : OrderedHeaders) (name : String) : List String :=
  (fields.filter (fun f => equalFold f.name name)).map HeaderField.value

/-- What is routed is what is forwarded. -/
structure ViewsAgree (r : RoutedRequest) (h2Req : H2Request) : Prop where
  method : r.method = h2Req.method
  path : r.requestURI = h2Req.path
  scheme : r.urlScheme = h2Req.scheme
  authority : r.host = h2Req.authority ∧ r.urlHost = h2Req.authority
  spelling : ∀ k ∈ r.header.keys, ∀ k' ∈ r.header.keys, equalFold k k' = true → k = k'
  values : ∀ name, r.header.folded name = h2Req.headers.folded name

structure HeadStep (hd : RequestHead) (f : HeaderField) (hd' : RequestHead) : Prop where
  method : hd'.method = if f.name = ":method" then f.value else hd.method
  path : hd'.path = if f.name = ":path" then f.value else hd.path
  scheme : hd'.scheme = if f.name = ":scheme" then f.value else hd.scheme
  authority : hd'.authority = if f.name = ":authority" then f.value else hd.authority
  authoritySeen : hd'.authoritySeen = (hd.authoritySeen || f.name == ":authority")
  hostField : hd'.hostField = hd.hostField.or (if f.name = "host" then some f.value else none)
  regular : hd'.regular = if isMapped f then Header.add hd.regular f.name f.value else hd.regular
  lower : isMapped f = true → f.name.toList.any Char.isUpper = false

variable {hd hd' : RequestHead} {f : HeaderField}

theorem headStep_pseudo (hp : isPseudoHeader f.name = true) (h : readPseudoHeader hd f = .ok hd') :
    HeadStep hd f hd' := by
  have hhost : f.name ≠ "host" := by
    intro he
    rw [he] at hp
    exact absurd hp (by decide)
  have hmapped : isMapped f = false := by rw [isMapped, hp]; rfl
  unfold readPseudoHeader at h
  split_ifs at h
  all_goals
    cases h
    constructor <;> simp_all

theorem headStep_regular (hp : isPseudoHeader f.name = false)
    (h : readRegularHeader hd f = .ok hd') : HeadStep hd f hd' := by
  have hne : ∀ name, isPseudoHeader name = true → f.name ≠ name := by
    intro name hname he
    rw [he, hname] at hp
    cases hp
  have hmethod := hne ":method" (by decide)
  have hpath := hne ":path" (by decide)
  have hscheme := hne ":scheme" (by decide)
  have hauthority := hne ":authority" (by decide)
  unfold readRegularHeader at h
  split_ifs at h with hupper _ _ hhost
  · cases h
    constructor <;> simp_all [isMapped]
  · cases h
    constructor <;> simp_all [isMapped]

theorem headStep_readHeader (h : readHeader hd f = .ok hd') : HeadStep hd f hd' := by
  unfold readHeader at h
  cases hp : isPseudoHeader f.name with
  | true =>
    rw [if_pos hp] at h
    exact headStep_pseudo hp h
  | false =>
    rw [if_neg (Bool.eq_false_iff.mp hp)] at h
    exact headStep_regular hp h

theorem lastValue_concat (fields : OrderedHeaders) (f : HeaderField) (name : String) :
    lastValue (fields ++ [f]) name = if f.name = name then f.value else lastValue fields name := by
  unfold lastValue
  rw [List.filter_append]
  by_cases hname : f.name = name
  · have hf : [f].filter (fun g => g.name == name) = [f] := by simp [hname]
    rw [if_pos hname, hf, List.getLast?_concat]
    rfl
  · have hf : [f].filter (fun g => g.name == name) = [] := by simp [hname]
    rw [if_neg hname, hf, List.append_nil]

theorem firstValue_concat (fields : OrderedHeaders) (f : HeaderField) (name : String) :
    firstValue (fields ++ [f]) name =
      (firstValue fields name).or (if f.name = name then some f.value else none) := by
  unfold firstValue
  rw [List.find?_append]
  cases fields.find? (fun f => f.name == name) with
  | some g => rfl
  | none =>
    rw [Option.none_or, Option.map_none, Option.none_or]
    by_cases hname : f.name = name
    · simp [hname]
    · simp [hname]

def mappedTo (fields : OrderedHeaders) (key : String) : List String :=
  (fields.filter (fun f => isMapped f && canonicalMIMEHeaderKey f.name == key)).map
    HeaderField.value

theorem mappedTo_concat (fields : OrderedHeaders) (f : HeaderField) (key : String) :
    mappedTo (fields ++ [f]) key = mappedTo fields key ++
      if isMapped f = true ∧ canonicalMIMEHeaderKey f.name = key then [f.value] else [] := by
  unfold mappedTo
  rw [List.filter_append, List.map_append]
  congr 1
  by_cases hf : isMapped f = true ∧ canonicalMIMEHeaderKey f.name = key
  · rw [if_pos hf, List.filter_cons_of_pos (by rw [hf.1, hf.2]; exact beq_self_eq_true key)]
    rfl
  · rw [if_neg hf, List.filter_cons_of_neg]
    · rfl
    · rw [Bool.and_eq_true, beq_iff_eq]
      exact hf

theorem lookup_add (h : Header) (name value key : String) :
    ((Header.add h name value).lookup key).getD [] =
      (h.lookup key).getD [] ++ if canonicalMIMEHeaderKey name = key then [value] else [] := by
  by_cases hkey : canonicalMIMEHeaderKey name = key
  · subst hkey
    rw [if_pos rfl, Header.add, AList.lookup_insert, Option.getD_some, Header.values]
  · rw [if_neg hkey, Header.add, AList.lookup_insert_ne (Ne.symm hkey), List.append_nil]

structure HeadOf (fields : OrderedHeaders) (hd : RequestHead) : Prop where
  method : hd.method = lastValue fields ":method"
  path : hd.path = lastValue fields ":path"
  scheme : hd.scheme = lastValue fields ":scheme"
  authority : hd.authority = lastValue fields ":authority"
  authoritySeen : hd.authoritySeen = fields.any (fun f => f.name == ":authority")
  hostField : hd.hostField = firstValue fields "host"
  regular : ∀ key, (hd.regular.lookup key).getD [] = mappedTo fields key
  keys : ∀ key ∈ hd.regular.keys, ∃ f ∈ fields, isMapped f = true ∧
    canonicalMIMEHeaderKey f.name = key
  lower : ∀ f ∈ fields, isMapped f = true → f.name.toList.any Char.isUpper = false

theorem headOf_nil : HeadOf [] {} where
  method := rfl
  path := rfl
  scheme := rfl
  authority := rfl
  authoritySeen := rfl
  hostField := rfl
  regular := fun _ => rfl
  keys := fun _ hkey => absurd hkey List.not_mem_nil
  lower := fun _ hf => absurd hf List.not_mem_nil

theorem HeadOf.step {fields : OrderedHeaders} (h : HeadOf fields hd) (hstep : HeadStep hd f hd') :
    HeadOf (fields ++ [f]) hd' where
  method := by rw [lastValue_concat, hstep.method, h.method]
  path := by rw [lastValue_concat, hstep.path, h.path]
  scheme := by rw [lastValue_concat, hstep.scheme, h.scheme]
  authority := by rw [lastValue_concat, hstep.authority, h.authority]
  authoritySeen := by
    rw [hstep.authoritySeen, h.authoritySeen, List.any_append, List.any_cons, List.any_nil,
      Bool.or_false]
  hostField := by rw [firstValue_concat, hstep.hostField, h.hostField]
  regular := by
    intro key
    rw [mappedTo_concat, ← h.regular key, hstep.regular]
    cases hmapped : isMapped f with
    | true =>
      rw [if_pos rfl, lookup_add]
      simp only [true_and]
    | false =>
      simp only [Bool.false_eq_true, if_false, false_and, List.append_nil]
  keys := by
    intro key hkey
    rw [hstep.regular] at hkey
    cases hmapped : isMapped f with
    | true =>
      rw [hmapped, if_pos rfl] at hkey
      obtain hkey | hkey := (AList.mem_insert _).mp (AList.mem_keys.mpr hkey)
      · exact ⟨f, List.mem_append_right _ (List.mem_singleton_self f), hmapped, hkey.symm⟩
      · obtain ⟨g, hg, hrest⟩ := h.keys key (AList.mem_keys.mp hkey)
        exact ⟨g, List.mem_append_left _ hg, hrest⟩
    | false =>
      rw [hmapped, if_neg Bool.false_ne_true] at hkey
      obtain ⟨g, hg, hrest⟩ := h.keys key hkey
      exact ⟨g, List.mem_append_left _ hg, hrest⟩
  lower := by
    intro g hg
    obtain hg | hg := List.mem_append.mp hg
    · exact h.lower g hg
    · rw [List.mem_singleton.mp hg]
      exact hstep.lower

theorem HeadOf.run {fields more : OrderedHeaders} (h : HeadOf fields hd)
    (hrun : more.foldlM readHeader hd = .ok hd') : HeadOf (fields ++ more) hd' := by
  induction more generalizing fields hd with
  | nil =>
    cases hrun
    rwa [List.append_nil]
  | cons f more ih =>
    rw [List.foldlM_cons] at hrun
    cases hf : readHeader hd f with
    | error err =>
      rw [hf] at hrun
      cases hrun
    | ok hd1 =>
      rw [hf] at hrun
      have hmore := ih (h.step (headStep_readHeader hf)) hrun
      rwa [List.append_assoc] at hmore

theorem toLower_of_lower {s : String} (h : s.toList.any Char.isUpper = false) : toLower s = s := by
  have hmap : s.toList.map Char.toLower = s.toList.map id := by
    refine List.map_congr_left (fun c hc => ?_)
    exact Char.toLower_eq_of_not_isUpper (List.any_eq_false.mp h c hc)
  rw [toLower, hmap, List.map_id, String.ofList_toList]

section Spellings

variable {headers : OrderedHeaders}

theorem HeadOf.toLower_name (h : HeadOf headers hd) {f : HeaderField} (hf : f ∈ headers)
    (hmapped : isMapped f = true) : toLower f.name = f.name :=
  toLower_of_lower (h.lower f hf hmapped)

theorem HeadOf.canonical_toLower (h : HeadOf headers hd) {k : String}
    (hk : k ∈ hd.regular.keys) : canonicalMIMEHeaderKey (toLower k) = k := by
  obtain ⟨f, hf, hmapped, rfl⟩ := h.keys k hk
  rw [toLower_canonicalMIMEHeaderKey, h.toLower_name hf hmapped]

theorem HeadOf.key_eq_of_fold (h : HeadOf headers hd) {k k' : String}
    (hk : k ∈ hd.regular.keys) (hk' : k' ∈ hd.regular.keys) (hfold : equalFold k k' = true) :
    k = k' := by
  rw [← h.canonical_toLower hk, ← h.canonical_toLower hk', (equalFold_iff_toLower k k').mp hfold]

def mappedNamed (headers : OrderedHeaders) (lower : String) : OrderedHeaders :=
  headers.filter (fun f => isMapped f && f.name == lower)

theorem HeadOf.folded_regular (h : HeadOf headers hd) (name : String) :
    hd.regular.folded name = (mappedNamed headers (toLower name)).map HeaderField.value := by
  have hkeys : hd.regular.keys.filter (fun k => equalFold k name) =
      hd.regular.keys.filter (fun k => k == canonicalMIMEHeaderKey (toLower name)) := by
    refine List.filter_congr (fun k hk => ?_)
    rw [Bool.eq_iff_iff, equalFold_iff_toLower, beq_iff_eq]
    constructor
    · intro hlower
      rw [← hlower]
      exact (h.canonical_toLower hk).symm
    · intro hcanonical
      rw [hcanonical, toLower_canonicalMIMEHeaderKey, toLower_toLower]
  have hlookup : hd.regular.folded name =
      (hd.regular.lookup (canonicalMIMEHeaderKey (toLower name))).getD [] := by
    unfold Header.folded
    rw [hkeys, List.filter_beq]
    by_cases hmem : canonicalMIMEHeaderKey (toLower name) ∈ hd.regular.keys
    · rw [List.count_eq_one_of_mem hd.regular.keys_nodup hmem]
      simp
    · rw [List.count_eq_zero_of_not_mem hmem, getD_lookup_of_notMem _ hmem]
      rfl
  rw [hlookup, h.regular, mappedTo, mappedNamed]
  congr 1
  refine List.filter_congr (fun f hf => ?_)
  cases hmapped : isMapped f with
  | false => rfl
  | true =>
    rw [Bool.true_and, Bool.true_and, Bool.eq_iff_iff, beq_iff_eq, beq_iff_eq]
    constructor
    · intro hcanonical
      rw [← h.toLower_name hf hmapped, ← toLower_canonicalMIMEHeaderKey, hcanonical,
        toLower_canonicalMIMEHeaderKey, toLower_toLower]
    · intro hname
      rw [hname]

theorem isCarried_iff (f : HeaderField) : isCarried f = true ↔ f.name ≠ "" ∧ isMapped f = true := by
  rw [isCarried, isMapped, Bool.and_assoc, Bool.and_eq_true, bne_iff_ne]

theorem HeadOf.folded_carried (h : HeadOf headers hd) (name : String) :
    OrderedHeaders.folded (headers.filter isCarried) name =
      ((mappedNamed headers (toLower name)).filter (fun f => f.name != "")).map
        HeaderField.value := by
  rw [OrderedHeaders.folded, mappedNamed, List.filter_filter, List.filter_filter]
  congr 1
  refine List.filter_congr (fun f hf => ?_)
  rw [Bool.eq_iff_iff, Bool.and_eq_true, Bool.and_eq_true, Bool.and_eq_true, isCarried_iff,
    bne_iff_ne, beq_iff_eq, equalFold_iff_toLower]
  constructor
  · rintro ⟨hfold, hne, hmapped⟩
    refine ⟨hne, hmapped, ?_⟩
    rw [← hfold, h.toLower_name hf hmapped]
  · rintro ⟨hne, hmapped, hname⟩
    refine ⟨?_, hne, hmapped⟩
    rw [h.toLower_name hf hmapped, hname]

end Spellings

section Views

variable {parseRequestURI : String → Option String} {headers : OrderedHeaders} {body : Bytes}

theorem buildRequest_of_head {r : HTTPRequest} (hread : headers.foldlM readHeader {} = .ok hd)
    (h : buildRequest parseRequestURI headers body = .ok r) :
    r.method = hd.method ∧ r.requestURI = hd.path ∧ r.header = hd.regular ∧
      r.host = promotedAuthority hd.authoritySeen hd.authority hd.hostField := by
  unfold buildRequest at h
  rw [hread] at h
  simp only [bind, Except.bind, pure, Except.pure, throw, throwThe, MonadExceptOf.throw] at h
  split_ifs at h
  cases hu : parseRequestURI hd.path with
  | none =>
    rw [hu] at h
    cases h
  | some uri =>
    rw [hu] at h
    cases h
    exact ⟨rfl, rfl, rfl, rfl⟩

theorem buildRoutedRequest_head {r : RoutedRequest}
    (h : buildRoutedRequest parseRequestURI headers body = .ok r) :
    ∃ hd, HeadOf headers hd ∧ r.method = hd.method ∧ r.requestURI = hd.path ∧
      r.header = hd.regular ∧ r.urlScheme = hd.scheme ∧ r.urlHost = r.host ∧
      r.host = promotedAuthority hd.authoritySeen hd.authority hd.hostField := by
  unfold buildRoutedRequest at h
  cases hread : headers.foldlM readHeader {} with
  | error err =>
    rw [hread] at h
    cases h
  | ok hd =>
    rw [hread] at h
    cases hbuild : buildRequest parseRequestURI headers body with
    | error err =>
      rw [hbuild] at h
      cases h
    | ok q =>
      rw [hbuild] at h
      obtain ⟨hmethod, hpath, hheader, hhost⟩ := buildRequest_of_head hread hbuild
      cases h
      exact ⟨hd, headOf_nil.run hread, hmethod, hpath, hheader, rfl, rfl, hhost⟩

/-- A field with an empty name stays in the map and is not forwarded; nothing else tells the two
requests apart. -/
theorem viewsAgree_iff {r : RoutedRequest}
    (h : buildRoutedRequest parseRequestURI headers body = .ok r) :
    ViewsAgree r (buildH2Request headers body) ↔ ∀ f ∈ headers, f.name ≠ "" := by
  obtain ⟨hd, hhead, hmethod, hpath, hheader, hscheme, hurl, hhost⟩ := buildRoutedRequest_head h
  have hauthority : r.host = (buildH2Request headers body).authority := by
    rw [hhost, hhead.authoritySeen, hhead.authority, hhead.hostField]
    rfl
  constructor
  · intro hagree f hf hname
    have hvalues := hagree.values ""
    have hcarried : (buildH2Request headers body).headers.folded "" = [] := by
      refine (hhead.folded_carried "").trans (List.map_eq_nil_iff.mpr ?_)
      rw [List.filter_eq_nil_iff]
      intro g hg
      obtain ⟨-, hg⟩ := List.mem_filter.mp hg
      rw [beq_iff_eq.mp (Bool.and_eq_true_iff.mp hg).2]
      decide
    have hmapped : f ∈ mappedNamed headers (toLower "") := by
      refine List.mem_filter.mpr ⟨hf, ?_⟩
      rw [isMapped, hname]
      decide
    rw [hcarried, hheader, hhead.folded_regular] at hvalues
    rw [List.map_eq_nil_iff.mp hvalues] at hmapped
    exact absurd hmapped List.not_mem_nil
  · intro hnames
    refine ⟨hmethod.trans hhead.method, hpath.trans hhead.path, hscheme.trans hhead.scheme,
      ⟨hauthority, hurl.trans hauthority⟩, ?_, ?_⟩
    · intro k hk k' hk'
      rw [hheader] at hk hk'
      exact hhead.key_eq_of_fold hk hk'
    · intro name
      rw [hheader, hhead.folded_regular]
      refine Eq.symm ((hhead.folded_carried name).trans ?_)
      congr 1
      refine List.filter_eq_self.mpr (fun f hf => ?_)
      rw [bne_iff_ne]
      exact hnames f (List.mem_filter.mp hf).1

end Views

/-- Two `:authority` fields and two hosts, of which the last and none are used. -/
def repeatedFields : OrderedHeaders :=
  [⟨":method", "GET"⟩, ⟨":authority", "a"⟩, ⟨":scheme", "http"⟩, ⟨":path", "/x"⟩,
    ⟨":authority", "b"⟩, ⟨"host", "c"⟩, ⟨"x-a", "1"⟩, ⟨"host", "d"⟩, ⟨"x-a", "2"⟩]

theorem viewsAgree_repeatedFields :
    ∃ r, buildRoutedRequest some repeatedFields [] = .ok r ∧
      ViewsAgree r (buildH2Request repeatedFields []) := by
  obtain ⟨r, hr⟩ : ∃ r, buildRoutedRequest some repeatedFields [] = .ok r := ⟨_, rfl⟩
  exact ⟨r, hr, (viewsAgree_iff hr).mpr (by decide)⟩

/-- A field with an empty name. -/
def namelessField : OrderedHeaders :=
  [⟨":method", "GET"⟩, ⟨":scheme", "http"⟩, ⟨":path", "/"⟩, ⟨"", "v"⟩]

theorem not_viewsAgree_namelessField :
    ∃ r, buildRoutedRequest some namelessField [] = .ok r ∧
      ¬ ViewsAgree r (buildH2Request namelessField []) := by
  refine ⟨_, rfl, ?_⟩
  intro h
  have hvalues := h.values ""
  exact absurd hvalues (by decide)

end EnvoyGo

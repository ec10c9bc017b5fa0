import EnvoyGo.HeaderName
import EnvoyGo.Tracing

/-!
What the next hop reads: the headers each dispatcher forwards, seen through `Get`, and the
contexts that the extractors read back from what the injectors wrote.
-/

namespace EnvoyGo

section Get

theorem Header.get_set_self (h : Header) (name value : String) :
    Header.get (Header.set h name value) name = value := by
  rw [Header.get, Header.values_set_self]
  rfl

theorem Header.get_set_of_ne (h : Header) {name other : String} (value : String)
    (hne : canonicalMIMEHeaderKey other ≠ canonicalMIMEHeaderKey name) :
    Header.get (Header.set h name value) other = Header.get h other := by
  rw [Header.get, Header.values_set_of_ne h name other value hne, Header.get]

theorem Header.values_add (h : Header) (name value other : String) :
    Header.values (Header.add h name value) other =
      Header.values h other ++
        if canonicalMIMEHeaderKey name == canonicalMIMEHeaderKey other then [value] else [] := by
  by_cases hk : canonicalMIMEHeaderKey name = canonicalMIMEHeaderKey other
  · rw [if_pos (beq_iff_eq.mpr hk), Header.values, Header.add, ← hk, AList.lookup_insert,
      Option.getD_some, Header.values, Header.values, hk]
  · rw [if_neg (mt beq_iff_eq.mp hk), Header.values, Header.add,
      AList.lookup_insert_ne (Ne.symm hk), Header.values, List.append_nil]

namespace OrderedHeaders

theorem values_foldl_add (oh : OrderedHeaders) (h : Header) (name : String) :
    Header.values (oh.foldl (fun h hf => Header.add h hf.name hf.value) h) name =
      Header.values h name ++ (oh.filter (fun hf =>
        canonicalMIMEHeaderKey hf.name == canonicalMIMEHeaderKey name)).map HeaderField.value := by
  induction oh generalizing h with
  | nil => rw [List.foldl_nil, List.filter_nil, List.map_nil, List.append_nil]
  | cons f oh ih =>
    rw [List.foldl_cons, ih, Header.values_add, List.append_assoc, List.filter_cons]
    by_cases hk : (canonicalMIMEHeaderKey f.name == canonicalMIMEHeaderKey name) = true
    · rw [if_pos hk, if_pos hk, List.map_cons, List.singleton_append]
    · rw [if_neg hk, if_neg hk, List.nil_append]

theorem get_toHTTPHeader (oh : OrderedHeaders) (name : String) :
    Header.get (toHTTPHeader oh) name = get oh name := by
  have hempty : Header.values ∅ name = [] := rfl
  rw [Header.get, toHTTPHeader, values_foldl_add, hempty, List.nil_append, List.head?_map,
    List.head?_filter, get]

end OrderedHeaders

end Get

namespace Tracing

section Upsert

variable {name : String} (hname : name.toList.all validHeaderFieldByte = true)
include hname

theorem canonicalMIMEHeaderKey_toLower : canonicalMIMEHeaderKey (toLower name) =
    canonicalMIMEHeaderKey name := by
  rw [canonicalMIMEHeaderKey_eq_iff hname, equalFold_iff_toLower, toLower_toLower]

theorem get_upsertH2Header_self (fields : OrderedHeaders) (value : String) {key : String}
    (hkey : canonicalMIMEHeaderKey key = canonicalMIMEHeaderKey name) :
    OrderedHeaders.get (upsertH2Header fields name value) key = value := by
  have hgone : (fields.filter (fun f => !equalFold f.name name)).find? (fun f =>
      canonicalMIMEHeaderKey f.name == canonicalMIMEHeaderKey key) = none := by
    apply List.find?_eq_none.mpr
    intro f hf hk
    rw [hkey, beq_iff_eq, canonicalMIMEHeaderKey_eq_iff hname] at hk
    have hkept := (List.mem_filter.mp hf).2
    rw [hk] at hkept
    cases hkept
  rw [OrderedHeaders.get, upsertH2Header, List.find?_append, hgone, Option.none_or,
    List.find?_singleton, canonicalMIMEHeaderKey_toLower hname, hkey, beq_self_eq_true, if_pos rfl]
  rfl

theorem get_upsertH2Header_of_ne (fields : OrderedHeaders) (value : String) {key : String}
    (hkey : canonicalMIMEHeaderKey key ≠ canonicalMIMEHeaderKey name) :
    OrderedHeaders.get (upsertH2Header fields name value) key = OrderedHeaders.get fields key := by
  have hkept : (fields.filter (fun f => !equalFold f.name name)).find? (fun f =>
      canonicalMIMEHeaderKey f.name == canonicalMIMEHeaderKey key) =
        fields.find? (fun f => canonicalMIMEHeaderKey f.name == canonicalMIMEHeaderKey key) := by
    rw [List.find?_filter]
    congr 1
    funext f
    by_cases hk : canonicalMIMEHeaderKey f.name = canonicalMIMEHeaderKey key
    · have hnot : equalFold f.name name = false := by
        rw [Bool.eq_false_iff, ne_eq, ← canonicalMIMEHeaderKey_eq_iff hname, hk]
        exact hkey
      simp [hnot, hk]
    · simp [hk]
  have hnew : (canonicalMIMEHeaderKey (toLower name) == canonicalMIMEHeaderKey key) = false := by
    rw [canonicalMIMEHeaderKey_toLower hname]
    exact beq_false_of_ne (Ne.symm hkey)
  rw [OrderedHeaders.get, upsertH2Header, List.find?_append, hkept, List.find?_singleton, hnew,
    if_neg Bool.false_ne_true, Option.or_none, OrderedHeaders.get]

end Upsert

section Written

theorem canonical_names :
    canonicalMIMEHeaderKey "B3" = "B3" ∧
    canonicalMIMEHeaderKey "X-B3-TraceId" = "X-B3-Traceid" ∧
    canonicalMIMEHeaderKey "X-B3-SpanId" = "X-B3-Spanid" ∧
    canonicalMIMEHeaderKey "X-B3-ParentSpanId" = "X-B3-Parentspanid" ∧
    canonicalMIMEHeaderKey "X-B3-Sampled" = "X-B3-Sampled" ∧
    canonicalMIMEHeaderKey "X-B3-Flags" = "X-B3-Flags" ∧
    canonicalMIMEHeaderKey "Traceparent" = "Traceparent" ∧
    canonicalMIMEHeaderKey "Tracestate" = "Tracestate" ∧
    canonicalMIMEHeaderKey "X-Request-Id" = "X-Request-Id" := by
  decide +kernel

theorem get_set (h : Header) (name value key : String) :
    Header.get (Header.set h name value) key =
      if canonicalMIMEHeaderKey key = canonicalMIMEHeaderKey name then value
      else Header.get h key := by
  by_cases hk : canonicalMIMEHeaderKey key = canonicalMIMEHeaderKey name
  · rw [if_pos hk, Header.get, Header.values, hk]
    exact Header.get_set_self h name value
  · rw [if_neg hk, Header.get_set_of_ne h value hk]

structure B3Written (old new : String → String) (d : Decision) (id128 shared : Bool) : Prop where
  b3 : new "B3" = old "B3"
  flags : new "X-B3-Flags" = old "X-B3-Flags"
  traceID : new "X-B3-TraceId" = String.ofList (traceIDHex d.traceID id128)
  spanID : new "X-B3-SpanId" = String.ofList (hexEncode (zipkinIdentity d shared).1.bytes)
  sampled : new "X-B3-Sampled" = if d.sample then "1" else "0"
  parentOld : (zipkinIdentity d shared).2 = none →
    new "X-B3-ParentSpanId" = old "X-B3-ParentSpanId"
  parentNew : ∀ p, (zipkinIdentity d shared).2 = some p →
    new "X-B3-ParentSpanId" = String.ofList (hexEncode p.bytes)

theorem b3Written_injectB3 (h : Header) (d : Decision) (id128 shared : Bool) :
    B3Written h.get (injectB3 h d id128 shared).get d id128 shared := by
  obtain ⟨c1, c2, c3, c4, c5, c6, -, -, -⟩ := canonical_names
  cases hp : (zipkinIdentity d shared).2 with
  | none =>
    constructor
    all_goals simp [injectB3, hp, get_set, c1, c2, c3, c4, c5, c6]
  | some p =>
    constructor
    all_goals simp [injectB3, hp, get_set, c1, c2, c3, c4, c5, c6]

structure W3CWritten (old new : String → String) (d : Decision) : Prop where
  parent : new "Traceparent" = traceparent d.traceID d.spanID d.sample
  state : new "Tracestate" = if d.traceState = "" then old "Tracestate" else d.traceState

theorem w3cWritten_injectTraceparent (h : Header) (d : Decision) :
    W3CWritten h.get (injectTraceparent h d).get d := by
  obtain ⟨-, -, -, -, -, -, c7, c8, -⟩ := canonical_names
  by_cases hstate : d.traceState = ""
  · constructor
    all_goals simp [injectTraceparent, hstate, get_set, c7, c8]
  · constructor
    all_goals simp [injectTraceparent, hstate, get_set, c7, c8]

def reads : Provider → List String
  | .zipkin _ _ => ["B3", "X-B3-TraceId", "X-B3-SpanId", "X-B3-ParentSpanId", "X-B3-Sampled",
      "X-B3-Flags"]
  | .openTelemetry => ["Traceparent", "Tracestate"]

theorem extract_congr (p : Provider) {get get' : String → String}
    (h : ∀ key ∈ reads p, get key = get' key) : extract p get = extract p get' := by
  cases p with
  | zipkin id128 shared =>
    have hb3 := h "B3" (by simp [reads])
    have htrace := h "X-B3-TraceId" (by simp [reads])
    have hspan := h "X-B3-SpanId" (by simp [reads])
    have hparent := h "X-B3-ParentSpanId" (by simp [reads])
    have hsampled := h "X-B3-Sampled" (by simp [reads])
    have hflags := h "X-B3-Flags" (by simp [reads])
    simp only [extract, extractB3, extractB3Multi, hb3, htrace, hspan, hparent, hsampled, hflags]
  | openTelemetry =>
    have hparent := h "Traceparent" (by simp [reads])
    have hstate := h "Tracestate" (by simp [reads])
    simp only [extract, extractTraceparent, hparent, hstate]

theorem hexEncode_ne_nil {bs : Bytes} (h : bs ≠ []) : hexEncode bs ≠ [] := by
  cases bs with
  | nil => exact absurd rfl h
  | cons b bs => exact List.cons_ne_nil _ _

theorem ofList_ne_empty {l : List Char} (h : l ≠ []) : String.ofList l ≠ "" := by
  intro heq
  have hlist := congrArg String.toList heq
  rw [String.toList_ofList] at hlist
  exact h hlist

theorem Id.bytes_ne_nil {n : ℕ} (b : Id (n + 1)) : b.bytes ≠ [] := by
  intro hnil
  have hsize := b.size
  rw [hnil, List.length_nil] at hsize
  omega

theorem hexEncode_id_ne_empty {n : ℕ} (b : Id (n + 1)) : String.ofList (hexEncode b.bytes) ≠ "" :=
  ofList_ne_empty (hexEncode_ne_nil b.bytes_ne_nil)

theorem traceIDHex_ne_empty (t : Id 16) (id128 : Bool) :
    String.ofList (traceIDHex t id128) ≠ "" := by
  cases id128 with
  | true => exact hexEncode_id_ne_empty t
  | false => exact hexEncode_id_ne_empty t.low

theorem traceparent_ne_empty (t : Id 16) (b : Id 8) (sampled : Bool) :
    traceparent t b sampled ≠ "" := ofList_ne_empty (List.cons_ne_nil _ _)

theorem get_eq_empty_of_inject {p : Provider} {h : Header} {d : Decision} {key : String}
    (hkey : key ∈ reads p) (hempty : (inject p h d).get key = "") : h.get key = "" := by
  cases p with
  | zipkin id128 shared =>
    have hw := b3Written_injectB3 h d id128 shared
    simp only [reads, List.mem_cons, List.not_mem_nil, or_false] at hkey
    rcases hkey with rfl | rfl | rfl | rfl | rfl | rfl
    · exact hw.b3.symm.trans hempty
    · exact absurd (hw.traceID.symm.trans hempty) (traceIDHex_ne_empty _ _)
    · exact absurd (hw.spanID.symm.trans hempty) (hexEncode_id_ne_empty _)
    · cases hp : (zipkinIdentity d shared).2 with
      | none => exact (hw.parentOld hp).symm.trans hempty
      | some b => exact absurd ((hw.parentNew b hp).symm.trans hempty) (hexEncode_id_ne_empty b)
    · have hsampled := hw.sampled.symm.trans hempty
      split at hsampled
      · exact absurd hsampled (by decide)
      · exact absurd hsampled (by decide)
    · exact hw.flags.symm.trans hempty
  | openTelemetry =>
    have hw := w3cWritten_injectTraceparent h d
    simp only [reads, List.mem_cons, List.not_mem_nil, or_false] at hkey
    rcases hkey with rfl | rfl
    · exact absurd (hw.parent.symm.trans hempty) (traceparent_ne_empty _ _ _)
    · have hstate := hw.state.symm.trans hempty
      split at hstate
      · exact hstate
      · contradiction

theorem get_traceH1 (p : Provider) (h : Header) (r : Draws) {key : String} (hkey : key ∈ reads p) :
    (traceH1 p h r).get key = (inject p h (decision p h r)).get key := by
  obtain ⟨c1, c2, c3, c4, c5, c6, c7, c8, c9⟩ := canonical_names
  cases p with
  | zipkin id128 shared =>
    simp only [reads, List.mem_cons, List.not_mem_nil, or_false] at hkey
    simp only [traceH1, inject, injectB3]
    cases (zipkinIdentity (decision (.zipkin id128 shared) h r) shared).2 with
    | none =>
      rcases hkey with rfl | rfl | rfl | rfl | rfl | rfl
      all_goals simp [get_set, c1, c2, c3, c4, c5, c6, c9]
    | some b =>
      rcases hkey with rfl | rfl | rfl | rfl | rfl | rfl
      all_goals simp [get_set, c1, c2, c3, c4, c5, c6, c9]
  | openTelemetry =>
    simp only [reads, List.mem_cons, List.not_mem_nil, or_false] at hkey
    simp only [traceH1, inject, injectTraceparent]
    by_cases hstate : (decision .openTelemetry h r).traceState = ""
    · rw [if_pos hstate, if_pos hstate]
      rcases hkey with rfl | rfl
      all_goals simp [get_set, c7, c8, c9]
    · rw [if_neg hstate, if_neg hstate]
      rcases hkey with rfl | rfl
      all_goals simp [get_set, c7, c8]

theorem get_congr {h : Header} {key key' : String}
    (hk : canonicalMIMEHeaderKey key = canonicalMIMEHeaderKey key') : h.get key = h.get key' := by
  rw [Header.get, Header.values, hk, Header.get, Header.values]

theorem valid_toLower {name : String} (h : name.toList.all validHeaderFieldByte = true) :
    (toLower name).toList.all validHeaderFieldByte = true := by
  rw [toLower, String.toList_ofList, List.all_map, List.all_eq_true]
  intro c hc
  exact validHeaderFieldByte_toLower c (List.all_eq_true.mp h c hc)

section Copy

variable (view : Header) {name : String} (hname : name.toList.all validHeaderFieldByte = true)
include hname

theorem get_copyH2Header_of_ne (fields : OrderedHeaders) {key : String}
    (hk : canonicalMIMEHeaderKey key ≠ canonicalMIMEHeaderKey name) :
    OrderedHeaders.get (copyH2Header view fields name) key = OrderedHeaders.get fields key := by
  rw [copyH2Header]
  by_cases hempty : view.get name = ""
  · rw [if_pos hempty]
  · rw [if_neg hempty]
    apply get_upsertH2Header_of_ne (valid_toLower hname)
    rw [canonicalMIMEHeaderKey_toLower hname]
    exact hk

theorem get_copyH2Header_self (fields : OrderedHeaders) {key : String}
    (hk : canonicalMIMEHeaderKey key = canonicalMIMEHeaderKey name)
    (hold : view.get key = "" → OrderedHeaders.get fields key = "") :
    OrderedHeaders.get (copyH2Header view fields name) key = view.get key := by
  rw [copyH2Header, ← get_congr hk]
  by_cases hempty : view.get key = ""
  · rw [if_pos hempty, hempty]
    exact hold hempty
  · rw [if_neg hempty]
    apply get_upsertH2Header_self (valid_toLower hname)
    rw [canonicalMIMEHeaderKey_toLower hname]
    exact hk

end Copy

theorem get_foldl_copyH2Header (view : Header) (names : List String)
    (hnames : ∀ name ∈ names, name.toList.all validHeaderFieldByte = true)
    (fields : OrderedHeaders) {key : String}
    (hkey : OrderedHeaders.get fields key = view.get key ∨
      ((view.get key = "" → OrderedHeaders.get fields key = "") ∧
        ∃ name ∈ names, canonicalMIMEHeaderKey key = canonicalMIMEHeaderKey name)) :
    OrderedHeaders.get (names.foldl (copyH2Header view) fields) key = view.get key := by
  induction names generalizing fields with
  | nil =>
    rcases hkey with hkey | ⟨-, name, hmem, -⟩
    · exact hkey
    · exact absurd hmem List.not_mem_nil
  | cons name names ih =>
    obtain ⟨hname, hnames⟩ := List.forall_mem_cons.mp hnames
    rw [List.foldl_cons]
    apply ih hnames
    have hold : view.get key = "" → OrderedHeaders.get fields key = "" := by
      rcases hkey with hkey | ⟨hold, -⟩
      · exact fun hempty => hkey.trans hempty
      · exact hold
    by_cases hk : canonicalMIMEHeaderKey key = canonicalMIMEHeaderKey name
    · exact Or.inl (get_copyH2Header_self view hname fields hk hold)
    · rw [get_copyH2Header_of_ne view hname fields hk]
      rcases hkey with hkey | ⟨hold, n, hmem, hn⟩
      · exact Or.inl hkey
      · rcases List.mem_cons.mp hmem with rfl | hmem
        · exact absurd hn hk
        · exact Or.inr ⟨hold, n, hmem, hn⟩

def copied : Provider → List String
  | .zipkin _ _ => ["X-B3-TraceId", "X-B3-SpanId", "X-B3-ParentSpanId", "X-B3-Sampled"]
  | .openTelemetry => ["Traceparent", "Tracestate"]

theorem traceH2_eq (p : Provider) (fields : OrderedHeaders) (r : Draws) :
    traceH2 p fields r =
      (copied p).foldl
        (copyH2Header (inject p fields.toHTTPHeader (decision p fields.toHTTPHeader r)))
        (upsertH2Header fields "x-request-id" (decision p fields.toHTTPHeader r).requestID) := by
  cases p with
  | zipkin id128 shared => rfl
  | openTelemetry =>
    have hwritten := (w3cWritten_injectTraceparent fields.toHTTPHeader
      (decision .openTelemetry fields.toHTTPHeader r)).parent
    have hne : (inject .openTelemetry fields.toHTTPHeader
        (decision .openTelemetry fields.toHTTPHeader r)).get "Traceparent" ≠ "" := by
      intro hempty
      exact traceparent_ne_empty _ _ _ (hwritten.symm.trans hempty)
    have hlower : toLower "Traceparent" = "traceparent" := by decide +kernel
    simp only [traceH2, copied, List.foldl_cons, List.foldl_nil]
    rw [copyH2Header.eq_def _ _ "Traceparent", if_neg hne, hlower]

theorem get_traceH2 (p : Provider) (fields : OrderedHeaders) (r : Draws) {key : String}
    (hkey : key ∈ reads p) :
    OrderedHeaders.get (traceH2 p fields r) key =
      (inject p fields.toHTTPHeader (decision p fields.toHTTPHeader r)).get key := by
  obtain ⟨c1, c2, c3, c4, c5, c6, c7, c8, c9⟩ := canonical_names
  have hvalid : ∀ name ∈ copied p, name.toList.all validHeaderFieldByte = true := by
    cases p with
    | zipkin id128 shared =>
      rw [copied]
      decide +kernel
    | openTelemetry => decide +kernel
  have hid : "x-request-id".toList.all validHeaderFieldByte = true := by decide +kernel
  have hid' : canonicalMIMEHeaderKey "x-request-id" = "X-Request-Id" := by decide +kernel
  have hother : canonicalMIMEHeaderKey key ≠ canonicalMIMEHeaderKey "x-request-id" := by
    rw [hid']
    cases p with
    | zipkin id128 shared =>
      simp only [reads, List.mem_cons, List.not_mem_nil, or_false] at hkey
      rcases hkey with rfl | rfl | rfl | rfl | rfl | rfl
      all_goals simp [c1, c2, c3, c4, c5, c6]
    | openTelemetry =>
      simp only [reads, List.mem_cons, List.not_mem_nil, or_false] at hkey
      rcases hkey with rfl | rfl
      all_goals simp [c7, c8]
  rw [traceH2_eq]
  apply get_foldl_copyH2Header _ _ hvalid
  rw [get_upsertH2Header_of_ne hid fields _ hother, ← OrderedHeaders.get_toHTTPHeader]
  have hempty := get_eq_empty_of_inject hkey (h := fields.toHTTPHeader)
    (d := decision p fields.toHTTPHeader r)
  cases p with
  | zipkin id128 shared =>
    have hw := b3Written_injectB3 fields.toHTTPHeader
      (decision (.zipkin id128 shared) fields.toHTTPHeader r) id128 shared
    simp only [reads, List.mem_cons, List.not_mem_nil, or_false] at hkey
    rcases hkey with rfl | rfl | rfl | rfl | rfl | rfl
    · exact Or.inl hw.b3.symm
    · exact Or.inr ⟨hempty, "X-B3-TraceId", by simp [copied], rfl⟩
    · exact Or.inr ⟨hempty, "X-B3-SpanId", by simp [copied], rfl⟩
    · exact Or.inr ⟨hempty, "X-B3-ParentSpanId", by simp [copied], rfl⟩
    · exact Or.inr ⟨hempty, "X-B3-Sampled", by simp [copied], rfl⟩
    · exact Or.inl hw.flags.symm
  | openTelemetry =>
    simp only [reads, List.mem_cons, List.not_mem_nil, or_false] at hkey
    rcases hkey with rfl | rfl
    · exact Or.inr ⟨hempty, "Traceparent", by simp [copied], rfl⟩
    · exact Or.inr ⟨hempty, "Tracestate", by simp [copied], rfl⟩

end Written

end Tracing

end EnvoyGo

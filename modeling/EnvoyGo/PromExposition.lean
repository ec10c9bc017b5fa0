import Mathlib.Data.List.Induction
import EnvoyGo.Upsert
import EnvoyGo.PromNames
import EnvoyGo.DynamicStats

/-!
The Prometheus exposition, `internal/stats/prom.go`: the registered metrics in groups of one
Prometheus name, and the metrics that a wasm guest registers.
-/

namespace EnvoyGo.Stats

open Groups

def helpTable : List (String × String) := [
  ("envoy_listener_downstream_cx_total", "Total connections accepted on the listener."),
  ("envoy_listener_downstream_cx_active", "Active connections on the listener."),
  ("envoy_http_downstream_rq_total", "Total requests received by the HTTP connection manager."),
  ("envoy_http_downstream_rq_xx",
    "Requests received by the HTTP connection manager, by response code class."),
  ("envoy_cluster_upstream_rq_total", "Total requests dispatched to upstream clusters."),
  ("envoy_cluster_upstream_rq_xx",
    "Requests dispatched to upstream clusters, by response code class."),
  ("envoy_cluster_upstream_cx_total", "Total connections established to upstream clusters."),
  ("envoy_cluster_upstream_cx_active", "Active connections to upstream clusters."),
  ("envoy_cluster_membership_total", "Number of endpoints in the cluster."),
  ("envoy_server_live", "1 if the server is live, 0 otherwise."),
  ("envoy_server_accesslog_dropped",
    "Total access-log records dropped due to backpressure " ++
      "(per-process aggregate across all sinks)."),
  ("envoy_listener_downstream_pre_cx_timeout",
    "Total listener-filter inspections that exceeded listener_filters_timeout."),
  ("envoy_listener_ssl_connection_error",
    "Downstream TLS handshakes failed with an SSL protocol error."),
  ("envoy_listener_ssl_handshake", "Total successful downstream TLS handshakes on the listener."),
  ("envoy_listener_ssl_fail_verify_error",
    "Downstream TLS handshakes failed because client certificate chain verification failed."),
  ("envoy_listener_ssl_fail_verify_no_cert",
    "Downstream TLS handshakes failed because no client certificate was presented " ++
      "where one was required."),
  ("envoy_listener_ssl_no_certificate",
    "Successful downstream TLS handshakes in which the client presented no certificate."),
  ("envoy_runtime_num_keys", "Number of keys in the active runtime snapshot."),
  ("envoy_runtime_num_layers", "Number of layers in the active runtime snapshot."),
  ("envoy_access_logs_grpc_access_log_logs_written",
    "Total access-log records written by the gRPC access logger."),
  ("envoy_access_logs_grpc_access_log_logs_dropped",
    "Total access-log records dropped by the gRPC access logger."),
  ("envoy_access_logs_open_telemetry_access_log_logs_written",
    "Total access-log records written by the OpenTelemetry access logger."),
  ("envoy_access_logs_open_telemetry_access_log_logs_dropped",
    "Total access-log records dropped by the OpenTelemetry access logger."),
  ("envoy_tracing_opentelemetry_spans_sent", "Total spans sent by the OpenTelemetry tracer."),
  ("envoy_tracing_opentelemetry_spans_dropped", "Total spans dropped by the OpenTelemetry tracer."),
  ("envoy_tracing_zipkin_spans_sent", "Total spans sent by the Zipkin tracer."),
  ("envoy_tracing_zipkin_spans_dropped", "Total spans dropped by the Zipkin tracer."),
  ("envoy_sds_update_success", "Total SDS secret updates successfully applied."),
  ("envoy_sds_update_failure", "Total SDS secret updates that failed to apply."),
  ("envoy_sds_update_rejected", "Total SDS secret updates rejected as invalid."),
  ("envoy_sds_update_attempt", "Total SDS secret update attempts initiated."),
  ("envoy_sds_init_fetch_timeout", "Total SDS initial-fetch timeouts.")]

def helpOf (name : List Char) : String :=
  ((helpTable.find? (fun e => e.1.toList == name)).map Prod.snd).getD (String.ofList name)

structure PromLine where
  labels : List Label
  value : Value

structure PromGroup where
  name : List Char
  mtype : MetricType
  help : String
  entries : List PromLine

/-- One call of the `Walk` callback.  The type of a group is that of its first metric. -/
def addMetric (groups : List PromGroup) (m : Metric) : List PromGroup :=
  match flattenToProm m.name.chars with
  | .error _ => groups
  | .ok (base, labels) =>
    upsert PromGroup.name base
      { name := base, mtype := m.type, help := helpOf base, entries := [⟨labels, m.value⟩] }
      (fun g => { g with entries := g.entries ++ [⟨labels, m.value⟩] }) groups

def promGroups (metrics : List Metric) : List PromGroup := metrics.foldl addMetric []

inductive Line
  | help (name : List Char) (text : String)
  | type (name : List Char) (mtype : MetricType)
  | sample (name : List Char) (labels : List Label) (value : Value)
  | blank

def groupLines (g : PromGroup) : List Line :=
  .help g.name g.help :: .type g.name g.mtype ::
    g.entries.map (fun e => .sample g.name e.labels e.value)

def emit : List PromGroup → List Line
  | [] => []
  | [g] => groupLines g
  | g :: h :: gs => groupLines g ++ .blank :: emit (h :: gs)

def nameLe (g h : PromGroup) : Bool := decide (¬String.ofList h.name < String.ofList g.name)

/-- `WriteProm`: the lines of the exposition. -/
def writeProm (r : Registry) : List Line := emit ((promGroups r.metrics).mergeSort nameLe)

def formatValue : Value → List Char
  | .counter v => Text.formatInt v.toNat
  | .gauge v => Text.formatInt v.toInt

def escapeLabelValue (s : List Char) : List Char :=
  s.flatMap (fun c =>
    if c = '\\' ∨ c = '"' then ['\\', c] else if c = '\n' then ['\\', 'n'] else [c])

def labelText (l : Label) : List Char :=
  l.key.toList ++ ['=', '"'] ++ escapeLabelValue l.value ++ ['"']

def Line.text : Line → List Char
  | .help name text => "# HELP ".toList ++ name ++ [' '] ++ text.toList
  | .type name mtype =>
    "# TYPE ".toList ++ name ++ [' '] ++
      (match mtype with
      | .counter => "counter".toList
      | .gauge => "gauge".toList)
  | .sample name [] value => name ++ [' '] ++ formatValue value
  | .sample name labels value =>
    name ++ [Char.ofNat 123] ++ List.intercalate [','] (labels.map labelText) ++
      [Char.ofNat 125, ' '] ++ formatValue value
  | .blank => []

structure Sample where
  name : List Char
  labels : List Label
  value : Value

def Sample.same (a b : Sample) : Prop := a.name = b.name ∧ ∀ l, l ∈ a.labels ↔ l ∈ b.labels

def samplesOf : List Line → List Sample
  | [] => []
  | .sample name labels value :: ls => ⟨name, labels, value⟩ :: samplesOf ls
  | _ :: ls => samplesOf ls

def typesOf : List Line → List (List Char × MetricType)
  | [] => []
  | .type name mtype :: ls => (name, mtype) :: typesOf ls
  | _ :: ls => typesOf ls

def Typed : Option (List Char × MetricType) → List Line → Prop
  | _, [] => True
  | _, .type name mtype :: ls => Typed (some (name, mtype)) ls
  | current, .sample name _ value :: ls => current = some (name, value.type) ∧ Typed current ls
  | current, _ :: ls => Typed current ls

structure WellFormed (ls : List Line) : Prop where
  distinct : (samplesOf ls).Pairwise (fun a b => ¬a.same b)
  oneType : ((typesOf ls).map Prod.fst).Nodup ∧
    ∀ s ∈ samplesOf ls, s.name ∈ (typesOf ls).map Prod.fst
  ofType : Typed none ls

/-- Of two metrics whose names flatten to one Prometheus name, the labels differ and the types do
not. -/
structure Separate (metrics : List Metric) : Prop where
  labels : ∀ m ∈ metrics, ∀ n ∈ metrics, m ≠ n → ∀ base ls ls',
    flattenToProm m.name.chars = .ok (base, ls) → flattenToProm n.name.chars = .ok (base, ls') →
    ¬∀ l, l ∈ ls ↔ l ∈ ls'
  types : ∀ m ∈ metrics, ∀ n ∈ metrics, ∀ base ls ls',
    flattenToProm m.name.chars = .ok (base, ls) → flattenToProm n.name.chars = .ok (base, ls') →
    m.type = n.type

def groupSamples (g : PromGroup) : List Sample :=
  g.entries.map (fun e => ⟨g.name, e.labels, e.value⟩)

def sampleOf (m : Metric) : Option Sample :=
  match flattenToProm m.name.chars with
  | .error _ => none
  | .ok (base, labels) => some ⟨base, labels, m.value⟩

theorem sampleOf_eq_some {m : Metric} {s : Sample} (h : sampleOf m = some s) :
    flattenToProm m.name.chars = .ok (s.name, s.labels) ∧ s.value = m.value := by
  unfold sampleOf at h
  split at h
  · cases h
  · rename_i hflatten
    obtain rfl := Option.some.inj h
    exact ⟨hflatten, rfl⟩

theorem sampleOf_of_flatten {m : Metric} {base : List Char} {labels : List Label}
    (h : flattenToProm m.name.chars = .ok (base, labels)) :
    sampleOf m = some ⟨base, labels, m.value⟩ := by
  rw [sampleOf, h]

def Typable (g : PromGroup) : Prop := ∃ e ∈ g.entries, e.value.type = g.mtype

structure Grouped (metrics : List Metric) (groups : List PromGroup) : Prop where
  names : (groups.map PromGroup.name).Nodup
  typable : ∀ g ∈ groups, Typable g
  samples : (groups.flatMap groupSamples).Perm (metrics.filterMap sampleOf)

variable {metrics : List Metric} {groups : List PromGroup}

theorem Grouped.addMetric (h : Grouped metrics groups) (m : Metric) :
    Grouped (metrics ++ [m]) (addMetric groups m) := by
  unfold Stats.addMetric
  cases hflatten : flattenToProm m.name.chars with
  | error err =>
    have hnone : sampleOf m = none := by rw [sampleOf, hflatten]
    refine ⟨h.names, h.typable, ?_⟩
    rw [List.filterMap_append, List.filterMap_cons_none hnone, List.filterMap_nil,
      List.append_nil]
    exact h.samples
  | ok flat =>
    obtain ⟨base, labels⟩ := flat
    refine ⟨?_, ?_, ?_⟩
    · refine nodup_keys_upsert PromGroup.name ?_ ?_ h.names
      · rfl
      · exact fun _ => rfl
    · apply forall_upsert PromGroup.name _ _ h.typable
      · exact ⟨⟨labels, m.value⟩, List.mem_singleton.mpr rfl, rfl⟩
      · rintro g - ⟨e, he, htype⟩
        exact ⟨e, List.mem_append_left _ he, htype⟩
    · rw [List.filterMap_append, List.filterMap_cons_some (sampleOf_of_flatten hflatten),
        List.filterMap_nil]
      refine (flatMap_upsert_perm PromGroup.name ?_ ?_ groups).trans (h.samples.append_right _)
      · rfl
      · rintro g rfl
        rw [groupSamples, List.map_append]
        rfl

theorem grouped_promGroups (metrics : List Metric) : Grouped metrics (promGroups metrics) := by
  induction metrics using List.reverseRecOn with
  | nil => exact ⟨List.nodup_nil, fun _ hg => absurd hg List.not_mem_nil, List.Perm.refl _⟩
  | append_singleton metrics m ih =>
    rw [promGroups, List.foldl_append]
    exact ih.addMetric m

theorem Grouped.perm {groups' : List PromGroup} (h : Grouped metrics groups)
    (hperm : groups'.Perm groups) : Grouped metrics groups' where
  names := (hperm.map PromGroup.name).nodup_iff.mpr h.names
  typable g hg := h.typable g (hperm.mem_iff.mp hg)
  samples := (hperm.flatMap_right groupSamples).trans h.samples

theorem samplesOf_append (ls ls' : List Line) :
    samplesOf (ls ++ ls') = samplesOf ls ++ samplesOf ls' := by
  induction ls with
  | nil => rfl
  | cons l ls ih =>
    cases l with
    | sample name labels value => exact congrArg _ ih
    | help name text => exact ih
    | type name mtype => exact ih
    | blank => exact ih

theorem typesOf_append (ls ls' : List Line) :
    typesOf (ls ++ ls') = typesOf ls ++ typesOf ls' := by
  induction ls with
  | nil => rfl
  | cons l ls ih =>
    cases l with
    | type name mtype => exact congrArg _ ih
    | sample name labels value => exact ih
    | help name text => exact ih
    | blank => exact ih

theorem samplesOf_groupLines (g : PromGroup) : samplesOf (groupLines g) = groupSamples g := by
  change samplesOf (g.entries.map _) = g.entries.map _
  induction g.entries with
  | nil => rfl
  | cons e es ih => exact congrArg _ ih

theorem typesOf_groupLines (g : PromGroup) : typesOf (groupLines g) = [(g.name, g.mtype)] := by
  change (g.name, g.mtype) :: typesOf (g.entries.map _) = _
  congr 1
  induction g.entries with
  | nil => rfl
  | cons e es ih => exact ih

theorem samplesOf_emit (groups : List PromGroup) :
    samplesOf (emit groups) = groups.flatMap groupSamples := by
  induction groups using emit.induct with
  | case1 => rfl
  | case2 g => rw [emit, samplesOf_groupLines, List.flatMap_singleton]
  | case3 g h gs ih =>
    rw [emit, samplesOf_append, samplesOf_groupLines, List.flatMap_cons]
    exact congrArg _ ih

theorem typesOf_emit (groups : List PromGroup) :
    typesOf (emit groups) = groups.map (fun g => (g.name, g.mtype)) := by
  induction groups using emit.induct with
  | case1 => rfl
  | case2 g => rw [emit, typesOf_groupLines, List.map_singleton]
  | case3 g h gs ih =>
    rw [emit, typesOf_append, typesOf_groupLines, List.map_cons]
    exact congrArg _ ih

theorem typed_entries (name : List Char) (mtype : MetricType) (entries : List PromLine)
    (ls : List Line) :
    Typed (some (name, mtype))
        (entries.map (fun e => .sample name e.labels e.value) ++ ls) ↔
      (∀ e ∈ entries, e.value.type = mtype) ∧ Typed (some (name, mtype)) ls := by
  induction entries with
  | nil => simp
  | cons e es ih =>
    rw [List.map_cons, List.cons_append, Typed, ih, List.forall_mem_cons, and_assoc]
    have hhead : some (name, mtype) = some (name, e.value.type) ↔ e.value.type = mtype := by
      simp [eq_comm]
    rw [hhead]

theorem typed_emit (groups : List PromGroup) (current : Option (List Char × MetricType)) :
    Typed current (emit groups) ↔ ∀ g ∈ groups, ∀ e ∈ g.entries, e.value.type = g.mtype := by
  induction groups using emit.induct generalizing current with
  | case1 => simp [emit, Typed]
  | case2 g =>
    have hentries := typed_entries g.name g.mtype g.entries []
    rw [List.append_nil] at hentries
    change Typed (some (g.name, g.mtype)) (g.entries.map _) ↔ _
    rw [hentries, Typed, and_true, List.forall_mem_singleton]
  | case3 g h gs ih =>
    change Typed (some (g.name, g.mtype)) (g.entries.map _ ++ .blank :: emit (h :: gs)) ↔ _
    rw [typed_entries, List.forall_mem_cons]
    exact and_congr_right (fun _ => ih _)

theorem nodup_metrics (r : Registry) : r.metrics.Nodup := List.Nodup.of_map _ r.unique

theorem distinct_iff (r : Registry) :
    (r.metrics.filterMap sampleOf).Pairwise (fun a b => ¬a.same b) ↔
      ∀ m ∈ r.metrics, ∀ n ∈ r.metrics, m ≠ n → ∀ base ls ls',
        flattenToProm m.name.chars = .ok (base, ls) →
        flattenToProm n.name.chars = .ok (base, ls') → ¬∀ l, l ∈ ls ↔ l ∈ ls' := by
  rw [List.pairwise_filterMap]
  have hsymm : Std.Symm (fun m n : Metric =>
      ∀ a, sampleOf m = some a → ∀ b, sampleOf n = some b → ¬a.same b) := by
    constructor
    intro m n h b hb a ha hsame
    exact h a ha b hb ⟨hsame.1.symm, fun l => (hsame.2 l).symm⟩
  constructor
  · intro h m hm n hn hne base ls ls' hflat hflat' hlabels
    exact h.forall hm hn hne _ (sampleOf_of_flatten hflat) _ (sampleOf_of_flatten hflat')
      ⟨rfl, hlabels⟩
  · intro h
    apply (nodup_metrics r).pairwise_of_forall_ne
    intro m hm n hn hne a ha b hb hsame
    obtain ⟨hflat, -⟩ := sampleOf_eq_some ha
    obtain ⟨hflat', -⟩ := sampleOf_eq_some hb
    rw [← hsame.1] at hflat'
    exact h m hm n hn hne _ _ _ hflat hflat' hsame.2

theorem Grouped.metric_of_entry (h : Grouped metrics groups) {g : PromGroup} (hg : g ∈ groups)
    {e : PromLine} (he : e ∈ g.entries) :
    ∃ m ∈ metrics, flattenToProm m.name.chars = .ok (g.name, e.labels) ∧
      m.type = e.value.type := by
  have hsample : (⟨g.name, e.labels, e.value⟩ : Sample) ∈ groups.flatMap groupSamples :=
    List.mem_flatMap.mpr ⟨g, hg, List.mem_map.mpr ⟨e, he, rfl⟩⟩
  obtain ⟨m, hm, hs⟩ := List.mem_filterMap.mp (h.samples.mem_iff.mp hsample)
  obtain ⟨hflat, hvalue⟩ := sampleOf_eq_some hs
  exact ⟨m, hm, hflat, congrArg Value.type hvalue.symm⟩

theorem Grouped.entry_of_metric (h : Grouped metrics groups) {m : Metric} (hm : m ∈ metrics)
    {base : List Char} {labels : List Label}
    (hflat : flattenToProm m.name.chars = .ok (base, labels)) :
    ∃ g ∈ groups, g.name = base ∧ (⟨labels, m.value⟩ : PromLine) ∈ g.entries := by
  have hsample : (⟨base, labels, m.value⟩ : Sample) ∈ metrics.filterMap sampleOf :=
    List.mem_filterMap.mpr ⟨m, hm, sampleOf_of_flatten hflat⟩
  obtain ⟨g, hg, hs⟩ := List.mem_flatMap.mp (h.samples.mem_iff.mpr hsample)
  obtain ⟨e, he, heq⟩ := List.mem_map.mp hs
  obtain ⟨hname, hlabels, hvalue⟩ := Sample.mk.inj heq
  refine ⟨g, hg, hname, ?_⟩
  rw [← hlabels, ← hvalue]
  exact he

theorem Grouped.types_iff (h : Grouped metrics groups) :
    (∀ g ∈ groups, ∀ e ∈ g.entries, e.value.type = g.mtype) ↔
      ∀ m ∈ metrics, ∀ n ∈ metrics, ∀ base ls ls',
        flattenToProm m.name.chars = .ok (base, ls) →
        flattenToProm n.name.chars = .ok (base, ls') → m.type = n.type := by
  constructor
  · intro htyped m hm n hn base ls ls' hflat hflat'
    obtain ⟨g, hg, hname, he⟩ := h.entry_of_metric hm hflat
    obtain ⟨g', hg', hname', he'⟩ := h.entry_of_metric hn hflat'
    have hsame : g = g' := List.inj_on_of_nodup_map h.names hg hg' (hname.trans hname'.symm)
    subst hsame
    exact (htyped g hg _ he).trans (htyped g hg _ he').symm
  · intro htypes g hg e he
    obtain ⟨first, hfirst, hmtype⟩ := h.typable g hg
    obtain ⟨m, hm, hflat, htype⟩ := h.metric_of_entry hg he
    obtain ⟨n, hn, hflat', htype'⟩ := h.metric_of_entry hg hfirst
    calc e.value.type = m.type := htype.symm
      _ = n.type := htypes m hm n hn _ _ _ hflat hflat'
      _ = first.value.type := htype'
      _ = g.mtype := hmtype

theorem Grouped.wellFormed_iff {r : Registry} (h : Grouped r.metrics groups) :
    WellFormed (emit groups) ↔ Separate r.metrics := by
  have hsymm : ∀ {a b : Sample}, ¬a.same b → ¬b.same a :=
    fun hne hsame => hne ⟨hsame.1.symm, fun l => (hsame.2 l).symm⟩
  have hpairwise : (samplesOf (emit groups)).Pairwise (fun a b => ¬a.same b) ↔
      (r.metrics.filterMap sampleOf).Pairwise (fun a b => ¬a.same b) := by
    rw [samplesOf_emit]
    exact h.samples.pairwise_iff hsymm
  have htypes : (typesOf (emit groups)).map Prod.fst = groups.map PromGroup.name := by
    rw [typesOf_emit, List.map_map]
    rfl
  constructor
  · rintro ⟨hdistinct, -, htyped⟩
    exact ⟨(distinct_iff r).mp (hpairwise.mp hdistinct),
      h.types_iff.mp ((typed_emit groups none).mp htyped)⟩
  · rintro ⟨hlabels, hsame⟩
    refine ⟨hpairwise.mpr ((distinct_iff r).mpr hlabels), ?_,
      (typed_emit groups none).mpr (h.types_iff.mpr hsame)⟩
    rw [htypes, samplesOf_emit]
    refine ⟨h.names, ?_⟩
    intro s hs
    obtain ⟨g, hg, hs⟩ := List.mem_flatMap.mp hs
    obtain ⟨e, -, rfl⟩ := List.mem_map.mp hs
    exact List.mem_map_of_mem hg

/-- The exposition of a registry is well formed exactly when no two of its names flatten to one
Prometheus name with the same labels, or with different types. -/
theorem exposition_wellFormed_iff (r : Registry) :
    WellFormed (writeProm r) ↔ Separate r.metrics :=
  ((grouped_promGroups r.metrics).perm (List.mergeSort_perm _ _)).wellFormed_iff

def dottedCounter : Metric := ⟨⟨"wasm.p.wasmcustom.a.b".toList, by decide +kernel⟩, .counter 0⟩

def underscoredGauge : Metric := ⟨⟨"wasm.p.wasmcustom.a_b".toList, by decide +kernel⟩, .gauge 0⟩

def guestCounter : GuestRegistry where
  parent := ⟨[dottedCounter], false, List.nodup_singleton _⟩
  pluginScopePrefix := "wasm.p".toList
  maxEntries := 10
  entries := [⟨"a.b".toList, .counter⟩]

def guestGauge : GuestRegistry where
  parent := ⟨[dottedCounter, underscoredGauge], false, by decide +kernel⟩
  pluginScopePrefix := "wasm.p".toList
  maxEntries := 10
  entries := [⟨"a.b".toList, .counter⟩, ⟨"a_b".toList, .gauge⟩]

theorem guest_names_collide :
    (GuestRegistry.mk Registry.new "wasm.p".toList 10 []).register 0 "a.b".toList =
      .ok (1, guestCounter) ∧
    guestCounter.register 1 "a_b".toList = .ok (2, guestGauge) ∧
    ¬WellFormed (writeProm guestGauge.parent) := by
  refine ⟨by decide +kernel, by decide +kernel, ?_⟩
  intro h
  have hgrouped := (grouped_promGroups guestGauge.parent.metrics).perm
    (List.mergeSort_perm (promGroups guestGauge.parent.metrics) nameLe)
  have hseparate : Separate [dottedCounter, underscoredGauge] := hgrouped.wellFormed_iff.mp h
  have hflat : flattenToProm dottedCounter.name.chars =
      .ok ("envoy_wasm_p_wasmcustom_a_b".toList, []) := by decide +kernel
  have hflat' : flattenToProm underscoredGauge.name.chars =
      .ok ("envoy_wasm_p_wasmcustom_a_b".toList, []) := by decide +kernel
  have htypes : MetricType.counter = MetricType.gauge :=
    hseparate.types dottedCounter List.mem_cons_self underscoredGauge
      (List.mem_cons_of_mem _ List.mem_cons_self) _ _ _ hflat hflat'
  cases htypes

end EnvoyGo.Stats

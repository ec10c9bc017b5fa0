import EnvoyGo.TraceHop

/-!
When the next hop continues the trace with what this proxy injected.
-/

namespace EnvoyGo.Tracing

open EnvoyGo.Text

section Hex

theorem hexValue_hexDigit {n : ℕ} (hn : n < 16) : hexValue (hexDigit n) = some n := by
  have hall : ∀ i : Fin 16, hexValue (hexDigit i.val) = some i.val := by decide +kernel
  exact hall ⟨n, hn⟩

theorem hexDigit_ne_dash {n : ℕ} (hn : n < 16) : hexDigit n ≠ '-' := by
  have hall : ∀ i : Fin 16, hexDigit i.val ≠ '-' := by decide +kernel
  exact hall ⟨n, hn⟩

theorem hexDecode_hexEncode (bs : Bytes) : hexDecode (hexEncode bs) = some bs := by
  induction bs with
  | nil => rfl
  | cons b bs ih =>
    have hb := b.toNat_lt
    have hhigh : b.toNat / 16 < 16 := by omega
    have hlow : b.toNat % 16 < 16 := by omega
    have hbyte : UInt8.ofNat (16*(b.toNat / 16) + b.toNat % 16) = b := by
      rw [Nat.div_add_mod]
      exact UInt8.ofNat_toNat
    show hexDecode (hexDigit _ :: hexDigit _ :: hexEncode bs) = _
    rw [hexDecode, hexValue_hexDigit hhigh, hexValue_hexDigit hlow, ih]
    simp only [Option.map_some, hbyte]

theorem length_hexEncode (bs : Bytes) : (hexEncode bs).length = 2*bs.length := by
  induction bs with
  | nil => rfl
  | cons b bs ih =>
    show (hexEncode bs).length + 1 + 1 = 2*(bs.length + 1)
    omega

theorem dash_notMem_hexEncode (bs : Bytes) : '-' ∉ hexEncode bs := by
  intro h
  obtain ⟨b, -, hb⟩ := List.mem_flatMap.mp h
  have hlt := b.toNat_lt
  simp only [List.mem_cons, List.not_mem_nil, or_false] at hb
  rcases hb with hb | hb
  · exact hexDigit_ne_dash (by omega) hb.symm
  · exact hexDigit_ne_dash (by omega) hb.symm

theorem ofHex_hexEncode {n : ℕ} (b : Id n) : Id.ofHex n (hexEncode b.bytes) = some b := by
  rw [Id.ofHex, hexDecode_hexEncode, Option.bind_some, Id.ofBytes, dif_pos b.size]

theorem decodeB3SpanID_hexEncode (b : Id 8) : decodeB3SpanID (hexEncode b.bytes) = nonzero b := by
  have hlen : (hexEncode b.bytes).length = 16 := by rw [length_hexEncode, b.size]
  rw [decodeB3SpanID, if_pos hlen, ofHex_hexEncode, Option.bind_some]

def sentTrace (t : Id 16) (id128 : Bool) : Id 16 := if id128 then t else Id.ofLow t.low

theorem decodeB3TraceID_traceIDHex (t : Id 16) (id128 : Bool) :
    decodeB3TraceID (traceIDHex t id128) = nonzero (sentTrace t id128) := by
  cases id128 with
  | true =>
    have hlen : (hexEncode t.bytes).length = 32 := by rw [length_hexEncode, t.size]
    show decodeB3TraceID (hexEncode t.bytes) = nonzero t
    rw [decodeB3TraceID, hlen, if_neg (by decide), if_pos rfl, ofHex_hexEncode,
      Option.bind_some]
  | false =>
    have hlen : (hexEncode t.low.bytes).length = 16 := by rw [length_hexEncode, t.low.size]
    show decodeB3TraceID (hexEncode t.low.bytes) = nonzero (Id.ofLow t.low)
    rw [decodeB3TraceID, if_pos hlen, ofHex_hexEncode, Option.map_some, Option.bind_some]

theorem nonzero_eq_some_iff {n : ℕ} {a b : Id n} :
    nonzero a = some b ↔ a = b ∧ a ≠ Id.zero n := by
  rw [nonzero]
  by_cases ha : a = Id.zero n
  · rw [if_pos ha]
    exact ⟨(fun h => by cases h), fun h => absurd ha h.2⟩
  · rw [if_neg ha]
    exact ⟨fun h => ⟨Option.some.inj h, ha⟩, fun h => congrArg some h.1⟩

end Hex

/-- What the proxy injects for a decision. -/
def chosen : Provider → Decision → TraceContext
  | .zipkin id128 shared, d =>
    ⟨sentTrace d.traceID id128, (zipkinIdentity d shared).1, d.sample, ""⟩
  | .openTelemetry, d => ⟨d.traceID, d.spanID, d.sample, d.traceState⟩

section B3

def ParentReads (v : String) : Prop := v = "" ∨ (decodeB3SpanID v.toList).isSome = true

instance (v : String) : Decidable (ParentReads v) := inferInstanceAs (Decidable (_ ∨ _))

theorem b3Parent_isSome_iff (v : String) :
    b3Parent (if v = "" then none else some v.toList) = some () ↔ ParentReads v := by
  rw [ParentReads]
  by_cases hv : v = ""
  · rw [if_pos hv]
    exact ⟨fun _ => Or.inl hv, fun _ => rfl⟩
  · rw [if_neg hv, b3Parent]
    cases decodeB3SpanID v.toList with
    | none => exact ⟨(fun h => by cases h), fun h => absurd h (by simp [hv])⟩
    | some b => exact ⟨fun _ => Or.inr rfl, fun _ => rfl⟩

theorem extractB3Multi_eq_some_iff (get : String → String) (c : TraceContext) :
    extractB3Multi get = some c ↔
      get "X-B3-TraceId" ≠ "" ∧ get "X-B3-SpanId" ≠ "" ∧
      decodeB3TraceID (get "X-B3-TraceId").toList = some c.traceID ∧
      decodeB3SpanID (get "X-B3-SpanId").toList = some c.parentID ∧
      ParentReads (get "X-B3-ParentSpanId") ∧
      c.sampled = (get "X-B3-Sampled" == "1" || get "X-B3-Flags" == "1") ∧
      c.traceState = "" := by
  rw [extractB3Multi, ← b3Parent_isSome_iff]
  by_cases hempty : get "X-B3-TraceId" = "" ∨ get "X-B3-SpanId" = ""
  · rw [if_pos hempty]
    constructor
    · intro h
      cases h
    · rintro ⟨htrace, hspan, -⟩
      exact absurd hempty (not_or.mpr ⟨htrace, hspan⟩)
  rw [if_neg hempty]
  obtain ⟨htrace, hspan⟩ := not_or.mp hempty
  cases decodeB3TraceID (get "X-B3-TraceId").toList with
  | none => simp
  | some t =>
    cases decodeB3SpanID (get "X-B3-SpanId").toList with
    | none => simp
    | some b =>
      cases b3Parent (if get "X-B3-ParentSpanId" = "" then none
          else some (get "X-B3-ParentSpanId").toList) with
      | none => simp
      | some u =>
        constructor
        · intro h
          have hc : (⟨t, b, _, ""⟩ : TraceContext) = c := Option.some.inj h
          subst hc
          exact ⟨htrace, hspan, rfl, rfl, rfl, rfl, rfl⟩
        · rintro ⟨-, -, ht, hb, -, hsampled, hstate⟩
          obtain ⟨ct, cb, cs, cst⟩ := c
          obtain rfl : t = ct := Option.some.inj ht
          obtain rfl : b = cb := Option.some.inj hb
          dsimp only at hsampled hstate
          subst hsampled hstate
          rfl

theorem decodeB3SpanID_ne_zero {s : List Char} {b : Id 8} (h : decodeB3SpanID s = some b) :
    b ≠ Id.zero 8 := by
  rw [decodeB3SpanID] at h
  split at h
  · obtain ⟨a, -, ha⟩ := Option.bind_eq_some_iff.mp h
    obtain ⟨rfl, hne⟩ := nonzero_eq_some_iff.mp ha
    exact hne
  · cases h

theorem decodeB3TraceID_ne_zero {s : List Char} {t : Id 16} (h : decodeB3TraceID s = some t) :
    t ≠ Id.zero 16 := by
  rw [decodeB3TraceID] at h
  split at h
  · obtain ⟨a, -, ha⟩ := Option.bind_eq_some_iff.mp h
    obtain ⟨rfl, hne⟩ := nonzero_eq_some_iff.mp ha
    exact hne
  split at h
  · obtain ⟨a, -, ha⟩ := Option.bind_eq_some_iff.mp h
    obtain ⟨rfl, hne⟩ := nonzero_eq_some_iff.mp ha
    exact hne
  · cases h

theorem extractB3Single_spec {v : String} {c : TraceContext} (h : extractB3Single v = some c) :
    c.parentID ≠ Id.zero 8 ∧ c.traceState = "" := by
  rw [extractB3Single] at h
  split at h
  · cases h
  · obtain ⟨t, -, h⟩ := Option.bind_eq_some_iff.mp h
    obtain ⟨b, hb, h⟩ := Option.bind_eq_some_iff.mp h
    obtain ⟨sampled, -, h⟩ := Option.bind_eq_some_iff.mp h
    obtain ⟨u, -, h⟩ := Option.bind_eq_some_iff.mp h
    obtain rfl := Option.some.inj h
    exact ⟨decodeB3SpanID_ne_zero hb, rfl⟩

variable {old new : String → String} {d : Decision} {id128 shared : Bool}

theorem B3Written.multi_iff (h : B3Written old new d id128 shared) :
    extractB3Multi new = some (chosen (.zipkin id128 shared) d) ↔
      sentTrace d.traceID id128 ≠ Id.zero 16 ∧ (zipkinIdentity d shared).1 ≠ Id.zero 8 ∧
      ParentReads (new "X-B3-ParentSpanId") ∧ (old "X-B3-Flags" = "1" → d.sample = true) := by
  have hsampled : (d.sample = (new "X-B3-Sampled" == "1" || new "X-B3-Flags" == "1")) ↔
      (old "X-B3-Flags" = "1" → d.sample = true) := by
    rw [h.sampled, h.flags]
    cases d.sample with
    | true => simp
    | false => simp
  rw [extractB3Multi_eq_some_iff, h.traceID, h.spanID, String.toList_ofList, String.toList_ofList,
    decodeB3TraceID_traceIDHex, decodeB3SpanID_hexEncode, nonzero_eq_some_iff, nonzero_eq_some_iff]
  show _ ∧ _ ∧ (_ ∧ _) ∧ (_ ∧ _) ∧ _ ∧ (d.sample = _) ∧ _ ↔ _
  rw [hsampled]
  constructor
  · rintro ⟨-, -, ⟨-, htrace⟩, ⟨-, hspan⟩, hparent, hflags, -⟩
    exact ⟨htrace, hspan, hparent, hflags⟩
  · rintro ⟨htrace, hspan, hparent, hflags⟩
    exact ⟨traceIDHex_ne_empty _ _, hexEncode_id_ne_empty _, ⟨rfl, htrace⟩, ⟨rfl, hspan⟩, hparent,
      hflags, rfl⟩

end B3

section W3C

def flagsHex (sampled : Bool) : List Char := if sampled then ['0', '1'] else ['0', '0']

theorem split_traceparent (t : Id 16) (b : Id 8) (sampled : Bool) :
    split '-' (traceparent t b sampled).toList =
      [['0', '0'], hexEncode t.bytes, hexEncode b.bytes, flagsHex sampled] := by
  have htext : (traceparent t b sampled).toList =
      ['0', '0'] ++ '-' :: (hexEncode t.bytes ++ '-' ::
        (hexEncode b.bytes ++ '-' :: flagsHex sampled)) := by
    simp [traceparent, flagsHex]
  have hflags : '-' ∉ flagsHex sampled := by
    cases sampled with
    | true => decide
    | false => decide
  rw [htext, split_append_cons '-' _ _ (by decide),
    split_append_cons '-' _ _ (dash_notMem_hexEncode t.bytes),
    split_append_cons '-' _ _ (dash_notMem_hexEncode b.bytes), split_of_not_mem '-' _ hflags]

theorem extractTraceparent_injected {get : String → String} {t : Id 16} {b : Id 8} {sampled : Bool}
    (h : get "Traceparent" = traceparent t b sampled) :
    extractTraceparent get =
      if t = Id.zero 16 ∨ b = Id.zero 8 then none
      else some ⟨t, b, sampled, get "Tracestate"⟩ := by
  have hflags : hexDecode (flagsHex sampled) = some [if sampled then 1 else 0] := by
    cases sampled with
    | true => decide +kernel
    | false => decide +kernel
  have hbit : ((([if sampled then 1 else 0] : Bytes).headD 0).toNat % 2 == 1) = sampled := by
    cases sampled with
    | true => rfl
    | false => rfl
  have hlen : (flagsHex sampled).length = 2 := by
    cases sampled with
    | true => rfl
    | false => rfl
  have htrace : (hexEncode t.bytes).length = 32 := by rw [length_hexEncode, t.size]
  have hspan : (hexEncode b.bytes).length = 16 := by rw [length_hexEncode, b.size]
  rw [extractTraceparent, h, split_traceparent]
  simp only [traceparent_ne_empty, List.length_cons, List.length_nil, List.getD_cons_zero,
    List.getD_cons_succ, htrace, hspan, hlen, ofHex_hexEncode, hflags, Option.bind_eq_bind,
    Option.bind_some, hbit]
  simp

theorem extractTraceparent_ne_zero {get : String → String} {c : TraceContext}
    (h : extractTraceparent get = some c) :
    c.traceID ≠ Id.zero 16 ∧ c.traceState = get "Tracestate" := by
  rw [extractTraceparent] at h
  split at h
  · cases h
  split at h
  · cases h
  · obtain ⟨t, -, h⟩ := Option.bind_eq_some_iff.mp h
    obtain ⟨b, -, h⟩ := Option.bind_eq_some_iff.mp h
    obtain ⟨flags, -, h⟩ := Option.bind_eq_some_iff.mp h
    split at h
    · cases h
    · rename_i hne
      obtain rfl := Option.some.inj h
      exact ⟨(not_or.mp hne).1, rfl⟩

end W3C

section Survival

theorem Id.ext_bytes {n : ℕ} {a b : Id n} (h : a.bytes = b.bytes) : a = b := by
  obtain ⟨a, ha⟩ := a
  obtain ⟨b, hb⟩ := b
  subst h
  rfl

theorem ofLow_ne_zero_iff (b : Id 8) : Id.ofLow b ≠ Id.zero 16 ↔ b ≠ Id.zero 8 := by
  apply not_congr
  constructor
  · intro h
    have hbytes : List.replicate 8 0 ++ b.bytes = List.replicate 8 0 ++ List.replicate 8 0 :=
      congrArg Id.bytes h
    exact Id.ext_bytes (List.append_cancel_left hbytes)
  · rintro rfl
    rfl

theorem sentTrace_ne_zero_iff {t : Id 16} (ht : t ≠ Id.zero 16) (id128 : Bool) :
    sentTrace t id128 ≠ Id.zero 16 ↔ id128 = true ∨ t.low ≠ Id.zero 8 := by
  cases id128 with
  | true => exact ⟨fun _ => Or.inl rfl, fun _ => ht⟩
  | false =>
    show Id.ofLow t.low ≠ Id.zero 16 ↔ _
    rw [ofLow_ne_zero_iff]
    exact ⟨Or.inr, fun h => h.resolve_left Bool.false_ne_true⟩

/-- When the trace context survives, in terms of the inbound headers and the random draws. -/
def Survives (p : Provider) (get : String → String) (r : Draws) : Prop :=
  match p with
  | .zipkin id128 shared =>
    if get "B3" ≠ "" then
      match extractB3Single (get "B3") with
      | none => False
      | some c =>
        (id128 = true ∨ c.traceID = Id.ofLow c.traceID.low) ∧
          (shared = true ∨ r.spanID = c.parentID)
    else
      match extractB3Multi get with
      | some c =>
        (id128 = true ∨ c.traceID.low ≠ Id.zero 8) ∧ (shared = true ∨ r.spanID ≠ Id.zero 8)
      | none =>
        sentTrace r.traceID id128 ≠ Id.zero 16 ∧ r.spanID ≠ Id.zero 8 ∧
          ParentReads (get "X-B3-ParentSpanId") ∧
          (get "X-B3-Flags" = "1" → ((localSample get r).1 && r.overall) = true)
  | .openTelemetry =>
    match extractTraceparent get with
    | some _ => r.spanID ≠ Id.zero 8
    | none => r.traceID ≠ Id.zero 16 ∧ r.spanID ≠ Id.zero 8 ∧ get "Tracestate" = ""

variable (h : Header) (r : Draws) (id128 shared : Bool)

theorem zipkinIdentity_fresh {d : Decision} (hd : d.parentSpanID = Id.zero 8) :
    zipkinIdentity d shared = (d.spanID, none) := by
  rw [zipkinIdentity, if_pos hd]

theorem zipkinIdentity_continued {d : Decision} (hd : d.parentSpanID ≠ Id.zero 8) :
    zipkinIdentity d shared =
      if shared then (d.parentSpanID, none) else (d.spanID, some d.parentSpanID) := by
  rw [zipkinIdentity, if_neg hd]

theorem single_survives_iff (hb3 : h.get "B3" ≠ "") :
    extractB3 (inject (.zipkin id128 shared) h (decision (.zipkin id128 shared) h r)).get =
        some (chosen (.zipkin id128 shared) (decision (.zipkin id128 shared) h r)) ↔
      Survives (.zipkin id128 shared) h.get r := by
  have hw := b3Written_injectB3 h (decision (.zipkin id128 shared) h r) id128 shared
  have hnext : extractB3 (inject (.zipkin id128 shared) h
      (decision (.zipkin id128 shared) h r)).get = extractB3Single (h.get "B3") := by
    have hb3' : (inject (.zipkin id128 shared) h
        (decision (.zipkin id128 shared) h r)).get "B3" = h.get "B3" := hw.b3
    rw [extractB3, hb3', if_pos hb3]
  have hextract : extract (.zipkin id128 shared) h.get = extractB3Single (h.get "B3") := by
    rw [extract, extractB3, if_pos hb3]
  rw [hnext]
  simp only [Survives, if_pos hb3, decision, hextract]
  cases hsingle : extractB3Single (h.get "B3") with
  | none => exact ⟨(fun hx => by cases hx), (fun hx => hx.elim)⟩
  | some c =>
    obtain ⟨hparent, hstate⟩ := extractB3Single_spec hsingle
    obtain ⟨ct, cp, cs, cst⟩ := c
    dsimp only at hparent hstate
    subst hstate
    simp only [chosen, decideWithContext, zipkinIdentity, Option.some.injEq,
      TraceContext.mk.injEq, and_true]
    have htrace : ct = sentTrace ct id128 ↔ id128 = true ∨ ct = Id.ofLow ct.low := by
      cases id128 with
      | true => exact ⟨fun _ => Or.inl rfl, fun _ => rfl⟩
      | false => exact ⟨Or.inr, fun hx => hx.resolve_left Bool.false_ne_true⟩
    rw [htrace]
    cases shared with
    | true => simp [hparent]
    | false => simp [hparent, eq_comm]

theorem multi_survives_iff (hb3 : h.get "B3" = "") :
    extractB3 (inject (.zipkin id128 shared) h (decision (.zipkin id128 shared) h r)).get =
        some (chosen (.zipkin id128 shared) (decision (.zipkin id128 shared) h r)) ↔
      Survives (.zipkin id128 shared) h.get r := by
  have hw := b3Written_injectB3 h (decision (.zipkin id128 shared) h r) id128 shared
  have hnext : extractB3 (inject (.zipkin id128 shared) h
      (decision (.zipkin id128 shared) h r)).get =
        extractB3Multi (injectB3 h (decision (.zipkin id128 shared) h r) id128 shared).get := by
    have hb3' : (inject (.zipkin id128 shared) h
        (decision (.zipkin id128 shared) h r)).get "B3" = h.get "B3" := hw.b3
    rw [extractB3, hb3', if_neg (not_not.mpr hb3)]
    rfl
  have hextract : extract (.zipkin id128 shared) h.get = extractB3Multi h.get := by
    rw [extract, extractB3, if_neg (not_not.mpr hb3)]
  rw [hnext, hw.multi_iff]
  have hd : decision (.zipkin id128 shared) h r =
      decideWithContext h.get (extractB3Multi h.get) r := by rw [decision, hextract]
  simp only [Survives, if_neg (not_not.mpr hb3)]
  cases hmulti : extractB3Multi h.get with
  | none =>
    rw [hmulti] at hd
    have hids := zipkinIdentity_fresh shared
      (show (decision (.zipkin id128 shared) h r).parentSpanID = Id.zero 8 by rw [hd]; rfl)
    rw [hw.parentOld (congrArg Prod.snd hids), hids, hd]
    exact Iff.rfl
  | some c =>
    rw [hmulti] at hd
    obtain ⟨-, -, htrace, hspan, hparent, hsampled, -⟩ :=
      (extractB3Multi_eq_some_iff h.get c).mp hmulti
    have hflags : h.get "X-B3-Flags" = "1" → c.sampled = true := by
      intro hf
      rw [hsampled, hf]
      simp
    have hne := decodeB3SpanID_ne_zero hspan
    have hids := zipkinIdentity_continued shared
      (show (decision (.zipkin id128 shared) h r).parentSpanID ≠ Id.zero 8 by rw [hd]; exact hne)
    have hd' : (decision (.zipkin id128 shared) h r).traceID = c.traceID ∧
        (decision (.zipkin id128 shared) h r).sample = c.sampled ∧
        (decision (.zipkin id128 shared) h r).spanID = r.spanID ∧
        (decision (.zipkin id128 shared) h r).parentSpanID = c.parentID := by
      rw [hd]
      exact ⟨rfl, rfl, rfl, rfl⟩
    obtain ⟨hdt, hds, hdspan, hdp⟩ := hd'
    rw [hdt, hds, sentTrace_ne_zero_iff (decodeB3TraceID_ne_zero htrace)]
    cases shared with
    | true =>
      rw [if_pos rfl, hdp] at hids
      rw [hw.parentOld (congrArg Prod.snd hids), hids]
      exact ⟨fun hx => ⟨hx.1, Or.inl rfl⟩, fun hx => ⟨hx.1, hne, hparent, hflags⟩⟩
    | false =>
      rw [if_neg Bool.false_ne_true, hdspan, hdp] at hids
      have hreads : ParentReads (String.ofList (hexEncode c.parentID.bytes)) := by
        apply Or.inr
        rw [String.toList_ofList, decodeB3SpanID_hexEncode, nonzero_eq_some_iff.mpr ⟨rfl, hne⟩]
        rfl
      rw [hw.parentNew _ (congrArg Prod.snd hids), hids]
      exact ⟨fun hx => ⟨hx.1, Or.inr hx.2.1⟩,
        fun hx => ⟨hx.1, hx.2.resolve_left Bool.false_ne_true, hreads, hflags⟩⟩

theorem w3c_survives_iff :
    extractTraceparent (inject .openTelemetry h (decision .openTelemetry h r)).get =
        some (chosen .openTelemetry (decision .openTelemetry h r)) ↔
      Survives .openTelemetry h.get r := by
  have hw := w3cWritten_injectTraceparent h (decision .openTelemetry h r)
  have hnext := extractTraceparent_injected hw.parent
  have hstate := hw.state
  rw [show (inject .openTelemetry h (decision .openTelemetry h r)).get =
    (injectTraceparent h (decision .openTelemetry h r)).get from rfl, hnext, hstate]
  have hd : decision .openTelemetry h r =
      decideWithContext h.get (extractTraceparent h.get) r := rfl
  rw [hd]
  simp only [Survives]
  cases hextract : extractTraceparent h.get with
  | none =>
    simp only [chosen, decideWithContext, if_true]
    by_cases hzero : r.traceID = Id.zero 16 ∨ r.spanID = Id.zero 8
    · rw [if_pos hzero]
      constructor
      · intro hx
        cases hx
      · rintro ⟨htrace, hspan, -⟩
        exact absurd hzero (not_or.mpr ⟨htrace, hspan⟩)
    · rw [if_neg hzero]
      obtain ⟨htrace, hspan⟩ := not_or.mp hzero
      simp [htrace, hspan]
  | some c =>
    obtain ⟨htrace, hcst⟩ := extractTraceparent_ne_zero hextract
    simp only [chosen, decideWithContext]
    by_cases hspan : r.spanID = Id.zero 8
    · simp [hspan]
    · by_cases hempty : c.traceState = ""
      · simp [htrace, hspan, hempty, ← hcst]
      · simp [htrace, hspan, hempty]

theorem inject_survives_iff (p : Provider) :
    extract p (inject p h (decision p h r)).get = some (chosen p (decision p h r)) ↔
      Survives p h.get r := by
  cases p with
  | zipkin id128 shared =>
    by_cases hb3 : h.get "B3" = ""
    · exact multi_survives_iff h r id128 shared hb3
    · exact single_survives_iff h r id128 shared hb3
  | openTelemetry => exact w3c_survives_iff h r

end Survival

/-- A request on either path: the header map of HTTP/1.1, or the fields of HTTP/2. -/
inductive Inbound
  | h1 (h : Header)
  | h2 (fields : OrderedHeaders)

namespace Inbound

/-- The header map that the tracing code of a hop looks at. -/
def view : Inbound → Header
  | .h1 h => h
  | .h2 fields => fields.toHTTPHeader

/-- The request as this hop forwards it. -/
def traced (p : Provider) (r : Draws) : Inbound → Inbound
  | .h1 h => .h1 (traceH1 p h r)
  | .h2 fields => .h2 (traceH2 p fields r)

theorem get_traced (p : Provider) (r : Draws) (m : Inbound) {key : String} (hkey : key ∈ reads p) :
    (m.traced p r).view.get key = (inject p m.view (decision p m.view r)).get key := by
  cases m with
  | h1 h => exact get_traceH1 p h r hkey
  | h2 fields =>
    exact (OrderedHeaders.get_toHTTPHeader _ key).trans (get_traceH2 p fields r hkey)

end Inbound

/-- The next hop reads exactly the context that this proxy chose to inject, on either path, if
and only if the inbound headers and the random draws are such that it survives. -/
theorem context_survives_iff (p : Provider) (m : Inbound) (r : Draws) :
    extract p (m.traced p r).view.get = some (chosen p (decision p m.view r)) ↔
      Survives p m.view.get r := by
  rw [extract_congr p (fun key hkey => m.get_traced p r hkey)]
  exact inject_survives_iff m.view r p

section Stale

def idOf (n : ℕ) (last : UInt8) : Id (n + 1) :=
  ⟨List.replicate n 0 ++ [last], by rw [List.length_append, List.length_replicate]; rfl⟩

def draws : Draws := ⟨idOf 7 3, idOf 15 9, false, false, false, fun _ _ => "id"⟩

def singleHeader : Header :=
  Header.set ∅ "b3" "00000000000000000000000000000001-0000000000000002-1"

/-- The proxy opens span 3 in the trace, and the next hop continues span 2. -/
theorem not_context_survives :
    chosen (.zipkin true false) (decision (.zipkin true false) singleHeader draws) =
        ⟨idOf 15 1, idOf 7 3, true, ""⟩ ∧
      extract (.zipkin true false)
          ((Inbound.h1 singleHeader).traced (.zipkin true false) draws).view.get =
        some ⟨idOf 15 1, idOf 7 2, true, ""⟩ ∧
      ¬∀ (p : Provider) (m : Inbound) (r : Draws),
        extract p (m.traced p r).view.get = some (chosen p (decision p m.view r)) := by
  have hchosen : chosen (.zipkin true false) (decision (.zipkin true false) singleHeader draws) =
      ⟨idOf 15 1, idOf 7 3, true, ""⟩ := by decide +kernel
  have hnext : extract (.zipkin true false)
      ((Inbound.h1 singleHeader).traced (.zipkin true false) draws).view.get =
        some ⟨idOf 15 1, idOf 7 2, true, ""⟩ := by decide +kernel
  refine ⟨hchosen, hnext, ?_⟩
  intro hall
  have hsame := hall (.zipkin true false) (.h1 singleHeader) draws
  rw [hnext] at hsame
  have hspans := hsame.trans (congrArg some hchosen)
  exact absurd hspans (by decide +kernel)

end Stale

end EnvoyGo.Tracing

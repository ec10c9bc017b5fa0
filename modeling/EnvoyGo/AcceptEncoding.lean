import EnvoyGo.CompressorTruth
import EnvoyGo.FirstBest

/-!
What `parseAcceptEncoding` of `internal/filter/http/compressor/acceptencoding.go` selects, over the
members of the header: the first of the largest weight among gzip, identity and the wildcard.
-/

namespace EnvoyGo.Compressor

open EnvoyGo.FirstBest

deriving instance DecidableEq for EncodingEntry

variable {es : List EncodingEntry} {e : EncodingEntry}

/-- The members of the header, in its order; none when it is blank or one of them is malformed. -/
def members (parseFloat : FloatParser) (header : String) : List EncodingEntry :=
  if Text.trimSpace header.toList = [] then []
  else ((Text.split ',' header.toList).mapM (parseEncoding parseFloat)).getD []

/-- Gzip is acceptable to a client that sent these members. -/
def Acceptable (es : List EncodingEntry) : Prop :=
  (∃ e ∈ es, e.coding = "gzip" ∧ 0 < e.qValue) ∨
    ((∀ e ∈ es, e.coding ≠ "gzip") ∧ ∃ e ∈ es, e.coding = "*" ∧ 0 < e.qValue)

/-- Gzip is listed, and only refused. -/
def Refused (es : List EncodingEntry) : Prop :=
  (∃ e ∈ es, e.coding = "gzip") ∧ ∀ e ∈ es, e.coding = "gzip" → e.qValue ≤ 0

/-- A wildcard stands before every identity: with a larger weight, or with the same one and
earlier in the header. -/
def WildcardLeads (es : List EncodingEntry) : Prop :=
  ∃ (i : ℕ) (w : EncodingEntry), es[i]? = some w ∧ w.coding = "*" ∧ 0 < w.qValue ∧
    ∀ (j : ℕ) (e : EncodingEntry), es[j]? = some e → e.coding = "identity" →
      e.qValue < w.qValue ∨ (e.qValue = w.qValue ∧ i < j)

def candidate (e : EncodingEntry) : Bool :=
  decide (0 < e.qValue) && (e.coding == "gzip" || e.coding == "identity" || e.coding == "*")

def selection (e : EncodingEntry) : Option Codec × Classification :=
  if e.coding = "gzip" then (some .gzip, .compressorUsed)
  else if e.coding = "identity" then (none, .identity)
  else (some .gzip, .wildcard)

theorem candidate_iff : candidate e = true ↔
    0 < e.qValue ∧ (e.coding = "gzip" ∨ e.coding = "identity" ∨ e.coding = "*") := by
  unfold candidate
  rw [Bool.and_eq_true, decide_eq_true_iff, Bool.or_eq_true, Bool.or_eq_true, beq_iff_eq,
    beq_iff_eq, beq_iff_eq, or_assoc]

theorem selectable_eq_find? (l : List EncodingEntry) :
    selectable l = (l.find? candidate).map selection := by
  induction l with
  | nil => rfl
  | cons e l ih =>
    rw [selectable, List.find?_cons]
    by_cases hc : candidate e = true
    · obtain ⟨hpos, hkind⟩ := candidate_iff.mp hc
      rw [if_neg (not_le.mpr hpos), hc, Option.map_some, selection]
      by_cases hgzip : e.coding = "gzip"
      · rw [if_pos hgzip, if_pos hgzip]
      · rw [if_neg hgzip, if_neg hgzip]
        by_cases hid : e.coding = "identity"
        · rw [if_pos hid, if_pos hid]
        · have hstar : e.coding = "*" := (hkind.resolve_left hgzip).resolve_left hid
          rw [if_neg hid, if_neg hid, if_pos hstar]
    · rw [Bool.eq_false_iff.mpr hc]
      by_cases hpos : e.qValue ≤ 0
      · rw [if_pos hpos]
        exact ih
      · have hkind : ¬ (e.coding = "gzip" ∨ e.coding = "identity" ∨ e.coding = "*") :=
          fun hk => hc (candidate_iff.mpr ⟨not_le.mp hpos, hk⟩)
        rw [not_or, not_or] at hkind
        rw [if_neg hpos, if_neg hkind.1, if_neg hkind.2.1, if_neg hkind.2.2]
        exact ih

theorem selectByQValue_gzip_iff :
    (selectByQValue (es.insertionSort (fun a b => a.qValue ≥ b.qValue))).1 = some .gzip ↔
      ∃ b, best EncodingEntry.qValue candidate es = some b ∧ b.coding ≠ "identity" := by
  rw [selectByQValue, selectable_eq_find?, find?_insertionSort]
  cases hb : best EncodingEntry.qValue candidate es with
  | none =>
    rw [Option.map_none]
    constructor
    · intro h
      dsimp only at h
      split_ifs at h
    · intro ⟨b, h, _⟩
      cases h
  | some b =>
    rw [Option.map_some]
    dsimp only [selection]
    constructor
    · intro h
      refine ⟨b, rfl, ?_⟩
      intro hid
      rw [hid, if_neg (by decide), if_pos rfl] at h
      cases h
    · intro ⟨b', hb', hid⟩
      have hbb : b = b' := Option.some.inj hb'
      rw [← hbb] at hid
      by_cases hgzip : b.coding = "gzip"
      · rw [if_pos hgzip]
      · rw [if_neg hgzip, if_neg hid]

theorem best_wildcard_iff (hno : ∀ e ∈ es, e.coding = "gzip" → e.qValue ≤ 0) :
    (∃ b, best EncodingEntry.qValue candidate es = some b ∧ b.coding ≠ "identity") ↔
      WildcardLeads es := by
  constructor
  · intro ⟨b, hb, hid⟩
    obtain ⟨i, hi, hcand, hall⟩ := best_first hb
    obtain ⟨hpos, hkind⟩ := candidate_iff.mp hcand
    have hngzip : b.coding ≠ "gzip" :=
      fun h => absurd hpos (not_lt.mpr (hno b (List.mem_of_getElem? hi) h))
    have hstar : b.coding = "*" := (hkind.resolve_left hngzip).resolve_left hid
    refine ⟨i, b, hi, hstar, hpos, ?_⟩
    intro j e hj he
    by_cases hle : e.qValue ≤ 0
    · exact Or.inl (lt_of_le_of_lt hle hpos)
    · have hec : candidate e = true := candidate_iff.mpr ⟨not_le.mp hle, Or.inr (Or.inl he)⟩
      rcases hall j e hj hec with hlt | ⟨hle', hij⟩
      · exact Or.inl hlt
      · have hne : i ≠ j := by
          intro h
          rw [← h, hi, Option.some.injEq] at hj
          exact hid (hj ▸ he)
        rcases hle'.lt_or_eq with hlt | heq
        · exact Or.inl hlt
        · exact Or.inr ⟨heq, lt_of_le_of_ne hij hne⟩
  · intro ⟨i, w, hi, hstar, hpos, hall⟩
    have hw : candidate w = true := candidate_iff.mpr ⟨hpos, Or.inr (Or.inr hstar)⟩
    cases hb : best EncodingEntry.qValue candidate es with
    | none =>
      have hfalse := best_eq_none_iff.mp hb w (List.mem_of_getElem? hi)
      exact absurd (hw.symm.trans hfalse) Bool.true_eq_false_eq_False
    | some b =>
      refine ⟨b, rfl, ?_⟩
      intro hid
      obtain ⟨k, hk, -, hbest⟩ := best_first hb
      -- an identity that wins would be ahead of the wildcard that leads
      rcases hbest i w hi hw with hlt | ⟨hle, hki⟩
      · rcases hall k b hk hid with hlt' | ⟨heq, -⟩
        · exact lt_asymm hlt hlt'
        · exact absurd heq (ne_of_gt hlt)
      · rcases hall k b hk hid with hlt' | ⟨-, hik⟩
        · exact absurd hlt' (not_lt.mpr hle)
        · omega

theorem parseAcceptEncoding_gzip_iff (parseFloat : FloatParser) (header : String) :
    (parseAcceptEncoding parseFloat header).1 = some .gzip ↔
      ∃ b, best EncodingEntry.qValue candidate (members parseFloat header) = some b ∧
        b.coding ≠ "identity" := by
  rw [parseAcceptEncoding, members]
  by_cases hblank : Text.trimSpace header.toList = []
  · rw [if_pos hblank, if_pos hblank]
    constructor
    · intro h
      cases h
    · intro ⟨b, h, _⟩
      cases h
  · rw [if_neg hblank, if_neg hblank]
    cases (Text.split ',' header.toList).mapM (parseEncoding parseFloat) with
    | none =>
      rw [Option.getD_none]
      constructor
      · intro h
        cases h
      · intro ⟨b, h, _⟩
        cases h
    | some entries =>
      rw [Option.getD_some]
      exact selectByQValue_gzip_iff

theorem acceptable_of_best {b : EncodingEntry}
    (hb : best EncodingEntry.qValue candidate es = some b) (hid : b.coding ≠ "identity")
    (href : ¬ Refused es) : Acceptable es := by
  obtain ⟨i, hi, hcand, -⟩ := best_first hb
  have hmem := List.mem_of_getElem? hi
  obtain ⟨hpos, hkind⟩ := candidate_iff.mp hcand
  by_cases hpositive : ∃ e ∈ es, e.coding = "gzip" ∧ 0 < e.qValue
  · exact Or.inl hpositive
  · have hno : ∀ e ∈ es, e.coding = "gzip" → e.qValue ≤ 0 := by
      intro e he hgzip
      by_contra hlt
      exact hpositive ⟨e, he, hgzip, not_le.mp hlt⟩
    refine Or.inr ⟨?_, b, hmem, ?_, hpos⟩
    · intro e he hgzip
      exact href ⟨⟨e, he, hgzip⟩, hno⟩
    · have hngzip : b.coding ≠ "gzip" := fun h => hpositive ⟨b, hmem, h, hpos⟩
      exact (hkind.resolve_left hngzip).resolve_left hid

theorem not_acceptable_of_refused (h : Refused es) : ¬ Acceptable es := by
  obtain ⟨⟨e, he, hgzip⟩, hall⟩ := h
  rintro (⟨e', he', hgzip', hpos⟩ | ⟨hnone, -⟩)
  · exact absurd hpos (not_lt.mpr (hall e' he' hgzip'))
  · exact hnone e he hgzip

/-- For every header, gzip is selected only if it is acceptable, exactly when the header does not
refuse gzip while a wildcard leads its identities. -/
theorem selected_acceptable_iff (parseFloat : FloatParser) (header : String) :
    ((parseAcceptEncoding parseFloat header).1 = some .gzip →
      Acceptable (members parseFloat header)) ↔
    ¬ (Refused (members parseFloat header) ∧ WildcardLeads (members parseFloat header)) := by
  rw [parseAcceptEncoding_gzip_iff]
  constructor
  · intro h ⟨href, hlead⟩
    have hsel := (best_wildcard_iff href.2).mpr hlead
    exact not_acceptable_of_refused href (h hsel)
  · intro h hsel
    by_cases href : Refused (members parseFloat header)
    · exact absurd ⟨href, (best_wildcard_iff href.2).mp hsel⟩ h
    · obtain ⟨b, hb, hid⟩ := hsel
      exact acceptable_of_best hb hid href

/-- The header `gzip;q=0, *` refuses gzip, and the wildcard selects it. -/
theorem wildcard_selects_refused :
    parseAcceptEncoding integerParser "gzip;q=0, *" = (some .gzip, .wildcard) ∧
    ¬ Acceptable (members integerParser "gzip;q=0, *") := by
  have hmembers : members integerParser "gzip;q=0, *" = [⟨"gzip", 0⟩, ⟨"*", 1⟩] := by
    decide +kernel
  refine ⟨by decide +kernel, ?_⟩
  rw [hmembers]
  apply not_acceptable_of_refused
  refine ⟨⟨⟨"gzip", 0⟩, List.mem_cons_self, rfl⟩, ?_⟩
  intro e he hgzip
  rcases List.mem_cons.mp he with rfl | he
  · exact le_refl 0
  · rw [List.mem_singleton.mp he] at hgzip
    exact absurd hgzip (by decide)

end EnvoyGo.Compressor

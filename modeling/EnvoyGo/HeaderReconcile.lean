import EnvoyGo.H2DecodeDelta
import EnvoyGo.HeaderName

/-!
What `ReconcileOrderedHeaders` of `internal/filter/http/types.go` makes of the ordered carrier: name
by name, in order, whatever the order in which the map is walked, and applied again.
-/

namespace EnvoyGo.OrderedHeaders

variable {original out : OrderedHeaders} {merged : Header}

def firstNames (names : List String) : List String := names.reverse.dedup.reverse

def valuesOf (oh : OrderedHeaders) (key : String) : List String :=
  (oh.filter (fun hf => hf.name == key)).map HeaderField.value

def present (merged : Header) (key : String) : Bool := ((merged.lookup key).getD []) != []

/-- `ReconcileOrderedHeaders` with the loop over the map in the given order. -/
def reconcileIn (o : MapOrder) (original : OrderedHeaders) (merged : Header) : OrderedHeaders :=
  let seen := seenKeys original
  let newKeys := ((o.range merged.keys).filter (fun k => !seen.contains k)).insertionSort (· ≤ ·)
  seen.flatMap (ofKey merged) ++ newKeys.flatMap (ofKey merged)

def newKeys (original : OrderedHeaders) (merged : Header) : List String :=
  (merged.keys.filter (fun k => !(seenKeys original).contains k)).insertionSort (· ≤ ·)

def emittedKeys (original : OrderedHeaders) (merged : Header) : List String :=
  seenKeys original ++ newKeys original merged

theorem reconcile_eq_flatMap (original : OrderedHeaders) (merged : Header) :
    reconcile original merged = (emittedKeys original merged).flatMap (ofKey merged) := by
  rw [reconcile, emittedKeys, newKeys, List.flatMap_append]

theorem reconcileIn_eq (o : MapOrder) (original : OrderedHeaders) (merged : Header) :
    reconcileIn o original merged = reconcile original merged := by
  unfold reconcileIn reconcile
  dsimp only
  rw [insertionSort_eq_of_perm ((o.perm merged.keys).filter _)]

theorem seenKeys_eq_firstNames (original : OrderedHeaders) :
    seenKeys original = firstNames (original.map (fun hf => canonicalMIMEHeaderKey hf.name)) := rfl

theorem nodup_firstNames (names : List String) : (firstNames names).Nodup :=
  List.nodup_reverse.mpr (List.nodup_dedup _)

@[simp]
theorem mem_firstNames {names : List String} {k : String} : k ∈ firstNames names ↔ k ∈ names := by
  unfold firstNames
  rw [List.mem_reverse, List.mem_dedup, List.mem_reverse]

variable {ks : List String} {k : String}

theorem firstNames_append {ls : List String} (h : ks.Disjoint ls) :
    firstNames (ks ++ ls) = firstNames ks ++ firstNames ls := by
  have hrev : ls.reverse.Disjoint ks.reverse := by
    intro k hl hk
    exact h (List.mem_reverse.mp hk) (List.mem_reverse.mp hl)
  unfold firstNames
  rw [List.reverse_append, hrev.dedup_append, List.reverse_append]

theorem firstNames_replicate {n : ℕ} (hn : n ≠ 0) (k : String) :
    firstNames (List.replicate n k) = [k] := by
  unfold firstNames
  rw [List.reverse_replicate, List.replicate_dedup hn, List.reverse_singleton]

theorem map_name_ofKey (merged : Header) (k : String) :
    (ofKey merged k).map HeaderField.name =
      List.replicate ((merged.lookup k).getD []).length k := by
  unfold ofKey
  rw [List.map_map]
  exact List.map_const

theorem ofKey_of_not_present (h : present merged k = false) : ofKey merged k = [] := by
  have hnil : (merged.lookup k).getD [] = [] := by
    rwa [present, bne_eq_false_iff_eq] at h
  rw [ofKey, hnil, List.map_nil]

theorem mem_names_flatMap (h : k ∈ (ks.flatMap (ofKey merged)).map HeaderField.name) : k ∈ ks := by
  obtain ⟨hf, hmem, rfl⟩ := List.mem_map.mp h
  obtain ⟨k', hk', hin⟩ := List.mem_flatMap.mp hmem
  obtain ⟨v, -, rfl⟩ := List.mem_map.mp hin
  exact hk'

theorem firstNames_flatMap (hnodup : ks.Nodup) :
    firstNames ((ks.flatMap (ofKey merged)).map HeaderField.name) =
      ks.filter (present merged) := by
  induction ks with
  | nil => rfl
  | cons k ks ih =>
    obtain ⟨hk, hks⟩ := List.nodup_cons.mp hnodup
    rw [List.flatMap_cons, List.map_append]
    by_cases hp : present merged k = true
    · have hdisj : ((ofKey merged k).map HeaderField.name).Disjoint
          ((ks.flatMap (ofKey merged)).map HeaderField.name) := by
        intro l hl hl'
        rw [map_name_ofKey] at hl
        rw [List.eq_of_mem_replicate hl] at hl'
        exact hk (mem_names_flatMap hl')
      have hlen : ((merged.lookup k).getD []).length ≠ 0 := by
        rw [ne_eq, List.length_eq_zero_iff]
        exact bne_iff_ne.mp hp
      rw [firstNames_append hdisj, map_name_ofKey, firstNames_replicate hlen, ih hks,
        List.filter_cons_of_pos hp, List.singleton_append]
    · have hnot : present merged k = false := Bool.eq_false_iff.mpr hp
      rw [ofKey_of_not_present hnot, List.map_nil, List.nil_append, ih hks,
        List.filter_cons_of_neg hp]

theorem valuesOf_ofKey_self (merged : Header) (k : String) :
    valuesOf (ofKey merged k) k = (merged.lookup k).getD [] := by
  unfold valuesOf ofKey
  rw [List.filter_eq_self.mpr ?_, List.map_map]
  · exact List.map_id _
  · intro hf hmem
    obtain ⟨v, -, rfl⟩ := List.mem_map.mp hmem
    exact beq_self_eq_true k

theorem valuesOf_eq_nil (h : k ∉ out.map HeaderField.name) : valuesOf out k = [] := by
  unfold valuesOf
  rw [List.filter_eq_nil_iff.mpr ?_, List.map_nil]
  intro hf hmem heq
  exact h (List.mem_map.mpr ⟨hf, hmem, beq_iff_eq.mp heq⟩)

theorem valuesOf_append (as bs : OrderedHeaders) (k : String) :
    valuesOf (as ++ bs) k = valuesOf as k ++ valuesOf bs k := by
  unfold valuesOf
  rw [List.filter_append, List.map_append]

theorem valuesOf_flatMap (hnodup : ks.Nodup) (k : String) :
    valuesOf (ks.flatMap (ofKey merged)) k = if k ∈ ks then (merged.lookup k).getD [] else [] := by
  induction ks with
  | nil => rfl
  | cons l ks ih =>
    obtain ⟨hl, hks⟩ := List.nodup_cons.mp hnodup
    rw [List.flatMap_cons, valuesOf_append, ih hks]
    by_cases hkl : k = l
    · rw [hkl, valuesOf_ofKey_self, if_neg hl, if_pos List.mem_cons_self, List.append_nil]
    · have hother : valuesOf (ofKey merged l) k = [] := by
        apply valuesOf_eq_nil
        rw [map_name_ofKey]
        exact fun h => hkl (List.eq_of_mem_replicate h)
      have hmem : (k ∈ l :: ks) = (k ∈ ks) := by rw [List.mem_cons, or_iff_right hkl]
      simp only [hother, hmem, List.nil_append]

section Keys

variable (original : OrderedHeaders) (merged : Header)

theorem mem_newKeys {k : String} :
    k ∈ newKeys original merged ↔ k ∈ merged.keys ∧ k ∉ seenKeys original := by
  unfold newKeys
  rw [List.mem_insertionSort, List.mem_filter, List.contains_eq_mem, Bool.not_eq_true',
    decide_eq_false_iff_not]

theorem nodup_newKeys : (newKeys original merged).Nodup :=
  (List.perm_insertionSort _ _).nodup_iff.mpr (merged.nodupKeys.filter _)

theorem newKeys_sorted : (newKeys original merged).Pairwise (· < ·) := by
  have hle := List.pairwise_insertionSort (· ≤ ·)
    (merged.keys.filter (fun k => !(seenKeys original).contains k))
  exact (hle.and (nodup_newKeys original merged)).imp (fun h => lt_of_le_of_ne h.1 h.2)

theorem nodup_emittedKeys : (emittedKeys original merged).Nodup := by
  apply List.Nodup.append (nodup_firstNames _) (nodup_newKeys original merged)
  intro k hseen hnew
  exact ((mem_newKeys original merged).mp hnew).2 hseen

theorem mem_emittedKeys {k : String} (h : k ∈ merged.keys) : k ∈ emittedKeys original merged := by
  apply List.mem_append.mpr
  by_cases hseen : k ∈ seenKeys original
  · exact Or.inl hseen
  · exact Or.inr ((mem_newKeys original merged).mpr ⟨h, hseen⟩)

end Keys

theorem mem_keys_of_present (h : present merged k = true) : k ∈ merged.keys := by
  by_contra hk
  rw [present, AList.lookup_eq_none.mpr hk] at h
  exact absurd h (by decide)

/-- What the result is: the map's values under each key, the names of the original in their order,
then the others sorted, each name with its fields together. -/
structure ReconciledWith (original : OrderedHeaders) (merged : Header) (out : OrderedHeaders) :
    Prop where
  values : ∀ k, valuesOf out k = (merged.lookup k).getD []
  grouped : out = (firstNames (out.map HeaderField.name)).flatMap (ofKey merged)
  order : ∃ new, firstNames (out.map HeaderField.name) =
      (seenKeys original).filter (present merged) ++ new ∧
    new.Pairwise (· < ·) ∧ ∀ k ∈ new, k ∉ seenKeys original

theorem flatMap_filter_present (ks : List String) :
    (ks.filter (present merged)).flatMap (ofKey merged) = ks.flatMap (ofKey merged) := by
  induction ks with
  | nil => rfl
  | cons k ks ih =>
    by_cases hp : present merged k = true
    · rw [List.filter_cons_of_pos hp, List.flatMap_cons, List.flatMap_cons, ih]
    · rw [List.filter_cons_of_neg hp, List.flatMap_cons,
        ofKey_of_not_present (Bool.eq_false_iff.mpr hp), List.nil_append, ih]

theorem reconciledWith_reconcile (original : OrderedHeaders) (merged : Header) :
    ReconciledWith original merged (reconcile original merged) := by
  have hnodup := nodup_emittedKeys original merged
  have hnames : firstNames ((reconcile original merged).map HeaderField.name) =
      (emittedKeys original merged).filter (present merged) := by
    rw [reconcile_eq_flatMap, firstNames_flatMap hnodup]
  refine ⟨?_, ?_, ?_⟩
  · intro k
    rw [reconcile_eq_flatMap, valuesOf_flatMap hnodup]
    by_cases hk : k ∈ merged.keys
    · rw [if_pos (mem_emittedKeys original merged hk)]
    · rw [AList.lookup_eq_none.mpr hk, Option.getD_none, ite_self]
  · rw [hnames, flatMap_filter_present, reconcile_eq_flatMap]
  · refine ⟨(newKeys original merged).filter (present merged), ?_, ?_, ?_⟩
    · rw [hnames, emittedKeys, List.filter_append]
    · exact (newKeys_sorted original merged).filter _
    · intro k hk
      exact ((mem_newKeys original merged).mp (List.mem_filter.mp hk).1).2

/-- The keys under which the map has values are spelled canonically, as `Add` and `Set` write
them. -/
def CanonicalKeys (merged : Header) : Prop :=
  ∀ k, present merged k = true → canonicalMIMEHeaderKey k = k

theorem seenKeys_reconcile (hcanon : CanonicalKeys merged) (original : OrderedHeaders) :
    seenKeys (reconcile original merged) =
      firstNames ((reconcile original merged).map HeaderField.name) := by
  rw [seenKeys_eq_firstNames]
  congr 1
  apply List.map_congr_left
  intro hf hmem
  have hname : hf.name ∈ firstNames ((reconcile original merged).map HeaderField.name) :=
    mem_firstNames.mpr (List.mem_map_of_mem hmem)
  rw [reconcile_eq_flatMap, firstNames_flatMap (nodup_emittedKeys original merged)] at hname
  exact hcanon hf.name (List.mem_filter.mp hname).2

theorem reconcile_reconcile (hcanon : CanonicalKeys merged) (original : OrderedHeaders) :
    reconcile (reconcile original merged) merged = reconcile original merged := by
  have hspec := reconciledWith_reconcile original merged
  have hseen := seenKeys_reconcile hcanon original
  have hnames : firstNames ((reconcile original merged).map HeaderField.name) =
      (emittedKeys original merged).filter (present merged) := by
    rw [reconcile_eq_flatMap, firstNames_flatMap (nodup_emittedKeys original merged)]
  have hgrouped := hspec.grouped
  -- the keys that are new to the second pass have no value
  have hnew : ∀ k ∈ newKeys (reconcile original merged) merged, ofKey merged k = [] := by
    intro k hk
    obtain ⟨hkey, hnot⟩ := (mem_newKeys _ merged).mp hk
    rw [hseen, hnames, List.mem_filter] at hnot
    apply ofKey_of_not_present
    rw [Bool.eq_false_iff]
    exact fun hp => hnot ⟨mem_emittedKeys original merged hkey, hp⟩
  calc reconcile (reconcile original merged) merged
      = (emittedKeys (reconcile original merged) merged).flatMap (ofKey merged) :=
        reconcile_eq_flatMap _ merged
    _ = (seenKeys (reconcile original merged)).flatMap (ofKey merged) := by
        rw [emittedKeys, List.flatMap_append, List.flatMap_eq_nil_iff.mpr hnew, List.append_nil]
    _ = reconcile original merged := by rw [hseen, ← hgrouped]

/-- For every list, every map and every order of the loop over it, the result is reconciled and
the same; a second pass changes nothing when the map's keys are canonical. -/
theorem reconcile_correct (o : MapOrder) (original : OrderedHeaders) (merged : Header) :
    ReconciledWith original merged (reconcileIn o original merged) ∧
    (∀ o', reconcileIn o' original merged = reconcileIn o original merged) ∧
    ((∀ k ∈ merged.keys, canonicalMIMEHeaderKey k = k) →
      ∀ o', reconcileIn o' (reconcileIn o original merged) merged =
        reconcileIn o original merged) := by
  rw [reconcileIn_eq o]
  refine ⟨reconciledWith_reconcile original merged, ?_, ?_⟩
  · intro o'
    exact reconcileIn_eq o' original merged
  · intro hcanon o'
    rw [reconcileIn_eq o']
    exact reconcile_reconcile (fun k hk => hcanon k (mem_keys_of_present hk)) original

/-- The order in which the model's map holds its keys. -/
def insertionOrder : MapOrder := ⟨id, fun ks => List.Perm.refl ks⟩

def addedHeader : Header := Header.add (Header.add ∅ "x-b" "2") "x-a" "1"

theorem reconcile_correct_added :
    reconcileIn insertionOrder (reconcileIn insertionOrder [⟨"x-b", "0"⟩] addedHeader) addedHeader =
      [⟨"X-B", "2"⟩, ⟨"X-A", "1"⟩] := by
  have hfirst : reconcileIn insertionOrder [⟨"x-b", "0"⟩] addedHeader =
      [⟨"X-B", "2"⟩, ⟨"X-A", "1"⟩] := by decide +kernel
  have hcanon : ∀ k ∈ addedHeader.keys, canonicalMIMEHeaderKey k = k := by decide +kernel
  rw [(reconcile_correct insertionOrder [⟨"x-b", "0"⟩] addedHeader).2.2 hcanon insertionOrder,
    hfirst]

/-- A key that was written raw is new to every pass, while its name makes room for the other. -/
def rawHeader : Header := Header.setRawIfAbsent (Header.add ∅ "b" "2") "A-b" "1"

theorem reconcile_twice_raw :
    reconcile [] rawHeader = [⟨"A-b", "1"⟩, ⟨"B", "2"⟩] ∧
    reconcile (reconcile [] rawHeader) rawHeader = [⟨"B", "2"⟩, ⟨"A-b", "1"⟩] := by
  decide +kernel

end EnvoyGo.OrderedHeaders

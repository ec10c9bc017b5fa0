import EnvoyGo.H2ServerStream

/-!
What `reconcileH2DecodeDelta` makes of the ordered carrier, name by name and in order, whatever the
order in which the maps are walked.
-/

namespace EnvoyGo

/-- The values of a name in the carrier, in their order. -/
def OrderedHeaders.named (fields : OrderedHeaders) (lower : String) : List String :=
  (fields.filter (fun f => toLower f.name == lower)).map HeaderField.value

/-- The values of a name in the map, spelling by spelling in sorted order. -/
def Header.merged (h : Header) (lower : String) : List String :=
  ((h.keys.filter (fun k => toLower k == lower)).insertionSort (· ≤ ·)).flatMap
    (fun k => (h.lookup k).getD [])

/-- The carrier has the values of the map before the chain ran. -/
def CarrierAgrees (fields : OrderedHeaders) (before : Header) : Prop :=
  ∀ name, h2ReconcileSkipKey name = false →
    fields.named (toLower name) = before.merged (toLower name)

def OnlyAppended (before after : Header) (lower : String) : Prop :=
  before.merged lower <+: after.merged lower

instance (before after : Header) (lower : String) : Decidable (OnlyAppended before after lower) :=
  inferInstanceAs (Decidable (before.merged lower <+: after.merged lower))

def legalValues (lower : String) (values : List String) : List String :=
  values.filter (fun v => !isIllegalH2RequestHeader lower v)

/-- What the carrier is to be once the chain has run. -/
structure Reconciled (fields : OrderedHeaders) (before after : Header) (out : OrderedHeaders) :
    Prop where
  replaced : ∀ name, h2ReconcileSkipKey name = false →
    ¬ OnlyAppended before after (toLower name) →
    out.named (toLower name) = legalValues (toLower name) (after.merged (toLower name))
  appended : ∀ name, h2ReconcileSkipKey name = false → ∀ added,
    after.merged (toLower name) = before.merged (toLower name) ++ added →
    out.named (toLower name) = before.merged (toLower name) ++ legalValues (toLower name) added
  order : ∃ tail,
    out = fields.filter (fun f => h2ReconcileSkipKey f.name ||
      decide (OnlyAppended before after (toLower f.name))) ++ tail ∧
    ∀ f ∈ tail, f.name.toList.any Char.isUpper = false ∧ h2ReconcileSkipKey f.name = false ∧
      before.merged f.name ≠ after.merged f.name

theorem toLower_eq_colon {c : Char} : c.toLower = ':' ↔ c = ':' := by
  constructor
  · intro h
    by_cases hu : c.isUpper = true
    · have hl : c.toLower.isLower = true := by
        rw [Char.isLower_toLower_eq_isAlpha, Char.isAlpha, hu, Bool.true_or]
      rw [h] at hl
      exact absurd hl (by decide)
    · rwa [Char.toLower_eq_of_not_isUpper hu] at h
  · rintro rfl
    decide

theorem skipKey_toLower (k : String) : h2ReconcileSkipKey (toLower k) = h2ReconcileSkipKey k := by
  have hhost : equalFold (toLower k) "host" = equalFold k "host" := by
    rw [Bool.eq_iff_iff, equalFold_iff_toLower, equalFold_iff_toLower, toLower_toLower]
  have hhead : ((toLower k).toList.head? == some ':') = (k.toList.head? == some ':') := by
    rw [toLower, String.toList_ofList]
    cases k.toList with
    | nil => rfl
    | cons c cs =>
      rw [List.map_cons, List.head?_cons, List.head?_cons, Bool.eq_iff_iff, beq_iff_eq,
        beq_iff_eq, Option.some.injEq, Option.some.injEq]
      exact toLower_eq_colon
  rw [h2ReconcileSkipKey, h2ReconcileSkipKey, hhost, hhead]

theorem lookup_foldl_view (h : Header) (ks : List String) (out : Header) (lower : String) :
    ((ks.foldl (fun out k => out.insert (toLower k)
        ((out.lookup (toLower k)).getD [] ++ (h.lookup k).getD [])) out).lookup lower).getD [] =
      (out.lookup lower).getD [] ++
        (ks.filter (fun k => toLower k == lower)).flatMap (fun k => (h.lookup k).getD []) := by
  induction ks generalizing out with
  | nil => exact (List.append_nil _).symm
  | cons k ks ih =>
    rw [List.foldl_cons, ih]
    by_cases hk : toLower k = lower
    · rw [List.filter_cons, if_pos (beq_iff_eq.mpr hk), List.flatMap_cons, hk,
        AList.lookup_insert, Option.getD_some, List.append_assoc]
    · rw [List.filter_cons, if_neg (fun he => hk (beq_iff_eq.mp he)),
        AList.lookup_insert_ne (Ne.symm hk)]

theorem filter_insertionSort (p : String → Bool) (ks : List String) :
    (ks.insertionSort (· ≤ ·)).filter p = (ks.filter p).insertionSort (· ≤ ·) := by
  refine List.Perm.eq_of_pairwise' (r := (· ≤ ·)) ?_ ?_ ?_
  · exact (List.pairwise_insertionSort _ ks).filter p
  · exact List.pairwise_insertionSort _ _
  · exact ((List.perm_insertionSort _ ks).filter p).trans (List.perm_insertionSort _ _).symm

theorem lookup_view (h : Header) {lower : String} (hskip : h2ReconcileSkipKey lower = false) :
    ((h2LowerHeaderView h).lookup lower).getD [] = h.merged lower := by
  unfold h2LowerHeaderView Header.merged
  rw [lookup_foldl_view, filter_insertionSort, List.filter_filter]
  refine (List.nil_append _).trans ?_
  congr 2
  refine List.filter_congr (fun k _ => ?_)
  by_cases hk : toLower k = lower
  · rw [hk, beq_self_eq_true, Bool.true_and, ← skipKey_toLower, hk, hskip]
    rfl
  · rw [beq_eq_false_iff_ne.mpr hk, Bool.false_and]

theorem foldl_view_skip (h : Header) (ks : List String) (out : Header)
    (hks : ∀ k ∈ ks, h2ReconcileSkipKey k = false)
    (hout : ∀ k ∈ out.keys, h2ReconcileSkipKey k = false) :
    ∀ k ∈ (ks.foldl (fun out k => out.insert (toLower k)
      ((out.lookup (toLower k)).getD [] ++ (h.lookup k).getD [])) out).keys,
      h2ReconcileSkipKey k = false := by
  induction ks generalizing out with
  | nil => exact hout
  | cons x ks ih =>
    refine ih _ (fun k hk => hks k (List.mem_cons_of_mem x hk)) (fun k hk => ?_)
    obtain hk | hk := (AList.mem_insert _).mp (AList.mem_keys.mpr hk)
    · rw [hk, skipKey_toLower]
      exact hks x List.mem_cons_self
    · exact hout k (AList.mem_keys.mp hk)

theorem skipKey_of_view (h : Header) {k : String} (hk : k ∈ (h2LowerHeaderView h).keys) :
    h2ReconcileSkipKey k = false := by
  refine foldl_view_skip h _ ∅ (fun x hx => ?_) (fun x hx => absurd hx List.not_mem_nil) k hk
  rw [List.mem_insertionSort, List.mem_filter] at hx
  exact (Bool.not_eq_true' _).mp hx.2

section Names

variable {before after : Header} {k : String}

theorem h2Extra_of_prefix {bv av : List String} (hpre : bv <+: av) (hne : bv ≠ av) :
    (h2Extra bv av).isSome = true := by
  obtain ⟨added, rfl⟩ := hpre
  have hlen : bv.length < (bv ++ added).length := by
    rw [List.length_append]
    have hadded : added ≠ [] := by
      rintro rfl
      exact hne (List.append_nil bv).symm
    exact Nat.lt_add_of_pos_right (List.length_pos_iff.mpr hadded)
  rw [h2Extra, if_pos ⟨hlen, (List.take_left).symm⟩]
  rfl

theorem nil_of_replaced (hk : k ∈ h2Replaced before after)
    (hpre : (before.lookup k).getD [] <+: (after.lookup k).getD []) :
    (before.lookup k).getD [] = [] := by
  rw [h2Replaced, List.mem_append, List.mem_filter, List.mem_filter] at hk
  obtain ⟨-, hreplaced⟩ | ⟨-, hgone⟩ := hk
  · simp only [Bool.and_eq_true, bne_iff_ne] at hreplaced
    have hsome := h2Extra_of_prefix hpre hreplaced.1
    rw [Option.isNone_iff_eq_none] at hreplaced
    rw [hreplaced.2] at hsome
    cases hsome
  · have hnone : k ∉ after.keys := by simpa using hgone
    rw [getD_lookup_of_notMem after hnone] at hpre
    exact List.prefix_nil.mp hpre

theorem replaced_keys (hk : k ∈ h2Replaced before after) : k ∈ after.keys ∨ k ∈ before.keys := by
  rw [h2Replaced, List.mem_append, List.mem_filter, List.mem_filter] at hk
  exact hk.imp And.left And.left

theorem replaced_nodup (before after : Header) : (h2Replaced before after).Nodup := by
  refine List.Nodup.append (after.keys_nodup.filter _) (before.keys_nodup.filter _) ?_
  intro k hafter hbefore
  have hgone := (List.mem_filter.mp hbefore).2
  have hmem := (List.mem_filter.mp hafter).1
  simp [hmem] at hgone

theorem not_replaced_of_appended {vs : List String} (h : (k, vs) ∈ h2Appended before after) :
    k ∉ h2Replaced before after := by
  have hkey := appended_fst_mem h
  obtain ⟨k', -, hf⟩ := List.mem_filterMap.mp h
  simp only [] at hf
  split_ifs at hf with hne
  obtain ⟨ws, hextra, he⟩ := Option.map_eq_some_iff.mp hf
  cases he
  rw [h2Replaced, List.mem_append, List.mem_filter, List.mem_filter]
  rintro (⟨-, hreplaced⟩ | ⟨-, hgone⟩)
  · simp [hextra] at hreplaced
  · simp [hkey] at hgone

theorem appended_ne {vs : List String} (h : (k, vs) ∈ h2Appended before after) :
    (before.lookup k).getD [] ≠ (after.lookup k).getD [] := by
  obtain ⟨k', -, hf⟩ := List.mem_filterMap.mp h
  simp only [] at hf
  split_ifs at hf with hne
  obtain ⟨ws, -, he⟩ := Option.map_eq_some_iff.mp hf
  cases he
  exact hne

theorem appended_nodup (before after : Header) :
    ((h2Appended before after).map Prod.fst).Nodup := by
  have hsub : ((h2Appended before after).map Prod.fst).Sublist after.keys := by
    rw [h2Appended, List.map_filterMap]
    generalize after.keys = ks
    induction ks with
    | nil => exact List.Sublist.slnil
    | cons k ks ih =>
      rw [List.filterMap_cons]
      split
      · exact ih.cons k
      · next name hname =>
          have hk : name = k := by
            obtain ⟨e, he, rfl⟩ := Option.map_eq_some_iff.mp hname
            simp only [] at he
            split_ifs at he
            obtain ⟨ws, -, rfl⟩ := Option.map_eq_some_iff.mp he
            rfl
          rw [hk]
          exact ih.cons_cons k
  exact hsub.nodup after.keys_nodup

theorem deltaNames_nodup (before after : Header) : (deltaNames before after).Nodup := by
  refine (List.perm_insertionSort _ _).nodup_iff.mpr ?_
  refine List.Nodup.append ((replaced_nodup before after).filter _) (appended_nodup before after) ?_
  intro k hreplaced happended
  obtain ⟨⟨name, vs⟩, hmem, rfl⟩ := List.mem_map.mp happended
  exact not_replaced_of_appended hmem (List.mem_filter.mp hreplaced).1

end Names

section Carrier

variable {fields : OrderedHeaders} {before after : Header}

def deltaKept (fields : OrderedHeaders) (before after : Header) : OrderedHeaders :=
  fields.filter (fun f =>
    !(h2Replaced (h2LowerHeaderView before) (h2LowerHeaderView after)).contains (toLower f.name))

def deltaTail (before after : Header) : OrderedHeaders :=
  (deltaNames (h2LowerHeaderView before) (h2LowerHeaderView after)).flatMap (fun k =>
    (legalValues k (emitted (h2LowerHeaderView before) (h2LowerHeaderView after) k)).map
      (fun v => ⟨k, v⟩))

theorem reconcile_eq (fields : OrderedHeaders) (before after : Header) :
    reconcileH2DecodeDelta fields before after =
      deltaKept fields before after ++ deltaTail before after := by
  unfold reconcileH2DecodeDelta
  simp only []
  split_ifs with hempty
  · have hnames : deltaNames (h2LowerHeaderView before) (h2LowerHeaderView after) = [] := by
      rw [deltaNames, hempty.1, hempty.2]
      rfl
    rw [deltaTail, hnames, deltaKept, hempty.1, List.flatMap_nil, List.append_nil]
    exact (List.filter_eq_self.mpr (fun _ _ => rfl)).symm
  · rfl

theorem named_append (xs ys : OrderedHeaders) (lower : String) :
    OrderedHeaders.named (xs ++ ys) lower = xs.named lower ++ ys.named lower := by
  rw [OrderedHeaders.named, List.filter_append, List.map_append]
  rfl

theorem named_kept (fields : OrderedHeaders) (before after : Header) (lower : String) :
    (deltaKept fields before after).named lower =
      if lower ∈ h2Replaced (h2LowerHeaderView before) (h2LowerHeaderView after) then []
      else fields.named lower := by
  rw [OrderedHeaders.named, deltaKept, List.filter_filter]
  split_ifs with hreplaced
  · refine List.map_eq_nil_iff.mpr (List.filter_eq_nil_iff.mpr (fun f _ hf => ?_))
    obtain ⟨hname, hkept⟩ := Bool.and_eq_true_iff.mp hf
    rw [beq_iff_eq.mp hname, List.contains_iff_mem.mpr hreplaced] at hkept
    cases hkept
  · rw [OrderedHeaders.named]
    congr 1
    refine List.filter_congr (fun f _ => ?_)
    by_cases hname : toLower f.name = lower
    · have hkept : (h2Replaced (h2LowerHeaderView before)
          (h2LowerHeaderView after)).contains lower = false := by
        rw [← Bool.not_eq_true, List.contains_iff_mem]
        exact hreplaced
      rw [hname, hkept, beq_self_eq_true]
      rfl
    · rw [beq_eq_false_iff_ne.mpr hname, Bool.false_and]

theorem named_single (k : String) (hk : toLower k = k) (values : List String) (lower : String) :
    OrderedHeaders.named (values.map (fun v => ⟨k, v⟩)) lower =
      if k = lower then values else [] := by
  have hname : ∀ f ∈ values.map (fun v => (⟨k, v⟩ : HeaderField)), toLower f.name = k := by
    intro f hf
    obtain ⟨v, -, rfl⟩ := List.mem_map.mp hf
    exact hk
  rw [OrderedHeaders.named]
  split_ifs with hlower
  · rw [List.filter_eq_self.mpr, List.map_map]
    · exact List.map_id _
    · intro f hf
      rw [hname f hf, hlower]
      exact beq_self_eq_true lower
  · rw [List.filter_eq_nil_iff.mpr]
    · rfl
    · intro f hf
      rw [hname f hf, beq_iff_eq]
      exact hlower

theorem named_flatMap (vals : String → List String) (ks : List String) (hnodup : ks.Nodup)
    (hks : ∀ k ∈ ks, toLower k = k) (lower : String) :
    OrderedHeaders.named (ks.flatMap (fun k => (vals k).map (fun v => ⟨k, v⟩))) lower =
      if lower ∈ ks then vals lower else [] := by
  induction ks with
  | nil => rfl
  | cons k ks ih =>
    obtain ⟨hk, hnodup⟩ := List.nodup_cons.mp hnodup
    have hrest := ih hnodup (fun x hx => hks x (List.mem_cons_of_mem k hx))
    rw [List.flatMap_cons, named_append, named_single k (hks k List.mem_cons_self), hrest]
    by_cases hlower : k = lower
    · subst hlower
      rw [if_pos rfl, if_neg hk, if_pos List.mem_cons_self, List.append_nil]
    · have hmem : lower ∈ k :: ks ↔ lower ∈ ks := by
        rw [List.mem_cons]
        exact or_iff_right (Ne.symm hlower)
      simp only [if_neg hlower, List.nil_append, hmem]

theorem named_tail (before after : Header) (lower : String) :
    (deltaTail before after).named lower =
      if lower ∈ deltaNames (h2LowerHeaderView before) (h2LowerHeaderView after) then
        legalValues lower (emitted (h2LowerHeaderView before) (h2LowerHeaderView after) lower)
      else [] :=
  named_flatMap _ _ (deltaNames_nodup _ _)
    (fun k hk => h2LowerHeaderView_keys after k (deltaNames_keys hk)) lower

section Cases

variable {lower : String}

theorem named_of_replaced (fields : OrderedHeaders)
    (hmem : lower ∈ h2Replaced (h2LowerHeaderView before) (h2LowerHeaderView after)) :
    (reconcileH2DecodeDelta fields before after).named lower =
      legalValues lower (((h2LowerHeaderView after).lookup lower).getD []) := by
  have hall : emitted (h2LowerHeaderView before) (h2LowerHeaderView after) lower =
      ((h2LowerHeaderView after).lookup lower).getD [] := by
    rw [emitted, if_pos (List.contains_iff_mem.mpr hmem)]
  rw [reconcile_eq, named_append, named_kept, named_tail, if_pos hmem, List.nil_append, hall]
  by_cases hnames : lower ∈ deltaNames (h2LowerHeaderView before) (h2LowerHeaderView after)
  · rw [if_pos hnames]
  · have hempty : ((h2LowerHeaderView after).lookup lower).getD [] = [] := by
      by_contra hne
      exact hnames (mem_deltaNames.mpr (.inl ⟨hmem, List.length_pos_iff.mpr hne⟩))
    rw [if_neg hnames, hempty]
    rfl

theorem named_of_appended (fields : OrderedHeaders) {vs : List String}
    (hvs : (lower, vs) ∈ h2Appended (h2LowerHeaderView before) (h2LowerHeaderView after)) :
    (reconcileH2DecodeDelta fields before after).named lower =
      fields.named lower ++ legalValues lower vs := by
  have hmem := not_replaced_of_appended hvs
  rw [reconcile_eq, named_append, named_kept, named_tail, if_neg hmem,
    if_pos (mem_deltaNames.mpr (.inr ⟨vs, hvs⟩)), emitted_of_appended hmem hvs]

theorem named_of_unchanged (fields : OrderedHeaders)
    (hmem : lower ∉ h2Replaced (h2LowerHeaderView before) (h2LowerHeaderView after))
    (hnone : ∀ vs, (lower, vs) ∉ h2Appended (h2LowerHeaderView before) (h2LowerHeaderView after)) :
    (reconcileH2DecodeDelta fields before after).named lower = fields.named lower := by
  have hnames : lower ∉ deltaNames (h2LowerHeaderView before) (h2LowerHeaderView after) := by
    rw [mem_deltaNames]
    rintro (⟨hreplaced, -⟩ | ⟨vs, hvs⟩)
    · exact hmem hreplaced
    · exact hnone vs hvs
  rw [reconcile_eq, named_append, named_kept, named_tail, if_neg hmem, if_neg hnames,
    List.append_nil]

end Cases

theorem reconcile_replaced (fields : OrderedHeaders) {lower : String}
    (hskip : h2ReconcileSkipKey lower = false) (hnot : ¬ OnlyAppended before after lower) :
    (reconcileH2DecodeDelta fields before after).named lower =
      legalValues lower (after.merged lower) := by
  rw [← lookup_view after hskip]
  apply named_of_replaced
  rw [OnlyAppended, ← lookup_view before hskip, ← lookup_view after hskip] at hnot
  obtain hmem | ⟨-, vs, -, heq⟩ | ⟨-, -, heq⟩ :=
    delta_cases (h2LowerHeaderView before) (h2LowerHeaderView after) lower
  · exact hmem
  · exact absurd ⟨vs, heq.symm⟩ hnot
  · exact absurd (heq ▸ List.prefix_rfl) hnot

theorem reconcile_appended {lower : String} (hskip : h2ReconcileSkipKey lower = false)
    (hfields : fields.named lower = before.merged lower) {added : List String}
    (hadded : after.merged lower = before.merged lower ++ added) :
    (reconcileH2DecodeDelta fields before after).named lower =
      before.merged lower ++ legalValues lower added := by
  have hbefore := lookup_view before hskip
  have hafter := lookup_view after hskip
  obtain hmem | ⟨-, vs, hvs, heq⟩ | ⟨hmem, hnone, heq⟩ :=
    delta_cases (h2LowerHeaderView before) (h2LowerHeaderView after) lower
  · have hnil := nil_of_replaced hmem (by rw [hbefore, hafter, hadded]; exact ⟨added, rfl⟩)
    rw [hbefore] at hnil
    rw [named_of_replaced fields hmem, hafter, hadded, hnil]
    rfl
  · rw [hbefore, hafter, hadded] at heq
    rw [named_of_appended fields hvs, hfields, ← List.append_cancel_left heq]
  · rw [hbefore, hafter, hadded] at heq
    have hnil : added = [] := List.append_cancel_left (heq.trans (List.append_nil _).symm)
    rw [named_of_unchanged fields hmem hnone, hfields, hnil]
    exact (List.append_nil _).symm

theorem deltaKept_eq (hagree : CarrierAgrees fields before) :
    deltaKept fields before after = fields.filter (fun f => h2ReconcileSkipKey f.name ||
      decide (OnlyAppended before after (toLower f.name))) := by
  refine List.filter_congr (fun f hf => ?_)
  rw [Bool.eq_iff_iff, Bool.or_eq_true, decide_eq_true_eq, Bool.not_eq_true', ← Bool.not_eq_true,
    List.contains_iff_mem]
  cases hskip : h2ReconcileSkipKey f.name with
  | true =>
    refine iff_of_true (fun hmem => ?_) (.inl rfl)
    have hview : h2ReconcileSkipKey (toLower f.name) = false :=
      (replaced_keys hmem).elim (skipKey_of_view after) (skipKey_of_view before)
    rw [skipKey_toLower, hskip] at hview
    cases hview
  | false =>
    have hlower : h2ReconcileSkipKey (toLower f.name) = false := (skipKey_toLower _).trans hskip
    rw [or_iff_right Bool.false_ne_true, OnlyAppended, ← lookup_view before hlower,
      ← lookup_view after hlower]
    constructor
    · intro hmem
      obtain hreplaced | ⟨-, vs, -, heq⟩ | ⟨-, -, heq⟩ :=
        delta_cases (h2LowerHeaderView before) (h2LowerHeaderView after) (toLower f.name)
      · exact absurd hreplaced hmem
      · exact ⟨vs, heq.symm⟩
      · rw [heq]
    · intro hpre hmem
      -- a name without values before has no field in the carrier
      have hnil := nil_of_replaced hmem hpre
      rw [lookup_view before hlower, ← hagree f.name hskip] at hnil
      have hnone := List.filter_eq_nil_iff.mp (List.map_eq_nil_iff.mp hnil) f hf
      exact hnone (beq_self_eq_true _)

theorem isUpper_toLower (s : String) : (toLower s).toList.any Char.isUpper = false := by
  rw [toLower, String.toList_ofList, List.any_eq_false]
  intro c hc
  obtain ⟨d, -, rfl⟩ := List.mem_map.mp hc
  rw [Char.isUpper_toLower_eq_false]
  exact Bool.false_ne_true

theorem deltaTail_spec {f : HeaderField} (hf : f ∈ deltaTail before after) :
    f.name.toList.any Char.isUpper = false ∧ h2ReconcileSkipKey f.name = false ∧
      before.merged f.name ≠ after.merged f.name := by
  obtain ⟨k, hk, hf⟩ := List.mem_flatMap.mp hf
  obtain ⟨v, hv, rfl⟩ := List.mem_map.mp hf
  have hview := deltaNames_keys hk
  have hskip := skipKey_of_view after hview
  refine ⟨?_, hskip, ?_⟩
  · rw [← h2LowerHeaderView_keys after k hview]
    exact isUpper_toLower k
  · change before.merged k ≠ after.merged k
    rw [← lookup_view before hskip, ← lookup_view after hskip]
    intro heq
    obtain ⟨hreplaced, hpos⟩ | ⟨vs, hvs⟩ := mem_deltaNames.mp hk
    · rw [← heq, nil_of_replaced hreplaced (heq ▸ List.prefix_rfl)] at hpos
      exact absurd hpos (Nat.lt_irrefl 0)
    · exact appended_ne hvs heq

theorem reconciled_reconcile (hagree : CarrierAgrees fields before) (after : Header) :
    Reconciled fields before after (reconcileH2DecodeDelta fields before after) where
  replaced := fun name hskip hnot =>
    reconcile_replaced fields ((skipKey_toLower name).trans hskip) hnot
  appended := fun name hskip _ hadded =>
    reconcile_appended ((skipKey_toLower name).trans hskip) (hagree name hskip) hadded
  order := ⟨deltaTail before after, by rw [reconcile_eq, deltaKept_eq hagree],
    fun _ hf => deltaTail_spec hf⟩

end Carrier

/-- The order in which a loop walks the keys of a map. -/
structure MapOrder where
  range : List String → List String
  perm : ∀ ks, (range ks).Perm ks

structure DeltaOrders where
  before : MapOrder
  after : MapOrder
  afterView : MapOrder
  beforeView : MapOrder
  replaced : MapOrder
  extra : MapOrder

def h2LowerHeaderViewIn (o : MapOrder) (h : Header) : Header :=
  (((o.range h.keys).filter (fun k => !h2ReconcileSkipKey k)).insertionSort (· ≤ ·)).foldl
    (fun out k => out.insert (toLower k) ((out.lookup (toLower k)).getD [] ++ (h.lookup k).getD []))
    ∅

def h2ReplacedIn (o : DeltaOrders) (before after : Header) : List String :=
  (o.afterView.range after.keys).filter (fun k =>
    let bv := (before.lookup k).getD []
    let av := (after.lookup k).getD []
    bv != av && (h2Extra bv av).isNone)
  ++ (o.beforeView.range before.keys).filter (fun k => !after.keys.contains k)

def h2AppendedIn (o : DeltaOrders) (before after : Header) : List (String × List String) :=
  (o.afterView.range after.keys).filterMap (fun k =>
    let bv := (before.lookup k).getD []
    let av := (after.lookup k).getD []
    if bv = av then none else (h2Extra bv av).map (fun vs => (k, vs)))

/-- `reconcileH2DecodeDelta` with its loops in the given orders. -/
def reconcileH2DecodeDeltaIn (o : DeltaOrders) (fields : OrderedHeaders) (before after : Header) :
    OrderedHeaders :=
  let beforeView := h2LowerHeaderViewIn o.before before
  let afterView := h2LowerHeaderViewIn o.after after
  let replaced := h2ReplacedIn o beforeView afterView
  let extra := h2AppendedIn o beforeView afterView
  if replaced = [] ∧ extra = [] then fields
  else
    let appended := ((o.replaced.range replaced).filter
      (fun k => ((afterView.lookup k).getD []).length > 0)
      ++ o.extra.range (extra.map Prod.fst)).insertionSort (· ≤ ·)
    let kept := fields.filter (fun f => !replaced.contains (toLower f.name))
    kept ++ appended.flatMap (fun k =>
      let vals := if replaced.contains k then (afterView.lookup k).getD []
        else ((extra.find? (fun e => e.1 == k)).map Prod.snd).getD []
      (vals.filter (fun v => !isIllegalH2RequestHeader k v)).map (fun v => ⟨k, v⟩))

section Orders

variable (o : DeltaOrders) (before after : Header)

theorem insertionSort_eq_of_perm {ks ls : List String} (h : ks.Perm ls) :
    ks.insertionSort (· ≤ ·) = ls.insertionSort (· ≤ ·) := by
  refine List.Perm.eq_of_pairwise' (r := (· ≤ ·)) ?_ ?_ ?_
  · exact List.pairwise_insertionSort _ _
  · exact List.pairwise_insertionSort _ _
  · exact (List.perm_insertionSort _ ks).trans (h.trans (List.perm_insertionSort _ ls).symm)

theorem viewIn_eq (o : MapOrder) (h : Header) : h2LowerHeaderViewIn o h = h2LowerHeaderView h := by
  unfold h2LowerHeaderViewIn h2LowerHeaderView
  rw [insertionSort_eq_of_perm ((o.perm h.keys).filter _)]

theorem replacedIn_perm : (h2ReplacedIn o before after).Perm (h2Replaced before after) :=
  ((o.afterView.perm _).filter _).append ((o.beforeView.perm _).filter _)

theorem appendedIn_perm : (h2AppendedIn o before after).Perm (h2Appended before after) :=
  (o.afterView.perm _).filterMap _

theorem find?_eq_of_perm {es fs : List (String × List String)} (h : es.Perm fs)
    (hunique : ∀ k vs ws, (k, vs) ∈ fs → (k, ws) ∈ fs → vs = ws) (k : String) :
    es.find? (fun e => e.1 == k) = fs.find? (fun e => e.1 == k) := by
  cases hes : es.find? (fun e => e.1 == k) with
  | none =>
    refine (List.find?_eq_none.mpr (fun e he => ?_)).symm
    exact List.find?_eq_none.mp hes e (h.mem_iff.mpr he)
  | some e =>
    cases hfs : fs.find? (fun e => e.1 == k) with
    | none =>
      have hnot := List.find?_eq_none.mp hfs e (h.mem_iff.mp (List.mem_of_find?_eq_some hes))
      exact absurd (List.find?_some hes) hnot
    | some f =>
      obtain ⟨ek, vs⟩ := e
      obtain ⟨fk, ws⟩ := f
      have hek : ek = k := by simpa using List.find?_some hes
      have hfk : fk = k := by simpa using List.find?_some hfs
      subst hek hfk
      have hmem := h.mem_iff.mp (List.mem_of_find?_eq_some hes)
      rw [hunique _ vs ws hmem (List.mem_of_find?_eq_some hfs)]

theorem reconcileIn_eq (fields : OrderedHeaders) :
    reconcileH2DecodeDeltaIn o fields before after =
      reconcileH2DecodeDelta fields before after := by
  unfold reconcileH2DecodeDeltaIn reconcileH2DecodeDelta
  simp only [viewIn_eq]
  generalize h2LowerHeaderView before = bv
  generalize h2LowerHeaderView after = av
  have hreplaced := replacedIn_perm o bv av
  have hextra := appendedIn_perm o bv av
  have hempty : (h2ReplacedIn o bv av = [] ∧ h2AppendedIn o bv av = []) ↔
      (h2Replaced bv av = [] ∧ h2Appended bv av = []) := by
    rw [← List.length_eq_zero_iff, ← List.length_eq_zero_iff, hreplaced.length_eq,
      hextra.length_eq, List.length_eq_zero_iff, List.length_eq_zero_iff]
  have hcontains : ∀ k, (h2ReplacedIn o bv av).contains k = (h2Replaced bv av).contains k := by
    intro k
    rw [Bool.eq_iff_iff, List.contains_iff_mem, List.contains_iff_mem]
    exact hreplaced.mem_iff
  have hnames := insertionSort_eq_of_perm
    ((((o.replaced.perm _).trans hreplaced).filter
      (fun k => decide (((av.lookup k).getD []).length > 0))).append
      ((o.extra.perm _).trans (hextra.map Prod.fst)))
  have hfind := find?_eq_of_perm hextra (fun _ _ _ hv hw => appended_unique hv hw)
  simp only [hempty, hcontains, hnames, hfind]

end Orders

/-- Whatever the order of the loops, the carrier is reconciled. -/
theorem reconciled_inEveryOrder {fields : OrderedHeaders} {before : Header}
    (hagree : CarrierAgrees fields before) (after : Header) :
    ∃ out, Reconciled fields before after out ∧
      ∀ o, reconcileH2DecodeDeltaIn o fields before after = out :=
  ⟨_, reconciled_reconcile hagree after, fun o => reconcileIn_eq o before after fields⟩

theorem carrierAgrees_single {name key : String} (hkey : toLower key = toLower name)
    (value : String) : CarrierAgrees [⟨name, value⟩] (AList.insert key [value] ∅) := by
  intro other _
  have hkeys : (AList.insert key [value] ∅ : Header).keys = [key] := AList.keys_insert _
  have hlookup : [value] = ((AList.insert key [value] ∅ : Header).lookup key).getD [] := by
    rw [AList.lookup_insert]
    rfl
  rw [OrderedHeaders.named, Header.merged, hkeys]
  by_cases hother : toLower name = toLower other
  · simpa [hkey, hother] using hlookup
  · simp [hkey, hother]

theorem reconciled_changedAndAdded :
    ∃ out, Reconciled [⟨"x-a", "1"⟩] (AList.insert "X-A" ["1"] ∅)
        (AList.insert "X-B" ["3"] (AList.insert "X-A" ["2"] ∅)) out ∧
      ∀ o, reconcileH2DecodeDeltaIn o [⟨"x-a", "1"⟩] (AList.insert "X-A" ["1"] ∅)
        (AList.insert "X-B" ["3"] (AList.insert "X-A" ["2"] ∅)) = out :=
  reconciled_inEveryOrder (carrierAgrees_single (by decide) "1") _

def teHeader (values : List String) : Header := AList.insert "Te" values ∅

/-- An illegal pair that is in the carrier already stays when its name is appended to. -/
theorem illegal_pair_kept :
    CarrierAgrees [⟨"te", "gzip"⟩] (teHeader ["gzip"]) ∧
    Header.merged (teHeader ["gzip"]) "te" ≠ Header.merged (teHeader ["gzip", "trailers"]) "te" ∧
    OrderedHeaders.named (reconcileH2DecodeDelta [⟨"te", "gzip"⟩] (teHeader ["gzip"])
        (teHeader ["gzip", "trailers"])) "te" ≠
      legalValues "te" (Header.merged (teHeader ["gzip", "trailers"]) "te") :=
  ⟨carrierAgrees_single (by decide) "gzip", by decide, by decide⟩

end EnvoyGo

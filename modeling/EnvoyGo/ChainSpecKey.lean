import EnvoyGo.NetText
import Mathlib.Data.String.Basic

/-!
Duplicate filter chains: the key of a chain and the search for two chains with one key,
`internal/listener/manager.go`.
-/

namespace EnvoyGo.ChainMatch

open Delimited

/-- `sort.Strings`, and `sort.Slice` by the numbers. -/
def sortedCopy {α : Type} [LinearOrder α] (l : List α) : List α :=
  l.mergeSort (fun a b => decide (a ≤ b))

def listed (l : List String) : String := String.join (l.map (fun x => x ++ ","))

def prefixTexts (l : List IPNet) : String := listed (sortedCopy (l.map IPNet.string))

def chainSpecKey (s : ChainSpec) : String :=
  if s.empty then "EMPTY"
  else
    "dp=" ++ Nat.repr s.destinationPort ++ "|" ++
    ("pr=" ++ prefixTexts s.prefixRanges ++ "|") ++
    ("sn=" ++ listed (sortedCopy s.serverNames) ++ "|") ++
    ("tp=" ++ s.transportProtocol ++ "|") ++
    ("ap=" ++ listed (sortedCopy s.applicationProtocols) ++ "|") ++
    ("stl=" ++ toString s.sourceTypeLocal ++ "|") ++
    ("ste=" ++ toString s.sourceTypeExternal ++ "|") ++
    ("spr=" ++ prefixTexts s.sourcePrefixRanges ++ "|") ++
    ("sp=" ++ listed ((sortedCopy s.sourcePorts).map Nat.repr))

/-- The first two chains with one key. -/
def findIdenticalChainSpecs (specs : List ChainSpec) : Option (ℕ × ℕ) :=
  let keys := specs.map chainSpecKey
  (List.range keys.length).findSome? (fun i =>
    ((List.range' (i + 1) (keys.length - (i + 1))).find?
      (fun j => decide (keys[i]? = keys[j]?))).map (fun j => (i, j)))

def SameSet {α : Type} (l m : List α) : Prop := ∀ x, x ∈ l ↔ x ∈ m

def networks (l : List IPNet) : List (Option (IP × Bytes)) := l.map IPNet.networkNumberAndMask

structure SameScalars (a b : ChainSpec) : Prop where
  destinationPort : a.destinationPort = b.destinationPort
  transportProtocol : a.transportProtocol = b.transportProtocol
  sourceTypeLocal : a.sourceTypeLocal = b.sourceTypeLocal
  sourceTypeExternal : a.sourceTypeExternal = b.sourceTypeExternal

/-- The same match values in every dimension. -/
structure SameMatch (a b : ChainSpec) : Prop extends SameScalars a b where
  prefixRanges : SameSet (networks a.prefixRanges) (networks b.prefixRanges)
  serverNames : SameSet a.serverNames b.serverNames
  applicationProtocols : SameSet a.applicationProtocols b.applicationProtocols
  sourcePrefixRanges : SameSet (networks a.sourcePrefixRanges) (networks b.sourcePrefixRanges)
  sourcePorts : SameSet a.sourcePorts b.sourcePorts

/-- Every value is listed as often. -/
structure SameCounts (a b : ChainSpec) : Prop where
  prefixRanges : (networks a.prefixRanges).Perm (networks b.prefixRanges)
  serverNames : a.serverNames.Perm b.serverNames
  applicationProtocols : a.applicationProtocols.Perm b.applicationProtocols
  sourcePrefixRanges : (networks a.sourcePrefixRanges).Perm (networks b.sourcePrefixRanges)
  sourcePorts : a.sourcePorts.Perm b.sourcePorts

/-- The texts that the configuration chooses freely have no separators in them. -/
def Plain (s : ChainSpec) : Prop :=
  (∀ n ∈ s.serverNames, ',' ∉ n.toList ∧ '|' ∉ n.toList) ∧
    (∀ p ∈ s.applicationProtocols, ',' ∉ p.toList ∧ '|' ∉ p.toList) ∧
    '|' ∉ s.transportProtocol.toList

variable {a b : ChainSpec} {α : Type} {l m : List α}

theorem SameMatch.of_counts (hs : SameScalars a b) (hc : SameCounts a b) : SameMatch a b :=
  ⟨hs, fun _ => hc.prefixRanges.mem_iff, fun _ => hc.serverNames.mem_iff,
    fun _ => hc.applicationProtocols.mem_iff, fun _ => hc.sourcePrefixRanges.mem_iff,
    fun _ => hc.sourcePorts.mem_iff⟩

theorem SameSet.eq_nil (h : SameSet [] m) : m = [] :=
  List.eq_nil_iff_forall_not_mem.mpr fun x hx => List.not_mem_nil ((h x).mpr hx)

theorem SameSet.symm (h : SameSet l m) : SameSet m l :=
  fun x => (h x).symm

theorem SameMatch.empty (h : SameMatch a b) (ha : a.empty = true) : b.empty = true := by
  have hd := a.empty_iff.mp ha
  refine b.empty_iff.mpr ?_
  have hnets : ∀ {l : List IPNet}, SameSet (networks []) (networks l) → l = [] :=
    fun hset => List.map_eq_nil_iff.mp hset.eq_nil
  have hport := h.destinationPort
  have hranges := h.prefixRanges
  have hnames := h.serverNames
  have htransport := h.transportProtocol
  have hprotocols := h.applicationProtocols
  have hlocal := h.sourceTypeLocal
  have hexternal := h.sourceTypeExternal
  have hsources := h.sourcePrefixRanges
  have hports := h.sourcePorts
  rw [hd] at hport hranges hnames htransport hprotocols hlocal hexternal hsources hports
  change (⟨b.destinationPort, b.prefixRanges, b.serverNames, b.transportProtocol,
    b.applicationProtocols, b.sourceTypeLocal, b.sourceTypeExternal, b.sourcePrefixRanges,
    b.sourcePorts⟩ : Dimensions) = _
  rw [← hport, hnets hranges, hnames.eq_nil, ← htransport, hprotocols.eq_nil, ← hlocal, ← hexternal,
    hnets hsources, hports.eq_nil]

theorem sortedCopy_eq_iff [LinearOrder α] : sortedCopy l = sortedCopy m ↔ l.Perm m := by
  have hperm : ∀ l : List α, (sortedCopy l).Perm l := fun l => List.mergeSort_perm l _
  have hsorted : ∀ l : List α, (sortedCopy l).Pairwise (· ≤ ·) := by
    intro l
    refine (List.pairwise_mergeSort (fun a b c hab hbc => ?_) (fun a b => ?_) l).imp
      fun h => of_decide_eq_true h
    · exact decide_eq_true (le_trans (of_decide_eq_true hab) (of_decide_eq_true hbc))
    · rw [Bool.or_eq_true, decide_eq_true_eq, decide_eq_true_eq]
      exact le_total a b
  constructor
  · intro h
    have hm := hperm m
    rw [← h] at hm
    exact (hperm l).symm.trans hm
  · intro h
    exact List.Perm.eq_of_pairwise (fun a b _ _ => le_antisymm) (hsorted l) (hsorted m)
      ((hperm l).trans (h.trans (hperm m).symm))

theorem toList_listed (l : List String) :
    (listed l).toList = (l.map String.toList).flatMap (fun x => x ++ [',']) := by
  unfold listed
  rw [String.toList_join, List.flatMap_map, List.flatMap_map]
  refine congrArg (fun f => l.flatMap f) (funext fun x => ?_)
  rw [String.toList_append]
  rfl

theorem listed_inj {l m : List String} (hl : ∀ x ∈ l, ',' ∉ x.toList) (hm : ∀ x ∈ m, ',' ∉ x.toList)
    (h : listed l = listed m) : l = m := by
  have hchars := congrArg String.toList h
  rw [toList_listed, toList_listed] at hchars
  refine List.map_injective_iff.mpr (fun _ _ heq => String.toList_inj.mp heq)
    (flatMap_concat_inj (fun x hx => ?_) (fun x hx => ?_) hchars)
  · obtain ⟨s, hs, rfl⟩ := List.mem_map.mp hx
    exact hl s hs
  · obtain ⟨s, hs, rfl⟩ := List.mem_map.mp hx
    exact hm s hs

theorem notMem_listed {c : Char} (hc : c ≠ ',') {l : List String} (h : ∀ x ∈ l, c ∉ x.toList) :
    c ∉ (listed l).toList := by
  rw [toList_listed]
  intro hmem
  obtain ⟨x, hx, hcx⟩ := List.mem_flatMap.mp hmem
  obtain ⟨s, hs, rfl⟩ := List.mem_map.mp hx
  rcases List.mem_append.mp hcx with hcx | hcx
  · exact h s hs hcx
  · exact hc (List.mem_singleton.mp hcx)

theorem mem_sortedCopy [LinearOrder α] {x : α} :
    x ∈ sortedCopy l ↔ x ∈ l := (List.mergeSort_perm l _).mem_iff

theorem listed_sortedCopy_iff {l m : List String} (hl : ∀ x ∈ l, ',' ∉ x.toList)
    (hm : ∀ x ∈ m, ',' ∉ x.toList) :
    listed (sortedCopy l) = listed (sortedCopy m) ↔ l.Perm m := by
  rw [← sortedCopy_eq_iff]
  constructor
  · intro h
    exact listed_inj (fun x hx => hl x (mem_sortedCopy.mp hx))
      (fun x hx => hm x (mem_sortedCopy.mp hx)) h
  · exact fun h => congrArg listed h

theorem comma_ne : ∀ d < 16, ',' ≠ Nat.digitChar d := by decide

theorem bar_ne : ∀ d < 16, '|' ≠ Nat.digitChar d := by decide

theorem map_eq_extend {β γ : Type} {f : IPNet → β} {g : IPNet → γ}
    (h : Function.FactorsThrough f g) (d : γ → β) (l : List IPNet) :
    l.map f = (l.map g).map (Function.extend g f d) := by
  rw [List.map_map, h.extend_comp]

theorem map_string_perm_iff {l m : List IPNet} :
    (l.map IPNet.string).Perm (m.map IPNet.string) ↔ (networks l).Perm (networks m) := by
  have hread : Function.FactorsThrough IPNet.networkNumberAndMask IPNet.string :=
    fun _ _ => string_inj
  have hwrite : Function.FactorsThrough IPNet.string IPNet.networkNumberAndMask := by
    intro a b h
    unfold IPNet.string
    rw [h]
  unfold networks
  constructor
  · intro h
    rw [map_eq_extend hread fun _ => none, map_eq_extend hread (fun _ => none) m]
    exact h.map _
  · intro h
    rw [map_eq_extend hwrite fun _ => "", map_eq_extend hwrite (fun _ => "") m]
    exact h.map _

theorem prefixTexts_eq_iff {l m : List IPNet} :
    prefixTexts l = prefixTexts m ↔ (networks l).Perm (networks m) := by
  have hfree : ∀ l : List IPNet, ∀ x ∈ l.map IPNet.string, ',' ∉ x.toList := by
    intro l x hx
    obtain ⟨n, -, rfl⟩ := List.mem_map.mp hx
    exact notMem_string comma_ne (by decide) (by decide) (by decide) (by decide) n
  rw [← map_string_perm_iff]
  exact listed_sortedCopy_iff (hfree l) (hfree m)

theorem ports_eq_iff {l m : List ℕ} :
    listed ((sortedCopy l).map Nat.repr) = listed ((sortedCopy m).map Nat.repr) ↔ l.Perm m := by
  have hfree : ∀ l : List ℕ, ∀ x ∈ l.map Nat.repr, ',' ∉ x.toList := by
    intro l x hx
    obtain ⟨n, -, rfl⟩ := List.mem_map.mp hx
    exact notMem_repr comma_ne n
  rw [← sortedCopy_eq_iff]
  constructor
  · intro h
    exact List.map_injective_iff.mpr (fun _ _ => repr_inj) (listed_inj (hfree _) (hfree _) h)
  · exact fun h => congrArg (fun l => listed (l.map Nat.repr)) h

/-- The fields of a key, between its bars. -/
def fields (s : ChainSpec) : List String :=
  ["dp=" ++ Nat.repr s.destinationPort, "pr=" ++ prefixTexts s.prefixRanges,
    "sn=" ++ listed (sortedCopy s.serverNames), "tp=" ++ s.transportProtocol,
    "ap=" ++ listed (sortedCopy s.applicationProtocols), "stl=" ++ toString s.sourceTypeLocal,
    "ste=" ++ toString s.sourceTypeExternal, "spr=" ++ prefixTexts s.sourcePrefixRanges,
    "sp=" ++ listed ((sortedCopy s.sourcePorts).map Nat.repr)]

theorem chainSpecKey_eq {s : ChainSpec} (h : s.empty = false) :
    chainSpecKey s = "|".intercalate (fields s) := by
  unfold chainSpecKey fields
  rw [h]
  simp only [Bool.false_eq_true, if_false, String.intercalate_cons_cons,
    String.intercalate_singleton, String.append_assoc]

theorem bar_notMem_label {label text : String} (hlabel : '|' ∉ label.toList)
    (htext : '|' ∉ text.toList) : '|' ∉ (label ++ text).toList := by
  rw [String.toList_append]
  exact fun hmem => (List.mem_append.mp hmem).elim hlabel htext

theorem bar_notMem_fields {s : ChainSpec} (h : Plain s) : ∀ f ∈ fields s, '|' ∉ f.toList := by
  obtain ⟨hnames, hprotocols, htransport⟩ := h
  have hranges : ∀ l : List IPNet, '|' ∉ (prefixTexts l).toList := by
    intro l
    refine notMem_listed (by decide) fun x hx => ?_
    obtain ⟨n, -, rfl⟩ := List.mem_map.mp (mem_sortedCopy.mp hx)
    exact notMem_string bar_ne (by decide) (by decide) (by decide) (by decide) n
  have hflag : ∀ b : Bool, '|' ∉ (toString b).toList := by decide
  have hports : '|' ∉ (listed ((sortedCopy s.sourcePorts).map Nat.repr)).toList := by
    refine notMem_listed (by decide) fun x hx => ?_
    obtain ⟨n, -, rfl⟩ := List.mem_map.mp hx
    exact notMem_repr bar_ne n
  intro f hf
  simp only [fields, List.mem_cons, List.not_mem_nil, or_false] at hf
  rcases hf with rfl | rfl | rfl | rfl | rfl | rfl | rfl | rfl | rfl
  · exact bar_notMem_label (by decide) (notMem_repr bar_ne _)
  · exact bar_notMem_label (by decide) (hranges _)
  · exact bar_notMem_label (by decide)
      (notMem_listed (by decide) fun x hx => (hnames x (mem_sortedCopy.mp hx)).2)
  · exact bar_notMem_label (by decide) htransport
  · exact bar_notMem_label (by decide)
      (notMem_listed (by decide) fun x hx => (hprotocols x (mem_sortedCopy.mp hx)).2)
  · exact bar_notMem_label (by decide) (hflag _)
  · exact bar_notMem_label (by decide) (hflag _)
  · exact bar_notMem_label (by decide) (hranges _)
  · exact bar_notMem_label (by decide) hports

theorem fields_eq_iff (ha : Plain a) (hb : Plain b) :
    fields a = fields b ↔ SameScalars a b ∧ SameCounts a b := by
  have hlabel : ∀ {label x y : String}, label ++ x = label ++ y ↔ x = y :=
    fun {_ _ _} => String.append_right_inj _
  have hflag : ∀ {x y : Bool}, toString x = toString y ↔ x = y := by decide
  have hport : ∀ {m n : ℕ}, Nat.repr m = Nat.repr n ↔ m = n := ⟨repr_inj, congrArg Nat.repr⟩
  have hnames := listed_sortedCopy_iff (fun x hx => (ha.1 x hx).1) (fun x hx => (hb.1 x hx).1)
  have hprotocols :=
    listed_sortedCopy_iff (fun x hx => (ha.2.1 x hx).1) (fun x hx => (hb.2.1 x hx).1)
  unfold fields
  simp only [List.cons.injEq, hlabel, hport, prefixTexts_eq_iff, hnames, hprotocols, hflag,
    ports_eq_iff, and_true]
  constructor
  · rintro ⟨h1, h2, h3, h4, h5, h6, h7, h8, h9⟩
    exact ⟨⟨h1, h4, h6, h7⟩, h2, h3, h5, h8, h9⟩
  · rintro ⟨⟨h1, h4, h6, h7⟩, h2, h3, h5, h8, h9⟩
    exact ⟨h1, h2, h3, h4, h5, h6, h7, h8, h9⟩

theorem chainSpecKey_ne_empty {s : ChainSpec} (h : s.empty = false) : chainSpecKey s ≠ "EMPTY" := by
  intro heq
  have hbar : '|' ∉ "EMPTY".toList := by decide
  rw [← heq, chainSpecKey_eq h, fields, String.intercalate_cons_cons, String.toList_append,
    String.toList_append] at hbar
  exact hbar (List.mem_append_left _ (List.mem_append_right _ List.mem_cons_self))

theorem chainSpecKey_eq_iff (ha : Plain a) (hb : Plain b) :
    chainSpecKey a = chainSpecKey b ↔ SameScalars a b ∧ SameCounts a b := by
  have hempty : ∀ s : ChainSpec, s.empty = true → chainSpecKey s = "EMPTY" := by
    intro s hs
    unfold chainSpecKey
    rw [hs]
    rfl
  have hapart : ∀ {a b : ChainSpec}, a.empty = true → b.empty = false →
      ¬(SameScalars a b ∧ SameCounts a b) := by
    rintro a b hea heb ⟨hs, hc⟩
    rw [(SameMatch.of_counts hs hc).empty hea] at heb
    cases heb
  have hsymm : SameScalars a b ∧ SameCounts a b → SameScalars b a ∧ SameCounts b a := by
    rintro ⟨hs, hc⟩
    exact ⟨⟨hs.1.symm, hs.2.symm, hs.3.symm, hs.4.symm⟩, hc.1.symm, hc.2.symm, hc.3.symm, hc.4.symm,
      hc.5.symm⟩
  cases hea : a.empty with
  | true =>
    cases heb : b.empty with
    | true =>
      have hsame := (a.empty_iff.mp hea).trans (b.empty_iff.mp heb).symm
      have hfield : ∀ {α : Type} (f : Dimensions → α), f a.toDimensions = f b.toDimensions :=
        fun f => congrArg f hsame
      have hscalars : SameScalars a b := ⟨hfield Dimensions.destinationPort,
        hfield Dimensions.transportProtocol, hfield Dimensions.sourceTypeLocal,
        hfield Dimensions.sourceTypeExternal⟩
      have hcounts : SameCounts a b := ⟨.of_eq (hfield fun d => networks d.prefixRanges),
        .of_eq (hfield Dimensions.serverNames), .of_eq (hfield Dimensions.applicationProtocols),
        .of_eq (hfield fun d => networks d.sourcePrefixRanges),
        .of_eq (hfield Dimensions.sourcePorts)⟩
      exact iff_of_true ((hempty a hea).trans (hempty b heb).symm) ⟨hscalars, hcounts⟩
    | false =>
      rw [hempty a hea]
      exact iff_of_false (fun h => chainSpecKey_ne_empty heb h.symm) (hapart hea heb)
  | false =>
    cases heb : b.empty with
    | true =>
      rw [hempty b heb]
      exact iff_of_false (chainSpecKey_ne_empty hea) fun h => hapart heb hea (hsymm h)
    | false =>
      rw [chainSpecKey_eq hea, chainSpecKey_eq heb, ← fields_eq_iff ha hb]
      constructor
      · intro h
        exact string_intercalate_inj (c := '|') (bar_notMem_fields ha) (bar_notMem_fields hb)
          (List.cons_ne_nil _ _) (List.cons_ne_nil _ _) h
      · exact fun h => congrArg _ h

theorem any_congr (h : SameSet l m) (p : α → Bool) : l.any p = m.any p := by
  rw [Bool.eq_iff_iff, List.any_eq_true, List.any_eq_true]
  exact exists_congr fun x => and_congr_left fun _ => h x

theorem nil_congr (h : SameSet l m) : l = [] ↔ m = [] := by
  constructor
  · rintro rfl
    exact h.eq_nil
  · rintro rfl
    exact h.symm.eq_nil

theorem ipInAny_congr {l m : List IPNet} (h : SameSet (networks l) (networks m)) (ip : IP) :
    ipInAny ip l = ipInAny ip m ∧ (l = [] ↔ m = []) := by
  have hfactors : Function.FactorsThrough (fun n : IPNet => n.contains ip)
      IPNet.networkNumberAndMask := by
    intro a b h
    show a.contains ip = b.contains ip
    unfold IPNet.contains
    rw [h]
  have hany := any_congr h (Function.extend IPNet.networkNumberAndMask
    (fun n => n.contains ip) fun _ => false)
  unfold networks at hany
  rw [List.any_map, List.any_map, hfactors.extend_comp] at hany
  refine ⟨?_, ?_⟩
  · unfold ipInAny
    split_ifs
    · rfl
    · exact hany
  · have hnil := nil_congr h
    unfold networks at hnil
    rw [List.map_eq_nil_iff, List.map_eq_nil_iff] at hnil
    exact hnil

theorem matchesInputs_of_same (h : SameMatch a b) (inputs : ChainMatchInputs) :
    matchesInputs a inputs = matchesInputs b inputs := by
  have hsymm : SameMatch b a := ⟨⟨h.1.1.symm, h.1.2.symm, h.1.3.symm, h.1.4.symm⟩,
    h.prefixRanges.symm, h.serverNames.symm, h.applicationProtocols.symm,
    h.sourcePrefixRanges.symm, h.sourcePorts.symm⟩
  have hempty : a.empty = b.empty := Bool.eq_iff_iff.mpr ⟨h.empty, hsymm.empty⟩
  obtain ⟨hto, htoNil⟩ := ipInAny_congr h.prefixRanges inputs.destinationIP
  obtain ⟨hfrom, hfromNil⟩ := ipInAny_congr h.sourcePrefixRanges inputs.sourceIP
  have hnames : sniMatchAny a.serverNames inputs.serverName =
      sniMatchAny b.serverNames inputs.serverName := any_congr h.serverNames _
  have hprotocols : alpnMatchAny a.applicationProtocols inputs.applicationProtocols =
      alpnMatchAny b.applicationProtocols inputs.applicationProtocols :=
    any_congr h.applicationProtocols _
  have hports : portInAny inputs.sourcePort a.sourcePorts =
      portInAny inputs.sourcePort b.sourcePorts := any_congr h.sourcePorts _
  unfold matchesInputs
  simp only [hempty, h.destinationPort, h.transportProtocol, h.sourceTypeLocal,
    h.sourceTypeExternal, hto, hfrom, hnames, hprotocols, hports, ne_eq, htoNil, hfromNil,
    nil_congr h.serverNames, nil_congr h.applicationProtocols, nil_congr h.sourcePorts]

/-- Some two chains of the list, in its order. -/
def SomePair (R : ChainSpec → ChainSpec → Prop) (specs : List ChainSpec) : Prop :=
  ∃ (i j : ℕ) (a b : ChainSpec), i < j ∧ specs[i]? = some a ∧ specs[j]? = some b ∧ R a b

theorem findIdenticalChainSpecs_isSome (specs : List ChainSpec) :
    (findIdenticalChainSpecs specs).isSome = true ↔
      SomePair (fun a b => chainSpecKey a = chainSpecKey b) specs := by
  unfold findIdenticalChainSpecs SomePair
  dsimp only
  rw [List.findSome?_isSome_iff]
  constructor
  · rintro ⟨i, hi, hfound⟩
    rw [Option.isSome_map, List.find?_isSome] at hfound
    obtain ⟨j, hj, heq⟩ := hfound
    rw [List.mem_range, List.length_map] at hi
    rw [List.mem_range'_1, List.length_map] at hj
    have hj' : j < specs.length := by omega
    rw [decide_eq_true_eq, List.getElem?_map, List.getElem?_map, List.getElem?_eq_getElem hi,
      List.getElem?_eq_getElem hj'] at heq
    exact ⟨i, j, specs[i], specs[j], by omega, List.getElem?_eq_getElem hi,
      List.getElem?_eq_getElem hj', Option.some.inj heq⟩
  · rintro ⟨i, j, a, b, hij, hi, hj, heq⟩
    obtain ⟨hil, -⟩ := List.getElem?_eq_some_iff.mp hi
    obtain ⟨hjl, -⟩ := List.getElem?_eq_some_iff.mp hj
    refine ⟨i, ?_, ?_⟩
    · rw [List.mem_range, List.length_map]
      exact hil
    · rw [Option.isSome_map, List.find?_isSome]
      refine ⟨j, ?_, ?_⟩
      · rw [List.mem_range'_1, List.length_map]
        omega
      · rw [decide_eq_true_eq, List.getElem?_map, List.getElem?_map, hi, hj]
        exact congrArg some heq

/-- Without separators in the texts, two chains have one key exactly when they have the same match
values, unless they list one of them a different number of times; and then a configuration is
rejected exactly for two chains with the same match values. -/
theorem duplicate_iff_same_match (specs : List ChainSpec) (hplain : ∀ s ∈ specs, Plain s) :
    (∀ a ∈ specs, ∀ b ∈ specs, ((chainSpecKey a = chainSpecKey b ↔ SameMatch a b) ↔
      (SameMatch a b → SameCounts a b))) ∧
    (((findIdenticalChainSpecs specs).isSome = true ↔ SomePair SameMatch specs) ↔
      (SomePair SameMatch specs → SomePair (fun a b => SameMatch a b ∧ SameCounts a b) specs)) ∧
    ∀ a b, SameMatch a b → ∀ inputs, matchesInputs a inputs = matchesInputs b inputs := by
  have hkey : ∀ a ∈ specs, ∀ b ∈ specs,
      (chainSpecKey a = chainSpecKey b ↔ SameMatch a b ∧ SameCounts a b) := by
    intro a ha b hb
    rw [chainSpecKey_eq_iff (hplain a ha) (hplain b hb)]
    exact ⟨fun h => ⟨.of_counts h.1 h.2, h.2⟩, fun h => ⟨h.1.toSameScalars, h.2⟩⟩
  have hpairs : SomePair (fun a b => chainSpecKey a = chainSpecKey b) specs ↔
      SomePair (fun a b => SameMatch a b ∧ SameCounts a b) specs := by
    unfold SomePair
    refine exists_congr fun i => exists_congr fun j => exists_congr fun a => ?_
    refine exists_congr fun b => ?_
    refine and_congr_right fun _ => and_congr_right fun hi => and_congr_right fun hj => ?_
    exact hkey a (List.mem_of_getElem? hi) b (List.mem_of_getElem? hj)
  refine ⟨fun a ha b hb => ?_, ?_, fun a b h inputs => matchesInputs_of_same h inputs⟩
  · rw [hkey a ha b hb, and_iff_left_iff_imp]
  · rw [findIdenticalChainSpecs_isSome, hpairs]
    refine ⟨fun h => h.mpr, fun h => ⟨?_, h⟩⟩
    rintro ⟨i, j, a, b, hij, hi, hj, hboth⟩
    exact ⟨i, j, a, b, hij, hi, hj, hboth.1⟩

def namedChain (name : String) (names : List String) : ChainSpec :=
  chainSpec name { serverNames := names }

theorem duplicate_iff_same_match_swapped :
    (findIdenticalChainSpecs [namedChain "x" ["a", "b"], namedChain "y" ["b", "a"]]).isSome = true ∧
      SomePair SameMatch [namedChain "x" ["a", "b"], namedChain "y" ["b", "a"]] := by
  have hplain : ∀ s ∈ [namedChain "x" ["a", "b"], namedChain "y" ["b", "a"]], Plain s := by
    intro s hs
    rcases List.mem_cons.mp hs with rfl | hs
    · exact ⟨by decide, by decide, by decide⟩
    · rw [List.mem_singleton.mp hs]
      exact ⟨by decide, by decide, by decide⟩
  have hcounts : SameCounts (namedChain "x" ["a", "b"]) (namedChain "y" ["b", "a"]) :=
    ⟨.refl _, List.Perm.swap _ _ _, .refl _, .refl _, .refl _⟩
  have hsame : SameMatch (namedChain "x" ["a", "b"]) (namedChain "y" ["b", "a"]) :=
    .of_counts ⟨rfl, rfl, rfl, rfl⟩ hcounts
  have hpair : SomePair SameMatch [namedChain "x" ["a", "b"], namedChain "y" ["b", "a"]] :=
    ⟨0, 1, _, _, Nat.zero_lt_one, rfl, rfl, hsame⟩
  have hiff := (duplicate_iff_same_match _ hplain).2.1.mpr
    fun _ => ⟨0, 1, _, _, Nat.zero_lt_one, rfl, rfl, hsame, hcounts⟩
  exact ⟨hiff.mpr hpair, hpair⟩

def portsChain (name : String) (ports : List ℕ) : ChainSpec :=
  chainSpec name { sourcePorts := ports }

def protocolsChain (name : String) (protocols : List String) : ChainSpec :=
  chainSpec name { applicationProtocols := protocols }

/-- A port that is listed twice hides a duplicate, and a comma makes one up. -/
theorem duplicate_missed_and_made_up :
    ¬(chainSpecKey (portsChain "x" [1000, 1000]) = chainSpecKey (portsChain "y" [1000]) ↔
      SameMatch (portsChain "x" [1000, 1000]) (portsChain "y" [1000])) ∧
    ¬(chainSpecKey (protocolsChain "x" ["a,b"]) = chainSpecKey (protocolsChain "y" ["a", "b"]) ↔
      SameMatch (protocolsChain "x" ["a,b"]) (protocolsChain "y" ["a", "b"])) := by
  constructor
  · have hsame : SameMatch (portsChain "x" [1000, 1000]) (portsChain "y" [1000]) := by
      refine ⟨⟨rfl, rfl, rfl, rfl⟩, fun _ => Iff.rfl, fun _ => Iff.rfl, fun _ => Iff.rfl,
        fun _ => Iff.rfl, fun p => ?_⟩
      change p ∈ [1000, 1000] ↔ p ∈ [1000]
      rw [List.mem_cons, or_iff_right_of_imp List.mem_singleton.mpr]
    have hplain : ∀ name ports, Plain (portsChain name ports) := fun _ _ =>
      ⟨(fun _ h => absurd h List.not_mem_nil), (fun _ h => absurd h List.not_mem_nil),
      List.not_mem_nil⟩
    intro h
    have hcounts := ((chainSpecKey_eq_iff (hplain _ _) (hplain _ _)).mp (h.mpr hsame)).2
    exact absurd hcounts.sourcePorts.length_eq (by decide)
  · have hkeys : chainSpecKey (protocolsChain "x" ["a,b"]) =
        chainSpecKey (protocolsChain "y" ["a", "b"]) := by
      have hone : sortedCopy ["a,b"] = ["a,b"] := List.mergeSort_of_pairwise (by decide)
      have htwo : sortedCopy ["a", "b"] = ["a", "b"] := List.mergeSort_of_pairwise (by decide)
      have htext : listed (sortedCopy ["a,b"]) = listed (sortedCopy ["a", "b"]) := by
        rw [hone, htwo]
        decide
      rw [chainSpecKey_eq (by decide), chainSpecKey_eq (by decide)]
      unfold fields protocolsChain chainSpec
      dsimp only
      rw [htext]
    intro h
    have hmem := ((h.mp hkeys).applicationProtocols "a").mpr List.mem_cons_self
    exact absurd (List.mem_singleton.mp hmem) (by decide)

end EnvoyGo.ChainMatch

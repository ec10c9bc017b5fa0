import EnvoyGo.Float64
import Mathlib.Data.List.AList
import Mathlib.Data.List.Sort
import Mathlib.Data.String.Basic
import Mathlib.Data.UInt

/-!
The subset load balancer.  Endpoints are grouped per selector by the values of their metadata, under
the canonical key of those values, and a route's match is looked up by its canonical key.
-/

namespace EnvoyGo.Subset

inductive SubsetValue
  | string (s : String)
  | number (x : Float64)
  | bool (b : Bool)
  deriving DecidableEq

def valueEqual : SubsetValue → SubsetValue → Bool
  | .string a, .string b => a == b
  | .number a, .number b => a.eq b
  | .bool a, .bool b => a == b
  | _, _ => false

abbrev Scalars := AList fun _ : String => SubsetValue

/-- A match: keys and values, sorted by the keys. -/
structure SubsetMatch where
  kvs : List (String × SubsetValue)
  sorted : (kvs.map Prod.fst).Pairwise (· < ·)

def newSubsetMatch (m : Scalars) : SubsetMatch where
  kvs := (m.entries.map fun e => (e.1, e.2)).insertionSort fun a b => a.1 ≤ b.1
  sorted := by
    have hperm := List.perm_insertionSort (fun a b : String × SubsetValue => a.1 ≤ b.1)
      (m.entries.map fun e => (e.1, e.2))
    have hkeys : ((m.entries.map fun e => (e.1, e.2)).map Prod.fst).Nodup := by
      rw [List.map_map]
      exact m.nodupKeys
    rw [List.pairwise_map]
    refine ((List.pairwise_insertionSort _ _).and
      (List.pairwise_map.mp ((hperm.map Prod.fst).nodup_iff.mpr hkeys))).imp ?_
    intro a b h
    exact lt_of_le_of_ne h.1 h.2

def item (kv : String × SubsetValue) : String :=
  kv.1 ++ "=" ++
    (match kv.2 with
      | .string s => "s:" ++ s
      | .number x => "n:" ++ x.formatFloat
      | .bool b => "b:" ++ (if b then "true" else "false")) ++ ";"

namespace SubsetMatch

def isEmpty (m : SubsetMatch) : Bool := m.kvs.isEmpty

def keys (m : SubsetMatch) : List String := m.kvs.map Prod.fst

/-- The canonical lookup string. -/
def key (m : SubsetMatch) : String := m.kvs.foldl (fun b kv => b ++ item kv) ""

end SubsetMatch

structure Endpoint where
  addr : String
  metadata : Scalars

inductive FallbackPolicy
  | noFallback
  | anyEndpoint
  | defaultSubset
  deriving DecidableEq

structure LbSubsetCfg where
  fallback : FallbackPolicy
  defaultSubset : Scalars := ∅
  selectors : List (List String)

/-- The children: `build` makes one over endpoints or fails, and `pick` takes a child and what its
counters, random source and hash key give for one call. -/
structure LeafFactory (LB D : Type) where
  build : List Endpoint → Option LB
  pick : LB → D → Option Endpoint

structure Stats where
  selected : Nat := 0
  fallback : Nat := 0

structure SubsetLB (LB : Type) where
  subsets : AList fun _ : String => LB
  fallback : Option LB

def scalarsForKeys (md : Scalars) (keys : List String) : Option Scalars :=
  keys.foldlM (fun out k => (md.lookup k).map (out.insert k)) ∅

def endpointMatches (ep : Endpoint) (m : SubsetMatch) : Bool :=
  m.kvs.all fun kv => (ep.metadata.lookup kv.1).any fun v => valueEqual v kv.2

def addMember (keys : List String) (groups : AList fun _ : String => List Endpoint)
    (ep : Endpoint) : AList fun _ : String => List Endpoint :=
  match scalarsForKeys ep.metadata keys with
  | none => groups
  | some vals =>
    let k := (newSubsetMatch vals).key
    groups.insert k ((groups.lookup k).getD [] ++ [ep])

def groupsFor (endpoints : List Endpoint) (keys : List String) :
    AList fun _ : String => List Endpoint :=
  endpoints.foldl (addMember keys) ∅

section Build

variable {LB D : Type} (f : LeafFactory LB D)

def addSubset (subsets : AList fun _ : String => LB) (g : (_ : String) × List Endpoint) :
    AList fun _ : String => LB :=
  if (subsets.lookup g.1).isSome then subsets
  else
    match f.build g.2 with
    | none => subsets
    | some child => subsets.insert g.1 child

def buildFallback (endpoints : List Endpoint) (cfg : LbSubsetCfg) : Option LB :=
  match cfg.fallback with
  | .anyEndpoint => f.build endpoints
  | .defaultSubset =>
    let members := endpoints.filter (endpointMatches · (newSubsetMatch cfg.defaultSubset))
    if members.isEmpty then none else f.build members
  | .noFallback => none

def newSubsetLB (endpoints : List Endpoint) (cfg : LbSubsetCfg) : SubsetLB LB where
  subsets := cfg.selectors.foldl (fun subsets keys =>
    (groupsFor endpoints keys).entries.foldl (addSubset f) subsets) ∅
  fallback := buildFallback f endpoints cfg

def useFallback (s : SubsetLB LB) (d : D) (st : Stats) : Option Endpoint × Stats :=
  match s.fallback with
  | none => (none, st)
  | some child => (f.pick child d, { st with fallback := st.fallback + 1 })

def pick (s : SubsetLB LB) (d : D) (m : SubsetMatch) (hasMatch : Bool) (st : Stats) :
    Option Endpoint × Stats :=
  if hasMatch && !m.isEmpty then
    match s.subsets.lookup m.key with
    | some child => (f.pick child d, { st with selected := st.selected + 1 })
    | none => useFallback f s d st
  else useFallback f s d st

end Build

structure LeafFactory.Lawful {LB D : Type} (f : LeafFactory LB D) : Prop where
  builds : ∀ eps, eps ≠ [] → (f.build eps).isSome = true
  picks : ∀ eps child d, eps ≠ [] → f.build eps = some child → ∃ ep ∈ eps, f.pick child d = some ep

/-- A selector has the keys of the match, and an endpoint carries its values. -/
def Served (endpoints : List Endpoint) (cfg : LbSubsetCfg) (m : SubsetMatch) : Prop :=
  (∃ keys ∈ cfg.selectors, ∀ k, k ∈ keys ↔ k ∈ m.keys) ∧
    ∃ ep ∈ endpoints, endpointMatches ep m = true

def SubsetMatch.Same (m m' : SubsetMatch) : Prop :=
  List.Forall₂ (fun a b => a.1 = b.1 ∧ (a.2 = b.2 ∨ valueEqual a.2 b.2 = true)) m.kvs m'.kvs

/-- Every match of the routes is picked for exactly: from the endpoints that carry it if it is
served, through the fallback if not, and never through the subset of a different match. -/
structure RoutedExactly (endpoints : List Endpoint) (cfg : LbSubsetCfg) (ms : List SubsetMatch) :
    Prop where
  served : ∀ m ∈ ms, m.isEmpty = false → Served endpoints cfg m →
    ∀ {LB D : Type} (f : LeafFactory LB D), f.Lawful → ∀ d st, ∃ ep,
      (pick f (newSubsetLB f endpoints cfg) d m true st).1 = some ep ∧ endpointMatches ep m = true
  missed : ∀ m ∈ ms, m.isEmpty = false → ¬ Served endpoints cfg m →
    ∀ {LB D : Type} (f : LeafFactory LB D), f.Lawful → ∀ d st,
      pick f (newSubsetLB f endpoints cfg) d m true st =
        useFallback f (newSubsetLB f endpoints cfg) d st
  apart : ∀ m ∈ ms, ∀ m' ∈ ms, m.isEmpty = false → m'.isEmpty = false →
    ∀ {LB D : Type} (f : LeafFactory LB D), f.Lawful → ∀ child,
      (newSubsetLB f endpoints cfg).subsets.lookup m.key = some child →
      (newSubsetLB f endpoints cfg).subsets.lookup m'.key = some child → m.key = m'.key → m.Same m'

/-- The endpoint has all keys of the selector, and `k` is the canonical key of its values. -/
def hasKey (keys : List String) (k : String) (ep : Endpoint) : Bool :=
  (scalarsForKeys ep.metadata keys).any fun vals => (newSubsetMatch vals).key == k

def members (endpoints : List Endpoint) (k : String) (keys : List String) : List Endpoint :=
  endpoints.filter (hasKey keys k)

def keyed (endpoints : List Endpoint) (k : String) : List (List String) → List Endpoint
  | [] => []
  | keys :: rest =>
    if members endpoints k keys = [] then keyed endpoints k rest else members endpoints k keys

def fallbackEndpoints (endpoints : List Endpoint) (cfg : LbSubsetCfg) : List Endpoint :=
  match cfg.fallback with
  | .anyEndpoint => endpoints
  | .defaultSubset => endpoints.filter (endpointMatches · (newSubsetMatch cfg.defaultSubset))
  | .noFallback => []

/-- The canonical keys tell the values apart.  No endpoint with the key of a match has other values
or comes from selectors none of which has the keys of the match; no endpoint that carries a served
match is without its key, unless the fallback does as well; and different matches have different
keys. -/
structure KeysTell (endpoints : List Endpoint) (cfg : LbSubsetCfg) (ms : List SubsetMatch) :
    Prop where
  carried : ∀ m ∈ ms, m.isEmpty = false → ∀ ep ∈ keyed endpoints m.key cfg.selectors,
    endpointMatches ep m = true
  selected : ∀ m ∈ ms, m.isEmpty = false → keyed endpoints m.key cfg.selectors ≠ [] →
    ∃ keys ∈ cfg.selectors, ∀ k, k ∈ keys ↔ k ∈ m.keys
  found : ∀ m ∈ ms, m.isEmpty = false → Served endpoints cfg m →
    keyed endpoints m.key cfg.selectors = [] →
    fallbackEndpoints endpoints cfg ≠ [] ∧
      ∀ ep ∈ fallbackEndpoints endpoints cfg, endpointMatches ep m = true
  apart : ∀ m ∈ ms, ∀ m' ∈ ms, m.isEmpty = false → m'.isEmpty = false → m.key = m'.key →
    keyed endpoints m.key cfg.selectors ≠ [] → m.Same m'

theorem members_cons (ep : Endpoint) (endpoints : List Endpoint) (k : String)
    (keys : List String) : members (ep :: endpoints) k keys =
      if hasKey keys k ep = true then ep :: members endpoints k keys
      else members endpoints k keys :=
  List.filter_cons

theorem lookup_addMember (keys : List String) (groups : AList fun _ : String => List Endpoint)
    (ep : Endpoint) (k : String) :
    (addMember keys groups ep).lookup k =
      if hasKey keys k ep = true then some ((groups.lookup k).getD [] ++ [ep])
      else groups.lookup k := by
  unfold addMember hasKey
  cases scalarsForKeys ep.metadata keys with
  | none => rfl
  | some vals =>
    by_cases hk : k = (newSubsetMatch vals).key
    · subst hk
      exact (AList.lookup_insert _).trans (if_pos (beq_self_eq_true _)).symm
    · have hne : ¬ ((newSubsetMatch vals).key == k) = true :=
        fun he => hk (beq_iff_eq.mp he).symm
      exact (AList.lookup_insert_ne hk).trans (if_neg hne).symm

theorem lookup_foldl_addMember (endpoints : List Endpoint) (keys : List String) (k : String)
    (groups : AList fun _ : String => List Endpoint) :
    (endpoints.foldl (addMember keys) groups).lookup k =
      if members endpoints k keys = [] then groups.lookup k
      else some ((groups.lookup k).getD [] ++ members endpoints k keys) := by
  induction endpoints generalizing groups with
  | nil => rfl
  | cons ep endpoints ih =>
    rw [List.foldl_cons, ih, members_cons, lookup_addMember]
    by_cases hk : hasKey keys k ep = true
    · rw [if_pos hk, if_pos hk, if_neg (List.cons_ne_nil _ _)]
      by_cases hnil : members endpoints k keys = []
      · rw [if_pos hnil, hnil]
      · rw [if_neg hnil, Option.getD_some, List.append_assoc, List.singleton_append]
    · rw [if_neg hk, if_neg hk]

theorem lookup_groupsFor (endpoints : List Endpoint) (keys : List String) (k : String) :
    (groupsFor endpoints keys).lookup k =
      if members endpoints k keys = [] then none else some (members endpoints k keys) := by
  unfold groupsFor
  rw [lookup_foldl_addMember, AList.lookup_empty, Option.getD_none, List.nil_append]

theorem keyed_cons_of_nil {endpoints : List Endpoint} {k : String} {keys : List String}
    {rest : List (List String)} (h : members endpoints k keys = []) :
    keyed endpoints k (keys :: rest) = keyed endpoints k rest :=
  if_pos h

theorem keyed_cons_of_ne_nil {endpoints : List Endpoint} {k : String} {keys : List String}
    {rest : List (List String)} (h : members endpoints k keys ≠ []) :
    keyed endpoints k (keys :: rest) = members endpoints k keys :=
  if_neg h

section Lookup

variable {LB D : Type} (f : LeafFactory LB D)

theorem lookup_addSubset (subsets : AList fun _ : String => LB)
    (g : (_ : String) × List Endpoint) (k : String) :
    (addSubset f subsets g).lookup k =
      (subsets.lookup k).or (if k = g.1 then f.build g.2 else none) := by
  unfold addSubset
  by_cases hk : k = g.1
  · subst hk
    cases hold : subsets.lookup g.1 with
    | some child => simp [hold]
    | none =>
      cases hbuild : f.build g.2 with
      | none => simp [hold]
      | some child => simp
  · rw [if_neg hk, Option.or_none]
    split
    · rfl
    · split
      · rfl
      · exact AList.lookup_insert_ne hk

theorem lookup_foldl_addSubset (k : String) (gs : List ((_ : String) × List Endpoint))
    (hgs : gs.NodupKeys) (subsets : AList fun _ : String => LB) :
    (gs.foldl (addSubset f) subsets).lookup k =
      (subsets.lookup k).or ((gs.dlookup k).bind f.build) := by
  induction gs generalizing subsets with
  | nil => simp
  | cons g gs ih =>
    obtain ⟨hnot, hrest⟩ := List.nodupKeys_cons.mp hgs
    rw [List.foldl_cons, ih hrest, lookup_addSubset, Option.or_assoc]
    congr 1
    by_cases hk : k = g.1
    · subst hk
      have hnone : gs.dlookup g.1 = none := List.dlookup_eq_none.mpr hnot
      rw [if_pos rfl, hnone, Option.bind_none, Option.or_none, List.dlookup_cons_eq,
        Option.bind_some]
    · rw [if_neg hk, Option.none_or, List.dlookup_cons_ne _ _ hk]

variable {f}

theorem lookup_foldl_selectors (hf : f.Lawful) (endpoints : List Endpoint) (k : String)
    (selectors : List (List String)) (subsets : AList fun _ : String => LB) :
    (selectors.foldl (fun subsets keys => (groupsFor endpoints keys).entries.foldl (addSubset f)
      subsets) subsets).lookup k =
      (subsets.lookup k).or (if keyed endpoints k selectors = [] then none
        else f.build (keyed endpoints k selectors)) := by
  induction selectors generalizing subsets with
  | nil => exact Option.or_none.symm
  | cons keys selectors ih =>
    have hgroup : ((groupsFor endpoints keys).entries.dlookup k).bind f.build =
        if members endpoints k keys = [] then none else f.build (members endpoints k keys) := by
      refine (congrArg (Option.bind · f.build) (lookup_groupsFor endpoints keys k)).trans ?_
      split_ifs <;> rfl
    rw [List.foldl_cons, ih, lookup_foldl_addSubset f k _ (groupsFor endpoints keys).nodupKeys,
      hgroup, Option.or_assoc]
    congr 1
    by_cases hnil : members endpoints k keys = []
    · rw [if_pos hnil, Option.none_or, keyed_cons_of_nil hnil]
    · obtain ⟨child, hchild⟩ := Option.isSome_iff_exists.mp (hf.builds _ hnil)
      rw [if_neg hnil, keyed_cons_of_ne_nil hnil, if_neg hnil, hchild, Option.some_or]

theorem lookup_subsets (hf : f.Lawful) (endpoints : List Endpoint) (cfg : LbSubsetCfg)
    (k : String) : (newSubsetLB f endpoints cfg).subsets.lookup k =
      if keyed endpoints k cfg.selectors = [] then none
      else f.build (keyed endpoints k cfg.selectors) :=
  (lookup_foldl_selectors hf endpoints k cfg.selectors ∅).trans Option.none_or

end Lookup

section Pick

variable {LB D : Type} {f : LeafFactory LB D} {endpoints : List Endpoint} {cfg : LbSubsetCfg}
  {m : SubsetMatch}

theorem pick_of_nil (hf : f.Lawful) (hkeyed : keyed endpoints m.key cfg.selectors = []) (d : D)
    (st : Stats) : pick f (newSubsetLB f endpoints cfg) d m true st =
      useFallback f (newSubsetLB f endpoints cfg) d st := by
  unfold pick
  rw [lookup_subsets hf, if_pos hkeyed]
  split_ifs <;> rfl

theorem pick_of_ne_nil (hf : f.Lawful) (hm : m.isEmpty = false)
    (hkeyed : keyed endpoints m.key cfg.selectors ≠ []) (d : D) (st : Stats) :
    ∃ child, f.build (keyed endpoints m.key cfg.selectors) = some child ∧
      pick f (newSubsetLB f endpoints cfg) d m true st =
        (f.pick child d, { st with selected := st.selected + 1 }) := by
  obtain ⟨child, hchild⟩ := Option.isSome_iff_exists.mp (hf.builds _ hkeyed)
  refine ⟨child, hchild, ?_⟩
  unfold pick
  rw [lookup_subsets hf, if_neg hkeyed, hchild, hm]
  rfl

theorem useFallback_selected (s : SubsetLB LB) (d : D) (st : Stats) :
    (useFallback f s d st).2.selected = st.selected := by
  unfold useFallback
  split <;> rfl

theorem buildFallback_of_ne_nil (h : fallbackEndpoints endpoints cfg ≠ []) :
    buildFallback f endpoints cfg = f.build (fallbackEndpoints endpoints cfg) := by
  unfold fallbackEndpoints at h ⊢
  unfold buildFallback
  cases hpol : cfg.fallback with
  | noFallback => simp [hpol] at h
  | anyEndpoint => rfl
  | defaultSubset =>
    simp only [hpol] at h ⊢
    rw [if_neg (by simpa using h)]

theorem buildFallback_of_nil (hne : endpoints ≠ []) (h : fallbackEndpoints endpoints cfg = []) :
    buildFallback f endpoints cfg = none := by
  unfold fallbackEndpoints at h
  unfold buildFallback
  cases hpol : cfg.fallback with
  | noFallback => rfl
  | anyEndpoint =>
    simp only [hpol] at h
    exact absurd h hne
  | defaultSubset =>
    simp only [hpol] at h ⊢
    rw [if_pos (by rw [h]; rfl)]

theorem useFallback_of_ne_nil (hf : f.Lawful) (h : fallbackEndpoints endpoints cfg ≠ []) (d : D)
    (st : Stats) : ∃ child, f.build (fallbackEndpoints endpoints cfg) = some child ∧
      (useFallback f (newSubsetLB f endpoints cfg) d st).1 = f.pick child d := by
  obtain ⟨child, hchild⟩ := Option.isSome_iff_exists.mp (hf.builds _ h)
  refine ⟨child, hchild, ?_⟩
  unfold useFallback
  rw [show (newSubsetLB f endpoints cfg).fallback = some child from
    (buildFallback_of_ne_nil h).trans hchild]

end Pick

def seeking (p : Endpoint → Bool) : LeafFactory (List Endpoint) Unit where
  build := some
  pick eps _ := (eps.find? p).or eps.head?

theorem seeking_lawful (p : Endpoint → Bool) : (seeking p).Lawful where
  builds := fun _ _ => rfl
  picks := by
    intro eps child d hne hchild
    obtain rfl := Option.some.inj hchild
    obtain ⟨first, rest, rfl⟩ := List.exists_cons_of_ne_nil hne
    cases hfind : (first :: rest).find? p with
    | none => exact ⟨first, List.mem_cons_self, by simp [seeking, hfind]⟩
    | some ep => exact ⟨ep, List.mem_of_find?_eq_some hfind, by simp [seeking, hfind]⟩

theorem forall_of_seeking {p : Endpoint → Bool} {eps : List Endpoint} {found : Endpoint}
    (hpick : (seeking p).pick eps () = some found) (hfound : p found = false) :
    ∀ ep ∈ eps, p ep = false := by
  intro ep hep
  rw [Bool.eq_false_iff]
  intro hp
  cases hfind : eps.find? p with
  | none => exact absurd hp (List.find?_eq_none.mp hfind ep hep)
  | some e =>
    have he : e = found := by simpa [seeking, hfind] using hpick
    have hpe := List.find?_some hfind
    rw [he, hfound] at hpe
    cases hpe

theorem mem_of_mem_keyed {endpoints : List Endpoint} {k : String} {selectors : List (List String)}
    {ep : Endpoint} (h : ep ∈ keyed endpoints k selectors) : ep ∈ endpoints := by
  induction selectors with
  | nil => cases h
  | cons keys rest ih =>
    by_cases hnil : members endpoints k keys = []
    · rw [keyed_cons_of_nil hnil] at h
      exact ih h
    · rw [keyed_cons_of_ne_nil hnil] at h
      exact List.mem_of_mem_filter h

section Exact

variable {endpoints : List Endpoint} {cfg : LbSubsetCfg} {ms : List SubsetMatch}

theorem routedExactly_of_keysTell (h : KeysTell endpoints cfg ms) :
    RoutedExactly endpoints cfg ms where
  served := by
    intro m hmem hm hserved LB D f hf d st
    by_cases hkeyed : keyed endpoints m.key cfg.selectors = []
    · obtain ⟨hne, hall⟩ := h.found m hmem hm hserved hkeyed
      obtain ⟨child, hchild, hpick⟩ := useFallback_of_ne_nil hf hne d st
      obtain ⟨ep, hep, hfrom⟩ := hf.picks _ child d hne hchild
      refine ⟨ep, ?_, hall ep hep⟩
      rw [pick_of_nil hf hkeyed, hpick, hfrom]
    · obtain ⟨child, hchild, hpick⟩ := pick_of_ne_nil hf hm hkeyed d st
      obtain ⟨ep, hep, hfrom⟩ := hf.picks _ child d hkeyed hchild
      refine ⟨ep, ?_, h.carried m hmem hm ep hep⟩
      rw [hpick, hfrom]
  missed := by
    intro m hmem hm hserved LB D f hf d st
    by_cases hkeyed : keyed endpoints m.key cfg.selectors = []
    · exact pick_of_nil hf hkeyed d st
    · obtain ⟨ep, hep⟩ := List.exists_mem_of_ne_nil _ hkeyed
      exact absurd ⟨h.selected m hmem hm hkeyed, ep, mem_of_mem_keyed hep,
        h.carried m hmem hm ep hep⟩ hserved
  apart := by
    intro m hmem m' hmem' hm hm' LB D f hf child hchild _ hkey
    refine h.apart m hmem m' hmem' hm hm' hkey ?_
    intro hkeyed
    rw [lookup_subsets hf, if_pos hkeyed] at hchild
    cases hchild

namespace RoutedExactly

variable {m : SubsetMatch}

theorem served_of_keyed (h : RoutedExactly endpoints cfg ms) (hmem : m ∈ ms)
    (hm : m.isEmpty = false) (hkeyed : keyed endpoints m.key cfg.selectors ≠ []) :
    Served endpoints cfg m := by
  by_contra hserved
  have hf := seeking_lawful fun _ => true
  have hmiss := h.missed m hmem hm hserved _ hf () {}
  obtain ⟨child, -, hpick⟩ := pick_of_ne_nil hf hm hkeyed () {}
  have hcount := useFallback_selected (f := seeking fun _ => true)
    (newSubsetLB (seeking fun _ => true) endpoints cfg) () {}
  rw [← hmiss, hpick] at hcount
  exact absurd hcount (Nat.succ_ne_zero 0)

theorem carried (h : RoutedExactly endpoints cfg ms) (hmem : m ∈ ms) (hm : m.isEmpty = false) :
    ∀ ep ∈ keyed endpoints m.key cfg.selectors, endpointMatches ep m = true := by
  intro ep hep
  have hkeyed := List.ne_nil_of_mem hep
  have hf := seeking_lawful fun ep => !endpointMatches ep m
  obtain ⟨found, hpick, hfound⟩ :=
    h.served m hmem hm (h.served_of_keyed hmem hm hkeyed) _ hf () {}
  obtain ⟨child, hchild, hsubset⟩ := pick_of_ne_nil hf hm hkeyed () {}
  obtain rfl := Option.some.inj hchild
  rw [hsubset] at hpick
  have hnone := forall_of_seeking hpick (by rw [hfound]; rfl) ep hep
  simpa using hnone

theorem found (h : RoutedExactly endpoints cfg ms) (hmem : m ∈ ms) (hm : m.isEmpty = false)
    (hserved : Served endpoints cfg m) (hkeyed : keyed endpoints m.key cfg.selectors = []) :
    fallbackEndpoints endpoints cfg ≠ [] ∧
      ∀ ep ∈ fallbackEndpoints endpoints cfg, endpointMatches ep m = true := by
  have hf := seeking_lawful fun ep => !endpointMatches ep m
  obtain ⟨found, hpick, hfound⟩ := h.served m hmem hm hserved _ hf () {}
  rw [pick_of_nil hf hkeyed] at hpick
  have hne : fallbackEndpoints endpoints cfg ≠ [] := by
    intro hnil
    obtain ⟨-, ep, hep, -⟩ := hserved
    have hnone : (newSubsetLB (seeking fun ep => !endpointMatches ep m) endpoints cfg).fallback =
        none := buildFallback_of_nil (List.ne_nil_of_mem hep) hnil
    unfold useFallback at hpick
    rw [hnone] at hpick
    cases hpick
  refine ⟨hne, ?_⟩
  intro ep hep
  obtain ⟨child, hchild, hfall⟩ := useFallback_of_ne_nil hf hne () {}
  obtain rfl := Option.some.inj hchild
  rw [hfall] at hpick
  have hnone := forall_of_seeking hpick (by rw [hfound]; rfl) ep hep
  simpa using hnone

end RoutedExactly

end Exact

/-- The routes are picked for exactly if and only if the canonical keys tell the values apart. -/
theorem routedExactly_iff (endpoints : List Endpoint) (cfg : LbSubsetCfg)
    (ms : List SubsetMatch) :
    RoutedExactly endpoints cfg ms ↔ KeysTell endpoints cfg ms := by
  refine ⟨fun h => ⟨?_, ?_, ?_, ?_⟩, routedExactly_of_keysTell⟩
  · exact fun m hmem hm => h.carried hmem hm
  · exact fun m hmem hm hkeyed => (h.served_of_keyed hmem hm hkeyed).1
  · exact fun m hmem hm hserved hkeyed => h.found hmem hm hserved hkeyed
  · intro m hmem m' hmem' hm hm' hkey hkeyed
    have hf := seeking_lawful fun _ => true
    have hlookup := (lookup_subsets hf endpoints cfg m.key).trans (if_neg hkeyed)
    exact h.apart m hmem m' hmem' hm hm' _ hf _ hlookup (hkey ▸ hlookup) hkey

def scalars (kvs : List (String × SubsetValue)) : Scalars :=
  kvs.foldr (fun kv m => m.insert kv.1 kv.2) ∅

/-- The values of the first endpoint spell the second entry of the second one's. -/
def spelled : List Endpoint :=
  [⟨"10.0.0.1:80", scalars [("a", .string "x;b=s:y")]⟩,
    ⟨"10.0.0.2:80", scalars [("a", .string "x"), ("b", .string "y")]⟩]

/-- A negative zero. -/
def negativeZero : List Endpoint :=
  [⟨"10.0.0.1:80", scalars [("n", .number ⟨2 ^ 63⟩)]⟩]

def cleanMatch : SubsetMatch := newSubsetMatch (scalars [("a", .string "x"), ("b", .string "y")])

def zeroMatch : SubsetMatch := newSubsetMatch (scalars [("n", .number ⟨0⟩)])

/-- A match goes to an endpoint that does not carry it, through the key of a different match; and a
match of zero misses the endpoint that carries it. -/
theorem not_routedExactly :
    ¬ RoutedExactly spelled { fallback := .noFallback, selectors := [["a"], ["a", "b"]] }
      [cleanMatch] ∧
    cleanMatch.key = (newSubsetMatch (scalars [("a", .string "x;b=s:y")])).key ∧
    ¬ RoutedExactly negativeZero { fallback := .noFallback, selectors := [["n"]] }
      [zeroMatch] := by
  refine ⟨?_, by decide +kernel, ?_⟩
  · intro h
    have hkeys : cleanMatch.keys = ["a", "b"] := by decide +kernel
    have hpick := h.served cleanMatch List.mem_cons_self (by decide +kernel)
      ⟨⟨["a", "b"], by decide +kernel, fun k => by rw [hkeys]⟩, by decide +kernel⟩ _
      (seeking_lawful fun _ => true) () {}
    exact absurd ((Option.any_eq_true (endpointMatches · cleanMatch) _).mpr hpick)
      (by decide +kernel)
  · intro h
    have hkeys : zeroMatch.keys = ["n"] := by decide +kernel
    have hpick := h.served zeroMatch List.mem_cons_self (by decide +kernel)
      ⟨⟨["n"], by decide +kernel, fun k => by rw [hkeys]⟩, by decide +kernel⟩ _
      (seeking_lawful fun _ => true) () {}
    exact absurd ((Option.any_eq_true (endpointMatches · zeroMatch) _).mpr hpick)
      (by decide +kernel)

end EnvoyGo.Subset

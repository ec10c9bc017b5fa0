import EnvoyGo.GoText
import Mathlib.Algebra.BigOperators.Group.List.Basic
import Mathlib.Algebra.Group.Nat.Defs
import Mathlib.Data.Finset.Range
import Mathlib.Data.UInt
import Mathlib.Order.Interval.Finset.Nat

/-!
The weighted clusters of a route: what the configuration accepts, and the entry that a random draw
selects by the 32-bit running sums of the weights.
-/

namespace EnvoyGo.WeightedClusters

/-- An entry of `weighted_clusters`; its metadata is read by the merge alone. -/
structure ClusterWeight (M : Type) where
  name : String
  clusterHeader : String := ""
  weight : Option UInt32
  metadataMatch : M

/-- A resolved entry: the cluster's name and its merged subset match. -/
structure WeightedCluster (S : Type) where
  cluster : String
  subsetMatch : S

section Build

variable {M S : Type} (known : String → Bool) (merge : M → Except String S)

def parseEntry (cw : ClusterWeight M) : Except String (WeightedCluster S × UInt32) :=
  if cw.name = "" then
    .error "route action: weighted_clusters cluster: name is required"
  else if cw.clusterHeader ≠ "" then
    .error ("route action: weighted_clusters cluster_header is not supported " ++
      "(literal cluster name only)")
  else
    match cw.weight with
    | none =>
      .error ("route action: weighted_clusters cluster " ++ Text.quote cw.name ++
        ": weight is required")
    | some w =>
      if known cw.name then (merge cw.metadataMatch).map (fun sm => (⟨cw.name, sm⟩, w))
      else
        .error ("route action: weighted_clusters cluster " ++ Text.quote cw.name ++ " not found")

def totalWeight (weights : List UInt32) : UInt32 := weights.foldl (· + ·) 0

/-- `policies` are the parsed hash, retry and hedge policies of the route action, or the first error
among them.  The weights go to the selector. -/
def buildWeightedRouterAction {P : Type} (policies : Except String P)
    (entries : List (ClusterWeight M)) :
    Except String (P × List (WeightedCluster S) × List UInt32) :=
  if entries.isEmpty then .error "route action: weighted_clusters has no clusters"
  else do
    let ps ← policies
    let parsed ← entries.mapM (parseEntry known merge)
    if totalWeight (parsed.map Prod.snd) = 0 then
      .error "route action: weighted_clusters total weight must be > 0"
    else .ok (ps, parsed.map Prod.fst, parsed.map Prod.snd)

theorem totalWeight_ne_zero {P : Type} {policies : Except String P}
    {entries : List (ClusterWeight M)} {ps : P} {wcs : List (WeightedCluster S)}
    {weights : List UInt32}
    (hbuild : buildWeightedRouterAction known merge policies entries = .ok (ps, wcs, weights)) :
    totalWeight weights ≠ 0 := by
  unfold buildWeightedRouterAction at hbuild
  split_ifs at hbuild
  cases hps : policies with
  | error e =>
    rw [hps] at hbuild
    cases hbuild
  | ok ps' =>
    rw [hps] at hbuild
    cases hparsed : entries.mapM (parseEntry known merge) with
    | error e =>
      rw [hparsed] at hbuild
      cases hbuild
    | ok parsed =>
      rw [hparsed] at hbuild
      change (if totalWeight (parsed.map Prod.snd) = 0 then _ else _) = _ at hbuild
      split_ifs at hbuild with hzero
      cases hbuild
      exact hzero

end Build

def cumulativeFrom : UInt32 → List UInt32 → List UInt32
  | _, [] => []
  | total, w :: ws => (total + w) :: cumulativeFrom (total + w) ws

structure WeightedSelector where
  cumulative : List UInt32
  totalWeight : UInt32

def newWeightedSelector (weights : List UInt32) : WeightedSelector :=
  ⟨cumulativeFrom 0 weights, totalWeight weights⟩

namespace WeightedSelector

variable (s : WeightedSelector)

def residue (draw : UInt64) : UInt32 := (draw % s.totalWeight.toUInt64).toUInt32

/-- The first running sum above the reduced draw. -/
def bucket (draw : UInt64) : Option ℕ :=
  s.cumulative.findIdx? (fun c => decide (s.residue draw < c))

/-- A draw that lands in no bucket falls to the last entry. -/
def pick (draw : UInt64) : ℕ := (s.bucket draw).getD (s.cumulative.length - 1)

end WeightedSelector

/-- The weights before entry `i`, added up without bound. -/
def before (weights : List UInt32) (i : ℕ) : ℕ := ((weights.take i).map UInt32.toNat).sum

/-- The unbounded sum of the weights. -/
def sum (weights : List UInt32) : ℕ := (weights.map UInt32.toNat).sum

def drawsOf (weights : List UInt32) (i : ℕ) : Finset ℕ :=
  (Finset.range (sum weights)).filter
    (fun r => (newWeightedSelector weights).pick (UInt64.ofNat r) = i)

/-- The selection follows the weights. -/
structure FollowsWeights (weights : List UInt32) : Prop where
  shares : ∀ i w, weights[i]? = some w → (drawsOf weights i).card = w.toNat
  neverZero : ∀ i, weights[i]? = some 0 → ∀ draw, (newWeightedSelector weights).pick draw ≠ i
  lands : ∀ draw, (newWeightedSelector weights).bucket draw ≠ none

section Sums

theorem length_cumulativeFrom (total : UInt32) (ws : List UInt32) :
    (cumulativeFrom total ws).length = ws.length := by
  induction ws generalizing total with
  | nil => rfl
  | cons w ws ih => rw [cumulativeFrom, List.length_cons, List.length_cons, ih]

theorem before_cons_succ (w : UInt32) (ws : List UInt32) (i : ℕ) :
    before (w :: ws) (i + 1) = w.toNat + before ws i := by
  rw [before, List.take_succ_cons, List.map_cons, List.sum_cons, before]

theorem before_zero (ws : List UInt32) : before ws 0 = 0 := rfl

theorem before_length (ws : List UInt32) : before ws ws.length = sum ws := by
  rw [before, List.take_length, sum]

theorem before_succ {ws : List UInt32} {i : ℕ} {w : UInt32} (hw : ws[i]? = some w) :
    before ws (i + 1) = before ws i + w.toNat := by
  rw [before, List.take_add_one, hw, Option.toList_some, List.map_append, List.sum_append, before]
  simp

theorem before_le_before (ws : List UInt32) {i j : ℕ} (hij : i ≤ j) :
    before ws i ≤ before ws j := by
  obtain ⟨k, rfl⟩ := Nat.exists_eq_add_of_le hij
  rw [before, before, List.take_add, List.map_append, List.sum_append]
  exact Nat.le_add_right _ _

theorem before_le_sum (ws : List UInt32) (i : ℕ) : before ws i ≤ sum ws := by
  obtain hi | hi := le_total i ws.length
  · rw [← before_length]
    exact before_le_before ws hi
  · rw [before, List.take_of_length_le hi, sum]

theorem toNat_cumulativeFrom {ws : List UInt32} {i : ℕ} {total c : UInt32}
    (hc : (cumulativeFrom total ws)[i]? = some c) :
    c.toNat = (total.toNat + before ws (i + 1)) % 2^32 := by
  induction ws generalizing total i with
  | nil => cases hc
  | cons w ws ih =>
    rw [before_cons_succ]
    cases i with
    | zero =>
      obtain rfl : total + w = c := Option.some.inj hc
      rw [UInt32.toNat_add, before_zero, Nat.add_zero]
    | succ i =>
      rw [ih hc, UInt32.toNat_add, Nat.mod_add_mod, Nat.add_assoc]

theorem toNat_foldl_add (ws : List UInt32) (total : UInt32) :
    (ws.foldl (· + ·) total).toNat = (total.toNat + sum ws) % 2^32 := by
  induction ws generalizing total with
  | nil =>
    rw [sum, List.map_nil, List.sum_nil, Nat.add_zero, List.foldl_nil]
    exact (Nat.mod_eq_of_lt total.toNat_lt).symm
  | cons w ws ih =>
    have hsum : sum (w :: ws) = w.toNat + sum ws := List.sum_cons
    rw [List.foldl_cons, ih, UInt32.toNat_add, Nat.mod_add_mod, hsum, Nat.add_assoc]

theorem toNat_totalWeight (ws : List UInt32) : (totalWeight ws).toNat = sum ws % 2^32 := by
  rw [totalWeight, toNat_foldl_add]
  simp

end Sums

section Buckets

variable {weights : List UInt32} {draw : UInt64}

theorem toNat_residue (hz : totalWeight weights ≠ 0) (draw : UInt64) :
    ((newWeightedSelector weights).residue draw).toNat =
      draw.toNat % (totalWeight weights).toNat := by
  have hpos : 0 < (totalWeight weights).toNat :=
    Nat.pos_of_ne_zero (fun h => hz (UInt32.toNat_inj.mp h))
  have hlt := (Nat.mod_lt draw.toNat hpos).trans (totalWeight weights).toNat_lt
  change ((draw % (totalWeight weights).toUInt64).toUInt32).toNat = _
  rw [UInt64.toNat_toUInt32, UInt64.toNat_mod, UInt32.toNat_toUInt64]
  exact Nat.mod_eq_of_lt hlt

theorem residue_lt (hz : totalWeight weights ≠ 0) (draw : UInt64) :
    ((newWeightedSelector weights).residue draw).toNat < sum weights % 2^32 := by
  rw [toNat_residue hz, ← toNat_totalWeight]
  exact Nat.mod_lt _ (Nat.pos_of_ne_zero (fun h => hz (UInt32.toNat_inj.mp h)))

theorem exists_cumulative {i : ℕ} (hi : i < weights.length) :
    ∃ c, (newWeightedSelector weights).cumulative[i]? = some c ∧
      c.toNat = before weights (i + 1) % 2^32 := by
  have hi' : i < (cumulativeFrom 0 weights).length := by rwa [length_cumulativeFrom]
  refine ⟨(cumulativeFrom 0 weights)[i], List.getElem?_eq_getElem hi', ?_⟩
  rw [toNat_cumulativeFrom (List.getElem?_eq_getElem hi')]
  simp

theorem lt_of_bucket {i : ℕ} (h : (newWeightedSelector weights).bucket draw = some i) :
    i < weights.length ∧
      ((newWeightedSelector weights).residue draw).toNat < before weights (i + 1) % 2^32 ∧
      ∀ j < i, before weights (j + 1) % 2^32 ≤
        ((newWeightedSelector weights).residue draw).toNat := by
  obtain ⟨hi, hlt, hbefore⟩ := List.findIdx?_eq_some_iff_getElem.mp h
  have hlen : (newWeightedSelector weights).cumulative.length = weights.length :=
    length_cumulativeFrom 0 weights
  have hget : ∀ {j : ℕ} (hj : j < (newWeightedSelector weights).cumulative.length),
      ((newWeightedSelector weights).cumulative[j]).toNat = before weights (j + 1) % 2^32 := by
    intro j hj
    obtain ⟨c, hc, hvalue⟩ := exists_cumulative (show j < weights.length by omega)
    rw [List.getElem?_eq_getElem hj] at hc
    rw [Option.some.inj hc, hvalue]
  refine ⟨by omega, ?_, ?_⟩
  · rw [← hget hi]
    exact UInt32.lt_iff_toNat_lt.mp (of_decide_eq_true hlt)
  · intro j hj
    rw [← hget (by omega)]
    exact UInt32.le_iff_toNat_le.mp (UInt32.not_lt.mp (by simpa using hbefore j hj))

variable (hz : totalWeight weights ≠ 0)

include hz

theorem exists_bucket (draw : UInt64) :
    ∃ i, (newWeightedSelector weights).bucket draw = some i := by
  have hne : weights ≠ [] := by
    rintro rfl
    exact hz rfl
  have hn := List.length_pos_iff.mpr hne
  obtain ⟨c, hc, hvalue⟩ := exists_cumulative (show weights.length - 1 < weights.length by omega)
  rw [Nat.sub_add_cancel hn, before_length] at hvalue
  rw [← Option.isSome_iff_exists, WeightedSelector.bucket, List.findIdx?_isSome,
    List.any_eq_true]
  refine ⟨c, List.mem_of_getElem? hc, decide_eq_true (UInt32.lt_iff_toNat_lt.mpr ?_)⟩
  rw [hvalue]
  exact residue_lt hz draw

theorem pick_eq_iff {i : ℕ} :
    (newWeightedSelector weights).pick draw = i ↔
      (newWeightedSelector weights).bucket draw = some i := by
  obtain ⟨j, hj⟩ := exists_bucket hz draw
  rw [WeightedSelector.pick, hj, Option.getD_some, Option.some.injEq]

theorem pick_eq_iff_of_fits (hfits : sum weights < 2^32) {i : ℕ} :
    (newWeightedSelector weights).pick draw = i ↔
      before weights i ≤ draw.toNat % sum weights ∧
        draw.toNat % sum weights < before weights (i + 1) := by
  have hfit : ∀ j, before weights j % 2^32 = before weights j := fun j =>
    Nat.mod_eq_of_lt (lt_of_le_of_lt (before_le_sum weights j) hfits)
  have hresidue : ((newWeightedSelector weights).residue draw).toNat =
      draw.toNat % sum weights := by
    rw [toNat_residue hz, toNat_totalWeight, Nat.mod_eq_of_lt hfits]
  -- Each draw is in one interval only, so it is enough that a bucket is within its interval.
  have hwithin : ∀ {j : ℕ}, (newWeightedSelector weights).bucket draw = some j →
      before weights j ≤ draw.toNat % sum weights ∧
        draw.toNat % sum weights < before weights (j + 1) := by
    intro j hj
    obtain ⟨-, hlt, hge⟩ := lt_of_bucket hj
    rw [hfit, hresidue] at hlt
    refine ⟨?_, hlt⟩
    cases j with
    | zero => exact Nat.zero_le _
    | succ j =>
      have hprev := hge j (Nat.lt_succ_self j)
      rwa [hfit, hresidue] at hprev
  rw [pick_eq_iff hz]
  constructor
  · exact hwithin
  · rintro ⟨hlo, hhi⟩
    obtain ⟨j, hj⟩ := exists_bucket hz draw
    obtain ⟨hlo', hhi'⟩ := hwithin hj
    obtain hij | rfl | hij := lt_trichotomy i j
    · exact absurd (before_le_before weights (show i + 1 ≤ j from hij)) (by omega)
    · exact hj
    · exact absurd (before_le_before weights (show j + 1 ≤ i from hij)) (by omega)

theorem card_drawsOf (hfits : sum weights < 2^32) {i : ℕ} {w : UInt32} (hw : weights[i]? = some w) :
    (drawsOf weights i).card = w.toNat := by
  have hread : ∀ r < sum weights, (UInt64.ofNat r).toNat = r := fun r hr =>
    UInt64.toNat_ofNat_of_lt' ((hr.trans hfits).trans (by decide))
  have hinterval : drawsOf weights i = Finset.Ico (before weights i) (before weights (i + 1)) := by
    ext r
    rw [drawsOf, Finset.mem_filter, Finset.mem_range, Finset.mem_Ico, pick_eq_iff_of_fits hz hfits]
    have hle := before_le_sum weights (i + 1)
    constructor
    · rintro ⟨hr, hmem⟩
      rwa [hread r hr, Nat.mod_eq_of_lt hr] at hmem
    · rintro ⟨hlo, hhi⟩
      have hr : r < sum weights := by omega
      rw [hread r hr, Nat.mod_eq_of_lt hr]
      exact ⟨hr, hlo, hhi⟩
  rw [hinterval, Nat.card_Ico, before_succ hw]
  omega

theorem exists_unreachable (hover : 2^32 ≤ sum weights) :
    ∃ i w, weights[i]? = some w ∧ 0 < w.toNat ∧
      ∀ draw, (newWeightedSelector weights).pick draw ≠ i := by
  classical
  have hex : ∃ n, 2^32 ≤ before weights n := ⟨weights.length, by rwa [before_length]⟩
  obtain ⟨n, hn⟩ : ∃ n, Nat.find hex = n + 1 := by
    refine Nat.exists_eq_succ_of_ne_zero (fun hzero => ?_)
    have hspec := Nat.find_spec hex
    rw [hzero, before_zero] at hspec
    exact absurd hspec (by decide)
  have hreach : 2^32 ≤ before weights (n + 1) := hn ▸ Nat.find_spec hex
  have hshort : before weights n < 2^32 := by
    have hmin := Nat.find_min hex (show n < Nat.find hex by omega)
    omega
  obtain ⟨w, hw⟩ : ∃ w, weights[n]? = some w := by
    cases hget : weights[n]? with
    | some w => exact ⟨w, rfl⟩
    | none =>
      have hlen := List.getElem?_eq_none_iff.mp hget
      rw [before, List.take_of_length_le (hlen.trans (Nat.le_succ n))] at hreach
      rw [before, List.take_of_length_le hlen] at hshort
      omega
  have hstep := before_succ hw
  have hwlt : w.toNat < 2^32 := w.toNat_lt
  refine ⟨n, w, hw, by omega, fun draw hpick => ?_⟩
  obtain ⟨-, hlt, hge⟩ := lt_of_bucket ((pick_eq_iff hz).mp hpick)
  have hwrap : before weights (n + 1) % 2^32 = before weights (n + 1) - 2^32 := by
    rw [Nat.mod_eq_sub_mod hreach, Nat.mod_eq_of_lt (by omega)]
  cases n with
  | zero =>
    rw [before_zero] at hstep
    omega
  | succ n =>
    have hprev := hge n (Nat.lt_succ_self n)
    rw [Nat.mod_eq_of_lt hshort] at hprev
    omega

end Buckets

/-- Of every accepted list: the selection follows the weights as long as they fit 32 bits. -/
theorem followsWeights_iff {M S P : Type} {known : String → Bool} {merge : M → Except String S}
    {policies : Except String P} {entries : List (ClusterWeight M)} {ps : P}
    {wcs : List (WeightedCluster S)} {weights : List UInt32}
    (hbuild : buildWeightedRouterAction known merge policies entries = .ok (ps, wcs, weights)) :
    FollowsWeights weights ↔ sum weights < 2^32 := by
  have hz := totalWeight_ne_zero known merge hbuild
  constructor
  · intro hfollows
    by_contra hover
    obtain ⟨i, w, hw, hpos, hnever⟩ := exists_unreachable hz (not_lt.mp hover)
    have hempty : drawsOf weights i = ∅ :=
      Finset.filter_eq_empty_iff.mpr (fun r _ => hnever (UInt64.ofNat r))
    have hcard := hfollows.shares i w hw
    rw [hempty, Finset.card_empty] at hcard
    omega
  · intro hfits
    refine ⟨fun i w hw => card_drawsOf hz hfits hw, ?_, ?_⟩
    · intro i hi draw hpick
      obtain ⟨hlo, hhi⟩ := (pick_eq_iff_of_fits hz hfits).mp hpick
      rw [before_succ hi] at hhi
      exact absurd (lt_of_le_of_lt hlo hhi) (lt_irrefl _)
    · intro draw hnone
      obtain ⟨i, hi⟩ := exists_bucket hz draw
      rw [hi] at hnone
      cases hnone

/-- Clusters that are all known, without metadata or policies. -/
def built (entries : List (ClusterWeight Unit)) :
    Except String (Unit × List (WeightedCluster Unit) × List UInt32) :=
  buildWeightedRouterAction (fun _ => true) (fun _ => .ok ()) (.ok ()) entries

theorem followsWeights_twoToOne : FollowsWeights [2, 0, 1] :=
  (followsWeights_iff (show built [⟨"a", "", some 2, ()⟩, ⟨"b", "", some 0, ()⟩,
    ⟨"c", "", some 1, ()⟩] = .ok ((), [⟨"a", ()⟩, ⟨"b", ()⟩, ⟨"c", ()⟩], [2, 0, 1]) by rfl)).mpr
    (by decide)

/-- The sum of two weights wraps to one, and the first entry takes every draw. -/
theorem not_followsWeights_wrapped :
    built [⟨"a", "", some 4294967295, ()⟩, ⟨"b", "", some 2, ()⟩] =
      .ok ((), [⟨"a", ()⟩, ⟨"b", ()⟩], [4294967295, 2]) ∧
    ¬ FollowsWeights [4294967295, 2] := by
  refine ⟨rfl, fun h => ?_⟩
  have hz : totalWeight [4294967295, 2] ≠ 0 := by decide
  obtain ⟨i, w, hw, hpos, hnever⟩ := exists_unreachable hz (by decide)
  have hempty : drawsOf [4294967295, 2] i = ∅ :=
    Finset.filter_eq_empty_iff.mpr (fun r _ => hnever (UInt64.ofNat r))
  have hcard := h.shares i w hw
  rw [hempty, Finset.card_empty] at hcard
  omega

end EnvoyGo.WeightedClusters

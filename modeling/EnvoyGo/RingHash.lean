import EnvoyGo.ConsistentHash

/-!
The Ketama ring of an accepted configuration: its size, its owners, and when every pick answers.
-/

namespace EnvoyGo.ConsistentHash

open ClusterHealth TableWalk
open Balancers (around)

/-- What `newRingHash` and `Pick` are to do with a configuration over the endpoints. -/
structure RingTotal (cfg : RingHashCfg) (eps : List Endpoint) : Prop where
  sorted : (newRingHash eps cfg).ring.Pairwise (fun a b => a.hash ≤ b.hash)
  min_le : cfg.minRingSize ≤ (newRingHash eps cfg).ring.length
  le_max : (newRingHash eps cfg).ring.length ≤ cfg.maxRingSize
  owned : ∀ j < eps.length, ∃ e ∈ (newRingHash eps cfg).ring, e.ep = j
  inRange : ∀ health hashKey hasHash draw,
    (newRingHash eps cfg).pick health hashKey hasHash draw ≠ .outOfRange
  answers : ∀ health hashKey hasHash draw,
    (∃ ep ∈ eps, Health.available health ep = true) ∨ Health.inPanic health eps = true →
      ∃ ep ∈ eps, (newRingHash eps cfg).pick health hashKey hasHash draw = .owner ep

section Size

variable (eps : List Endpoint) (cfg : RingHashCfg)

theorem length_newRing : (newRing eps cfg).length = eps.length * entriesPerHost cfg eps.length := by
  rw [newRing, (List.mergeSort_perm _ _).length_eq, points, List.length_flatMap]
  have hshare : eps.zipIdx.map (fun host => (hostPoints cfg eps.length host).length) =
      List.replicate eps.length (entriesPerHost cfg eps.length) := by
    refine List.eq_replicate_iff.mpr ⟨by rw [List.length_map, List.length_zipIdx], ?_⟩
    intro n hn
    obtain ⟨host, -, rfl⟩ := List.mem_map.mp hn
    rw [hostPoints, List.length_map, List.length_range]
  rw [hshare, List.sum_replicate, smul_eq_mul]

variable {eps cfg}

theorem mem_newRing {e : RingEntry} : e ∈ newRing eps cfg ↔
    ∃ host ∈ eps.zipIdx, e ∈ hostPoints cfg eps.length host := by
  rw [newRing, (List.mergeSort_perm _ _).mem_iff, points, List.mem_flatMap]

theorem ep_lt_of_mem {e : RingEntry} (he : e ∈ newRing eps cfg) : e.ep < eps.length := by
  obtain ⟨host, hhost, he⟩ := mem_newRing.mp he
  obtain ⟨i, -, rfl⟩ := List.mem_map.mp he
  exact (List.mem_zipIdx' hhost).1

theorem exists_mem_newRing (hshare : 0 < entriesPerHost cfg eps.length) {j : ℕ}
    (hj : j < eps.length) : ∃ e ∈ newRing eps cfg, e.ep = j := by
  have hhost : (eps[j], j) ∈ eps.zipIdx :=
    List.mk_mem_zipIdx_iff_getElem?.mpr (List.getElem?_eq_getElem hj)
  exact ⟨_, mem_newRing.mpr ⟨_, hhost, List.mem_map.mpr ⟨0, List.mem_range.mpr hshare, rfl⟩⟩, rfl⟩

theorem minRingSize_le_mul (hn : 0 < eps.length) :
    cfg.minRingSize ≤ eps.length * entriesPerHost cfg eps.length := by
  have hdiv := Nat.div_add_mod (cfg.minRingSize + eps.length - 1) eps.length
  have hmod := Nat.mod_lt (cfg.minRingSize + eps.length - 1) hn
  rw [entriesPerHost]
  omega

theorem entriesPerHost_le (hn : 0 < eps.length) {k : ℕ} (hk : cfg.minRingSize ≤ k * eps.length) :
    entriesPerHost cfg eps.length ≤ k := by
  rw [entriesPerHost, ← Nat.lt_succ_iff, Nat.div_lt_iff_lt_mul hn, Nat.succ_mul]
  omega

end Size

section Pick

variable {eps : List Endpoint} {cfg : RingHashCfg}

theorem exists_endpointAt {c : ℕ} (hc : c < (newRing eps cfg).length) :
    ∃ ep, endpointAt eps ((newRing eps cfg).map (fun e => some e.ep)) c = some ep := by
  have hep := ep_lt_of_mem (List.getElem_mem hc)
  refine ⟨eps[((newRing eps cfg)[c]).ep], ?_⟩
  rw [endpointAt, List.getElem?_map, List.getElem?_eq_getElem hc]
  exact List.getElem?_eq_getElem hep

theorem exists_slot (hshare : 0 < entriesPerHost cfg eps.length) {ep : Endpoint} (hep : ep ∈ eps) :
    ∃ c < (newRing eps cfg).length,
      endpointAt eps ((newRing eps cfg).map (fun e => some e.ep)) c = some ep := by
  obtain ⟨j, hj, rfl⟩ := List.getElem_of_mem hep
  obtain ⟨e, he, hej⟩ := exists_mem_newRing hshare hj
  obtain ⟨c, hc, rfl⟩ := List.getElem_of_mem he
  refine ⟨c, hc, ?_⟩
  rw [endpointAt, List.getElem?_map, List.getElem?_eq_getElem hc]
  change eps[((newRing eps cfg)[c]).ep]? = _
  rw [hej]
  exact List.getElem?_eq_getElem hj

theorem pick_total (hne : eps ≠ []) (hshare : 0 < entriesPerHost cfg eps.length)
    (health : Option Health) (hashKey : UInt64) (hasHash : Bool) (draw : UInt64) :
    (newRingHash eps cfg).pick health hashKey hasHash draw ≠ .outOfRange ∧
      ((∃ ep ∈ eps, Health.available health ep = true) ∨ Health.inPanic health eps = true →
        ∃ ep ∈ eps, (newRingHash eps cfg).pick health hashKey hasHash draw = .owner ep) := by
  have hpos : 0 < (newRing eps cfg).length := by
    rw [length_newRing]
    exact Nat.mul_pos (List.length_pos_iff.mpr hne) hshare
  rw [RingHashLB.pick]
  have hstart := (newRingHash eps cfg).start_lt (if hasHash then hashKey else draw)
    (List.length_pos_iff.mp hpos)
  generalize (newRingHash eps cfg).start (if hasHash then hashKey else draw) = start at hstart
  change pickFrom health eps ((newRing eps cfg).map (fun e => some e.ep)) start ≠ _ ∧ (_ →
    ∃ ep ∈ eps, pickFrom health eps ((newRing eps cfg).map (fun e => some e.ep)) start = _)
  rw [pickFrom, if_neg (by simpa using hne)]
  by_cases hgate : Health.panicGate health eps = true
  · obtain ⟨ep, hep⟩ : ∃ ep, endpointAt eps _ start = some ep := exists_endpointAt hstart
    rw [if_pos hgate, hep]
    exact ⟨(fun h => by cases h), fun _ => ⟨ep, mem_of_endpointAt hep, rfl⟩⟩
  · rw [if_neg hgate, List.length_map]
    have hslots : ∀ c ∈ around (newRing eps cfg).length start,
        ∃ ep, endpointAt eps ((newRing eps cfg).map (fun e => some e.ep)) c = some ep :=
      fun c hc => exists_endpointAt ((mem_around hpos).mp hc)
    obtain ⟨hrange, hfound⟩ := walk_total (p := Health.available health) hslots
    refine ⟨hrange, ?_⟩
    rintro (⟨ep, hep, havail⟩ | hpanic)
    · obtain ⟨c, hc, hat⟩ := exists_slot hshare hep
      obtain ⟨b, hb⟩ := hfound ⟨c, (mem_around hpos).mpr hc, ep, hat, havail⟩
      obtain ⟨c', -, hat', -⟩ := exists_of_walk hb
      exact ⟨b, mem_of_endpointAt hat', hb⟩
    · rw [Health.panicGate, hpanic, Bool.or_true] at hgate
      exact absurd rfl hgate

/-- The configurations and clusters for which the ring is as it should be. -/
theorem ringTotal_iff (cfg : RingHashCfg) (hne : eps ≠ []) :
    RingTotal cfg eps ↔ 1 ≤ cfg.minRingSize ∧
      ∃ k, cfg.minRingSize ≤ k * eps.length ∧ k * eps.length ≤ cfg.maxRingSize := by
  have hn := List.length_pos_iff.mpr hne
  have hlength : (newRingHash eps cfg).ring.length = eps.length * entriesPerHost cfg eps.length :=
    length_newRing eps cfg
  constructor
  · intro htotal
    constructor
    · obtain ⟨e, he, -⟩ := htotal.owned 0 hn
      have hpos := List.length_pos_of_mem he
      rw [hlength] at hpos
      by_contra hmin
      have hzero : entriesPerHost cfg eps.length ≤ 0 := entriesPerHost_le hn (by omega)
      rw [Nat.le_zero.mp hzero] at hpos
      exact absurd hpos (lt_irrefl 0)
    · refine ⟨entriesPerHost cfg eps.length, ?_, ?_⟩
      · rw [mul_comm, ← hlength]
        exact htotal.min_le
      · rw [mul_comm, ← hlength]
        exact htotal.le_max
  · rintro ⟨hmin, k, hk, hmax⟩
    have hreach : cfg.minRingSize ≤ eps.length * entriesPerHost cfg eps.length :=
      minRingSize_le_mul hn
    have hshare : 0 < entriesPerHost cfg eps.length := by
      by_contra hzero
      rw [Nat.eq_zero_of_not_pos hzero, mul_zero] at hreach
      omega
    refine ⟨newRing_sorted eps cfg, ?_, ?_, fun j hj => exists_mem_newRing hshare hj, ?_, ?_⟩
    · rw [hlength]
      exact hreach
    · rw [hlength, mul_comm]
      exact (Nat.mul_le_mul_right _ (entriesPerHost_le hn hk)).trans hmax
    · exact fun health hashKey hasHash draw => (pick_total hne hshare health hashKey hasHash draw).1
    · exact fun health hashKey hasHash draw => (pick_total hne hshare health hashKey hasHash draw).2

end Pick

def fourOfEight : RingHashCfg := ⟨4, 8, .hashXX, by decide, by decide⟩

theorem ringTotal_fourOfEight : RingTotal fourOfEight [⟨"a:1"⟩, ⟨"b:1"⟩, ⟨"c:1"⟩] :=
  (ringTotal_iff fourOfEight (List.cons_ne_nil _ _)).mpr
    ⟨by decide, 2, by decide, by decide⟩

def emptyRing : RingHashCfg := ⟨0, 8388608, .hashXX, by decide, by decide⟩

/-- A minimum of zero is accepted and leaves the ring empty: the first pick indexes it. -/
theorem not_ringTotal_zero :
    parseRingHashLbConfig (some { minimumRingSize := some 0 }) "c" = .ok emptyRing ∧
      (newRingHash [⟨"a:1"⟩] emptyRing).pick none 7 true 0 = .outOfRange ∧
      ¬ RingTotal emptyRing [⟨"a:1"⟩] := by
  have hpick : (newRingHash [⟨"a:1"⟩] emptyRing).pick none 7 true 0 = .outOfRange := by
    decide +kernel
  exact ⟨by decide +kernel, hpick, fun h => h.inRange none 7 true 0 hpick⟩

end EnvoyGo.ConsistentHash

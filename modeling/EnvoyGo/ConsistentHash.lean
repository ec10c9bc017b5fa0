import EnvoyGo.ClusterHash
import EnvoyGo.Maglev
import EnvoyGo.TableWalk

/-!
The consistent-hash load balancers of a cluster: the Ketama ring and the Maglev table, and how a
pick walks either of them to an available endpoint.
-/

namespace EnvoyGo.ConsistentHash

open ClusterHealth TableWalk
open Balancers (around)

/-- The registry of a cluster as one pick reads it; the clock does not move during the pick. -/
structure Health where
  states : States
  panicThresholdPercent : ℤ
  now : ℤ

namespace Health

/-- Without registry every endpoint is available. -/
def available : Option Health → Endpoint → Bool
  | none, _ => true
  | some h, ep => ClusterHealth.available h.states h.now ep

def inPanic : Option Health → List Endpoint → Bool
  | none, _ => false
  | some h, eps => ClusterHealth.inPanic h.states h.panicThresholdPercent h.now eps

/-- No registry or panic: the pick does not look at the endpoints' health. -/
def panicGate (h : Option Health) (eps : List Endpoint) : Bool := h.isNone || inPanic h eps

end Health

abbrev Picked := Found Endpoint

/-- The endpoint of a slot, whose owner is an index; `none` is a slot that was never filled. -/
def endpointAt (eps : List Endpoint) (owners : List (Option ℕ)) (slot : ℕ) : Option Endpoint :=
  (owners[slot]?.join).bind (fun idx => eps[idx]?)

def pickFrom (health : Option Health) (eps : List Endpoint) (owners : List (Option ℕ))
    (start : ℕ) : Picked :=
  if eps.isEmpty then .exhausted
  else if Health.panicGate health eps then
    match endpointAt eps owners start with
    | none => .outOfRange
    | some ep => .owner ep
  else walk (endpointAt eps owners) (Health.available health) (around owners.length start)

inductive HashFunc
  | hashXX
  | hashMurmur
  deriving DecidableEq

def murmurSeed : UInt64 := 0xc70f6907

def HashFunc.hash (f : HashFunc) (key : String) : UInt64 :=
  match f with
  | .hashXX => ClusterHash.xxHash64 (textBytes key)
  | .hashMurmur => ClusterHash.murmurHash2 (textBytes key) murmurSeed

def defaultMinRingSize : ℕ := 1024

def defaultMaxRingSize : ℕ := 8388608

def ringSizeCap : ℕ := 8388608

/-- The configurations that `parseRingHashLbConfig` builds. -/
structure RingHashCfg where
  minRingSize : ℕ
  maxRingSize : ℕ
  hashFunc : HashFunc
  min_le_max : minRingSize ≤ maxRingSize
  max_le_cap : maxRingSize ≤ ringSizeCap
  deriving DecidableEq

/-- The `ring_hash_lb_config` of a cluster: two optional uint64 values and an open enumeration. -/
structure RingHashLbConfig where
  minimumRingSize : Option ℕ := none
  maximumRingSize : Option ℕ := none
  hashFunction : ℤ := 0

def parseRingSize (name field : String) (unset : {v : ℕ // v ≤ ringSizeCap}) :
    Option ℕ → Except String {v : ℕ // v ≤ ringSizeCap}
  | none => .ok unset
  | some v =>
    if hcap : v > ringSizeCap then
      .error ("cluster: " ++ Text.quote name ++ ": ring_hash_lb_config." ++ field ++
        ": value must be less than or equal to 8388608")
    else .ok ⟨v, not_lt.mp hcap⟩

def parseHashFunction (name : String) (v : ℤ) : Except String HashFunc :=
  if v = 0 then .ok .hashXX
  else if v = 1 then .ok .hashMurmur
  else .error ("cluster: " ++ Text.quote name ++
    ": ring_hash_lb_config.hash_function: unsupported value " ++ String.ofList (Text.formatInt v))

/-- Without configuration, or with another policy's `lb_config`, the defaults. -/
def parseRingHashLbConfig (config : Option RingHashLbConfig) (name : String) :
    Except String RingHashCfg :=
  match config with
  | none => .ok ⟨defaultMinRingSize, defaultMaxRingSize, .hashXX, by decide, by decide⟩
  | some rhc => do
    let min ← parseRingSize name "minimum_ring_size" ⟨defaultMinRingSize, by decide⟩
      rhc.minimumRingSize
    let max ← parseRingSize name "maximum_ring_size" ⟨defaultMaxRingSize, by decide⟩
      rhc.maximumRingSize
    if hover : min.1 > max.1 then
      .error ("cluster: " ++ Text.quote name ++ ": ring hash: minimum_ring_size (" ++
        Nat.repr min.1 ++ ") > maximum_ring_size (" ++ Nat.repr max.1 ++ ")")
    else do
      let f ← parseHashFunction name rhc.hashFunction
      .ok ⟨min.1, max.1, f, not_lt.mp hover, max.2⟩

structure RingEntry where
  hash : UInt64
  ep : ℕ
  deriving DecidableEq

/-- The ring is sorted, so that `sort.Search` finds the first point from a key on. -/
structure RingHashLB where
  endpoints : List Endpoint
  ring : List RingEntry
  sorted : ring.Pairwise (fun a b => a.hash ≤ b.hash)

namespace RingHashLB

variable (rh : RingHashLB)

/-- The slot of a key, wrapped past the last point. -/
def start (hashKey : UInt64) : ℕ :=
  let m := rh.ring.findIdx (fun e => decide (hashKey ≤ e.hash))
  if m = rh.ring.length then 0 else m

/-- A request without a hash draws its key. -/
def pick (health : Option Health) (hashKey : UInt64) (hasHash : Bool) (draw : UInt64) : Picked :=
  pickFrom health rh.endpoints (rh.ring.map (fun e => some e.ep))
    (rh.start (if hasHash then hashKey else draw))

end RingHashLB

/-- The rounded-up share of an endpoint.  The configured size is capped and a slice is shorter than
`2^63`, so the sum does not wrap. -/
def entriesPerHost (cfg : RingHashCfg) (n : ℕ) : ℕ := (cfg.minRingSize + n - 1) / n

def hostPoints (cfg : RingHashCfg) (n : ℕ) (host : Endpoint × ℕ) : List RingEntry :=
  (List.range (entriesPerHost cfg n)).map
    (fun i => ⟨cfg.hashFunc.hash (host.1.addr ++ "_" ++ Nat.repr i), host.2⟩)

def points (endpoints : List Endpoint) (cfg : RingHashCfg) : List RingEntry :=
  endpoints.zipIdx.flatMap (hostPoints cfg endpoints.length)

def newRing (endpoints : List Endpoint) (cfg : RingHashCfg) : List RingEntry :=
  (points endpoints cfg).mergeSort (fun a b => decide (a.hash ≤ b.hash))

theorem newRing_sorted (endpoints : List Endpoint) (cfg : RingHashCfg) :
    (newRing endpoints cfg).Pairwise (fun a b => a.hash ≤ b.hash) := by
  refine (List.pairwise_mergeSort ?_ ?_ _).imp (fun hle => of_decide_eq_true hle)
  · intro a b c hab hbc
    exact decide_eq_true (UInt64.le_trans (of_decide_eq_true hab) (of_decide_eq_true hbc))
  · intro a b
    rw [Bool.or_eq_true, decide_eq_true_eq, decide_eq_true_eq]
    exact UInt64.le_total _ _

def newRingHash (endpoints : List Endpoint) (cfg : RingHashCfg) : RingHashLB :=
  ⟨endpoints, newRing endpoints cfg, newRing_sorted endpoints cfg⟩

structure MaglevLB where
  endpoints : List Endpoint
  table : List (Option ℕ)
  tableSize : ℕ
  length_table : endpoints ≠ [] → table.length = tableSize

namespace MaglevLB

variable (mg : MaglevLB)

def pick (health : Option Health) (hashKey : UInt64) (hasHash : Bool) (draw : UInt64) : Picked :=
  pickFrom health mg.endpoints mg.table
    ((if hasHash then hashKey else draw).toNat % mg.tableSize)

end MaglevLB

def xxHashes : Maglev.Hashes where
  xxHash64 key := ClusterHash.xxHash64 (textBytes key)
  xxHash64Seed key seed := ClusterHash.xxHash64Seed (textBytes key) seed

def maglevTable (addrs : List String) (m : ℕ) : List (Option ℕ) :=
  (List.range m).map
    (Maglev.table addrs (Maglev.populate xxHashes m addrs (addrs.length * m + 1)))

def newMaglev (endpoints : List Endpoint) (m : ℕ) : MaglevLB :=
  ⟨endpoints, if endpoints.isEmpty then [] else maglevTable (endpoints.map Endpoint.addr) m, m, by
    intro hne
    rw [if_neg (by simpa using hne), maglevTable, List.length_map, List.length_range]⟩

/-- A load balancer of either policy. -/
inductive LoadBalancer
  | ringHash (rh : RingHashLB)
  | maglev (mg : MaglevLB)

namespace LoadBalancer

def endpoints : LoadBalancer → List Endpoint
  | .ringHash rh => rh.endpoints
  | .maglev mg => mg.endpoints

def pick : LoadBalancer → Option Health → UInt64 → Bool → UInt64 → Picked
  | .ringHash rh => rh.pick
  | .maglev mg => mg.pick

end LoadBalancer

section Stability

variable {h h₁ h₂ : Option Health} {eps : List Endpoint} {owners : List (Option ℕ)} {start : ℕ}
  {ep : Endpoint}

theorem mem_of_endpointAt {c : ℕ} (hc : endpointAt eps owners c = some ep) : ep ∈ eps := by
  obtain ⟨idx, -, hget⟩ := Option.bind_eq_some_iff.mp hc
  exact List.mem_of_getElem? hget

theorem lt_of_endpointAt {c : ℕ} (hc : endpointAt eps owners c = some ep) : c < owners.length := by
  obtain ⟨idx, hjoin, -⟩ := Option.bind_eq_some_iff.mp hc
  by_contra hlt
  rw [List.getElem?_eq_none (not_lt.mp hlt)] at hjoin
  cases hjoin

theorem pickFrom_eq_owner_iff (hcalm : Health.inPanic h eps = false) (hne : eps ≠ [])
    (hstart : owners ≠ [] → start < owners.length) :
    pickFrom h eps owners start = .owner ep ↔
      walk (endpointAt eps owners) (Health.available h) (around owners.length start) =
        .owner ep := by
  rw [pickFrom, if_neg (by simpa using hne), Health.panicGate, hcalm, Bool.or_false]
  cases h with
  | some h => rw [if_neg (by simp)]
  | none =>
    rw [Option.isNone_none, if_pos rfl]
    constructor
    · intro hpick
      cases hat : endpointAt eps owners start with
      | none =>
        rw [hat] at hpick
        cases hpick
      | some b =>
        rw [hat] at hpick
        cases hpick
        obtain ⟨cs, hcs⟩ := around_eq_cons (lt_of_endpointAt hat)
        rw [hcs]
        exact walk_of_first hat rfl cs
    · intro hwalk
      have hown : owners ≠ [] := by
        rintro rfl
        cases hwalk
      obtain ⟨cs, hcs⟩ := around_eq_cons (hstart hown)
      rw [hcs, walk] at hwalk
      cases hat : endpointAt eps owners start with
      | none =>
        rw [hat] at hwalk
        cases hwalk
      | some b =>
        rw [hat] at hwalk
        exact hwalk

theorem pickFrom_stable (hcalm₁ : Health.inPanic h₁ eps = false)
    (hcalm₂ : Health.inPanic h₂ eps = false)
    (hstart : eps ≠ [] → owners ≠ [] → start < owners.length)
    (hsub : ∀ e ∈ eps, Health.available h₂ e = true → Health.available h₁ e = true)
    (hpick : pickFrom h₁ eps owners start = .owner ep) (havail : Health.available h₂ ep = true) :
    pickFrom h₂ eps owners start = .owner ep := by
  have hne : eps ≠ [] := by
    rintro rfl
    cases hpick
  rw [pickFrom_eq_owner_iff hcalm₂ hne (hstart hne)]
  rw [pickFrom_eq_owner_iff hcalm₁ hne (hstart hne)] at hpick
  exact walk_eq_of_imp hpick havail (fun c b hc => hsub b (mem_of_endpointAt hc))

theorem RingHashLB.start_lt (rh : RingHashLB) (hashKey : UInt64) (hne : rh.ring ≠ []) :
    rh.start hashKey < rh.ring.length := by
  have hpos := List.length_pos_iff.mpr hne
  have hle : rh.ring.findIdx (fun e => decide (hashKey ≤ e.hash)) ≤ rh.ring.length :=
    List.findIdx_le_length
  rw [start]
  split_ifs with hend
  · exact hpos
  · exact lt_of_le_of_ne hle hend

/-- The endpoint of a key stays while it and only fewer endpoints are available. -/
theorem pick_stable (lb : LoadBalancer) (hashKey : UInt64) (hasHash : Bool) (draw : UInt64)
    (hcalm₁ : Health.inPanic h₁ lb.endpoints = false)
    (hcalm₂ : Health.inPanic h₂ lb.endpoints = false)
    (hsub : ∀ e ∈ lb.endpoints, Health.available h₂ e = true → Health.available h₁ e = true)
    (hpick : lb.pick h₁ hashKey hasHash draw = .owner ep) (havail : Health.available h₂ ep = true) :
    lb.pick h₂ hashKey hasHash draw = .owner ep := by
  cases lb with
  | ringHash rh =>
    refine pickFrom_stable hcalm₁ hcalm₂ (fun _ hne => ?_) hsub hpick havail
    rw [List.length_map]
    exact rh.start_lt _ (fun hnil => hne (by rw [hnil, List.map_nil]))
  | maglev mg =>
    refine pickFrom_stable hcalm₁ hcalm₂ (fun heps hne => ?_) hsub hpick havail
    have hpos := List.length_pos_iff.mpr hne
    rw [mg.length_table heps] at hpos ⊢
    exact Nat.mod_lt _ hpos

end Stability

/-- Two hosts on a ring of three points. -/
def twoHosts : RingHashLB where
  endpoints := [⟨"10.0.0.1:80"⟩, ⟨"10.0.0.2:80"⟩]
  ring := [⟨1, 0⟩, ⟨5, 1⟩, ⟨9, 0⟩]
  sorted := by decide

def bothHealthy : Health := ⟨newStates twoHosts.endpoints, 50, 0⟩

def firstHealthy : Health :=
  { bothHealthy with
    states := fun a => if a = "10.0.0.2:80" then some { healthy := false } else
      bothHealthy.states a }

theorem pick_stable_twoHosts :
    (LoadBalancer.ringHash twoHosts).pick (some firstHealthy) 6 true 0 =
      .owner ⟨"10.0.0.1:80"⟩ := by
  have hpick : (LoadBalancer.ringHash twoHosts).pick (some bothHealthy) 6 true 0 =
      .owner ⟨"10.0.0.1:80"⟩ := by decide +kernel
  refine pick_stable (.ringHash twoHosts) 6 true 0 (by decide +kernel) (by decide +kernel) ?_ hpick
    (by decide +kernel)
  intro e he _
  rcases List.mem_cons.mp he with rfl | he
  · decide +kernel
  · rcases List.mem_singleton.mp he with rfl
    decide +kernel

end EnvoyGo.ConsistentHash

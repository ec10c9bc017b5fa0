import EnvoyGo.ClusterHealth
import EnvoyGo.Runs
import Mathlib.Tactic.Ring
import Mathlib.Algebra.Order.Group.Int
import Mathlib.Data.UInt

/-!
Concurrent picks of one round-robin load balancer.  Every try of a pick draws the next value of the
shared counter, so the tries of one pick are not consecutive when others draw in between.
-/

namespace EnvoyGo.RoundRobin

open ClusterHealth Runs

structure FixedHealth where
  states : States
  panicThresholdPercent : Int
  now : Int

/-- `panicGate`: without a registry, or in panic, availability is not asked. -/
def panicGate (health : Option FixedHealth) (eps : List Endpoint) : Bool :=
  match health with
  | none => true
  | some ch => inPanic ch.states ch.panicThresholdPercent ch.now eps

structure LoadBalancer where
  endpoints : List Endpoint
  health : Option FixedHealth

namespace LoadBalancer

def isAvailable (rr : LoadBalancer) (ep : Endpoint) : Bool :=
  match rr.health with
  | none => true
  | some ch => available ch.states ch.now ep

end LoadBalancer

inductive Pick
  | idle
  | blind
  | trying (tries : Nat)
  | returned (ep : Endpoint)
  | errNoEndpoints
  | crashed
  deriving DecidableEq

structure State where
  counter : UInt64
  picks : Nat → Pick

def State.setPick (s : State) (i : Nat) (p : Pick) : State :=
  { s with picks := Function.update s.picks i p }

/-- `int(i) % n`: the conversion keeps the bits, and the remainder has the sign of the dividend. -/
def index (i : UInt64) (n : Nat) : Int := i.toInt64.toInt.tmod n

def endpointAt (rr : LoadBalancer) (i : UInt64) : Option Endpoint :=
  if 0 ≤ index i rr.endpoints.length then
    rr.endpoints[(index i rr.endpoints.length).toNat]?
  else none

/-- `start` runs `Pick` up to its first draw, `draw` one `counter.Add(1)` and what follows it. -/
inductive Event
  | start (i : Nat)
  | draw (i : Nat)
  deriving DecidableEq

def afterDraw (rr : LoadBalancer) (c : UInt64) : Pick → Pick
  | .blind =>
    match endpointAt rr c with
    | some ep => .returned ep
    | none => .crashed
  | .trying t =>
    match endpointAt rr c with
    | some ep =>
      if rr.isAvailable ep then .returned ep
      else if t + 1 < rr.endpoints.length then .trying (t + 1) else .errNoEndpoints
    | none => .crashed
  | p => p

def Pick.draws : Pick → Bool
  | .blind | .trying _ => true
  | _ => false

def step (rr : LoadBalancer) (s : State) : Event → State
  | .start i =>
    if s.picks i = .idle then
      if rr.endpoints.length = 0 then s.setPick i .errNoEndpoints
      else if panicGate rr.health rr.endpoints then s.setPick i .blind
      else s.setPick i (.trying 0)
    else s
  | .draw i =>
    if (s.picks i).draws then
      { s.setPick i (afterDraw rr s.counter (s.picks i)) with counter := s.counter + 1 }
    else s

/-- All picks on a balancer whose counter stands at `c`. -/
def run (rr : LoadBalancer) (c : UInt64) (es : List Event) : State :=
  es.foldl (step rr) { counter := c, picks := fun _ => .idle }

/-- A pick that is under way has a try left, and one that is over has returned an available endpoint
of the list. -/
def Pick.served (rr : LoadBalancer) : Pick → Prop
  | .idle => True
  | .trying t => t < rr.endpoints.length
  | .returned ep => ep ∈ rr.endpoints ∧ rr.isAvailable ep = true
  | .blind | .errNoEndpoints | .crashed => False

def Served (rr : LoadBalancer) (s : State) : Prop := ∀ i, (s.picks i).served rr

/-- The counter is where `int` keeps its sign, or at a multiple of the list's length before it
wraps; and who draws for the last time finds an available endpoint there. -/
def DrawsHit (rr : LoadBalancer) (s : State) : Event → Prop
  | .start _ => True
  | .draw i => ∀ t, s.picks i = .trying t →
      (s.counter.toNat < 2 ^ 63 ∨ rr.endpoints.length ∣ 2 ^ 64 - s.counter.toNat) ∧
      (t + 1 = rr.endpoints.length → (endpointAt rr s.counter).any rr.isAvailable = true)

theorem toInt_toInt64 (c : UInt64) :
    c.toInt64.toInt = if c.toNat < 2 ^ 63 then (c.toNat : Int) else c.toNat - 2 ^ 64 := by
  have hcond : c.toInt64.toInt =
      if 2 * c.toNat < 2 ^ 64 then (c.toNat : Int) else c.toNat - 2 ^ 64 :=
    BitVec.toInt_eq_toNat_cond c.toBitVec
  rw [hcond]
  refine if_congr ?_ rfl rfl
  omega

theorem index_nonneg_iff (c : UInt64) (n : Nat) :
    0 ≤ index c n ↔ c.toNat < 2 ^ 63 ∨ n ∣ 2 ^ 64 - c.toNat := by
  unfold index
  rw [toInt_toInt64]
  split_ifs with hc
  · refine iff_of_true ?_ (.inl hc)
    exact Int.tmod_nonneg _ (Int.natCast_nonneg _)
  · have hlt : c.toNat < 2 ^ 64 := c.toNat_lt
    have hneg : (c.toNat : Int) - 2 ^ 64 = -((2 ^ 64 - c.toNat : Nat) : Int) := by omega
    rw [hneg, Int.neg_tmod, or_iff_right hc]
    have hrem : ((2 ^ 64 - c.toNat : Nat) : Int).tmod n = ((2 ^ 64 - c.toNat) % n : Nat) :=
      rfl
    rw [hrem, Nat.dvd_iff_mod_eq_zero]
    omega

theorem index_lt (c : UInt64) {n : Nat} (hn : 0 < n) : index c n < n :=
  Int.tmod_lt_of_pos _ (by omega)

variable {rr : LoadBalancer}

theorem endpointAt_isSome (hn : 0 < rr.endpoints.length) (c : UInt64) :
    (endpointAt rr c).isSome = true ↔
      c.toNat < 2 ^ 63 ∨ rr.endpoints.length ∣ 2 ^ 64 - c.toNat := by
  rw [← index_nonneg_iff]
  unfold endpointAt
  split_ifs with hidx
  · refine iff_of_true ?_ hidx
    have hlt := index_lt c hn
    rw [List.getElem?_eq_getElem (by omega)]
    rfl
  · exact iff_of_false (by simp) hidx

theorem mem_of_endpointAt {c : UInt64} {ep : Endpoint} (h : endpointAt rr c = some ep) :
    ep ∈ rr.endpoints := by
  unfold endpointAt at h
  split_ifs at h
  exact List.mem_of_getElem? h

theorem served_afterDraw (c : UInt64) {t : Nat} (ht : t < rr.endpoints.length) :
    (afterDraw rr c (.trying t)).served rr ↔
      (c.toNat < 2 ^ 63 ∨ rr.endpoints.length ∣ 2 ^ 64 - c.toNat) ∧
      (t + 1 = rr.endpoints.length → (endpointAt rr c).any rr.isAvailable = true) := by
  rw [← endpointAt_isSome (by omega) c]
  cases hep : endpointAt rr c with
  | none => simp [afterDraw, hep, Pick.served]
  | some ep =>
    by_cases hav : rr.isAvailable ep = true
    · simp [afterDraw, hep, hav, Pick.served, mem_of_endpointAt hep]
    · by_cases hlast : t + 1 < rr.endpoints.length
      · simp [afterDraw, hep, hav, hlast, Pick.served]
        omega
      · simp [afterDraw, hep, hav, hlast, Pick.served]
        omega

theorem served_setPick {s : State} (hs : Served rr s) (i : Nat) (p : Pick) :
    Served rr (s.setPick i p) ↔ p.served rr := by
  constructor
  · intro h
    have hi := h i
    simp only [State.setPick, Function.update_self] at hi
    exact hi
  · intro hp j
    simp only [State.setPick, Function.update_apply]
    split_ifs
    · exact hp
    · exact hs j

theorem served_step (hgate : panicGate rr.health rr.endpoints = false)
    (hne : rr.endpoints ≠ []) (s : State) (e : Event) (hs : Served rr s) :
    Served rr (step rr s e) ↔ DrawsHit rr s e := by
  have hn : 0 < rr.endpoints.length := List.length_pos_iff.mpr hne
  cases e with
  | start i =>
    refine iff_of_true ?_ trivial
    simp only [step, hgate, Nat.ne_of_gt hn, if_false, Bool.false_eq_true]
    split_ifs with hi
    · exact (served_setPick hs i _).mpr hn
    · exact hs
  | draw i =>
    cases hp : s.picks i with
    | trying t =>
      have ht : t < rr.endpoints.length := by
        have hi := hs i
        rwa [hp] at hi
      have hstep : Served rr (step rr s (.draw i)) ↔
          Served rr (s.setPick i (afterDraw rr s.counter (.trying t))) := by
        simp only [step, hp, Pick.draws, if_true]
        exact Iff.rfl
      rw [hstep, served_setPick hs, served_afterDraw _ ht]
      simp [DrawsHit, hp]
    | blind =>
      have hi := hs i
      rw [hp] at hi
      exact hi.elim
    | _ =>
      refine iff_of_true ?_ (fun t ht => by rw [hp] at ht; cases ht)
      simpa [step, hp, Pick.draws] using hs

/-- Every pick returns an available endpoint of the list, throughout a run from any counter value,
exactly if every draw of the run hits. -/
theorem served_iff_drawsHit (rr : LoadBalancer)
    (hgate : panicGate rr.health rr.endpoints = false)
    (hav : ∃ ep ∈ rr.endpoints, rr.isAvailable ep = true) (c : UInt64) (es : List Event) :
    (∀ pre, pre <+: es → Served rr (run rr c pre)) ↔
      StepsMeet (step rr) (DrawsHit rr) { counter := c, picks := fun _ => .idle } es := by
  have hne : rr.endpoints ≠ [] := by
    obtain ⟨ep, hep, -⟩ := hav
    exact List.ne_nil_of_mem hep
  have hstep : ∀ s e, Served rr s → (Served rr (step rr s e) ↔ DrawsHit rr s e) :=
    served_step hgate hne
  exact throughout_iff_stepsMeet hstep es _ (fun _ => trivial)

/-- Two hosts, the first of them unhealthy. -/
def halfHealthy : LoadBalancer where
  endpoints := [⟨"a"⟩, ⟨"b"⟩]
  health := some
    { states := fun a => if a = "a" then some { healthy := false } else some {}
      panicThresholdPercent := 50
      now := 0 }

/-- A pick alone finds the healthy host at its second draw. -/
theorem served_halfHealthy :
    Served halfHealthy (run halfHealthy 0 [.start 0, .draw 0, .draw 0]) := by
  refine (served_iff_drawsHit halfHealthy (by decide +kernel) ⟨⟨"b"⟩, by decide, by decide⟩ 0
    [.start 0, .draw 0, .draw 0]).mpr ⟨trivial, ?_, ?_, trivial⟩ _ List.prefix_rfl
  · intro t ht
    have hfirst : (run halfHealthy 0 [.start 0]).picks 0 = .trying 0 := by decide +kernel
    obtain rfl : 0 = t := Pick.trying.inj (hfirst.symm.trans ht)
    exact ⟨.inl (by decide +kernel), fun hlast => absurd hlast (by decide)⟩
  · intro t _
    exact ⟨.inl (by decide +kernel), fun _ => by decide +kernel⟩

/-- Two picks whose draws alternate: the first draws the unhealthy host twice.  And a counter that
has passed `2 ^ 63` gives a negative index. -/
theorem not_served :
    panicGate halfHealthy.health halfHealthy.endpoints = false ∧
    (run halfHealthy 0 [.start 0, .start 1, .draw 0, .draw 1, .draw 0]).picks 0 =
      .errNoEndpoints ∧
    (run halfHealthy (2 ^ 63 + 1) [.start 0, .draw 0]).picks 0 = .crashed := by
  decide +kernel

end EnvoyGo.RoundRobin

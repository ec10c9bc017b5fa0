import EnvoyGo.ClusterHealth
import EnvoyGo.GoText
import EnvoyGo.Runs
import Mathlib.Data.List.Count

/-!
Active health checking: the accepted `health_checks` of a cluster, and their checkers at work on the
hosts.  Every checker counts on the same host record.
-/

namespace EnvoyGo.HealthThresholds

open ClusterHealth Runs

inductive HealthChecker
  | http (host path : String) (expectedStatuses : List (Int × Int))
  | tcp (send : Bool) (receive : Nat)
  | grpc (serviceName : String)

/-- A `health_check` of the configuration; durations are in nanoseconds. -/
structure HealthCheck where
  interval : Option Int := none
  timeout : Option Int := none
  unhealthyThreshold : Option UInt32 := none
  healthyThreshold : Option UInt32 := none
  healthChecker : Option HealthChecker := none

inductive Prober
  | http (host path : String) (timeout : Int) (expectedStatuses : List (Int × Int))
  | tcp (timeout : Int)
  | grpc (serviceName : String) (timeout : Int)

structure CheckerSpec where
  interval : Int
  unhealthy : UInt32
  healthy : UInt32
  prober : Prober

inductive Reject
  | intervalRequired
  | intervalNotPositive
  | timeoutRequired
  | timeoutNotPositive
  | unhealthyThresholdRequired
  | healthyThresholdRequired
  | httpPathRequired
  | tcpPayload
  | checkerRequired
  deriving DecidableEq

def Reject.text : Reject → String
  | .intervalRequired => "interval is required"
  | .intervalNotPositive => "interval: value must be greater than 0s"
  | .timeoutRequired => "timeout is required"
  | .timeoutNotPositive => "timeout: value must be greater than 0s"
  | .unhealthyThresholdRequired => "unhealthy_threshold is required"
  | .healthyThresholdRequired => "healthy_threshold is required"
  | .httpPathRequired => "http path is required"
  | .tcpPayload => "tcp_health_check send/receive payload matching is not supported"
  | .checkerRequired => "a health_checker is required"

def parseProber (timeout : Int) : Option HealthChecker → Except Reject Prober
  | some (.http host path statuses) =>
    if path = "" then .error .httpPathRequired else .ok (.http host path timeout statuses)
  | some (.tcp send receive) =>
    if send || decide (0 < receive) then .error .tcpPayload else .ok (.tcp timeout)
  | some (.grpc serviceName) => .ok (.grpc serviceName timeout)
  | none => .error .checkerRequired

def parseHealthCheck (hc : HealthCheck) : Except Reject CheckerSpec :=
  match hc.interval with
  | none => .error .intervalRequired
  | some interval =>
    if interval ≤ 0 then .error .intervalNotPositive
    else
      match hc.timeout with
      | none => .error .timeoutRequired
      | some timeout =>
        if timeout ≤ 0 then .error .timeoutNotPositive
        else
          match hc.unhealthyThreshold with
          | none => .error .unhealthyThresholdRequired
          | some unhealthy =>
            match hc.healthyThreshold with
            | none => .error .healthyThresholdRequired
            | some healthy => do
              let prober ← parseProber timeout hc.healthChecker
              return { interval, unhealthy, healthy, prober }

def parseSpecs : List HealthCheck → Except Reject (List CheckerSpec)
  | [] => .ok []
  | hc :: hcs => do
    let spec ← parseHealthCheck hc
    let specs ← parseSpecs hcs
    return spec :: specs

def CheckerSpec.isGrpc (spec : CheckerSpec) : Bool :=
  match spec.prober with
  | .grpc _ _ => true
  | _ => false

/-- The specs in the order of the configuration, and whether one of them is a gRPC checker. -/
def parseHealthChecks (name : String) (hcs : List HealthCheck) :
    Except String (List CheckerSpec × Bool) :=
  match parseSpecs hcs with
  | .ok specs => .ok (specs, specs.any CheckerSpec.isGrpc)
  | .error r => .error ("cluster: " ++ Text.quote name ++ ": health_check: " ++ r.text)

/-- The counters of one checker. -/
structure Counters where
  attempt : Nat := 0
  success : Nat := 0
  failure : Nat := 0
  networkFailure : Nat := 0

structure Cluster where
  states : States
  firstDone : Nat → String → Bool := fun _ _ => false
  counters : Nat → Counters := fun _ => {}

/-- A probe of checker `checker` on a host has come back. -/
structure Probe where
  checker : Nat
  ep : Endpoint
  ok : Bool
  netFail : Bool := false

def countResult (c : Counters) (ok netFail : Bool) : Counters :=
  if ok then { c with attempt := c.attempt + 1, success := c.success + 1 }
  else if netFail then
    { c with attempt := c.attempt + 1, failure := c.failure + 1
             networkFailure := c.networkFailure + 1 }
  else { c with attempt := c.attempt + 1, failure := c.failure + 1 }

def applyResult (s : Cluster) (spec : CheckerSpec) (e : Probe) : Cluster where
  states := Function.update s.states e.ep.addr ((s.states e.ep.addr).map fun h =>
    h.recordResult e.ok spec.unhealthy spec.healthy (!s.firstDone e.checker e.ep.addr))
  firstDone := Function.update s.firstDone e.checker
    (Function.update (s.firstDone e.checker) e.ep.addr true)
  counters := Function.update s.counters e.checker
    (countResult (s.counters e.checker) e.ok e.netFail)

/-- One checker was built per spec. -/
def step (specs : List CheckerSpec) (s : Cluster) (e : Probe) : Cluster :=
  match specs[e.checker]? with
  | none => s
  | some spec => applyResult s spec e

def run (specs : List CheckerSpec) (eps : List Endpoint) (es : List Probe) : Cluster :=
  es.foldl (step specs) { states := newStates eps }

/-- The probe is one of checker `k` on the host at `a`. -/
def Probe.isOf (k : Nat) (a : String) (e : Probe) : Bool :=
  decide (e.checker = k) && decide (e.ep.addr = a)

def FailsEvery (k : Nat) (a : String) (es : List Probe) : Prop :=
  ∀ e ∈ es, e.isOf k a = true → e.ok = false

def MarkedUnhealthy (s : Cluster) (a : String) : Prop :=
  ∃ h, s.states a = some h ∧ h.healthy = false

/-- From the threshold on, a checker that fails every probe of a host has it marked unhealthy,
whatever the other checkers report. -/
def ThresholdsHonoured (specs : List CheckerSpec) (eps : List Endpoint) : Prop :=
  ∀ k spec, specs[k]? = some spec → ∀ ep ∈ eps, ∀ es, FailsEvery k ep.addr es →
    max 1 spec.unhealthy.toNat ≤ es.countP (Probe.isOf k ep.addr) →
    MarkedUnhealthy (run specs eps es) ep.addr

variable {specs : List CheckerSpec} {a : String}

theorem length_parseSpecs {hcs : List HealthCheck} (h : parseSpecs hcs = .ok specs) :
    specs.length = hcs.length := by
  induction hcs generalizing specs with
  | nil =>
    obtain rfl := Except.ok.inj h
    rfl
  | cons hc hcs ih =>
    unfold parseSpecs at h
    cases hspec : parseHealthCheck hc with
    | error r =>
      rw [hspec] at h
      cases h
    | ok spec =>
      rw [hspec] at h
      cases hrest : parseSpecs hcs with
      | error r =>
        rw [hrest] at h
        cases h
      | ok rest =>
        rw [hrest] at h
        obtain rfl := Except.ok.inj h
        exact congrArg (· + 1) (ih hrest)

theorem length_parseHealthChecks {name : String} {hcs : List HealthCheck} {g : Bool}
    (h : parseHealthChecks name hcs = .ok (specs, g)) : specs.length = hcs.length := by
  unfold parseHealthChecks at h
  cases hparse : parseSpecs hcs with
  | error r =>
    rw [hparse] at h
    cases h
  | ok parsed =>
    rw [hparse] at h
    obtain rfl : parsed = specs := congrArg Prod.fst (Except.ok.inj h)
    exact length_parseSpecs hparse

structure DownOnceProbed (a : String) (s : Cluster) : Prop where
  known : (s.states a).isSome = true
  down : s.firstDone 0 a = true → MarkedUnhealthy s a

theorem recordResult_failed (h : HostHealth) (u t : UInt32) (first : Bool)
    (hdown : first = false → h.healthy = false) :
    (h.recordResult false u t first).healthy = false := by
  have hflag : (h.recordResult false u t first).healthy =
      if first || decide (u ≤ h.consecFail + 1) then false else h.healthy := rfl
  rw [hflag]
  split_ifs with hgate
  · rfl
  · have hboth : first = false ∧ h.consecFail + 1 < u := by simpa using hgate
    exact hdown hboth.1

theorem downOnceProbed_step (hlen : specs.length ≤ 1) {s : Cluster} {e : Probe}
    (he : e.isOf 0 a = true → e.ok = false) (hs : DownOnceProbed a s) :
    DownOnceProbed a (step specs s e) := by
  unfold step
  cases hspec : specs[e.checker]? with
  | none => exact hs
  | some spec =>
    have hzero : e.checker = 0 := by
      have hlt := (List.getElem?_eq_some_iff.mp hspec).1
      omega
    by_cases ha : e.ep.addr = a
    · have hok : e.ok = false := he (by simp [Probe.isOf, hzero, ha])
      obtain ⟨h, hh⟩ := Option.isSome_iff_exists.mp hs.known
      have hnew : (applyResult s spec e).states a =
          some (h.recordResult false spec.unhealthy spec.healthy (!s.firstDone 0 a)) := by
        simp only [applyResult, ha, Function.update_self, hh, hok, hzero, Option.map_some]
      refine ⟨by rw [hnew]; rfl, fun _ => ⟨_, hnew, ?_⟩⟩
      apply recordResult_failed
      intro hprobed
      obtain ⟨h', hh', hdown⟩ := hs.down (by simpa using hprobed)
      obtain rfl : h = h' := Option.some.inj (hh.symm.trans hh')
      exact hdown
    · have hsame : (applyResult s spec e).states a = s.states a := by
        simp only [applyResult, Function.update_of_ne (Ne.symm ha)]
      have hfirst : (applyResult s spec e).firstDone 0 a = s.firstDone 0 a := by
        simp only [applyResult, hzero, Function.update_self, Function.update_of_ne (Ne.symm ha)]
      refine ⟨by rw [hsame]; exact hs.known, ?_⟩
      intro hprobed
      rw [hfirst] at hprobed
      obtain ⟨h, hh, hdown⟩ := hs.down hprobed
      exact ⟨h, hsame.trans hh, hdown⟩

theorem firstDone_step {k : Nat} (hk : k < specs.length) (s : Cluster) (e : Probe) :
    (step specs s e).firstDone k a = (s.firstDone k a || e.isOf k a) := by
  unfold step
  cases hspec : specs[e.checker]? with
  | none =>
    have hne : e.checker ≠ k := by
      rintro rfl
      rw [List.getElem?_eq_getElem hk] at hspec
      cases hspec
    simp [Probe.isOf, hne]
  | some spec =>
    by_cases hc : e.checker = k
    · by_cases ha : e.ep.addr = a
      · simp [applyResult, Probe.isOf, hc, ha]
      · simp [applyResult, Probe.isOf, hc, ha, Function.update_of_ne (Ne.symm ha)]
    · simp [applyResult, Probe.isOf, hc, Function.update_of_ne (Ne.symm hc)]

theorem firstDone_foldl {k : Nat} (hk : k < specs.length) (es : List Probe) (s : Cluster) :
    (es.foldl (step specs) s).firstDone k a = (s.firstDone k a || es.any (Probe.isOf k a)) := by
  induction es generalizing s with
  | nil => simp
  | cons e es ih => rw [List.foldl_cons, ih, firstDone_step hk, List.any_cons, Bool.or_assoc]

theorem stepsMeet_of_failsEvery {k : Nat} {es : List Probe} (hes : FailsEvery k a es)
    (s : Cluster) : StepsMeet (step specs) (fun _ e => e.isOf k a = true → e.ok = false) s es := by
  induction es generalizing s with
  | nil => trivial
  | cons e es ih =>
    exact ⟨hes e List.mem_cons_self, ih (fun f hf => hes f (List.mem_cons_of_mem e hf)) _⟩

theorem newStates_isSome {eps : List Endpoint} {ep : Endpoint} (hep : ep ∈ eps) :
    (newStates eps ep.addr).isSome = true := by
  have hany : eps.any (fun e => e.addr = ep.addr) = true :=
    List.any_eq_true.mpr ⟨ep, hep, by simp⟩
  simp [newStates, hany]

theorem thresholdsHonoured_of_one (hlen : specs.length ≤ 1) (eps : List Endpoint) :
    ThresholdsHonoured specs eps := by
  intro k spec hspec ep hep es hfail hcount
  have hk : k < specs.length := (List.getElem?_eq_some_iff.mp hspec).1
  obtain rfl : k = 0 := by omega
  have hstep : ∀ s e, (e.isOf 0 ep.addr = true → e.ok = false) → DownOnceProbed ep.addr s →
      DownOnceProbed ep.addr (step specs s e) := fun s e he hs => downOnceProbed_step hlen he hs
  have hinit : DownOnceProbed ep.addr { states := newStates eps } :=
    ⟨newStates_isSome hep, fun h => by cases h⟩
  have hdown := invariant_of_steps hstep es _ hinit (stepsMeet_of_failsEvery hfail _)
  apply hdown.down
  rw [firstDone_foldl hk]
  have hpos : 0 < es.countP (Probe.isOf 0 ep.addr) := lt_of_lt_of_le (by omega) hcount
  obtain ⟨e, he, hof⟩ := List.countP_pos_iff.mp hpos
  rw [List.any_eq_true.mpr ⟨e, he, hof⟩, Bool.or_true]

theorem healthy_of_second {spec : CheckerSpec} (hspec : specs[1]? = some spec) {ep : Endpoint}
    {s : Cluster} (hfirst : s.firstDone 1 ep.addr = false) :
    ¬ MarkedUnhealthy (step specs s { checker := 1, ep := ep, ok := true }) ep.addr := by
  rintro ⟨h, hh, hdown⟩
  simp only [step, hspec, applyResult, Function.update_self, hfirst, Option.map_eq_some_iff] at hh
  obtain ⟨h₀, -, rfl⟩ := hh
  simp [HostHealth.recordResult] at hdown

/-- The first checker fails as often as its threshold asks, then the second has its first probe. -/
def disagreement (spec : CheckerSpec) (ep : Endpoint) : List Probe :=
  List.replicate (max 1 spec.unhealthy.toNat) { checker := 0, ep := ep, ok := false } ++
    [{ checker := 1, ep := ep, ok := true }]

theorem failsEvery_disagreement (spec : CheckerSpec) (ep : Endpoint) :
    FailsEvery 0 ep.addr (disagreement spec ep) := by
  intro e he hof
  rcases List.mem_append.mp he with he | he
  · rw [List.eq_of_mem_replicate he]
  · rw [List.mem_singleton.mp he] at hof
    simp [Probe.isOf] at hof

theorem not_thresholdsHonoured_of_two (hlen : 2 ≤ specs.length) {eps : List Endpoint}
    {ep : Endpoint} (hep : ep ∈ eps) : ¬ ThresholdsHonoured specs eps := by
  intro h
  have h0 : specs[0]? = some specs[0] := List.getElem?_eq_getElem (by omega)
  have h1 : specs[1]? = some specs[1] := List.getElem?_eq_getElem (by omega)
  have hfail := failsEvery_disagreement specs[0] ep
  have hcount : max 1 specs[0].unhealthy.toNat ≤
      (disagreement specs[0] ep).countP (Probe.isOf 0 ep.addr) := by
    rw [disagreement, List.countP_append, List.countP_replicate, if_pos (by simp [Probe.isOf])]
    exact Nat.le_add_right _ _
  refine healthy_of_second h1 ?_ (by
    simpa [run, disagreement, List.foldl_append] using
      h 0 specs[0] h0 ep hep (disagreement specs[0] ep) hfail hcount)
  rw [firstDone_foldl (by omega), Bool.false_or, Bool.eq_false_iff]
  intro hany
  obtain ⟨e, he, hof⟩ := List.any_eq_true.mp hany
  rw [List.eq_of_mem_replicate he] at hof
  simp [Probe.isOf] at hof

/-- The thresholds of every checker are honoured, on every host and in every interleaving, exactly
if the cluster has at most one health check. -/
theorem thresholdsHonoured_iff (name : String) (hcs : List HealthCheck)
    (specs : List CheckerSpec) (g : Bool) (hparse : parseHealthChecks name hcs = .ok (specs, g))
    (eps : List Endpoint) (hne : eps ≠ []) :
    ThresholdsHonoured specs eps ↔ hcs.length ≤ 1 := by
  rw [← length_parseHealthChecks hparse]
  constructor
  · intro h
    by_contra hlen
    obtain ⟨ep, hep⟩ := List.exists_mem_of_ne_nil eps hne
    exact not_thresholdsHonoured_of_two (by omega) hep h
  · exact fun hlen => thresholdsHonoured_of_one hlen eps

/-- A TCP check with both thresholds at two. -/
def tcpCheck : HealthCheck where
  interval := some 1000000000
  timeout := some 1000000000
  unhealthyThreshold := some 2
  healthyThreshold := some 2
  healthChecker := some (.tcp false 0)

def tcpSpec : CheckerSpec where
  interval := 1000000000
  unhealthy := 2
  healthy := 2
  prober := .tcp 1000000000

theorem thresholdsHonoured_tcp : ThresholdsHonoured [tcpSpec] [⟨"h"⟩] :=
  (thresholdsHonoured_iff "c" [tcpCheck] [tcpSpec] false rfl [⟨"h"⟩] (by simp)).mpr le_rfl

/-- Of two accepted checks one fails its two probes, and then the other succeeds once: the host is
marked healthy. -/
theorem not_thresholdsHonoured :
    parseHealthChecks "c" [tcpCheck, tcpCheck] = .ok ([tcpSpec, tcpSpec], false) ∧
    FailsEvery 0 "h" (disagreement tcpSpec ⟨"h"⟩) ∧
    (disagreement tcpSpec ⟨"h"⟩).countP (Probe.isOf 0 "h") = 2 ∧
    ((run [tcpSpec, tcpSpec] [⟨"h"⟩] (disagreement tcpSpec ⟨"h"⟩)).states "h").map
      HostHealth.healthy = some true :=
  ⟨rfl, failsEvery_disagreement tcpSpec ⟨"h"⟩, by decide +kernel, by decide +kernel⟩

end EnvoyGo.HealthThresholds

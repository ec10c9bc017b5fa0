/-!
The host-health registry of a cluster: what active health checks and outlier detection keep of each
host, and what the load balancers read of it.
-/

namespace EnvoyGo.ClusterHealth

/-- An endpoint, by the `Addr()` that is precomputed when the cluster is built. -/
structure Endpoint where
  addr : String
  deriving DecidableEq

structure HostHealth where
  healthy : Bool := true
  consecSuccess : UInt32 := 0
  consecFail : UInt32 := 0
  ejected : Bool := false
  unejectAtNanos : Int := 0
  consec5xx : UInt32 := 0
  consecGw : UInt32 := 0
  consecLO : UInt32 := 0
  intervalTotal : UInt64 := 0
  intervalSuccess : UInt64 := 0
  deriving DecidableEq

abbrev States := String → Option HostHealth

def newStates (endpoints : List Endpoint) : States :=
  fun a => if endpoints.any (fun ep => ep.addr = a) then some {} else none

namespace HostHealth

def ejectedAt (h : HostHealth) (now : Int) : Bool := h.ejected && decide (now < h.unejectAtNanos)

def refresh (h : HostHealth) (now : Int) : HostHealth :=
  if h.ejected && decide (h.unejectAtNanos ≤ now) then { h with ejected := false } else h

def availableAt (h : HostHealth) (now : Int) : Bool := h.healthy && !h.ejectedAt now

def recordResult (h : HostHealth) (ok : Bool) (unhealthyThreshold healthyThreshold : UInt32)
    (firstCheck : Bool) : HostHealth :=
  if ok then
    let n := h.consecSuccess + 1
    { h with
      consecFail := 0, consecSuccess := n
      healthy := if firstCheck || decide (healthyThreshold ≤ n) then true else h.healthy }
  else
    let n := h.consecFail + 1
    { h with
      consecSuccess := 0, consecFail := n
      healthy := if firstCheck || decide (unhealthyThreshold ≤ n) then false else h.healthy }

end HostHealth

/-- `available`; an unknown address is available. -/
def available (st : States) (now : Int) (ep : Endpoint) : Bool :=
  match st ep.addr with
  | none => true
  | some h => h.availableAt now

def availableCount (st : States) (now : Int) (eps : List Endpoint) : Nat :=
  eps.countP (available st now)

/-- Fewer available hosts than the threshold percentage of the endpoints. -/
def inPanic (st : States) (panicThresholdPercent : Int) (now : Int) (eps : List Endpoint) : Bool :=
  !eps.isEmpty &&
    decide (100 * (availableCount st now eps : Int) < panicThresholdPercent * eps.length)

end EnvoyGo.ClusterHealth

import EnvoyGo.ClusterHealth

/-!
The load balancers of a cluster, by the availability checks that their picks make.  A wrapper asks
through the cluster's registry and hands its children a view of their own.
-/

namespace EnvoyGo.Balancers

open ClusterHealth

/-- `tier` is the view of `tierHealth`: the same hosts, but no gauge and no panic threshold. -/
inductive View
  | shared
  | tier
  deriving DecidableEq

/-- A pick under way: it is over, or asks next whether an endpoint is available. -/
inductive Checks (α : Type) : Type
  | done (a : α)
  | ask (view : View) (ep : Endpoint) (k : Bool → Checks α)

namespace Checks

def bind {α β : Type} : Checks α → (α → Checks β) → Checks β
  | .done a, f => f a
  | .ask view ep k, f => .ask view ep fun b => (k b).bind f

end Checks

inductive LbPolicy
  | roundRobin
  | leastRequest (choiceCount : Nat)
  | random
  | ringHash (ring : List Nat)
  | maglev (table : List Nat)

/-- What one pick takes from outside: the values of the counter, of the random source or of the hash
key; the active requests of the endpoints; the wrapper's float64 draw, from the available hosts of
its groups to the group or the flat fallback; and the subset that the match resolves to. -/
structure Draws where
  value : Nat → Nat
  active : Nat → Nat
  group : List Nat → Option Nat
  subset : Option Nat

def around (n start : Nat) : List Nat := (List.range n).map fun k => (start + k) % n

def scans (n : Nat) (d : Draws) : LbPolicy → List (List Nat)
  | .roundRobin => [(List.range n).map fun t => d.value t % n]
  | .leastRequest choiceCount =>
    (List.range (max 1 choiceCount)).map fun t => around n (d.value t % n)
  | .random => [around n (d.value 0 % n)]
  | .ringHash ring => [(around ring.length (d.value 0)).map fun j => ring.getD j 0]
  | .maglev table => [(around table.length (d.value 0)).map fun j => table.getD j 0]

def availableCount (view : View) : List Endpoint → Checks Nat
  | [] => .done 0
  | ep :: eps => .ask view ep fun b => (availableCount view eps).bind fun n => .done (n + b.toNat)

def inPanic (view : View) (threshold : Nat) (eps : List Endpoint) : Checks Bool :=
  if eps.isEmpty then .done false
  else (availableCount view eps).bind fun n => .done (decide (100 * n < threshold * eps.length))

def View.threshold (panicThresholdPercent : Nat) : View → Nat
  | .shared => panicThresholdPercent
  | .tier => 0

/-- `nil` stands for a child without registry. -/
def panicGate (panicThresholdPercent : Nat) (eps : List Endpoint) : Option View → Checks Bool
  | none => .done true
  | some view => inPanic view (view.threshold panicThresholdPercent) eps

def scan (view : View) (eps : List Endpoint) : List Nat → Checks (Option Nat)
  | [] => .done none
  | i :: is =>
    match eps[i]? with
    | none => scan view eps is
    | some ep => .ask view ep fun b => if b then .done (some i) else scan view eps is

def candidates (view : View) (eps : List Endpoint) : List (List Nat) → Checks (List Nat)
  | [] => .done []
  | is :: iss => (scan view eps is).bind fun
      | none => .done []
      | some i => (candidates view eps iss).bind fun js => .done (i :: js)

def fewest (active : Nat → Nat) (i : Nat) (js : List Nat) : Nat :=
  js.foldl (fun best j => if active j < active best then j else best) i

def leafPick (policy : LbPolicy) (panicThresholdPercent : Nat) (view : Option View)
    (eps : List Endpoint) (d : Draws) : Checks (Option Endpoint) :=
  if eps.isEmpty then .done none
  else (panicGate panicThresholdPercent eps view).bind fun
    | true =>
      match scans eps.length d policy with
      | (i :: _) :: iss => .done eps[fewest d.active i (iss.filterMap List.head?)]?
      | _ => .done none
    | false =>
      match view with
      | none => .done none
      | some view => (candidates view eps (scans eps.length d policy)).bind fun
          | [] => .done none
          | i :: js => .done eps[fewest d.active i js]?

inductive Shape
  | leaf
  | subset (subsets : List (List Endpoint)) (fallback : Option (List Endpoint))
  | locality (groups : List (List Endpoint))
  | priority (groups : List (List Endpoint))

structure LoadBalancer where
  endpoints : List Endpoint
  policy : LbPolicy
  panicThresholdPercent : Nat
  shape : Shape

namespace LoadBalancer

variable (lb : LoadBalancer)

def leaf (view : Option View) (eps : List Endpoint) (d : Draws) : Checks (Option Endpoint) :=
  leafPick lb.policy lb.panicThresholdPercent view eps d

def groupCounts : List (List Endpoint) → Checks (List Nat)
  | [] => .done []
  | g :: gs => (availableCount .shared g).bind fun n =>
    (groupCounts gs).bind fun ns => .done (n :: ns)

/-- The drawn group is picked from through the tier view, the flat child through `flatView`. -/
def groupPick (flatView : Option View) (groups : List (List Endpoint)) (d : Draws) :
    Checks (Option Endpoint) :=
  (groupCounts groups).bind fun ns =>
    match d.group ns with
    | none => lb.leaf flatView lb.endpoints d
    | some i => lb.leaf (some .tier) (groups.getD i []) d

def pick (d : Draws) : Checks (Option Endpoint) :=
  match lb.shape with
  | .leaf => lb.leaf (some .shared) lb.endpoints d
  | .subset subsets fallback =>
    match d.subset with
    | some i => lb.leaf (some .shared) (subsets.getD i []) d
    | none =>
      match fallback with
      | none => .done none
      | some eps => lb.leaf (some .shared) eps d
  | .locality groups =>
    (inPanic .shared lb.panicThresholdPercent lb.endpoints).bind fun
      | true => lb.leaf (some .shared) lb.endpoints d
      | false => lb.groupPick (some .shared) groups d
  | .priority groups => lb.groupPick none groups d

end LoadBalancer

end EnvoyGo.Balancers

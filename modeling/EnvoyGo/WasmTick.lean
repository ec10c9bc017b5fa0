import Mathlib.Data.Finset.Card
import Mathlib.Order.Basic

/-!
The tick goroutines of a wasm root VM, `internal/wasm/tick.go`, with `RootVM.Close` of
`root_vm.go`: the two locks `dispatchMu` and `tickMu`, the stop channels and the wait group.
-/

namespace EnvoyGo.WasmTick

variable {H C : Type}

/-- A frame of a hostcall, a tick goroutine by its generation, a caller of `Close`. -/
inductive Thread (H C : Type) where
  | frame (h : H)
  | tick (g : ℕ)
  | closer (c : C)
  deriving DecidableEq

/-- The guest code of a frame that holds `dispatchMu`, or the `SetTickPeriod` it has called. -/
inductive Guest where
  | running
  /-- In front of `tickMu`. -/
  | wantTick (period : ℤ)
  /-- With `tickMu`, before the current stop channel is closed. -/
  | superseding (period : ℤ)
  /-- With `tickMu`, behind that. -/
  | arming (period : ℤ)
  /-- With `tickMu`, and `closed` was not set when it was read. -/
  | spawning (period : ℤ)
  deriving DecidableEq

/-- Where a thread is.  A tick goroutine carries its own stop channel, which is also what its
generation is known by; the guest code of a tick carries it too. -/
inductive Phase where
  | idle
  | wantDispatch
  | guest (stop : Option ℕ) (call : Guest)
  /-- In the `select` of `tickRun`. -/
  | selecting (stop : ℕ)
  /-- At the start of `lockAndDispatchTick`. -/
  | fired (stop : ℕ)
  | wantLock (stop : ℕ)
  /-- With `dispatchMu`, before `closed` is checked again. -/
  | locked (stop : ℕ)
  | wantCompare (stop : ℕ)
  /-- With both locks. -/
  | comparing (stop : ℕ)
  /-- The generation is the current one, and the tick is to be dispatched. -/
  | ready (stop : ℕ)
  /-- In front of `closeOnce`. -/
  | called
  | storing
  | wantStop
  | stopping
  | joining
  | wantClear
  | clearing
  deriving DecidableEq

inductive Mark where
  /-- A `SetTickPeriod` has started this goroutine, or none. -/
  | set (g : Option ℕ)
  | stopClosed (g : ℕ)
  | tick (g : ℕ)
  /-- `Close` has joined the tick goroutines. -/
  | joined
  deriving DecidableEq

/-- `live` says that `instance` is not nil; `stopped` are the closed stop channels.  The log has the
newest mark in front. -/
structure State (H C : Type) where
  dispatchMu : Option (Thread H C) := none
  tickMu : Option (Thread H C) := none
  tickStop : Option ℕ := none
  tickPeriod : ℤ := 0
  tickWG : ℕ := 0
  closed : Bool := false
  live : Bool := true
  once : Option (Thread H C) := none
  onceDone : Bool := false
  gens : ℕ := 0
  stopped : ℕ → Bool := fun _ => false
  phase : Thread H C → Phase := fun _ => .idle
  log : List Mark := []

def tickPeriodFloor : ℤ := 10000000

namespace State

variable [DecidableEq H] [DecidableEq C] (s : State H C) (t : Thread H C)

def moved (p : Phase) : State H C := { s with phase := Function.update s.phase t p }

def closeStop : State H C :=
  match s.tickStop with
  | some g =>
    { s with
      tickStop := none
      stopped := Function.update s.stopped g true
      log := .stopClosed g :: s.log }
  | none => s

def disarm : State H C := { s with tickPeriod := 0, log := .set none :: s.log }

def spawn (period : ℤ) : State H C :=
  { s with
    tickPeriod := if period < tickPeriodFloor then tickPeriodFloor else period
    tickStop := some s.gens
    tickWG := s.tickWG + 1
    gens := s.gens + 1
    phase := Function.update s.phase (.tick s.gens) (.selecting s.gens)
    log := .set (some s.gens) :: s.log }

def unlockTick (stop : Option ℕ) : State H C :=
  { s with tickMu := none }.moved t (.guest stop .running)

def unlockDispatch (p : Phase) : State H C := { s with dispatchMu := none }.moved t p

def back : Option ℕ → Phase
  | some g => .selecting g
  | none => .idle

/-- The next step of the thread, unless it has none or is blocked. -/
def advance : Option (State H C) :=
  match s.phase t with
  | .idle => none
  | .wantDispatch =>
    if s.dispatchMu = none then
      some ({ s with dispatchMu := some t }.moved t (.guest none .running))
    else none
  | .guest stop .running => some (s.unlockDispatch t (back stop))
  | .guest stop (.wantTick period) =>
    if s.tickMu = none then
      some ({ s with tickMu := some t }.moved t (.guest stop (.superseding period)))
    else none
  | .guest stop (.superseding period) =>
    some (s.closeStop.moved t (.guest stop (.arming period)))
  | .guest stop (.arming period) =>
    if period ≤ 0 ∨ s.closed then some (s.unlockTick t stop).disarm
    else some (s.moved t (.guest stop (.spawning period)))
  | .guest stop (.spawning period) => some ((s.unlockTick t stop).spawn period)
  | .selecting stop =>
    if s.stopped stop then some ({ s with tickWG := s.tickWG - 1 }.moved t .idle) else none
  | .fired stop => some (s.moved t (if s.closed then .selecting stop else .wantLock stop))
  | .wantLock stop =>
    if s.dispatchMu = none then some ({ s with dispatchMu := some t }.moved t (.locked stop))
    else none
  | .locked stop =>
    if s.closed ∨ s.live = false then some (s.unlockDispatch t (.selecting stop))
    else some (s.moved t (.wantCompare stop))
  | .wantCompare stop =>
    if s.tickMu = none then some ({ s with tickMu := some t }.moved t (.comparing stop)) else none
  | .comparing stop =>
    let s := { s with tickMu := none }
    if s.tickStop = some stop then some (s.moved t (.ready stop))
    else some (s.unlockDispatch t (.selecting stop))
  | .ready stop =>
    some ({ s with log := .tick stop :: s.log }.moved t (.guest (some stop) .running))
  | .called =>
    if s.onceDone then some (s.moved t .idle)
    else if s.once = none then some ({ s with once := some t }.moved t .storing) else none
  | .storing => some ({ s with closed := true }.moved t .wantStop)
  | .wantStop =>
    if s.tickMu = none then some ({ s with tickMu := some t }.moved t .stopping) else none
  | .stopping =>
    some ({ s.closeStop with tickPeriod := 0, tickMu := none }.moved t .joining)
  | .joining =>
    if s.tickWG = 0 then some ({ s with log := .joined :: s.log }.moved t .wantClear) else none
  | .wantClear =>
    if s.dispatchMu = none then some ({ s with dispatchMu := some t }.moved t .clearing) else none
  | .clearing =>
    some ({ s with live := false, dispatchMu := none, onceDone := true }.moved t .idle)

end State

/-- A thread takes its next step, or something is begun from outside. -/
inductive Event (H C : Type) where
  | advance (t : Thread H C)
  | enter (h : H)
  | setTickPeriod (t : Thread H C) (period : ℤ)
  | timerFires (g : ℕ)
  | close (c : C)
  deriving DecidableEq

variable [DecidableEq H] [DecidableEq C]

def State.next (s : State H C) : Event H C → Option (State H C)
  | .advance t => s.advance t
  | .enter h => if s.phase (.frame h) = .idle then some (s.moved (.frame h) .wantDispatch) else none
  | .setTickPeriod t period =>
    match s.phase t with
    | .guest stop .running => some (s.moved t (.guest stop (.wantTick period)))
    | _ => none
  | .timerFires g =>
    if s.phase (.tick g) = .selecting g then some (s.moved (.tick g) (.fired g)) else none
  | .close c => if s.phase (.closer c) = .idle then some (s.moved (.closer c) .called) else none

/-- The states that some interleaving leads to. -/
inductive Reachable : State H C → Prop
  | init : Reachable {}
  | step {s s' : State H C} (e : Event H C) : Reachable s → s.next e = some s' → Reachable s'

end EnvoyGo.WasmTick

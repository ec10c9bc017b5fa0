import EnvoyGo.Census
import EnvoyGo.Runs

/-!
The registry of shared wasm VMs, `internal/wasm/registry.go`: `AcquireRootVM` and `Release`,
interleaved at their critical sections.
-/

namespace EnvoyGo.WasmRegistry

open Census Runs

variable {K U : Type} [DecidableEq K] [DecidableEq U]

structure RegistryEntry where
  rootVM : Option ℕ := none
  refcount : ℤ := 1
  pending : Bool := true
  deriving DecidableEq

/-- Where a user of the registry is.  A user makes one call of `AcquireRootVM` and, when it has
succeeded, one of `Release`, and may then start over.  Entries and VMs are numbered in the order in
which they are made. -/
inductive Phase (K : Type) where
  | idle
  /-- In front of the lock, at the call or after a wait. -/
  | acquiring (k : K)
  /-- At the channel of an entry, without the lock. -/
  | waiting (k : K) (e : ℕ)
  /-- The factory is running. -/
  | building (k : K) (e : ℕ)
  /-- The factory has returned a VM or an error. -/
  | built (k : K) (e : ℕ) (vm : Option ℕ)
  /-- Behind the lock, in front of `close(pending)`. -/
  | signalling (k : K) (e : ℕ) (vm : Option ℕ)
  | holding (k : K) (vm : Option ℕ)
  /-- The entry is gone and `Close` is to be called. -/
  | closing (vm : ℕ)
  deriving DecidableEq

/-- `signals` and `closes` count how often a channel and a VM were closed. -/
structure State (K U : Type) where
  entries : K → Option ℕ := fun _ => none
  heap : ℕ → RegistryEntry := fun _ => {}
  nextEntry : ℕ := 0
  signals : ℕ → ℕ := fun _ => 0
  vms : ℕ := 0
  closes : ℕ → ℕ := fun _ => 0
  phase : U → Phase K := fun _ => .idle

inductive Event (K U : Type) where
  | acquireRootVM (u : U) (k : K)
  /-- The lock is taken and the map is looked at. -/
  | lookUp (u : U)
  | wake (u : U)
  | factoryReturns (u : U) (ok : Bool)
  /-- The lock is taken and the result is put in its place. -/
  | complete (u : U)
  | closePending (u : U)
  | release (u : U)
  | closeRootVM (u : U)
  deriving DecidableEq

namespace State

variable (s : State K U)

def moved (u : U) (p : Phase K) : State K U := { s with phase := Function.update s.phase u p }

def miss (u : U) (k : K) : State K U :=
  { s with
    entries := Function.update s.entries k (some s.nextEntry)
    heap := Function.update s.heap s.nextEntry {}
    nextEntry := s.nextEntry + 1
    phase := Function.update s.phase u (.building k s.nextEntry) }

def hit (u : U) (k : K) (e : ℕ) : State K U :=
  { s with
    heap := Function.update s.heap e { s.heap e with refcount := (s.heap e).refcount + 1 }
    phase := Function.update s.phase u (.holding k (s.heap e).rootVM) }

def lookUp (u : U) (k : K) : State K U :=
  match s.entries k with
  | none => s.miss u k
  | some e => if (s.heap e).pending then s.moved u (.waiting k e) else s.hit u k e

def factoryReturns (u : U) (k : K) (e : ℕ) : Bool → State K U
  | true => { s with vms := s.vms + 1 }.moved u (.built k e (some s.vms))
  | false => s.moved u (.built k e none)

def withdraw (u : U) (k : K) (e : ℕ) : State K U :=
  { s with
    entries := Function.update s.entries k none
    heap := Function.update s.heap e { s.heap e with pending := false }
    phase := Function.update s.phase u (.signalling k e none) }

def publish (u : U) (k : K) (e vm : ℕ) : State K U :=
  { s with
    heap := Function.update s.heap e { s.heap e with rootVM := some vm, pending := false }
    phase := Function.update s.phase u (.signalling k e (some vm)) }

def complete (u : U) (k : K) (e : ℕ) : Option ℕ → State K U
  | none => s.withdraw u k e
  | some vm => s.publish u k e vm

def closePending (u : U) (k : K) (e : ℕ) (vm : Option ℕ) : State K U :=
  { s with
    signals := Function.update s.signals e (s.signals e + 1)
    phase := Function.update s.phase u (if vm = none then .idle else .holding k vm) }

def decremented (e : ℕ) : ℕ → RegistryEntry :=
  Function.update s.heap e { s.heap e with refcount := (s.heap e).refcount - 1 }

/-- Others still count on the entry. -/
def left (u : U) (e : ℕ) : State K U :=
  { s with heap := s.decremented e, phase := Function.update s.phase u .idle }

def removed (u : U) (k : K) (e : ℕ) : State K U :=
  { s with
    entries := Function.update s.entries k none
    heap := s.decremented e
    phase := Function.update s.phase u
      (match (s.heap e).rootVM with
      | none => .idle
      | some vm => .closing vm) }

def release (u : U) (k : K) : State K U :=
  match s.entries k with
  | none => s.moved u .idle
  | some e => if (s.heap e).refcount - 1 > 0 then s.left u e else s.removed u k e

def closeRootVM (u : U) (vm : ℕ) : State K U :=
  { s with
    closes := Function.update s.closes vm (s.closes vm + 1)
    phase := Function.update s.phase u .idle }

/-- An event whose user is elsewhere does nothing. -/
def step : Event K U → State K U
  | .acquireRootVM u k =>
    match s.phase u with
    | .idle => s.moved u (.acquiring k)
    | _ => s
  | .lookUp u =>
    match s.phase u with
    | .acquiring k => s.lookUp u k
    | _ => s
  | .wake u =>
    match s.phase u with
    | .waiting k e => if s.signals e > 0 then s.moved u (.acquiring k) else s
    | _ => s
  | .factoryReturns u ok =>
    match s.phase u with
    | .building k e => s.factoryReturns u k e ok
    | _ => s
  | .complete u =>
    match s.phase u with
    | .built k e vm => s.complete u k e vm
    | _ => s
  | .closePending u =>
    match s.phase u with
    | .signalling k e vm => s.closePending u k e vm
    | _ => s
  | .release u =>
    match s.phase u with
    | .holding k _ => s.release u k
    | _ => s
  | .closeRootVM u =>
    match s.phase u with
    | .closing vm => s.closeRootVM u vm
    | _ => s

def run (es : List (Event K U)) : State K U := es.foldl step {}

end State

/-- The steps that do something. -/
inductive Takes (s : State K U) : Event K U → State K U → Prop
  | acquire {u k} (hu : s.phase u = .idle) :
      Takes s (.acquireRootVM u k) (s.moved u (.acquiring k))
  | miss {u k} (hu : s.phase u = .acquiring k) (hk : s.entries k = none) :
      Takes s (.lookUp u) (s.miss u k)
  | wait {u k e} (hu : s.phase u = .acquiring k) (hk : s.entries k = some e)
      (hpending : (s.heap e).pending = true) : Takes s (.lookUp u) (s.moved u (.waiting k e))
  | hit {u k e} (hu : s.phase u = .acquiring k) (hk : s.entries k = some e)
      (hpublished : (s.heap e).pending = false) : Takes s (.lookUp u) (s.hit u k e)
  | wake {u k e} (hu : s.phase u = .waiting k e) (hsignal : s.signals e > 0) :
      Takes s (.wake u) (s.moved u (.acquiring k))
  | fails {u k e} (hu : s.phase u = .building k e) :
      Takes s (.factoryReturns u false) (s.factoryReturns u k e false)
  | succeeds {u k e} (hu : s.phase u = .building k e) :
      Takes s (.factoryReturns u true) (s.factoryReturns u k e true)
  | withdraw {u k e} (hu : s.phase u = .built k e none) :
      Takes s (.complete u) (s.withdraw u k e)
  | publish {u k e vm} (hu : s.phase u = .built k e (some vm)) :
      Takes s (.complete u) (s.publish u k e vm)
  | closePending {u k e vm} (hu : s.phase u = .signalling k e vm) :
      Takes s (.closePending u) (s.closePending u k e vm)
  | absent {u k vm} (hu : s.phase u = .holding k vm) (hk : s.entries k = none) :
      Takes s (.release u) (s.moved u .idle)
  | left {u k vm e} (hu : s.phase u = .holding k vm) (hk : s.entries k = some e)
      (hmore : (s.heap e).refcount - 1 > 0) : Takes s (.release u) (s.left u e)
  | removed {u k vm e} (hu : s.phase u = .holding k vm) (hk : s.entries k = some e)
      (hlast : ¬(s.heap e).refcount - 1 > 0) : Takes s (.release u) (s.removed u k e)
  | closeRootVM {u vm} (hu : s.phase u = .closing vm) :
      Takes s (.closeRootVM u) (s.closeRootVM u vm)

theorem lookUp_takes (s : State K U) {u : U} {k : K} (hu : s.phase u = .acquiring k) :
    Takes s (.lookUp u) (s.lookUp u k) := by
  unfold State.lookUp
  cases hk : s.entries k with
  | none => exact .miss hu hk
  | some e =>
    dsimp only
    by_cases hpending : (s.heap e).pending = true
    · rw [if_pos hpending]
      exact .wait hu hk hpending
    · rw [if_neg hpending]
      exact .hit hu hk (Bool.eq_false_iff.mpr hpending)

theorem release_takes (s : State K U) {u : U} {k : K} {vm : Option ℕ}
    (hu : s.phase u = .holding k vm) : Takes s (.release u) (s.release u k) := by
  unfold State.release
  cases hk : s.entries k with
  | none => exact .absent hu hk
  | some e =>
    dsimp only
    by_cases hmore : (s.heap e).refcount - 1 > 0
    · rw [if_pos hmore]
      exact .left hu hk hmore
    · rw [if_neg hmore]
      exact .removed hu hk hmore

theorem step_takes (s : State K U) (ev : Event K U) : s.step ev = s ∨ Takes s ev (s.step ev) := by
  cases ev with
  | acquireRootVM u k =>
    simp only [State.step]
    split
    · next hu => exact .inr (.acquire hu)
    · exact .inl rfl
  | lookUp u =>
    simp only [State.step]
    split
    · next k hu => exact .inr (lookUp_takes s hu)
    · exact .inl rfl
  | wake u =>
    simp only [State.step]
    split
    · next k e hu =>
      split_ifs with hsignal
      · exact .inr (.wake hu hsignal)
      · exact .inl rfl
    · exact .inl rfl
  | factoryReturns u ok =>
    simp only [State.step]
    split
    · next k e hu =>
      cases ok with
      | false => exact .inr (.fails hu)
      | true => exact .inr (.succeeds hu)
    · exact .inl rfl
  | complete u =>
    simp only [State.step]
    split
    · next k e vm hu =>
      cases vm with
      | none => exact .inr (.withdraw hu)
      | some vm => exact .inr (.publish hu)
    · exact .inl rfl
  | closePending u =>
    simp only [State.step]
    split
    · next k e vm hu => exact .inr (.closePending hu)
    · exact .inl rfl
  | release u =>
    simp only [State.step]
    split
    · next k vm hu => exact .inr (release_takes s hu)
    · exact .inl rfl
  | closeRootVM u =>
    simp only [State.step]
    split
    · next vm hu => exact .inr (.closeRootVM hu)
    · exact .inl rfl

end EnvoyGo.WasmRegistry

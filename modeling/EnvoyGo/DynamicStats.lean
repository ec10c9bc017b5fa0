import EnvoyGo.GoText
import EnvoyGo.StatsRegistry

/-!
The metrics a wasm guest defines, `internal/stats/dynamic`: counters and gauges go to the parent
registry under the plugin's scope, histograms stay with the plugin.
-/

namespace EnvoyGo.Stats

inductive GuestType
  | counter
  | gauge
  | histogram
deriving DecidableEq

def GuestType.ofInt : ℤ → Option GuestType
  | 0 => some .counter
  | 1 => some .gauge
  | 2 => some .histogram
  | _ => none

def GuestType.toNat : GuestType → ℕ
  | .counter => 0
  | .gauge => 1
  | .histogram => 2

structure GuestEntry where
  userName : List Char
  metricType : GuestType
deriving DecidableEq

deriving instance DecidableEq for Registry

/-- The identifier of an entry is its position, counted from one. -/
structure GuestRegistry where
  parent : Registry
  pluginScopePrefix : List Char
  maxEntries : ℕ
  entries : List GuestEntry := []
deriving DecidableEq

inductive RegisterError
  | badArgument (text : String)
  | capExceeded (text : String)
  | panicked
deriving DecidableEq

namespace GuestRegistry

def composeFullName (r : GuestRegistry) (userName : List Char) : List Char :=
  r.pluginScopePrefix ++ ".wasmcustom.".toList ++ userName

def namePattern : String := "^[a-zA-Z_]([a-zA-Z0-9_.]*[a-zA-Z0-9_])?$"

def allocate (r : GuestRegistry) (metricType : GuestType) (name : List Char) :
    Except RegisterError (ℕ × GuestRegistry) :=
  let add (parent : Option Registry) : Except RegisterError (ℕ × GuestRegistry) :=
    match parent with
    | none => .error .panicked
    | some parent =>
      .ok (r.entries.length + 1,
        { r with parent := parent, entries := r.entries ++ [⟨name, metricType⟩] })
  match metricType with
  | .counter => add (r.parent.newCounterIfAbsent (r.composeFullName name))
  | .gauge => add (r.parent.newGaugeIfAbsent (r.composeFullName name))
  | .histogram => add (some r.parent)

def register (r : GuestRegistry) (metricType : ℤ) (name : List Char) :
    Except RegisterError (ℕ × GuestRegistry) :=
  match GuestType.ofInt metricType with
  | none =>
    .error (.badArgument ("dynamic: bad argument: invalid MetricType " ++
      String.ofList (Text.formatInt metricType) ++ " (must be 0/1/2 per AMEND-B2)"))
  | some type =>
    if !isValidName name then
      .error (.badArgument ("dynamic: bad argument: invalid metric name " ++
        Text.quote (String.ofList name) ++ " (must match " ++ namePattern ++ ")"))
    else
      match r.entries.zipIdx.find? (fun e => e.1.userName == name) with
      | some (existing, i) =>
        if existing.metricType ≠ type then
          .error (.badArgument ("dynamic: bad argument: metric " ++
            Text.quote (String.ofList name) ++ " already registered with MetricType " ++
            String.ofList (Text.formatInt existing.metricType.toNat) ++
            "; cannot re-register with MetricType " ++
            String.ofList (Text.formatInt type.toNat)))
        else .ok (i + 1, r)
      | none =>
        if r.entries.length ≥ r.maxEntries then
          .error (.capExceeded ("dynamic: registry cap exceeded: " ++
            String.ofList (Text.formatInt r.entries.length) ++ " entries at cap " ++
            String.ofList (Text.formatInt r.maxEntries)))
        else if !isValidName (r.composeFullName name) then
          .error (.badArgument ("dynamic: bad argument: composed full stats name " ++
            Text.quote (String.ofList (r.composeFullName name)) ++
            " is invalid (check pluginScopePrefix)"))
        else r.allocate type name

end GuestRegistry

end EnvoyGo.Stats

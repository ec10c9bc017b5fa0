import Mathlib.Data.List.Nodup

/-!
The registry of metrics, `internal/stats/registry.go`: names of one fixed shape, each registered
at most once, as a counter or as a gauge.
-/

namespace EnvoyGo.Stats

def isNameStart (c : Char) : Bool := c.isAlpha || c == '_'

def isNameBody (c : Char) : Bool := c.isAlphanum || c == '_' || c == '.'

def isValidName : List Char → Bool
  | [] => false
  | c :: cs => isNameStart c && cs.all isNameBody && (c :: cs).getLast? != some '.'

structure Name where
  chars : List Char
  valid : isValidName chars = true
deriving DecidableEq

theorem Name.ext_chars {m n : Name} (h : m.chars = n.chars) : m = n := by
  obtain ⟨m, hm⟩ := m
  obtain ⟨n, hn⟩ := n
  subst h
  rfl

theorem isNameBody_of_start {c : Char} (h : isNameStart c = true) : isNameBody c = true := by
  rw [isNameStart, Bool.or_eq_true] at h
  rw [isNameBody, Bool.or_eq_true, Bool.or_eq_true, Char.isAlphanum, Bool.or_eq_true]
  rcases h with h | h
  · exact Or.inl (Or.inl (Or.inl h))
  · exact Or.inl (Or.inr h)

theorem Name.isNameBody_of_mem (n : Name) {c : Char} (hc : c ∈ n.chars) :
    isNameBody c = true := by
  obtain ⟨chars, hv⟩ := n
  cases chars with
  | nil => exact absurd hc List.not_mem_nil
  | cons a cs =>
    rw [isValidName, Bool.and_eq_true, Bool.and_eq_true] at hv
    obtain ⟨⟨hstart, hbody⟩, -⟩ := hv
    rcases List.mem_cons.mp hc with rfl | hc
    · exact isNameBody_of_start hstart
    · exact List.all_eq_true.mp hbody c hc

theorem Name.notMem (n : Name) {c : Char} (hc : isNameBody c = false) : c ∉ n.chars := by
  intro hmem
  rw [n.isNameBody_of_mem hmem] at hc
  cases hc

inductive MetricType
  | counter
  | gauge
deriving DecidableEq, Repr

inductive Value
  | counter (v : UInt64)
  | gauge (v : Int64)
deriving DecidableEq

def Value.type : Value → MetricType
  | .counter _ => .counter
  | .gauge _ => .gauge

structure Metric where
  name : Name
  value : Value
deriving DecidableEq

def Metric.type (m : Metric) : MetricType := m.value.type

/-- The metrics in the order of registration; `byName` is the list itself. -/
structure Registry where
  metrics : List Metric
  frozen : Bool
  unique : (metrics.map Metric.name).Nodup

namespace Registry

def new : Registry := ⟨[], false, List.nodup_nil⟩

def byName (r : Registry) (n : Name) : Option Metric := r.metrics.find? (fun m => m.name = n)

/-- The append behind every registration. -/
def insert (r : Registry) (m : Metric) (hm : r.byName m.name = none) : Registry where
  metrics := r.metrics ++ [m]
  frozen := r.frozen
  unique := by
    rw [List.map_append, List.nodup_append]
    refine ⟨r.unique, List.nodup_singleton _, ?_⟩
    intro a ha b hb
    obtain ⟨x, hx, rfl⟩ := List.mem_map.mp ha
    rw [List.map_singleton, List.mem_singleton] at hb
    subst hb
    have hne := List.find?_eq_none.mp hm x hx
    simpa only [decide_eq_true_eq] using hne

/-- `register`; `none` is its panic. -/
def register (r : Registry) (name : List Char) (v : Value) : Option Registry :=
  if hv : isValidName name = true then
    if r.frozen then none
    else if hm : r.byName ⟨name, hv⟩ = none then some (r.insert ⟨⟨name, hv⟩, v⟩ hm)
    else none
  else none

def newCounter (r : Registry) (name : List Char) : Option Registry := r.register name (.counter 0)

def newGauge (r : Registry) (name : List Char) : Option Registry := r.register name (.gauge 0)

/-- `getOrRegister` with the type assertion of its callers, allowed after the freeze. -/
def getOrRegister (r : Registry) (name : List Char) (v : Value) : Option Registry :=
  if hv : isValidName name = true then
    match hm : r.byName ⟨name, hv⟩ with
    | some m => if m.type = v.type then some r else none
    | none => some (r.insert ⟨⟨name, hv⟩, v⟩ hm)
  else none

def newCounterIfAbsent (r : Registry) (name : List Char) : Option Registry :=
  r.getOrRegister name (.counter 0)

def newGaugeIfAbsent (r : Registry) (name : List Char) : Option Registry :=
  r.getOrRegister name (.gauge 0)

def freeze (r : Registry) : Registry := { r with frozen := true }

end Registry

end EnvoyGo.Stats

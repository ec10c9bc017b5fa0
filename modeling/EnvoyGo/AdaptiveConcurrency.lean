import EnvoyGo.Runs
import Mathlib.Data.List.Sort
import Mathlib.Data.Int.Basic
import Mathlib.Algebra.Group.Nat.Defs

/-!
The gradient controller of adaptive concurrency: the limit, the min-RTT sampling window and the two
periodic timers.  A timer that expires has its callback started, and the callback runs when it gets
the lock, so that expiry and run are two events.
-/

namespace EnvoyGo.AdaptiveConcurrency

open Runs

/-- `rank n` is the index `int(p * float64(n-1))` of the configured percentile; `rawLimit` is
`uint32(limit*gradient + sqrt(limit*gradient))` for a limit, a min-RTT and a sample RTT.  These two
are the floating-point parts. -/
structure Config where
  minRTTMinConcurrency : ℕ
  maxConcurrencyLimit : ℕ
  minRTTRequestCount : ℕ
  rank : ℕ → ℕ
  rawLimit : ℕ → ℤ → ℤ → ℕ
  minConcurrency_pos : 0 < minRTTMinConcurrency
  requestCount_pos : 0 < minRTTRequestCount

structure Timers where
  pending : List ℕ := []
  started : List ℕ := []

namespace Timers

def afterFunc (t : Timers) (id : ℕ) : Timers := { t with pending := id :: t.pending }

def stop (t : Timers) (id : ℕ) : Timers := { t with pending := t.pending.erase id }

def expire (t : Timers) (id : ℕ) : Timers :=
  if id ∈ t.pending then ⟨t.pending.erase id, id :: t.started⟩ else t

def enter (t : Timers) (id : ℕ) : Timers := { t with started := t.started.erase id }

end Timers

/-- `deferredLimitValue = 0` is outside the min-RTT window. -/
structure Controller where
  concurrencyLimit : ℕ := 0
  latencySamples : List ℤ := []
  minRTTSamples : List ℤ := []
  minRTT : ℤ := 0
  deferredLimitValue : ℕ := 0
  consecutiveMinConcurrencySet : ℕ := 0
  sampleResetTimer : ℕ := 0
  minRTTCalcTimer : ℕ := 0
  nextTimer : ℕ := 0
  sampleTimers : Timers := {}
  minRTTTimers : Timers := {}

section

variable (cfg : Config)

def quantileInPlace (samples : List ℤ) : ℤ :=
  match samples with
  | [] => 0
  | [rtt] => rtt
  | _ => (samples.mergeSort).getD (cfg.rank samples.length) 0

namespace Controller

def armSample (c : Controller) : Controller :=
  { c with
    sampleResetTimer := c.nextTimer
    sampleTimers := c.sampleTimers.afterFunc c.nextTimer
    nextTimer := c.nextTimer + 1 }

def armMinRTT (c : Controller) : Controller :=
  { c with
    minRTTCalcTimer := c.nextTimer
    minRTTTimers := c.minRTTTimers.afterFunc c.nextTimer
    nextTimer := c.nextTimer + 1 }

def enterMinRTTSamplingWindowLocked (c : Controller) : Controller :=
  { c with
    deferredLimitValue :=
      if c.concurrencyLimit = 0 then cfg.minRTTMinConcurrency else c.concurrencyLimit
    concurrencyLimit := cfg.minRTTMinConcurrency
    minRTTSamples := [] }

def updateMinRTTLocked (c : Controller) : Controller :=
  if c.minRTTSamples.length % 2 ^ 32 < cfg.minRTTRequestCount then c
  else
    armSample (armMinRTT
      { c with
        minRTT := quantileInPlace cfg c.minRTTSamples
        minRTTSamples := []
        concurrencyLimit := c.deferredLimitValue
        deferredLimitValue := 0
        consecutiveMinConcurrencySet := 0 })

def recordLatencySample (c : Controller) (rtt : ℤ) : Controller :=
  if c.deferredLimitValue ≠ 0 then
    let c := { c with minRTTSamples := c.minRTTSamples ++ [rtt] }
    if cfg.minRTTRequestCount ≤ c.minRTTSamples.length % 2 ^ 32 then c.updateMinRTTLocked cfg
    else c
  else { c with latencySamples := c.latencySamples ++ [rtt] }

def calculateNewLimitLocked (c : Controller) (sampleRTT : ℤ) : ℕ :=
  let newLimit := cfg.rawLimit c.concurrencyLimit c.minRTT sampleRTT
  let newLimit :=
    if newLimit < cfg.minRTTMinConcurrency then cfg.minRTTMinConcurrency else newLimit
  if newLimit > cfg.maxConcurrencyLimit then cfg.maxConcurrencyLimit else newLimit

def updateConcurrencyLimitLocked (c : Controller) (newLimit : ℕ) : Controller :=
  if newLimit = cfg.minRTTMinConcurrency ∧ c.concurrencyLimit = cfg.minRTTMinConcurrency then
    if 5 ≤ c.consecutiveMinConcurrencySet + 1 ∧ c.deferredLimitValue = 0 then
      armMinRTT
        { c with
          concurrencyLimit := newLimit
          minRTTTimers := c.minRTTTimers.stop c.minRTTCalcTimer
          consecutiveMinConcurrencySet := 0 }
    else
      { c with
        concurrencyLimit := newLimit
        consecutiveMinConcurrencySet := c.consecutiveMinConcurrencySet + 1 }
  else { c with concurrencyLimit := newLimit, consecutiveMinConcurrencySet := 0 }

def concurrencyUpdateTick (c : Controller) : Controller :=
  if c.deferredLimitValue ≠ 0 then c
  else if c.latencySamples = [] then c.armSample
  else
    let sampleRTT := quantileInPlace cfg c.latencySamples
    let c := { c with latencySamples := [] }
    (c.updateConcurrencyLimitLocked cfg (c.calculateNewLimitLocked cfg sampleRTT)).armSample

def updateMinRTTTick (c : Controller) : Controller :=
  if c.deferredLimitValue ≠ 0 then c else c.enterMinRTTSamplingWindowLocked cfg

end Controller

/-- The controller starts in a window, with both timers armed. -/
def newGradientController : Controller :=
  (Controller.enterMinRTTSamplingWindowLocked cfg
    { concurrencyLimit := cfg.minRTTMinConcurrency }).armSample.armMinRTT

inductive Event
  | complete (rtt : ℤ)
  | sampleExpires (id : ℕ)
  | sampleRuns (id : ℕ)
  | minRTTExpires (id : ℕ)
  | minRTTRuns (id : ℕ)
  deriving DecidableEq

def step (c : Controller) : Event → Controller
  | .complete rtt => c.recordLatencySample cfg rtt
  | .sampleExpires id => { c with sampleTimers := c.sampleTimers.expire id }
  | .sampleRuns id =>
    if id ∈ c.sampleTimers.started then
      ({ c with sampleTimers := c.sampleTimers.enter id }).concurrencyUpdateTick cfg
    else c
  | .minRTTExpires id => { c with minRTTTimers := c.minRTTTimers.expire id }
  | .minRTTRuns id =>
    if id ∈ c.minRTTTimers.started then
      ({ c with minRTTTimers := c.minRTTTimers.enter id }).updateMinRTTTick cfg
    else c

def run (es : List Event) : Controller := es.foldl (step cfg) (newGradientController cfg)

/-- A sample that closes the window finds the update timer neither pending nor with its callback
still to run, and no min-RTT timer pending. -/
def Lapsed (c : Controller) : Event → Prop
  | .complete _ =>
    c.deferredLimitValue ≠ 0 →
      cfg.minRTTRequestCount ≤ (c.minRTTSamples.length + 1) % 2 ^ 32 →
        c.sampleTimers.pending = [] ∧ c.sampleTimers.started = [] ∧ c.minRTTTimers.pending = []
  | _ => True

def Controller.Bounded (c : Controller) : Prop :=
  (cfg.minRTTMinConcurrency ≤ c.concurrencyLimit ∧
      c.concurrencyLimit ≤ cfg.maxConcurrencyLimit) ∧
    (c.deferredLimitValue ≠ 0 → cfg.minRTTMinConcurrency ≤ c.deferredLimitValue ∧
      c.deferredLimitValue ≤ cfg.maxConcurrencyLimit)

theorem calculateNewLimitLocked_bounds (hle : cfg.minRTTMinConcurrency ≤ cfg.maxConcurrencyLimit)
    (c : Controller) (sampleRTT : ℤ) :
    cfg.minRTTMinConcurrency ≤ c.calculateNewLimitLocked cfg sampleRTT ∧
      c.calculateNewLimitLocked cfg sampleRTT ≤ cfg.maxConcurrencyLimit := by
  simp only [Controller.calculateNewLimitLocked]
  split_ifs <;> omega

theorem updateConcurrencyLimitLocked_limit (c : Controller) (newLimit : ℕ) :
    (c.updateConcurrencyLimitLocked cfg newLimit).concurrencyLimit = newLimit ∧
      (c.updateConcurrencyLimitLocked cfg newLimit).deferredLimitValue =
        c.deferredLimitValue := by
  simp only [Controller.updateConcurrencyLimitLocked]
  split_ifs
  · exact ⟨rfl, rfl⟩
  · exact ⟨rfl, rfl⟩
  · exact ⟨rfl, rfl⟩

variable {c : Controller}

theorem concurrencyUpdateTick_bounded (hle : cfg.minRTTMinConcurrency ≤ cfg.maxConcurrencyLimit)
    (h : c.Bounded cfg) : (c.concurrencyUpdateTick cfg).Bounded cfg := by
  simp only [Controller.concurrencyUpdateTick]
  split_ifs with hwindow hsamples
  · exact h
  · exact h
  · have hnew := calculateNewLimitLocked_bounds cfg hle { c with latencySamples := [] }
      (quantileInPlace cfg c.latencySamples)
    obtain ⟨hlimit, hdeferred⟩ := updateConcurrencyLimitLocked_limit cfg
      { c with latencySamples := [] }
      (Controller.calculateNewLimitLocked cfg { c with latencySamples := [] }
        (quantileInPlace cfg c.latencySamples))
    refine ⟨?_, ?_⟩
    · rw [Controller.armSample, hlimit]
      exact hnew
    · intro hin
      rw [Controller.armSample, hdeferred] at hin
      exact absurd hin hwindow

theorem enterMinRTTSamplingWindowLocked_bounded
    (hle : cfg.minRTTMinConcurrency ≤ cfg.maxConcurrencyLimit)
    (hlimit : cfg.minRTTMinConcurrency ≤ c.concurrencyLimit ∧
      c.concurrencyLimit ≤ cfg.maxConcurrencyLimit) :
    (c.enterMinRTTSamplingWindowLocked cfg).Bounded cfg := by
  refine ⟨⟨le_refl _, hle⟩, ?_⟩
  intro _
  simp only [Controller.enterMinRTTSamplingWindowLocked]
  split_ifs
  · exact ⟨le_refl _, hle⟩
  · exact hlimit

theorem recordLatencySample_bounded (h : c.Bounded cfg) (rtt : ℤ) :
    (c.recordLatencySample cfg rtt).Bounded cfg := by
  simp only [Controller.recordLatencySample, Controller.updateMinRTTLocked]
  split_ifs with hwindow hfull hshort
  · exact h
  · exact ⟨h.2 hwindow, fun hin => absurd rfl hin⟩
  · exact h
  · exact h

theorem step_bounded (hle : cfg.minRTTMinConcurrency ≤ cfg.maxConcurrencyLimit) (c : Controller)
    (e : Event) (h : c.Bounded cfg) : (step cfg c e).Bounded cfg := by
  cases e with
  | complete rtt => exact recordLatencySample_bounded cfg h rtt
  | sampleExpires id => exact h
  | sampleRuns id =>
    simp only [step]
    split_ifs
    · exact concurrencyUpdateTick_bounded cfg hle h
    · exact h
  | minRTTExpires id => exact h
  | minRTTRuns id =>
    simp only [step, Controller.updateMinRTTTick]
    split_ifs
    · exact h
    · exact enterMinRTTSamplingWindowLocked_bounded cfg hle h.1
    · exact h

theorem newGradientController_bounded
    (hle : cfg.minRTTMinConcurrency ≤ cfg.maxConcurrencyLimit) :
    (newGradientController cfg).Bounded cfg :=
  enterMinRTTSamplingWindowLocked_bounded cfg hle
    (c := { concurrencyLimit := cfg.minRTTMinConcurrency }) ⟨le_refl _, hle⟩

/-- An update timer or its callback is out once at most, and a pending min-RTT timer is the one
whose handle the controller holds. -/
structure Controller.Single (c : Controller) : Prop where
  sample : c.sampleTimers.pending.length + c.sampleTimers.started.length ≤ 1
  minRTT : c.minRTTTimers.pending = [] ∨ c.minRTTTimers.pending = [c.minRTTCalcTimer]

theorem updateConcurrencyLimitLocked_single
    (hmin : c.minRTTTimers.pending = [] ∨ c.minRTTTimers.pending = [c.minRTTCalcTimer])
    (newLimit : ℕ) :
    (c.updateConcurrencyLimitLocked cfg newLimit).sampleTimers = c.sampleTimers ∧
      ((c.updateConcurrencyLimitLocked cfg newLimit).minRTTTimers.pending = [] ∨
        (c.updateConcurrencyLimitLocked cfg newLimit).minRTTTimers.pending =
          [(c.updateConcurrencyLimitLocked cfg newLimit).minRTTCalcTimer]) := by
  simp only [Controller.updateConcurrencyLimitLocked]
  split_ifs
  · refine ⟨rfl, .inr ?_⟩
    -- the handle is stopped first, and it is the only one that can be pending
    have hstopped : c.minRTTTimers.pending.erase c.minRTTCalcTimer = [] := by
      rcases hmin with hnone | hone
      · rw [hnone, List.erase_nil]
      · rw [hone, List.erase_cons_head]
    change c.nextTimer :: c.minRTTTimers.pending.erase c.minRTTCalcTimer = [c.nextTimer]
    rw [hstopped]
  · exact ⟨rfl, hmin⟩
  · exact ⟨rfl, hmin⟩

theorem concurrencyUpdateTick_single
    (hnone : c.sampleTimers.pending.length + c.sampleTimers.started.length = 0)
    (hmin : c.minRTTTimers.pending = [] ∨ c.minRTTTimers.pending = [c.minRTTCalcTimer]) :
    (c.concurrencyUpdateTick cfg).Single := by
  have harmed : (c.sampleTimers.afterFunc c.nextTimer).pending.length +
      (c.sampleTimers.afterFunc c.nextTimer).started.length ≤ 1 := by
    simp only [Timers.afterFunc, List.length_cons]
    omega
  simp only [Controller.concurrencyUpdateTick]
  split_ifs
  · exact ⟨by omega, hmin⟩
  · exact ⟨harmed, hmin⟩
  · obtain ⟨hsame, hmin'⟩ := updateConcurrencyLimitLocked_single cfg
      (c := { c with latencySamples := [] }) hmin
      (Controller.calculateNewLimitLocked cfg { c with latencySamples := [] }
        (quantileInPlace cfg c.latencySamples))
    refine ⟨?_, hmin'⟩
    simp only [Controller.armSample, Timers.afterFunc, List.length_cons]
    rw [hsame]
    change c.sampleTimers.pending.length + 1 + c.sampleTimers.started.length ≤ 1
    omega

theorem Timers.expire_length (t : Timers) (id : ℕ) :
    (t.expire id).pending.length + (t.expire id).started.length =
      t.pending.length + t.started.length := by
  unfold Timers.expire
  split_ifs with hmem
  · have hpos := List.length_pos_of_mem hmem
    simp only [List.length_erase_of_mem hmem, List.length_cons]
    omega
  · rfl

theorem Timers.expire_pending (t : Timers) (id handle : ℕ)
    (h : t.pending = [] ∨ t.pending = [handle]) :
    (t.expire id).pending = [] ∨ (t.expire id).pending = [handle] := by
  unfold Timers.expire
  split_ifs with hmem
  · left
    rcases h with hnone | hone
    · rw [hnone] at hmem
      cases hmem
    · have hid : id = handle := by
        rw [hone] at hmem
        exact List.mem_singleton.mp hmem
      change t.pending.erase id = []
      rw [hone, hid, List.erase_cons_head]
  · exact h

theorem recordLatencySample_single (h : c.Single) (rtt : ℤ)
    (hlapsed : Lapsed cfg c (.complete rtt)) : (c.recordLatencySample cfg rtt).Single := by
  simp only [Controller.recordLatencySample, Controller.updateMinRTTLocked]
  split_ifs with hwindow hfull hshort
  · exact ⟨h.sample, h.minRTT⟩
  · rw [List.length_append, List.length_singleton] at hfull
    obtain ⟨hpending, hstarted, hmin⟩ := hlapsed hwindow hfull
    refine ⟨?_, .inr ?_⟩
    · change ((c.nextTimer + 1) :: c.sampleTimers.pending).length +
        c.sampleTimers.started.length ≤ 1
      rw [hpending, hstarted]
      exact le_refl 1
    · change c.nextTimer :: c.minRTTTimers.pending = [c.nextTimer]
      rw [hmin]
  · exact ⟨h.sample, h.minRTT⟩
  · exact ⟨h.sample, h.minRTT⟩

theorem step_single (c : Controller) (e : Event) (hlapsed : Lapsed cfg c e) (h : c.Single) :
    (step cfg c e).Single := by
  cases e with
  | complete rtt => exact recordLatencySample_single cfg h rtt hlapsed
  | sampleExpires id =>
    refine ⟨?_, h.minRTT⟩
    change (c.sampleTimers.expire id).pending.length +
      (c.sampleTimers.expire id).started.length ≤ 1
    rw [Timers.expire_length]
    exact h.sample
  | sampleRuns id =>
    simp only [step]
    split_ifs with hmem
    · refine concurrencyUpdateTick_single cfg ?_ h.minRTT
      have hpos := List.length_pos_of_mem hmem
      have hone := h.sample
      simp only [Timers.enter, List.length_erase_of_mem hmem]
      omega
    · exact h
  | minRTTExpires id =>
    exact ⟨h.sample, Timers.expire_pending c.minRTTTimers id c.minRTTCalcTimer h.minRTT⟩
  | minRTTRuns id =>
    simp only [step, Controller.updateMinRTTTick]
    split_ifs
    · exact ⟨h.sample, h.minRTT⟩
    · exact ⟨h.sample, h.minRTT⟩
    · exact h

theorem newGradientController_single : (newGradientController cfg).Single :=
  ⟨le_refl 1, .inr rfl⟩

/-- The limit is within the configured bounds in every run just when the minimum is not above the
maximum, and the timers are single in every run whose windows close with the timers lapsed. -/
theorem timers_single :
    ((∀ es, cfg.minRTTMinConcurrency ≤ (run cfg es).concurrencyLimit ∧
        (run cfg es).concurrencyLimit ≤ cfg.maxConcurrencyLimit) ↔
      cfg.minRTTMinConcurrency ≤ cfg.maxConcurrencyLimit) ∧
    ∀ es, StepsMeet (step cfg) (Lapsed cfg) (newGradientController cfg) es →
      (run cfg es).sampleTimers.pending.length ≤ 1 ∧
        (run cfg es).minRTTTimers.pending.length ≤ 1 := by
  refine ⟨⟨?_, ?_⟩, ?_⟩
  · intro h
    exact (h []).2
  · intro hle es
    have hrun : (run cfg es).Bounded cfg := invariant_of_run (step_bounded cfg hle) es _
      (newGradientController_bounded cfg hle)
    exact hrun.1
  · intro es hes
    have hrun : (run cfg es).Single := invariant_of_steps (step_single cfg) es _
      (newGradientController_single cfg) hes
    refine ⟨?_, ?_⟩
    · have hsample := hrun.sample
      omega
    · rcases hrun.minRTT with hnone | hone
      · rw [hnone]
        exact Nat.zero_le 1
      · rw [hone]
        exact le_refl 1

end

/-- One sample fills a window. -/
def single : Config where
  minRTTMinConcurrency := 3
  maxConcurrencyLimit := 1000
  minRTTRequestCount := 1
  rank n := n - 1
  rawLimit limit _ _ := limit
  minConcurrency_pos := by decide
  requestCount_pos := by decide

/-- Both timers run out in the first window. -/
def slowStart : List Event :=
  [.sampleExpires 0, .sampleRuns 0, .minRTTExpires 1, .minRTTRuns 1, .complete 5]

theorem timers_single_slowStart :
    StepsMeet (step single) (Lapsed single) (newGradientController single) slowStart ∧
      (run single slowStart).sampleTimers.pending.length ≤ 1 ∧
        (run single slowStart).minRTTTimers.pending.length ≤ 1 := by
  have hmeets :
      StepsMeet (step single) (Lapsed single) (newGradientController single) slowStart := by
    refine ⟨trivial, trivial, trivial, trivial, ?_, trivial⟩
    intro _ _
    decide
  exact ⟨hmeets, (timers_single single).2 slowStart hmeets⟩

/-- A first window that fills before the timers of the construction run out leaves two of each. -/
theorem not_timers_single :
    ¬ ∀ (cfg : Config) (es : List Event),
      (run cfg es).sampleTimers.pending.length ≤ 1 ∧
        (run cfg es).minRTTTimers.pending.length ≤ 1 := by
  intro h
  have htwo : (run single [.complete 5]).sampleTimers.pending.length = 2 := by decide
  have hone := (h single [.complete 5]).1
  omega

end EnvoyGo.AdaptiveConcurrency

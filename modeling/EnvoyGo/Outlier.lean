import EnvoyGo.ClusterHealth
import Mathlib.Data.Finset.Basic
import Mathlib.Logic.Function.Basic
import Mathlib.Tactic.SplitIfs
import Mathlib.Algebra.Group.Nat.Defs

/-!
Outlier detection on the hosts of a cluster, with its calls one at a time: the availability checks
and their lazy un-ejection, the eject decision, the consecutive detectors and the sweep.
-/

namespace EnvoyGo.Outlier

open ClusterHealth

/-- The parsed `outlier_detection`; durations are in nanoseconds. -/
structure OutlierConfig where
  consec5xxEnabled : Bool := true
  consecutive5xx : UInt32 := 5
  baseEjectionTime : Int := 30000000000
  maxEjectionPct : Nat := 10
  enforcing5xx : Nat := 100
  consecGwEnabled : Bool := true
  consecutiveGw : UInt32 := 5
  enforcingGw : Nat := 0
  splitLocalOrigin : Bool := false
  consecLOEnabled : Bool := true
  consecutiveLO : UInt32 := 5
  enforcingLO : Nat := 100
  successRateMinHosts : Nat := 5
  successRateReqVolume : UInt64 := 100
  successRateStdevFactor : Nat := 1900
  enforcingSuccessRate : Nat := 100
  failurePctThreshold : UInt64 := 85
  failurePctMinHosts : Nat := 5
  failurePctReqVolume : UInt64 := 50
  enforcingFailurePct : Nat := 0

inductive Detector
  | consecutive5xx
  | consecutiveGateway
  | consecutiveLocalOrigin
  | successRate
  | failurePercentage
  deriving DecidableEq

inductive Stat
  | ejectionsEnforcedTotal
  | ejectionsOverflow
  | ejectionsDetected (d : Detector)
  | ejectionsEnforced (d : Detector)
  deriving DecidableEq

structure HostWindow where
  addr : String
  total : UInt64
  success : UInt64

/-- What the detector takes from outside, call by call: the readings of the clock and the enforce
rolls.  `below` is the floating-point comparison of `evalSuccessRate` on the eligible rows. -/
structure Env where
  clock : Nat → Int
  rolls : Nat → Nat
  below : Nat → List HostWindow → HostWindow → Bool

/-- `ejections` is bookkeeping of the model: how many endpoints are ejected right after each
successful ejection. -/
structure World where
  states : States
  ejectionsActive : Int := 0
  counters : Stat → Nat := fun _ => 0
  readings : Nat := 0
  rolled : Nat := 0
  ejections : List Nat := []

def isFlagged (st : States) (a : String) : Bool := (st a).any HostHealth.ejected

def ejectedEndpoints (st : States) (eps : List Endpoint) : Nat :=
  eps.countP fun ep => isFlagged st ep.addr

def flaggedAddrs (st : States) (eps : List Endpoint) : Finset String :=
  (eps.map Endpoint.addr).toFinset.filter fun a => isFlagged st a = true

namespace World

def modifyHost (w : World) (a : String) (f : HostHealth → HostHealth) : World :=
  { w with states := Function.update w.states a ((w.states a).map f) }

def inc (w : World) (c : Stat) : World :=
  { w with counters := Function.update w.counters c (w.counters c + 1) }

def addActive (w : World) (d : Int) : World := { w with ejectionsActive := w.ejectionsActive + d }

end World

def World.read (w : World) : World := { w with readings := w.readings + 1 }

def deadlinePassed (w : World) (a : String) (now : Int) : Bool :=
  (w.states a).any fun h => decide (h.unejectAtNanos ≤ now)

/-- The flag is cleared; `wired` says whether the view of the registry has the gauge. -/
def uneject (wired : Bool) (w : World) (a : String) : World :=
  let w := w.modifyHost a fun h => { h with ejected := false }
  if wired then w.addActive (-1) else w

/-- `isEjected` through a view of the registry.  The clock is read for a flagged host only. -/
def isEjected (env : Env) (wired : Bool) (w : World) (ep : Endpoint) : Bool × World :=
  if isFlagged w.states ep.addr then
    if deadlinePassed w ep.addr (env.clock w.readings) then
      (false, uneject wired w.read ep.addr)
    else (true, w.read)
  else (false, w)

/-- `available`: an unhealthy host is not asked for its ejection. -/
def available (env : Env) (wired : Bool) (w : World) (ep : Endpoint) : Bool × World :=
  match w.states ep.addr with
  | none => (true, w)
  | some h =>
    if h.healthy then
      let r := isEjected env wired w ep
      (!r.1, r.2)
    else (false, w)

def ejectedCount (env : Env) (w : World) : List Endpoint → Nat × World
  | [] => (0, w)
  | ep :: eps =>
    let r := isEjected env true w ep
    let n := ejectedCount env r.2 eps
    (n.1 + r.1.toNat, n.2)

def enforceRoll (env : Env) (w : World) (enforcing : Nat) : Bool × World :=
  if 100 ≤ enforcing then (true, w)
  else if enforcing = 0 then (false, w)
  else (decide (env.rolls w.rolled % 100 < enforcing), { w with rolled := w.rolled + 1 })

def eject (env : Env) (cfg : OutlierConfig) (eps : List Endpoint) (w : World) (a : String)
    (d : Detector) : World :=
  let deadline := (env.clock w.readings + cfg.baseEjectionTime).bmod (2 ^ 64)
  let w := w.read.modifyHost a fun h => { h with ejected := true, unejectAtNanos := deadline }
  let w := ((w.addActive 1).inc .ejectionsEnforcedTotal).inc (.ejectionsEnforced d)
  { w with ejections := w.ejections ++ [ejectedEndpoints w.states eps] }

def tryEject (env : Env) (cfg : OutlierConfig) (eps : List Endpoint) (w : World) (a : String)
    (enforcing : Nat) (d : Detector) : Bool × World :=
  if isFlagged w.states a then (false, w)
  else
    let r := enforceRoll env w enforcing
    if r.1 then
      let n := ejectedCount env r.2 eps
      if eps.length = 0 ∨ cfg.maxEjectionPct * eps.length < (n.1 + 1) * 100 then
        (false, n.2.inc .ejectionsOverflow)
      else (true, eject env cfg eps n.2 a d)
    else (false, r.2)

def bumpStreak (env : Env) (cfg : OutlierConfig) (eps : List Endpoint) (w : World) (a : String)
    (get : HostHealth → UInt32) (set : HostHealth → UInt32 → HostHealth) (enabled : Bool)
    (threshold : UInt32) (d : Detector) (enforcing : Nat) : Bool × World :=
  if enabled then
    let w := w.modifyHost a fun h => set h (get h + 1)
    if (w.states a).any fun h => decide (get h < threshold) then (false, w)
    else tryEject env cfg eps (w.inc (.ejectionsDetected d)) a enforcing d
  else (false, w)

def bumpGateway (env : Env) (cfg : OutlierConfig) (eps : List Endpoint) (w : World) (a : String) :
    Bool × World :=
  bumpStreak env cfg eps w a HostHealth.consecGw (fun h n => { h with consecGw := n })
    cfg.consecGwEnabled cfg.consecutiveGw .consecutiveGateway cfg.enforcingGw

def bump5xx (env : Env) (cfg : OutlierConfig) (eps : List Endpoint) (w : World) (a : String) :
    Bool × World :=
  bumpStreak env cfg eps w a HostHealth.consec5xx (fun h n => { h with consec5xx := n })
    cfg.consec5xxEnabled cfg.consecutive5xx .consecutive5xx cfg.enforcing5xx

def bumpLocalOrigin (env : Env) (cfg : OutlierConfig) (eps : List Endpoint) (w : World)
    (a : String) : Bool × World :=
  bumpStreak env cfg eps w a HostHealth.consecLO (fun h n => { h with consecLO := n })
    cfg.consecLOEnabled cfg.consecutiveLO .consecutiveLocalOrigin cfg.enforcingLO

def recordExternal5xx (env : Env) (cfg : OutlierConfig) (eps : List Endpoint) (w : World)
    (a : String) (statusCode : Int) : World :=
  if statusCode = 502 ∨ statusCode = 503 ∨ statusCode = 504 then
    let r := bumpGateway env cfg eps w a
    if r.1 then r.2 else (bump5xx env cfg eps r.2 a).2
  else (bump5xx env cfg eps (w.modifyHost a fun h => { h with consecGw := 0 }) a).2

def recordLocalOrigin (env : Env) (cfg : OutlierConfig) (eps : List Endpoint) (w : World)
    (a : String) (statusCode : Int) : World :=
  if cfg.splitLocalOrigin then (bumpLocalOrigin env cfg eps w a).2
  else recordExternal5xx env cfg eps w a statusCode

def countRequest (w : World) (a : String) (success : Bool) : World :=
  let w := w.modifyHost a fun h => { h with intervalTotal := h.intervalTotal + 1 }
  if success then w.modifyHost a fun h => { h with intervalSuccess := h.intervalSuccess + 1 }
  else w

def resetLocalOrigin (cfg : OutlierConfig) (w : World) (a : String) : World :=
  if cfg.splitLocalOrigin then w.modifyHost a fun h => { h with consecLO := 0 } else w

def record (env : Env) (cfg : OutlierConfig) (eps : List Endpoint) (w : World) (ep : Endpoint)
    (statusCode : Int) (localOriginErr : Bool) : World :=
  match w.states ep.addr with
  | none => w
  | some _ =>
    let not5xx := decide (statusCode < 500 ∨ 600 ≤ statusCode)
    let w := countRequest (isEjected env true w ep).2 ep.addr (!localOriginErr && not5xx)
    if localOriginErr then recordLocalOrigin env cfg eps w ep.addr statusCode
    else
      let w := resetLocalOrigin cfg w ep.addr
      if not5xx then w.modifyHost ep.addr fun h => { h with consec5xx := 0, consecGw := 0 }
      else recordExternal5xx env cfg eps w ep.addr statusCode

/-- Snapshot and reset of every endpoint's window. -/
def snapshot (env : Env) (w : World) : List Endpoint → List HostWindow × World
  | [] => ([], w)
  | ep :: eps =>
    match w.states ep.addr with
    | none => snapshot env w eps
    | some _ =>
      let w := (isEjected env true w ep).2
      let rows := match w.states ep.addr with
        | none => []
        | some h => [⟨ep.addr, h.intervalTotal, h.intervalSuccess⟩]
      let w := w.modifyHost ep.addr fun h => { h with intervalTotal := 0, intervalSuccess := 0 }
      let r := snapshot env w eps
      (rows ++ r.1, r.2)

def ejectRows (env : Env) (cfg : OutlierConfig) (eps : List Endpoint) (enforcing : Nat)
    (d : Detector) (outlier : HostWindow → Bool) (w : World) (rows : List HostWindow) : World :=
  rows.foldl (fun w row =>
    if outlier row then
      (tryEject env cfg eps (w.inc (.ejectionsDetected d)) row.addr enforcing d).2
    else w) w

/-- The rows with traffic, and enough of it. -/
def eligible (volume : UInt64) (snap : List HostWindow) : List HostWindow :=
  snap.filter fun row => row.total != 0 && decide (volume ≤ row.total)

def evalSuccessRate (env : Env) (cfg : OutlierConfig) (eps : List Endpoint) (w : World)
    (snap : List HostWindow) : World :=
  let rows := eligible cfg.successRateReqVolume snap
  if rows.length < cfg.successRateMinHosts then w
  else ejectRows env cfg eps cfg.enforcingSuccessRate .successRate
    (env.below cfg.successRateStdevFactor rows) w rows

/-- `(total - success) * 100 >= threshold * total`, in unsigned 64-bit arithmetic. -/
def failurePercentageReached (cfg : OutlierConfig) (row : HostWindow) : Bool :=
  decide (cfg.failurePctThreshold * row.total ≤ (row.total - row.success) * 100)

def evalFailurePercentage (env : Env) (cfg : OutlierConfig) (eps : List Endpoint) (w : World)
    (snap : List HostWindow) : World :=
  let rows := eligible cfg.failurePctReqVolume snap
  if rows.length < cfg.failurePctMinHosts then w
  else ejectRows env cfg eps cfg.enforcingFailurePct .failurePercentage
    (failurePercentageReached cfg) w rows

def sweep (env : Env) (cfg : OutlierConfig) (eps : List Endpoint) (w : World) : World :=
  let r := snapshot env w eps
  evalFailurePercentage env cfg eps (evalSuccessRate env cfg eps r.2 r.1) r.1

theorem isFlagged_newStates (eps : List Endpoint) (a : String) :
    isFlagged (newStates eps) a = false := by
  unfold isFlagged newStates
  split_ifs <;> rfl

theorem isFlagged_modifyHost (w : World) (a b : String) (f : HostHealth → HostHealth) :
    isFlagged (w.modifyHost a f).states b =
      if b = a then (w.states a).any fun h => (f h).ejected else isFlagged w.states b := by
  simp only [isFlagged, World.modifyHost, Function.update_apply]
  split_ifs with hb
  · cases w.states a <;> rfl
  · rfl

theorem isFlagged_modifyHost_same (w : World) (a : String) {f : HostHealth → HostHealth}
    (hf : ∀ h, (f h).ejected = h.ejected) (b : String) :
    isFlagged (w.modifyHost a f).states b = isFlagged w.states b := by
  rw [isFlagged_modifyHost]
  split_ifs with hb
  · rw [hb]
    simp only [hf, isFlagged]
  · rfl

theorem isFlagged_uneject (wired : Bool) (w : World) (a b : String) :
    isFlagged (uneject wired w a).states b = if b = a then false else isFlagged w.states b := by
  have hclear : isFlagged (w.modifyHost a fun h => { h with ejected := false }).states b =
      if b = a then false else isFlagged w.states b := by
    rw [isFlagged_modifyHost]
    refine if_congr Iff.rfl ?_ rfl
    cases w.states a <;> rfl
  cases wired
  · exact hclear
  · exact hclear

theorem isEjected_cases (env : Env) (wired : Bool) (w : World) (ep : Endpoint) :
    isFlagged w.states ep.addr = false ∧ isEjected env wired w ep = (false, w) ∨
    isFlagged w.states ep.addr = true ∧
      deadlinePassed w ep.addr (env.clock w.readings) = true ∧
      isEjected env wired w ep = (false, uneject wired w.read ep.addr) ∨
    isFlagged w.states ep.addr = true ∧
      deadlinePassed w ep.addr (env.clock w.readings) = false ∧
      isEjected env wired w ep = (true, w.read) := by
  unfold isEjected
  cases hflag : isFlagged w.states ep.addr with
  | false => exact .inl ⟨rfl, if_neg (by simp)⟩
  | true =>
    cases hpast : deadlinePassed w ep.addr (env.clock w.readings) with
    | true => exact .inr (.inl ⟨rfl, rfl, by simp⟩)
    | false => exact .inr (.inr ⟨rfl, rfl, by simp⟩)

theorem isFlagged_of_isEjected {env : Env} {w : World} {ep : Endpoint} {a : String}
    (h : isFlagged (isEjected env true w ep).2.states a = true) : isFlagged w.states a = true := by
  obtain ⟨-, he⟩ | ⟨-, -, he⟩ | ⟨-, -, he⟩ := isEjected_cases env true w ep
  · rwa [he] at h
  · rw [he, isFlagged_uneject] at h
    split_ifs at h
    exact h
  · rwa [he] at h

theorem isFlagged_of_ejectedCount {env : Env} {eps : List Endpoint} {w : World} {a : String}
    (h : isFlagged (ejectedCount env w eps).2.states a = true) : isFlagged w.states a = true := by
  induction eps generalizing w with
  | nil => exact h
  | cons ep eps ih => exact isFlagged_of_isEjected (ih h)

theorem isFlagged_eject (env : Env) (cfg : OutlierConfig) (eps : List Endpoint) (w : World)
    (a b : String) (d : Detector) (ha : (w.states a).isSome = true) :
    isFlagged (eject env cfg eps w a d).states b = (decide (b = a) || isFlagged w.states b) := by
  obtain ⟨h, hh⟩ := Option.isSome_iff_exists.mp ha
  have hset : isFlagged (eject env cfg eps w a d).states b =
      if b = a then (w.states a).any fun _ => true else isFlagged w.states b :=
    isFlagged_modifyHost w.read a b _
  rw [hset, hh]
  by_cases hb : b = a
  · simp [hb]
  · simp [hb]

theorem isSome_modifyHost (w : World) (a b : String) (f : HostHealth → HostHealth) :
    ((w.modifyHost a f).states b).isSome = (w.states b).isSome := by
  simp only [World.modifyHost, Function.update_apply]
  split_ifs with hb
  · rw [hb, Option.isSome_map]
  · rfl

theorem isSome_isEjected (env : Env) (wired : Bool) (w : World) (ep : Endpoint) (b : String) :
    ((isEjected env wired w ep).2.states b).isSome = (w.states b).isSome := by
  obtain ⟨-, he⟩ | ⟨-, -, he⟩ | ⟨-, -, he⟩ := isEjected_cases env wired w ep
  · rw [he]
  · rw [he]
    cases wired
    · exact isSome_modifyHost w.read ep.addr b _
    · exact isSome_modifyHost w.read ep.addr b _
  · rw [he]
    rfl

theorem isSome_ejectedCount (env : Env) (eps : List Endpoint) (w : World) (b : String) :
    ((ejectedCount env w eps).2.states b).isSome = (w.states b).isSome := by
  induction eps generalizing w with
  | nil => rfl
  | cons ep eps ih => exact (ih _).trans (isSome_isEjected env true w ep b)

theorem states_enforceRoll (env : Env) (w : World) (enforcing : Nat) :
    (enforceRoll env w enforcing).2.states = w.states := by
  unfold enforceRoll
  split_ifs <;> rfl

theorem tryEject_cases (env : Env) (cfg : OutlierConfig) (eps : List Endpoint) (w : World)
    (a : String) (enforcing : Nat) (d : Detector) :
    (tryEject env cfg eps w a enforcing d = (false, w) ∨
      tryEject env cfg eps w a enforcing d = (false, (enforceRoll env w enforcing).2)) ∨
    tryEject env cfg eps w a enforcing d =
      (false, (ejectedCount env (enforceRoll env w enforcing).2 eps).2.inc .ejectionsOverflow) ∨
    isFlagged w.states a = false ∧
      ((ejectedCount env (enforceRoll env w enforcing).2 eps).1 + 1) * 100 ≤
        cfg.maxEjectionPct * eps.length ∧
      tryEject env cfg eps w a enforcing d =
        (true, eject env cfg eps (ejectedCount env (enforceRoll env w enforcing).2 eps).2 a d) := by
  unfold tryEject
  dsimp only
  split
  · exact .inl (.inl rfl)
  · next hflag =>
      split
      · split
        · exact .inr (.inl rfl)
        · next hcap =>
            have hroom := (not_or.mp hcap).2
            exact .inr (.inr ⟨by simpa using hflag, Nat.le_of_not_lt hroom, rfl⟩)
      · exact .inl (.inr rfl)

theorem isSome_tryEject (env : Env) (cfg : OutlierConfig) (eps : List Endpoint) (w : World)
    (a : String) (enforcing : Nat) (d : Detector) (b : String) :
    ((tryEject env cfg eps w a enforcing d).2.states b).isSome = (w.states b).isSome := by
  have hcount : ((ejectedCount env (enforceRoll env w enforcing).2 eps).2.states b).isSome =
      (w.states b).isSome := by
    rw [isSome_ejectedCount, states_enforceRoll]
  obtain (he | he) | he | ⟨-, -, he⟩ := tryEject_cases env cfg eps w a enforcing d
  · rw [he]
  · rw [he, states_enforceRoll]
  · rw [he]
    exact hcount
  · rw [he]
    exact (isSome_modifyHost (World.read _) a b _).trans hcount

structure Preserved (env : Env) (cfg : OutlierConfig) (eps : List Endpoint)
    (P : World → Prop) : Prop where
  known : ∀ {w a}, P w → (w.states a).isSome = true → a ∈ eps.map Endpoint.addr
  modify : ∀ {w} a {f}, P w → (∀ h : HostHealth, (f h).ejected = h.ejected) →
    P (w.modifyHost a f)
  inc : ∀ {w} c, P w → P (w.inc c)
  check : ∀ {w} ep, P w → P (isEjected env true w ep).2
  tryEject : ∀ {w a} n d, P w → a ∈ eps.map Endpoint.addr →
    P (tryEject env cfg eps w a n d).2

namespace Preserved

variable {env : Env} {cfg : OutlierConfig} {eps : List Endpoint} {P : World → Prop} {w : World}
  {a : String}

variable (hP : Preserved env cfg eps P) (h : P w)

include hP h

theorem bumpStreak (ha : a ∈ eps.map Endpoint.addr) {get : HostHealth → UInt32}
    {set : HostHealth → UInt32 → HostHealth} (hset : ∀ h n, (set h n).ejected = h.ejected)
    (enabled : Bool) (threshold : UInt32) (d : Detector) (enforcing : Nat) :
    P (bumpStreak env cfg eps w a get set enabled threshold d enforcing).2 := by
  have hbump : P (w.modifyHost a fun h => set h (get h + 1)) := hP.modify a h fun _ => hset _ _
  unfold Outlier.bumpStreak
  split_ifs
  · dsimp only
    split
    · exact hbump
    · exact hP.tryEject enforcing d (hP.inc _ hbump) ha
  · exact h

theorem recordExternal5xx (ha : a ∈ eps.map Endpoint.addr) (statusCode : Int) :
    P (recordExternal5xx env cfg eps w a statusCode) := by
  have h5xx : ∀ v, P v → P (bump5xx env cfg eps v a).2 := by
    intro v hv
    apply hP.bumpStreak hv ha
    exact fun _ _ => rfl
  unfold Outlier.recordExternal5xx
  dsimp only
  split
  · have hgw : P (bumpGateway env cfg eps w a).2 := by
      apply hP.bumpStreak h ha
      exact fun _ _ => rfl
    split
    · exact hgw
    · exact h5xx _ hgw
  · exact h5xx _ (hP.modify a h fun _ => rfl)

theorem recordLocalOrigin (ha : a ∈ eps.map Endpoint.addr) (statusCode : Int) :
    P (recordLocalOrigin env cfg eps w a statusCode) := by
  unfold Outlier.recordLocalOrigin
  split_ifs
  · apply hP.bumpStreak h ha
    exact fun _ _ => rfl
  · exact hP.recordExternal5xx h ha statusCode

theorem countRequest (success : Bool) : P (countRequest w a success) := by
  have htotal : P (w.modifyHost a fun h => { h with intervalTotal := h.intervalTotal + 1 }) :=
    hP.modify a h fun _ => rfl
  unfold Outlier.countRequest
  dsimp only
  split
  · exact hP.modify a htotal fun _ => rfl
  · exact htotal

theorem resetLocalOrigin : P (resetLocalOrigin cfg w a) := by
  unfold Outlier.resetLocalOrigin
  split_ifs
  · exact hP.modify a h fun _ => rfl
  · exact h

theorem record (ep : Endpoint) (statusCode : Int) (localOriginErr : Bool) :
    P (record env cfg eps w ep statusCode localOriginErr) := by
  unfold Outlier.record
  cases hhost : w.states ep.addr with
  | none => exact h
  | some _ =>
    have ha : ep.addr ∈ eps.map Endpoint.addr := hP.known h (by rw [hhost]; rfl)
    have hcount := fun ok => hP.countRequest (a := ep.addr) (hP.check ep h) ok
    dsimp only
    split
    · exact hP.recordLocalOrigin (hcount _) ha statusCode
    · split
      · exact hP.modify _ (hP.resetLocalOrigin (hcount _)) fun _ => rfl
      · exact hP.recordExternal5xx (hP.resetLocalOrigin (hcount _)) ha statusCode

theorem snapshot (l : List Endpoint) (hl : ∀ ep ∈ l, ep ∈ eps) : P (snapshot env w l).2 ∧
      ∀ row ∈ (snapshot env w l).1, row.addr ∈ eps.map Endpoint.addr := by
  induction l generalizing w with
  | nil => exact ⟨h, fun row hrow => by cases hrow⟩
  | cons ep l ih =>
    have htail : ∀ e ∈ l, e ∈ eps := fun e he => hl e (List.mem_cons_of_mem ep he)
    unfold Outlier.snapshot
    split
    · exact ih h htail
    · have hreset := ih (hP.modify ep.addr
        (f := fun h => { h with intervalTotal := 0, intervalSuccess := 0 }) (hP.check ep h)
        fun _ => rfl) htail
      refine ⟨hreset.1, ?_⟩
      intro row hrow
      rcases List.mem_append.mp hrow with hrow | hrow
      · split at hrow
        · cases hrow
        · rw [List.mem_singleton.mp hrow]
          exact List.mem_map_of_mem (hl ep List.mem_cons_self)
      · exact hreset.2 row hrow

theorem ejectRows (enforcing : Nat) (d : Detector) (outlier : HostWindow → Bool)
    (rows : List HostWindow) (hrows : ∀ row ∈ rows, row.addr ∈ eps.map Endpoint.addr) :
    P (ejectRows env cfg eps enforcing d outlier w rows) := by
  unfold Outlier.ejectRows
  induction rows generalizing w with
  | nil => exact h
  | cons row rows ih =>
    rw [List.foldl_cons]
    apply ih
    · split_ifs
      · exact hP.tryEject _ _ (hP.inc _ h) (hrows row List.mem_cons_self)
      · exact h
    · exact fun r hr => hrows r (List.mem_cons_of_mem row hr)

theorem sweep : P (sweep env cfg eps w) := by
  obtain ⟨hsnap, hrows⟩ := hP.snapshot h eps fun _ he => he
  have heligible : ∀ volume, ∀ row ∈ eligible volume (Outlier.snapshot env w eps).1,
      row.addr ∈ eps.map Endpoint.addr := fun _ row hrow => hrows row (List.mem_filter.mp hrow).1
  have hrate : P (evalSuccessRate env cfg eps (Outlier.snapshot env w eps).2
      (Outlier.snapshot env w eps).1) := by
    unfold evalSuccessRate
    dsimp only
    split
    · exact hsnap
    · exact hP.ejectRows hsnap _ _ _ _ (heligible _)
  unfold Outlier.sweep evalFailurePercentage
  dsimp only
  split
  · exact hrate
  · exact hP.ejectRows hrate _ _ _ _ (heligible _)

end Preserved

end EnvoyGo.Outlier

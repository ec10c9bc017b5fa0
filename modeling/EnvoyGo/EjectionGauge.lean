import EnvoyGo.Balancers
import EnvoyGo.Outlier
import EnvoyGo.Runs
import Mathlib.Data.Finset.Card

/-!
`outlier_detection.ejections_active` against the ejected hosts, in runs of requests, sweeps and
picks.  An availability check un-ejects a host whose time is over, and which gauge it tells depends
on the view it goes through.
-/

namespace EnvoyGo.Outlier

open ClusterHealth Balancers Runs

structure Cluster where
  world : World
  picks : Nat → Checks (Option Endpoint) := fun _ => .done none

/-- `record` and `sweep` run to their end; a pick goes check by check. -/
inductive Event
  | record (ep : Endpoint) (statusCode : Int) (localOriginErr : Bool)
  | sweep
  | pick (i : Nat) (d : Draws)
  | check (i : Nat)

section Machine

variable (env : Env) (cfg : OutlierConfig) (lb : LoadBalancer)

/-- The next check of a pick; a tier view has no gauge. -/
def check (s : Cluster) (i : Nat) : Cluster :=
  match s.picks i with
  | .done _ => s
  | .ask view ep k =>
    let r := available env (view == .shared) s.world ep
    { world := r.2, picks := Function.update s.picks i (k r.1) }

def step (s : Cluster) : Event → Cluster
  | .record ep statusCode localOriginErr =>
    { s with world := record env cfg lb.endpoints s.world ep statusCode localOriginErr }
  | .sweep => { s with world := sweep env cfg lb.endpoints s.world }
  | .pick i d => { s with picks := Function.update s.picks i (lb.pick d) }
  | .check i => check env s i

def initial : Cluster := { world := { states := newStates lb.endpoints } }

end Machine

/-- The gauge counts the hosts whose flag is set. -/
def GaugeExact (eps : List Endpoint) (w : World) : Prop :=
  w.ejectionsActive = (flaggedAddrs w.states eps).card

/-- A check through the tier view does not come upon a healthy host that is flagged and whose
deadline has passed. -/
def TierChecksFresh (env : Env) (s : Cluster) : Event → Prop
  | .check i =>
    match s.picks i with
    | .ask .tier ep _ =>
      ¬ ((s.world.states ep.addr).any HostHealth.healthy = true ∧
        isFlagged s.world.states ep.addr = true ∧
        deadlinePassed s.world ep.addr (env.clock s.world.readings) = true)
    | _ => True
  | _ => True

def HostsKnown (eps : List Endpoint) (w : World) : Prop :=
  ∀ a, (w.states a).isSome = true ↔ a ∈ eps.map Endpoint.addr

section Worlds

variable {env : Env} {cfg : OutlierConfig} {eps : List Endpoint} {w : World}

theorem mem_flaggedAddrs {a : String} :
    a ∈ flaggedAddrs w.states eps ↔ a ∈ eps.map Endpoint.addr ∧ isFlagged w.states a = true := by
  simp [flaggedAddrs, Finset.mem_filter]

theorem HostsKnown.of_isSome {v : World} (h : HostsKnown eps w)
    (hv : ∀ a, (v.states a).isSome = (w.states a).isSome) : HostsKnown eps v := by
  intro a
  rw [hv]
  exact h a

theorem known_of_isFlagged (h : HostsKnown eps w) {a : String}
    (ha : isFlagged w.states a = true) : a ∈ eps.map Endpoint.addr := by
  apply (h a).mp
  unfold isFlagged at ha
  cases hhost : w.states a with
  | none =>
    rw [hhost] at ha
    cases ha
  | some _ => rfl

theorem flaggedAddrs_of_same {v : World}
    (hv : ∀ a, isFlagged v.states a = isFlagged w.states a) :
    flaggedAddrs v.states eps = flaggedAddrs w.states eps := by
  unfold flaggedAddrs
  simp only [hv]

theorem gaugeExact_of_same {v : World} (h : GaugeExact eps w)
    (hv : ∀ a, isFlagged v.states a = isFlagged w.states a)
    (hg : v.ejectionsActive = w.ejectionsActive) : GaugeExact eps v := by
  unfold GaugeExact at h ⊢
  rw [hg, flaggedAddrs_of_same hv, h]

theorem flaggedAddrs_uneject (wired : Bool) (a : String) :
    flaggedAddrs (uneject wired w.read a).states eps = (flaggedAddrs w.states eps).erase a := by
  ext b
  rw [Finset.mem_erase, mem_flaggedAddrs, mem_flaggedAddrs, isFlagged_uneject]
  by_cases hb : b = a
  · simp [hb]
  · simp only [hb, if_false, ne_eq, not_false_eq_true, true_and]
    exact Iff.rfl

section

variable (h : GaugeExact eps w) (hknown : HostsKnown eps w)

include h hknown

theorem gaugeExact_uneject {a : String} (ha : isFlagged w.states a = true) (wired : Bool) :
    GaugeExact eps (uneject wired w.read a) ↔ wired = true := by
  have hmem : a ∈ flaggedAddrs w.states eps :=
    mem_flaggedAddrs.mpr ⟨known_of_isFlagged hknown ha, ha⟩
  have hcard := Finset.card_erase_add_one hmem
  unfold GaugeExact at h ⊢
  rw [flaggedAddrs_uneject]
  cases wired with
  | true =>
    refine iff_of_true ?_ rfl
    change w.ejectionsActive + -1 = _
    omega
  | false =>
    refine iff_of_false ?_ (by simp)
    change ¬ w.ejectionsActive = _
    omega

theorem gaugeExact_isEjected (ep : Endpoint) : GaugeExact eps (isEjected env true w ep).2 := by
  obtain ⟨-, he⟩ | ⟨hflag, -, he⟩ | ⟨-, -, he⟩ := isEjected_cases env true w ep
  · rw [he]
    exact h
  · rw [he]
    exact (gaugeExact_uneject h hknown hflag true).mpr rfl
  · rw [he]
    exact gaugeExact_of_same h (fun _ => rfl) rfl

theorem gaugeExact_available (wired : Bool) (ep : Endpoint) :
    GaugeExact eps (available env wired w ep).2 ↔
      (wired = true ∨ ¬ ((w.states ep.addr).any HostHealth.healthy = true ∧
        isFlagged w.states ep.addr = true ∧
        deadlinePassed w ep.addr (env.clock w.readings) = true)) := by
  cases hhost : w.states ep.addr with
  | none =>
    refine iff_of_true ?_ (.inr (by simp))
    simpa only [available, hhost] using h
  | some host =>
    cases hhealthy : host.healthy with
    | false =>
      refine iff_of_true ?_ (.inr (by simp [hhealthy]))
      simpa [available, hhost, hhealthy] using h
    | true =>
      have hcheck : (available env wired w ep).2 = (isEjected env wired w ep).2 := by
        simp [available, hhost, hhealthy]
      rw [hcheck]
      obtain ⟨hflag, he⟩ | ⟨hflag, hpast, he⟩ | ⟨hflag, hpast, he⟩ :=
        isEjected_cases env wired w ep
      · refine iff_of_true ?_ (.inr (by simp [hflag]))
        rw [he]
        exact h
      · rw [he]
        refine (gaugeExact_uneject h hknown hflag wired).trans ?_
        simp [hhealthy, hflag, hpast]
      · refine iff_of_true ?_ (.inr (by simp [hpast]))
        rw [he]
        exact gaugeExact_of_same h (fun _ => rfl) rfl

theorem gaugeExact_ejectedCount (l : List Endpoint) : GaugeExact eps (ejectedCount env w l).2 := by
  induction l generalizing w with
  | nil => exact h
  | cons ep l ih =>
    exact ih (gaugeExact_isEjected h hknown ep)
      (hknown.of_isSome fun a => isSome_isEjected env true w ep a)

theorem gaugeExact_eject {a : String} (ha : a ∈ eps.map Endpoint.addr)
    (hflag : isFlagged w.states a = false) (d : Detector) :
    GaugeExact eps (eject env cfg eps w a d) := by
  have hset : flaggedAddrs (eject env cfg eps w a d).states eps =
      insert a (flaggedAddrs w.states eps) := by
    ext b
    rw [Finset.mem_insert, mem_flaggedAddrs, mem_flaggedAddrs,
      isFlagged_eject env cfg eps w a b d ((hknown a).mpr ha)]
    by_cases hb : b = a
    · simp [hb, List.mem_map.mp ha]
    · simp [hb]
  have hnew : a ∉ flaggedAddrs w.states eps := by
    intro hmem
    rw [mem_flaggedAddrs, hflag] at hmem
    cases hmem.2
  unfold GaugeExact at h ⊢
  rw [hset, Finset.card_insert_of_notMem hnew]
  change w.ejectionsActive + 1 = _
  omega

end

theorem gaugeExact_enforceRoll (h : GaugeExact eps w) (enforcing : Nat) :
    GaugeExact eps (enforceRoll env w enforcing).2 := by
  unfold enforceRoll
  split_ifs
  · exact h
  · exact h
  · exact gaugeExact_of_same h (fun _ => rfl) rfl

theorem gaugeExact_tryEject (h : GaugeExact eps w) (hknown : HostsKnown eps w) {a : String}
    (ha : a ∈ eps.map Endpoint.addr) (enforcing : Nat) (d : Detector) :
    GaugeExact eps (tryEject env cfg eps w a enforcing d).2 := by
  have hroll : GaugeExact eps (enforceRoll env w enforcing).2 :=
    gaugeExact_enforceRoll h enforcing
  have hrolled : HostsKnown eps (enforceRoll env w enforcing).2 :=
    hknown.of_isSome fun b => by rw [states_enforceRoll]
  have hcount : GaugeExact eps (ejectedCount env (enforceRoll env w enforcing).2 eps).2 :=
    gaugeExact_ejectedCount hroll hrolled eps
  have hcounted : HostsKnown eps (ejectedCount env (enforceRoll env w enforcing).2 eps).2 :=
    hrolled.of_isSome fun b => isSome_ejectedCount env eps _ b
  obtain (he | he) | he | ⟨hflag, -, he⟩ := tryEject_cases env cfg eps w a enforcing d
  · rw [he]
    exact h
  · rw [he]
    exact hroll
  · rw [he]
    exact gaugeExact_of_same hcount (fun _ => rfl) rfl
  · rw [he]
    apply gaugeExact_eject hcount hcounted ha
    rw [Bool.eq_false_iff]
    intro hset
    have hold := isFlagged_of_ejectedCount hset
    rw [states_enforceRoll, hflag] at hold
    cases hold

theorem preserved_gaugeExact :
    Preserved env cfg eps fun w => GaugeExact eps w ∧ HostsKnown eps w where
  known h ha := (h.2 _).mp ha
  modify := by
    intro w a f h hf
    exact ⟨gaugeExact_of_same h.1 (isFlagged_modifyHost_same w a hf) rfl,
      h.2.of_isSome fun b => isSome_modifyHost w a b f⟩
  inc _ h := ⟨gaugeExact_of_same h.1 (fun _ => rfl) rfl, h.2⟩
  check ep h := ⟨gaugeExact_isEjected h.1 h.2 ep,
    h.2.of_isSome fun b => isSome_isEjected env true _ ep b⟩
  tryEject n d h ha := ⟨gaugeExact_tryEject h.1 h.2 ha n d,
    h.2.of_isSome fun b => isSome_tryEject env cfg eps _ _ n d b⟩

theorem isSome_available (wired : Bool) (ep : Endpoint) (b : String) :
    ((available env wired w ep).2.states b).isSome = (w.states b).isSome := by
  unfold available
  split
  · rfl
  · split_ifs
    · exact isSome_isEjected env wired w ep b
    · rfl

theorem preserved_hostsKnown : Preserved env cfg eps (HostsKnown eps) where
  known h ha := (h _).mp ha
  modify := by
    intro w a f h _
    exact h.of_isSome fun b => isSome_modifyHost w a b f
  inc _ h := h
  check ep h := h.of_isSome fun b => isSome_isEjected env true _ ep b
  tryEject n d h _ := h.of_isSome fun b => isSome_tryEject env cfg eps _ _ n d b

theorem hostsKnown_step {lb : LoadBalancer} (s : Cluster) (e : Event)
    (h : HostsKnown lb.endpoints s.world) :
    HostsKnown lb.endpoints (step env cfg lb s e).world := by
  have hP : Preserved env cfg lb.endpoints (HostsKnown lb.endpoints) := preserved_hostsKnown
  cases e with
  | record ep statusCode localOriginErr => exact hP.record h ep statusCode localOriginErr
  | sweep => exact hP.sweep h
  | pick i d => exact h
  | check i =>
    simp only [step, check]
    cases s.picks i with
    | done r => exact h
    | ask view ep k => exact h.of_isSome fun b => isSome_available _ ep b

theorem gaugeExact_step {lb : LoadBalancer} {s : Cluster}
    (h : GaugeExact lb.endpoints s.world ∧ HostsKnown lb.endpoints s.world) (e : Event) :
    (GaugeExact lb.endpoints (step env cfg lb s e).world ∧
      HostsKnown lb.endpoints (step env cfg lb s e).world) ↔ TierChecksFresh env s e := by
  have hP : Preserved env cfg lb.endpoints fun w =>
      GaugeExact lb.endpoints w ∧ HostsKnown lb.endpoints w := preserved_gaugeExact
  cases e with
  | record ep statusCode localOriginErr =>
    exact iff_of_true (hP.record h ep statusCode localOriginErr) trivial
  | sweep => exact iff_of_true (hP.sweep h) trivial
  | pick i d => exact iff_of_true h trivial
  | check i =>
    simp only [step, check, TierChecksFresh]
    cases hpick : s.picks i with
    | done r => exact iff_of_true h trivial
    | ask view ep k =>
      have hknown : HostsKnown lb.endpoints (available env (view == .shared) s.world ep).2 :=
        h.2.of_isSome fun b => isSome_available _ ep b
      refine (and_iff_left hknown).trans ((gaugeExact_available h.1 h.2 _ ep).trans ?_)
      cases view with
      | shared => exact iff_of_true (.inl rfl) trivial
      | tier => exact or_iff_right (by decide)

end Worlds

theorem hostsKnown_initial (lb : LoadBalancer) : HostsKnown lb.endpoints (initial lb).world := by
  intro a
  simp [initial, newStates]

theorem gaugeExact_initial (lb : LoadBalancer) : GaugeExact lb.endpoints (initial lb).world := by
  have hnone : flaggedAddrs (newStates lb.endpoints) lb.endpoints = ∅ := by
    apply Finset.filter_eq_empty_iff.mpr
    intro a _
    rw [isFlagged_newStates]
    simp
  unfold GaugeExact
  change (0 : Int) = ((flaggedAddrs (newStates lb.endpoints) lb.endpoints).card : Int)
  rw [hnone]
  rfl

/-- The gauge is exact in every state of a run, through whatever shape the picks go, exactly if no
check of the run through a tier view finds a healthy host whose ejection is over. -/
theorem gaugeExact_iff (env : Env) (cfg : OutlierConfig) (lb : LoadBalancer) (es : List Event) :
    (∀ pre, pre <+: es → GaugeExact lb.endpoints (pre.foldl (step env cfg lb) (initial lb)).world) ↔
      StepsMeet (step env cfg lb) (TierChecksFresh env) (initial lb) es := by
  have hknown : ∀ pre : List Event,
      HostsKnown lb.endpoints (pre.foldl (step env cfg lb) (initial lb)).world := by
    have hstep : ∀ (s : Cluster) (e : Event), HostsKnown lb.endpoints s.world →
        HostsKnown lb.endpoints (step env cfg lb s e).world := hostsKnown_step
    intro pre
    exact invariant_of_run hstep pre _ (hostsKnown_initial lb)
  have hstep : ∀ (s : Cluster) (e : Event),
      (GaugeExact lb.endpoints s.world ∧ HostsKnown lb.endpoints s.world) →
      ((GaugeExact lb.endpoints (step env cfg lb s e).world ∧
        HostsKnown lb.endpoints (step env cfg lb s e).world) ↔ TierChecksFresh env s e) :=
    fun s e h => gaugeExact_step h e
  have hiff := throughout_iff_stepsMeet hstep es (initial lb)
    ⟨gaugeExact_initial lb, hostsKnown_initial lb⟩
  refine Iff.trans ⟨?_, ?_⟩ hiff
  · exact fun h pre hpre => ⟨h pre hpre, hknown pre⟩
  · exact fun h pre hpre => (h pre hpre).1

/-- A locality-weighted cluster of one locality. -/
def oneLocality : LoadBalancer where
  endpoints := [⟨"a"⟩, ⟨"b"⟩]
  policy := .roundRobin
  panicThresholdPercent := 50
  shape := .locality [[⟨"a"⟩, ⟨"b"⟩]]

/-- The deadline of an ejection at the first reading passes between the third and the fourth. -/
def passing : Env where
  clock n := if n = 0 then 0 else if n < 3 then 5 else 10
  rolls _ := 0
  below _ _ _ := false

def ejectsOnce : OutlierConfig where
  consecutive5xx := 1
  baseEjectionTime := 10
  maxEjectionPct := 50

/-- The wrapper's own checks see the host ejected; then its time is over, and the child un-ejects it
through the tier view. -/
theorem not_gaugeExact : ¬ GaugeExact oneLocality.endpoints
    ([.record ⟨"a"⟩ 500 false,
      .pick 0 { value := fun n => n, active := fun _ => 0, group := fun _ => some 0,
                subset := none },
      .check 0, .check 0, .check 0, .check 0, .check 0].foldl
        (step passing ejectsOnce oneLocality) (initial oneLocality)).world := by
  unfold GaugeExact
  decide +kernel

end EnvoyGo.Outlier

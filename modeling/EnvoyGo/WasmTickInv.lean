import EnvoyGo.Mutexes
import EnvoyGo.WasmTick

/-!
What every state of the tick goroutines satisfies.
-/

namespace EnvoyGo.WasmTick

open Mutexes

variable {H C : Type}

namespace Phase

def holdsDispatch : Phase → Bool
  | .guest _ _ => true
  | .locked _ => true
  | .wantCompare _ => true
  | .comparing _ => true
  | .ready _ => true
  | .clearing => true
  | _ => false

def holdsTick : Phase → Bool
  | .guest _ (.superseding _) => true
  | .guest _ (.arming _) => true
  | .guest _ (.spawning _) => true
  | .comparing _ => true
  | .stopping => true
  | _ => false

def runner : Phase → Bool
  | .storing => true
  | .wantStop => true
  | .stopping => true
  | .joining => true
  | .wantClear => true
  | .clearing => true
  | _ => false

def pastStore : Phase → Bool
  | .storing => false
  | p => p.runner

def spawns : Phase → Bool
  | .guest _ (.spawning _) => true
  | _ => false

def swept : Phase → Bool
  | .joining => true
  | .wantClear => true
  | .clearing => true
  | _ => false

def pastStop : Phase → Bool
  | .guest _ (.arming _) => true
  | .guest _ (.spawning _) => true
  | p => p.swept

def pastJoin : Phase → Bool
  | .wantClear => true
  | .clearing => true
  | _ => false

variable {p : Phase}

theorem swept_of_pastJoin (h : p.pastJoin = true) : p.swept = true := by
  cases p with
  | wantClear => rfl
  | clearing => rfl
  | _ => cases h

theorem pastStore_of_swept (h : p.swept = true) : p.pastStore = true := by
  cases p with
  | joining => rfl
  | wantClear => rfl
  | clearing => rfl
  | _ => cases h

theorem pastStop_cases (h : p.pastStop = true) : p.holdsTick = true ∨ p.swept = true := by
  cases p with
  | guest stop call =>
    cases call with
    | arming period => exact .inl rfl
    | spawning period => exact .inl rfl
    | _ => cases h
  | joining => exact .inr rfl
  | wantClear => exact .inr rfl
  | clearing => exact .inr rfl
  | _ => cases h

theorem swept_of_not_pastStop (h : p.pastStop = false) : p.swept = false := by
  cases p with
  | joining => cases h
  | wantClear => cases h
  | clearing => cases h
  | _ => rfl

theorem spawns_of_not_pastStop (h : p.pastStop = false) : p.spawns = false := by
  cases p with
  | guest stop call =>
    cases call with
    | spawning period => cases h
    | _ => rfl
  | _ => rfl

theorem holdsTick_of_spawns (h : p.spawns = true) : p.holdsTick = true := by
  cases p with
  | guest stop call =>
    cases call with
    | spawning period => rfl
    | _ => cases h
  | _ => cases h

theorem swept_of_spawns (h : p.spawns = true) : p.swept = false := by
  cases p with
  | guest stop call => rfl
  | _ => cases h

/-- The stop channel that the thread has of its own. -/
def token : Phase → Option ℕ
  | .guest stop _ => stop
  | .selecting stop => some stop
  | .fired stop => some stop
  | .wantLock stop => some stop
  | .locked stop => some stop
  | .wantCompare stop => some stop
  | .comparing stop => some stop
  | .ready stop => some stop
  | _ => none

end Phase

def KindOk (gens : ℕ) (t : Thread H C) (p : Phase) : Prop :=
  (∀ g, p.token = some g → t = .tick g ∧ g < gens) ∧
    ∀ g, t = .tick g → p = .idle ∨ p.token = some g

section Kind

variable {gens : ℕ} {t : Thread H C} {p q : Phase}

theorem KindOk.idle (gens : ℕ) (t : Thread H C) : KindOk gens t .idle :=
  ⟨(fun _ h => by cases h), fun _ _ => .inl rfl⟩

theorem KindOk.keep (h : KindOk gens t p) (hp : p ≠ .idle) (hq : q.token = p.token) :
    KindOk gens t q := by
  constructor
  · intro g hg
    exact h.1 g (hq.symm.trans hg)
  · intro g hg
    exact .inr (hq.trans ((h.2 g hg).resolve_left hp))

theorem KindOk.mono {gens' : ℕ} (h : KindOk gens t p) (hle : gens ≤ gens') : KindOk gens' t p :=
  ⟨fun g hg => ⟨(h.1 g hg).1, Nat.lt_of_lt_of_le (h.1 g hg).2 hle⟩, h.2⟩

end Kind

/-- The goroutine that the latest `SetTickPeriod` has started, if it has started one. -/
def latest : List Mark → Option ℕ
  | [] => none
  | .set g :: _ => g
  | _ :: earlier => latest earlier

/-- Every tick is of the latest goroutine, and comes before the goroutines were joined. -/
def TicksOk (log : List Mark) : Prop :=
  ∀ later g earlier, log = later ++ .tick g :: earlier →
    latest earlier = some g ∧ .joined ∉ earlier

theorem TicksOk.cons {log : List Mark} {m : Mark} (h : TicksOk log)
    (hm : ∀ g, m = .tick g → latest log = some g ∧ .joined ∉ log) : TicksOk (m :: log) := by
  intro later g earlier heq
  cases later with
  | nil =>
    obtain ⟨rfl, rfl⟩ := List.cons.inj heq
    exact hm g rfl
  | cons m' later => exact h later g earlier (List.cons.inj heq).2

structure StopsOk (s : State H C) : Prop where
  current : ∀ g, s.tickStop = some g → g < s.gens ∧ latest s.log = some g
  stopped : ∀ g, s.stopped g = true ↔ g < s.gens ∧ s.tickStop ≠ some g
  closings : ∀ g, s.log.count (.stopClosed g) = if s.stopped g then 1 else 0
  ticks : TicksOk s.log

def State.running (s : State H C) : Finset ℕ :=
  (Finset.range s.gens).filter fun g => s.phase (.tick g) ≠ .idle

def ShutOk (s : State H C) (p : Phase) : Prop :=
  (p.pastStore = true → s.closed = true) ∧ (p.pastStop = true → s.tickStop = none) ∧
    (p.pastJoin = true → s.tickWG = 0)

structure Inv (s : State H C) : Prop where
  kind : ∀ t, KindOk s.gens t (s.phase t)
  dispatchMu : Guards Phase.holdsDispatch s.dispatchMu s.phase
  tickMu : Guards Phase.holdsTick s.tickMu s.phase
  once : ∀ t, (s.phase t).runner = true → s.once = some t
  runner : ∀ t, s.once = some t → s.onceDone = true ∨ (s.phase t).runner = true
  shut : ∀ t, ShutOk s (s.phase t)
  sweep : ∀ t, (s.phase t).spawns = true → s.onceDone = false ∧ ∀ u, (s.phase u).swept = false
  finished : s.onceDone = true → s.closed = true ∧ s.tickStop = none ∧ s.tickWG = 0
  stops : StopsOk s
  ready : ∀ t g, s.phase t = .ready g → latest s.log = some g
  count : s.tickWG = s.running.card
  joined : .joined ∈ s.log → s.onceDone = true ∨ ∃ t, (s.phase t).pastJoin = true

theorem Inv.init : Inv ({} : State H C) where
  kind t := KindOk.idle 0 t
  dispatchMu t := iff_of_false (fun h => by cases h) (fun h => by cases h)
  tickMu t := iff_of_false (fun h => by cases h) (fun h => by cases h)
  once _ h := by cases h
  runner _ h := by cases h
  shut _ := ⟨(fun h => by cases h), (fun h => by cases h), (fun h => by cases h)⟩
  sweep _ h := by cases h
  finished h := by cases h
  stops :=
    { current := fun _ h => by cases h
      stopped := fun g => iff_of_false (fun h => by cases h) (fun h => Nat.not_lt_zero g h.1)
      closings := fun _ => rfl
      ticks := fun later _ _ h => by cases later <;> cases h }
  ready _ _ h := by cases h
  count := rfl
  joined h := by cases h

section Moves

variable [DecidableEq H] [DecidableEq C] {s : State H C} {t : Thread H C} {q : Phase}

theorem running_update (s s' : State H C) (hgens : s'.gens = s.gens)
    (hphase : s'.phase = Function.update s.phase t q)
    (hq : ∀ g, t = .tick g → (q = .idle ↔ s.phase t = .idle)) : s'.running = s.running := by
  unfold State.running
  rw [hgens, hphase]
  refine Finset.filter_congr fun g _ => not_congr ?_
  by_cases hg : Thread.tick g = t
  · rw [hg, Function.update_self]
    exact hq g hg.symm
  · rw [Function.update_of_ne hg]

theorem forall_update {R : Thread H C → Phase → Prop} (ht : R t q) (h : ∀ u, R u (s.phase u))
    (u : Thread H C) : R u (Function.update s.phase t q u) := by
  by_cases hu : u = t
  · rw [hu, Function.update_self]
    exact ht
  · rw [Function.update_of_ne hu]
    exact h u

def OnceOk (s : State H C) (t : Thread H C) (q : Phase) (o : Option (Thread H C)) : Prop :=
  o = s.once ∧ (q.runner = (s.phase t).runner ∨ q.runner = false ∧ s.onceDone = true) ∨
    s.once = none ∧ o = some t ∧ q.runner = true

theorem Inv.once_update (h : Inv s) {o : Option (Thread H C)} (honce : OnceOk s t q o)
    (u : Thread H C) (hu : (Function.update s.phase t q u).runner = true) : o = some u := by
  rcases honce with ⟨rfl, hrunner⟩ | ⟨hfree, rfl, -⟩
  · refine forall_update (R := fun u p => p.runner = true → s.once = some u) (fun hq => ?_) h.once
      u hu
    rcases hrunner with hsame | ⟨hno, -⟩
    · exact h.once t (hsame.symm.trans hq)
    · rw [hno] at hq
      cases hq
  · refine forall_update (R := fun u p => p.runner = true → some t = some u) (fun _ => rfl)
      (fun u hu => ?_) u hu
    have hsome := h.once u hu
    rw [hfree] at hsome
    cases hsome

theorem Inv.runner_update (h : Inv s) {o : Option (Thread H C)} (honce : OnceOk s t q o)
    (u : Thread H C) (hu : o = some u) :
    s.onceDone = true ∨ (Function.update s.phase t q u).runner = true := by
  rcases honce with ⟨rfl, hrunner⟩ | ⟨-, ho, hq⟩
  · rcases hrunner with hsame | ⟨-, hdone⟩
    · refine (h.runner u hu).imp_right fun hrun => ?_
      exact forall_update (R := fun v p => (s.phase v).runner = true → p.runner = true)
        (fun ht => hsame.trans ht) (fun _ hv => hv) u hrun
    · exact .inl hdone
  · rw [ho] at hu
    rw [← Option.some.inj hu, Function.update_self]
    exact .inr hq

/-- No goroutine is started behind the closing of the current channel in `Close`. -/
def SweepOk (s : State H C) (t : Thread H C) (q : Phase) : Prop :=
  (q.spawns = true → s.onceDone = false ∧ ∀ u, (s.phase u).swept = false) ∧
    (q.swept = true → (s.phase t).swept = true ∨ ∀ u, (s.phase u).spawns = false)

omit [DecidableEq H] [DecidableEq C] in
theorem SweepOk.of_false (hspawns : q.spawns = false) (hswept : q.swept = false) :
    SweepOk s t q := by
  refine ⟨fun h => ?_, fun h => ?_⟩
  · rw [hspawns] at h
    cases h
  · rw [hswept] at h
    cases h

theorem Inv.sweep_update (h : Inv s) (hsweep : SweepOk s t q) (u : Thread H C)
    (hu : (Function.update s.phase t q u).spawns = true) :
    s.onceDone = false ∧ ∀ v, (Function.update s.phase t q v).swept = false := by
  by_cases hut : u = t
  · rw [hut, Function.update_self] at hu
    obtain ⟨hdone, hnone⟩ := hsweep.1 hu
    refine ⟨hdone, ?_⟩
    exact forall_update (R := fun _ p => p.swept = false) (Phase.swept_of_spawns hu) hnone
  · rw [Function.update_of_ne hut] at hu
    obtain ⟨hdone, hnone⟩ := h.sweep u hu
    refine ⟨hdone, forall_update (R := fun _ p => p.swept = false) ?_ hnone⟩
    rw [← Bool.not_eq_true]
    intro hq
    rcases hsweep.2 hq with hbefore | hno
    · rw [hnone t] at hbefore
      cases hbefore
    · rw [hno u] at hu
      cases hu

theorem Inv.move (h : Inv s) {d m o : Option (Thread H C)} (hkind : KindOk s.gens t q)
    (hd : Guards Phase.holdsDispatch d (Function.update s.phase t q))
    (hm : Guards Phase.holdsTick m (Function.update s.phase t q)) (honce : OnceOk s t q o)
    (hshut : ShutOk s q) (hsweep : SweepOk s t q)
    (hready : ∀ g, q = .ready g → latest s.log = some g)
    (hidle : ∀ g, t = .tick g → (q = .idle ↔ s.phase t = .idle))
    (hjoin : (s.phase t).pastJoin = true → s.onceDone = true ∨ q.pastJoin = true) :
    Inv ({ s with dispatchMu := d, tickMu := m, once := o }.moved t q) where
  kind := forall_update hkind h.kind
  dispatchMu := hd
  tickMu := hm
  once := h.once_update honce
  runner := h.runner_update honce
  shut := forall_update (R := fun _ p => ShutOk s p) hshut h.shut
  sweep := h.sweep_update hsweep
  finished := h.finished
  stops := ⟨h.stops.current, h.stops.stopped, h.stops.closings, h.stops.ticks⟩
  ready := forall_update (R := fun _ p => ∀ g, p = .ready g → latest s.log = some g) hready h.ready
  count := h.count.trans (congrArg Finset.card (running_update s _ (by rfl) (by rfl) hidle).symm)
  joined hlog := by
    rcases h.joined hlog with hdone | ⟨u, hu⟩
    · exact .inl hdone
    · rcases forall_update (R := fun v p => (s.phase v).pastJoin = true →
          s.onceDone = true ∨ p.pastJoin = true) hjoin (fun _ hv => .inr hv) u hu with hdone | hp
      · exact .inl hdone
      · exact .inr ⟨u, hp⟩

omit [DecidableEq H] [DecidableEq C] in
theorem ShutOk.of_false {p : Phase} (hstore : p.pastStore = false) (hstop : p.pastStop = false)
    (hjoin : p.pastJoin = false) : ShutOk s p := by
  refine ⟨fun h => ?_, fun h => ?_, fun h => ?_⟩
  · rw [hstore] at h
    cases h
  · rw [hstop] at h
    cases h
  · rw [hjoin] at h
    cases h

end Moves

section Effects

variable {s : State H C} {t : Thread H C}

theorem closeStop_tickStop (s : State H C) : s.closeStop.tickStop = none := by
  unfold State.closeStop
  cases h : s.tickStop with
  | none => exact h
  | some g => rfl

theorem closeStop_phase (s : State H C) : s.closeStop.phase = s.phase := by
  unfold State.closeStop
  cases s.tickStop <;> rfl

theorem StopsOk.closeStop (h : StopsOk s) : StopsOk s.closeStop := by
  unfold State.closeStop
  cases hstop : s.tickStop with
  | none => exact h
  | some g =>
    obtain ⟨hg, hlatest⟩ := h.current g hstop
    have hopen : s.stopped g = false := by
      rw [← Bool.not_eq_true, h.stopped g]
      exact fun hor => hor.2 hstop
    refine ⟨(fun g' hg' => by cases hg'), fun g' => ?_, fun g' => ?_, h.ticks.cons ?_⟩
    · dsimp only
      by_cases hgg : g' = g
      · rw [hgg, Function.update_self]
        exact iff_of_true rfl ⟨hg, (fun heq => by cases heq)⟩
      · rw [Function.update_of_ne hgg, h.stopped g', hstop]
        refine and_congr_right fun _ => iff_of_true ?_ (fun heq => by cases heq)
        exact fun heq => hgg (Option.some.inj heq).symm
    · change List.count (.stopClosed g') (.stopClosed g :: s.log) =
        if Function.update s.stopped g true g' then 1 else 0
      by_cases hgg : g' = g
      · have hzero := h.closings g
        rw [hopen] at hzero
        rw [hgg, Function.update_self, List.count_cons_self, hzero]
        rfl
      · rw [Function.update_of_ne hgg, List.count_cons_of_ne, h.closings g']
        exact fun heq => hgg (Mark.stopClosed.inj heq).symm
    · exact fun g' heq => by cases heq

theorem Inv.closeStop (h : Inv s) : Inv s.closeStop := by
  have hnone := closeStop_tickStop s
  have hstops := h.stops.closeStop
  have hlatest : latest s.closeStop.log = latest s.log := by
    unfold State.closeStop
    cases s.tickStop <;> rfl
  have hjoined : Mark.joined ∈ s.closeStop.log → Mark.joined ∈ s.log := by
    unfold State.closeStop
    cases s.tickStop with
    | none => exact id
    | some g => exact fun hmem => (List.mem_cons.mp hmem).resolve_left fun heq => by cases heq
  have hsame : s.closeStop.gens = s.gens ∧ s.closeStop.phase = s.phase ∧
      s.closeStop.dispatchMu = s.dispatchMu ∧ s.closeStop.tickMu = s.tickMu ∧
      s.closeStop.once = s.once ∧ s.closeStop.onceDone = s.onceDone ∧
      s.closeStop.closed = s.closed ∧ s.closeStop.tickWG = s.tickWG := by
    unfold State.closeStop
    cases s.tickStop <;> exact ⟨rfl, rfl, rfl, rfl, rfl, rfl, rfl, rfl⟩
  obtain ⟨hgens, hphase, hdispatch, htick, honce, hdone, hclosed, hwg⟩ := hsame
  refine ⟨fun u => ?_, ?_, ?_, fun u => ?_, fun u => ?_, fun u => ?_, ?_, fun hfin => ?_, hstops,
    fun u g => ?_, ?_, fun hmem => ?_⟩
  · rw [hgens, hphase]
    exact h.kind u
  · rw [hdispatch, hphase]
    exact h.dispatchMu
  · rw [htick, hphase]
    exact h.tickMu
  · rw [hphase, honce]
    exact h.once u
  · rw [hphase, honce, hdone]
    exact h.runner u
  · rw [hphase]
    refine ⟨fun hp => ?_, fun _ => hnone, fun hp => ?_⟩
    · rw [hclosed]
      exact (h.shut u).1 hp
    · rw [hwg]
      exact (h.shut u).2.2 hp
  · rw [hphase, hdone]
    exact h.sweep
  · rw [hdone] at hfin
    rw [hclosed, hwg]
    exact ⟨(h.finished hfin).1, hnone, (h.finished hfin).2.2⟩
  · rw [hphase, hlatest]
    exact h.ready u g
  · unfold State.running
    rw [hwg, hgens, hphase]
    exact h.count
  · rw [hdone, hphase]
    exact h.joined (hjoined hmem)

theorem Inv.setPeriod (h : Inv s) (period : ℤ) : Inv { s with tickPeriod := period } :=
  ⟨h.kind, h.dispatchMu, h.tickMu, h.once, h.runner, h.shut, h.sweep, h.finished,
    ⟨h.stops.current, h.stops.stopped, h.stops.closings, h.stops.ticks⟩, h.ready, h.count, h.joined⟩

theorem Inv.not_ready (h : Inv s) {stop : Option ℕ} {call : Guest}
    (ht : s.phase t = .guest stop call) (u : Thread H C) (g : ℕ) : s.phase u ≠ .ready g := by
  intro hu
  have heq : t = u := h.dispatchMu.exclusive (by rw [ht]; rfl) (by rw [hu]; rfl)
  rw [heq, hu] at ht
  cases ht

theorem Inv.disarm (h : Inv s) {stop : Option ℕ} {call : Guest} (ht : s.phase t = .guest stop call)
    (hnone : s.tickStop = none) : Inv s.disarm := by
  refine ⟨h.kind, h.dispatchMu, h.tickMu, h.once, h.runner, h.shut, h.sweep, h.finished, ?_,
    fun u g hu => ?_, h.count, fun hmem => ?_⟩
  · refine ⟨fun g hg => ?_, h.stops.stopped, fun g => ?_, h.stops.ticks.cons ?_⟩
    · change s.tickStop = some g at hg
      rw [hnone] at hg
      cases hg
    · change List.count _ (.set none :: s.log) = _
      rw [List.count_cons_of_ne (fun heq => by cases heq)]
      exact h.stops.closings g
    · exact fun g heq => by cases heq
  · exact absurd hu (h.not_ready ht u g)
  · exact h.joined ((List.mem_cons.mp hmem).resolve_left fun heq => by cases heq)

variable [DecidableEq H] [DecidableEq C]

omit [DecidableEq H] [DecidableEq C] in
theorem Inv.idle_of_le (h : Inv s) {g : ℕ} (hg : s.gens ≤ g) : s.phase (.tick g) = .idle := by
  refine ((h.kind (.tick g)).2 g rfl).resolve_right fun htoken => ?_
  have hlt := ((h.kind (.tick g)).1 g htoken).2
  omega

theorem Inv.spawn (h : Inv s) {stop : Option ℕ} {call : Guest} (ht : s.phase t = .guest stop call)
    (hnone : s.tickStop = none) (hmu : s.tickMu = none) (hdone : s.onceDone = false)
    (hswept : ∀ u, (s.phase u).swept = false) (period : ℤ) :
    Inv (s.spawn period) := by
  have hnew := h.idle_of_le (Nat.le_refl s.gens)
  have hfree : ∀ u, (s.phase u).holdsTick = false := by
    intro u
    rw [← Bool.not_eq_true, h.tickMu u, hmu]
    exact fun heq => by cases heq
  refine ⟨?_, h.dispatchMu.keep (by rw [hnew]; rfl), h.tickMu.keep (by rw [hnew]; rfl), ?_,
    fun u hu => ?_, ?_, ?_, fun hfin => ?_, ?_, ?_, ?_, fun hmem => ?_⟩
  · refine forall_update ⟨fun g hg => ?_, fun g hg => ?_⟩ fun u => (h.kind u).mono (Nat.le_succ _)
    · rw [← Option.some.inj hg]
      exact ⟨rfl, Nat.lt_succ_self _⟩
    · rw [← Thread.tick.inj hg]
      exact .inr rfl
  · exact forall_update (R := fun u p => p.runner = true → s.once = some u)
      (fun hq => by cases hq) h.once
  · refine (h.runner u hu).imp_right fun hrun => ?_
    refine forall_update (R := fun v p => (s.phase v).runner = true → p.runner = true)
      (fun hrun => ?_) (fun _ hv => hv) u hrun
    rw [hnew] at hrun
    cases hrun
  · -- No other thread is arming, since the lock is free, and nobody has swept.
    refine forall_update (R := fun _ p => ShutOk (s.spawn period) p) (ShutOk.of_false rfl rfl rfl)
      fun u => ⟨(h.shut u).1, fun hp => ?_, fun hp => ?_⟩
    · rcases Phase.pastStop_cases hp with hlock | hlate
      · rw [hfree u] at hlock
        cases hlock
      · rw [hswept u] at hlate
        cases hlate
    · have hlate := Phase.swept_of_pastJoin hp
      rw [hswept u] at hlate
      cases hlate
  · refine forall_update (R := fun _ p => p.spawns = true → _) (fun hq => by cases hq)
      fun u hu => ?_
    have hlock := Phase.holdsTick_of_spawns hu
    rw [hfree u] at hlock
    cases hlock
  · change s.onceDone = true at hfin
    rw [hdone] at hfin
    cases hfin
  · refine ⟨fun g hg => ?_, fun g => ?_, fun g => ?_, h.stops.ticks.cons ?_⟩
    · rw [← Option.some.inj hg]
      exact ⟨Nat.lt_succ_self _, rfl⟩
    · change s.stopped g = true ↔ g < s.gens + 1 ∧ some s.gens ≠ some g
      rw [h.stops.stopped g, hnone]
      constructor
      · rintro ⟨hg, -⟩
        exact ⟨by omega, fun heq => Nat.ne_of_lt hg (Option.some.inj heq).symm⟩
      · rintro ⟨hg, hne⟩
        have hg' : g ≠ s.gens := fun heq => hne (congrArg some heq.symm)
        exact ⟨by omega, (fun heq => by cases heq)⟩
    · change List.count _ (.set (some s.gens) :: s.log) = _
      rw [List.count_cons_of_ne (fun heq => by cases heq)]
      exact h.stops.closings g
    · exact fun g heq => by cases heq
  · refine forall_update (R := fun _ p => ∀ g, p = .ready g → latest (s.spawn period).log = some g)
      (fun g hg => by cases hg) fun u g hu => ?_
    exact absurd hu (h.not_ready ht u g)
  · change s.tickWG + 1 = _
    have hrunning : (s.spawn period).running = insert s.gens s.running := by
      unfold State.running
      change (Finset.range (s.gens + 1)).filter _ = _
      rw [Finset.range_add_one, Finset.filter_insert, if_pos]
      · refine congrArg _ (Finset.filter_congr fun g hg => not_congr ?_)
        have hlt := Finset.mem_range.mp hg
        change Function.update s.phase (.tick s.gens) _ (.tick g) = _ ↔ _
        rw [Function.update_of_ne fun heq => Nat.ne_of_lt hlt (Thread.tick.inj heq)]
      · change Function.update s.phase (.tick s.gens) (.selecting s.gens) (.tick s.gens) ≠ _
        rw [Function.update_self]
        exact fun heq => by cases heq
    rw [hrunning, Finset.card_insert_of_notMem, h.count]
    unfold State.running
    rw [Finset.mem_filter, Finset.mem_range]
    exact fun hlt => Nat.lt_irrefl _ hlt.1
  · refine (h.joined ((List.mem_cons.mp hmem).resolve_left fun heq => by cases heq)).imp_right ?_
    rintro ⟨u, hu⟩
    have hlate := Phase.swept_of_pastJoin hu
    rw [hswept u] at hlate
    cases hlate

theorem Inv.exit (h : Inv s) {g : ℕ} (ht : s.phase t = .selecting g) :
    Inv ({ s with tickWG := s.tickWG - 1 }.moved t .idle) := by
  obtain ⟨rfl, hg⟩ := (h.kind t).1 g (by rw [ht]; rfl)
  refine ⟨forall_update (KindOk.idle _ _) h.kind, h.dispatchMu.keep (by rw [ht]; rfl),
    h.tickMu.keep (by rw [ht]; rfl), ?_, fun u hu => ?_, ?_,
    h.sweep_update (SweepOk.of_false rfl rfl), fun hfin => ?_,
    ⟨h.stops.current, h.stops.stopped, h.stops.closings, h.stops.ticks⟩, ?_, ?_, fun hmem => ?_⟩
  · exact forall_update (R := fun u p => p.runner = true → s.once = some u)
      (fun hq => by cases hq) h.once
  · refine (h.runner u hu).imp_right fun hrun => ?_
    refine forall_update (R := fun v p => (s.phase v).runner = true → p.runner = true)
      (fun hrun => ?_) (fun _ hv => hv) u hrun
    rw [ht] at hrun
    cases hrun
  · refine forall_update (R := fun _ p => ShutOk { s with tickWG := s.tickWG - 1 } p)
      (ShutOk.of_false rfl rfl rfl) fun u => ⟨(h.shut u).1, (h.shut u).2.1, fun hp => ?_⟩
    change s.tickWG - 1 = 0
    rw [(h.shut u).2.2 hp]
  · obtain ⟨hclosed, hnone, hzero⟩ := h.finished hfin
    refine ⟨hclosed, hnone, ?_⟩
    change s.tickWG - 1 = 0
    rw [hzero]
  · exact forall_update (R := fun _ p => ∀ g, p = .ready g → latest s.log = some g)
      (fun g hg => by cases hg) h.ready
  · have hmem : g ∈ s.running := by
      unfold State.running
      rw [Finset.mem_filter, Finset.mem_range, ht]
      exact ⟨hg, (fun heq => by cases heq)⟩
    have hrunning : ({ s with tickWG := s.tickWG - 1 }.moved (.tick g) .idle).running =
        s.running.erase g := by
      ext g'
      unfold State.running
      rw [Finset.mem_erase, Finset.mem_filter, Finset.mem_filter]
      change _ ∧ Function.update s.phase (.tick g) .idle (.tick g') ≠ _ ↔ _
      by_cases hgg : g' = g
      · rw [hgg, Function.update_self]
        exact iff_of_false (fun hne => hne.2 rfl) (fun hne => hne.1 rfl)
      · rw [Function.update_of_ne fun heq => hgg (Thread.tick.inj heq)]
        exact (and_iff_right hgg).symm
    rw [hrunning, Finset.card_erase_of_mem hmem, ← h.count]
    rfl
  · refine (h.joined hmem).imp_right fun ⟨u, hu⟩ => ⟨u, ?_⟩
    refine forall_update (R := fun v p => (s.phase v).pastJoin = true → p.pastJoin = true)
      (fun hp => ?_) (fun _ hv => hv) u hu
    rw [ht] at hp
    cases hp

omit [DecidableEq H] [DecidableEq C] in
theorem Inv.not_joined (h : Inv s) {g : ℕ} (hg : (s.phase t).token = some g) :
    .joined ∉ s.log := by
  intro hmem
  obtain ⟨rfl, hlt⟩ := (h.kind t).1 g hg
  have hzero : s.tickWG = 0 := by
    rcases h.joined hmem with hdone | ⟨u, hu⟩
    · exact (h.finished hdone).2.2
    · exact (h.shut u).2.2 hu
  rw [h.count, Finset.card_eq_zero] at hzero
  have hrun : g ∈ s.running := by
    unfold State.running
    rw [Finset.mem_filter, Finset.mem_range]
    refine ⟨hlt, fun hidle => ?_⟩
    rw [hidle] at hg
    cases hg
  rw [hzero] at hrun
  exact Finset.notMem_empty g hrun

omit [DecidableEq H] [DecidableEq C] in
theorem Inv.mark (h : Inv s) {m : Mark} (hlatest : latest (m :: s.log) = latest s.log)
    (hclose : ∀ g, m ≠ .stopClosed g)
    (htick : ∀ g, m = .tick g → latest s.log = some g ∧ .joined ∉ s.log)
    (hjoined : m = .joined → s.onceDone = true ∨ ∃ t, (s.phase t).pastJoin = true) :
    Inv { s with log := m :: s.log } := by
  refine ⟨h.kind, h.dispatchMu, h.tickMu, h.once, h.runner, h.shut, h.sweep, h.finished,
    ⟨fun g hg => ?_, h.stops.stopped, fun g => ?_, h.stops.ticks.cons htick⟩, fun u g hu => ?_,
    h.count, fun hmem => ?_⟩
  · exact ⟨(h.stops.current g hg).1, hlatest.trans (h.stops.current g hg).2⟩
  · change List.count _ (m :: s.log) = _
    rw [List.count_cons_of_ne (hclose g)]
    exact h.stops.closings g
  · exact hlatest.trans (h.ready u g hu)
  · rcases List.mem_cons.mp hmem with heq | hold
    · exact hjoined heq.symm
    · exact h.joined hold

omit [DecidableEq H] [DecidableEq C] in
theorem Inv.setClosed (h : Inv s) : Inv { s with closed := true } :=
  ⟨h.kind, h.dispatchMu, h.tickMu, h.once, h.runner, fun u => ⟨fun _ => rfl, (h.shut u).2⟩,
    h.sweep,
    fun hfin => ⟨rfl, (h.finished hfin).2⟩,
    ⟨h.stops.current, h.stops.stopped, h.stops.closings, h.stops.ticks⟩, h.ready, h.count, h.joined⟩

omit [DecidableEq H] [DecidableEq C] in
theorem Inv.setDone (h : Inv s) (ht : s.phase t = .clearing) :
    Inv { s with live := false, onceDone := true } := by
  have hshut := h.shut t
  rw [ht] at hshut
  refine ⟨h.kind, h.dispatchMu, h.tickMu, h.once, fun _ _ => .inl rfl, h.shut, fun u hu => ?_,
    fun _ => ⟨hshut.1 rfl, hshut.2.1 rfl, hshut.2.2 rfl⟩,
    ⟨h.stops.current, h.stops.stopped, h.stops.closings, h.stops.ticks⟩, h.ready, h.count,
    fun _ => .inl rfl⟩
  have hswept := (h.sweep u hu).2 t
  rw [ht] at hswept
  cases hswept

end Effects

end EnvoyGo.WasmTick

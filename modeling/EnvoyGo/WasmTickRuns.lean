import EnvoyGo.Census
import EnvoyGo.WasmTickSteps

/-!
Whole runs around the tick goroutines: the ticks, the stop channels, and that nothing is blocked for
good.
-/

namespace EnvoyGo.WasmTick

open Census Mutexes

variable {H C : Type} [DecidableEq H] [DecidableEq C] {s s' : State H C} {t : Thread H C}

def Phase.rank : Phase → ℕ
  | .idle => 0
  | .selecting _ => 1
  | .guest _ .running => 2
  | .guest _ (.spawning _) => 4
  | .guest _ (.arming _) => 5
  | .guest _ (.superseding _) => 6
  | .guest _ (.wantTick _) => 7
  | .wantDispatch => 3
  | .ready _ => 3
  | .comparing _ => 4
  | .wantCompare _ => 5
  | .locked _ => 6
  | .wantLock _ => 7
  | .fired _ => 8
  | .clearing => 1
  | .wantClear => 2
  | .joining => 3
  | .stopping => 4
  | .wantStop => 5
  | .storing => 6
  | .called => 7

def Descends (s s' : State H C) (t : Thread H C) : Prop :=
  ∃ q : Phase, (s'.phase = Function.update s.phase t q ∧ q.rank < (s.phase t).rank) ∨
    s'.phase = Function.update (Function.update s.phase t q) (.tick s.gens) (.selecting s.gens) ∧
      q.rank + 1 < (s.phase t).rank

theorem Descends.of_update {p q : Phase} (ht : s.phase t = p)
    (hphase : s'.phase = Function.update s.phase t q) (hrank : q.rank < p.rank) :
    Descends s s' t := by
  rw [← ht] at hrank
  exact ⟨q, .inl ⟨hphase, hrank⟩⟩

theorem descends_guest {stop : Option ℕ} {call : Guest} (ht : s.phase t = .guest stop call)
    (hstep : s.advance t = some s') : Descends s s' t := by
  unfold State.advance at hstep
  rw [ht] at hstep
  cases call with
  | running =>
    cases hstep
    refine .of_update ht rfl ?_
    cases stop with
    | none => exact Nat.zero_lt_succ 1
    | some g => exact Nat.lt_succ_self 1
  | wantTick period =>
    dsimp only at hstep
    split_ifs at hstep
    cases hstep
    exact .of_update ht rfl (Nat.lt_succ_self 6)
  | superseding period =>
    cases hstep
    refine .of_update (q := .guest stop (.arming period)) ht ?_ (Nat.lt_succ_self 5)
    change Function.update s.closeStop.phase t _ = _
    rw [closeStop_phase]
  | arming period =>
    dsimp only at hstep
    split_ifs at hstep
    · cases hstep
      exact .of_update ht rfl (by decide : 2 < 5)
    · cases hstep
      exact .of_update ht rfl (Nat.lt_succ_self 4)
  | spawning period =>
    cases hstep
    refine ⟨.guest stop .running, .inr ⟨rfl, ?_⟩⟩
    rw [ht]
    exact (by decide : 2 + 1 < 4)

theorem descends_tick {g : ℕ} (hguest : ∀ stop call, s.phase t ≠ .guest stop call)
    (htoken : (s.phase t).token = some g) (hstep : s.advance t = some s') : Descends s s' t := by
  cases ht : s.phase t with
  | selecting g =>
    unfold State.advance at hstep
    rw [ht] at hstep
    dsimp only at hstep
    split_ifs at hstep
    cases hstep
    exact .of_update ht rfl (Nat.zero_lt_succ 0)
  | fired g =>
    unfold State.advance at hstep
    rw [ht] at hstep
    cases hstep
    refine .of_update ht rfl ?_
    split_ifs
    · exact (by decide : 1 < 8)
    · exact Nat.lt_succ_self 7
  | wantLock g =>
    unfold State.advance at hstep
    rw [ht] at hstep
    dsimp only at hstep
    split_ifs at hstep
    cases hstep
    exact .of_update ht rfl (Nat.lt_succ_self 6)
  | locked g =>
    unfold State.advance at hstep
    rw [ht] at hstep
    dsimp only at hstep
    split_ifs at hstep
    · cases hstep
      exact .of_update ht rfl (by decide : 1 < 6)
    · cases hstep
      exact .of_update ht rfl (Nat.lt_succ_self 5)
  | wantCompare g =>
    unfold State.advance at hstep
    rw [ht] at hstep
    dsimp only at hstep
    split_ifs at hstep
    cases hstep
    exact .of_update ht rfl (Nat.lt_succ_self 4)
  | comparing g =>
    unfold State.advance at hstep
    rw [ht] at hstep
    dsimp only at hstep
    split_ifs at hstep
    · cases hstep
      exact .of_update ht rfl (Nat.lt_succ_self 3)
    · cases hstep
      exact .of_update ht rfl (by decide : 1 < 4)
  | ready g =>
    unfold State.advance at hstep
    rw [ht] at hstep
    cases hstep
    exact .of_update ht rfl (Nat.lt_succ_self 2)
  | guest stop call => exact absurd ht (hguest stop call)
  | _ =>
    rw [ht] at htoken
    cases htoken

theorem descends_outside (htoken : (s.phase t).token = none)
    (hguest : ∀ stop call, s.phase t ≠ .guest stop call) (hstep : s.advance t = some s') :
    Descends s s' t := by
  cases ht : s.phase t with
  | wantDispatch =>
    unfold State.advance at hstep
    rw [ht] at hstep
    dsimp only at hstep
    split_ifs at hstep
    cases hstep
    exact .of_update ht rfl (Nat.lt_succ_self 2)
  | called =>
    unfold State.advance at hstep
    rw [ht] at hstep
    dsimp only at hstep
    split_ifs at hstep
    · cases hstep
      exact .of_update ht rfl (Nat.zero_lt_succ 6)
    · cases hstep
      exact .of_update ht rfl (Nat.lt_succ_self 6)
  | storing =>
    unfold State.advance at hstep
    rw [ht] at hstep
    cases hstep
    exact .of_update ht rfl (Nat.lt_succ_self 5)
  | wantStop =>
    unfold State.advance at hstep
    rw [ht] at hstep
    dsimp only at hstep
    split_ifs at hstep
    cases hstep
    exact .of_update ht rfl (Nat.lt_succ_self 4)
  | stopping =>
    unfold State.advance at hstep
    rw [ht] at hstep
    cases hstep
    refine .of_update (q := .joining) ht ?_ (Nat.lt_succ_self 3)
    change Function.update s.closeStop.phase t _ = _
    rw [closeStop_phase]
  | joining =>
    unfold State.advance at hstep
    rw [ht] at hstep
    dsimp only at hstep
    split_ifs at hstep
    cases hstep
    exact .of_update ht rfl (Nat.lt_succ_self 2)
  | wantClear =>
    unfold State.advance at hstep
    rw [ht] at hstep
    dsimp only at hstep
    split_ifs at hstep
    cases hstep
    exact .of_update ht rfl (Nat.lt_succ_self 1)
  | clearing =>
    unfold State.advance at hstep
    rw [ht] at hstep
    cases hstep
    exact .of_update ht rfl (Nat.zero_lt_succ 0)
  | idle =>
    unfold State.advance at hstep
    rw [ht] at hstep
    cases hstep
  | guest stop call => exact absurd ht (hguest stop call)
  | _ =>
    rw [ht] at htoken
    cases htoken

theorem descends (hstep : s.advance t = some s') : Descends s s' t := by
  by_cases hguest : ∃ stop call, s.phase t = .guest stop call
  · obtain ⟨stop, call, ht⟩ := hguest
    exact descends_guest ht hstep
  · have hother : ∀ stop call, s.phase t ≠ .guest stop call :=
      fun stop call ht => hguest ⟨stop, call, ht⟩
    cases htoken : (s.phase t).token with
    | none => exact descends_outside htoken hother hstep
    | some g => exact descends_tick hother htoken hstep

def State.Budget (s : State H C) (n : ℕ) : Prop := Total (Phase.rank ∘ s.phase) n

theorem budget_update {n : ℕ} (h : s.Budget n) {q : Phase}
    (hphase : s'.phase = Function.update s.phase t q) :
    ∃ m, s'.Budget m ∧ m + (s.phase t).rank = n + q.rank := by
  obtain ⟨m, htotal, hm⟩ := Total.update h t q.rank
  refine ⟨m, ?_, hm⟩
  unfold State.Budget
  rw [hphase, Function.comp_update]
  exact htotal

theorem budget_advance {n : ℕ} (h : s.Budget n) (hstep : s.advance t = some s') :
    ∃ m, s'.Budget m ∧ m < n := by
  obtain ⟨q, ⟨hphase, hrank⟩ | ⟨hphase, hrank⟩⟩ := descends hstep
  · obtain ⟨m, hm, heq⟩ := budget_update h hphase
    exact ⟨m, hm, by omega⟩
  · obtain ⟨m, hm, heq⟩ := budget_update h (show (s.moved t q).phase = _ from rfl)
    obtain ⟨k, hk, heq'⟩ := budget_update hm hphase
    have hone : (Phase.selecting s.gens).rank = 1 := rfl
    exact ⟨k, hk, by omega⟩

theorem length_of_advances {ts : List (Thread H C)} {n : ℕ} (h : s.Budget n)
    (hrun : ts.foldlM State.advance s = some s') : ts.length ≤ n := by
  induction ts generalizing s n with
  | nil => exact Nat.zero_le n
  | cons t ts ih =>
    rw [List.foldlM_cons] at hrun
    obtain ⟨s₁, hstep, hrest⟩ := Option.bind_eq_some_iff.mp hrun
    obtain ⟨m, hm, hlt⟩ := budget_advance h hstep
    have hlen := ih hm hrest
    rw [List.length_cons]
    omega

theorem budget_next {n : ℕ} (h : s.Budget n) {e : Event H C} (hstep : s.next e = some s') :
    ∃ m, s'.Budget m := by
  have hmoved : ∀ t q, ∃ m, (s.moved t q).Budget m := by
    intro t q
    obtain ⟨m, hm, -⟩ := budget_update h (show (s.moved t q).phase = _ from rfl)
    exact ⟨m, hm⟩
  cases e with
  | advance t =>
    obtain ⟨m, hm, -⟩ := budget_advance h hstep
    exact ⟨m, hm⟩
  | enter f =>
    simp only [State.next] at hstep
    split_ifs at hstep
    cases hstep
    exact hmoved _ _
  | setTickPeriod t period =>
    simp only [State.next] at hstep
    split at hstep
    · cases hstep
      exact hmoved _ _
    · cases hstep
  | timerFires g =>
    simp only [State.next] at hstep
    split_ifs at hstep
    cases hstep
    exact hmoved _ _
  | close c =>
    simp only [State.next] at hstep
    split_ifs at hstep
    cases hstep
    exact hmoved _ _

theorem budget_of_reachable (h : Reachable s) : ∃ n, s.Budget n := by
  induction h with
  | init => exact ⟨0, total_zero⟩
  | step e _ hstep ih =>
    obtain ⟨n, hn⟩ := ih
    exact budget_next hn hstep

namespace Phase

def free : Phase → Bool
  | .guest _ (.wantTick _) => false
  | .guest _ _ => true
  | .fired _ => true
  | .locked _ => true
  | .comparing _ => true
  | .ready _ => true
  | .storing => true
  | .stopping => true
  | .clearing => true
  | _ => false

def wantsTick : Phase → Bool
  | .guest _ (.wantTick _) => true
  | .wantCompare _ => true
  | .wantStop => true
  | _ => false

def wantsDispatch : Phase → Bool
  | .wantDispatch => true
  | .wantLock _ => true
  | .wantClear => true
  | _ => false

theorem free_of_holdsTick {p : Phase} (h : p.holdsTick = true) : p.free = true := by
  cases p with
  | guest stop call =>
    cases call with
    | wantTick period => cases h
    | _ => rfl
  | comparing g => rfl
  | stopping => rfl
  | _ => cases h

theorem holdsDispatch_cases {p : Phase} (h : p.holdsDispatch = true) :
    p.free = true ∨ p.wantsTick = true := by
  cases p with
  | guest stop call =>
    cases call with
    | wantTick period => exact .inr rfl
    | _ => exact .inl rfl
  | wantCompare g => exact .inr rfl
  | locked g => exact .inl rfl
  | comparing g => exact .inl rfl
  | ready g => exact .inl rfl
  | clearing => exact .inl rfl
  | _ => cases h

def lockable (p : Phase) : Bool := p.free || p.wantsTick || p.wantsDispatch

theorem runner_cases {p : Phase} (h : p.runner = true) : p.lockable = true ∨ p = .joining := by
  cases p with
  | joining => exact .inr rfl
  | storing => exact .inl rfl
  | wantStop => exact .inl rfl
  | stopping => exact .inl rfl
  | wantClear => exact .inl rfl
  | clearing => exact .inl rfl
  | _ => cases h

theorem token_cases {p : Phase} {g : ℕ} (h : p.token = some g) :
    p.lockable = true ∨ p = .selecting g := by
  cases p with
  | selecting stop => exact .inr (congrArg Phase.selecting (Option.some.inj h))
  | guest stop call => cases call <;> exact .inl rfl
  | fired stop => exact .inl rfl
  | wantLock stop => exact .inl rfl
  | locked stop => exact .inl rfl
  | wantCompare stop => exact .inl rfl
  | comparing stop => exact .inl rfl
  | ready stop => exact .inl rfl
  | _ => cases h

end Phase

theorem advance_of_free (ht : (s.phase t).free = true) : (s.advance t).isSome = true := by
  unfold State.advance
  cases hp : s.phase t with
  | guest stop call =>
    cases call with
    | wantTick period =>
      rw [hp] at ht
      cases ht
    | arming period =>
      dsimp only
      split_ifs <;> rfl
    | _ => rfl
  | locked g =>
    dsimp only
    split_ifs <;> rfl
  | comparing g =>
    dsimp only
    split_ifs <;> rfl
  | fired g => rfl
  | ready g => rfl
  | storing => rfl
  | stopping => rfl
  | clearing => rfl
  | _ =>
    rw [hp] at ht
    cases ht

theorem advance_of_wantsTick (ht : (s.phase t).wantsTick = true) (hfree : s.tickMu = none) :
    (s.advance t).isSome = true := by
  unfold State.advance
  cases hp : s.phase t with
  | guest stop call =>
    cases call with
    | wantTick period =>
      dsimp only
      rw [if_pos hfree]
      rfl
    | _ =>
      rw [hp] at ht
      cases ht
  | wantCompare g =>
    dsimp only
    rw [if_pos hfree]
    rfl
  | wantStop =>
    dsimp only
    rw [if_pos hfree]
    rfl
  | _ =>
    rw [hp] at ht
    cases ht

theorem advance_of_wantsDispatch (ht : (s.phase t).wantsDispatch = true)
    (hfree : s.dispatchMu = none) : (s.advance t).isSome = true := by
  unfold State.advance
  cases hp : s.phase t with
  | wantDispatch =>
    dsimp only
    rw [if_pos hfree]
    rfl
  | wantLock g =>
    dsimp only
    rw [if_pos hfree]
    rfl
  | wantClear =>
    dsimp only
    rw [if_pos hfree]
    rfl
  | _ =>
    rw [hp] at ht
    cases ht

theorem Inv.advance_tickMu (h : Inv s) (ht : (s.phase t).wantsTick = true) :
    ∃ u, (s.advance u).isSome = true := by
  cases howner : s.tickMu with
  | none => exact ⟨t, advance_of_wantsTick ht howner⟩
  | some u => exact ⟨u, advance_of_free (Phase.free_of_holdsTick ((h.tickMu u).mpr howner))⟩

theorem Inv.advance_dispatchMu (h : Inv s) (ht : (s.phase t).wantsDispatch = true) :
    ∃ u, (s.advance u).isSome = true := by
  cases howner : s.dispatchMu with
  | none => exact ⟨t, advance_of_wantsDispatch ht howner⟩
  | some u =>
    rcases Phase.holdsDispatch_cases ((h.dispatchMu u).mpr howner) with hfree | hwants
    · exact ⟨u, advance_of_free hfree⟩
    · exact h.advance_tickMu hwants

theorem Inv.advance_lockable (h : Inv s) (ht : (s.phase t).lockable = true) :
    ∃ u, (s.advance u).isSome = true := by
  unfold Phase.lockable at ht
  rcases Bool.or_eq_true_iff.mp ht with hor | hdispatch
  · rcases Bool.or_eq_true_iff.mp hor with hfree | htick
    · exact ⟨t, advance_of_free hfree⟩
    · exact h.advance_tickMu htick
  · exact h.advance_dispatchMu hdispatch

theorem advance_of_stopped {g : ℕ} (ht : s.phase t = .selecting g) (hstop : s.stopped g = true) :
    (s.advance t).isSome = true := by
  unfold State.advance
  rw [ht]
  dsimp only
  rw [if_pos hstop]
  rfl

theorem Inv.advance_joining (h : Inv s) (ht : s.phase t = .joining) :
    ∃ u, (s.advance u).isSome = true := by
  by_cases hzero : s.tickWG = 0
  · refine ⟨t, ?_⟩
    unfold State.advance
    rw [ht]
    dsimp only
    rw [if_pos hzero]
    rfl
  · have hnone : s.tickStop = none := by
      have hshut := h.shut t
      rw [ht] at hshut
      exact hshut.2.1 rfl
    rw [h.count] at hzero
    obtain ⟨g, hg⟩ := Finset.card_pos.mp (Nat.pos_of_ne_zero hzero)
    unfold State.running at hg
    rw [Finset.mem_filter, Finset.mem_range] at hg
    rcases Phase.token_cases (((h.kind (.tick g)).2 g rfl).resolve_left hg.2) with hlock | hselect
    · exact h.advance_lockable hlock
    · refine ⟨.tick g, advance_of_stopped hselect ((h.stops.stopped g).mpr ⟨hg.1, ?_⟩)⟩
      rw [hnone]
      exact fun heq => by cases heq

theorem Inv.advance_called (h : Inv s) (ht : s.phase t = .called) :
    ∃ u, (s.advance u).isSome = true := by
  by_cases hdone : s.onceDone = true
  · refine ⟨t, ?_⟩
    unfold State.advance
    rw [ht]
    dsimp only
    rw [if_pos hdone]
    rfl
  · cases honce : s.once with
    | none =>
      refine ⟨t, ?_⟩
      unfold State.advance
      rw [ht]
      dsimp only
      rw [if_neg hdone, if_pos honce]
      rfl
    | some u =>
      rcases Phase.runner_cases ((h.runner u honce).resolve_left hdone) with hlock | hjoin
      · exact h.advance_lockable hlock
      · exact h.advance_joining hjoin

/-- The thread does nothing, or waits for its timer. -/
def AtRest (s : State H C) (t : Thread H C) : Prop :=
  s.phase t = .idle ∨ ∃ g, s.phase t = .selecting g ∧ s.stopped g = false

theorem Inv.exists_advance (h : Inv s) (hrest : ¬ AtRest s t) :
    ∃ u, (s.advance u).isSome = true := by
  obtain ⟨hidle, hselect⟩ := not_or.mp hrest
  cases ht : s.phase t with
  | idle => exact absurd ht hidle
  | selecting g =>
    refine ⟨t, advance_of_stopped ht ?_⟩
    rw [← Bool.not_eq_false]
    exact fun hopen => hselect ⟨g, ht, hopen⟩
  | called => exact h.advance_called ht
  | joining => exact h.advance_joining ht
  | guest stop call =>
    refine h.advance_lockable (t := t) ?_
    rw [ht]
    cases call <;> rfl
  | _ =>
    refine h.advance_lockable (t := t) ?_
    rw [ht]
    rfl

/-- Every tick is of the goroutine that the latest `SetTickPeriod` has started, and neither behind a
cancelling one nor behind the join; no stop channel is closed twice; and however the threads are
scheduled, they stop after boundedly many steps, with none of them waiting for another. -/
theorem ticks_of_latest (s : State H C) (h : Reachable s) :
    TicksOk s.log ∧ (∀ g, s.log.count (.stopClosed g) ≤ 1) ∧
      ((∀ u, s.advance u = none) → ∀ t, AtRest s t) ∧
      ∃ n, ∀ (ts : List (Thread H C)) (s' : State H C),
        ts.foldlM State.advance s = some s' → ts.length ≤ n := by
  have hinv := inv_of_reachable h
  refine ⟨hinv.stops.ticks, fun g => ?_, fun hstuck t => ?_, ?_⟩
  · rw [hinv.stops.closings g]
    split_ifs <;> omega
  · by_contra hrest
    obtain ⟨u, hu⟩ := hinv.exists_advance hrest
    rw [hstuck u] at hu
    cases hu
  · obtain ⟨n, hn⟩ := budget_of_reachable h
    exact ⟨n, fun ts s' hrun => length_of_advances hn hrun⟩

theorem reachable_of_events {es : List (Event H C)} (h : Reachable s)
    (hrun : es.foldlM State.next s = some s') : Reachable s' := by
  induction es generalizing s with
  | nil =>
    cases hrun
    exact h
  | cons e es ih =>
    rw [List.foldlM_cons] at hrun
    obtain ⟨s₁, hstep, hrest⟩ := Option.bind_eq_some_iff.mp hrun
    exact ih (h.step e hstep) hrest

def turns (n : ℕ) (t : Thread H C) : List (Event H C) := List.replicate n (.advance t)

/-- A tick that sets the period again, a timer of the goroutine that this supersedes, a tick of the
new one, a cancel, and `Close`. -/
def rearming : List (Event Unit Unit) :=
  List.flatten
    [[.enter (), .advance (.frame ()), .setTickPeriod (.frame ()) 5], turns 5 (.frame ()),
      [.timerFires 0], turns 6 (.tick 0),
      [.setTickPeriod (.tick 0) 20000000], turns 5 (.tick 0),
      [.timerFires 0, .timerFires 1], turns 5 (.tick 0), turns 7 (.tick 1),
      [.enter (), .advance (.frame ()), .setTickPeriod (.frame ()) 0], turns 4 (.frame ()),
      [.close ()], turns 4 (.closer ()), turns 1 (.tick 1), turns 1 (.tick 0),
      turns 3 (.closer ())]

theorem ticks_of_latest_rearming :
    ∃ s, rearming.foldlM State.next ({} : State Unit Unit) = some s ∧
      s.log = [.joined, .set none, .stopClosed 1, .tick 1, .set (some 1), .stopClosed 0, .tick 0,
        .set (some 0)] ∧
      TicksOk s.log ∧ (∀ g, s.log.count (.stopClosed g) ≤ 1) ∧
      ((∀ u, s.advance u = none) → ∀ t, AtRest s t) ∧
      ∃ n, ∀ (ts : List (Thread Unit Unit)) (s' : State Unit Unit),
        ts.foldlM State.advance s = some s' → ts.length ≤ n := by
  have hlog : (rearming.foldlM State.next ({} : State Unit Unit)).map State.log =
      some [.joined, .set none, .stopClosed 1, .tick 1, .set (some 1), .stopClosed 0, .tick 0,
        .set (some 0)] := by decide +kernel
  obtain ⟨s, hrun, hs⟩ := Option.map_eq_some_iff.mp hlog
  exact ⟨s, hrun, hs, ticks_of_latest s (reachable_of_events .init hrun)⟩

omit [DecidableEq H] [DecidableEq C] in
theorem Inv.tick_idle (h : Inv s) (hjoined : s.tickWG = 0) (g : ℕ) : s.phase (.tick g) = .idle := by
  have hnone : s.running = ∅ := Finset.card_eq_zero.mp (h.count.symm.trans hjoined)
  obtain ⟨hgens, hkind⟩ := h.kind (.tick g)
  rcases hkind g rfl with hidle | htoken
  · exact hidle
  · by_contra hphase
    have hmem : g ∈ s.running :=
      Finset.mem_filter.mpr ⟨Finset.mem_range.mpr (hgens g htoken).2, hphase⟩
    rw [hnone] at hmem
    exact Finset.notMem_empty g hmem

/-- The guest is entered by one goroutine at a time, and a `Close` that has returned leaves no tick
goroutine behind. -/
theorem guest_exclusive (s : State H C) (h : Reachable s) :
    (∀ t u stop stop' call call', s.phase t = .guest stop call → s.phase u = .guest stop' call' →
      t = u) ∧
      (s.onceDone = true → s.closed = true ∧ s.tickStop = none ∧ ∀ g, s.phase (.tick g) = .idle) := by
  have hinv := inv_of_reachable h
  refine ⟨?_, ?_⟩
  · intro t u stop stop' call call' ht hu
    exact hinv.dispatchMu.exclusive (by rw [ht]; rfl) (by rw [hu]; rfl)
  · intro hdone
    obtain ⟨hclosed, hstop, hjoined⟩ := hinv.finished hdone
    exact ⟨hclosed, hstop, hinv.tick_idle hjoined⟩

theorem guest_exclusive_rearming :
    ∃ s, rearming.foldlM State.next ({} : State Unit Unit) = some s ∧ s.closed = true ∧
      ∀ g, s.phase (.tick g) = .idle := by
  have hclose : (rearming.foldlM State.next ({} : State Unit Unit)).map State.onceDone =
      some true := by decide +kernel
  obtain ⟨s, hrun, hdone⟩ := Option.map_eq_some_iff.mp hclose
  obtain ⟨hclosed, -, hidle⟩ := (guest_exclusive s (reachable_of_events .init hrun)).2 hdone
  exact ⟨s, hrun, hclosed, hidle⟩

end EnvoyGo.WasmTick

import EnvoyGo.H2PoolOwners

/-!
Waiters of the HTTP/2 pool.  They queue per endpoint while permits are per cluster, and every
event that frees capacity promotes at most one waiter of one endpoint.
-/

namespace EnvoyGo.H2Pool

open Tally Cluster

def NoSpare (s : Cluster) (a : String) : Prop :=
  ∀ k ∈ s.h2Pool a, s.live k = true → s.h2MaxConcurrentStreams ≤ (s.pcs k).inFlight

/-- Nobody waits while a slot of its endpoint or a permit of the cluster is free. -/
def NoStrandedWaiter (s : Cluster) : Prop :=
  ∀ a, s.h2Waiters a ≠ [] →
    NoSpare s a ∧ ∃ p, s.pool = some p ∧ p.maxConnections ≤ p.activeConns

def failing (s : Cluster) : Int :=
  tally s.next (fun i => if (s.calls i).phase = .dialFailed then 1 else 0)

def TakenUp (s : Cluster) (d : Int) : Prop :=
  ∃ p, s.pool = some p ∧ p.maxConnections ≤ p.activeConns + failing s + d

/-- A dial that failed finds a waiter of its own endpoint, or nobody waits, or there are more
of them than permits to spare. -/
def Settles (s : Cluster) (a : String) : Prop :=
  s.h2Waiters a ≠ [] ∨ (∀ b, s.h2Waiters b = []) ∨ TakenUp s (-1)

/-- A permit that comes back is handed on to `Dial` or `AcquireH1`, or to a waiter of the
endpoint that is promoted, or nobody waits for it. -/
def Passes (s : Cluster) (w : Option String) : Prop :=
  s.budgetWaiters ≠ [] ∨ (∃ a, w = some a ∧ s.h2Waiters a ≠ []) ∨
    (∀ b, s.h2Waiters b = []) ∨ TakenUp s (-1)

/-- A freed permit does not come back to the budget while another endpoint has waiters, and a
conversion does not bring room for two waiters to an endpoint with two waiters. -/
def wakesWaiters (s : Cluster) : Event → Prop
  | .cancelPending i => (s.calls i).phase = .handed → Passes s none
  | .dialFails i => (s.calls i).phase = .dialing → Passes s none
  | .cancelQueued i => (s.calls i).phase = .granted none → Passes s (some (s.calls i).addr)
  | .failConnecting i => (s.calls i).phase = .dialFailed → Settles s (s.calls i).addr
  | .poolConnecting i => (s.calls i).phase = .shaking → s.live i = true →
      s.h2MaxConcurrentStreams ≤ (s.cns i).promised + 1 ∨
        (s.h2Waiters (s.calls i).addr).length ≤ 1
  | .release i => ∀ k, (s.calls i).phase = .riding k → s.live k = false →
      (s.pcs k).inFlight = 1 → (s.conns k).once = false → Passes s (some (s.calls i).addr)
  | .evictOnError a k => k ∈ s.h2Pool a → Passes s (some a)
  | .watchGoneAway k => (s.conns k).watcher = .running → (s.conns k).goneAway = true →
      k ∈ s.h2Pool (s.calls k).addr → (s.pcs k).inFlight = 0 → Passes s (some (s.calls k).addr)
  | .close k => (s.conns k).opened = true → (s.calls k).api ≠ .acquireH2Stream →
      (s.conns k).once = false → Passes s none
  | .putIdleH1 k hasWaiter => (s.conns k).opened = true → (s.calls k).api = .acquireH1 →
      (hasWaiter = true ∨ h1PoolMaxPerEndpoint ≤ (s.h1Pool (s.calls k).addr).length) →
        (s.conns k).once = false → Passes s none
  | _ => True

section Failing

variable {s t : Cluster}

theorem failing_nonneg (s : Cluster) : 0 ≤ failing s := by
  apply tally_nonneg
  intro i
  split_ifs <;> simp

theorem failing_of_phases (hn : t.next = s.next)
    (hp : ∀ i, (t.calls i).phase = .dialFailed ↔ (s.calls i).phase = .dialFailed) :
    failing t = failing s := by
  unfold failing
  rw [hn]
  apply tally_congr
  intro i _
  simp only [hp i]

theorem failing_of_calls (hn : t.next = s.next) (hc : t.calls = s.calls) :
    failing t = failing s :=
  failing_of_phases hn (fun i => by rw [hc])

theorem failing_setCall {i : CallId} {c : Call}
    (h : c.phase = .dialFailed ↔ (s.calls i).phase = .dialFailed) :
    failing (s.setCall i c) = failing s := by
  refine failing_of_phases rfl (fun j => ?_)
  simp only [setCall, Function.update_apply]
  split_ifs with hj
  · rw [hj]
    exact h
  · exact Iff.rfl

theorem failing_setPhase {i : CallId} {p : Phase} (hi : (s.calls i).phase ≠ .dialFailed)
    (hp : p ≠ .dialFailed) : failing (s.setPhase i p) = failing s :=
  failing_setCall ⟨fun h => absurd h hp, fun h => absurd h hi⟩

theorem failing_lbRelease (i : CallId) : failing (s.lbRelease i) = failing s :=
  failing_setCall Iff.rfl

theorem failing_giveUp {i : CallId} (hi : (s.calls i).phase ≠ .dialFailed) :
    failing (s.giveUp i) = failing s := by
  rw [giveUp, failing_lbRelease, failing_setPhase hi (by simp)]

theorem failing_move {i : CallId} {c : Call} (hi : i < s.next) :
    failing (s.setCall i c) = failing s +
      ((if c.phase = .dialFailed then 1 else 0) -
        if (s.calls i).phase = .dialFailed then 1 else 0) := by
  have hrest : ∀ j, j ≠ i → (if ((s.setCall i c).calls j).phase = .dialFailed then (1 : Int)
      else 0) = if (s.calls j).phase = .dialFailed then 1 else 0 := by
    intro j hj
    simp only [setCall, Function.update_of_ne hj]
  have hrep := tally_replace hi hrest
  simp only [setCall, Function.update_self] at hrep
  exact hrep

end Failing

/-- Nobody in a queue has dialled. -/
structure Calm (s : Cluster) : Prop where
  queued : ∀ a, ∀ w ∈ s.h2Waiters a, (s.calls w).phase ≠ .dialFailed
  pending : ∀ w ∈ s.budgetWaiters, (s.calls w).phase ≠ .dialFailed

namespace Calm

variable {s : Cluster}

theorem of_slotInv (h : SlotInv s) : Calm s where
  queued a w hw := by
    have hq : s.view.phase w = .queued := ((h.accounted.toShape.mem_waiters a w).mp hw).1
    change s.view.phase w ≠ _
    rw [hq]
    simp
  pending w hw := by
    have hq : s.view.phase w = .pending := (h.accounted.toShape.mem_pending w).mp hw
    change s.view.phase w ≠ _
    rw [hq]
    simp

theorem setCall (h : Calm s) {i : CallId} {c : Call} (hc : c.phase ≠ .dialFailed) :
    Calm (s.setCall i c) := by
  constructor
  · intro a w hw
    simp only [Cluster.setCall, Function.update_apply]
    split_ifs with hwi
    · exact hc
    · exact h.queued a w hw
  · intro w hw
    simp only [Cluster.setCall, Function.update_apply]
    split_ifs with hwi
    · exact hc
    · exact h.pending w hw

theorem giveUp (h : Calm s) (i : CallId) : Calm (s.giveUp i) := by
  have hp : Calm (s.setPhase i .returned) := h.setCall (by simp)
  refine hp.setCall ?_
  simp only [Cluster.setPhase, Cluster.setCall, Function.update_self]
  simp

theorem of_same {t : Cluster} (h : Calm s) (hw : ∀ a, ∀ w ∈ t.h2Waiters a, w ∈ s.h2Waiters a)
    (hb : ∀ w ∈ t.budgetWaiters, w ∈ s.budgetWaiters)
    (hp : ∀ i, (t.calls i).phase = (s.calls i).phase) : Calm t where
  queued a w hq := by
    rw [hp]
    exact h.queued a w (hw a w hq)
  pending w hq := by
    rw [hp]
    exact h.pending w (hb w hq)

theorem releaseConnSlot (h : Calm s) (i : CallId) : Calm (s.releaseConnSlot i) := by
  have hback : Calm (s.countPermitBack i) := by
    refine h.of_same (fun _ _ hw => hw) (fun _ hw => hw) (fun j => ?_)
    simp only [countPermitBack, Cluster.setCall, Function.update_apply]
    split_ifs with hj
    · rw [hj]
    · rfl
  unfold Cluster.releaseConnSlot
  split
  · exact h
  rename_i p hp
  have hpool : (s.countPermitBack i).pool = some p := hp
  obtain ⟨-, he⟩ | ⟨q, hq, -, he⟩ | ⟨q, w, ws, hq, hw, he⟩ :=
    releaseConn_cases (s.countPermitBack i) <;> rw [he]
  · exact hback
  · refine hback.of_same (fun _ _ hw => hw) (fun w hw => ?_) (fun _ => rfl)
    simp only [budgetWaiters, setPool] at hw
    simp only [budgetWaiters, hq]
    exact hw
  · have hset : Calm ((s.countPermitBack i).setPool { q with waiters := ws }) := by
      refine hback.of_same (fun _ _ hw => hw) (fun j hj => ?_) (fun _ => rfl)
      simp only [budgetWaiters, setPool] at hj
      simp only [budgetWaiters, hq, hw]
      exact List.mem_cons_of_mem w hj
    have hcount :
        Calm (((s.countPermitBack i).setPool { q with waiters := ws }).countPermit w) := by
      refine hset.of_same (fun _ _ hw => hw) (fun _ hw => hw) (fun j => ?_)
      simp only [countPermit, Cluster.setCall, Function.update_apply]
      split_ifs with hj
      · rw [hj]
      · rfl
    exact hcount.setCall (by simp)

theorem promote (h : Calm s) (a : String) : Calm (s.h2PromoteLocked a) := by
  have hsub : ∀ {w : CallId} {q : List CallId}, s.h2Waiters a = w :: q →
      ∀ b, ∀ j ∈ Function.update s.h2Waiters a q b, j ∈ s.h2Waiters b := by
    intro w q hw b j hj
    rw [Function.update_apply] at hj
    split_ifs at hj with hb
    · rw [hb, hw]
      exact List.mem_cons_of_mem w hj
    · exact hj
  obtain ⟨-, he⟩ | ⟨w, q, k, hw, -, he⟩ | ⟨w, q, s', hw, -, hs', he⟩ | ⟨w, q, -, -, -, he⟩ :=
    h2PromoteLocked_cases s a <;> rw [he]
  · exact h
  · have hq : Calm (((s.addInFlight k 1).addStreamsActive 1).setH2Waiters a q) :=
      h.of_same (hsub hw) (fun _ hj => hj) (fun _ => rfl)
    exact hq.setCall (by simp)
  · have hv := view_tryAcquireConnSlot hs'
    have hq : Calm (s'.setH2Waiters a q) := by
      refine h.of_same (fun b j hj => ?_) (fun j hj => ?_) (fun j => ?_)
      · have hj' : j ∈ Function.update s'.view.h2Waiters a q b := hj
        rw [hv] at hj'
        exact hsub hw b j hj'
      · have hj' : j ∈ s'.view.waiters := hj
        rw [hv] at hj'
        exact hj'
      · exact congrFun (congrArg View.phase hv) j
    exact hq.setCall (by simp)
  · exact h

theorem fail (h : SlotInv s) {i : CallId} {c : Call} (hi : (s.calls i).phase.initiates = true) :
    Calm (s.setCall i c) := by
  have hcalm := of_slotInv h
  constructor
  · intro a w hw
    have hq : (s.calls w).phase = .queued := ((h.accounted.toShape.mem_waiters a w).mp hw).1
    have hwi : w ≠ i := by
      rintro rfl
      rw [hq] at hi
      cases hi
    simp only [Cluster.setCall, Function.update_of_ne hwi]
    exact hcalm.queued a w hw
  · intro w hw
    have hq : (s.calls w).phase = .pending := (h.accounted.toShape.mem_pending w).mp hw
    have hwi : w ≠ i := by
      rintro rfl
      rw [hq] at hi
      cases hi
    simp only [Cluster.setCall, Function.update_of_ne hwi]
    exact hcalm.pending w hw

end Calm

structure SameSlots (s t : Cluster) : Prop where
  waiters : t.h2Waiters = s.h2Waiters
  pool : t.h2Pool = s.h2Pool
  cap : t.h2MaxConcurrentStreams = s.h2MaxConcurrentStreams
  inFlight : ∀ k, (t.pcs k).inFlight = (s.pcs k).inFlight
  live : ∀ k, t.live k = s.live k

namespace SameSlots

theorem noSpare {s t : Cluster} (h : SameSlots s t) {a : String} (ha : NoSpare s a) :
    NoSpare t a := by
  intro k hk hl
  rw [h.pool] at hk
  rw [h.live] at hl
  rw [h.cap, h.inFlight]
  exact ha k hk hl

theorem of_view {s t : Cluster} (hv : t.view = s.view) (hc : t.conns = s.conns) :
    SameSlots s t where
  waiters := congrArg View.h2Waiters hv
  pool := congrArg View.h2Pool hv
  cap := congrArg View.cap hv
  inFlight k := congrFun (congrArg View.inFlight hv) k
  live := live_of_conns hc

theorem releaseConnSlot (s : Cluster) (i : CallId) : SameSlots s (s.releaseConnSlot i) where
  waiters := (congrArg View.h2Waiters (view_releaseConnSlot s i)).trans (h2Waiters_wake _)
  pool := (congrArg View.h2Pool (view_releaseConnSlot s i)).trans (h2Pool_wake _)
  cap := (congrArg View.cap (view_releaseConnSlot s i)).trans (cap_wake _)
  inFlight k := by
    have hv := congrArg View.inFlight (view_releaseConnSlot s i)
    rw [inFlight_wake] at hv
    exact congrFun hv k
  live := live_of_conns (conns_releaseConnSlot s i)

end SameSlots

namespace TakenUp

variable {s t : Cluster} {d : Int}

theorem of_same (h : TakenUp s d) (hp : t.pool = s.pool) (hf : failing t = failing s) :
    TakenUp t d := by
  obtain ⟨p, hs, hle⟩ := h
  exact ⟨p, hp.trans hs, by rw [hf]; exact hle⟩

theorem mono (h : TakenUp s d) {e : Int} (he : d ≤ e) : TakenUp s e := by
  obtain ⟨p, hp, hle⟩ := h
  exact ⟨p, hp, by omega⟩

theorem tryAcquireConnSlot (h : TakenUp s d) {i : CallId} {s' : Cluster}
    (hs' : s.tryAcquireConnSlot i = some s') : TakenUp s' (d - 1) := by
  obtain ⟨p, hp, hle⟩ := h
  obtain ⟨hn, -⟩ | ⟨q, hq, -, he⟩ | ⟨q, -, -, he⟩ := tryAcquireConnSlot_cases s i
  · rw [hp] at hn
    cases hn
  · obtain rfl : p = q := Option.some.inj (hp.symm.trans hq)
    rw [he] at hs'
    obtain rfl := Option.some.inj hs'
    refine ⟨{ p with activeConns := p.activeConns + 1 }, rfl, ?_⟩
    have hf : failing ((s.setPool { p with activeConns := p.activeConns + 1 }).countPermit i) =
        failing s := by
      refine failing_of_phases rfl (fun j => ?_)
      simp only [countPermit, setCall, setPool, Function.update_apply]
      split_ifs with hj
      · rw [hj]
      · exact Iff.rfl
    rw [hf]
    dsimp only
    omega
  · rw [he] at hs'
    cases hs'

theorem of_none {i : CallId} (h : s.tryAcquireConnSlot i = none) : TakenUp s 0 := by
  obtain ⟨-, he⟩ | ⟨p, -, -, he⟩ | ⟨p, hp, hle, -⟩ := tryAcquireConnSlot_cases s i
  · rw [he] at h
    cases h
  · rw [he] at h
    cases h
  · have := failing_nonneg s
    exact ⟨p, hp, by omega⟩

theorem releaseConnSlot (h : TakenUp s d) (hc : Calm s) (i : CallId) :
    TakenUp (s.releaseConnSlot i) (d + 1) ∧
    (s.budgetWaiters ≠ [] → TakenUp (s.releaseConnSlot i) d) := by
  obtain ⟨p, hp, hle⟩ := h
  have hback : failing (s.countPermitBack i) = failing s := failing_setCall Iff.rfl
  have hpool : (s.countPermitBack i).pool = some p := hp
  simp only [Cluster.releaseConnSlot, hp]
  obtain ⟨hn, -⟩ | ⟨q, hq, hw, he⟩ | ⟨q, w, ws, hq, hw, he⟩ :=
    releaseConn_cases (s.countPermitBack i)
  · rw [hpool] at hn
    cases hn
  · obtain rfl : p = q := Option.some.inj (hpool.symm.trans hq)
    rw [he]
    refine ⟨⟨_, rfl, ?_⟩, fun hne => ?_⟩
    · have hf : failing ((s.countPermitBack i).setPool
          { p with activeConns := p.activeConns - 1 }) = failing s := hback
      rw [hf]
      dsimp only
      omega
    · refine absurd ?_ hne
      simp only [budgetWaiters, hp, hw]
  · obtain rfl : p = q := Option.some.inj (hpool.symm.trans hq)
    have hmem : w ∈ s.budgetWaiters := by
      simp only [budgetWaiters, hp, hw]
      exact List.mem_cons_self
    have hwake : failing ((((s.countPermitBack i).setPool
        { p with waiters := ws }).countPermit w).setPhase w .handed) = failing s := by
      rw [failing_setPhase _ (by simp)]
      · have hcount : failing (((s.countPermitBack i).setPool
            { p with waiters := ws }).countPermit w) =
              failing ((s.countPermitBack i).setPool { p with waiters := ws }) :=
          failing_setCall Iff.rfl
        exact hcount.trans hback
      · have := hc.pending w hmem
        simp only [countPermit, countPermitBack, setPool, setCall, Function.update_self,
          Function.update_apply]
        split_ifs with hwi
        · rw [← hwi]
          exact this
        · exact this
    rw [he]
    refine ⟨⟨_, rfl, ?_⟩, fun _ => ⟨_, rfl, ?_⟩⟩
    · rw [hwake]
      dsimp only
      omega
    · rw [hwake]
      exact hle

end TakenUp

structure Served (s : Cluster) : Prop where
  spare : ∀ a, s.h2Waiters a ≠ [] → NoSpare s a
  full : ∀ a, s.h2Waiters a ≠ [] → TakenUp s 0

theorem noSpare_of_no_hit {s : Cluster} {a : String} (h : s.findStreamHitLocked a = none) :
    NoSpare s a := by
  intro k hk hl
  have hno := List.find?_eq_none.mp h k hk
  simp only [Bool.and_eq_true, decide_eq_true_eq, not_and, not_lt] at hno
  exact hno hl

theorem no_hit_of_noSpare {s : Cluster} {a : String} (h : NoSpare s a) :
    s.findStreamHitLocked a = none := by
  apply List.find?_eq_none.mpr
  intro k hk
  simp only [Bool.and_eq_true, decide_eq_true_eq, not_and, not_lt]
  exact h k hk

structure SameCalls (s t : Cluster) : Prop where
  waiters : t.h2Waiters = s.h2Waiters
  budget : t.pool = s.pool
  next : t.next = s.next
  phase : ∀ i, (t.calls i).phase = (s.calls i).phase

namespace SameCalls

variable {s t : Cluster}

theorem failing_eq (h : SameCalls s t) : failing t = failing s :=
  failing_of_phases h.next (fun i => by rw [h.phase])

theorem calm (h : SameCalls s t) (hc : Calm s) : Calm t := by
  refine hc.of_same (fun a w hw => ?_) (fun w hw => ?_) h.phase
  · rw [h.waiters] at hw
    exact hw
  · rw [budgetWaiters, h.budget] at hw
    exact hw

theorem takenUp (h : SameCalls s t) {d : Int} (ht : TakenUp s d) : TakenUp t d :=
  ht.of_same h.budget h.failing_eq

theorem passes (h : SameCalls s t) {w : Option String} (hp : Passes s w) : Passes t w := by
  have hb : t.budgetWaiters = s.budgetWaiters := by rw [budgetWaiters, budgetWaiters, h.budget]
  unfold Passes
  rw [hb, h.waiters]
  exact hp.imp_right (Or.imp_right (Or.imp_right h.takenUp))

theorem lbRelease (s : Cluster) (i : CallId) : SameCalls s (s.lbRelease i) where
  waiters := rfl
  budget := rfl
  next := rfl
  phase j := by
    simp only [Cluster.lbRelease, setCall, Function.update_apply]
    split_ifs with hj
    · rw [hj]
    · rfl

theorem setConn (s : Cluster) (k : CallId) (c : Conn) : SameCalls s (s.setConn k c) :=
  ⟨rfl, rfl, rfl, fun _ => rfl⟩

theorem trans {u : Cluster} (h : SameCalls s t) (h' : SameCalls t u) : SameCalls s u where
  waiters := h'.waiters.trans h.waiters
  budget := h'.budget.trans h.budget
  next := h'.next.trans h.next
  phase i := (h'.phase i).trans (h.phase i)

end SameCalls

namespace Served

variable {s t : Cluster}

theorem noStranded (h : Served s) (hq : ∀ i, (s.calls i).phase ≠ .dialFailed) :
    NoStrandedWaiter s := by
  intro a ha
  obtain ⟨p, hp, hle⟩ := h.full a ha
  refine ⟨h.spare a ha, p, hp, ?_⟩
  have hzero : failing s = 0 := by
    unfold failing
    have hnone : ∀ i < s.next, (if (s.calls i).phase = .dialFailed then (1 : Int) else 0) = 0 :=
      fun i _ => if_neg (hq i)
    rw [tally_congr hnone]
    exact Finset.sum_const_zero
  omega

theorem of_le (h : Served s) (hw : ∀ a, t.h2Waiters a ≠ [] → s.h2Waiters a ≠ [])
    (hs : ∀ a, NoSpare s a → NoSpare t a) (hf : TakenUp s 0 → TakenUp t 0) : Served t where
  spare a ha := hs a (h.spare a (hw a ha))
  full a ha := hf (h.full a (hw a ha))

theorem of_same (h : Served s) (hst : SameSlots s t) (hp : t.pool = s.pool)
    (hf : failing t = failing s) : Served t := by
  apply h.of_le
  · intro a ha
    rw [hst.waiters] at ha
    exact ha
  · exact fun a ha => hst.noSpare ha
  · exact fun ht => ht.of_same hp hf

variable {i k : CallId} {a : String}

theorem tryAcquireConnSlot (h : Served s) {s' : Cluster} (hs' : s.tryAcquireConnSlot i = some s') :
    Served s' := by
  have hst := SameSlots.of_view (view_tryAcquireConnSlot hs') (conns_tryAcquireConnSlot hs')
  apply h.of_le
  · intro a ha
    rw [hst.waiters] at ha
    exact ha
  · exact fun a ha => hst.noSpare ha
  · exact fun ht => (ht.tryAcquireConnSlot hs').mono (by omega)

theorem grant_slot (hc : Calm s) {w : CallId} {q : List CallId} (hq : s.h2Waiters a = w :: q)
    (hk : k ∈ s.h2Pool a)
    (hspare : ∀ b, s.h2Waiters b ≠ [] → ∀ j ∈ s.h2Pool b, s.live j = true → j ≠ k →
      s.h2MaxConcurrentStreams ≤ (s.pcs j).inFlight) (hlast : ∀ b, k ∈ s.h2Pool b → b = a)
    (hroom : s.h2MaxConcurrentStreams ≤ (s.pcs k).inFlight + 1 ∨ q = []) (hfull : TakenUp s 0) :
    Served ((((s.addInFlight k 1).addStreamsActive 1).setH2Waiters a q).setPhase w
      (.granted (some k))) := by
  have hne : ∀ b, Function.update s.h2Waiters a q b ≠ [] → s.h2Waiters b ≠ [] := by
    intro b hb
    rw [Function.update_apply] at hb
    split_ifs at hb with hba
    · rw [hba, hq]
      simp
    · exact hb
  have hw : (s.calls w).phase ≠ .dialFailed := by
    apply hc.queued a w
    rw [hq]
    exact List.mem_cons_self
  constructor
  · intro b hb j hj hl
    change s.h2MaxConcurrentStreams ≤ (Function.update s.pcs k _ j).inFlight
    rw [Function.update_apply]
    split_ifs with hjk
    · obtain rfl : b = a := hlast b (hjk ▸ hj)
      rcases hroom with hroom | hroom
      · exact hroom
      · have hb' : Function.update s.h2Waiters b q b ≠ [] := hb
        rw [Function.update_self] at hb'
        exact absurd hroom hb'
    · exact hspare b (hne b hb) j hj hl hjk
  · intro b _
    exact hfull.of_same rfl (failing_setPhase hw (by simp))

theorem grant_permit (hc : Calm s) {w : CallId} {q : List CallId} {s' : Cluster}
    (hq : s.h2Waiters a = w :: q) (hs' : s.tryAcquireConnSlot w = some s')
    (hspare : ∀ b, s.h2Waiters b ≠ [] → NoSpare s b) (hfull : TakenUp s 1) :
    Served ((s'.setH2Waiters a q).setPhase w (.granted none)) := by
  have hst := SameSlots.of_view (view_tryAcquireConnSlot hs') (conns_tryAcquireConnSlot hs')
  have hphase : (s'.calls w).phase = (s.calls w).phase :=
    congrFun (congrArg View.phase (view_tryAcquireConnSlot hs')) w
  have hw : (s'.calls w).phase ≠ .dialFailed := by
    rw [hphase]
    apply hc.queued a w
    rw [hq]
    exact List.mem_cons_self
  constructor
  · intro b hb
    have hb' : Function.update s'.h2Waiters a q b ≠ [] := hb
    rw [hst.waiters, Function.update_apply] at hb'
    have hne : s.h2Waiters b ≠ [] := by
      split_ifs at hb' with hba
      · rw [hba, hq]
        simp
      · exact hb'
    exact hst.noSpare (hspare b hne)
  · intro b _
    have htaken : TakenUp s' 0 := (hfull.tryAcquireConnSlot hs').mono (by omega)
    exact htaken.of_same rfl (failing_setPhase hw (by simp))

theorem promote_slot (hc : Calm s)
    (hspare : ∀ b, s.h2Waiters b ≠ [] → ∀ j ∈ s.h2Pool b, s.live j = true → j ≠ k →
      s.h2MaxConcurrentStreams ≤ (s.pcs j).inFlight) (hk : ∀ b, k ∈ s.h2Pool b → b = a)
    (hroom : k ∈ s.h2Pool a → s.live k = true →
      s.h2MaxConcurrentStreams ≤ (s.pcs k).inFlight + 1 ∨ (s.h2Waiters a).length ≤ 1)
    (hfull : ∀ b, s.h2Waiters b ≠ [] → TakenUp s 0) : Served (s.h2PromoteLocked a) := by
  have hall : (s.h2Waiters a ≠ [] → NoSpare s a) → ∀ b, s.h2Waiters b ≠ [] → NoSpare s b := by
    intro hkept b hb j hj hl
    rcases eq_or_ne j k with rfl | hjk
    · obtain rfl := hk b hj
      exact hkept hb j hj hl
    · exact hspare b hb j hj hl hjk
  obtain ⟨hw, he⟩ | ⟨w, q, j, hw, hj, he⟩ | ⟨w, q, s', hw, hno, hs', he⟩ |
      ⟨w, q, hw, hno, -, he⟩ := h2PromoteLocked_cases s a <;> rw [he]
  · exact ⟨hall (fun hne => absurd hw hne), hfull⟩
  · have hne : s.h2Waiters a ≠ [] := by
      rw [hw]
      simp
    obtain ⟨hmem, hlive, hlt⟩ := mem_of_findStreamHitLocked hj
    -- nobody else has a free slot
    obtain rfl : j = k := by
      by_contra hjk
      have := hspare a hne j hmem hlive hjk
      omega
    apply grant_slot hc hw hmem hspare hk _ (hfull a hne)
    refine (hroom hmem hlive).imp_right (fun hlen => ?_)
    rw [hw] at hlen
    exact List.length_eq_zero_iff.mp (by simp only [List.length_cons] at hlen; omega)
  · have hne : s.h2Waiters a ≠ [] := by
      rw [hw]
      simp
    exact grant_permit hc hw hs' (hall (fun _ => noSpare_of_no_hit hno))
      ((hfull a hne).mono (by omega))
  · exact ⟨hall (fun _ => noSpare_of_no_hit hno), hfull⟩

theorem promote_permit (hc : Calm s) (hspare : ∀ b, s.h2Waiters b ≠ [] → NoSpare s b)
    (hfull : ∀ b, s.h2Waiters b ≠ [] → TakenUp s 0 ∨ TakenUp s 1 ∧ s.h2Waiters a ≠ []) :
    Served (s.h2PromoteLocked a) := by
  obtain ⟨hw, he⟩ | ⟨w, q, j, hw, hj, he⟩ | ⟨w, q, s', hw, hno, hs', he⟩ |
      ⟨w, q, hw, hno, hnone, he⟩ := h2PromoteLocked_cases s a <;> rw [he]
  · refine ⟨hspare, fun b hb => ?_⟩
    rcases hfull b hb with hf | hf
    · exact hf
    · exact absurd hw hf.2
  · have hne : s.h2Waiters a ≠ [] := by
      rw [hw]
      simp
    rw [no_hit_of_noSpare (hspare a hne)] at hj
    cases hj
  · have hne : s.h2Waiters a ≠ [] := by
      rw [hw]
      simp
    apply grant_permit hc hw hs' hspare
    rcases hfull a hne with hf | hf
    · exact hf.mono (by omega)
    · exact hf.1
  · exact ⟨hspare, fun _ _ => TakenUp.of_none hnone⟩

section

variable (h : Served s)

include h

theorem promote (hc : Calm s) (a : String) : Served (s.h2PromoteLocked a) :=
  promote_permit hc h.spare (fun b hb => .inl (h.full b hb))

theorem releaseConnSlot (hc : Calm s) (hp : Passes s none) (i : CallId) :
    Served (s.releaseConnSlot i) := by
  have hst := SameSlots.releaseConnSlot s i
  constructor
  · intro b hb
    rw [hst.waiters] at hb
    exact hst.noSpare (h.spare b hb)
  · intro b hb
    rw [hst.waiters] at hb
    have hfull := (h.full b hb).releaseConnSlot hc i
    rcases hp with hp | ⟨a, ha, -⟩ | hp | hp
    · exact hfull.2 hp
    · cases ha
    · exact absurd (hp b) hb
    · exact (hp.releaseConnSlot hc i).1

theorem releaseConnSlot_promote (hc : Calm s) (hp : Passes s (some a)) (i : CallId) :
    Served ((s.releaseConnSlot i).h2PromoteLocked a) := by
  have hst := SameSlots.releaseConnSlot s i
  apply promote_permit (hc.releaseConnSlot i)
  · intro b hb
    rw [hst.waiters] at hb
    exact hst.noSpare (h.spare b hb)
  · intro b hb
    rw [hst.waiters] at hb ⊢
    have hfull := (h.full b hb).releaseConnSlot hc i
    rcases hp with hp | ⟨c, he, ha⟩ | hp | hp
    · exact .inl (hfull.2 hp)
    · obtain rfl := Option.some.inj he
      exact .inr ⟨hfull.1, ha⟩
    · exact absurd (hp b) hb
    · exact .inl (hp.releaseConnSlot hc i).1

theorem of_fewer (hst : SameCalls s t)
    (hcap : t.h2MaxConcurrentStreams = s.h2MaxConcurrentStreams)
    (hpool : ∀ a, ∀ k ∈ t.h2Pool a, k ∈ s.h2Pool a) (hl : ∀ k, t.live k = true → s.live k = true)
    (hf : t.pcs = s.pcs) : Served t := by
  apply h.of_le
  · intro a ha
    rw [hst.waiters] at ha
    exact ha
  · intro a ha k hk hlive
    rw [hcap, hf]
    exact ha k (hpool a k hk) (hl k hlive)
  · exact hst.takenUp

theorem setConn {c : Conn} (hl : (!c.closed && !c.goneAway) = true → s.live k = true) :
    Served (s.setConn k c) := by
  refine h.of_fewer (SameCalls.setConn s k c) rfl (fun _ _ hj => hj) (fun j hlive => ?_) rfl
  simp only [live, Cluster.setConn, Function.update_apply] at hlive
  split_ifs at hlive with hjk
  · rw [hjk]
    exact hl hlive
  · exact hlive

theorem spent (k : CallId) : Served ((s.setConn k { s.conns k with once := true }).lbRelease k) ∧
    SameCalls s ((s.setConn k { s.conns k with once := true }).lbRelease k) := by
  have hset : Served (s.setConn k { s.conns k with once := true }) := h.setConn (fun hl => hl)
  refine ⟨?_, (SameCalls.setConn s k _).trans (SameCalls.lbRelease _ k)⟩
  exact hset.of_fewer (SameCalls.lbRelease _ k) rfl (fun _ _ hj => hj) (fun _ hl => hl) rfl

theorem closeConn (hc : Calm s) (hp : (s.conns k).once = false → Passes s none) :
    Served (s.closeConn k) := by
  unfold Cluster.closeConn
  split_ifs with ho
  · exact h
  · obtain ⟨hs, hst⟩ := h.spent k
    apply hs.releaseConnSlot (hst.calm hc)
    exact hst.passes (hp (by simpa using ho))

theorem closeConn_promote (hc : Calm s) (hp : (s.conns k).once = false → Passes s (some a)) :
    Served ((s.closeConn k).h2PromoteLocked a) := by
  unfold Cluster.closeConn
  split_ifs with ho
  · exact h.promote hc a
  · obtain ⟨hs, hst⟩ := h.spent k
    apply hs.releaseConnSlot_promote (hst.calm hc)
    exact hst.passes (hp (by simpa using ho))

theorem evict_promote (hc : Calm s) (hp : (s.conns k).once = false → Passes s (some a)) :
    Served ((s.evictH2ConnLocked a k).h2PromoteLocked a) := by
  have hout : SameCalls s (s.setH2Pool a ((s.h2Pool a).erase k)) :=
    ⟨rfl, rfl, rfl, fun _ => rfl⟩
  have hpool : Served (s.setH2Pool a ((s.h2Pool a).erase k)) :=
    h.of_fewer hout rfl (fun _ _ hj => Drained.mem_erase_h2Pool hj) (fun _ hl => hl) rfl
  have hdead : Served ((s.setH2Pool a ((s.h2Pool a).erase k)).setConn k
      { s.conns k with closed := true }) := hpool.setConn (fun hl => by simp at hl)
  have hst : SameCalls s ((s.setH2Pool a ((s.h2Pool a).erase k)).setConn k
      { s.conns k with closed := true }) := hout.trans (SameCalls.setConn _ k _)
  apply hdead.closeConn_promote (hst.calm hc)
  intro ho
  simp only [Cluster.setConn, Function.update_self] at ho
  exact hst.passes (hp ho)

theorem setCall {c : Call} (hi : (s.calls i).phase ≠ .dialFailed) (hc : c.phase ≠ .dialFailed) :
    Served (s.setCall i c) :=
  h.of_same ⟨rfl, rfl, rfl, fun _ => rfl, fun _ => rfl⟩ rfl
    (failing_setCall ⟨fun h => absurd h hc, fun h => absurd h hi⟩)

theorem giveUp (hi : (s.calls i).phase ≠ .dialFailed) : Served (s.giveUp i) :=
  h.of_same ⟨rfl, rfl, rfl, fun _ => rfl, fun _ => rfl⟩ rfl (failing_giveUp hi)

theorem fail {c : Call} (hi : i < s.next) (hold : (s.calls i).phase ≠ .dialFailed)
    (hc : c.phase = .dialFailed) (w : Option String) :
    Served (s.setCall i c) ∧ Passes (s.setCall i c) w := by
  have hmove : failing (s.setCall i c) = failing s + 1 := by
    rw [failing_move hi, if_pos hc, if_neg hold]
    omega
  have htaken : TakenUp s 0 → TakenUp (s.setCall i c) (-1) := by
    rintro ⟨p, hp, hle⟩
    exact ⟨p, hp, by rw [hmove]; omega⟩
  constructor
  · exact h.of_le (fun _ ha => ha) (fun _ ha => ha) (fun ht => (htaken ht).mono (by omega))
  · by_cases hall : ∀ b, s.h2Waiters b = []
    · exact .inr (.inr (.inl hall))
    · obtain ⟨b, hb⟩ := not_forall.mp hall
      exact .inr (.inr (.inr (htaken (h.full b hb))))

theorem pick (hs : SlotInv s) (api : API) (a : String) : Served (H2Pool.step s (.pick api a)) := by
  have hidle : (s.calls s.next).phase = .idle := hs.accounted.fresh s.next le_rfl
  refine h.of_same ⟨rfl, rfl, rfl, fun _ => rfl, fun _ => rfl⟩ rfl ?_
  have hold : ∀ j < s.next, (if ((H2Pool.step s (.pick api a)).calls j).phase = .dialFailed
      then (1 : Int) else 0) = if (s.calls j).phase = .dialFailed then 1 else 0 := by
    intro j hj
    simp only [H2Pool.step, Cluster.setCall, Function.update_of_ne (ne_of_lt hj)]
  have hnew : ((H2Pool.step s (.pick api a)).calls s.next).phase ≠ .dialFailed := by
    simp only [H2Pool.step, Cluster.setCall, Function.update_self]
    simp
  calc failing (H2Pool.step s (.pick api a))
      = tally s.next _ + _ := tally_succ s.next _
    _ = failing s + 0 := by rw [tally_congr hold, if_neg hnew, failing]
    _ = failing s := Int.add_zero _

theorem acquireH2Stream (hi : (s.calls i).phase = .picked) : Served (acquireH2Stream s i) := by
  have hold : (s.calls i).phase ≠ .dialFailed := by
    rw [hi]
    simp
  obtain ⟨k, -, he⟩ | ⟨k, -, -, he⟩ | ⟨s', -, hs', he⟩ | ⟨-, he⟩ | ⟨p, hno, hp, hle, he⟩ :=
    acquireH2Stream_cases s i <;> rw [he]
  · have hride : Served ((s.addInFlight k 1).addStreamsActive 1) := by
      apply h.of_le
      · exact fun _ ha => ha
      · intro a ha j hj hl
        have hle := ha j hj hl
        simp only [addStreamsActive, addInFlight, setPooled, Function.update_apply]
        split_ifs with hjk
        · rw [← hjk]
          dsimp only
          omega
        · exact hle
      · exact fun ht => ht.of_same rfl (failing_of_calls rfl rfl)
    rw [setPhase_lbRelease]
    exact hride.setCall hold (by simp)
  · have hride : Served ((s.addPromised k 1).addStreamsActive 1) :=
      h.of_same ⟨rfl, rfl, rfl, fun _ => rfl, fun _ => rfl⟩ rfl (failing_of_calls rfl rfl)
    rw [setPhase_lbRelease]
    exact hride.setCall hold (by simp)
  · have hs := h.tryAcquireConnSlot hs'
    have hphase : (s'.calls i).phase = (s.calls i).phase :=
      congrFun (congrArg View.phase (view_tryAcquireConnSlot hs')) i
    refine hs.of_same ⟨rfl, rfl, rfl, fun _ => rfl, fun _ => rfl⟩ rfl ?_
    exact failing_setPhase (s := ((s'.setH2Connecting _ _).setConnecting i _).addStreamsActive 1)
      (by rw [← hphase] at hold; exact hold) (by simp)
  · exact h.giveUp hold
  · have hfull : TakenUp s 0 := by
      have := failing_nonneg s
      exact ⟨p, hp, by omega⟩
    have hsame : ∀ a, NoSpare s a → NoSpare ((s.setH2Waiters (s.calls i).addr
        (s.h2Waiters (s.calls i).addr ++ [i])).setPhase i .queued) a := fun _ ha => ha
    constructor
    · intro a ha
      apply hsame
      have ha' : Function.update s.h2Waiters (s.calls i).addr
          (s.h2Waiters (s.calls i).addr ++ [i]) a ≠ [] := ha
      rw [Function.update_apply] at ha'
      split_ifs at ha' with hai
      · rw [hai]
        exact noSpare_of_no_hit hno
      · exact h.spare a ha'
    · intro a _
      exact hfull.of_same rfl (failing_setPhase hold (by simp))

end

theorem passes_promote (hno : s.h2Waiters a ≠ [] → NoSpare s a)
    (hfull : s.h2Waiters a ≠ [] → TakenUp s 0) (hc : Calm s) (hp : Passes s (some a)) :
    Passes (s.h2PromoteLocked a) (some a) := by
  obtain ⟨-, he⟩ | ⟨w, q, k, hw, hk, he⟩ | ⟨w, q, s', hw, -, hs', he⟩ | ⟨w, q, -, -, -, he⟩ :=
    h2PromoteLocked_cases s a <;> rw [he]
  · exact hp
  · rw [no_hit_of_noSpare (hno (by rw [hw]; simp))] at hk
    cases hk
  · have hwait : s.h2Waiters a ≠ [] := by
      rw [hw]
      simp
    have hphase : (s'.calls w).phase = (s.calls w).phase :=
      congrFun (congrArg View.phase (view_tryAcquireConnSlot hs')) w
    have hqueued := hc.queued a w (by rw [hw]; exact List.mem_cons_self)
    have htaken : TakenUp s' (-1) := (hfull hwait).tryAcquireConnSlot hs'
    refine .inr (.inr (.inr (htaken.of_same rfl (failing_setPhase ?_ (by simp)))))
    change (s'.calls w).phase ≠ _
    rw [hphase]
    exact hqueued
  · exact hp

section

variable (h : Served s)

include h

theorem dropSlot (hs : SlotInv s) {c : Call} (hi : slotOf i (s.calls i).phase = some k)
    (hold : (s.calls i).phase ≠ .dialFailed) (hc : c.phase ≠ .dialFailed) :
    Served ((((s.addInFlight k (-1)).addStreamsActive (-1)).setCall i c).h2PromoteLocked
      (s.calls i).addr) := by
  have haddr : ∀ b, k ∈ s.h2Pool b → b = (s.calls i).addr := by
    intro b hb
    rw [← (hs.accounted.pooled b k hb).1]
    exact hs.accounted.slot_addr i k hi
  have hcalm : Calm (((s.addInFlight k (-1)).addStreamsActive (-1)).setCall i c) := by
    have hq : Calm ((s.addInFlight k (-1)).addStreamsActive (-1)) :=
      (Calm.of_slotInv hs).of_same (fun _ _ hw => hw) (fun _ hw => hw) (fun _ => rfl)
    exact hq.setCall hc
  apply promote_slot (k := k) hcalm
  · intro b hb j hj hl hjk
    simp only [Cluster.setCall, addStreamsActive, addInFlight, setPooled,
      Function.update_of_ne hjk]
    exact h.spare b hb j hj hl
  · exact haddr
  · intro hmem hl
    by_cases hw : s.h2Waiters (s.calls i).addr = []
    · refine .inr ?_
      have hlen : (s.h2Waiters (s.calls i).addr).length = 0 := by rw [hw]; rfl
      exact hlen.le.trans (Nat.zero_le 1)
    · have hle := h.spare _ hw k hmem hl
      simp only [Cluster.setCall, addStreamsActive, addInFlight, setPooled, Function.update_self]
      exact .inl (by omega)
  · intro b hb
    refine (h.full b hb).of_same rfl ?_
    exact failing_setCall ⟨fun h => absurd h hc, fun h => absurd h hold⟩

theorem releaseStream (hs : SlotInv s) (hi : (s.calls i).phase = .riding k)
    (hok : wakesWaiters s (.release i)) : Served (releaseStream s i k) := by
  have hold : (s.calls i).phase ≠ .dialFailed := by
    rw [hi]
    simp
  have hslot : slotOf i (s.calls i).phase = some k := by
    rw [hi]
    rfl
  have hdrop := h.dropSlot (c := { s.calls i with phase := .returned }) hs hslot hold (by simp)
  have hcalm : Calm (((s.addInFlight k (-1)).addStreamsActive (-1)).setPhase i .returned) := by
    have hq : Calm ((s.addInFlight k (-1)).addStreamsActive (-1)) :=
      (Calm.of_slotInv hs).of_same (fun _ _ hw => hw) (fun _ hw => hw) (fun _ => rfl)
    exact hq.setCall (by simp)
  simp only [H2Pool.releaseStream]
  split_ifs with hcond
  · apply evict_promote hdrop (hcalm.promote _)
    intro honce
    simp only [Bool.and_eq_true, Bool.not_eq_true', decide_eq_true_eq] at hcond
    obtain ⟨hdead, hzero⟩ := hcond
    rw [live_of_conns (conns_h2PromoteLocked _ _)] at hdead
    rw [inFlight_h2PromoteLocked_of_dead _ _ hdead] at hzero
    rw [conns_h2PromoteLocked] at honce
    have hone : (s.pcs k).inFlight = 1 := by
      simp only [Cluster.setPhase, Cluster.setCall, addStreamsActive, addInFlight, setPooled,
        Function.update_self] at hzero
      omega
    have hpass := hok k hi hdead hone honce
    -- the first promotion finds no slot: the one that was dropped is on a dead connection
    apply passes_promote _ _ hcalm
    · have hf : failing (((s.addInFlight k (-1)).addStreamsActive (-1)).setPhase i .returned) =
          failing s := failing_setPhase hold (by simp)
      exact hpass.imp_right (Or.imp_right (Or.imp_right (fun ht => ht.of_same rfl hf)))
    · intro hw j hj hl
      have hjk : j ≠ k := by
        rintro rfl
        rw [hdead] at hl
        cases hl
      simp only [Cluster.setPhase, Cluster.setCall, addStreamsActive, addInFlight, setPooled,
        Function.update_of_ne hjk]
      exact h.spare _ hw j hj hl
    · intro hw
      exact (h.full _ hw).of_same rfl (failing_setPhase hold (by simp))
  · exact hdrop

theorem giveBackGrant (hs : SlotInv s) {cc : Option CallId} (hi : (s.calls i).phase = .granted cc)
    (hok : wakesWaiters s (.cancelQueued i)) : Served (giveBackGrant s i cc) := by
  have hold : (s.calls i).phase ≠ .dialFailed := by
    rw [hi]
    simp
  have hcalm := Calm.of_slotInv hs
  cases cc with
  | none =>
    apply (h.giveUp hold).releaseConnSlot_promote (hcalm.giveUp i)
    have hpass := hok hi
    exact hpass.imp_right (Or.imp_right (Or.imp_right
      (fun ht => ht.of_same rfl (failing_giveUp hold))))
  | some k =>
    simp only [H2Pool.giveBackGrant]
    split_ifs with hk
    · rw [Cluster.giveUp, setPhase_lbRelease]
      exact h.dropSlot hs (by rw [hi]; rfl) hold (by simp)
    · have ht : Served (s.addStreamsActive (-1)) :=
        h.of_same ⟨rfl, rfl, rfl, fun _ => rfl, fun _ => rfl⟩ rfl (failing_of_calls rfl rfl)
      have hc : Calm (s.addStreamsActive (-1)) :=
        hcalm.of_same (fun _ _ hw => hw) (fun _ hw => hw) (fun _ => rfl)
      exact (ht.giveUp hold).promote (hc.giveUp i) _

theorem failConnecting (hs : SlotInv s) (hi : (s.calls i).phase = .dialFailed)
    (hok : wakesWaiters s (.failConnecting i)) : Served (failConnecting s i) := by
  have hlt : i < s.next := hs.accounted.not_idle_lt (i := i) (by
    change (s.calls i).phase ≠ _
    rw [hi]
    simp)
  generalize ht : (((s.removeConnectingLocked (s.calls i).addr i).setConnecting i
    { s.cns i with ready := some .failed }).addStreamsActive (-(s.cns i).promised)).setPhase i
      .returned = t
  have hsame : SameSlots s t := by
    rw [← ht]
    exact ⟨rfl, rfl, rfl, fun _ => rfl, fun _ => rfl⟩
  have hpool : t.pool = s.pool := by
    rw [← ht]
    rfl
  have hfail : failing t = failing s - 1 := by
    have hmove := failing_move (c := { s.calls i with phase := .returned }) hlt
    rw [if_neg (by simp), if_pos hi] at hmove
    rw [← ht]
    exact hmove.trans (by omega)
  have hshift : ∀ d, TakenUp s d → TakenUp t (d + 1) := by
    rintro d ⟨p, hp, hle⟩
    exact ⟨p, hpool.trans hp, by rw [hfail]; omega⟩
  have hcalm : Calm t := by
    have hq : Calm (((s.removeConnectingLocked (s.calls i).addr i).setConnecting i
        { s.cns i with ready := some .failed }).addStreamsActive (-(s.cns i).promised)) :=
      (Calm.of_slotInv hs).of_same (fun _ _ hw => hw) (fun _ hw => hw) (fun _ => rfl)
    rw [← ht]
    exact hq.setCall (by simp)
  simp only [H2Pool.failConnecting, ht]
  apply promote_permit hcalm
  · intro b hb
    rw [hsame.waiters] at hb
    exact hsame.noSpare (h.spare b hb)
  · intro b hb
    rw [hsame.waiters] at hb ⊢
    rcases hok hi with hw | hw | hw
    · exact .inr ⟨hshift 0 (h.full b hb), hw⟩
    · exact absurd (hw b) hb
    · exact .inl (hshift (-1) hw)

theorem poolConnecting (hs : SlotInv s) (hi : (s.calls i).phase = .shaking)
    (hok : wakesWaiters s (.poolConnecting i)) : Served (poolConnecting s i) := by
  have hnew : ∀ b, i ∉ s.h2Pool b := by
    intro b hb
    have hready := (hs.accounted.pooled b i hb).2
    have hinit := (hs.accounted.ready i (by rw [hready]; simp)).1
    have hphase : s.view.phase i = .shaking := hi
    rw [hphase] at hinit
    cases hinit
  generalize ht : (((((s.removeConnectingLocked (s.calls i).addr i).setPooled i
    { inFlight := (s.cns i).promised }).setH2Pool (s.calls i).addr
    (s.h2Pool (s.calls i).addr ++ [i])).setConn i
    { s.conns i with watcher := .running }).setConnecting i
    { s.cns i with ready := some .established }).setPhase i (.riding i) = t
  have hpool : ∀ b, ∀ j ∈ t.h2Pool b, j ∈ s.h2Pool b ∨ j = i ∧ b = (s.calls i).addr := by
    intro b j hj
    rw [← ht] at hj
    simp only [Cluster.setPhase, Cluster.setCall, setConnecting, Cluster.setConn, setH2Pool,
      setPooled, removeConnectingLocked, setH2Connecting, Function.update_apply] at hj
    split_ifs at hj with hb
    · rw [hb]
      exact (List.mem_append.mp hj).imp_right (fun hj => ⟨List.mem_singleton.mp hj, rfl⟩)
    · exact .inl hj
  have hcount : ∀ j, j ≠ i → (t.pcs j).inFlight = (s.pcs j).inFlight := by
    intro j hj
    rw [← ht]
    simp only [Cluster.setPhase, Cluster.setCall, setConnecting, Cluster.setConn, setH2Pool,
      setPooled, removeConnectingLocked, setH2Connecting, Function.update_of_ne hj]
  have hown : (t.pcs i).inFlight = (s.cns i).promised := by
    rw [← ht]
    simp only [Cluster.setPhase, Cluster.setCall, setConnecting, Cluster.setConn, setH2Pool,
      setPooled, removeConnectingLocked, setH2Connecting, Function.update_self]
  have hlive : ∀ j, t.live j = s.live j := by
    intro j
    rw [← ht]
    simp only [live, Cluster.setPhase, Cluster.setCall, setConnecting, Cluster.setConn, setH2Pool,
      setPooled, removeConnectingLocked, setH2Connecting, Function.update_apply]
    split_ifs with hj
    · rw [hj]
    · rfl
  have hwait : t.h2Waiters = s.h2Waiters := by
    rw [← ht]
    rfl
  have hcap : t.h2MaxConcurrentStreams = s.h2MaxConcurrentStreams := by
    rw [← ht]
    rfl
  have hfail : failing t = failing s := by
    rw [← ht]
    refine (failing_setPhase ?_ (by simp)).trans (failing_of_calls rfl rfl)
    change (s.calls i).phase ≠ _
    rw [hi]
    simp
  have hcalm : Calm t := by
    have hq : Calm (((((s.removeConnectingLocked (s.calls i).addr i).setPooled i
        { inFlight := (s.cns i).promised }).setH2Pool (s.calls i).addr
        (s.h2Pool (s.calls i).addr ++ [i])).setConn i
        { s.conns i with watcher := .running }).setConnecting i
        { s.cns i with ready := some .established }) :=
      (Calm.of_slotInv hs).of_same (fun _ _ hw => hw) (fun _ hw => hw) (fun _ => rfl)
    rw [← ht]
    exact hq.setCall (by simp)
  simp only [H2Pool.poolConnecting, ht]
  apply promote_slot (k := i) hcalm
  · intro b hb j hj hl hji
    rw [hwait] at hb
    rw [hlive] at hl
    rw [hcap, hcount j hji]
    rcases hpool b j hj with hj | hj
    · exact h.spare b hb j hj hl
    · exact absurd hj.1 hji
  · intro b hb
    rcases hpool b i hb with hb | hb
    · exact absurd hb (hnew b)
    · exact hb.2
  · intro _ hl
    rw [hlive] at hl
    rw [hcap, hown, hwait]
    exact hok hi hl
  · intro b hb
    rw [hwait] at hb
    refine (h.full b hb).of_same ?_ hfail
    rw [← ht]
    rfl

theorem of_rest (hst : SameSlots s t) (hp : t.pool = s.pool) (hn : t.next = s.next)
    (hc : t.calls = s.calls) : Served t :=
  h.of_same hst hp (failing_of_calls hn hc)

theorem setPool {p q : ConnPool} (hp : s.pool = some p) (hm : q.maxConnections = p.maxConnections)
    (ha : q.activeConns = p.activeConns) : Served (s.setPool q) := by
  refine h.of_le (fun _ ha => ha) (fun _ ha => ha) (fun ht => ?_)
  obtain ⟨p', hp', hle⟩ := ht
  obtain rfl : p = p' := Option.some.inj (hp.symm.trans hp')
  exact ⟨q, rfl, by rw [hm, ha]; exact hle⟩

theorem receiveGrant {cc : Option CallId} (hi : (s.calls i).phase = .granted cc) :
    Served (receiveGrant s i cc) := by
  have hold : (s.calls i).phase ≠ .dialFailed := by
    rw [hi]
    simp
  cases cc with
  | none =>
    refine h.of_same ⟨rfl, rfl, rfl, fun _ => rfl, fun _ => rfl⟩ rfl ?_
    exact failing_setPhase (s := ((s.setH2Connecting _ _).setConnecting i _).addStreamsActive 1)
      hold (by simp)
  | some k =>
    simp only [H2Pool.receiveGrant]
    split_ifs
    · rw [setPhase_lbRelease]
      exact h.setCall hold (by simp)
    · exact h.setCall hold (by simp)

theorem removeH2WaiterLocked (hi : (s.calls i).phase = .queued) :
    Served (removeH2WaiterLocked s i) := by
  have hold : (s.calls i).phase ≠ .dialFailed := by
    rw [hi]
    simp
  have hout : Served (s.setH2Waiters (s.calls i).addr
      ((s.h2Waiters (s.calls i).addr).erase i)) := by
    apply h.of_le
    · intro a ha
      simp only [setH2Waiters, Function.update_apply] at ha
      split_ifs at ha with hai
      · rw [hai]
        intro hnil
        rw [hnil] at ha
        exact ha rfl
      · exact ha
    · exact fun _ ha => ha
    · exact fun ht => ht.of_same rfl (failing_of_calls rfl rfl)
  exact hout.giveUp hold

theorem handshakeFails (hs : SlotInv s) (hi : (s.calls i).phase = .shaking) :
    Served ((s.setPhase i .dialFailed).closeConn i) := by
  have hlt : i < s.next := hs.accounted.not_idle_lt (i := i) (by
    change (s.calls i).phase ≠ _
    rw [hi]
    simp)
  obtain ⟨hserved, hpass⟩ := h.fail (c := { s.calls i with phase := .dialFailed }) hlt
    (by rw [hi]; simp) rfl none
  exact hserved.closeConn (Calm.fail hs (by rw [hi]; rfl)) (fun _ => hpass)

theorem acquireConnSlot (hold : (s.calls i).phase ≠ .dialFailed) :
    Served (acquireConnSlot s i) := by
  obtain ⟨s', hs', he⟩ | he | ⟨p, hp, he⟩ := acquireConnSlot_cases s i <;> rw [he]
  · have hphase : (s'.calls i).phase = (s.calls i).phase :=
      congrFun (congrArg View.phase (view_tryAcquireConnSlot hs')) i
    exact (h.tryAcquireConnSlot hs').setCall (by rw [hphase]; exact hold) (by simp)
  · exact h.giveUp hold
  · have hpool : Served (s.setPool { p with waiters := p.waiters ++ [i] }) :=
      h.setPool hp rfl rfl
    exact hpool.setCall hold (by simp)

theorem watchGoneAway (hs : SlotInv s)
    (hk : (s.conns k).watcher = .running ∧ (s.conns k).goneAway = true)
    (hok : wakesWaiters s (.watchGoneAway k)) : Served (watchGoneAway s k) := by
  have hset : Served (s.setConn k { s.conns k with watcher := .exited }) :=
    h.setConn (fun hl => hl)
  have hst : SameCalls s (s.setConn k { s.conns k with watcher := .exited }) :=
    SameCalls.setConn s k _
  simp only [H2Pool.watchGoneAway]
  split_ifs with hcond
  · apply hset.evict_promote (hst.calm (Calm.of_slotInv hs))
    intro _
    exact hst.passes (hok hk.1 hk.2 hcond.1 hcond.2)
  · exact hset

theorem giveUp_releaseConnSlot (hs : SlotInv s) {i : CallId}
    (hold : (s.calls i).phase ≠ .dialFailed) (hpass : Passes s none) :
    Served ((s.giveUp i).releaseConnSlot i) := by
  apply (h.giveUp hold).releaseConnSlot ((Calm.of_slotInv hs).giveUp i)
  exact hpass.imp_right (Or.imp_right (Or.imp_right
    (fun ht => ht.of_same rfl (failing_giveUp hold))))

theorem step (hs : SlotInv s) (e : Event) (hok : wakesWaiters s e) : Served (H2Pool.step s e) := by
  have hcalm := Calm.of_slotInv hs
  have hlater : ∀ {i p}, (s.calls i).phase = p → p ≠ .dialFailed →
      (s.calls i).phase ≠ .dialFailed := fun hi hp => hi ▸ hp
  refine step_induct h fun t hf => ?_
  cases hf with
  | pick api a => exact h.pick hs api a
  | @popIdleH1 i _ hi =>
    simp only [popIdleH1]
    split
    · have ht : Served (s.setH1Pool (s.calls i).addr (s.h1Pool (s.calls i).addr).dropLast) :=
        h.of_rest ⟨rfl, rfl, rfl, fun _ => rfl, fun _ => rfl⟩ rfl rfl rfl
      exact ht.giveUp (hlater hi (by simp))
    · exact h.setCall (hlater hi (by simp)) (by simp)
  | acquireConnSlot hi =>
    apply h.acquireConnSlot
    rcases hi with hi | hi
    · exact hlater hi.2 (by simp)
    · exact hlater hi (by simp)
  | receivePermit hi => exact h.setCall (hlater hi (by simp)) (by simp)
  | @cancelPending i hi =>
    simp only [removeWaiterLocked]
    split
    · exact h
    · rename_i p hp
      have hpool : Served (s.setPool { p with waiters := p.waiters.erase i }) :=
        h.setPool hp rfl rfl
      exact hpool.giveUp (hlater hi (by simp))
  | cancelHanded hi => exact h.giveUp_releaseConnSlot hs (hlater hi (by simp)) (hok hi)
  | dialFails hi => exact h.giveUp_releaseConnSlot hs (hlater hi (by simp)) (hok hi)
  | @entryFails i hi =>
    have hlt : i < s.next := hs.accounted.not_idle_lt (i := i) (by
      change (s.calls i).phase ≠ _
      rw [hi]
      simp)
    rw [setPhase_lbRelease]
    obtain ⟨hserved, hpass⟩ := h.fail (c := { s.calls i with
      phase := .dialFailed, lbReleases := (s.calls i).lbReleases + 1 }) hlt (by rw [hi]; simp)
      rfl none
    exact hserved.releaseConnSlot (Calm.fail hs (by rw [hi]; rfl)) hpass i
  | @dialSucceeds i hi | @entrySucceeds i hi =>
    have hopen : Served (s.setConn i { s.conns i with opened := true }) :=
      h.setConn (fun hl => hl)
    exact hopen.setCall (hlater hi (by simp)) (by simp)
  | handshakeFails hi => exact h.handshakeFails hs hi
  | acquireH2Stream _ hi => exact h.acquireH2Stream hi
  | receiveGrant hi => exact h.receiveGrant hi
  | @undoRaced i hi =>
    have ht : Served (s.addStreamsActive (-1)) :=
      h.of_rest ⟨rfl, rfl, rfl, fun _ => rfl, fun _ => rfl⟩ rfl rfl rfl
    have hc : Calm (s.addStreamsActive (-1)) :=
      hcalm.of_same (fun _ _ hw => hw) (fun _ hw => hw) (fun _ => rfl)
    have hgone : Served ((s.addStreamsActive (-1)).giveUp i) :=
      ht.giveUp (hlater hi (by simp))
    exact hgone.promote (hc.giveUp i) _
  | cancelQueued hi => exact h.removeH2WaiterLocked hi
  | cancelGranted hi => exact h.giveBackGrant hs hi hok
  | @attachReady i k out hi _ =>
    have hold : (s.calls i).phase ≠ .dialFailed := hlater hi (by simp)
    cases out with
    | failed => exact h.setCall hold (by simp)
    | established =>
      simp only [attachAfterReady]
      split_ifs
      · exact h.setCall hold (by simp)
      · have ht : Served (s.addStreamsActive (-1)) :=
          h.of_rest ⟨rfl, rfl, rfl, fun _ => rfl, fun _ => rfl⟩ rfl rfl rfl
        exact ht.setCall hold (by simp)
  | @attachCancelled i k hi _ =>
    have ht : Served ((s.addPromised k (-1)).addStreamsActive (-1)) :=
      h.of_rest ⟨rfl, rfl, rfl, fun _ => rfl, fun _ => rfl⟩ rfl rfl rfl
    exact ht.setCall (hlater hi (by simp)) (by simp)
  | failConnecting hi => exact h.failConnecting hs hi hok
  | poolConnecting hi => exact h.poolConnecting hs hi hok
  | release hi => exact h.releaseStream hs hi hok
  | evictOnError hk => exact h.evict_promote hcalm (fun _ => hok hk)
  | goAway _ => exact h.setConn (fun hl => by simp at hl)
  | teardown _ => exact h.setConn (fun hl => by simp at hl)
  | watchGoneAway hk => exact h.watchGoneAway hs hk hok
  | watchDone _ => exact h.setConn (fun hl => hl)
  | close hk => exact h.closeConn hcalm (fun ho => hok hk.1 hk.2 ho)
  | putIdleH1 hk =>
    simp only [putIdleH1]
    split_ifs with hw hlen
    · exact h.closeConn hcalm (fun ho => hok hk.1 hk.2 (.inl hw) ho)
    · exact h.closeConn hcalm (fun ho => hok hk.1 hk.2 (.inr hlen) ho)
    · exact h.of_rest ⟨rfl, rfl, rfl, fun _ => rfl, fun _ => rfl⟩ rfl rfl rfl

end

theorem initial (cfg : ClusterConfig) : Served (newCluster cfg) where
  spare := by intro a ha; exact absurd rfl ha
  full := by intro a ha; exact absurd rfl ha

end Served

/-- No operation is between a failed dial and the settling of its entry.  All other waits of a
call lie between critical sections that leave the pool as it should be. -/
def Quiescent (s : Cluster) : Prop := ∀ i, (s.calls i).phase ≠ .dialFailed

/-- In every interleaving whose steps hand a freed permit on and convert entries only with room
for at most one waiter or with one waiter, nobody is stranded whenever the pool is quiescent. -/
theorem run_no_stranded_waiter (cfg : ClusterConfig) (es : List Event)
    (hes : Runs.StepsMeet step wakesWaiters (newCluster cfg) es)
    (hq : Quiescent (run cfg es)) : NoStrandedWaiter (run cfg es) := by
  have hstep : ∀ (s : Cluster) (e : Event), wakesWaiters s e → SlotInv s ∧ Served s →
      SlotInv (step s e) ∧ Served (step s e) := by
    rintro s e hok ⟨hs, h⟩
    exact ⟨hs.step e, h.step hs e hok⟩
  obtain ⟨-, h⟩ : SlotInv (run cfg es) ∧ Served (run cfg es) :=
    Runs.invariant_of_steps hstep es (newCluster cfg)
      ⟨SlotInv.initial cfg, Served.initial cfg⟩ hes
  exact h.noStranded hq

/-- One connection at a time, with one stream. -/
def budgetOfOneStream : ClusterConfig where
  maxConcurrentStreams := some 1
  circuitBreakers := some { maxConnections := some 1 }

/-- Two calls queue behind a stream, and the connection dies: the release evicts it, and its
permit goes to the first of them. -/
def deadConnectionRun : List Event :=
  [.pick .acquireH2Stream "a", .acquireH2Stream 0, .dialSucceeds 0, .poolConnecting 0,
    .pick .acquireH2Stream "a", .acquireH2Stream 1, .pick .acquireH2Stream "a",
    .acquireH2Stream 2, .teardown 0, .release 0]

theorem run_no_stranded_waiter_dead_connection :
    (run budgetOfOneStream deadConnectionRun).h2Waiters "a" = [2] ∧
    NoStrandedWaiter (run budgetOfOneStream deadConnectionRun) := by
  refine ⟨by decide, run_no_stranded_waiter _ _ ?_ ?_⟩
  · refine ⟨trivial, trivial, trivial, fun _ _ => .inl (by decide), trivial, trivial, trivial,
      trivial, trivial, fun k _ _ _ _ => .inr (.inl ⟨"a", ?_, by decide⟩), trivial⟩
    decide
  · intro i
    have hfirst : ∀ i < 3,
        ((run budgetOfOneStream deadConnectionRun).calls i).phase ≠ .dialFailed := by decide
    rcases lt_or_ge i 3 with hi | hi
    · exact hfirst i hi
    · rw [show ((run budgetOfOneStream deadConnectionRun).calls i).phase = .idle from
        (SlotInv.run _ _).accounted.fresh i hi]
      simp

/-- The connection of endpoint `a` is evicted on an error.  Its permit comes back while a call
waits for endpoint `b`, and only the waiters of `a` are looked at. -/
def crossEndpointRun : List Event :=
  [.pick .acquireH2Stream "a", .acquireH2Stream 0, .dialSucceeds 0, .poolConnecting 0,
    .pick .acquireH2Stream "b", .acquireH2Stream 1, .evictOnError "a" 0, .release 0]

/-- All calls have returned but the one that waits, and the only permit is free. -/
theorem cross_endpoint_waiter_stranded :
    (∀ i, ((run budgetOfOne crossEndpointRun).calls i).phase = .idle ∨
      ((run budgetOfOne crossEndpointRun).calls i).phase = .returned ∨
      ((run budgetOfOne crossEndpointRun).calls i).phase = .queued) ∧
    ¬ NoStrandedWaiter (run budgetOfOne crossEndpointRun) := by
  constructor
  · intro i
    have hfirst : ∀ i < 2, ((run budgetOfOne crossEndpointRun).calls i).phase = .returned ∨
        ((run budgetOfOne crossEndpointRun).calls i).phase = .queued := by decide
    rcases lt_or_ge i 2 with hi | hi
    · exact .inr (hfirst i hi)
    · exact .inl ((SlotInv.run _ _).accounted.fresh i hi)
  · intro h
    obtain ⟨-, p, hp, hle⟩ := h "b" (by decide)
    have hpool : (run budgetOfOne crossEndpointRun).pool =
        some { maxConnections := 1, maxPendingRequests := 1024, activeConns := 0 } := by decide
    rw [hpool] at hp
    obtain rfl := Option.some.inj hp
    exact absurd hle (by decide)

end EnvoyGo.H2Pool

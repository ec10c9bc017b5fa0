import EnvoyGo.H2PoolView

/-!
`max_pending_requests` and the queues of a cluster.  The budget is one number; the requests that
pend stand in `connPool.waiters` or in the HTTP/2 queue of their endpoint, and each admission looks
at one queue.
-/

namespace EnvoyGo.H2Pool

open Cluster Runs

def pendingOver (s : Cluster) (A : Finset String) : ℤ :=
  (s.budgetWaiters.length : ℤ) + ∑ a ∈ A, ((s.h2Waiters a).length : ℤ)

/-- `max_pending_requests` bounds what pends over all endpoints together. -/
def PendingBounded (s : Cluster) : Prop :=
  ∀ p, s.pool = some p → ∀ A, pendingOver s A ≤ p.maxPendingRequests

/-- The step puts a request into a queue: no permit and no stream slot is free, and the request's
own queue has room. -/
def pends (s : Cluster) : Event → Bool
  | .acquireConnSlot i =>
    ((s.calls i).api = .dial ∧ (s.calls i).phase = .picked ∨ (s.calls i).phase = .missed) &&
    (s.tryAcquireConnSlot i).isNone &&
    s.pool.any fun p => (p.waiters.length : ℤ) < p.maxPendingRequests
  | .acquireH2Stream i =>
    ((s.calls i).api = .acquireH2Stream ∧ (s.calls i).phase = .picked) &&
    (s.findStreamHitLocked (s.calls i).addr).isNone &&
    (s.findConnectingHitLocked (s.calls i).addr).isNone && (s.tryAcquireConnSlot i).isNone &&
    s.pool.any fun p => ((s.h2Waiters (s.calls i).addr).length : ℤ) < p.maxPendingRequests
  | _ => false

/-- A request pends only while the queues of the cluster together have room for it. -/
def RoomInAll (s : Cluster) (e : Event) : Prop :=
  pends s e = true → ∀ p, s.pool = some p → ∀ A, pendingOver s A < p.maxPendingRequests

structure Shorter (s t : Cluster) : Prop where
  budget : t.pool.map ConnPool.maxPendingRequests = s.pool.map ConnPool.maxPendingRequests
  waiters : t.budgetWaiters.length ≤ s.budgetWaiters.length
  h2Waiters : ∀ a, (t.h2Waiters a).length ≤ (s.h2Waiters a).length

namespace Shorter

variable {s t u : Cluster}

theorem refl (s : Cluster) : Shorter s s := ⟨rfl, le_rfl, fun _ => le_rfl⟩

theorem trans (h : Shorter s t) (h' : Shorter t u) : Shorter s u where
  budget := h'.budget.trans h.budget
  waiters := h'.waiters.trans h.waiters
  h2Waiters a := (h'.h2Waiters a).trans (h.h2Waiters a)

theorem of_same (hp : t.pool = s.pool) (hw : t.h2Waiters = s.h2Waiters) : Shorter s t where
  budget := by rw [hp]
  waiters := by rw [budgetWaiters, budgetWaiters, hp]
  h2Waiters a := by rw [hw]

theorem setPool {p q : ConnPool} (hp : s.pool = some p)
    (hmax : q.maxPendingRequests = p.maxPendingRequests)
    (hlen : q.waiters.length ≤ p.waiters.length) : Shorter s (s.setPool q) where
  budget := by
    rw [hp]
    exact congrArg some hmax
  waiters := by
    rw [budgetWaiters, budgetWaiters, hp]
    exact hlen
  h2Waiters _ := le_rfl

theorem setH2Waiters {a : String} {l : List CallId} (hl : l.length ≤ (s.h2Waiters a).length) :
    Shorter s (s.setH2Waiters a l) where
  budget := rfl
  waiters := le_rfl
  h2Waiters b := by
    by_cases hb : b = a
    · subst hb
      simpa [Cluster.setH2Waiters] using hl
    · simp [Cluster.setH2Waiters, hb]

theorem tryAcquireConnSlot {i : CallId} (h : s.tryAcquireConnSlot i = some t) : Shorter s t := by
  obtain ⟨-, he⟩ | ⟨p, hp, -, he⟩ | ⟨p, -, -, he⟩ := tryAcquireConnSlot_cases s i
  · rw [he] at h
    obtain rfl := Option.some.inj h
    exact refl s
  · rw [he] at h
    obtain rfl := Option.some.inj h
    have hset : Shorter s (s.setPool { p with activeConns := p.activeConns + 1 }) :=
      setPool hp rfl le_rfl
    exact hset.trans (of_same rfl rfl)
  · rw [he] at h
    exact absurd h (by simp)

theorem releaseConn (s : Cluster) : Shorter s s.releaseConn := by
  obtain ⟨-, he⟩ | ⟨p, hp, -, he⟩ | ⟨p, w, ws, hp, hw, he⟩ := releaseConn_cases s
  · rw [he]
    exact refl s
  · rw [he]
    exact setPool hp rfl le_rfl
  · have hset : Shorter s (s.setPool { p with waiters := ws }) := by
      refine setPool hp rfl ?_
      rw [hw]
      exact Nat.le_succ _
    rw [he]
    exact hset.trans (of_same rfl rfl)

theorem releaseConnSlot (s : Cluster) (i : CallId) : Shorter s (s.releaseConnSlot i) := by
  unfold Cluster.releaseConnSlot
  split
  · exact refl s
  · have hcount : Shorter s (s.countPermitBack i) := of_same rfl rfl
    exact hcount.trans (releaseConn _)

theorem closeConn (s : Cluster) (k : CallId) : Shorter s (s.closeConn k) := by
  unfold Cluster.closeConn
  split_ifs
  · exact refl s
  · have hspent : Shorter s ((s.setConn k { s.conns k with once := true }).lbRelease k) :=
      of_same rfl rfl
    exact hspent.trans (releaseConnSlot _ k)

theorem evictH2ConnLocked (s : Cluster) (a : String) (k : CallId) :
    Shorter s (s.evictH2ConnLocked a k) := by
  have hout : Shorter s ((s.setH2Pool a ((s.h2Pool a).erase k)).setConn k
      { (s.setH2Pool a ((s.h2Pool a).erase k)).conns k with closed := true }) := of_same rfl rfl
  exact hout.trans (closeConn _ k)

theorem h2PromoteLocked (s : Cluster) (a : String) : Shorter s (s.h2PromoteLocked a) := by
  obtain ⟨-, he⟩ | ⟨w, q, k, hw, -, he⟩ | ⟨w, q, s', hw, -, hs', he⟩ | ⟨w, q, -, -, -, he⟩ :=
    h2PromoteLocked_cases s a
  · rw [he]
    exact refl s
  · have hpop : Shorter ((s.addInFlight k 1).addStreamsActive 1)
        (((s.addInFlight k 1).addStreamsActive 1).setH2Waiters a q) := by
      apply setH2Waiters
      change q.length ≤ (s.h2Waiters a).length
      rw [hw]
      exact Nat.le_succ _
    have hslot : Shorter s ((s.addInFlight k 1).addStreamsActive 1) := of_same rfl rfl
    rw [he]
    exact (hslot.trans hpop).trans (of_same rfl rfl)
  · have htake : Shorter s s' := tryAcquireConnSlot hs'
    have hview := view_tryAcquireConnSlot hs'
    have hpop : Shorter s' (s'.setH2Waiters a q) := by
      apply setH2Waiters
      have hsame : s'.h2Waiters a = s.h2Waiters a := congrFun (congrArg View.h2Waiters hview) a
      rw [hsame, hw]
      exact Nat.le_succ _
    rw [he]
    exact (htake.trans hpop).trans (of_same rfl rfl)
  · rw [he]
    exact refl s

theorem promoted (h : Shorter s t) (a : String) : Shorter s (t.h2PromoteLocked a) :=
  h.trans (h2PromoteLocked t a)

theorem pendingOver_le (h : Shorter s t) (A : Finset String) :
    pendingOver t A ≤ pendingOver s A := by
  have hw : (t.budgetWaiters.length : ℤ) ≤ s.budgetWaiters.length := by exact_mod_cast h.waiters
  have hsum : ∑ a ∈ A, ((t.h2Waiters a).length : ℤ) ≤ ∑ a ∈ A, ((s.h2Waiters a).length : ℤ) :=
    Finset.sum_le_sum fun a _ => by exact_mod_cast h.h2Waiters a
  exact add_le_add hw hsum

theorem bounded (h : Shorter s t) (hs : PendingBounded s) : PendingBounded t := by
  intro p hp A
  have hmax := h.budget
  rw [hp, Option.map_some] at hmax
  obtain ⟨q, hq, hqp⟩ := Option.map_eq_some_iff.mp hmax.symm
  calc
    pendingOver t A ≤ pendingOver s A := h.pendingOver_le A
    _ ≤ q.maxPendingRequests := hs q hq A
    _ = p.maxPendingRequests := hqp

end Shorter

section

variable (s : Cluster)

theorem acquireConnSlot_pending (i : CallId) :
    (∃ p, s.pool = some p ∧ s.tryAcquireConnSlot i = none ∧
      (p.waiters.length : ℤ) < p.maxPendingRequests ∧ acquireConnSlot s i =
        (s.setPool { p with waiters := p.waiters ++ [i] }).setPhase i .pending) ∨
    ((s.tryAcquireConnSlot i).isNone &&
      s.pool.any fun p => (p.waiters.length : ℤ) < p.maxPendingRequests) = false ∧
      Shorter s (acquireConnSlot s i) := by
  unfold acquireConnSlot
  cases htry : s.tryAcquireConnSlot i with
  | some s' =>
    have htake : Shorter s s' := Shorter.tryAcquireConnSlot htry
    exact .inr ⟨rfl, htake.trans (.of_same rfl rfl)⟩
  | none =>
    cases hp : s.pool with
    | none => exact .inr ⟨rfl, Shorter.refl s⟩
    | some p =>
      dsimp only
      split_ifs with hfull
      · refine .inr ⟨?_, .of_same rfl rfl⟩
        simp [hfull]
      · exact .inl ⟨p, rfl, rfl, not_le.mp hfull, rfl⟩

theorem acquireH2Stream_pending (i : CallId) :
    (∃ p, s.pool = some p ∧ s.findStreamHitLocked (s.calls i).addr = none ∧
      s.findConnectingHitLocked (s.calls i).addr = none ∧ s.tryAcquireConnSlot i = none ∧
      ((s.h2Waiters (s.calls i).addr).length : ℤ) < p.maxPendingRequests ∧ acquireH2Stream s i =
        (s.setH2Waiters (s.calls i).addr (s.h2Waiters (s.calls i).addr ++ [i])).setPhase i
          .queued) ∨
    ((s.findStreamHitLocked (s.calls i).addr).isNone &&
      (s.findConnectingHitLocked (s.calls i).addr).isNone && (s.tryAcquireConnSlot i).isNone &&
      s.pool.any fun p =>
        ((s.h2Waiters (s.calls i).addr).length : ℤ) < p.maxPendingRequests) = false ∧
      Shorter s (acquireH2Stream s i) := by
  unfold acquireH2Stream
  dsimp only
  cases hhit : s.findStreamHitLocked (s.calls i).addr with
  | some k => exact .inr ⟨rfl, .of_same rfl rfl⟩
  | none =>
    cases hcn : s.findConnectingHitLocked (s.calls i).addr with
    | some k => exact .inr ⟨rfl, .of_same rfl rfl⟩
    | none =>
      cases htry : s.tryAcquireConnSlot i with
      | some s' =>
        have htake : Shorter s s' := Shorter.tryAcquireConnSlot htry
        exact .inr ⟨rfl, htake.trans (.of_same rfl rfl)⟩
      | none =>
        cases hp : s.pool with
        | none => exact .inr ⟨rfl, Shorter.refl s⟩
        | some p =>
          dsimp only
          split_ifs with hfull
          · refine .inr ⟨?_, .of_same rfl rfl⟩
            simp [hfull]
          · exact .inl ⟨p, rfl, rfl, rfl, rfl, not_le.mp hfull, rfl⟩

theorem shorter_releaseStream (i k : CallId) : Shorter s (releaseStream s i k) := by
  have hdrop : Shorter s (((s.addInFlight k (-1)).addStreamsActive (-1)).setPhase i .returned) :=
    .of_same rfl rfl
  have hnext := hdrop.promoted (s.calls i).addr
  unfold releaseStream
  dsimp only
  split_ifs
  · exact (hnext.trans (.evictH2ConnLocked _ _ _)).promoted _
  · exact hnext

theorem shorter_giveBackGrant (i : CallId) (cc : Option CallId) :
    Shorter s (giveBackGrant s i cc) := by
  cases cc with
  | some k =>
    unfold giveBackGrant
    dsimp only
    split_ifs
    · apply Shorter.promoted
      exact .of_same rfl rfl
    · apply Shorter.promoted
      exact .of_same rfl rfl
  | none =>
    have hup : Shorter s (s.giveUp i) := .of_same rfl rfl
    exact (hup.trans (.releaseConnSlot _ i)).promoted _

theorem shorter_receiveGrant (i : CallId) (cc : Option CallId) :
    Shorter s (receiveGrant s i cc) := by
  cases cc with
  | some k =>
    unfold receiveGrant
    dsimp only
    split_ifs
    · exact .of_same rfl rfl
    · exact .of_same rfl rfl
  | none => exact .of_same rfl rfl

theorem shorter_attachAfterReady (i k : CallId) (out : DialOutcome) :
    Shorter s (attachAfterReady s i k out) := by
  cases out with
  | failed => exact .of_same rfl rfl
  | established =>
    unfold attachAfterReady
    dsimp only
    split_ifs
    · exact .of_same rfl rfl
    · exact .of_same rfl rfl

theorem shorter_popIdleH1 (i : CallId) : Shorter s (popIdleH1 s i) := by
  unfold popIdleH1
  dsimp only
  split
  · exact .of_same rfl rfl
  · exact .of_same rfl rfl

theorem shorter_putIdleH1 (k : CallId) (hasWaiter : Bool) :
    Shorter s (putIdleH1 s k hasWaiter) := by
  unfold putIdleH1
  dsimp only
  split_ifs
  · exact .closeConn s k
  · exact .closeConn s k
  · exact .of_same rfl rfl

theorem shorter_watchGoneAway (k : CallId) : Shorter s (watchGoneAway s k) := by
  have hexit : Shorter s (s.setConn k { s.conns k with watcher := .exited }) := .of_same rfl rfl
  unfold watchGoneAway
  dsimp only
  split_ifs
  · exact (hexit.trans (.evictH2ConnLocked _ _ _)).promoted _
  · exact hexit

theorem shorter_removeWaiterLocked (i : CallId) : Shorter s (removeWaiterLocked s i) := by
  unfold removeWaiterLocked
  split
  · exact .refl s
  · next p hp =>
      have hset : Shorter s (s.setPool { p with waiters := p.waiters.erase i }) :=
        .setPool hp rfl List.erase_sublist.length_le
      exact hset.trans (.of_same rfl rfl)

theorem shorter_removeH2WaiterLocked (i : CallId) : Shorter s (removeH2WaiterLocked s i) := by
  have hset : Shorter s (s.setH2Waiters (s.calls i).addr
      ((s.h2Waiters (s.calls i).addr).erase i)) :=
    .setH2Waiters List.erase_sublist.length_le
  exact hset.trans (.of_same rfl rfl)

end

theorem shorter_step {s : Cluster} {e : Event} (h : pends s e = false) : Shorter s (step s e) := by
  have hup : ∀ i, Shorter s (s.giveUp i) := fun i => .of_same rfl rfl
  refine step_induct (.refl s) fun t hf => ?_
  cases hf with
  | pick api addr => exact .of_same rfl rfl
  | popIdleH1 _ _ => exact shorter_popIdleH1 s _
  | @acquireConnSlot i hi =>
    obtain ⟨p, hp, htry, hroom, -⟩ | ⟨-, hs⟩ := acquireConnSlot_pending s i
    · exact absurd h (by simp [pends, hi, htry, hp, hroom])
    · exact hs
  | receivePermit _ => exact .of_same rfl rfl
  | cancelPending _ => exact shorter_removeWaiterLocked s _
  | cancelHanded _ => exact (hup _).trans (.releaseConnSlot _ _)
  | dialFails _ => exact (hup _).trans (.releaseConnSlot _ _)
  | @entryFails i _ =>
    have hfail : Shorter s ((s.setPhase i .dialFailed).lbRelease i) := .of_same rfl rfl
    exact hfail.trans (.releaseConnSlot _ i)
  | dialSucceeds _ => exact .of_same rfl rfl
  | entrySucceeds _ => exact .of_same rfl rfl
  | @handshakeFails i _ =>
    have hfail : Shorter s (s.setPhase i .dialFailed) := .of_same rfl rfl
    exact hfail.trans (.closeConn _ i)
  | @acquireH2Stream i hapi hi =>
    obtain ⟨p, hp, hhit, hcn, htry, hroom, -⟩ | ⟨-, hs⟩ := acquireH2Stream_pending s i
    · exact absurd h (by simp [pends, hapi, hi, hhit, hcn, htry, hp, hroom])
    · exact hs
  | receiveGrant _ => exact shorter_receiveGrant s _ _
  | undoRaced _ =>
    apply Shorter.promoted
    exact .of_same rfl rfl
  | cancelQueued _ => exact shorter_removeH2WaiterLocked s _
  | cancelGranted _ => exact shorter_giveBackGrant s _ _
  | attachReady _ _ => exact shorter_attachAfterReady s _ _ _
  | attachCancelled _ _ => exact .of_same rfl rfl
  | failConnecting _ =>
    apply Shorter.promoted
    exact .of_same rfl rfl
  | poolConnecting _ =>
    apply Shorter.promoted
    exact .of_same rfl rfl
  | release _ => exact shorter_releaseStream s _ _
  | evictOnError _ => exact (Shorter.evictH2ConnLocked s _ _).promoted _
  | goAway _ => exact .of_same rfl rfl
  | teardown _ => exact .of_same rfl rfl
  | watchGoneAway _ => exact shorter_watchGoneAway s _
  | watchDone _ => exact .of_same rfl rfl
  | close _ => exact .closeConn s _
  | putIdleH1 _ => exact shorter_putIdleH1 s _ _

theorem pendingOver_of_pends {s : Cluster} {e : Event} (h : pends s e = true) :
    (step s e).pool.map ConnPool.maxPendingRequests = s.pool.map ConnPool.maxPendingRequests ∧
    (∀ A, pendingOver (step s e) A ≤ pendingOver s A + 1) ∧
    ∀ A, ∃ B, pendingOver s A + 1 ≤ pendingOver (step s e) B := by
  cases e with
  | acquireConnSlot i =>
    simp only [pends, Bool.and_eq_true, decide_eq_true_eq] at h
    obtain ⟨⟨hi, htry⟩, hroom⟩ := h
    obtain ⟨p, hp, -, -, he⟩ | ⟨hno, -⟩ := acquireConnSlot_pending s i
    · have hold : s.budgetWaiters = p.waiters := by rw [budgetWaiters, hp]
      have hover : ∀ A, pendingOver (acquireConnSlot s i) A = pendingOver s A + 1 := by
        intro A
        have hnew : (acquireConnSlot s i).budgetWaiters = p.waiters ++ [i] := by rw [he]; rfl
        have hq : (acquireConnSlot s i).h2Waiters = s.h2Waiters := by rw [he]; rfl
        rw [pendingOver, pendingOver, hnew, hold, hq, List.length_append, List.length_singleton]
        push_cast
        omega
      simp only [step, if_pos hi]
      refine ⟨?_, fun A => (hover A).le, fun A => ⟨A, (hover A).ge⟩⟩
      rw [he, hp]
      rfl
    · rw [htry, Bool.true_and] at hno
      exact absurd hroom (by rw [hno]; decide)
  | acquireH2Stream i =>
    simp only [pends, Bool.and_eq_true, decide_eq_true_eq] at h
    obtain ⟨⟨⟨⟨hi, hhit⟩, hcn⟩, htry⟩, hroom⟩ := h
    obtain ⟨p, hp, -, -, -, -, he⟩ | ⟨hno, -⟩ := acquireH2Stream_pending s i
    · have hw : (acquireH2Stream s i).budgetWaiters = s.budgetWaiters := by rw [he]; rfl
      have hq : ∀ a, ((acquireH2Stream s i).h2Waiters a).length =
          (s.h2Waiters a).length + if a = (s.calls i).addr then 1 else 0 := by
        intro a
        rw [he]
        by_cases ha : a = (s.calls i).addr
        · simp [Cluster.setPhase, Cluster.setCall, Cluster.setH2Waiters, ha]
        · simp [Cluster.setPhase, Cluster.setCall, Cluster.setH2Waiters, ha]
      have hover : ∀ A, pendingOver (acquireH2Stream s i) A =
          pendingOver s A + if (s.calls i).addr ∈ A then 1 else 0 := by
        intro A
        have hsum : ∑ a ∈ A, (((acquireH2Stream s i).h2Waiters a).length : ℤ) =
            (∑ a ∈ A, ((s.h2Waiters a).length : ℤ)) +
              if (s.calls i).addr ∈ A then 1 else 0 := by
          rw [← Finset.sum_ite_eq' A (s.calls i).addr fun _ => (1 : ℤ), ← Finset.sum_add_distrib]
          refine Finset.sum_congr rfl fun a _ => ?_
          rw [hq a]
          split_ifs
          · push_cast
            rfl
          · push_cast
            rfl
        rw [pendingOver, pendingOver, hw, hsum]
        omega
      simp only [step, if_pos hi]
      refine ⟨?_, ?_, ?_⟩
      · rw [he]
        rfl
      · intro A
        rw [hover A]
        split_ifs
        · exact le_rfl
        · omega
      · intro A
        refine ⟨insert (s.calls i).addr A, ?_⟩
        have hmono : pendingOver s A ≤ pendingOver s (insert (s.calls i).addr A) := by
          unfold pendingOver
          have hle := Finset.sum_le_sum_of_subset_of_nonneg
            (Finset.subset_insert (s.calls i).addr A)
            fun a _ _ => Int.natCast_nonneg (s.h2Waiters a).length
          omega
        rw [hover, if_pos (Finset.mem_insert_self _ _)]
        omega
    · rw [hhit, hcn, htry, Bool.true_and, Bool.true_and, Bool.true_and] at hno
      exact absurd hroom (by rw [hno]; decide)
  | _ => exact absurd h (by simp [pends])

theorem bounded_step_iff {s : Cluster} (hs : PendingBounded s) (e : Event) :
    PendingBounded (step s e) ↔ RoomInAll s e := by
  cases hpends : pends s e with
  | false =>
    have hroom : RoomInAll s e := fun h => absurd h (by rw [hpends]; decide)
    exact iff_of_true ((shorter_step hpends).bounded hs) hroom
  | true =>
    obtain ⟨hmax, hle, hge⟩ := pendingOver_of_pends hpends
    constructor
    · intro hb _ p hp A
      obtain ⟨B, hB⟩ := hge A
      rw [hp, Option.map_some] at hmax
      obtain ⟨q, hq, hqp⟩ := Option.map_eq_some_iff.mp hmax
      have hbound := hb q hq B
      omega
    · intro hroom q hq A
      rw [hq, Option.map_some] at hmax
      obtain ⟨p, hp, hpq⟩ := Option.map_eq_some_iff.mp hmax.symm
      have hlt := hroom hpends p hp A
      have hA := hle A
      omega

theorem bounded_newCluster (cfg : ClusterConfig) : PendingBounded (newCluster cfg) := by
  intro p hp A
  obtain ⟨t, -, ht⟩ := Option.map_eq_some_iff.mp hp
  have hnone : (newCluster cfg).budgetWaiters = [] := by
    rw [budgetWaiters, hp, ← ht]
    rfl
  have hzero : pendingOver (newCluster cfg) A = 0 := by
    have hsum : ∑ a ∈ A, (((newCluster cfg).h2Waiters a).length : ℤ) = 0 :=
      Finset.sum_eq_zero fun _ _ => rfl
    rw [pendingOver, hnone, hsum]
    rfl
  rw [hzero, ← ht]
  exact Int.natCast_nonneg _

/-- `max_pending_requests` bounds the requests pending over all queues of the cluster, throughout a
run, exactly when no request is queued while the queues together are full: the admissions look
at the request's own queue. -/
theorem pending_bounded_iff (cfg : ClusterConfig) (es : List Event) :
    (∀ pre, pre <+: es → PendingBounded (run cfg pre)) ↔
      StepsMeet step RoomInAll (newCluster cfg) es := by
  have hstep : ∀ s e, PendingBounded s → (PendingBounded (step s e) ↔ RoomInAll s e) :=
    fun s e hs => bounded_step_iff hs e
  exact throughout_iff_stepsMeet hstep es _ (bounded_newCluster cfg)

/-- One connection with one stream and one pending request allowed; three requests to two
endpoints.  The first dials, the other two pend, each in the empty queue of its endpoint. -/
theorem not_pending_bounded :
    ¬ PendingBounded (run
      { maxConcurrentStreams := some 1,
        circuitBreakers := some { maxConnections := some 1, maxPendingRequests := some 1 } }
      [.pick .acquireH2Stream "10.0.0.1:80", .acquireH2Stream 0,
        .pick .acquireH2Stream "10.0.0.1:80", .acquireH2Stream 1,
        .pick .acquireH2Stream "10.0.0.2:80", .acquireH2Stream 2]) := by
  intro h
  exact absurd (h _ rfl {"10.0.0.1:80", "10.0.0.2:80"}) (by decide +kernel)

end EnvoyGo.H2Pool

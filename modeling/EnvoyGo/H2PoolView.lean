import EnvoyGo.H2Pool
import EnvoyGo.Tally

/-!
What the pool's lists and slot counts depend on: the queues, the phases of the calls and the
counts, without permits, load-balancer releases and the state of the transports.
-/

namespace EnvoyGo.H2Pool

structure View where
  cap : Int
  h2Pool : String → List CallId
  h2Connecting : String → List CallId
  h2Waiters : String → List CallId
  waiters : List CallId
  streamsActive : Int
  next : CallId
  phase : CallId → Phase
  addr : CallId → String
  ready : CallId → Option DialOutcome
  promised : CallId → Int
  inFlight : CallId → Int

namespace Cluster

/-- `connPool.waiters`, empty without circuit breakers. -/
def budgetWaiters (s : Cluster) : List CallId :=
  match s.pool with
  | none => []
  | some p => p.waiters

def view (s : Cluster) : View where
  cap := s.h2MaxConcurrentStreams
  h2Pool := s.h2Pool
  h2Connecting := s.h2Connecting
  h2Waiters := s.h2Waiters
  waiters := s.budgetWaiters
  streamsActive := s.streamsActive
  next := s.next
  phase i := (s.calls i).phase
  addr i := (s.calls i).addr
  ready k := (s.cns k).ready
  promised k := (s.cns k).promised
  inFlight k := (s.pcs k).inFlight

end Cluster

namespace View

def setPhase (v : View) (i : CallId) (p : Phase) : View :=
  { v with phase := Function.update v.phase i p }

def wake (v : View) : View :=
  match v.waiters with
  | [] => v
  | w :: ws => { v with waiters := ws }.setPhase w .handed

def addInFlight (v : View) (k : CallId) (d : Int) : View :=
  { v with inFlight := Function.update v.inFlight k (v.inFlight k + d) }

def addPromised (v : View) (k : CallId) (d : Int) : View :=
  { v with promised := Function.update v.promised k (v.promised k + d) }

def addStreamsActive (v : View) (d : Int) : View :=
  { v with streamsActive := v.streamsActive + d }

def setH2Pool (v : View) (a : String) (l : List CallId) : View :=
  { v with h2Pool := Function.update v.h2Pool a l }

def setH2Connecting (v : View) (a : String) (l : List CallId) : View :=
  { v with h2Connecting := Function.update v.h2Connecting a l }

def setH2Waiters (v : View) (a : String) (l : List CallId) : View :=
  { v with h2Waiters := Function.update v.h2Waiters a l }

def setConnecting (v : View) (k : CallId) (c : ConnectingH2Conn) : View :=
  { v with ready := Function.update v.ready k c.ready,
           promised := Function.update v.promised k c.promised }

def setPooled (v : View) (k : CallId) (c : PooledH2Conn) : View :=
  { v with inFlight := Function.update v.inFlight k c.inFlight }

end View

open Cluster

theorem field_update {α β : Type} (f : α → β) (r : CallId → α) (i : CallId) (c : α) :
    (fun j => f (Function.update r i c j)) = Function.update (fun j => f (r j)) i (f c) :=
  funext (fun j => Function.apply_update (fun _ => f) r i c j)

theorem field_update_same {α β : Type} (f : α → β) (r : CallId → α) (i : CallId) (c : α)
    (h : f c = f (r i)) : (fun j => f (Function.update r i c j)) = fun j => f (r j) := by
  rw [field_update, h, Function.update_eq_self i (fun j => f (r j))]

section

variable (s : Cluster)

theorem view_setCall (i : CallId) (c : Call) (ha : c.addr = (s.calls i).addr) :
    (s.setCall i c).view = s.view.setPhase i c.phase := by
  simp only [view, setCall, View.setPhase, budgetWaiters, field_update Call.phase,
    field_update_same Call.addr s.calls i c ha]

theorem view_setCall_of_same (i : CallId) (c : Call) (hp : c.phase = (s.calls i).phase)
    (ha : c.addr = (s.calls i).addr) : (s.setCall i c).view = s.view := by
  simp only [view, setCall, budgetWaiters, field_update_same Call.phase s.calls i c hp,
    field_update_same Call.addr s.calls i c ha]

@[simp] theorem view_setPhase (i : CallId) (p : Phase) :
    (s.setPhase i p).view = s.view.setPhase i p :=
  view_setCall s i _ rfl

@[simp] theorem view_lbRelease (i : CallId) : (s.lbRelease i).view = s.view :=
  view_setCall_of_same s i _ rfl rfl

@[simp] theorem view_countPermit (i : CallId) : (s.countPermit i).view = s.view :=
  view_setCall_of_same s i _ rfl rfl

@[simp] theorem view_countPermitBack (i : CallId) : (s.countPermitBack i).view = s.view :=
  view_setCall_of_same s i _ rfl rfl

@[simp] theorem view_giveUp (i : CallId) : (s.giveUp i).view = s.view.setPhase i .returned := by
  rw [giveUp, view_lbRelease, view_setPhase]

@[simp] theorem view_setConn (k : CallId) (c : Conn) : (s.setConn k c).view = s.view := rfl

@[simp] theorem view_setH1Pool (a : String) (l : List CallId) :
    (s.setH1Pool a l).view = s.view := rfl

@[simp] theorem view_addStreamsActive (d : Int) :
    (s.addStreamsActive d).view = s.view.addStreamsActive d := rfl

@[simp] theorem view_setH2Pool (a : String) (l : List CallId) :
    (s.setH2Pool a l).view = s.view.setH2Pool a l := rfl

@[simp] theorem view_setH2Connecting (a : String) (l : List CallId) :
    (s.setH2Connecting a l).view = s.view.setH2Connecting a l := rfl

@[simp] theorem view_setH2Waiters (a : String) (l : List CallId) :
    (s.setH2Waiters a l).view = s.view.setH2Waiters a l := rfl

theorem view_setPool (p : ConnPool) :
    (s.setPool p).view = { s.view with waiters := p.waiters } := rfl

theorem view_setPool_of_same (p q : ConnPool) (hp : s.pool = some p) (hw : q.waiters = p.waiters) :
    (s.setPool q).view = s.view := by
  simp only [view, setPool, budgetWaiters, hp, hw]

@[simp] theorem view_setPooled (k : CallId) (c : PooledH2Conn) :
    (s.setPooled k c).view = s.view.setPooled k c := by
  simp only [view, Cluster.setPooled, View.setPooled, budgetWaiters,
    field_update PooledH2Conn.inFlight]

@[simp] theorem view_addInFlight (k : CallId) (d : Int) :
    (s.addInFlight k d).view = s.view.addInFlight k d :=
  view_setPooled s k _

@[simp] theorem view_setConnecting (k : CallId) (c : ConnectingH2Conn) :
    (s.setConnecting k c).view = s.view.setConnecting k c := by
  simp only [view, Cluster.setConnecting, View.setConnecting, budgetWaiters,
    field_update ConnectingH2Conn.ready, field_update ConnectingH2Conn.promised]

@[simp] theorem view_addPromised (k : CallId) (d : Int) :
    (s.addPromised k d).view = s.view.addPromised k d := by
  simp only [view, Cluster.addPromised, Cluster.setConnecting, View.addPromised, budgetWaiters,
    field_update ConnectingH2Conn.promised]
  rw [field_update_same ConnectingH2Conn.ready s.cns k
    { s.cns k with promised := (s.cns k).promised + d } rfl]

theorem tryAcquireConnSlot_cases (i : CallId) :
    (s.pool = none ∧ s.tryAcquireConnSlot i = some s) ∨
    (∃ p, s.pool = some p ∧ p.activeConns < p.maxConnections ∧ s.tryAcquireConnSlot i =
      some ((s.setPool { p with activeConns := p.activeConns + 1 }).countPermit i)) ∨
    ∃ p, s.pool = some p ∧ p.maxConnections ≤ p.activeConns ∧
      s.tryAcquireConnSlot i = none := by
  unfold tryAcquireConnSlot
  split
  · rename_i h
    exact .inl ⟨h, rfl⟩
  · rename_i p h
    split_ifs with hlt
    · exact .inr (.inl ⟨p, h, hlt, rfl⟩)
    · exact .inr (.inr ⟨p, h, not_lt.mp hlt, rfl⟩)

end

theorem view_tryAcquireConnSlot {s s' : Cluster} {i : CallId}
    (h : s.tryAcquireConnSlot i = some s') : s'.view = s.view := by
  obtain ⟨-, he⟩ | ⟨p, hp, -, he⟩ | ⟨p, -, -, he⟩ := tryAcquireConnSlot_cases s i
  · rw [he] at h
    obtain rfl := Option.some.inj h
    rfl
  · rw [he] at h
    obtain rfl := Option.some.inj h
    rw [view_countPermit]
    exact view_setPool_of_same s p _ hp rfl
  · rw [he] at h
    exact absurd h (by simp)

theorem releaseConn_cases (s : Cluster) :
    (s.pool = none ∧ s.releaseConn = s) ∨
    (∃ p, s.pool = some p ∧ p.waiters = [] ∧
      s.releaseConn = s.setPool { p with activeConns := p.activeConns - 1 }) ∨
    ∃ p w ws, s.pool = some p ∧ p.waiters = w :: ws ∧
      s.releaseConn = ((s.setPool { p with waiters := ws }).countPermit w).setPhase w .handed := by
  unfold releaseConn
  split
  · rename_i h
    exact .inl ⟨h, rfl⟩
  · rename_i p h
    split
    · rename_i w ws hw
      exact .inr (.inr ⟨p, w, ws, h, hw, rfl⟩)
    · rename_i hw
      exact .inr (.inl ⟨p, h, hw, rfl⟩)

theorem wake_of_no_budget {s : Cluster} (hp : s.pool = none) : s.view.wake = s.view := by
  have hw : s.view.waiters = [] := by simp only [view, budgetWaiters, hp]
  rw [View.wake, hw]

@[simp] theorem view_releaseConn (s : Cluster) : s.releaseConn.view = s.view.wake := by
  obtain ⟨hp, he⟩ | ⟨p, hp, hw, he⟩ | ⟨p, w, ws, hp, hw, he⟩ := releaseConn_cases s
  · rw [he, wake_of_no_budget hp]
  · have hv : s.view.waiters = [] := by simp only [view, budgetWaiters, hp, hw]
    rw [he, View.wake, hv]
    exact view_setPool_of_same s p _ hp rfl
  · have hv : s.view.waiters = w :: ws := by simp only [view, budgetWaiters, hp, hw]
    rw [he, View.wake, hv, view_setPhase, view_countPermit, view_setPool]

@[simp] theorem view_releaseConnSlot (s : Cluster) (i : CallId) :
    (s.releaseConnSlot i).view = s.view.wake := by
  unfold releaseConnSlot
  split
  · rename_i hp
    rw [wake_of_no_budget hp]
  · rw [view_releaseConn, view_countPermitBack]

theorem view_closeConn (s : Cluster) (k : CallId) :
    (s.closeConn k).view = if (s.conns k).once then s.view else s.view.wake := by
  unfold closeConn
  split_ifs with h
  · rfl
  · rw [view_releaseConnSlot, view_lbRelease, view_setConn]

theorem view_closeClientConn (s : Cluster) (k : CallId) :
    (s.closeClientConn k).view = if (s.conns k).once then s.view else s.view.wake := by
  rw [closeClientConn, view_closeConn, view_setConn]
  simp only [setConn, Function.update_self]

theorem h2PromoteLocked_cases (s : Cluster) (a : String) :
    (s.h2Waiters a = [] ∧ s.h2PromoteLocked a = s) ∨
    (∃ w q k, s.h2Waiters a = w :: q ∧ s.findStreamHitLocked a = some k ∧
      s.h2PromoteLocked a =
        (((s.addInFlight k 1).addStreamsActive 1).setH2Waiters a q).setPhase w
          (.granted (some k))) ∨
    (∃ w q s', s.h2Waiters a = w :: q ∧ s.findStreamHitLocked a = none ∧
      s.tryAcquireConnSlot w = some s' ∧
      s.h2PromoteLocked a = (s'.setH2Waiters a q).setPhase w (.granted none)) ∨
    ∃ w q, s.h2Waiters a = w :: q ∧ s.findStreamHitLocked a = none ∧
      s.tryAcquireConnSlot w = none ∧ s.h2PromoteLocked a = s := by
  unfold h2PromoteLocked
  split
  · rename_i hw
    exact .inl ⟨hw, rfl⟩
  · rename_i w q hw
    split
    · rename_i k hk
      exact .inr (.inl ⟨w, q, k, hw, hk, rfl⟩)
    · rename_i hk
      split
      · rename_i s' hs'
        exact .inr (.inr (.inl ⟨w, q, s', hw, hk, hs', rfl⟩))
      · rename_i hs'
        exact .inr (.inr (.inr ⟨w, q, hw, hk, hs', rfl⟩))

theorem acquireH2Stream_cases (s : Cluster) (i : CallId) :
    (∃ k, s.findStreamHitLocked (s.calls i).addr = some k ∧ acquireH2Stream s i =
      (((s.addInFlight k 1).addStreamsActive 1).setPhase i (.riding k)).lbRelease i) ∨
    (∃ k, s.findStreamHitLocked (s.calls i).addr = none ∧
      s.findConnectingHitLocked (s.calls i).addr = some k ∧ acquireH2Stream s i =
        (((s.addPromised k 1).addStreamsActive 1).setPhase i (.attached k)).lbRelease i) ∨
    (∃ s', s.findStreamHitLocked (s.calls i).addr = none ∧ s.tryAcquireConnSlot i = some s' ∧
      acquireH2Stream s i = s'.register i) ∨
    (s.findStreamHitLocked (s.calls i).addr = none ∧ acquireH2Stream s i = s.giveUp i) ∨
    ∃ p, s.findStreamHitLocked (s.calls i).addr = none ∧ s.pool = some p ∧
      p.maxConnections ≤ p.activeConns ∧ acquireH2Stream s i =
        (s.setH2Waiters (s.calls i).addr (s.h2Waiters (s.calls i).addr ++ [i])).setPhase i
          .queued := by
  unfold acquireH2Stream
  dsimp only
  split
  · rename_i k hk
    exact .inl ⟨k, hk, rfl⟩
  rename_i hnone
  split
  · rename_i k hk
    exact .inr (.inl ⟨k, hnone, hk, rfl⟩)
  split
  · rename_i s' hs'
    exact .inr (.inr (.inl ⟨s', hnone, hs', rfl⟩))
  rename_i htry
  obtain ⟨-, he⟩ | ⟨p, -, -, he⟩ | ⟨p, hp, hmax, -⟩ := tryAcquireConnSlot_cases s i
  · rw [he] at htry
    exact absurd htry (by simp)
  · rw [he] at htry
    exact absurd htry (by simp)
  · rw [hp]
    dsimp only
    split_ifs
    · exact .inr (.inr (.inr (.inl ⟨hnone, rfl⟩)))
    · exact .inr (.inr (.inr (.inr ⟨p, hnone, rfl, hmax, rfl⟩)))

theorem acquireConnSlot_cases (s : Cluster) (i : CallId) :
    (∃ s', s.tryAcquireConnSlot i = some s' ∧ acquireConnSlot s i = s'.setPhase i .dialing) ∨
    acquireConnSlot s i = s.giveUp i ∨
    ∃ p, s.pool = some p ∧ acquireConnSlot s i =
      (s.setPool { p with waiters := p.waiters ++ [i] }).setPhase i .pending := by
  unfold acquireConnSlot
  obtain ⟨-, he⟩ | ⟨p, -, -, he⟩ | ⟨p, hp, -, he⟩ := tryAcquireConnSlot_cases s i
  · rw [he]
    exact .inl ⟨s, rfl, rfl⟩
  · rw [he]
    exact .inl ⟨_, rfl, rfl⟩
  · rw [he, hp]
    dsimp only
    split_ifs
    · exact .inr (.inl rfl)
    · exact .inr (.inr ⟨p, rfl, rfl⟩)

theorem conns_tryAcquireConnSlot {s s' : Cluster} {i : CallId}
    (h : s.tryAcquireConnSlot i = some s') : s'.conns = s.conns := by
  obtain ⟨-, he⟩ | ⟨p, -, -, he⟩ | ⟨p, -, -, he⟩ := tryAcquireConnSlot_cases s i <;> rw [he] at h
  · obtain rfl := Option.some.inj h
    rfl
  · obtain rfl := Option.some.inj h
    rfl
  · exact absurd h (by simp)

@[simp] theorem conns_releaseConn (s : Cluster) : s.releaseConn.conns = s.conns := by
  obtain ⟨-, he⟩ | ⟨p, -, -, he⟩ | ⟨p, w, ws, -, -, he⟩ := releaseConn_cases s <;> rw [he] <;> rfl

@[simp] theorem conns_releaseConnSlot (s : Cluster) (i : CallId) :
    (s.releaseConnSlot i).conns = s.conns := by
  unfold releaseConnSlot
  split
  · rfl
  · rw [conns_releaseConn]
    rfl

theorem conns_closeConn (s : Cluster) (k : CallId) :
    (s.closeConn k).conns = Function.update s.conns k { s.conns k with once := true } := by
  unfold closeConn
  split_ifs with h
  · have : { s.conns k with once := true } = s.conns k := by rw [← h]
    rw [this, Function.update_eq_self]
  · rw [conns_releaseConnSlot]
    rfl

theorem conns_closeClientConn (s : Cluster) (k : CallId) :
    (s.closeClientConn k).conns =
      Function.update s.conns k { s.conns k with closed := true, once := true } := by
  rw [closeClientConn, conns_closeConn]
  simp only [setConn, Function.update_self, Function.update_idem]

theorem conns_evictH2ConnLocked (s : Cluster) (a : String) (k : CallId) :
    (s.evictH2ConnLocked a k).conns =
      Function.update s.conns k { s.conns k with closed := true, once := true } :=
  conns_closeClientConn _ k

@[simp] theorem conns_h2PromoteLocked (s : Cluster) (a : String) :
    (s.h2PromoteLocked a).conns = s.conns := by
  obtain ⟨-, he⟩ | ⟨w, q, k, -, -, he⟩ | ⟨w, q, s', -, -, hs', he⟩ | ⟨w, q, -, -, -, he⟩ :=
    h2PromoteLocked_cases s a <;> rw [he]
  · rfl
  · change s'.conns = s.conns
    exact conns_tryAcquireConnSlot hs'

@[simp] theorem ready_wake (v : View) : v.wake.ready = v.ready := by
  unfold View.wake
  split <;> rfl

@[simp] theorem ready_h2PromoteLocked (s : Cluster) (a : String) :
    (s.h2PromoteLocked a).view.ready = s.view.ready := by
  obtain ⟨-, he⟩ | ⟨w, q, k, -, -, he⟩ | ⟨w, q, s', -, -, hs', he⟩ | ⟨w, q, -, -, -, he⟩ :=
    h2PromoteLocked_cases s a <;> rw [he]
  · simp only [view_setPhase, view_setH2Waiters, view_addStreamsActive, view_addInFlight]
    rfl
  · simp only [view_setPhase, view_setH2Waiters, view_tryAcquireConnSlot hs']
    rfl

@[simp] theorem ready_closeConn (s : Cluster) (k : CallId) :
    (s.closeConn k).view.ready = s.view.ready := by
  rw [view_closeConn]
  split_ifs
  · rfl
  · rw [ready_wake]

@[simp] theorem ready_evictH2ConnLocked (s : Cluster) (a : String) (k : CallId) :
    (s.evictH2ConnLocked a k).view.ready = s.view.ready :=
  ready_closeConn _ k

@[simp] theorem h2Pool_wake (v : View) : v.wake.h2Pool = v.h2Pool := by
  unfold View.wake
  split <;> rfl

@[simp] theorem h2Waiters_wake (v : View) : v.wake.h2Waiters = v.h2Waiters := by
  unfold View.wake
  split <;> rfl

@[simp] theorem inFlight_wake (v : View) : v.wake.inFlight = v.inFlight := by
  unfold View.wake
  split <;> rfl

@[simp] theorem addr_h2PromoteLocked (s : Cluster) (a : String) :
    (s.h2PromoteLocked a).view.addr = s.view.addr := by
  obtain ⟨-, he⟩ | ⟨w, q, k, -, -, he⟩ | ⟨w, q, s', -, -, hs', he⟩ | ⟨w, q, -, -, -, he⟩ :=
    h2PromoteLocked_cases s a <;> rw [he]
  · simp only [view_setPhase, view_setH2Waiters, view_addStreamsActive, view_addInFlight]
    rfl
  · simp only [view_setPhase, view_setH2Waiters, view_tryAcquireConnSlot hs']
    rfl

theorem h2Pool_closeConn (s : Cluster) (k : CallId) : (s.closeConn k).h2Pool = s.h2Pool := by
  have hv := congrArg View.h2Pool (view_closeConn s k)
  split_ifs at hv
  · exact hv
  · rw [h2Pool_wake] at hv
    exact hv

theorem inFlight_closeConn (s : Cluster) (k j : CallId) :
    ((s.closeConn k).pcs j).inFlight = (s.pcs j).inFlight := by
  have hv := congrFun (congrArg View.inFlight (view_closeConn s k)) j
  split_ifs at hv
  · exact hv
  · rw [inFlight_wake] at hv
    exact hv

theorem h2Pool_evictH2ConnLocked (s : Cluster) (a : String) (k : CallId) :
    (s.evictH2ConnLocked a k).h2Pool = Function.update s.h2Pool a ((s.h2Pool a).erase k) :=
  h2Pool_closeConn _ k

theorem inFlight_evictH2ConnLocked (s : Cluster) (a : String) (k j : CallId) :
    ((s.evictH2ConnLocked a k).pcs j).inFlight = (s.pcs j).inFlight :=
  inFlight_closeConn _ k j

theorem h2Pool_h2PromoteLocked (s : Cluster) (a : String) :
    (s.h2PromoteLocked a).h2Pool = s.h2Pool := by
  obtain ⟨-, he⟩ | ⟨w, q, k, -, -, he⟩ | ⟨w, q, s', -, -, hs', he⟩ | ⟨w, q, -, -, -, he⟩ :=
    h2PromoteLocked_cases s a <;> rw [he]
  · rfl
  · change s'.h2Pool = s.h2Pool
    exact congrArg View.h2Pool (view_tryAcquireConnSlot hs')

theorem inFlight_h2PromoteLocked_of_dead (s : Cluster) (a : String) {k : CallId}
    (hk : s.live k = false) : ((s.h2PromoteLocked a).pcs k).inFlight = (s.pcs k).inFlight := by
  obtain ⟨-, he⟩ | ⟨w, q, j, -, hj, he⟩ | ⟨w, q, s', -, -, hs', he⟩ | ⟨w, q, -, -, -, he⟩ :=
    h2PromoteLocked_cases s a <;> rw [he]
  · have hp := List.find?_some hj
    have hne : k ≠ j := by
      rintro rfl
      rw [hk] at hp
      simp at hp
    simp only [setPhase, setCall, setH2Waiters, addStreamsActive, addInFlight, setPooled,
      Function.update_of_ne hne]
  · change (s'.pcs k).inFlight = _
    exact congrFun (congrArg View.inFlight (view_tryAcquireConnSlot hs')) k

theorem live_of_conns {s t : Cluster} (h : t.conns = s.conns) (k : CallId) :
    t.live k = s.live k := by
  rw [live, live, h]

inductive Fires (s : Cluster) : Event → Cluster → Prop
  | pick (api : API) (addr : String) : Fires s (.pick api addr) (step s (.pick api addr))
  | popIdleH1 {i : CallId} (hapi : (s.calls i).api = .acquireH1)
      (hi : (s.calls i).phase = .picked) : Fires s (.popIdleH1 i) (popIdleH1 s i)
  | acquireConnSlot {i : CallId} (hi : (s.calls i).api = .dial ∧ (s.calls i).phase = .picked ∨
      (s.calls i).phase = .missed) : Fires s (.acquireConnSlot i) (acquireConnSlot s i)
  | receivePermit {i : CallId} (hi : (s.calls i).phase = .handed) :
      Fires s (.receivePermit i) (s.setPhase i .dialing)
  | cancelPending {i : CallId} (hi : (s.calls i).phase = .pending) :
      Fires s (.cancelPending i) (removeWaiterLocked s i)
  | cancelHanded {i : CallId} (hi : (s.calls i).phase = .handed) :
      Fires s (.cancelPending i) ((s.giveUp i).releaseConnSlot i)
  | dialFails {i : CallId} (hi : (s.calls i).phase = .dialing) :
      Fires s (.dialFails i) ((s.giveUp i).releaseConnSlot i)
  | entryFails {i : CallId} (hi : (s.calls i).phase = .connecting) :
      Fires s (.dialFails i) (((s.setPhase i .dialFailed).lbRelease i).releaseConnSlot i)
  | dialSucceeds {i : CallId} (hi : (s.calls i).phase = .dialing) : Fires s (.dialSucceeds i)
      ((s.setConn i { s.conns i with opened := true }).setPhase i .returned)
  | entrySucceeds {i : CallId} (hi : (s.calls i).phase = .connecting) : Fires s (.dialSucceeds i)
      ((s.setConn i { s.conns i with opened := true }).setPhase i .shaking)
  | handshakeFails {i : CallId} (hi : (s.calls i).phase = .shaking) :
      Fires s (.handshakeFails i) ((s.setPhase i .dialFailed).closeConn i)
  | acquireH2Stream {i : CallId} (hapi : (s.calls i).api = .acquireH2Stream)
      (hi : (s.calls i).phase = .picked) : Fires s (.acquireH2Stream i) (acquireH2Stream s i)
  | receiveGrant {i : CallId} {cc : Option CallId} (hi : (s.calls i).phase = .granted cc) :
      Fires s (.receiveGrant i) (receiveGrant s i cc)
  | undoRaced {i : CallId} (hi : (s.calls i).phase = .raced) :
      Fires s (.undoRaced i) (undoRaced s i)
  | cancelQueued {i : CallId} (hi : (s.calls i).phase = .queued) :
      Fires s (.cancelQueued i) (removeH2WaiterLocked s i)
  | cancelGranted {i : CallId} {cc : Option CallId} (hi : (s.calls i).phase = .granted cc) :
      Fires s (.cancelQueued i) (giveBackGrant s i cc)
  | attachReady {i k : CallId} {out : DialOutcome} (hi : (s.calls i).phase = .attached k)
      (hout : (s.cns k).ready = some out) : Fires s (.attachReady i) (attachAfterReady s i k out)
  | attachCancelled {i k : CallId} (hi : (s.calls i).phase = .attached k)
      (hready : (s.cns k).ready = none) :
      Fires s (.attachCancelled i) (awaitAttachCancelled s i k)
  | failConnecting {i : CallId} (hi : (s.calls i).phase = .dialFailed) :
      Fires s (.failConnecting i) (failConnecting s i)
  | poolConnecting {i : CallId} (hi : (s.calls i).phase = .shaking) :
      Fires s (.poolConnecting i) (poolConnecting s i)
  | release {i k : CallId} (hi : (s.calls i).phase = .riding k) :
      Fires s (.release i) (releaseStream s i k)
  | evictOnError {addr : String} {k : CallId} (hk : k ∈ s.h2Pool addr) :
      Fires s (.evictOnError addr k) ((s.evictH2ConnLocked addr k).h2PromoteLocked addr)
  | goAway {k : CallId} (hk : (s.conns k).opened ∧ (s.calls k).api = .acquireH2Stream) :
      Fires s (.goAway k) (s.setConn k { s.conns k with goneAway := true })
  | teardown {k : CallId} (hk : (s.conns k).opened ∧ (s.calls k).api = .acquireH2Stream) :
      Fires s (.teardown k) (s.setConn k { s.conns k with closed := true })
  | watchGoneAway {k : CallId} (hk : (s.conns k).watcher = .running ∧ (s.conns k).goneAway) :
      Fires s (.watchGoneAway k) (watchGoneAway s k)
  | watchDone {k : CallId} (hk : (s.conns k).watcher = .running ∧ (s.conns k).closed) :
      Fires s (.watchDone k) (s.setConn k { s.conns k with watcher := .exited })
  | close {k : CallId} (hk : (s.conns k).opened ∧ (s.calls k).api ≠ .acquireH2Stream) :
      Fires s (.close k) (s.closeConn k)
  | putIdleH1 {k : CallId} {hasWaiter : Bool}
      (hk : (s.conns k).opened ∧ (s.calls k).api = .acquireH1) :
      Fires s (.putIdleH1 k hasWaiter) (putIdleH1 s k hasWaiter)

theorem step_cases (s : Cluster) (e : Event) : step s e = s ∨ Fires s e (step s e) := by
  cases e with
  | pick api a => exact .inr (.pick api a)
  | cancelPending i =>
    simp only [step]
    split
    · exact .inr (.cancelPending ‹_›)
    · exact .inr (.cancelHanded ‹_›)
    · exact .inl rfl
  | dialFails i =>
    simp only [step]
    split
    · exact .inr (.dialFails ‹_›)
    · exact .inr (.entryFails ‹_›)
    · exact .inl rfl
  | dialSucceeds i =>
    simp only [step]
    split
    · exact .inr (.dialSucceeds ‹_›)
    · exact .inr (.entrySucceeds ‹_›)
    · exact .inl rfl
  | cancelQueued i =>
    simp only [step]
    split
    · exact .inr (.cancelQueued ‹_›)
    · exact .inr (.cancelGranted ‹_›)
    · exact .inl rfl
  | receiveGrant i =>
    simp only [step]
    split
    · exact .inr (.receiveGrant ‹_›)
    · exact .inl rfl
  | release i =>
    simp only [step]
    split
    · exact .inr (.release ‹_›)
    · exact .inl rfl
  | attachReady i =>
    simp only [step]
    split
    · split
      · exact .inr (.attachReady ‹_› ‹_›)
      · exact .inl rfl
    · exact .inl rfl
  | attachCancelled i =>
    simp only [step]
    split
    · split_ifs with hready
      · exact .inr (.attachCancelled ‹_› hready)
      · exact .inl rfl
    · exact .inl rfl
  | popIdleH1 i =>
    simp only [step]
    split_ifs with hi
    · exact .inr (.popIdleH1 hi.1 hi.2)
    · exact .inl rfl
  | acquireH2Stream i =>
    simp only [step]
    split_ifs with hi
    · exact .inr (.acquireH2Stream hi.1 hi.2)
    · exact .inl rfl
  | _ =>
    simp only [step, evictH2ConnOnError]
    split_ifs with hi
    · exact .inr (by constructor; exact hi)
    · exact .inl rfl

theorem step_induct {P : Cluster → Prop} {s : Cluster} {e : Event} (h : P s)
    (hf : ∀ t, Fires s e t → P t) : P (step s e) := by
  obtain he | hfires := step_cases s e
  · rw [he]
    exact h
  · exact hf _ hfires

end EnvoyGo.H2Pool

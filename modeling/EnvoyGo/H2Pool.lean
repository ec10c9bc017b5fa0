import EnvoyGo.UpstreamH1Pool
import EnvoyGo.Runs
import Mathlib.Algebra.Group.Int.Defs

/-!
The connections of one cluster: the connection budget, the HTTP/1.1 idle pool and the
multiplexed HTTP/2 pool, as interleaved critical sections of concurrent calls.
-/

namespace EnvoyGo.H2Pool

/-- Calls are numbered in the order of their picks.  A call registers at most one connecting
entry and opens at most one connection, and both go by the number of the call. -/
abbrev CallId := Nat

inductive API
  | dial
  | acquireH1
  | acquireH2Stream
  deriving DecidableEq

/-- Where a call stands between two critical sections.  `pending` and `queued` are the waits in
`connPool.waiters` and `h2Waiters`, `handed` and `granted` the tokens on their channels. -/
inductive Phase
  | idle
  | picked
  | missed
  | pending
  | handed
  | dialing
  | queued
  | granted (cc : Option CallId)
  | raced
  | connecting
  | shaking
  | dialFailed
  | attached (cn : CallId)
  | riding (cc : CallId)
  | returned
  deriving DecidableEq

/-- The three counts are bookkeeping of the model: runs of the pick's release, permits
reserved for the call, and permits given back for it. -/
structure Call where
  api : API := .dial
  addr : String := ""
  phase : Phase := .idle
  lbReleases : Nat := 0
  permits : Nat := 0
  permitsBack : Nat := 0
  deriving DecidableEq

inductive DialOutcome
  | established
  | failed
  deriving DecidableEq

structure ConnectingH2Conn where
  ready : Option DialOutcome := none
  promised : Int := 0
  deriving DecidableEq

structure PooledH2Conn where
  inFlight : Int := 0
  deriving DecidableEq

inductive Watcher
  | unborn
  | running
  | exited
  deriving DecidableEq

/-- A `connWithGauge` (wrapped, `sync.Once` spent) and the `ClientConn` over it (context
cancelled, GOAWAY seen, its `watchDrain` goroutine). -/
structure Conn where
  opened : Bool := false
  once : Bool := false
  closed : Bool := false
  goneAway : Bool := false
  watcher : Watcher := .unborn
  deriving DecidableEq

structure ConnPool where
  maxConnections : Int
  maxPendingRequests : Int
  activeConns : Int := 0
  waiters : List CallId := []
  deriving DecidableEq

/-- Pointers into `h2Pool`, `h2Connecting`, `h2Waiters` and `h1Pool` are call numbers. -/
structure Cluster where
  h2MaxConcurrentStreams : Int
  pool : Option ConnPool
  h2Pool : String → List CallId := fun _ => []
  h2Connecting : String → List CallId := fun _ => []
  h2Waiters : String → List CallId := fun _ => []
  h1Pool : String → List CallId := fun _ => []
  streamsActive : Int := 0
  next : CallId := 0
  calls : CallId → Call := fun _ => {}
  cns : CallId → ConnectingH2Conn := fun _ => {}
  pcs : CallId → PooledH2Conn := fun _ => {}
  conns : CallId → Conn := fun _ => {}

def h2DefaultMaxConcurrentStreams : Int := 2 ^ 30

def extractH2MaxConcurrentStreams : Option Nat → Int
  | some v => if v > 0 then v else h2DefaultMaxConcurrentStreams
  | none => h2DefaultMaxConcurrentStreams

structure Thresholds where
  maxConnections : Option Nat := none
  maxPendingRequests : Option Nat := none

structure ClusterConfig where
  maxConcurrentStreams : Option Nat := none
  circuitBreakers : Option Thresholds := none

def newConnPool (t : Thresholds) : ConnPool where
  maxConnections := t.maxConnections.getD 1024
  maxPendingRequests := t.maxPendingRequests.getD 1024

def newCluster (cfg : ClusterConfig) : Cluster where
  h2MaxConcurrentStreams := extractH2MaxConcurrentStreams cfg.maxConcurrentStreams
  pool := cfg.circuitBreakers.map newConnPool

namespace Cluster

def setCall (s : Cluster) (i : CallId) (c : Call) : Cluster :=
  { s with calls := Function.update s.calls i c }

def setPhase (s : Cluster) (i : CallId) (p : Phase) : Cluster :=
  s.setCall i { s.calls i with phase := p }

def lbRelease (s : Cluster) (i : CallId) : Cluster :=
  s.setCall i { s.calls i with lbReleases := (s.calls i).lbReleases + 1 }

def countPermit (s : Cluster) (i : CallId) : Cluster :=
  s.setCall i { s.calls i with permits := (s.calls i).permits + 1 }

def countPermitBack (s : Cluster) (i : CallId) : Cluster :=
  s.setCall i { s.calls i with permitsBack := (s.calls i).permitsBack + 1 }

def giveUp (s : Cluster) (i : CallId) : Cluster := (s.setPhase i .returned).lbRelease i

def setConn (s : Cluster) (k : CallId) (c : Conn) : Cluster :=
  { s with conns := Function.update s.conns k c }

def setConnecting (s : Cluster) (k : CallId) (c : ConnectingH2Conn) : Cluster :=
  { s with cns := Function.update s.cns k c }

def setPooled (s : Cluster) (k : CallId) (c : PooledH2Conn) : Cluster :=
  { s with pcs := Function.update s.pcs k c }

def addInFlight (s : Cluster) (k : CallId) (d : Int) : Cluster :=
  s.setPooled k { inFlight := (s.pcs k).inFlight + d }

def addPromised (s : Cluster) (k : CallId) (d : Int) : Cluster :=
  s.setConnecting k { s.cns k with promised := (s.cns k).promised + d }

def addStreamsActive (s : Cluster) (d : Int) : Cluster :=
  { s with streamsActive := s.streamsActive + d }

def setPool (s : Cluster) (p : ConnPool) : Cluster := { s with pool := some p }

def setH2Pool (s : Cluster) (addr : String) (l : List CallId) : Cluster :=
  { s with h2Pool := Function.update s.h2Pool addr l }

def setH2Connecting (s : Cluster) (addr : String) (l : List CallId) : Cluster :=
  { s with h2Connecting := Function.update s.h2Connecting addr l }

def setH2Waiters (s : Cluster) (addr : String) (l : List CallId) : Cluster :=
  { s with h2Waiters := Function.update s.h2Waiters addr l }

def setH1Pool (s : Cluster) (addr : String) (l : List CallId) : Cluster :=
  { s with h1Pool := Function.update s.h1Pool addr l }

/-- Reserves a permit for call `i`; without circuit breakers there is nothing to reserve. -/
def tryAcquireConnSlot (s : Cluster) (i : CallId) : Option Cluster :=
  match s.pool with
  | none => some s
  | some p =>
    if p.activeConns < p.maxConnections then
      some ((s.setPool { p with activeConns := p.activeConns + 1 }).countPermit i)
    else none

def releaseConn (s : Cluster) : Cluster :=
  match s.pool with
  | none => s
  | some p =>
    match p.waiters with
    | w :: ws => ((s.setPool { p with waiters := ws }).countPermit w).setPhase w .handed
    | [] => s.setPool { p with activeConns := p.activeConns - 1 }

def releaseConnSlot (s : Cluster) (i : CallId) : Cluster :=
  match s.pool with
  | none => s
  | some _ => (s.countPermitBack i).releaseConn

def closeConn (s : Cluster) (k : CallId) : Cluster :=
  if (s.conns k).once then s
  else ((s.setConn k { s.conns k with once := true }).lbRelease k).releaseConnSlot k

def closeClientConn (s : Cluster) (k : CallId) : Cluster :=
  (s.setConn k { s.conns k with closed := true }).closeConn k

def live (s : Cluster) (k : CallId) : Bool := !(s.conns k).closed && !(s.conns k).goneAway

def findStreamHitLocked (s : Cluster) (addr : String) : Option CallId :=
  (s.h2Pool addr).find? fun k =>
    s.live k && decide ((s.pcs k).inFlight < s.h2MaxConcurrentStreams)

def findConnectingHitLocked (s : Cluster) (addr : String) : Option CallId :=
  (s.h2Connecting addr).find? fun k => decide ((s.cns k).promised < s.h2MaxConcurrentStreams)

def h2PromoteLocked (s : Cluster) (addr : String) : Cluster :=
  match s.h2Waiters addr with
  | [] => s
  | w :: q =>
    match s.findStreamHitLocked addr with
    | some k =>
      (((s.addInFlight k 1).addStreamsActive 1).setH2Waiters addr q).setPhase w
        (.granted (some k))
    | none =>
      match s.tryAcquireConnSlot w with
      | some s' => (s'.setH2Waiters addr q).setPhase w (.granted none)
      | none => s

def evictH2ConnLocked (s : Cluster) (addr : String) (k : CallId) : Cluster :=
  (s.setH2Pool addr ((s.h2Pool addr).erase k)).closeClientConn k

def removeConnectingLocked (s : Cluster) (addr : String) (k : CallId) : Cluster :=
  s.setH2Connecting addr ((s.h2Connecting addr).erase k)

/-- The call becomes the initiator of a connecting entry; its permit is reserved already. -/
def register (s : Cluster) (i : CallId) : Cluster :=
  let addr := (s.calls i).addr
  (((s.setH2Connecting addr (s.h2Connecting addr ++ [i])).setConnecting i
    { promised := 1 }).addStreamsActive 1).setPhase i .connecting

end Cluster

open Cluster

/-- `AcquireH2Stream` up to its first unlock: stream hit, attach, initiate, overflow or pend. -/
def acquireH2Stream (s : Cluster) (i : CallId) : Cluster :=
  let addr := (s.calls i).addr
  match s.findStreamHitLocked addr with
  | some k => (((s.addInFlight k 1).addStreamsActive 1).setPhase i (.riding k)).lbRelease i
  | none =>
    match s.findConnectingHitLocked addr with
    | some k => (((s.addPromised k 1).addStreamsActive 1).setPhase i (.attached k)).lbRelease i
    | none =>
      match s.tryAcquireConnSlot i with
      | some s' => s'.register i
      | none =>
        match s.pool with
        | none => s
        | some p =>
          if p.maxPendingRequests ≤ ((s.h2Waiters addr).length : Int) then s.giveUp i
          else (s.setH2Waiters addr (s.h2Waiters addr ++ [i])).setPhase i .queued

def receiveGrant (s : Cluster) (i : CallId) : Option CallId → Cluster
  | some k =>
    if k ∈ s.h2Pool (s.calls i).addr then (s.setPhase i (.riding k)).lbRelease i
    else s.setPhase i .raced
  | none => s.register i

def undoRaced (s : Cluster) (i : CallId) : Cluster :=
  ((s.addStreamsActive (-1)).giveUp i).h2PromoteLocked (s.calls i).addr

/-- `ctx.Done()` after the waiter was dequeued: the grant is drained and given back. -/
def giveBackGrant (s : Cluster) (i : CallId) : Option CallId → Cluster
  | some k =>
    let addr := (s.calls i).addr
    let s' := if k ∈ s.h2Pool addr then s.addInFlight k (-1) else s
    ((s'.addStreamsActive (-1)).giveUp i).h2PromoteLocked addr
  | none => ((s.giveUp i).releaseConnSlot i).h2PromoteLocked (s.calls i).addr

/-- `ctx.Done()` while queued. -/
def removeH2WaiterLocked (s : Cluster) (i : CallId) : Cluster :=
  let addr := (s.calls i).addr
  (s.setH2Waiters addr ((s.h2Waiters addr).erase i)).giveUp i

/-- `ready` is closed.  An attacher whose context is done as well then releases its slot. -/
def attachAfterReady (s : Cluster) (i k : CallId) : DialOutcome → Cluster
  | .failed => s.setPhase i .returned
  | .established =>
    if k ∈ s.h2Pool (s.calls i).addr then s.setPhase i (.riding k)
    else (s.addStreamsActive (-1)).setPhase i .returned

/-- `ctx.Done()` while the entry still connects. -/
def awaitAttachCancelled (s : Cluster) (i k : CallId) : Cluster :=
  ((s.addPromised k (-1)).addStreamsActive (-1)).setPhase i .returned

def failConnecting (s : Cluster) (i : CallId) : Cluster :=
  let addr := (s.calls i).addr
  ((((s.removeConnectingLocked addr i).setConnecting i
    { s.cns i with ready := some .failed }).addStreamsActive (-(s.cns i).promised)).setPhase i
    .returned).h2PromoteLocked addr

/-- `dialAndPool` after a successful dial. -/
def poolConnecting (s : Cluster) (i : CallId) : Cluster :=
  let addr := (s.calls i).addr
  ((((((s.removeConnectingLocked addr i).setPooled i
    { inFlight := (s.cns i).promised }).setH2Pool addr (s.h2Pool addr ++ [i])).setConn i
    { s.conns i with watcher := .running }).setConnecting i
    { s.cns i with ready := some .established }).setPhase i (.riding i)).h2PromoteLocked addr

def releaseStream (s : Cluster) (i k : CallId) : Cluster :=
  let addr := (s.calls i).addr
  let s' := (((s.addInFlight k (-1)).addStreamsActive (-1)).setPhase i
    .returned).h2PromoteLocked addr
  if !s'.live k && decide ((s'.pcs k).inFlight = 0) then
    (s'.evictH2ConnLocked addr k).h2PromoteLocked addr
  else s'

def evictH2ConnOnError (s : Cluster) (addr : String) (k : CallId) : Cluster :=
  if k ∈ s.h2Pool addr then (s.evictH2ConnLocked addr k).h2PromoteLocked addr else s

def watchGoneAway (s : Cluster) (k : CallId) : Cluster :=
  let addr := (s.calls k).addr
  let s' := s.setConn k { s.conns k with watcher := .exited }
  if k ∈ s'.h2Pool addr ∧ (s'.pcs k).inFlight = 0 then
    (s'.evictH2ConnLocked addr k).h2PromoteLocked addr
  else s'

def acquireConnSlot (s : Cluster) (i : CallId) : Cluster :=
  match s.tryAcquireConnSlot i with
  | some s' => s'.setPhase i .dialing
  | none =>
    match s.pool with
    | none => s
    | some p =>
      if p.maxPendingRequests ≤ (p.waiters.length : Int) then s.giveUp i
      else (s.setPool { p with waiters := p.waiters ++ [i] }).setPhase i .pending

/-- `ctx.Done()` while pending. -/
def removeWaiterLocked (s : Cluster) (i : CallId) : Cluster :=
  match s.pool with
  | none => s
  | some p => (s.setPool { p with waiters := p.waiters.erase i }).giveUp i

def popIdleH1 (s : Cluster) (i : CallId) : Cluster :=
  let addr := (s.calls i).addr
  match (s.h1Pool addr).getLast? with
  | some _ => (s.setH1Pool addr (s.h1Pool addr).dropLast).giveUp i
  | none => s.setPhase i .missed

def putIdleH1 (s : Cluster) (k : CallId) (hasWaiter : Bool) : Cluster :=
  let addr := (s.calls k).addr
  if hasWaiter then s.closeConn k
  else if (s.h1Pool addr).length ≥ h1PoolMaxPerEndpoint then s.closeConn k
  else s.setH1Pool addr (s.h1Pool addr ++ [k])

/-- The critical sections of the calls, the outcomes of their dials, and what peers and
callers do to connections. -/
inductive Event
  | pick (api : API) (addr : String)
  | popIdleH1 (i : CallId)
  | acquireConnSlot (i : CallId)
  | receivePermit (i : CallId)
  | cancelPending (i : CallId)
  | dialFails (i : CallId)
  | dialSucceeds (i : CallId)
  | handshakeFails (i : CallId)
  | acquireH2Stream (i : CallId)
  | receiveGrant (i : CallId)
  | undoRaced (i : CallId)
  | cancelQueued (i : CallId)
  | attachReady (i : CallId)
  | attachCancelled (i : CallId)
  | failConnecting (i : CallId)
  | poolConnecting (i : CallId)
  | release (i : CallId)
  | evictOnError (addr : String) (k : CallId)
  | goAway (k : CallId)
  | teardown (k : CallId)
  | watchGoneAway (k : CallId)
  | watchDone (k : CallId)
  | close (k : CallId)
  | putIdleH1 (k : CallId) (hasWaiter : Bool)
  deriving DecidableEq

/-- A step that is not enabled leaves the cluster alone. -/
def step (s : Cluster) : Event → Cluster
  | .pick api addr =>
    { s with next := s.next + 1 }.setCall s.next { api := api, addr := addr, phase := .picked }
  | .popIdleH1 i =>
    if (s.calls i).api = .acquireH1 ∧ (s.calls i).phase = .picked then popIdleH1 s i else s
  | .acquireConnSlot i =>
    if (s.calls i).api = .dial ∧ (s.calls i).phase = .picked ∨ (s.calls i).phase = .missed then
      acquireConnSlot s i
    else s
  | .receivePermit i =>
    if (s.calls i).phase = .handed then s.setPhase i .dialing else s
  | .cancelPending i =>
    match (s.calls i).phase with
    | .pending => removeWaiterLocked s i
    | .handed => (s.giveUp i).releaseConnSlot i
    | _ => s
  | .dialFails i =>
    match (s.calls i).phase with
    | .dialing => (s.giveUp i).releaseConnSlot i
    | .connecting => ((s.setPhase i .dialFailed).lbRelease i).releaseConnSlot i
    | _ => s
  | .dialSucceeds i =>
    match (s.calls i).phase with
    | .dialing => (s.setConn i { s.conns i with opened := true }).setPhase i .returned
    | .connecting => (s.setConn i { s.conns i with opened := true }).setPhase i .shaking
    | _ => s
  | .handshakeFails i =>
    if (s.calls i).phase = .shaking then (s.setPhase i .dialFailed).closeConn i else s
  | .acquireH2Stream i =>
    if (s.calls i).api = .acquireH2Stream ∧ (s.calls i).phase = .picked then
      acquireH2Stream s i
    else s
  | .receiveGrant i =>
    match (s.calls i).phase with
    | .granted cc => receiveGrant s i cc
    | _ => s
  | .undoRaced i => if (s.calls i).phase = .raced then undoRaced s i else s
  | .cancelQueued i =>
    match (s.calls i).phase with
    | .queued => removeH2WaiterLocked s i
    | .granted cc => giveBackGrant s i cc
    | _ => s
  | .attachReady i =>
    match (s.calls i).phase with
    | .attached k =>
      match (s.cns k).ready with
      | some out => attachAfterReady s i k out
      | none => s
    | _ => s
  | .attachCancelled i =>
    match (s.calls i).phase with
    | .attached k => if (s.cns k).ready = none then awaitAttachCancelled s i k else s
    | _ => s
  | .failConnecting i => if (s.calls i).phase = .dialFailed then failConnecting s i else s
  | .poolConnecting i => if (s.calls i).phase = .shaking then poolConnecting s i else s
  | .release i =>
    match (s.calls i).phase with
    | .riding k => releaseStream s i k
    | _ => s
  | .evictOnError addr k => evictH2ConnOnError s addr k
  | .goAway k =>
    if (s.conns k).opened ∧ (s.calls k).api = .acquireH2Stream then
      s.setConn k { s.conns k with goneAway := true }
    else s
  | .teardown k =>
    if (s.conns k).opened ∧ (s.calls k).api = .acquireH2Stream then
      s.setConn k { s.conns k with closed := true }
    else s
  | .watchGoneAway k =>
    if (s.conns k).watcher = .running ∧ (s.conns k).goneAway then watchGoneAway s k else s
  | .watchDone k =>
    if (s.conns k).watcher = .running ∧ (s.conns k).closed then
      s.setConn k { s.conns k with watcher := .exited }
    else s
  | .close k =>
    if (s.conns k).opened ∧ (s.calls k).api ≠ .acquireH2Stream then s.closeConn k else s
  | .putIdleH1 k hasWaiter =>
    if (s.conns k).opened ∧ (s.calls k).api = .acquireH1 then putIdleH1 s k hasWaiter else s

def run (cfg : ClusterConfig) (es : List Event) : Cluster := es.foldl step (newCluster cfg)

end EnvoyGo.H2Pool

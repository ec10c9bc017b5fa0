import Mathlib.Data.List.Basic
import Mathlib.Logic.Function.Basic
import EnvoyGo.Runs
import Mathlib.Algebra.Group.Nat.Defs

/-!
A root VM of the Wasm filter and the stream contexts that share its guest instance.  Whoever holds
`dispatchMu` runs one guest callback; the other locks are held for single accesses, which are the
steps here.  What the guest does, and when, is the run's.  `RootVM.Close` is left out.
-/

namespace EnvoyGo.Wasm

def idLimit : ℕ := 2^32

inductive Callback
  | contextCreate
  | requestHeaders
  | responseHeaders
  | requestBody
  | responseBody
  | requestTrailers
  | responseTrailers
  | httpCallResponse (callID : ℕ)
  | done
  | log
  | delete
  deriving DecidableEq

def Callback.guestExport : Callback → String
  | .contextCreate => "proxy_on_context_create"
  | .requestHeaders => "proxy_on_request_headers"
  | .responseHeaders => "proxy_on_response_headers"
  | .requestBody => "proxy_on_request_body"
  | .responseBody => "proxy_on_response_body"
  | .requestTrailers => "proxy_on_request_trailers"
  | .responseTrailers => "proxy_on_response_trailers"
  | .httpCallResponse _ => "proxy_on_http_call_response"
  | .done => "proxy_on_done"
  | .log => "proxy_on_log"
  | .delete => "proxy_on_delete"

/-- The callbacks the filter makes through `dispatchGuest`, from any goroutine. -/
def Callback.ofFilter : Callback → Bool
  | .requestHeaders | .responseHeaders | .requestBody | .responseBody | .requestTrailers
  | .responseTrailers => true
  | _ => false

inductive RootCallback
  | configure
  | reload
  | tick
  deriving DecidableEq

/-- The callback that runs under `dispatchMu`; streams are numbered in the order of creation. -/
inductive Frame
  | stream (i : ℕ) (cb : Callback)
  | root (cb : RootCallback)
  deriving DecidableEq

inductive CloseAt
  | notCalled
  | atDone
  | atLog
  | atDelete
  | atFlag
  | atUnmap
  | atCancel
  | finished
  deriving DecidableEq

/-- `createdOn` is the instance on which the context was made, `usable` that `NewStreamContext` has
returned it. -/
structure StreamContext where
  streamCtxID : ℕ
  createdOn : Option ℕ := none
  usable : Bool := false
  closed : Bool := false
  trapped : Bool := false
  closeAt : CloseAt := .notCalled
  deriving DecidableEq

/-- Where the goroutine of one `proxy_http_call` is: in `Dispatch`, with the token taken, with the
stream looked up, or out. -/
inductive ResponderAt
  | inFlight
  | token (streamCtxID : ℕ)
  | resolved (i : ℕ)
  | finished
  deriving DecidableEq

structure Responder where
  callID : ℕ
  pos : ResponderAt := .inFlight
  deriving DecidableEq

inductive ReloadState
  | running
  | failed
  deriving DecidableEq

/-- What an observer notes: a callback entered on an instance, a trap on it, and a hostcall for
headers, body or properties with the stream it reached. -/
inductive Entry
  | guest (f : Frame) (inst : ℕ)
  | trap (inst : ℕ)
  | access (f : Frame) (reached : Option ℕ)
  deriving DecidableEq

/-- The capability is granted and, for a callback, the guest has the function. -/
structure GuestModule where
  callable : String → Bool

/-- `admitted` counts the requests that `ReloadDispatch` let through to `NewStreamContext`,
`unnoted` those whose trap the filter has yet to note. -/
structure RootVM where
  rootCtxID : ℕ
  inst : Option ℕ := some 0
  instances : ℕ := 1
  published : Bool := false
  reload : ReloadState := .running
  admitted : ℕ := 0
  unnoted : ℕ := 0
  streams : List StreamContext := []
  nextStreamCtxID : ℕ := 0
  streamCtxs : ℕ → Option ℕ := fun _ => none
  perCB : ℕ → Option ℕ := fun _ => none
  httpCalls : ℕ → Option ℕ := fun _ => none
  nextCallID : ℕ := 0
  responders : List Responder := []
  currentCtxID : ℕ
  running : Option Frame := none
  trace : List Entry := []

inductive Event
  | newStream
  | createContext (i : ℕ)
  | register (i : ℕ)
  | unregister (i : ℕ)
  | callback (i : ℕ) (cb : Callback)
  | close (i : ℕ)
  | httpCall
  | takeToken (k : ℕ)
  | resolve (k : ℕ)
  | respond (k : ℕ)
  | tick
  | setEffectiveContext (id : ℕ)
  | access
  | guestReturns (trap : Bool)
  | noteRuntimeError
  | reloadDispatch (elapsed instantiates : Bool)
  deriving DecidableEq

namespace RootVM

def setStream (s : RootVM) (i : ℕ) (f : StreamContext → StreamContext) : RootVM :=
  { s with streams := s.streams.modify i f }

def setResponder (s : RootVM) (k : ℕ) (pos : ResponderAt) : RootVM :=
  { s with responders := s.responders.modify k (fun r => { r with pos := pos }) }

def enter (s : RootVM) (f : Frame) (ctxID n : ℕ) : RootVM :=
  { s with
    currentCtxID := ctxID
    running := some f
    trace := s.trace ++ [.guest f n] }

/-- `dispatchGuest` from the point where `dispatchMu` is free; the check before it reads the same
flag as the one after. -/
def dispatchGuest (m : GuestModule) (s : RootVM) (i : ℕ) (sc : StreamContext) (cb : Callback) :
    RootVM :=
  match s.inst with
  | none => s
  | some n =>
    if sc.closed = false ∧ m.callable cb.guestExport = true then
      s.enter (.stream i cb) sc.streamCtxID n
    else s

def newStream (s : RootVM) : RootVM :=
  let id := (s.nextStreamCtxID + 1) % idLimit
  { s with
    admitted := s.admitted - 1
    nextStreamCtxID := id
    streams := s.streams ++ [{ streamCtxID := id }]
    streamCtxs := Function.update s.streamCtxs id (some s.streams.length) }

def createContext (m : GuestModule) (s : RootVM) (i : ℕ) (sc : StreamContext) : RootVM :=
  match s.inst with
  | none => { s with streamCtxs := Function.update s.streamCtxs sc.streamCtxID none }
  | some n =>
    if m.callable Callback.contextCreate.guestExport then
      (s.setStream i (fun sc => { sc with createdOn := some n })).enter
        (.stream i .contextCreate) sc.streamCtxID n
    else
      { s.setStream i (fun sc => { sc with createdOn := some n, usable := true }) with
        currentCtxID := sc.streamCtxID }

/-- One step of `Close`.  The three callbacks go through `dispatchGuest`; the rest is without
`dispatchMu`. -/
def close (m : GuestModule) (s : RootVM) (i : ℕ) (sc : StreamContext) : RootVM :=
  match sc.closeAt with
  | .notCalled =>
    s.setStream i (fun sc => { sc with closeAt := if sc.trapped then .atFlag else .atDone })
  | .atDone =>
    if s.running = none then
      (s.setStream i (fun sc => { sc with closeAt := .atLog })).dispatchGuest m i sc .done
    else s
  | .atLog =>
    if s.running = none then
      (s.setStream i (fun sc => { sc with closeAt := .atDelete })).dispatchGuest m i sc .log
    else s
  | .atDelete =>
    if s.running = none then
      (s.setStream i (fun sc => { sc with closeAt := .atFlag })).dispatchGuest m i sc .delete
    else s
  | .atFlag =>
    if s.running = some (.stream i .delete) then s
    else s.setStream i (fun sc => { sc with closed := true, closeAt := .atUnmap })
  | .atUnmap =>
    { s.setStream i (fun sc => { sc with closeAt := .atCancel }) with
      streamCtxs := Function.update s.streamCtxs sc.streamCtxID none }
  | .atCancel =>
    { s.setStream i (fun sc => { sc with closeAt := .finished }) with
      httpCalls := fun c => if s.httpCalls c = some sc.streamCtxID then none else s.httpCalls c }
  | .finished => s

/-- `DispatchHttpCall` for a known cluster, in the context the hostcall is made in. -/
def dispatchHttpCall (s : RootVM) : RootVM :=
  let callID := (s.nextCallID + 1) % idLimit
  { s with
    nextCallID := callID
    httpCalls := Function.update s.httpCalls callID (some s.currentCtxID)
    responders := s.responders ++ [{ callID := callID }] }

/-- The three parts of `handleHttpCallResponse`: the token, the stream, and the call. -/
def takeToken (s : RootVM) (k : ℕ) (r : Responder) : RootVM :=
  match s.httpCalls r.callID with
  | none => s.setResponder k .finished
  | some id =>
    { s.setResponder k (.token id) with
      httpCalls := Function.update s.httpCalls r.callID none }

def resolve (s : RootVM) (k id : ℕ) : RootVM :=
  match s.streamCtxs id with
  | none => s.setResponder k .finished
  | some i =>
    match s.streams[i]? with
    | none => s.setResponder k .finished
    | some sc =>
      if sc.closed then s.setResponder k .finished else s.setResponder k (.resolved i)

def respond (m : GuestModule) (s : RootVM) (k : ℕ) (r : Responder) (i : ℕ) (sc : StreamContext) :
    RootVM :=
  let t := s.setResponder k .finished
  match s.inst with
  | none => t
  | some n =>
    if sc.closed then t
    else if m.callable (Callback.httpCallResponse r.callID).guestExport then
      t.enter (.stream i (.httpCallResponse r.callID)) sc.streamCtxID n
    else { t with currentCtxID := sc.streamCtxID }

def tick (m : GuestModule) (s : RootVM) : RootVM :=
  match s.inst with
  | none => s
  | some n =>
    if m.callable "proxy_on_tick" then s.enter (.root .tick) s.rootCtxID n
    else { s with currentCtxID := s.rootCtxID }

/-- `rootABICallbacks.lookup` for the effective context. -/
def lookup (s : RootVM) : Option ℕ := s.perCB s.currentCtxID

def afterReturn (s : RootVM) (trap : Bool) : Frame → RootVM
  | .stream i .contextCreate =>
    if trap then
      match s.streams[i]? with
      | none => s
      | some sc => { s with streamCtxs := Function.update s.streamCtxs sc.streamCtxID none }
    else s.setStream i (fun sc => { sc with usable := true })
  | .stream i .requestHeaders =>
    if trap then
      { s.setStream i (fun sc => { sc with trapped := true }) with unnoted := s.unnoted + 1 }
    else s
  | .stream i _ => if trap then s.setStream i (fun sc => { sc with trapped := true }) else s
  | .root .configure => if trap then s else { s with published := true }
  | .root .reload =>
    if trap then { s with reload := .failed }
    else { s with reload := .running, admitted := s.admitted + 1 }
  | .root .tick => s

def guestReturns (s : RootVM) (trap : Bool) (f : Frame) : RootVM :=
  let noted :=
    match trap, s.inst with
    | true, some n => s.trace ++ [.trap n]
    | _, _ => s.trace
  ({ s with running := none, trace := noted }).afterReturn trap f

/-- `ReloadDispatch`: served, kept waiting by the backoff, or a fresh instance and the lifecycle on
it. -/
def reloadDispatch (s : RootVM) (elapsed instantiates : Bool) : RootVM :=
  match s.reload, elapsed, instantiates with
  | .running, _, _ => { s with admitted := s.admitted + 1 }
  | .failed, false, _ => s
  | .failed, true, false => { s with inst := none }
  | .failed, true, true =>
    ({ s with inst := some s.instances, instances := s.instances + 1 }).enter (.root .reload)
      s.rootCtxID s.instances

end RootVM

/-- Every capability is granted and every callback exported. -/
def allCallable : GuestModule := ⟨fun _ => true⟩

open RootVM

/-- A step that is not ready leaves the state alone. -/
def step (m : GuestModule) (s : RootVM) : Event → RootVM
  | .newStream => if s.published ∧ 0 < s.admitted then s.newStream else s
  | .createContext i =>
    match s.streams[i]? with
    | none => s
    | some sc =>
      if s.running = none ∧ sc.createdOn = none then createContext m s i sc else s
  | .register i =>
    match s.streams[i]? with
    | none => s
    | some sc =>
      if sc.usable = true ∧ sc.closeAt = .notCalled then
        { s with perCB := Function.update s.perCB sc.streamCtxID (some i) }
      else s
  | .unregister i =>
    match s.streams[i]? with
    | none => s
    | some sc =>
      if sc.closeAt = .finished then
        { s with perCB := Function.update s.perCB sc.streamCtxID none }
      else s
  | .callback i cb =>
    match s.streams[i]? with
    | none => s
    | some sc =>
      if s.running = none ∧ sc.usable = true ∧ cb.ofFilter = true then
        s.dispatchGuest m i sc cb
      else s
  | .close i =>
    match s.streams[i]? with
    | none => s
    | some sc => if sc.usable then close m s i sc else s
  | .httpCall => if s.running = none then s else s.dispatchHttpCall
  | .takeToken k =>
    match s.responders[k]? with
    | none => s
    | some r => if r.pos = .inFlight then s.takeToken k r else s
  | .resolve k =>
    match s.responders[k]? with
    | none => s
    | some r =>
      match r.pos with
      | .token id => s.resolve k id
      | _ => s
  | .respond k =>
    match s.responders[k]? with
    | none => s
    | some r =>
      match r.pos with
      | .resolved i =>
        match s.streams[i]? with
        | none => s
        | some sc => if s.running = none then respond m s k r i sc else s
      | _ => s
  | .tick => if s.running = none ∧ s.published = true then s.tick m else s
  | .setEffectiveContext id =>
    if s.running ≠ none ∧ m.callable "proxy_set_effective_context" = true then
      { s with currentCtxID := id }
    else s
  | .access =>
    match s.running with
    | none => s
    | some f => { s with trace := s.trace ++ [.access f s.lookup] }
  | .guestReturns trap =>
    match s.running with
    | none => s
    | some f => s.guestReturns trap f
  | .noteRuntimeError =>
    if 0 < s.unnoted then { s with unnoted := s.unnoted - 1, reload := .failed } else s
  | .reloadDispatch elapsed instantiates =>
    if s.running = none ∧ s.published = true then s.reloadDispatch elapsed instantiates else s

/-- `NewRootVM`, at the start of `Configure`. -/
def newRootVM (rootCtxID : ℕ) : RootVM where
  rootCtxID := rootCtxID
  currentCtxID := rootCtxID
  running := some (.root .configure)
  trace := [.guest (.root .configure) 0]

end EnvoyGo.Wasm

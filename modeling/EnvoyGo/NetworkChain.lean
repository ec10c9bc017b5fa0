import EnvoyGo.HTTPHeader
import Mathlib.Logic.Function.Basic

/-!
The runtime of an L4 filter chain.  All read filters look at one shared buffer; a pass over the
chain calls them one after the other from the resume index on, and after the handoff the same
filters are shown every byte the terminal filter reads.  One turn of a loop is one definition, so
that whatever happens between two filter calls can be said about the state between them.
-/

namespace EnvoyGo.Network

/-- The connection's read buffer: the bytes not drained yet, and the count of all bytes ever
appended. -/
structure Buffer where
  data : Bytes := []
  total : ℕ := 0
  deriving DecidableEq

namespace Buffer

def append (b : Buffer) (p : Bytes) : Buffer := ⟨b.data ++ p, b.total + p.length⟩

def drain (b : Buffer) (n : ℕ) : Buffer := { b with data := b.data.drop n }

theorem append_nil (b : Buffer) : b.append [] = b := by simp [append]

end Buffer

def newBytes (chain : Bytes) (totalAppended consumed : ℕ) : Bytes × ℕ :=
  if totalAppended ≤ consumed then ([], consumed)
  else
    let newCount := min (totalAppended - consumed) chain.length
    (chain.drop (chain.length - newCount), totalAppended)

inductive Status
  | continueIteration
  | stopIteration
  deriving DecidableEq

inductive CloseType
  | flushWrite
  | noFlush
  deriving DecidableEq

/-- What a filter does in one call: the status it returns, the bytes it drains from the buffer,
whether `ContinueReading` is called before it returns, and its `Connection().Close`. -/
structure Reaction where
  status : Status := .continueIteration
  drain : ℕ := 0
  resume : Bool := false
  close : Option CloseType := none
  deriving DecidableEq

/-- A read filter with a state of its own.  A sniffing filter (kafka_broker, mongo_proxy,
zookeeper_proxy) feeds its decoder with `newBytes`, and is a write filter too. -/
structure ReadFilter (σ : Type) where
  onNewConnection : σ → Reaction × σ
  onData : σ → Buffer → Bool → Reaction × σ
  sniffs : Bool := false
  writes : Bool := false
  mayHalt : Bool := false
  writes_of_sniffs : sniffs = true → writes = true := by simp

/-- The read filters in chain order, whether a terminal filter ends the chain, and whether it has
a filter of the write direction only. -/
structure Chain (σ : Type) where
  filters : List (ReadFilter σ)
  terminal : Bool
  writeOnly : Bool := false

namespace Chain

variable {σ : Type} (c : Chain σ)

def haltable : Bool := c.filters.any (·.mayHalt)

def wrapped : Bool := c.writeOnly || c.filters.any (·.writes)

def Sniffs (i : ℕ) : Prop := (c.filters[i]?.any (·.sniffs)) = true

instance (i : ℕ) : Decidable (c.Sniffs i) :=
  inferInstanceAs (Decidable ((c.filters[i]?.any (·.sniffs)) = true))

end Chain

/-- What happens on a connection, for the record: a filter is shown the buffer, a filter closes
when so many bytes have been received, the terminal gets bytes that end at a place of the
downstream stream. -/
inductive Obs
  | data (filter : ℕ) (buf : Buffer)
  | close (filter : ℕ) (received : ℕ)
  | upstream (bytes : Bytes) (upTo : ℕ)
  deriving DecidableEq

/-- `pass` says that a goroutine is inside `runData`, `held` that it (or the terminal's read) is
blocked in `holdUntilResume`.  `mem` holds the filters' own states, `consumed` the sniffers'
cursors; `fed` and `log` are history. -/
structure Runtime (σ : Type) where
  buf : Buffer := {}
  mem : ℕ → σ
  done : ℕ → Bool := fun _ => false
  resumeIdx : ℕ := 0
  connHalted : Bool := false
  resumeRequested : Bool := false
  lastEndStream : Bool := false
  closeReq : Bool := false
  closeType : CloseType := .flushWrite
  held : Bool := false
  resumeReady : Bool := false
  replayIdx : ℕ := 0
  replayHeld : Bool := false
  pass : Bool := false
  consumed : ℕ → ℕ := fun _ => 0
  fed : ℕ → Bytes := fun _ => []
  log : List Obs := []

namespace Runtime

variable {σ : Type} (c : Chain σ) (rt : Runtime σ)

def finishParkedReplay : Runtime σ :=
  { rt with replayHeld := false, replayIdx := 0, buf := rt.buf.drain rt.buf.data.length }

/-- Wakes the holder, or leaves the resume for the next hold.  A holder inside `runData` goes on
with the next filter. -/
def releaseResume : Runtime σ :=
  if rt.held then
    { rt with held := false, resumeIdx := if rt.pass then rt.resumeIdx + 1 else rt.resumeIdx }
  else { rt with resumeReady := true }

def signalResume : Runtime σ :=
  if c.haltable then
    if rt.replayHeld then rt.finishParkedReplay.releaseResume else rt.releaseResume
  else { rt with resumeRequested := true }

/-- `ContinueReading`, from outside a filter call.  Out of an `OnNewConnection` halt it runs
`runData` itself. -/
def continueReading : Runtime σ :=
  if rt.connHalted then
    { rt with connHalted := false, resumeIdx := rt.resumeIdx + 1, pass := true }
  else rt.signalResume c

/-- `connection.Close` by filter `i`: the request is recorded, nothing else happens. -/
def close (i : ℕ) (ct : CloseType) : Runtime σ :=
  { rt with closeReq := true, closeType := ct, log := rt.log ++ [.close i rt.buf.total] }

def react (i : ℕ) (r : Reaction) : Runtime σ :=
  let rt := { rt with buf := rt.buf.drain r.drain }
  let rt := match r.close with
    | none => rt
    | some ct => rt.close i ct
  if r.resume then rt.signalResume c else rt

theorem react_eq (i : ℕ) (r : Reaction) :
    rt.react c i r =
      if r.resume then
        (r.close.elim { rt with buf := rt.buf.drain r.drain }
          ({ rt with buf := rt.buf.drain r.drain }.close i)).signalResume c
      else
        r.close.elim { rt with buf := rt.buf.drain r.drain }
          ({ rt with buf := rt.buf.drain r.drain }.close i) := by
  unfold react
  cases r.close with
  | none => rfl
  | some ct => rfl

/-- A sniffing filter takes its new bytes into its decoder.  (A mongo decoder that has given up
moves its cursor the same way and drops them.) -/
def sniff (i : ℕ) : Runtime σ :=
  { rt with
    fed := Function.update rt.fed i
      (rt.fed i ++ (newBytes rt.buf.data rt.buf.total (rt.consumed i)).1)
    consumed := Function.update rt.consumed i
      (newBytes rt.buf.data rt.buf.total (rt.consumed i)).2 }

def callOnNewConnection (i : ℕ) (f : ReadFilter σ) : Status × Runtime σ :=
  let r := f.onNewConnection (rt.mem i)
  (r.1.status,
    { rt with done := Function.update rt.done i true, mem := Function.update rt.mem i r.2 }.react c
      i { r.1 with drain := 0 })

def callOnData (i : ℕ) (f : ReadFilter σ) (endStream : Bool) : Status × Runtime σ :=
  let r := f.onData (rt.mem i) rt.buf endStream
  let shown : Runtime σ := { rt with
    mem := Function.update rt.mem i r.2, log := rt.log ++ [.data i rt.buf] }
  (r.1.status, (if f.sniffs then shown.sniff i else shown).react c i r.1)

def openFrom : List (ReadFilter σ) → ℕ → Runtime σ → Runtime σ
  | [], _, rt => { rt with resumeIdx := 0 }
  | f :: fs, i, rt =>
    match rt.callOnNewConnection c i f with
    | (.stopIteration, rt) => { rt with connHalted := true, resumeIdx := i }
    | (.continueIteration, rt) => openFrom fs (i + 1) { rt with resumeIdx := i + 1 }

def onNewConnection : Runtime σ := openFrom c c.filters 0 rt

/-- The bytes are buffered; unless a filter halted in its `OnNewConnection`, a pass begins. -/
def onData (p : Bytes) (endStream : Bool) : Runtime σ :=
  { rt with buf := rt.buf.append p, lastEndStream := endStream, pass := !rt.connHalted }

def deliver (i : ℕ) (f : ReadFilter σ) : Runtime σ :=
  if rt.buf.data = [] ∧ rt.lastEndStream = false then { rt with pass := false }
  else
    match { rt with resumeRequested := false }.callOnData c i f rt.lastEndStream with
    | (.continueIteration, rt) => { rt with resumeIdx := i + 1 }
    | (.stopIteration, rt) =>
      if rt.resumeRequested then { rt with resumeRequested := false, resumeIdx := i + 1 }
      else if c.haltable then
        -- `holdUntilResume`: a resume that came first lets the pass through
        if rt.resumeReady then { rt with resumeReady := false, resumeIdx := i + 1 }
        else { rt with held := true }
      else { rt with pass := false }

def runDataTurn : Runtime σ :=
  match c.filters[rt.resumeIdx]? with
  | none =>
    { rt with pass := false, resumeIdx := if c.terminal then rt.resumeIdx else 0 }
  | some f =>
    if rt.done rt.resumeIdx then rt.deliver c rt.resumeIdx f
    else
      match rt.callOnNewConnection c rt.resumeIdx f with
      | (.stopIteration, rt) => { rt with connHalted := true, pass := false }
      | (.continueIteration, rt) => rt.deliver c rt.resumeIdx f

def terminalReady : Bool :=
  c.terminal && !rt.connHalted && decide (c.filters.length ≤ rt.resumeIdx)

end Runtime

inductive ReadErr
  | none
  | eof
  | other
  deriving DecidableEq

/-- Where the goroutine of the connection stands: in `serveNetworkChain` up to `checking`, in the
terminal filter's reads from `handed` on.  A read of the terminal carries the bytes it will return
and whether it ended with EOF. -/
inductive Phase
  | start
  | opened
  | top
  | reading
  | checking (err : ReadErr)
  | handed
  | replaying (p : Bytes) (eof : Bool)
  | replayingEOF (p : Bytes)
  | withheld (p : Bytes) (eof : Bool)
  | ended
  deriving DecidableEq

/-- `pre` is what the `prefixConn` still has to replay; `received` is history. -/
structure Conn (σ : Type) where
  rt : Runtime σ
  phase : Phase := .start
  pre : Bytes := []
  received : Bytes := []

namespace Conn

variable {σ : Type} (c : Chain σ) (s : Conn σ)

def init (mem : ℕ → σ) : Conn σ := { rt := { mem := mem } }

def handedOff : Bool :=
  match s.phase with
  | .handed | .replaying _ _ | .replayingEOF _ | .withheld _ _ => true
  | _ => false

/-- `handleTerminal`: what is buffered becomes the prefix of the terminal's reads. -/
def handleTerminal : Conn σ :=
  { s with
    phase := .handed
    pre := s.rt.buf.data
    rt := { s.rt with buf := s.rt.buf.drain s.rt.buf.data.length } }

def forward (p : Bytes) : Conn σ :=
  { s with
    rt := { s.rt with log := s.rt.log ++ [.upstream p s.received.length] }
    phase := .handed }

def afterReplay (p : Bytes) (eof : Bool) : Conn σ :=
  if eof then { s with phase := .replayingEOF p } else s.forward p

def endReplay : Conn σ :=
  { s with rt := { s.rt with replayIdx := 0, buf := s.rt.buf.drain s.rt.buf.data.length } }

/-- One turn of the loop of `replayRead` over bytes that are returned afterwards. -/
def replayTurn (p : Bytes) (eof : Bool) : Conn σ :=
  match c.filters[s.rt.replayIdx]? with
  | none => s.endReplay.afterReplay p eof
  | some f =>
    match s.rt.callOnData c s.rt.replayIdx f false with
    | (status, rt) =>
      if status = .stopIteration ∧ c.haltable = true then
        -- parked; the read blocks, unless the resume came first
        if rt.resumeReady then
          { s with rt := { rt with replayHeld := true, resumeReady := false } }.afterReplay
            p eof
        else
          { s with
            rt := { rt with replayHeld := true, held := true }, phase := .withheld p eof }
      else { s with rt := { rt with replayIdx := rt.replayIdx + 1 } }

def replayEOFTurn (p : Bytes) : Conn σ :=
  match c.filters[s.rt.replayIdx]? with
  | none => s.endReplay.forward p
  | some f =>
    match s.rt.callOnData c s.rt.replayIdx f true with
    | (status, rt) =>
      if status = .stopIteration ∧ c.haltable = true then
        { s with rt := { rt with replayHeld := true } }.forward p
      else { s with rt := { rt with replayIdx := rt.replayIdx + 1 } }

/-- The next thing the connection's goroutine does by itself. -/
def tick : Conn σ :=
  if s.rt.held then s
  else if s.rt.pass then { s with rt := s.rt.runDataTurn c }
  else
    match s.phase with
    | .start =>
      if s.rt.terminalReady c then s.handleTerminal
      else { s with rt := s.rt.onNewConnection c, phase := .opened }
    | .opened => if s.rt.terminalReady c then s.handleTerminal else { s with phase := .top }
    | .top => { s with phase := if s.rt.closeReq then .ended else .reading }
    | .checking err =>
      if s.rt.terminalReady c then s.handleTerminal
      else if s.rt.closeReq then { s with phase := .ended }
      else
        match err with
        | .none => { s with phase := .top }
        | .eof => { s with rt := s.rt.onData [] true, phase := .ended }
        | .other => { s with phase := .ended }
    | .replaying p eof => s.replayTurn c p eof
    | .replayingEOF p => s.replayEOFTurn c p
    | .withheld p eof => s.afterReplay p eof
    | .reading | .handed | .ended => s

/-- A read of the downstream socket returns: in the read loop, or inside a read of the terminal
once the prefix is used up. -/
def recv (p : Bytes) (err : ReadErr) : Conn σ :=
  if s.rt.held || s.rt.pass then s
  else
    match s.phase with
    | .reading =>
      { s with
        received := s.received ++ p
        rt := if p = [] then s.rt else s.rt.onData p false
        phase := .checking err }
    | .handed =>
      if s.pre ≠ [] then s
      else if c.wrapped = false then
        { s with
          received := s.received ++ p
          rt := { s.rt with log := s.rt.log ++ [.upstream p (s.received ++ p).length] } }
      else if p = [] then
        { s with phase := if err = .eof then .replayingEOF [] else .handed }
      else
        { s with
          received := s.received ++ p
          rt := { s.rt with buf := s.rt.buf.append p }
          phase := .replaying p (err = .eof) }
    | _ => s

def readPrefix (n : ℕ) : Conn σ :=
  if s.phase = .handed ∧ s.pre ≠ [] then
    { s with
      pre := s.pre.drop n
      rt := { s.rt with
        log := s.rt.log ++
          [.upstream (s.pre.take n) (s.received.length - (s.pre.drop n).length)] } }
  else s

/-- Filter `i` closes in its `OnWrite`; the write chain exists from the handoff on. -/
def onWriteClose (i : ℕ) (ct : CloseType) : Conn σ :=
  if s.handedOff && c.wrapped then { s with rt := s.rt.close i ct } else s

end Conn

inductive Event
  | tick
  | recv (p : Bytes) (err : ReadErr)
  | readPrefix (n : ℕ)
  | continueReading
  | onWriteClose (filter : ℕ) (ct : CloseType)
  deriving DecidableEq

def step {σ : Type} (c : Chain σ) (s : Conn σ) : Event → Conn σ
  | .tick => s.tick c
  | .recv p err => s.recv c p err
  | .readPrefix n => s.readPrefix n
  | .continueReading => { s with rt := s.rt.continueReading c }
  | .onWriteClose i ct => s.onWriteClose c i ct

end EnvoyGo.Network

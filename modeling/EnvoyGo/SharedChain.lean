import EnvoyGo.LocalReplyFinality
import EnvoyGo.Threads

/-!
The filter chain as its goroutines share it.  The dispatch goroutine runs the passes; a decode
callback that stops the iteration may have started a goroutine of the filter's, which calls
ContinueDecoding when it is done, perhaps after a SendLocalReply.  Every access to the chain is
one step.
-/

namespace EnvoyGo.SharedChain

open Threads

inductive Thread
  | dispatcher
  | goroutine (n : Nat)
  | context
  deriving DecidableEq

/-- The `sync.Once` of the local reply. -/
inductive Once
  | idle
  | running (t : Thread)
  | ended
  deriving DecidableEq

inductive Access
  | plain
  | loadDone
  | overwriteBody
  | storeStatus (status : Int)
  | runAction
  deriving DecidableEq

inductive DecodeProg (σ α : Type)
  | ret (a : α)
  | touch (f : σ × Header → σ × Header) (k : σ × Header → DecodeProg σ α)
  | sendLocalReply (r : LocalReply) (k : DecodeProg σ α)

/-- How a callback ends: with a status, or by starting a goroutine and then, after what code is
left, with one of the statuses that stop the iteration. -/
inductive CallEnd (σ st stop : Type)
  | returns (status : st)
  | launches (g : DecodeProg σ Unit) (rest : DecodeProg σ stop)

structure AsyncDecoder (σ : Type) where
  decodeHeaders : Bool → DecodeProg σ (CallEnd σ FilterHeadersStatus Unit)
  decodeData : Bytes → Bool → DecodeProg σ (CallEnd σ FilterDataStatus Bool)

structure AsyncFilter (σ : Type) where
  name : String
  decoder : Option (AsyncDecoder σ) := none
  encoder : Option (StreamEncoderFilter σ) := none

def AsyncFilter.encodeSide {σ : Type} (f : AsyncFilter σ) : HTTPFilter σ where
  name := f.name
  encoder := f.encoder

/-- What the goroutines share.  The fields from `finished` on are history for the statements:
ContinueDecoding calls made, parks they ended, whether the last store of a local reply was made,
the reply the dispatcher read and what it made of the request. -/
structure Shared (σ : Type) where
  chain : FilterChain σ
  once : Once := .idle
  decodeResumeCh : Bool := false
  ctxDone : Bool := false
  launched : List (String × DecodeProg σ Unit) := []
  finished : Nat := 0
  taken : Nat := 0
  published : Bool := false
  seen : Option LocalReply := none
  served : Option (Outcome σ Unit) := none

variable {σ α : Type}

abbrev Prog (σ α : Type) := Code Access (Shared σ) α

def onChain (f : FilterChain σ → FilterChain σ) (s : Shared σ) : Shared σ :=
  { s with chain := f s.chain }

section EncodeSide

def encodeProg (name : String) : FilterProg σ α → Prog σ α
  | .done a => .ret a
  | .touch f k =>
    .act .plain (fun _ _ => true) (fun _ => onChain (fun c => { c with world := f c.world }))
      (fun _ s => encodeProg name (k (f s.chain.world)))
  | .sendLocalReply _ k =>
    (atomic .plain (onChain (ignoreLocalReply name))).bind (fun _ => encodeProg name k)
  | .overwriteBody b k =>
    (atomic .overwriteBody (onChain (fun c => { c with encodeBodyOverride := some b }))).bind
      (fun _ => encodeProg name k)
  | .bufferEncodedBody k =>
    .act .plain (fun _ _ => true) (fun _ s => s)
      (fun _ s => encodeProg name (k s.chain.encodeBuf))
  | .responseStatus k =>
    .act .plain (fun _ _ => true) (fun _ s => s)
      (fun _ s => encodeProg name (k s.chain.encodeResponseStatus))

def encodeHeadersLoop (endStream : Bool) : List (AsyncFilter σ) → Prog σ Iteration
  | [] => .ret .terminated
  | f :: rest =>
    match f.encoder with
    | none => encodeHeadersLoop endStream rest
    | some e =>
      (encodeProg f.name (e.encodeHeaders endStream)).bind (fun status =>
        match status with
        | .continueIteration => encodeHeadersLoop endStream rest
        | .stopIteration => (encodeProg f.name e.parked).bind (fun wake =>
          match wake with
          | .resumed => encodeHeadersLoop endStream rest
          | .ctxDone => .ret (.failed .ctxErr))
        | .terminateStream => .ret (.failed .streamTerminatedByFilter)
        | .unknown code => .ret (.failed (.unknownHeadersStatus f.name code " on encode")))

def runEncodeHeaders (fs : List (AsyncFilter σ)) (headers : Header) (endStream : Bool) :
    Prog σ Iteration :=
  (atomic .plain (onChain (fun c =>
    { c with encodeStarted := true, world := { c.world with response := headers } }))).bind
    (fun _ => encodeHeadersLoop endStream fs.reverse)

def releaseEncodeBuf (data : Bytes) : Prog σ Bytes :=
  .act .plain (fun _ _ => true) (fun _ => onChain (fun c => { c with
      encodeBuf := [],
      encodeBufLen := c.encodeBufLen - ((c.encodeBuf.length : Int) - data.length) }))
    (fun _ s => .ret s.chain.encodeBuf)

def encodeDataLoop (endStream : Bool) : List (AsyncFilter σ) → Bytes → Prog σ Iteration
  | [], data =>
    (atomic .plain (onChain (fun c =>
      { c with encodeBufLen := c.encodeBufLen + data.length }))).bind (fun _ => .ret .terminated)
  | f :: rest, data =>
    match f.encoder with
    | none => encodeDataLoop endStream rest data
    | some e =>
      (encodeProg f.name (e.encodeData data endStream)).bind (fun status =>
        match status with
        | .dataContinue => encodeDataLoop endStream rest data
        | .dataStopIterationAndBuffer =>
          (atomic .plain (onChain (fun c =>
            { c with encodeBuf := c.encodeBuf ++ data }))).bind (fun _ =>
            (encodeProg f.name e.parked).bind (fun wake =>
              match wake with
              | .resumed =>
                if endStream then
                  (releaseEncodeBuf data).bind
                    (fun buf => encodeDataLoop endStream rest buf)
                else encodeDataLoop endStream rest data
              | .ctxDone => .ret (.failed .ctxErr)))
        | .dataStopIterationNoBuffer => (encodeProg f.name e.parked).bind (fun wake =>
          match wake with
          | .resumed => encodeDataLoop endStream rest data
          | .ctxDone => .ret (.failed .ctxErr))
        | .dataTerminateStream => .ret (.failed .streamTerminatedByFilter)
        | .unknown code => .ret (.failed (.unknownDataStatus f.name code " on encode")))

def runEncodeData (fs : List (AsyncFilter σ)) (data : Bytes) (endStream : Bool) :
    Prog σ Iteration :=
  (load .plain (fun s : Shared σ =>
    decide (s.chain.encodeBufLen + data.length > filterBufferLimitBytes))).bind (fun full =>
    if full then .ret (.failed .encodeBufferOverflow)
    else encodeDataLoop endStream fs.reverse data)

end EncodeSide

section LocalReply
variable (fs : List (AsyncFilter σ)) (t : Thread)

/-- `Once.Do`: the first caller runs the function, the others wait until it is over. -/
def enterOnce : Prog σ Bool :=
  .act .plain (fun _ s => match s.once with
      | .running _ => false
      | _ => true)
    (fun _ s => if s.once = .idle then { s with once := .running t } else s)
    (fun _ s => .ret (decide (s.once = .idle)))

def storeReply (r : LocalReply) : Prog σ Unit :=
  (atomic (.storeStatus r.status) (onChain (fun c =>
    { c with localReplyStatus := r.status, encoded := some (leftByEncodeChain r c) }))).bind
  fun _ => (atomic .plain (onChain (fun c =>
    { c with localReplyHeaders := OrderedHeaders.reconcile r.headers c.world.response }))).bind
  fun _ => (atomic .plain (fun s =>
    { s with chain := { s.chain with localReplyBody := r.body }, published := true })).bind
  fun _ => atomic .plain (fun s => { s with once := .ended })

def firstLocalReply (r : LocalReply) : Prog σ Unit :=
  (atomic .plain (onChain (fun c => { c with localReplyDone := true }))).bind
  fun _ => (atomic .plain (onChain (fun c => { c with encodeResponseStatus := r.status }))).bind
  fun _ => (runEncodeHeaders fs (localReplyMerged r) (r.body.length == 0)).bind
  fun _ => (if r.body.length > 0 then runEncodeData fs r.body true else .ret .terminated).bind
  fun _ => storeReply r

def beginLocalReply (name : String) (r : LocalReply) : Prog σ Unit :=
  (load .plain (fun s : Shared σ => s.chain.encodeStarted)).bind (fun started =>
    if started then atomic .plain (onChain (ignoreLocalReply name))
    else (enterOnce t).bind (fun first =>
      if first then firstLocalReply fs r else .ret ()))

def decodeProg (name : String) : DecodeProg σ α → Prog σ α
  | .ret a => .ret a
  | .touch f k =>
    .act .plain (fun _ _ => true)
      (fun _ => onChain (fun c =>
        { c with world := { c.world with
            filters := (f (c.world.filters, c.world.request)).1,
            request := (f (c.world.filters, c.world.request)).2 } }))
      (fun _ s => decodeProg name (k (f (s.chain.world.filters, s.chain.world.request))))
  | .sendLocalReply r k => (beginLocalReply fs t name r).bind (fun _ => decodeProg name k)

end LocalReply

section Dispatcher
variable (fs : List (AsyncFilter σ))

def loadDone : Prog σ Bool := load .loadDone (fun s => s.chain.localReplyDone)

def callDecoder {st stop : Type} (name : String) (stopStatus : stop → st)
    (p : DecodeProg σ (CallEnd σ st stop)) : Prog σ st :=
  (decodeProg fs .dispatcher name p).bind (fun e =>
    match e with
    | .returns status => .ret status
    | .launches g rest =>
      (atomic .plain (fun s => { s with launched := s.launched ++ [(name, g)] })).bind (fun _ =>
        (decodeProg fs .dispatcher name rest).bind (fun b => .ret (stopStatus b))))

def parkDecode : Prog σ Wake :=
  .act .plain (fun b s => if b then s.ctxDone else s.decodeResumeCh)
    (fun b s => if b then s else { s with decodeResumeCh := false, taken := s.taken + 1 })
    (fun b _ => .ret (if b then .ctxDone else .resumed))

def parkThen (next : Prog σ Iteration) : Prog σ Iteration :=
  parkDecode.bind (fun wake =>
    match wake with
    | .resumed => next
    | .ctxDone => .ret (.failed .ctxErr))

def runDecodeHeaders (endStream : Bool) : List (AsyncFilter σ) → Prog σ Iteration
  | [] => .ret .terminated
  | f :: rest =>
    loadDone.bind (fun done =>
      if done then .ret .aborted
      else match f.decoder with
      | none => runDecodeHeaders endStream rest
      | some d =>
        (callDecoder fs f.name (fun _ => .stopIteration) (d.decodeHeaders endStream)).bind
          (fun status => loadDone.bind (fun done =>
            if done then .ret .aborted
            else match status with
            | .continueIteration => runDecodeHeaders endStream rest
            | .stopIteration => parkThen (runDecodeHeaders endStream rest)
            | .terminateStream => .ret (.failed .streamTerminatedByFilter)
            | .unknown code => .ret (.failed (.unknownHeadersStatus f.name code "")))))

def stopData : Bool → FilterDataStatus
  | true => .dataStopIterationAndBuffer
  | false => .dataStopIterationNoBuffer

def bufferThen (name : String) (data : Bytes) (next : Prog σ Iteration) : Prog σ Iteration :=
  (load .plain (fun s : Shared σ =>
    decide (s.chain.decodeBuf.length + data.length > filterBufferLimitBytes))).bind (fun full =>
    if full then
      (atomic .plain (onChain (fun c => { c with decodeBufOver := true }))).bind
      fun _ => (beginLocalReply fs .dispatcher name localReply413).bind
      fun _ => .ret .aborted
    else
      (atomic .plain (onChain (fun c => { c with decodeBuf := c.decodeBuf ++ data }))).bind
      fun _ => parkThen next)

def runDecodeData (data : Bytes) (endStream : Bool) : List (AsyncFilter σ) → Prog σ Iteration
  | [] => .ret .terminated
  | f :: rest =>
    loadDone.bind (fun done =>
      if done then .ret .aborted
      else match f.decoder with
      | none => runDecodeData data endStream rest
      | some d =>
        (callDecoder fs f.name stopData (d.decodeData data endStream)).bind
          (fun status => loadDone.bind (fun done =>
            if done then .ret .aborted
            else match status with
            | .dataContinue => runDecodeData data endStream rest
            | .dataStopIterationAndBuffer =>
              bufferThen fs f.name data (runDecodeData data endStream rest)
            | .dataStopIterationNoBuffer => parkThen (runDecodeData data endStream rest)
            | .dataTerminateStream => .ret (.failed .streamTerminatedByFilter)
            | .unknown code => .ret (.failed (.unknownDataStatus f.name code " on decode")))))

def feedChunks : List (Bytes × Bool) → Prog σ (Option ChainError)
  | [] => .ret none
  | (data, endStream) :: rest =>
    (runDecodeData fs data endStream fs).bind (fun it =>
      match it with
      | .failed err => .ret (some err)
      | _ => feedChunks rest)

end Dispatcher

/-- One request with everything it meets. -/
structure AsyncExchange (σ : Type) where
  chain : List (AsyncFilter σ)
  filters : σ
  action : Action UpstreamRequest
  h2Action : Action H2Request
  writeErr : Option String
  request : HTTPRequest
  h2req : H2Request

namespace AsyncExchange
variable (x : AsyncExchange σ)

def noBody : Downstream → Bool
  | .http2 => x.h2req.body.length == 0
  | _ => (bodyToRead x.request).isNone

def chunks : Downstream → List (Bytes × Bool)
  | .http2 => if x.h2req.body.length > 0 then [(x.h2req.body, true)] else []
  | _ =>
    match bodyToRead x.request with
    | none => []
    | some b => (b.chunks.filter (fun data => data ≠ [])).map (fun data => (data, false)) ++
        [(b.last, true)]

def actionOn (d : Downstream) (c : FilterChain σ) : Outcome σ Unit :=
  match d with
  | .http2 =>
    let up := h2UpstreamRequest x.request x.h2req c
    let act := x.h2Action up
    (actionOutcome false (act.1.trailers.length > 0) (x.chain.map AsyncFilter.encodeSide)
      x.writeErr up act c).observe
  | _ =>
    let up := upstreamRequest x.request c
    (actionOutcome (d == .http1) false (x.chain.map AsyncFilter.encodeSide)
      x.writeErr up (x.action up) c).observe

def fail (err : ChainError) : Prog σ Unit :=
  atomic .plain (fun s => { s with served := some (failedOutcome err s.chain) })

def writeLocalReply (d : Downstream) : Prog σ Unit :=
  (load .plain (fun s : Shared σ => s.chain.localReplyStatus)).bind
  fun status => (load .plain (fun s : Shared σ => s.chain.localReplyHeaders)).bind
  fun headers => (load .plain (fun s : Shared σ => s.chain.localReplyBody)).bind
  fun body => atomic .plain (fun s => { s with
    seen := some { status := status, body := body, headers := headers }
    served := some (localReplyOutcome (d == .http1) x.writeErr { s.chain with
      localReplyStatus := status, localReplyHeaders := headers, localReplyBody := body }) })

def runAction (l : Access) (d : Downstream) : Prog σ Unit :=
  atomic l (fun s => { s with
    chain := (x.actionOn d s.chain).chain, served := some (x.actionOn d s.chain) })

/-- The dispatch goroutine.  HTTP/2 does not look at the flag again after the body. -/
def dispatch (d : Downstream) : Prog σ Unit :=
  (runDecodeHeaders x.chain (x.noBody d) x.chain).bind (fun it =>
    match it with
    | .failed err => fail err
    | _ => loadDone.bind (fun done =>
      if done then x.writeLocalReply d
      else (feedChunks x.chain (x.chunks d)).bind (fun err =>
        match err with
        | some err => fail err
        | none =>
          if d = .http2 then x.runAction .runAction d
          else loadDone.bind (fun done =>
            if done then x.writeLocalReply d else x.runAction .plain d))))

/-- The goroutine a callback started, and its ContinueDecoding: a send on a channel of capacity
one that never blocks. -/
def goroutine (n : Nat) : Prog σ Unit :=
  .act .plain (fun _ s => decide (n < s.launched.length)) (fun _ s => s) (fun _ s =>
    match s.launched[n]? with
    | none => .ret ()
    | some (name, g) => (decodeProg x.chain (.goroutine n) name g).bind (fun _ =>
      atomic .plain (fun s => { s with decodeResumeCh := true, finished := s.finished + 1 })))

def start (d : Downstream) : Pool Thread Access (Shared σ) where
  shared := { chain := initialChain x.filters (injectPseudoHeaders x.request) }
  code := fun t =>
    match t with
    | .dispatcher => x.dispatch d
    | .goroutine n => x.goroutine n
    | .context => atomic .plain (fun s => { s with ctxDone := true })

end AsyncExchange

section Alone

def RunsAs (c : Prog σ α) (f : FilterChain σ → α × FilterChain σ) : Prop :=
  ∀ s : Shared σ, c.alone s = ((f s.chain).1, { s with chain := (f s.chain).2 })

theorem encodeProg_runsAs (name : String) (p : FilterProg σ α) :
    RunsAs (encodeProg name p) (runEncodeProg name p) := by
  induction p with
  | done a => exact fun _ => rfl
  | touch f k ih => exact fun s => ih (f s.chain.world) (onChain _ s)
  | sendLocalReply r k ih => exact fun s => ih (onChain (ignoreLocalReply name) s)
  | overwriteBody b k ih => exact fun s => ih (onChain _ s)
  | bufferEncodedBody k ih => exact fun s => ih s.chain.encodeBuf s
  | responseStatus k ih => exact fun s => ih s.chain.encodeResponseStatus s

theorem encodeHeadersLoop_runsAs (endStream : Bool) (fs : List (AsyncFilter σ)) :
    RunsAs (encodeHeadersLoop endStream fs)
      (EnvoyGo.encodeHeadersLoop endStream (fs.map AsyncFilter.encodeSide)) := by
  induction fs with
  | nil => exact fun _ => rfl
  | cons f rest ih =>
    intro s
    rw [encodeHeadersLoop, List.map_cons, EnvoyGo.encodeHeadersLoop,
      show f.encodeSide.encoder = f.encoder from rfl, show f.encodeSide.name = f.name from rfl]
    cases f.encoder with
    | none => exact ih s
    | some e =>
      simp only [Code.alone_bind, encodeProg_runsAs f.name (e.encodeHeaders endStream) s]
      rcases runEncodeProg f.name (e.encodeHeaders endStream) s.chain with ⟨status, c1⟩
      cases status with
      | continueIteration => exact ih _
      | stopIteration =>
        simp only [Code.alone_bind, encodeProg_runsAs f.name e.parked { s with chain := c1 },
          reactEncodeHeaders, parkEncode, show f.encodeSide.name = f.name from rfl]
        rcases runEncodeProg f.name e.parked c1 with ⟨wake, c2⟩
        cases wake with
        | resumed => exact ih _
        | ctxDone => rfl
      | terminateStream => rfl
      | unknown code => rfl

theorem encodeDataLoop_runsAs (endStream : Bool) (fs : List (AsyncFilter σ)) (data : Bytes) :
    RunsAs (encodeDataLoop endStream fs data)
      (EnvoyGo.encodeDataLoop endStream (fs.map AsyncFilter.encodeSide) data) := by
  induction fs generalizing data with
  | nil => exact fun _ => rfl
  | cons f rest ih =>
    intro s
    rw [encodeDataLoop, List.map_cons, EnvoyGo.encodeDataLoop,
      show f.encodeSide.encoder = f.encoder from rfl, show f.encodeSide.name = f.name from rfl]
    cases f.encoder with
    | none => exact ih data s
    | some e =>
      simp only [Code.alone_bind, encodeProg_runsAs f.name (e.encodeData data endStream) s]
      rcases runEncodeProg f.name (e.encodeData data endStream) s.chain with ⟨status, c1⟩
      cases status with
      | dataContinue => exact ih data _
      | dataStopIterationAndBuffer =>
        have hpark := encodeProg_runsAs f.name e.parked
          { s with chain := { c1 with encodeBuf := c1.encodeBuf ++ data } }
        simp only [Code.alone_bind, reactEncodeData, parkEncode,
          show f.encodeSide.name = f.name from rfl, atomic, Code.alone, onChain, hpark]
        rcases runEncodeProg f.name e.parked { c1 with encodeBuf := c1.encodeBuf ++ data }
          with ⟨wake, c2⟩
        cases wake with
        | resumed =>
          cases endStream with
          | true =>
            simp only [if_true, Code.alone_bind]
            exact ih _ _
          | false => exact ih data _
        | ctxDone => rfl
      | dataStopIterationNoBuffer =>
        simp only [Code.alone_bind, encodeProg_runsAs f.name e.parked { s with chain := c1 },
          reactEncodeData, parkEncode, show f.encodeSide.name = f.name from rfl]
        rcases runEncodeProg f.name e.parked c1 with ⟨wake, c2⟩
        cases wake with
        | resumed => exact ih data _
        | ctxDone => rfl
      | dataTerminateStream => rfl
      | unknown code => rfl

theorem runEncodeHeaders_runsAs (fs : List (AsyncFilter σ)) (headers : Header)
    (endStream : Bool) :
    RunsAs (runEncodeHeaders fs headers endStream)
      (EnvoyGo.runEncodeHeaders (fs.map AsyncFilter.encodeSide) headers endStream) := by
  intro s
  rw [runEncodeHeaders, Code.alone_bind, EnvoyGo.runEncodeHeaders, ← List.map_reverse]
  exact encodeHeadersLoop_runsAs endStream fs.reverse _

theorem runEncodeData_runsAs (fs : List (AsyncFilter σ)) (data : Bytes) (endStream : Bool) :
    RunsAs (runEncodeData fs data endStream)
      (EnvoyGo.runEncodeData (fs.map AsyncFilter.encodeSide) data endStream) := by
  intro s
  rw [runEncodeData, Code.alone_bind, EnvoyGo.runEncodeData, ← List.map_reverse]
  by_cases hover : s.chain.encodeBufLen + data.length > filterBufferLimitBytes
  · rw [if_pos hover]
    simp only [load, Code.alone, decide_eq_true hover, if_true]
  · rw [if_neg hover]
    simp only [load, Code.alone, decide_eq_false hover, Bool.false_eq_true, if_false]
    exact encodeDataLoop_runsAs endStream fs.reverse data s

theorem storeReply_alone (r : LocalReply) (s : Shared σ) :
    ((storeReply r : Prog σ Unit).alone s).2.chain = { s.chain with
      localReplyStatus := r.status
      localReplyHeaders := OrderedHeaders.reconcile r.headers s.chain.world.response
      localReplyBody := r.body
      encoded := some (leftByEncodeChain r s.chain) } := rfl

theorem firstLocalReply_alone (fs : List (AsyncFilter σ)) (r : LocalReply) (s : Shared σ) :
    ((firstLocalReply fs r).alone s).2.chain =
      let c1 := EnvoyGo.encodeLocalReply (fs.map AsyncFilter.encodeSide) r s.chain
      { c1 with
        localReplyStatus := r.status
        localReplyHeaders := OrderedHeaders.reconcile r.headers c1.world.response
        localReplyBody := r.body
        encoded := some (leftByEncodeChain r c1) } := by
  have hheaders := runEncodeHeaders_runsAs fs (localReplyMerged r) (r.body.length == 0)
    { s with chain := { s.chain with localReplyDone := true, encodeResponseStatus := r.status } }
  unfold firstLocalReply encodeLocalReply
  simp only [Code.alone_bind, atomic, Code.alone, onChain, hheaders, storeReply_alone]
  by_cases hbody : r.body.length > 0
  · simp only [if_pos hbody, runEncodeData_runsAs fs r.body true _]
  · simp only [if_neg hbody, Code.alone]

end Alone

end EnvoyGo.SharedChain

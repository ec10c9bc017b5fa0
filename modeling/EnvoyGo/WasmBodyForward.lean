import EnvoyGo.WasmBody

/-!
The wasm filter in a chain: what the passes over a body leave in its accumulators, and the body the
dispatcher forwards beside them.
-/

namespace EnvoyGo.WasmBody

theorem askLocalReply_done {σ : Type} (fs : List (HTTPFilter σ)) (name : String) (r : LocalReply)
    (c : FilterChain σ) (hstarted : c.encodeStarted = false) (hdone : c.localReplyDone = false) :
    (askLocalReply fs name r c).localReplyDone = true := by
  unfold askLocalReply beginLocalReply
  rw [if_neg (by simp [hstarted]), if_neg (by simp [hdone])]
  exact (encodeLocalReply_frame fs r { c with asked := c.asked ++ [r] }).done

variable (cfg : Config)

def withDecode (c : FilterChain Filter) (s : Side) : FilterChain Filter :=
  { c with world := { c.world with filters := { c.world.filters with decode := s } } }

def called (c : FilterChain Filter) (data : Bytes) : Side :=
  (c.world.filters.decode.accumulate data).callGuest cfg.request

theorem runDecodeProg_decodeData (fs : List (HTTPFilter Filter)) (name : String) (data : Bytes)
    (c : FilterChain Filter) :
    runDecodeProg fs name (decodeData cfg data) c =
      if c.world.filters.decode.capExceeded then (.dataTerminateStream, c)
      else if (c.world.filters.decode.body ++ data).length % 2^32 > cfg.bodyBufferCapBytes then
        (.dataStopIterationNoBuffer, askLocalReply fs name payloadTooLarge
          (withDecode c { c.world.filters.decode.accumulate data with capExceeded := true }))
      else
        match (called cfg c data).turn.action with
        | .trap => (.dataContinue, withDecode c (called cfg c data))
        | .sendLocalResponse r =>
          (.dataStopIterationNoBuffer,
            askLocalReply fs name r (withDecode c (called cfg c data)))
        | .pause => (.dataStopIterationAndBuffer, withDecode c (called cfg c data))
        | .proceed => (.dataContinue, withDecode c (called cfg c data)) := by
  simp only [runDecodeProg, decodeData, FilterProg.run, id_eq]
  split_ifs with hcap hover
  · rfl
  · have hmore : List.length
        ((onDecode (fun s => s.accumulate data) c.world).filters.decode.body) % 2^32 >
          cfg.bodyBufferCapBytes := hover
    simp only [FilterProg.run, if_pos hmore]
    rfl
  · have hless : ¬ List.length
        ((onDecode (fun s => s.accumulate data) c.world).filters.decode.body) % 2^32 >
          cfg.bodyBufferCapBytes := hover
    simp only [FilterProg.run, if_neg hless]
    change FilterProg.run _ (match (called cfg c data).turn.action with
      | .trap => _
      | .sendLocalResponse r => _
      | .pause => _
      | .proceed => _) _ = _
    cases (called cfg c data).turn.action with
    | trap => rfl
    | sendLocalResponse r => rfl
    | pause => rfl
    | proceed => rfl

theorem called_turn (c : FilterChain Filter) (data : Bytes) :
    (called cfg c data).turn = cfg.request c.world.filters.decode.callbacks :=
  (hostcalls_callbacks _ _).2.1

theorem decodeLoop_router (fs : List (HTTPFilter Filter)) (data : Bytes) (endStream : Bool)
    (c : FilterChain Filter) (hdone : c.localReplyDone = false) :
    decodeLoop fs (fun d => d.decodeData data endStream) (reactDecodeData fs data) [routerFilter]
      c = (.terminated, c) := by
  simp only [decodeLoop, routerFilter, runDecodeProg, FilterProg.run, reactDecodeData, hdone,
    Bool.false_eq_true, if_false]

variable {c' : FilterChain Filter}

theorem decodeLoop_wasm (fs : List (HTTPFilter Filter)) (data : Bytes) (endStream : Bool)
    (c : FilterChain Filter) (hstarted : c.encodeStarted = false)
    (hdone : c.localReplyDone = false) {it : Iteration}
    (hrun : decodeLoop fs (fun d => d.decodeData data endStream) (reactDecodeData fs data)
      [wasmFilter cfg, routerFilter] c = (it, c')) (hit : it.isFailed = false)
    (hdone' : c'.localReplyDone = false) :
    ∃ c0, c' = withDecode c0 (c.world.filters.decode.feed cfg.request data) ∧
      c0.world = c.world ∧ c0.encodeStarted = false ∧
        c0.encodeBodyOverride = c.encodeBodyOverride := by
  rw [decodeLoop, if_neg (by simp [hdone])] at hrun
  simp only [wasmFilter] at hrun
  rcases hcall : runDecodeProg fs "envoy.filters.http.wasm" (decodeData cfg data) c
    with ⟨status, c1⟩
  simp only [hcall] at hrun
  -- a pending reply ends the pass at once
  have hopen : c1.localReplyDone = false := by
    by_contra hreplied
    rw [if_pos (by simpa using hreplied)] at hrun
    cases hrun
    exact hreplied hdone'
  rw [if_neg (by simp [hopen])] at hrun
  rw [runDecodeProg_decodeData] at hcall
  split_ifs at hcall with hcap hover
  · cases hcall
    cases hrun
    cases hit
  · cases hcall
    cases hopen.symm.trans (askLocalReply_done fs _ _ _ hstarted hdone)
  · have hturn := called_turn cfg c data
    cases haction : (called cfg c data).turn.action with
    | trap =>
      rw [haction] at hcall
      cases hcall
      simp only [reactDecodeData, decodeLoop_router fs data endStream _ hopen] at hrun
      cases hrun
      refine ⟨c, ?_, rfl, hstarted, rfl⟩
      rw [called, callGuest_feed]
      rw [hturn] at haction
      rw [Turn.all, haction]
    | sendLocalResponse r =>
      rw [haction] at hcall
      cases hcall
      cases hopen.symm.trans (askLocalReply_done fs _ _ _ hstarted hdone)
    | pause =>
      rw [haction] at hcall
      cases hcall
      rw [hturn] at haction
      simp only [reactDecodeData] at hrun
      split_ifs at hrun with hlimit
      · cases hrun
        cases hdone'.symm.trans (askLocalReply_done fs _ _ _ hstarted hdone)
      · simp only [parkThenAdvance, parkDecode, runDecodeProg, FilterProg.run] at hrun
        have hwoken : onDecode Side.whileParked (withDecode c (called cfg c data)).world =
            (withDecode c (c.world.filters.decode.feed cfg.request data)).world := by
          rw [← whileParked_feed cfg.request _ data haction]
          rfl
        simp only [hwoken] at hrun
        cases hwake : (withDecode c (c.world.filters.decode.feed cfg.request
            data)).world.filters.decode.turn.wake with
        | ctxDone =>
          simp only [hwake] at hrun
          cases hrun
          cases hit
        | resumed =>
          simp only [hwake] at hrun
          cases hrun.symm.trans (decodeLoop_router fs data endStream _ (by exact hopen))
          exact ⟨{ c with decodeBuf := c.decodeBuf ++ data }, rfl, rfl, hstarted, rfl⟩
    | proceed =>
      rw [haction] at hcall
      cases hcall
      simp only [reactDecodeData, decodeLoop_router fs data endStream _ hopen] at hrun
      cases hrun
      refine ⟨c, ?_, rfl, hstarted, rfl⟩
      rw [called, callGuest_feed]
      rw [hturn] at haction
      rw [Turn.all, haction]

def Fed (c : FilterChain Filter) (chunks : List Bytes) : Prop :=
  c.localReplyDone = false → c.encodeStarted = false ∧ c.encodeBodyOverride = none ∧
    c.world.filters = { decode := chunks.foldl (Side.feed cfg.request) {}, encode := {} }

theorem Fed.step {c : FilterChain Filter} {chunks : List Bytes} (h : Fed cfg c chunks)
    (data : Bytes) (endStream : Bool) {it : Iteration}
    (hrun : runDecodeData (wasmChain cfg) data endStream c = (it, c')) (hit : it.isFailed = false) :
    Fed cfg c' (chunks ++ [data]) := by
  intro hdone'
  by_cases hdone : c.localReplyDone = true
  · have hsame := (runDecodeData_of_done (wasmChain cfg) data endStream c hdone).2
    rw [hrun] at hsame
    rw [← hsame, hdone'] at hdone
    cases hdone
  · have hopen : c.localReplyDone = false := by simpa using hdone
    obtain ⟨hstarted, hslot, hfilters⟩ := h hopen
    obtain ⟨c0, rfl, hworld, hstarted', hslot'⟩ :=
      decodeLoop_wasm cfg (wasmChain cfg) data endStream c hstarted hopen hrun hit hdone'
    refine ⟨hstarted', hslot'.trans hslot, ?_⟩
    rw [List.foldl_append, withDecode, hworld, hfilters]
    rfl

theorem Fed.feedBody {chunks : List Bytes} (bs : List Bytes) (c : FilterChain Filter)
    (h : Fed cfg c chunks) (hrun : EnvoyGo.feedBody (wasmChain cfg) bs c = (none, c')) :
    Fed cfg c' (chunks ++ bs.filter (· ≠ [])) := by
  induction bs generalizing c chunks with
  | nil =>
    cases hrun
    rw [List.filter_nil, List.append_nil]
    exact h
  | cons b bs ih =>
    rw [EnvoyGo.feedBody] at hrun
    by_cases hb : b = []
    · rw [if_pos hb] at hrun
      rw [List.filter_cons_of_neg (by simp [hb])]
      exact ih c h hrun
    · rw [if_neg hb] at hrun
      rw [List.filter_cons_of_pos (by simp [hb])]
      rcases hpass : runDecodeData (wasmChain cfg) b false c with ⟨it, c1⟩
      rw [hpass] at hrun
      have hgoes : it.isFailed = false →
          Fed cfg c' (chunks ++ b :: bs.filter (· ≠ [])) := by
        intro hit
        have hrest : EnvoyGo.feedBody (wasmChain cfg) bs c1 = (none, c') := by
          cases it with
          | terminated => exact hrun
          | aborted => exact hrun
          | failed err => cases hit
        have hfed := ih c1 (h.step cfg b false hpass hit) hrest
        rw [List.append_assoc] at hfed
        exact hfed
      cases it with
      | terminated => exact hgoes rfl
      | aborted => exact hgoes rfl
      | failed err => cases hrun

theorem Fed.decodeBody (b : BodyReader) (c : FilterChain Filter) (h : Fed cfg c [])
    (hrun : EnvoyGo.decodeBody (wasmChain cfg) b c = (none, c')) :
    Fed cfg c' (dataCallbacks b) := by
  rw [EnvoyGo.decodeBody] at hrun
  rcases hfeed : EnvoyGo.feedBody (wasmChain cfg) b.chunks c with ⟨err, c1⟩
  rw [hfeed] at hrun
  cases err with
  | some err => cases hrun
  | none =>
    have hfed := Fed.feedBody cfg b.chunks c h hfeed
    rcases hlast : runDecodeData (wasmChain cfg) b.last true c1 with ⟨it, c2⟩
    simp only [hlast] at hrun
    cases it with
    | terminated =>
      cases hrun
      exact hfed.step cfg b.last true hlast rfl
    | aborted =>
      cases hrun
      exact hfed.step cfg b.last true hlast rfl
    | failed err => cases hrun

theorem headersPass_wasm (r : HTTPRequest) (noBody : Bool) :
    headersPass (wasmChain cfg) {} r noBody =
      (.terminated, initialChain {} (injectPseudoHeaders r)) := rfl

theorem fed_initial (h : Header) : Fed cfg (initialChain {} h) [] := fun _ => ⟨rfl, rfl, rfl⟩

theorem dataCallbacks_flatten (b : BodyReader) : (dataCallbacks b).flatten = b.bytes := by
  rw [dataCallbacks, List.flatten_append, List.flatten_filter_ne_nil, List.flatten_singleton]
  rfl

/-- The data callbacks of a request on HTTP/1.1 and HTTP/3. -/
def requestCallbacks (r : HTTPRequest) : List Bytes :=
  match bodyToRead r with
  | none => []
  | some b => dataCallbacks b

theorem upstreamRequest_body (r : HTTPRequest) (c : FilterChain Filter) :
    (upstreamRequest r c).body = (requestCallbacks r).flatten := by
  unfold upstreamRequest requestCallbacks
  cases bodyToRead r with
  | none => rfl
  | some b => exact (dataCallbacks_flatten b).symm

theorem decodePasses_fed (r : HTTPRequest) (c : FilterChain Filter)
    (hadmitted : decodePasses (wasmChain cfg) {} r = .admitted c) :
    c.localReplyDone = false ∧ Fed cfg c (requestCallbacks r) := by
  unfold decodePasses at hadmitted
  rw [headersPass_wasm] at hadmitted
  have hnotdone : (initialChain ({} : Filter) (injectPseudoHeaders r)).localReplyDone = false := rfl
  unfold requestCallbacks
  cases hb : bodyToRead r with
  | none =>
    simp only [hnotdone, Bool.false_eq_true, if_false, decodeRequestBody, hb] at hadmitted
    cases hadmitted
    exact ⟨rfl, fed_initial cfg _⟩
  | some b =>
    simp only [hnotdone, Bool.false_eq_true, if_false, decodeRequestBody, hb] at hadmitted
    rcases hbody : EnvoyGo.decodeBody (wasmChain cfg) b (initialChain {} (injectPseudoHeaders r))
      with ⟨err, c2⟩
    rw [hbody] at hadmitted
    cases err with
    | some err => cases hadmitted
    | none =>
      simp only [] at hadmitted
      split_ifs at hadmitted with hdone
      cases hadmitted
      exact ⟨by simpa using hdone, Fed.decodeBody cfg b _ (fed_initial cfg _) hbody⟩

/-- The data callbacks of a body that comes whole: of a response, and of a request on HTTP/2. -/
def wholeCallbacks (body : Bytes) : List Bytes := if body.length > 0 then [body] else []

theorem wholeCallbacks_flatten (body : Bytes) : (wholeCallbacks body).flatten = body := by
  unfold wholeCallbacks
  split_ifs with hbody
  · simp
  · have hnil : body = [] := List.length_eq_zero_iff.mp (by omega)
    rw [hnil]
    rfl

theorem h2DecodePasses_fed (r : HTTPRequest) (body : Bytes) (c : FilterChain Filter)
    (hadmitted : h2DecodePasses (wasmChain cfg) {} r body = .admitted c) :
    Fed cfg c (wholeCallbacks body) := by
  unfold h2DecodePasses at hadmitted
  rw [headersPass_wasm] at hadmitted
  have hnotdone : (initialChain ({} : Filter) (injectPseudoHeaders r)).localReplyDone = false := rfl
  simp only [hnotdone, Bool.false_eq_true, if_false] at hadmitted
  unfold wholeCallbacks
  split_ifs at hadmitted ⊢ with hbody
  · rcases hrun : runDecodeData (wasmChain cfg) body true
      (initialChain {} (injectPseudoHeaders r)) with ⟨it, c2⟩
    rw [hrun] at hadmitted
    cases it with
    | terminated =>
      cases hadmitted
      exact (fed_initial cfg _).step cfg body true hrun rfl
    | aborted =>
      cases hadmitted
      exact (fed_initial cfg _).step cfg body true hrun rfl
    | failed err => cases hadmitted
  · cases hadmitted
    exact fed_initial cfg _

def withEncode (c : FilterChain Filter) (s : Side) : FilterChain Filter :=
  { c with world := { c.world with filters := { c.world.filters with encode := s } } }

def calledBack (c : FilterChain Filter) (data : Bytes) : Side :=
  (c.world.filters.encode.accumulate data).callGuest cfg.response

theorem runEncodeProg_encodeData (name : String) (data : Bytes) (c : FilterChain Filter) :
    runEncodeProg name (encodeData cfg data) c =
      if c.world.filters.encode.capExceeded then (.dataTerminateStream, c)
      else if (c.world.filters.encode.body ++ data).length % 2^32 > cfg.bodyBufferCapBytes then
        (.dataTerminateStream,
          withEncode c { c.world.filters.encode.accumulate data with capExceeded := true })
      else
        (match (calledBack cfg c data).turn.action with
          | .trap => .dataContinue
          | .sendLocalResponse _ => .dataTerminateStream
          | .pause => .dataStopIterationAndBuffer
          | .proceed => .dataContinue, withEncode c (calledBack cfg c data)) := by
  simp only [runEncodeProg, encodeData, FilterProg.run, id_eq]
  split_ifs with hcap hover
  · rfl
  · have hmore : List.length
        ((onEncode (fun s => s.accumulate data) c.world).filters.encode.body) % 2^32 >
          cfg.bodyBufferCapBytes := hover
    simp only [FilterProg.run, if_pos hmore]
    rfl
  · have hless : ¬ List.length
        ((onEncode (fun s => s.accumulate data) c.world).filters.encode.body) % 2^32 >
          cfg.bodyBufferCapBytes := hover
    simp only [FilterProg.run, if_neg hless]
    change FilterProg.run _ (match (calledBack cfg c data).turn.action with
      | .trap => _
      | .sendLocalResponse r => _
      | .pause => _
      | .proceed => _) _ = _
    cases (calledBack cfg c data).turn.action with
    | trap => rfl
    | sendLocalResponse r => rfl
    | pause => rfl
    | proceed => rfl

theorem encodeDataLoop_wasm (data : Bytes) (endStream : Bool) (c : FilterChain Filter)
    {it : Iteration} (hrun : encodeDataLoop endStream [wasmFilter cfg] data c = (it, c'))
    (hit : it.isFailed = false) :
    c'.world.filters.encode = c.world.filters.encode.feed cfg.response data ∧
      c'.encodeBodyOverride = c.encodeBodyOverride := by
  rw [encodeDataLoop] at hrun
  simp only [wasmFilter] at hrun
  rcases hcall : runEncodeProg "envoy.filters.http.wasm" (encodeData cfg data) c with ⟨status, c1⟩
  simp only [hcall] at hrun
  rw [runEncodeProg_encodeData] at hcall
  have hturn : (calledBack cfg c data).turn = cfg.response c.world.filters.encode.callbacks :=
    (hostcalls_callbacks _ _).2.1
  split_ifs at hcall with hcap hover
  · cases hcall
    cases hrun
    cases hit
  · cases hcall
    cases hrun
    cases hit
  · cases haction : (calledBack cfg c data).turn.action with
    | trap =>
      rw [haction] at hcall
      cases hcall
      cases hrun
      refine ⟨?_, rfl⟩
      rw [hturn] at haction
      exact callGuest_feed _ _ _ (by rw [Turn.all, haction])
    | sendLocalResponse r =>
      rw [haction] at hcall
      cases hcall
      cases hrun
      cases hit
    | pause =>
      rw [haction] at hcall
      cases hcall
      rw [hturn] at haction
      have hwoken : onEncode Side.whileParked (withEncode c (calledBack cfg c data)).world =
          (withEncode c (c.world.filters.encode.feed cfg.response data)).world := by
        rw [← whileParked_feed cfg.response _ data haction]
        rfl
      simp only [reactEncodeData, parkEncode, runEncodeProg, FilterProg.run, hwoken] at hrun
      cases hwake : (withEncode c (c.world.filters.encode.feed cfg.response
          data)).world.filters.encode.turn.wake with
      | ctxDone =>
        simp only [hwake] at hrun
        cases hrun
        cases hit
      | resumed =>
        simp only [hwake] at hrun
        cases endStream with
        | true =>
          cases hrun
          exact ⟨rfl, rfl⟩
        | false =>
          cases hrun
          exact ⟨rfl, rfl⟩
    | proceed =>
      rw [haction] at hcall
      cases hcall
      cases hrun
      refine ⟨?_, rfl⟩
      rw [hturn] at haction
      exact callGuest_feed _ _ _ (by rw [Turn.all, haction])

theorem encodeResponse_fed (hasTrailers : Bool) (resp : ActionResponse) (c : FilterChain Filter)
    (hslot : c.encodeBodyOverride = none) (hfresh : c.world.filters.encode = {})
    {resp' : ActionResponse}
    (hrun : encodeResponse (wasmChain cfg) hasTrailers resp c = (.ok resp', c')) :
    resp'.body = resp.body ∧ c'.world.filters.encode =
      (wholeCallbacks resp.body).foldl (Side.feed cfg.response) {} := by
  unfold encodeResponse at hrun
  rw [show runEncodeHeaders (wasmChain cfg) (OrderedHeaders.toHTTPHeader resp.headers)
      (resp.body.length == 0 && !hasTrailers) { c with encodeResponseStatus := resp.status } =
    (.terminated, { c with
      encodeResponseStatus := resp.status
      encodeStarted := true
      world := { c.world with response := OrderedHeaders.toHTTPHeader resp.headers } }) from rfl]
    at hrun
  simp only [] at hrun
  unfold wholeCallbacks
  split_ifs at hrun ⊢ with hbody
  · rcases hdata : runEncodeData (wasmChain cfg) resp.body (!hasTrailers) { c with
      encodeResponseStatus := resp.status
      encodeStarted := true
      world := { c.world with response := OrderedHeaders.toHTTPHeader resp.headers } }
      with ⟨it, c2⟩
    rw [hdata] at hrun
    have hfed : it.isFailed = false → c2.world.filters.encode =
        c.world.filters.encode.feed cfg.response resp.body ∧ c2.encodeBodyOverride = none := by
      intro hit
      unfold runEncodeData at hdata
      split_ifs at hdata with hlimit
      · cases hdata
        cases hit
      · have hloop := encodeDataLoop_wasm cfg resp.body (!hasTrailers) _ hdata hit
        rw [hslot] at hloop
        exact hloop
    cases it with
    | terminated =>
      obtain ⟨hencode, hnone⟩ := hfed rfl
      cases hrun
      refine ⟨?_, by rw [hencode, hfresh]; rfl⟩
      simp only [hnone, Option.getD_none]
    | aborted =>
      obtain ⟨hencode, hnone⟩ := hfed rfl
      cases hrun
      refine ⟨?_, by rw [hencode, hfresh]; rfl⟩
      simp only [hnone, Option.getD_none]
    | failed err => cases hrun
  · cases hrun
    refine ⟨?_, hfresh⟩
    simp only [hslot, Option.getD_none]

/-- The guest's edits of a request or response body take effect, on HTTP/1.1, HTTP/2 and HTTP/3,
just when each replaced range reaches the end of the buffer and the edits leave the body that was
received. -/
theorem edits_effective_iff :
    (∀ (r : HTTPRequest) (c : FilterChain Filter),
      decodePasses (wasmChain cfg) {} r = .admitted c →
        (Effective c.world.filters.decode (upstreamRequest r c).body ↔
          Harmless cfg.request (requestCallbacks r)) ∧
        ∀ (hasTrailers : Bool) (resp resp' : ActionResponse) (c' : FilterChain Filter),
          encodeResponse (wasmChain cfg) hasTrailers resp c = (.ok resp', c') →
            (Effective c'.world.filters.encode resp'.body ↔
              Harmless cfg.response (wholeCallbacks resp.body))) ∧
    ∀ (r : HTTPRequest) (h2req : H2Request) (c : FilterChain Filter),
      h2DecodePasses (wasmChain cfg) {} r h2req.body = .admitted c → c.localReplyDone = false →
        (Effective c.world.filters.decode (h2UpstreamRequest r h2req c).body ↔
          Harmless cfg.request (wholeCallbacks h2req.body)) ∧
        ∀ (hasTrailers : Bool) (resp resp' : ActionResponse) (c' : FilterChain Filter),
          encodeResponse (wasmChain cfg) hasTrailers resp c = (.ok resp', c') →
            (Effective c'.world.filters.encode resp'.body ↔
              Harmless cfg.response (wholeCallbacks resp.body)) := by
  have hresponse : ∀ (c : FilterChain Filter) (chunks : List Bytes), c.localReplyDone = false →
      Fed cfg c chunks →
        ∀ (hasTrailers : Bool) (resp resp' : ActionResponse) (c' : FilterChain Filter),
          encodeResponse (wasmChain cfg) hasTrailers resp c = (.ok resp', c') →
            (Effective c'.world.filters.encode resp'.body ↔
              Harmless cfg.response (wholeCallbacks resp.body)) := by
    intro c chunks hdone hfed hasTrailers resp resp' c' hrun
    obtain ⟨-, hslot, hfilters⟩ := hfed hdone
    obtain ⟨hbody, hencode⟩ :=
      encodeResponse_fed cfg hasTrailers resp c hslot (by rw [hfilters]) hrun
    rw [hbody, hencode, ← effective_iff, wholeCallbacks_flatten]
  refine ⟨fun r c hadmitted => ?_, fun r h2req c hadmitted hdone => ?_⟩
  · obtain ⟨hdone, hfed⟩ := decodePasses_fed cfg r c hadmitted
    refine ⟨?_, hresponse c _ hdone hfed⟩
    obtain ⟨-, -, hfilters⟩ := hfed hdone
    rw [upstreamRequest_body, hfilters, ← effective_iff]
  · have hfed := h2DecodePasses_fed cfg r h2req.body c hadmitted
    refine ⟨?_, hresponse c _ hdone hfed⟩
    obtain ⟨-, -, hfilters⟩ := hfed hdone
    have hbody : (h2UpstreamRequest r h2req c).body = (wholeCallbacks h2req.body).flatten :=
      (wholeCallbacks_flatten h2req.body).symm
    rw [hbody, hfilters, ← effective_iff]

/-- A request with the body `ab`, read at once. -/
def upload : HTTPRequest :=
  { method := "POST", host := "h", requestURI := "/", urlRequestURI := "/", header := ∅,
    contentLength := 2, body := some { chunks := [], last := [97, 98], err := .eof } }

/-- A guest that makes one `proxy_set_buffer_bytes` in each request body callback. -/
def editing (start size : UInt32) (data : Bytes) : Config where
  bodyBufferCapBytes := 100
  request _ := { calls := [.setBufferBytes start size data, .getBufferBytes 0 100] }
  response _ := {}

/-- The whole body replaced by itself. -/
theorem edits_effective_iff_upload :
    ∃ c, decodePasses (wasmChain (editing 0 2 [97, 98])) {} upload = .admitted c ∧
      Effective c.world.filters.decode (upstreamRequest upload c).body := by
  have hadmitted : ∃ c, decodePasses (wasmChain (editing 0 2 [97, 98])) {} upload = .admitted c :=
    ⟨_, rfl⟩
  obtain ⟨c, hc⟩ := hadmitted
  refine ⟨c, hc, ((edits_effective_iff (editing 0 2 [97, 98])).1 upload c hc).1.mpr ?_⟩
  refine ⟨⟨⟨?_, ?_, trivial⟩, trivial⟩, by decide⟩
  · change 2 ≤ 0 + 2
    exact le_refl 2
  · intro _
    left
    decide

/-- With the first byte of `ab` replaced by `x` the buffer loses the second, and with both replaced
the body is forwarded as it came. -/
theorem not_edits_effective :
    (¬ ∀ (cfg : Config) (r : HTTPRequest) (c : FilterChain Filter),
      decodePasses (wasmChain cfg) {} r = .admitted c →
        ∀ e ∈ c.world.filters.decode.log, e.Right) ∧
    ¬ ∀ (cfg : Config) (r : HTTPRequest) (c : FilterChain Filter),
      decodePasses (wasmChain cfg) {} r = .admitted c →
        (upstreamRequest r c).body = c.world.filters.decode.body := by
  refine ⟨fun h => ?_, fun h => ?_⟩
  · have hentry := h (editing 0 1 [120]) upload _ rfl
      ⟨[97, 98], .setBufferBytes 0 1 [120], [120], some []⟩ (.head _)
    exact absurd hentry (by unfold Entry.Right; decide)
  · have hforwarded := h (editing 0 2 [120]) upload _ rfl
    exact absurd hforwarded (by decide)

end EnvoyGo.WasmBody

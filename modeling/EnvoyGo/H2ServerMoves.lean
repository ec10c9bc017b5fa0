import EnvoyGo.H2ServerConn

/-!
What one frame can do to a downstream HTTP/2 connection, said once.  Every invariant below is
proved from these few moves and the goroutines' own steps.
-/

namespace EnvoyGo.H2.ServerConn

variable {δ : Type} {dec : BlockDecoder δ}

def live (s : ServerConn δ) : Finset ℕ := s.streams \ s.doneCh.toFinset

def completedBlock (s : ServerConn δ) : Frame → Option HeaderBlockAccumulator
  | .headers id fragment true endStream priority => some ⟨id, fragment, endStream, priority⟩
  | .continuation id fragment true => (appendContinuation s.hdrAccum id fragment).toOption
  | _ => none

def Opens (s : ServerConn δ) (a : HeaderBlockAccumulator) : Prop :=
  a.stream ∉ s.live ∧ a.stream ∉ s.closedStreams ∧ a.stream ∉ s.doneCh ∧ s.peerGoaway = false ∧
    a.stream % 2 ≠ 0 ∧ s.lastInID < a.stream ∧ a.priority ≠ some a.stream ∧
    s.live.card < s.settings.maxConcurrentStreams

instance (s : ServerConn δ) (a : HeaderBlockAccumulator) : Decidable (s.Opens a) :=
  inferInstanceAs (Decidable (_ ∧ _))

def openedStream (s : ServerConn δ) (headers : OrderedHeaders) (endStream : Bool) : ServerStream :=
  { newServerStream s.clientS.effectiveInitialWindow (wrap32 s.settings.initialWindowSize) with
    reqHeaders := headers
    state := if endStream then .halfClosedRemote else .opened }

def queueIf (s : ServerConn δ) (endStream : Bool) (id : ℕ) : ServerConn δ :=
  if endStream then s.queueDispatch id else s

def openStream (s : ServerConn δ) (id : ℕ) (headers : OrderedHeaders) (endStream : Bool) :
    ServerConn δ :=
  let s' := { s.setStream id (s.openedStream headers endStream) with
    streams := insert id s.streams
    lastInID := id }
  s'.queueIf endStream id

inductive Handled (dec : BlockDecoder δ) (s : ServerConn δ) (f : Frame) : Result δ → Prop
  | aside (t : ServerConn δ) (ht : t = s ∨ t = s.drainDone) (hpack : δ)
      (acc : Option HeaderBlockAccumulator) (goaway : Bool) (err : Option Error) :
      Handled dec s f ({ t with hpack := hpack, hdrAccum := acc, peerGoaway := goaway }, err)
  | opened (a : HeaderBlockAccumulator) (headers : OrderedHeaders) (hpack : δ)
      (acc : Option HeaderBlockAccumulator) (ha : s.completedBlock f = some a)
      (hdec : dec s.hpack a.buf = some (headers, hpack)) (ho : s.Opens a) :
      Handled dec s f (({ s.drainDone with hpack := hpack, hdrAccum := acc } :
        ServerConn δ).openStream a.stream headers a.endStream, none)
  | trailed (a : HeaderBlockAccumulator) (headers : OrderedHeaders) (hpack : δ)
      (acc : Option HeaderBlockAccumulator) (ss : ServerStream)
      (ha : s.completedBlock f = some a) (hdec : dec s.hpack a.buf = some (headers, hpack))
      (hlive : a.stream ∈ s.live) (hss : s.stream a.stream = some ss)
      (hst : ss.state = .opened) (hend : a.endStream = true)
      (hnames : headers.find? (fun h => ServerStream.isPseudo h.name) = none) :
      Handled dec s f ((({ s.drainDone with hpack := hpack, hdrAccum := acc } :
        ServerConn δ).setStream a.stream { ss with state := .halfClosedRemote }).queueDispatch
          a.stream, none)
  | accepted (id : ℕ) (payload : Bytes) (padding : Option (Fin 256)) (endStream : Bool)
      (ss ss' : ServerStream) (hf : f = .data id payload padding endStream) (hlive : id ∈ s.live)
      (hss : s.stream id = some ss) (hrecv : ss.recvData id payload endStream = .ok ss') :
      Handled dec s f (s.drainDone.acceptData id ss' payload.length endStream, none)
  | configured (params : List Setting) (t : ServerConn δ) (err : Option Error)
      (hf : f = .settings false params) (hvalid : params.findSome? validateSetting = none)
      (happly : s.applySettings none params = (t, err)) :
      Handled dec s f (if err = none then t.write .settingsAck else t, err)
  | ponged : Handled dec s f (s.write .pingAck, none)
  | credited (id : ℕ) (increment : Fin (2^31)) (hf : f = .windowUpdate id increment)
      (hfits : id = 0 ∧ s.sendW.fits increment.val = true ∨
        id ≠ 0 ∧ id ∈ s.streams ∧ ∃ ss, s.stream id = some ss ∧
          ss.sendW.fits increment.val = true) :
      Handled dec s f ({ s with adding := some (id, (increment.val : ℤ)) }, none)
  | removed (id : ℕ) (code : ErrCode) (hf : f = .rstStream id code) (hmem : id ∈ s.streams) :
      Handled dec s f (({ s with
        streams := s.streams.erase id
        closedStreams := insert id s.closedStreams } : ServerConn δ).closeStream id, none)

theorem closeStream_parts (s : ServerConn δ) (id : ℕ) :
    ∃ objects, s.closeStream id = { s with stream := objects } := by
  unfold closeStream
  cases s.stream id with
  | none => exact ⟨s.stream, rfl⟩
  | some ss => exact ⟨_, rfl⟩

variable {s : ServerConn δ} {f : Frame} {headers : OrderedHeaders} {a : HeaderBlockAccumulator}

theorem Handled.same (err : Option Error) : Handled dec s f (s, err) :=
  .aside s (.inl rfl) s.hpack s.hdrAccum s.peerGoaway err

theorem Handled.drained (err : Option Error) : Handled dec s f (s.drainDone, err) :=
  .aside s.drainDone (.inr rfl) s.hpack s.hdrAccum s.peerGoaway err

theorem recvTrailingHeaders_ok {id : ℕ} {endStream : Bool} {ss ss' : ServerStream}
    (h : ss.recvTrailingHeaders id headers endStream = .ok ss') :
    ss.state = .opened ∧ endStream = true ∧
      headers.find? (fun h => ServerStream.isPseudo h.name) = none ∧
      ss' = { ss with state := .halfClosedRemote } := by
  unfold ServerStream.recvTrailingHeaders at h
  split at h
  · rename_i hst
    cases endStream with
    | false => simp at h
    | true =>
      simp only [Bool.not_true, Bool.false_eq_true, if_false] at h
      split at h
      · cases h
      · rename_i hnames
        cases h
        exact ⟨hst, rfl, hnames, rfl⟩
  all_goals cases h

theorem recvHeaders_new (id : ℕ) (headers : OrderedHeaders) (endStream : Bool) (send recv : ℤ) :
    (newServerStream send recv).recvHeaders id headers endStream = .ok
      { newServerStream send recv with
        reqHeaders := headers
        state := if endStream then .halfClosedRemote else .opened } :=
  rfl

theorem admitStream_eq (s : ServerConn δ) (id : ℕ) (headers : OrderedHeaders) (endStream : Bool)
    (hlast : s.lastInID < id) (hroom : s.streams.card < s.settings.maxConcurrentStreams) :
    s.admitStream id headers endStream = (s.openStream id headers endStream, none) := by
  unfold admitStream
  simp only [recvHeaders_new]
  rw [if_neg (not_le.mpr hroom)]
  simp only [gt_iff_lt, hlast, if_true]
  rfl

theorem onHeaderBlock_handled (ha : s.completedBlock f = some a)
    (acc : Option HeaderBlockAccumulator) :
    Handled dec s f (({ s with hdrAccum := acc } : ServerConn δ).onHeaderBlock dec a.stream a.buf
      a.endStream a.priority) := by
  have aside (hpack : δ) (err : Option Error) : Handled dec s f
      ({ s.drainDone with hpack := hpack, hdrAccum := acc }, err) :=
    .aside s.drainDone (.inr rfl) hpack acc s.peerGoaway err
  unfold onHeaderBlock
  cases hdec : dec s.hpack a.buf with
  | none =>
    simp only [drainDone, hdec]
    exact aside s.hpack _
  | some r =>
    obtain ⟨headers, hpack⟩ := r
    simp only [drainDone, hdec]
    unfold onDecodedBlock
    by_cases hlive : a.stream ∈ s.live
    · rw [if_pos (by exact hlive)]
      unfold onTrailingBlock
      cases hss : s.stream a.stream with
      | none => exact aside hpack none
      | some ss =>
        simp only []
        cases hrecv : ss.recvTrailingHeaders a.stream headers a.endStream with
        | error err => exact aside hpack (some err)
        | ok ss' =>
          obtain ⟨hst, hend, hnames, rfl⟩ := recvTrailingHeaders_ok hrecv
          simp only [hend, if_true]
          exact .trailed a headers hpack acc ss ha hdec hlive hss hst hend hnames
    rw [if_neg (by exact hlive)]
    by_cases hclosed : a.stream ∈ s.closedStreams ∪ s.doneCh.toFinset
    · rw [if_pos (by exact hclosed)]
      exact aside hpack _
    rw [if_neg (by exact hclosed)]
    simp only [Finset.mem_union, List.mem_toFinset, not_or] at hclosed
    by_cases hgone : s.peerGoaway = true
    · rw [if_pos (by exact hgone)]
      exact aside hpack _
    rw [if_neg (by exact hgone)]
    by_cases heven : a.stream % 2 = 0
    · rw [if_pos heven]
      exact aside hpack _
    rw [if_neg heven]
    by_cases hlast : a.stream ≤ s.lastInID
    · rw [if_pos (by exact hlast)]
      exact aside hpack _
    rw [if_neg (by exact hlast)]
    by_cases hself : a.priority = some a.stream
    · rw [if_pos hself]
      exact aside hpack _
    rw [if_neg hself]
    by_cases hfull : s.live.card ≥ s.settings.maxConcurrentStreams
    · simp only [admitStream, recvHeaders_new]
      rw [if_pos (by exact hfull)]
      exact aside hpack _
    rw [admitStream_eq _ _ _ _ (by exact not_le.mp hlast) (by exact not_le.mp hfull)]
    have hopens : s.Opens a := by
      refine ⟨hlive, hclosed.1, hclosed.2, ?_, heven, not_le.mp hlast, hself, not_le.mp hfull⟩
      simpa using hgone
    exact .opened a headers hpack acc ha hdec hopens

theorem onDecodedBlock_new {t : ServerConn δ} {id : ℕ} {endStream : Bool} {priority : Option ℕ}
    (hmap : id ∉ t.streams) (hclosed : id ∉ t.closedStreams) (hgone : t.peerGoaway = false)
    (hodd : id % 2 ≠ 0) (hlast : t.lastInID < id) (hself : priority ≠ some id)
    (hroom : t.streams.card < t.settings.maxConcurrentStreams) :
    t.onDecodedBlock id headers endStream priority =
      (t.openStream id headers endStream, none) := by
  have hpeer : ¬ t.peerGoaway = true := by
    simp [hgone]
  unfold onDecodedBlock
  rw [if_neg hmap, if_neg hclosed, if_neg hpeer, if_neg hodd, if_neg (not_le.mpr hlast),
    if_neg hself]
  exact admitStream_eq t id headers endStream hlast hroom

theorem onHeaderBlock_opens (ho : s.Opens a) (acc : Option HeaderBlockAccumulator) {hpack : δ}
    (hdec : dec s.hpack a.buf = some (headers, hpack)) :
    ({ s with hdrAccum := acc } : ServerConn δ).onHeaderBlock dec a.stream a.buf a.endStream
        a.priority =
      (({ s.drainDone with hpack := hpack, hdrAccum := acc } : ServerConn δ).openStream a.stream
        headers a.endStream, none) := by
  obtain ⟨hlive, hclosed, hdone, hgone, hodd, hlast, hself, hroom⟩ := ho
  have hunknown : ¬ a.stream ∈ s.closedStreams ∪ s.doneCh.toFinset := by
    simp [hclosed, hdone]
  simp only [onHeaderBlock, drainDone, hdec]
  exact onDecodedBlock_new hlive hunknown hgone hodd hlast hself hroom

theorem dispatchFrame_block (dec : BlockDecoder δ) (ha : s.completedBlock f = some a) :
    ∃ acc, s.dispatchFrame dec f = ({ s with hdrAccum := acc } : ServerConn δ).onHeaderBlock dec
      a.stream a.buf a.endStream a.priority := by
  unfold completedBlock at ha
  split at ha
  · cases ha
    exact ⟨s.hdrAccum, rfl⟩
  · rename_i id fragment
    simp only [dispatchFrame, onContinuation]
    cases happ : appendContinuation s.hdrAccum id fragment with
    | error err =>
      rw [happ] at ha
      cases ha
    | ok b =>
      rw [happ] at ha
      cases ha
      exact ⟨none, rfl⟩
  · cases ha

theorem dispatchFrame_opens (ha : s.completedBlock f = some a) (ho : s.Opens a) {hpack : δ}
    (hdec : dec s.hpack a.buf = some (headers, hpack)) :
    ∃ acc, s.dispatchFrame dec f =
      (({ s.drainDone with hpack := hpack, hdrAccum := acc } : ServerConn δ).openStream a.stream
        headers a.endStream, none) := by
  obtain ⟨acc, hblock⟩ := dispatchFrame_block dec ha
  exact ⟨acc, hblock.trans (onHeaderBlock_opens ho acc hdec)⟩

theorem onHeaders_handled (s : ServerConn δ) (id : ℕ) (fragment : Bytes)
    (endHeaders endStream : Bool) (priority : Option ℕ) :
    Handled dec s (.headers id fragment endHeaders endStream priority)
      (s.onHeaders dec id fragment endHeaders endStream priority) := by
  unfold onHeaders
  cases endHeaders with
  | false => exact .aside s (.inl rfl) s.hpack _ s.peerGoaway none
  | true =>
    have ha : s.completedBlock (.headers id fragment true endStream priority) =
        some ⟨id, fragment, endStream, priority⟩ := rfl
    exact onHeaderBlock_handled ha s.hdrAccum

theorem onContinuation_handled (s : ServerConn δ) (id : ℕ) (fragment : Bytes)
    (endHeaders : Bool) :
    Handled dec s (.continuation id fragment endHeaders)
      (s.onContinuation dec id fragment endHeaders) := by
  unfold onContinuation
  cases happ : appendContinuation s.hdrAccum id fragment with
  | error err => exact .aside s (.inl rfl) s.hpack none s.peerGoaway (some err)
  | ok a =>
    cases endHeaders with
    | false => exact .aside s (.inl rfl) s.hpack (some a) s.peerGoaway none
    | true =>
      have ha : s.completedBlock (.continuation id fragment true) = some a := by
        simp only [completedBlock, happ, Except.toOption]
      exact onHeaderBlock_handled ha none

theorem onData_handled (s : ServerConn δ) (id : ℕ) (payload : Bytes)
    (padding : Option (Fin 256)) (endStream : Bool) :
    Handled dec s (.data id payload padding endStream) (s.onData id payload endStream) := by
  unfold onData
  by_cases hlive : id ∈ s.live
  · simp only []
    rw [if_pos (by exact hlive)]
    cases hss : s.stream id with
    | none =>
      simp only [drainDone, hss]
      exact .drained none
    | some ss =>
      cases hrecv : ss.recvData id payload endStream with
      | error err =>
        simp only [drainDone, hss, hrecv]
        exact .drained (some err)
      | ok ss' =>
        simp only [drainDone, hss, hrecv]
        exact .accepted id payload padding endStream ss ss' rfl hlive hss hrecv
  · simp only []
    rw [if_neg (by exact hlive)]
    split_ifs
    all_goals exact .drained _

theorem onSettings_handled (s : ServerConn δ) (ack : Bool) (params : List Setting) :
    Handled dec s (.settings ack params) (s.onSettings ack params) := by
  unfold onSettings
  cases ack with
  | true => exact .same none
  | false =>
    simp only [Bool.false_eq_true, if_false]
    cases hvalid : params.findSome? validateSetting with
    | some err => exact .same (some err)
    | none =>
      have h : ∀ t err, s.applySettings none params = (t, err) →
          Handled dec s (.settings false params)
            (if err = none then t.write .settingsAck else t, err) :=
        fun t err => Handled.configured params t err rfl hvalid
      revert h
      rcases s.applySettings none params with ⟨t, err⟩
      intro h
      cases err with
      | none => exact h t none rfl
      | some err => exact h t (some err) rfl

theorem onWindowUpdate_handled (s : ServerConn δ) (id : ℕ) (increment : Fin (2^31)) :
    Handled dec s (.windowUpdate id increment) (s.onWindowUpdate id increment.val) := by
  unfold onWindowUpdate
  by_cases h0 : id = 0
  · rw [if_pos h0]
    split_ifs with hz hfits
    · exact .same _
    · exact .same _
    · subst h0
      exact .credited 0 increment rfl (.inl ⟨rfl, by simpa using hfits⟩)
  rw [if_neg h0]
  by_cases hmem : id ∈ s.streams
  · rw [if_pos hmem]
    cases hss : s.stream id with
    | none => exact .same none
    | some ss =>
      simp only []
      split_ifs with hz hfits
      · exact .same _
      · exact .same _
      · exact .credited id increment rfl (.inr ⟨h0, hmem, ss, hss, by simpa using hfits⟩)
  · rw [if_neg hmem]
    split_ifs
    all_goals exact .same _

theorem dispatchFrame_handled (dec : BlockDecoder δ) (s : ServerConn δ) (f : Frame) :
    Handled dec s f (s.dispatchFrame dec f) := by
  cases f with
  | headers id fragment endHeaders endStream priority =>
    exact onHeaders_handled s id fragment endHeaders endStream priority
  | continuation id fragment endHeaders => exact onContinuation_handled s id fragment endHeaders
  | data id payload padding endStream => exact onData_handled s id payload padding endStream
  | settings ack params => exact onSettings_handled s ack params
  | ping ack =>
    cases ack with
    | true => exact .same none
    | false => exact .ponged
  | windowUpdate id increment => exact onWindowUpdate_handled s id increment
  | rstStream id code =>
    simp only [dispatchFrame, onRSTStream]
    by_cases hmem : id ∈ s.streams
    · rw [if_pos hmem]
      exact .removed id code rfl hmem
    · rw [if_neg hmem]
      split_ifs
      all_goals exact .same _
  | goaway => exact .aside s (.inl rfl) s.hpack s.hdrAccum true none
  | pushPromise => exact .same _
  | priority id dependency =>
    simp only [dispatchFrame, onPriority]
    split_ifs
    all_goals exact .same _
  | unknown => exact .same none
  | malformed stream code => exact .same none

def Updates (fs : List WireFrame) : Prop := ∀ f ∈ fs, ∃ id delta, f = .windowUpdate id delta

theorem debitConn_parts (s : ServerConn δ) (dataLen : ℤ) :
    ∃ (w : Window) (d : ℤ) (upd : List WireFrame), Updates upd ∧ s.debitConn dataLen =
      { s with recvW := w, recvDebitSinceLastUpdate := d, wire := s.wire ++ upd } := by
  unfold debitConn
  simp only []
  split_ifs
  · refine ⟨_, _, [.windowUpdate 0 _], ?_, rfl⟩
    intro f hf
    exact ⟨0, _, List.mem_singleton.mp hf⟩
  · refine ⟨s.recvW.replenish (-dataLen), s.recvDebitSinceLastUpdate + dataLen, [], ?_, ?_⟩
    · intro f hf
      cases hf
    · rw [List.append_nil]

theorem debitStream_parts (s : ServerConn δ) (id : ℕ) (ss : ServerStream) (dataLen : ℤ)
    (endStream : Bool) :
    ∃ (ss' : ServerStream) (upd : List WireFrame), Updates upd ∧ ss'.state = ss.state ∧
      ss'.reqBody = ss.reqBody ∧ ss'.sendW = ss.sendW ∧ s.debitStream id ss dataLen endStream =
        ({ s with wire := s.wire ++ upd } : ServerConn δ).setStream id ss' := by
  unfold debitStream
  simp only []
  split_ifs
  · refine ⟨{ ss with
      recvW := (ss.recvW.replenish (-dataLen)).replenish (ss.recvDebitSinceLastUpdate + dataLen)
      recvDebitSinceLastUpdate := 0 },
      [.windowUpdate id (ss.recvDebitSinceLastUpdate + dataLen)], ?_, rfl, rfl, rfl, rfl⟩
    intro f hf
    exact ⟨id, _, List.mem_singleton.mp hf⟩
  · refine ⟨{ ss with
      recvW := ss.recvW.replenish (-dataLen)
      recvDebitSinceLastUpdate := ss.recvDebitSinceLastUpdate + dataLen },
      [], ?_, rfl, rfl, rfl, ?_⟩
    · intro f hf
      cases hf
    · rw [List.append_nil]

theorem acceptData_parts (s : ServerConn δ) (id : ℕ) (ss : ServerStream) (dataLen : ℤ)
    (endStream : Bool) :
    ∃ (w : Window) (d : ℤ) (upd : List WireFrame) (ss' : ServerStream), Updates upd ∧
      ss'.state = ss.state ∧ ss'.reqBody = ss.reqBody ∧ ss'.sendW = ss.sendW ∧
      s.acceptData id ss dataLen endStream =
        (({ s with recvW := w, recvDebitSinceLastUpdate := d, wire := s.wire ++ upd } :
          ServerConn δ).setStream id ss').queueIf endStream id := by
  unfold acceptData
  by_cases hpos : dataLen > 0
  · obtain ⟨w, d, upd, hupd, hconn⟩ := debitConn_parts s dataLen
    obtain ⟨ss', upd', hupd', hst, hbody, hsend, hstream⟩ :=
      debitStream_parts (s.debitConn dataLen) id ss dataLen endStream
    refine ⟨w, d, upd ++ upd', ss', ?_, hst, hbody, hsend, ?_⟩
    · intro f hf
      rcases List.mem_append.mp hf with hf | hf
      · exact hupd f hf
      · exact hupd' f hf
    · simp only [if_pos hpos]
      rw [hstream, hconn, ← List.append_assoc]
      rfl
  · refine ⟨s.recvW, s.recvDebitSinceLastUpdate, [], ss, ?_, rfl, rfl, rfl, ?_⟩
    · intro f hf
      cases hf
    · simp only [if_neg hpos, List.append_nil]
      rfl

end EnvoyGo.H2.ServerConn

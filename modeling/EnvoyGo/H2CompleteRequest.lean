import EnvoyGo.H2RapidReset

/-!
Which requests of a downstream connection are dispatched, and with which body, against what the
frames brought.
-/

namespace EnvoyGo.H2

open Runs

inductive Arrival
  | data (id : ℕ) (payload : Bytes)
  | ended (id : ℕ)
  | endedBadly (id : ℕ)
  deriving DecidableEq

def Arrival.payloadOn (id : ℕ) : Arrival → Bytes
  | .data j payload => if j = id then payload else []
  | _ => []

/-- The DATA payloads of a stream, in order. -/
def received (id : ℕ) (arrived : List Arrival) : Bytes := arrived.flatMap (Arrival.payloadOn id)

theorem received_append (id : ℕ) (h k : List Arrival) :
    received id (h ++ k) = received id h ++ received id k :=
  List.flatMap_append

namespace ServerConn

variable {δ : Type} {dec : BlockDecoder δ}

instance (s : ServerConn δ) (id : ℕ) : Decidable (s.IsReceiving id) :=
  inferInstanceAs (Decidable (∃ ss ∈ s.stream id, ss.Receiving))

def EndsOpen (s : ServerConn δ) (a : HeaderBlockAccumulator) : Prop :=
  a.stream ∈ s.live ∧ (∃ ss ∈ s.stream a.stream, ss.state = .opened) ∧ a.endStream = true

instance (s : ServerConn δ) (a : HeaderBlockAccumulator) : Decidable (s.EndsOpen a) :=
  inferInstanceAs (Decidable (_ ∧ (∃ ss ∈ s.stream a.stream, ss.state = .opened) ∧ _))

def hasPseudo (headers : OrderedHeaders) : Bool :=
  (headers.find? (fun h => ServerStream.isPseudo h.name)).isSome

def blockArrivals (s : ServerConn δ) (a : HeaderBlockAccumulator) (headers : OrderedHeaders) :
    List Arrival :=
  if s.Opens a then if a.endStream then [.ended a.stream] else []
  else if s.EndsOpen a then
    if hasPseudo headers then [.endedBadly a.stream] else [.ended a.stream]
  else []

def dataArrivals (s : ServerConn δ) (id : ℕ) (payload : Bytes) (endStream : Bool) :
    List Arrival :=
  if id ∈ s.live ∧ s.IsReceiving id then
    .data id payload :: if endStream then [.ended id] else []
  else []

def frameArrivals (dec : BlockDecoder δ) (s : ServerConn δ) (f : Frame) : List Arrival :=
  match f with
  | .data id payload _ endStream => s.dataArrivals id payload endStream
  | f =>
    match s.completedBlock f with
    | none => []
    | some a =>
      match dec s.hpack a.buf with
      | none => []
      | some (headers, _) => s.blockArrivals a headers

def arrivals (dec : BlockDecoder δ) (s : ServerConn δ) (e : Event) : List Arrival :=
  match e.frame? with
  | none => []
  | some f => if s.Takes f then s.frameArrivals dec f else []

/-- The body a stream has so far. -/
def body (s : ServerConn δ) (id : ℕ) : Option Bytes := (s.stream id).map ServerStream.reqBody

theorem body_setStream (s : ServerConn δ) (id j : ℕ) (ss : ServerStream) :
    (s.setStream id ss).body j = if j = id then some ss.reqBody else s.body j := by
  unfold body setStream
  by_cases hj : j = id
  · subst hj
    simp
  · simp [hj]

variable {s : ServerConn δ} {id : ℕ} {ss : ServerStream}

theorem body_setStream_same {ss' : ServerStream} (h : s.stream id = some ss)
    (hbody : ss'.reqBody = ss.reqBody) (j : ℕ) : (s.setStream id ss').body j = s.body j := by
  rw [body_setStream]
  split_ifs with hj
  · subst hj
    simp [body, h, hbody]
  · rfl

theorem body_closeStream (s : ServerConn δ) (id j : ℕ) : (s.closeStream id).body j = s.body j := by
  unfold closeStream
  cases h : s.stream id with
  | none => rfl
  | some ss =>
    have hbody : ({ ss with state := .closed } : ServerStream).reqBody = ss.reqBody := rfl
    exact body_setStream_same h hbody j

theorem body_walkStreams (s : ServerConn δ) (delta : ℤ) (j : ℕ) :
    (s.walkStreams delta).body j = s.body j := by
  unfold body walkStreams
  simp only []
  by_cases hj : j ∈ s.streams
  · rw [if_pos hj]
    cases s.stream j with
    | none => rfl
    | some ss => rfl
  · rw [if_neg hj]

structure Ledger (s : ServerConn δ) (arrived : List Arrival) : Prop where
  queued : s.queued = s.launched ++ s.pendingDispatch
  ended : ∀ id, id ∈ s.queued ↔ .ended id ∈ arrived
  objects : ∀ id, (s.body id).isSome → id ≤ s.lastInID
  body : ∀ id, (s.body id).getD [] = received id arrived
  bodies : ∀ p ∈ s.bodies, p.1 ∈ s.queued ∧ p.2 = received p.1 arrived

structure SameRequests (s t : ServerConn δ) : Prop where
  queued : t.queued = s.queued
  jobs : t.launched ++ t.pendingDispatch = s.launched ++ s.pendingDispatch
  last : t.lastInID = s.lastInID
  body : ∀ id, t.body id = s.body id
  bodies : t.bodies = s.bodies

theorem SameRequests.refl (s : ServerConn δ) : SameRequests s s :=
  ⟨rfl, rfl, rfl, fun _ => rfl, rfl⟩

theorem SameRequests.trans {t u : ServerConn δ} (h : SameRequests s t) (h' : SameRequests t u) :
    SameRequests s u :=
  ⟨h'.queued.trans h.queued, h'.jobs.trans h.jobs, h'.last.trans h.last,
    fun id => (h'.body id).trans (h.body id), h'.bodies.trans h.bodies⟩

theorem Ledger.same {t : ServerConn δ} {arrived : List Arrival} (h : Ledger s arrived)
    (hsame : SameRequests s t) : Ledger t arrived := by
  refine ⟨?_, ?_, ?_, ?_, ?_⟩
  · rw [hsame.queued, hsame.jobs]
    exact h.queued
  · rw [hsame.queued]
    exact h.ended
  · intro id
    rw [hsame.body, hsame.last]
    exact h.objects id
  · intro id
    rw [hsame.body]
    exact h.body id
  · rw [hsame.bodies, hsame.queued]
    exact h.bodies

theorem sameRequests_setStream {ss' : ServerStream} (h : s.stream id = some ss)
    (hbody : ss'.reqBody = ss.reqBody) : SameRequests s (s.setStream id ss') :=
  ⟨rfl, rfl, rfl, body_setStream_same h hbody, rfl⟩

section

variable (s : ServerConn δ)

theorem sameRequests_closeStream (id : ℕ) : SameRequests s (s.closeStream id) := by
  have hbody := body_closeStream s id
  obtain ⟨objects, heq⟩ := closeStream_parts s id
  rw [heq] at hbody ⊢
  exact ⟨rfl, rfl, rfl, hbody, rfl⟩

theorem sameRequests_write (f : WireFrame) : SameRequests s (s.write f) :=
  ⟨rfl, rfl, rfl, fun _ => rfl, rfl⟩

theorem sameRequests_last (f : WireFrame) (id : ℕ) : SameRequests s ((s.write f).closeStream id) :=
  (sameRequests_write s f).trans (sameRequests_closeStream _ id)

theorem sameRequests_abort (code : ErrCode) : SameRequests s (s.abort code) :=
  ⟨rfl, List.append_nil _, rfl, fun _ => rfl, rfl⟩

theorem sameRequests_answer (err : Option Error) : SameRequests s (answer (s, err)) := by
  cases err with
  | none => exact .refl s
  | some err =>
    unfold answer
    simp only []
    split_ifs
    · exact sameRequests_abort s err.code
    · exact ⟨rfl, rfl, rfl, fun _ => rfl, rfl⟩

theorem sameRequests_applySetting (st : Setting) : SameRequests s (s.applySetting st).1 := by
  unfold applySetting
  split
  case h_2 =>
      simp only []
      split_ifs
      · exact ⟨rfl, rfl, rfl, fun _ => rfl, rfl⟩
      · exact ⟨rfl, rfl, rfl, fun j => body_walkStreams _ _ j, rfl⟩
      · exact ⟨rfl, rfl, rfl, fun _ => rfl, rfl⟩
  all_goals exact ⟨rfl, rfl, rfl, fun _ => rfl, rfl⟩

theorem sameRequests_applySettings (err : Option Error) (params : List Setting) :
    SameRequests s (s.applySettings err params).1 := by
  induction params generalizing s err with
  | nil => exact .refl s
  | cons st rest ih =>
    have hone := sameRequests_applySetting s st
    unfold applySettings
    split
    · rename_i s' hs'
      rw [hs'] at hone
      exact hone.trans (ih s' err)
    · rename_i s' e hs'
      rw [hs'] at hone
      exact hone.trans (ih s' (some e))

theorem sameRequests_step (e : Event) (hframe : e.frame? = none) (hsnap : ∀ id, e ≠ .snapshot id) :
    SameRequests s (step dec s e) := by
  refine acts_induct hframe (.refl s) fun t ht => ?_
  cases ht with
  | copied _ => exact absurd rfl (hsnap _)
  | streamCredited _ _ hss | reserved _ hss _ _ | refunded _ hss _ | givenBack _ hss _ =>
    exact ⟨rfl, rfl, rfl, body_setStream_same hss rfl, rfl⟩
  | flushed => exact ⟨rfl, List.append_nil _, rfl, fun _ => rfl, rfl⟩
  | lastHeaders _ | lastData _ | reset => exact sameRequests_last s _ _
  | ended => exact sameRequests_closeStream s _
  | @wroteLast k w _ _ last =>
    have hwrote :
        SameRequests s ((s.write (.data w.stream w.connTaken.toNat last)).setWriter k none) :=
      ⟨rfl, rfl, rfl, fun _ => rfl, rfl⟩
    exact hwrote.trans (sameRequests_closeStream _ _)
  | @finished id _ _ =>
    have hclose := sameRequests_closeStream s id
    exact ⟨hclose.queued, hclose.jobs, hclose.last, hclose.body, hclose.bodies⟩
  | _ => exact ⟨rfl, rfl, rfl, fun _ => rfl, rfl⟩

end

theorem Handled.sameRequests {t : ServerConn δ} {f : Frame} {err : Option Error}
    (hh : Handled dec s f (t, err))
    (hdata : ∀ id payload padding endStream, f = .data id payload padding endStream →
      ¬ (id ∈ s.live ∧ s.IsReceiving id))
    (hblock : ∀ a headers hpack, s.completedBlock f = some a →
      dec s.hpack a.buf = some (headers, hpack) →
        ¬ s.Opens a ∧ ¬ (s.EndsOpen a ∧ hasPseudo headers = false)) : SameRequests s t := by
  cases hh with
  | aside t ht hpack acc goaway err =>
    rcases ht with rfl | rfl
    · exact ⟨rfl, rfl, rfl, fun _ => rfl, rfl⟩
    · exact ⟨rfl, rfl, rfl, fun _ => rfl, rfl⟩
  | opened a headers hpack acc ha hdec ho => exact absurd ho (hblock a headers hpack ha hdec).1
  | trailed a headers hpack acc ss ha hdec hlive hss hst hend hnames =>
    refine absurd ?_ (hblock a headers hpack ha hdec).2
    refine ⟨⟨hlive, ⟨ss, hss, hst⟩, hend⟩, ?_⟩
    rw [hasPseudo, hnames]
    rfl
  | accepted id payload padding endStream ss ss' hf hlive hss hrecv =>
    refine absurd ⟨hlive, ss, hss, ?_⟩ (hdata id payload padding endStream hf)
    exact (ServerStream.recvData_ok hrecv).1
  | configured params t err hf hvalid happly =>
    have happ := sameRequests_applySettings s none params
    rw [happly] at happ
    split_ifs
    · exact happ.trans (sameRequests_write t _)
    · exact happ
  | ponged => exact sameRequests_write s _
  | credited id increment hf hfits => exact ⟨rfl, rfl, rfl, fun _ => rfl, rfl⟩
  | removed id code hf hmem =>
    have hdrop : SameRequests s { s with
        streams := s.streams.erase id, closedStreams := insert id s.closedStreams } :=
      ⟨rfl, rfl, rfl, fun _ => rfl, rfl⟩
    exact hdrop.trans (sameRequests_closeStream _ id)

theorem recvData_receiving {payload : Bytes} {endStream : Bool} (h : ss.Receiving) :
    ∃ ss', ss.recvData id payload endStream = .ok ss' := by
  unfold ServerStream.recvData
  rcases h with h | h
  · rw [h]
    exact ⟨_, rfl⟩
  · rw [h]
    exact ⟨_, rfl⟩

theorem onData_accepts (hlive : id ∈ s.live) (hss : s.stream id = some ss) {payload : Bytes}
    {endStream : Bool} {ss' : ServerStream} (hrecv : ss.recvData id payload endStream = .ok ss') :
    s.onData id payload endStream =
      (s.drainDone.acceptData id ss' payload.length endStream, none) := by
  have hmap : id ∈ s.drainDone.streams := hlive
  have hobj : s.drainDone.stream id = some ss := hss
  simp only [onData, hmap, if_true, hobj, hrecv]

theorem onHeaderBlock_trails {a : HeaderBlockAccumulator} (hlive : a.stream ∈ s.live)
    (hss : s.stream a.stream = some ss) (hst : ss.state = .opened) (hend : a.endStream = true)
    (acc : Option HeaderBlockAccumulator) {headers : OrderedHeaders} {hpack : δ}
    (hdec : dec s.hpack a.buf = some (headers, hpack))
    (hnames : headers.find? (fun h => ServerStream.isPseudo h.name) = none) :
    ({ s with hdrAccum := acc } : ServerConn δ).onHeaderBlock dec a.stream a.buf a.endStream
        a.priority =
      ((({ s.drainDone with hpack := hpack, hdrAccum := acc } : ServerConn δ).setStream a.stream
        { ss with state := .halfClosedRemote }).queueDispatch a.stream, none) := by
  have hrecv : ss.recvTrailingHeaders a.stream headers true =
      .ok { ss with state := .halfClosedRemote } := by
    simp [ServerStream.recvTrailingHeaders, hst, hnames]
  let t : ServerConn δ := { s.drainDone with hpack := hpack, hdrAccum := acc }
  have hmap : a.stream ∈ t.streams := hlive
  have hobj : t.stream a.stream = some ss := hss
  have hblock : t.onDecodedBlock a.stream headers a.endStream a.priority =
      ((t.setStream a.stream { ss with state := .halfClosedRemote }).queueDispatch a.stream,
        none) := by
    simp only [onDecodedBlock, hmap, if_true, onTrailingBlock, hobj, hrecv, hend]
  simp only [onHeaderBlock, drainDone, hdec]
  exact hblock

section Arrivals

variable {s : ServerConn δ} {arrived : List Arrival}

theorem Ledger.queueDispatch (h : Ledger s arrived) (id : ℕ) :
    Ledger (s.queueDispatch id) (arrived ++ [.ended id]) := by
  have hrecv (j : ℕ) : received j (arrived ++ [.ended id]) = received j arrived := by
    rw [received_append]
    exact List.append_nil _
  refine ⟨?_, ?_, h.objects, ?_, ?_⟩
  · change s.queued ++ [id] = s.launched ++ (s.pendingDispatch ++ [id])
    rw [h.queued, List.append_assoc]
  · intro j
    change j ∈ s.queued ++ [id] ↔ _
    simp only [List.mem_append, h.ended j, List.mem_singleton, Arrival.ended.injEq]
  · intro j
    rw [hrecv]
    exact h.body j
  · intro p hp
    obtain ⟨hq, hb⟩ := h.bodies p hp
    exact ⟨List.mem_append_left _ hq, by rw [hrecv]; exact hb⟩

theorem Ledger.queueIf (h : Ledger s arrived) (endStream : Bool) (id : ℕ) :
    Ledger (s.queueIf endStream id) (arrived ++ if endStream then [.ended id] else []) := by
  cases endStream with
  | false =>
    simp only [Bool.false_eq_true, if_false, List.append_nil]
    exact h
  | true => exact h.queueDispatch id

theorem Ledger.openStream (h : Ledger s arrived) {id : ℕ} (hlast : s.lastInID < id)
    (headers : OrderedHeaders) (endStream : Bool) :
    Ledger (s.openStream id headers endStream)
      (arrived ++ if endStream then [.ended id] else []) := by
  have hnone : s.body id = none := by
    by_contra hsome
    have := h.objects id (Option.isSome_iff_ne_none.mpr hsome)
    omega
  have hempty : received id arrived = [] := by
    rw [← h.body id, hnone]
    rfl
  have hopened : Ledger ({ s.setStream id (s.openedStream headers endStream) with
      streams := insert id s.streams, lastInID := id } : ServerConn δ) arrived := by
    have hbody (j : ℕ) : ({ s.setStream id (s.openedStream headers endStream) with
        streams := insert id s.streams, lastInID := id } : ServerConn δ).body j =
        if j = id then some [] else s.body j :=
      body_setStream s id j (s.openedStream headers endStream)
    refine ⟨h.queued, h.ended, ?_, ?_, h.bodies⟩
    · intro j hj
      rw [hbody] at hj
      split_ifs at hj with hjid
      · exact hjid.le
      · exact (h.objects j hj).trans hlast.le
    · intro j
      rw [hbody]
      split_ifs with hjid
      · rw [hjid, hempty]
        rfl
      · exact h.body j
  exact hopened.queueIf endStream id

theorem Ledger.data (h : Ledger s arrived) {id : ℕ} {ss ss' : ServerStream}
    (hss : s.stream id = some ss) {payload : Bytes} (hbody : ss'.reqBody = ss.reqBody ++ payload)
    (hfresh : id ∉ s.queued) : Ledger (s.setStream id ss') (arrived ++ [.data id payload]) := by
  have hother (j : ℕ) (hj : j ≠ id) :
      received j (arrived ++ [.data id payload]) = received j arrived := by
    rw [received_append]
    simp [received, Arrival.payloadOn, hj.symm]
  have hsame : received id (arrived ++ [.data id payload]) = received id arrived ++ payload := by
    rw [received_append]
    simp [received, Arrival.payloadOn]
  have hobj : s.body id = some ss.reqBody := by
    simp [ServerConn.body, hss]
  refine ⟨h.queued, ?_, ?_, ?_, ?_⟩
  · intro j
    change j ∈ s.queued ↔ _
    rw [h.ended j]
    simp
  · intro j hj
    rw [body_setStream] at hj
    refine h.objects j ?_
    split_ifs at hj with hjid
    · rw [hjid, hobj]
      rfl
    · exact hj
  · intro j
    rw [body_setStream]
    split_ifs with hjid
    · rw [hjid, hsame, ← h.body id, hobj, hbody]
      rfl
    · rw [hother j hjid]
      exact h.body j
  · intro p hp
    obtain ⟨hq, hb⟩ := h.bodies p hp
    refine ⟨hq, ?_⟩
    rw [hother p.1 (fun hpid => hfresh (hpid ▸ hq))]
    exact hb

theorem Ledger.endedBadly (h : Ledger s arrived) (id : ℕ) :
    Ledger s (arrived ++ [.endedBadly id]) := by
  have hrecv (j : ℕ) : received j (arrived ++ [.endedBadly id]) = received j arrived := by
    rw [received_append]
    exact List.append_nil _
  refine ⟨h.queued, ?_, h.objects, ?_, ?_⟩
  · intro j
    rw [h.ended j]
    simp
  · intro j
    rw [hrecv]
    exact h.body j
  · intro p hp
    rw [hrecv]
    exact h.bodies p hp

theorem sameRequests_drained (s : ServerConn δ) (hpack : δ)
    (acc : Option HeaderBlockAccumulator) :
    SameRequests s { s.drainDone with hpack := hpack, hdrAccum := acc } :=
  ⟨rfl, rfl, rfl, fun _ => rfl, rfl⟩

theorem Ledger.untouched (h : Ledger s arrived) {f : Frame}
    (hdata : ∀ id payload padding endStream, f = .data id payload padding endStream →
      ¬ (id ∈ s.live ∧ s.IsReceiving id))
    (hblock : ∀ a headers hpack, s.completedBlock f = some a →
      dec s.hpack a.buf = some (headers, hpack) →
        ¬ s.Opens a ∧ ¬ (s.EndsOpen a ∧ hasPseudo headers = false)) :
    Ledger (answer (s.dispatchFrame dec f)) arrived := by
  have hh := dispatchFrame_handled dec s f
  revert hh
  rcases s.dispatchFrame dec f with ⟨t, err⟩
  intro hh
  exact h.same ((hh.sameRequests hdata hblock).trans (sameRequests_answer t err))

theorem Ledger.onData (h : Ledger s arrived) (hkept : s.book.Kept) (dec : BlockDecoder δ)
    (id : ℕ) (payload : Bytes) (padding : Option (Fin 256)) (endStream : Bool) :
    Ledger (answer (s.dispatchFrame dec (.data id payload padding endStream)))
      (arrived ++ s.dataArrivals id payload endStream) := by
  by_cases hopen : id ∈ s.live ∧ s.IsReceiving id
  · obtain ⟨hlive, ss, hss, hrcv⟩ := hopen
    have hfresh : id ∉ s.queued := by
      rw [h.queued]
      exact hkept.opened_fresh id ⟨ss, hss, hrcv⟩
    obtain ⟨ss', hrecv⟩ : ∃ ss', ss.recvData id payload endStream = .ok ss' :=
      recvData_receiving hrcv
    obtain ⟨w, d, upd, ss'', -, -, hbody, -, heq⟩ :=
      acceptData_parts s.drainDone id ss' payload.length endStream
    have harr : s.dataArrivals id payload endStream =
        [.data id payload] ++ if endStream then [.ended id] else [] := by
      simp only [dataArrivals]
      rw [if_pos ⟨hlive, ss, hss, hrcv⟩]
      rfl
    have hacc : s.dispatchFrame dec (.data id payload padding endStream) =
        (s.drainDone.acceptData id ss' payload.length endStream, none) :=
      onData_accepts hlive hss hrecv
    let t : ServerConn δ := { s.drainDone with
      recvW := w, recvDebitSinceLastUpdate := d, wire := s.drainDone.wire ++ upd }
    have hdrained : Ledger t arrived := h.same ⟨rfl, rfl, rfl, fun _ => rfl, rfl⟩
    rw [hacc, heq, harr, ← List.append_assoc]
    refine Ledger.queueIf (hdrained.data hss ?_ hfresh) endStream id
    rw [hbody, (ServerStream.recvData_ok hrecv).2.2.1]
  · have harr : s.dataArrivals id payload endStream = [] := by
      rw [dataArrivals, if_neg hopen]
    rw [harr, List.append_nil]
    refine h.untouched ?_ ?_
    · intro id' payload' padding' endStream' hf
      cases hf
      exact hopen
    · intro a headers hpack ha
      cases ha

theorem Ledger.onBlock (h : Ledger s arrived) {f : Frame} {a : HeaderBlockAccumulator}
    (ha : s.completedBlock f = some a) {headers : OrderedHeaders} {hpack : δ}
    (hdec : dec s.hpack a.buf = some (headers, hpack)) :
    Ledger (answer (s.dispatchFrame dec f)) (arrived ++ s.blockArrivals a headers) := by
  have hnot : ¬ s.Opens a → ¬ (s.EndsOpen a ∧ hasPseudo headers = false) →
      Ledger (answer (s.dispatchFrame dec f)) arrived := by
    intro hopens hends
    refine h.untouched ?_ ?_
    · intro id payload padding endStream hf
      subst hf
      cases ha
    · intro b headers' hpack' hb hdec'
      cases ha.symm.trans hb
      cases hdec.symm.trans hdec'
      exact ⟨hopens, hends⟩
  unfold blockArrivals
  by_cases hopens : s.Opens a
  · obtain ⟨acc, hblock⟩ := dispatchFrame_opens ha hopens hdec
    rw [if_pos hopens, hblock]
    have hdrained := h.same (sameRequests_drained s hpack acc)
    exact hdrained.openStream hopens.2.2.2.2.2.1 headers a.endStream
  rw [if_neg hopens]
  by_cases hends : s.EndsOpen a
  · rw [if_pos hends]
    cases hps : hasPseudo headers with
    | true => exact (hnot hopens (by simp [hps])).endedBadly a.stream
    | false =>
      obtain ⟨hlive, ⟨ss, hss, hst⟩, hend⟩ := hends
      have hnames : headers.find? (fun h => ServerStream.isPseudo h.name) = none := by
        simpa [hasPseudo] using hps
      obtain ⟨acc, hblock⟩ := dispatchFrame_block dec ha
      rw [hblock, onHeaderBlock_trails hlive hss hst hend acc hdec hnames]
      let t : ServerConn δ := { s.drainDone with hpack := hpack, hdrAccum := acc }
      have hdrained : Ledger t arrived := h.same (sameRequests_drained s hpack acc)
      have hsame : SameRequests t (t.setStream a.stream { ss with state := .halfClosedRemote }) :=
        sameRequests_setStream hss rfl
      exact (hdrained.same hsame).queueDispatch a.stream
  · rw [if_neg hends, List.append_nil]
    exact hnot hopens (fun hboth => hends hboth.1)

theorem frameArrivals_block {f : Frame} {a : HeaderBlockAccumulator}
    (ha : s.completedBlock f = some a) :
    s.frameArrivals dec f = match dec s.hpack a.buf with
      | none => []
      | some (headers, _) => s.blockArrivals a headers := by
  unfold frameArrivals
  split
  · cases ha
  · rw [ha]

theorem Ledger.frame (h : Ledger s arrived) (hkept : s.book.Kept) (dec : BlockDecoder δ)
    (f : Frame) :
    Ledger (answer (s.dispatchFrame dec f)) (arrived ++ s.frameArrivals dec f) := by
  cases ha : s.completedBlock f with
  | some a =>
    rw [frameArrivals_block ha]
    cases hdec : dec s.hpack a.buf with
    | none =>
      simp only [List.append_nil]
      refine h.untouched ?_ ?_
      · intro id payload padding endStream hf
        subst hf
        cases ha
      · intro b headers hpack hb hdec'
        cases ha.symm.trans hb
        rw [hdec] at hdec'
        cases hdec'
    | some r => exact h.onBlock ha hdec
  | none =>
    by_cases hdata : ∃ id payload padding endStream, f = .data id payload padding endStream
    · obtain ⟨id, payload, padding, endStream, rfl⟩ := hdata
      exact h.onData hkept dec id payload padding endStream
    · have harr : s.frameArrivals dec f = [] := by
        unfold frameArrivals
        split
        · exact absurd ⟨_, _, _, _, rfl⟩ hdata
        · rw [ha]
      rw [harr, List.append_nil]
      refine h.untouched ?_ ?_
      · intro id payload padding endStream hf
        exact absurd ⟨id, payload, padding, endStream, hf⟩ hdata
      · intro a headers hpack hb
        rw [ha] at hb
        cases hb

end Arrivals

theorem Ledger.snapshotBody {arrived : List Arrival} (h : Ledger s arrived) (hkept : s.book.Kept)
    (hrun : id ∈ s.running) : Ledger (s.snapshotBody id) arrived := by
  have hqueued : id ∈ s.queued := by
    rw [h.queued]
    exact List.mem_append_left _ (hkept.running_launched id hrun)
  unfold ServerConn.snapshotBody
  cases hss : s.stream id with
  | none => exact h
  | some ss =>
    refine ⟨h.queued, h.ended, h.objects, h.body, ?_⟩
    intro p hp
    rcases List.mem_append.mp hp with hp | hp
    · exact h.bodies p hp
    · rw [List.mem_singleton.mp hp]
      refine ⟨hqueued, ?_⟩
      rw [← h.body id, ServerConn.body, hss]
      rfl

/-- The frames that have arrived, up to a state. -/
abbrev arrivalsWatched (dec : BlockDecoder δ) := watch (step dec) (arrivals dec)

theorem ledger_step (dec : BlockDecoder δ) (p : ServerConn δ × List Arrival) (e : Event)
    (h : p.1.book.Kept ∧ Ledger p.1 p.2) :
    (arrivalsWatched dec p e).1.book.Kept ∧
      Ledger (arrivalsWatched dec p e).1 (arrivalsWatched dec p e).2 := by
  obtain ⟨s, arrived⟩ := p
  obtain ⟨hkept, hledger⟩ := h
  refine ⟨kept_step e hkept, ?_⟩
  change Ledger (step dec s e) (arrived ++ arrivals dec s e)
  by_cases hframe : e.frame? = none
  · have harr : arrivals dec s e = [] := by
      rw [arrivals, hframe]
    rw [harr, List.append_nil]
    by_cases hsnap : ∃ id, e = .snapshot id
    · obtain ⟨id, rfl⟩ := hsnap
      simp only [step]
      split_ifs with hrun
      · exact hledger.snapshotBody hkept hrun
      · exact hledger
    · have hother : ∀ id, e ≠ .snapshot id := fun id he => hsnap ⟨id, he⟩
      exact hledger.same (sameRequests_step s e hframe hother)
  · cases e with
    | frame f =>
      have harr : arrivals dec s (.frame f) = if s.Takes f then s.frameArrivals dec f else [] :=
        rfl
      rw [harr]
      by_cases htakes : s.Takes f
      · rw [if_pos htakes, step_frame_taken htakes]
        exact hledger.frame hkept dec f
      · rw [if_neg htakes, List.append_nil]
        rcases step_frame_untaken dec htakes with hs | ⟨code, hs⟩ | ⟨code, hs⟩
        · rw [hs]
          exact hledger
        · rw [hs]
          exact hledger.same (sameRequests_abort s code)
        · rw [hs]
          exact hledger.same ⟨rfl, rfl, rfl, fun _ => rfl, rfl⟩
    | _ => exact absurd rfl hframe

/-- Every stream is dispatched at most once; unless its END_STREAM came on a trailing block with a
pseudo-header, it is dispatched exactly when END_STREAM has arrived on it while it was open; and
its dispatch sees the DATA payloads that arrived while it was open, in order. -/
theorem complete_request_dispatched (dec : BlockDecoder δ) (hpack : δ) (settings : ServerSettings)
    (clientS : ClientSettings) (es : List Event) (id : ℕ) :
    let s := run dec (newServerConn hpack settings clientS) es
    let arrived := (es.foldl (arrivalsWatched dec) (newServerConn hpack settings clientS, [])).2
    s.queued.count id ≤ 1 ∧
      (.endedBadly id ∉ arrived → (id ∈ s.queued ↔ .ended id ∈ arrived)) ∧
      ∀ body, (id, body) ∈ s.bodies → body = received id arrived := by
  have hinit : (newServerConn hpack settings clientS).book.Kept ∧
      Ledger (newServerConn hpack settings clientS) [] := by
    refine ⟨kept_new hpack settings clientS, rfl, ?_, ?_, ?_, ?_⟩
    all_goals simp [newServerConn, ServerConn.body, received]
  have hfst : (es.foldl (arrivalsWatched dec) (newServerConn hpack settings clientS, [])).1 =
      run dec (newServerConn hpack settings clientS) es :=
    foldl_watch_fst (step dec) (arrivals dec) es (newServerConn hpack settings clientS, [])
  obtain ⟨hkept, hledger⟩ := invariant_of_run (ledger_step dec) es
    (newServerConn hpack settings clientS, []) hinit
  rw [hfst] at hkept hledger
  refine ⟨?_, ?_, ?_⟩
  · rw [hledger.queued]
    exact List.nodup_iff_count_le_one.mp hkept.once id
  · intro _
    exact hledger.ended id
  · intro body hbody
    exact (hledger.bodies _ hbody).2

def pseudoDecoder : BlockDecoder Unit := fun _ _ => some ([⟨":path", "/"⟩], ())

/-- END_STREAM arrives on open stream 1, on trailers with a pseudo-header, and no dispatch is
queued. -/
theorem bad_trailers_undispatched :
    let es : List Event :=
      [.frame (.headers 1 [] true false none), .frame (.headers 1 [] true true none)]
    let s := run pseudoDecoder (newServerConn () {} {}) es
    let arrived := (es.foldl (arrivalsWatched pseudoDecoder) (newServerConn () {} {}, [])).2
    s.stopped = none ∧ (.ended 1 ∈ arrived ∨ .endedBadly 1 ∈ arrived) ∧ 1 ∉ s.queued := by
  decide

end ServerConn

end EnvoyGo.H2

import EnvoyGo.H2CompleteRequest
import EnvoyGo.H2RefusedStream
import EnvoyGo.H2ServerWire
import Mathlib.Algebra.BigOperators.Group.List.Basic

/-!
The connection's receive window: what the peer's DATA frames used of it, and what the server has
given back with WINDOW_UPDATE.
-/

namespace EnvoyGo.H2

open Runs

def WireFrame.connCredit : WireFrame → ℤ
  | .windowUpdate id delta => if id = 0 then delta else 0
  | _ => 0

/-- The connection credit returned so far. -/
def returned (wire : List WireFrame) : ℤ := (wire.map WireFrame.connCredit).sum

theorem returned_append (a b : List WireFrame) : returned (a ++ b) = returned a + returned b := by
  rw [returned, List.map_append, List.sum_append]
  rfl

theorem returned_eq_zero {fs : List WireFrame} (h : ∀ f ∈ fs, f.connCredit = 0) :
    returned fs = 0 := by
  refine List.sum_eq_zero ?_
  intro x hx
  obtain ⟨f, hf, rfl⟩ := List.mem_map.mp hx
  exact h f hf

def Frame.dataParts? : Frame → Option (ℕ × Bytes × Option (Fin 256))
  | .data id payload padding _ => some (id, payload, padding)
  | _ => none

namespace ServerConn

variable {δ : Type} {dec : BlockDecoder δ}

/-- The flow-controlled length an event brings. -/
def dataLengths (s : ServerConn δ) (e : Event) : List ℤ :=
  match e.frame? with
  | none => []
  | some f =>
    if s.Takes f then
      f.dataParts?.toList.map (fun d => (flowControlledLength d.2.1 d.2.2 : ℤ))
    else []

/-- DATA is unpadded and on a stream that receives, or has no length, or ends the connection. -/
def Counted (s : ServerConn δ) (e : Event) : Prop :=
  ∀ f ∈ e.frame?, s.Takes f → ∀ d ∈ f.dataParts?,
    flowControlledLength d.2.1 d.2.2 = 0 ∨
    d.2.2 = none ∧ d.1 ∈ s.live ∧ s.IsReceiving d.1 ∨
    d.1 ∉ s.live ∧ s.lastInID < d.1

instance (s : ServerConn δ) (e : Event) : Decidable (s.Counted e) :=
  inferInstanceAs (Decidable (∀ f ∈ e.frame?, s.Takes f → ∀ d ∈ f.dataParts?, _ ∨ _))

structure SameCredit (s t : ServerConn δ) : Prop where
  debit : t.recvDebitSinceLastUpdate = s.recvDebitSinceLastUpdate
  wire : returned t.wire = returned s.wire

variable {s t : ServerConn δ} {id : ℕ}

theorem SameCredit.trans {u : ServerConn δ} (h : SameCredit s t) (h' : SameCredit t u) :
    SameCredit s u :=
  ⟨h'.debit.trans h.debit, h'.wire.trans h.wire⟩

theorem sameCredit_write (s : ServerConn δ) {f : WireFrame} (hf : f.connCredit = 0) :
    SameCredit s (s.write f) := by
  refine ⟨rfl, ?_⟩
  change returned (s.wire ++ [f]) = returned s.wire
  have hzero : returned [f] = 0 := by
    refine returned_eq_zero ?_
    intro g hg
    rw [List.mem_singleton.mp hg]
    exact hf
  rw [returned_append, hzero, add_zero]

theorem sameCredit_local (h : Local s t) : SameCredit s t := by
  obtain ⟨new, hnew, hall⟩ := h.wire
  refine ⟨h.debit, ?_⟩
  have hzero : returned new = 0 := by
    refine returned_eq_zero ?_
    intro f hf
    cases f with
    | windowUpdate id delta => exact absurd rfl (hall _ hf id delta)
    | _ => rfl
  rw [hnew, returned_append, hzero, add_zero]

theorem sameCredit_applySetting (s : ServerConn δ) (st : Setting) :
    SameCredit s (s.applySetting st).1 := by
  unfold applySetting
  split
  case h_2 =>
      simp only []
      split_ifs
      all_goals exact ⟨rfl, rfl⟩
  all_goals exact ⟨rfl, rfl⟩

theorem sameCredit_applySettings (s : ServerConn δ) (err : Option Error) (params : List Setting) :
    SameCredit s (s.applySettings err params).1 := by
  induction params generalizing s err with
  | nil => exact ⟨rfl, rfl⟩
  | cons st rest ih =>
    have hone := sameCredit_applySetting s st
    unfold applySettings
    split
    · rename_i s' hs'
      rw [hs'] at hone
      exact hone.trans (ih s' err)
    · rename_i s' e hs'
      rw [hs'] at hone
      exact hone.trans (ih s' (some e))

theorem Handled.sameCredit {f : Frame} {err : Option Error} (hh : Handled dec s f (t, err))
    (hdata : ∀ id payload padding endStream, f = .data id payload padding endStream →
      ¬ (id ∈ s.live ∧ s.IsReceiving id)) : SameCredit s t := by
  cases hh with
  | aside t ht hpack acc goaway err =>
    rcases ht with rfl | rfl
    all_goals exact ⟨rfl, rfl⟩
  | opened a headers hpack acc ha hdec ho =>
    cases a.endStream
    all_goals exact ⟨rfl, rfl⟩
  | trailed a headers hpack acc ss ha hdec hlive hss hst hend hnames => exact ⟨rfl, rfl⟩
  | accepted id payload padding endStream ss ss' hf hlive hss hrecv =>
    refine absurd ⟨hlive, ss, hss, ?_⟩ (hdata id payload padding endStream hf)
    exact (ServerStream.recvData_ok hrecv).1
  | configured params t err hf hvalid happly =>
    have happ := sameCredit_applySettings s none params
    rw [happly] at happ
    split_ifs
    · exact happ.trans (sameCredit_write t rfl)
    · exact happ
  | ponged => exact sameCredit_write s rfl
  | credited id increment hf hfits => exact ⟨rfl, rfl⟩
  | removed id code hf hmem =>
    obtain ⟨objects, hclose⟩ := closeStream_parts ({ s with
      streams := s.streams.erase id
      closedStreams := insert id s.closedStreams } : ServerConn δ) id
    rw [hclose]
    exact ⟨rfl, rfl⟩

def Owes (s : ServerConn δ) (received : ℤ) : Prop :=
  received = returned s.wire + s.recvDebitSinceLastUpdate ∧ 0 ≤ s.recvDebitSinceLastUpdate ∧
    s.recvDebitSinceLastUpdate < recvWindowUpdateThreshold

theorem Owes.same {received : ℤ} (h : Owes s received) (hsame : SameCredit s t) :
    Owes t received := by
  unfold Owes
  rw [hsame.debit, hsame.wire]
  exact h

theorem owes_debitConn {received : ℤ} (h : Owes s received) {dataLen : ℤ} (hpos : 0 < dataLen) :
    Owes (s.debitConn dataLen) (received + dataLen) := by
  obtain ⟨hsum, hlo, hhi⟩ := h
  unfold debitConn
  simp only []
  split_ifs with hfull
  · have hcredit : (WireFrame.windowUpdate 0
        (s.recvDebitSinceLastUpdate + dataLen)).connCredit =
        s.recvDebitSinceLastUpdate + dataLen := rfl
    have hthreshold : (0 : ℤ) < recvWindowUpdateThreshold := by
      decide
    refine ⟨?_, le_rfl, hthreshold⟩
    change received + dataLen = returned (s.wire ++ [_]) + 0
    rw [returned_append, hsum]
    simp only [returned, List.map_cons, List.map_nil, List.sum_cons, List.sum_nil, hcredit]
    omega
  · refine ⟨?_, ?_, not_le.mp hfull⟩
    · change received + dataLen = returned s.wire + (s.recvDebitSinceLastUpdate + dataLen)
      omega
    · change 0 ≤ s.recvDebitSinceLastUpdate + dataLen
      omega

theorem sameCredit_debitStream (s : ServerConn δ) (hid : id ≠ 0) (ss : ServerStream) (dataLen : ℤ)
    (endStream : Bool) : SameCredit s (s.debitStream id ss dataLen endStream) := by
  have hset (ss' : ServerStream) : SameCredit s (s.setStream id ss') := ⟨rfl, rfl⟩
  have hcredit (delta : ℤ) : (WireFrame.windowUpdate id delta).connCredit = 0 := if_neg hid
  unfold debitStream
  simp only []
  split_ifs
  · exact (hset _).trans (sameCredit_write _ (hcredit _))
  · exact hset _

theorem owes_acceptData {received : ℤ} (h : Owes s received) (hid : id ≠ 0) (ss : ServerStream)
    (len : ℕ) (endStream : Bool) : Owes (s.acceptData id ss len endStream) (received + len) := by
  have hqueue {t : ServerConn δ} (ht : Owes t (received + len)) :
      Owes (if endStream then t.queueDispatch id else t) (received + len) := by
    cases endStream
    all_goals exact ht
  unfold acceptData
  simp only []
  by_cases hpos : (len : ℤ) > 0
  · rw [if_pos hpos]
    exact hqueue ((owes_debitConn h hpos).same (sameCredit_debitStream _ hid ss len endStream))
  · rw [if_neg hpos]
    have hzero : (len : ℤ) = 0 := by
      omega
    refine hqueue ?_
    rw [hzero, add_zero]
    exact h.same ⟨rfl, rfl⟩

theorem dataLengths_nil {f : Frame} (h : ¬ s.Takes f ∨ f.dataParts? = none) :
    s.dataLengths (.frame f) = [] := by
  change (if s.Takes f then _ else _) = _
  rcases h with h | h
  · rw [if_neg h]
  · rw [h]
    exact ite_self _

theorem dataLengths_data {payload : Bytes} {padding : Option (Fin 256)} {endStream : Bool}
    (h : s.Takes (.data id payload padding endStream)) :
    s.dataLengths (.frame (.data id payload padding endStream)) =
      [(flowControlledLength payload padding : ℤ)] :=
  if_pos h

theorem answer_sameCredit {err : Option Error} (hrun : (answer (s, err)).stopped = none) :
    SameCredit s (answer (s, err)) := by
  cases err with
  | none => exact ⟨rfl, rfl⟩
  | some err =>
    unfold answer at hrun ⊢
    simp only [] at hrun ⊢
    split_ifs at hrun ⊢
    · cases hrun
    · exact sameCredit_write s rfl

theorem owes_untouched {received : ℤ} (h : Owes s received) {f : Frame}
    (hdata : ∀ id payload padding endStream, f = .data id payload padding endStream →
      ¬ (id ∈ s.live ∧ s.IsReceiving id)) (hrun : (answer (s.dispatchFrame dec f)).stopped = none) :
    Owes (answer (s.dispatchFrame dec f)) received := by
  have hh := dispatchFrame_handled dec s f
  revert hh hrun
  rcases s.dispatchFrame dec f with ⟨t, err⟩
  intro hrun hh
  exact (h.same (hh.sameCredit hdata)).same (answer_sameCredit hrun)

theorem owes_data {received : ℤ} (h : Owes s received) {payload : Bytes}
    {padding : Option (Fin 256)} {endStream : Bool}
    (htakes : s.Takes (.data id payload padding endStream))
    (hok : flowControlledLength payload padding = 0 ∨
      padding = none ∧ id ∈ s.live ∧ s.IsReceiving id ∨ id ∉ s.live ∧ s.lastInID < id)
    (hrun : (answer (s.dispatchFrame dec (.data id payload padding endStream))).stopped = none) :
    Owes (answer (s.dispatchFrame dec (.data id payload padding endStream)))
      (received + flowControlledLength payload padding) := by
  have hid : id ≠ 0 := by
    intro h0
    have hread := htakes.2.2
    simp only [readError, parseError, h0] at hread
    split_ifs at hread
    · cases hread
    · cases hread
  by_cases hopen : id ∈ s.live ∧ s.IsReceiving id
  · obtain ⟨hlive, ss, hss, hrcv⟩ := hopen
    obtain ⟨ss', hrecv⟩ : ∃ ss', ss.recvData id payload endStream = .ok ss' :=
      recvData_receiving hrcv
    have hlen : flowControlledLength payload padding = payload.length := by
      rcases hok with hzero | ⟨rfl, -⟩ | ⟨hnot, -⟩
      · have hle : payload.length ≤ flowControlledLength payload padding := Nat.le_add_right _ _
        omega
      · rfl
      · exact absurd hlive hnot
    have hacc : s.dispatchFrame dec (.data id payload padding endStream) =
        (s.drainDone.acceptData id ss' payload.length endStream, none) :=
      onData_accepts hlive hss hrecv
    rw [hacc, hlen]
    have hdrained : Owes s.drainDone received := h.same ⟨rfl, rfl⟩
    exact owes_acceptData hdrained hid ss' payload.length endStream
  · have hzero : flowControlledLength payload padding = 0 := by
      rcases hok with hzero | ⟨-, hlive⟩ | ⟨hnot, hidle⟩
      · exact hzero
      · exact absurd hlive hopen
      · have hmap : id ∉ s.drainDone.streams := hnot
        have hlast : s.drainDone.lastInID < id := hidle
        simp only [dispatchFrame, onData, hmap, if_false, gt_iff_lt, hlast, if_true] at hrun
        cases hrun
    rw [hzero, Nat.cast_zero, add_zero]
    refine owes_untouched h ?_ hrun
    intro id' payload' padding' endStream' hf
    cases hf
    exact hopen

def CreditKept (p : ServerConn δ × List ℤ) : Prop := p.1.stopped = none → Owes p.1 p.2.sum

theorem creditKept_step (p : ServerConn δ × List ℤ) (e : Event) (hok : p.1.Counted e)
    (h : CreditKept p) : CreditKept (watch (step dec) dataLengths p e) := by
  obtain ⟨s, lengths⟩ := p
  intro hrun
  change (step dec s e).stopped = none at hrun
  change Owes (step dec s e) (lengths ++ s.dataLengths e).sum
  rw [List.sum_append]
  by_cases hframe : e.frame? = none
  · have hlocal := local_step dec s hframe
    have hnil : s.dataLengths e = [] := by
      rw [dataLengths, hframe]
    rw [hnil, List.sum_nil, add_zero]
    exact (h (hlocal.stopped ▸ hrun)).same (sameCredit_local hlocal)
  · cases e with
    | frame f =>
      by_cases htakes : s.Takes f
      · have howes : Owes s lengths.sum := h htakes.1
        rw [step_frame_taken htakes] at hrun ⊢
        cases hparts : f.dataParts? with
        | none =>
          rw [dataLengths_nil (.inr hparts), List.sum_nil, add_zero]
          refine owes_untouched howes ?_ hrun
          intro id payload padding endStream hf
          subst hf
          cases hparts
        | some d =>
          obtain ⟨id, payload, padding⟩ := d
          have hf : ∃ endStream, f = .data id payload padding endStream := by
            unfold Frame.dataParts? at hparts
            split at hparts
            · cases hparts
              exact ⟨_, rfl⟩
            · cases hparts
          obtain ⟨endStream, rfl⟩ := hf
          rw [dataLengths_data htakes, List.sum_singleton]
          exact owes_data howes htakes (hok _ rfl htakes _ hparts) hrun
      · rw [dataLengths_nil (.inl htakes), List.sum_nil, add_zero]
        rcases step_frame_untaken dec htakes with hs | ⟨code, hs⟩ | ⟨code, hs⟩
        · rw [hs] at hrun ⊢
          exact h hrun
        · rw [hs] at hrun
          cases hrun
        · rw [hs] at hrun
          cases hrun
    | _ => exact absurd rfl hframe

/-- While a connection runs on frames that meet the condition, what the peer has sent and not got
back stays below the threshold of the updates. -/
theorem connection_credit_returned (dec : BlockDecoder δ) (hpack : δ) (settings : ServerSettings)
    (clientS : ClientSettings) (es : List Event)
    (hes : StepsMeet (step dec) Counted (newServerConn hpack settings clientS) es)
    (hrun : (run dec (newServerConn hpack settings clientS) es).stopped = none) :
    (es.foldl (watch (step dec) dataLengths) (newServerConn hpack settings clientS, [])).2.sum -
      returned (run dec (newServerConn hpack settings clientS) es).wire < 32768 := by
  have hinit : CreditKept (newServerConn hpack settings clientS, []) := by
    intro _
    have hthreshold : (0 : ℤ) < recvWindowUpdateThreshold := by
      decide
    exact ⟨rfl, le_rfl, hthreshold⟩
  have hkept := invariant_of_steps creditKept_step es
    (newServerConn hpack settings clientS, []) hinit (stepsMeet_watch es hes)
  have hfst : (es.foldl (watch (step dec) dataLengths)
      (newServerConn hpack settings clientS, [])).1 =
      run dec (newServerConn hpack settings clientS) es :=
    foldl_watch_fst (step dec) dataLengths es (newServerConn hpack settings clientS, [])
  obtain ⟨hsum, -, hhi⟩ := hkept (hfst ▸ hrun)
  rw [hsum, hfst]
  rw [hfst] at hhi
  have hthreshold : recvWindowUpdateThreshold = 32768 := rfl
  omega

theorem step_data_halfClosed {payload : Bytes} {ss : ServerStream}
    (htakes : s.Takes (.data id payload none false)) (hlive : id ∈ s.live)
    (hss : s.stream id = some ss) (hst : ss.state = .halfClosedRemote) (hid : id ≠ 0) :
    step dec s (.frame (.data id payload none false)) =
      s.drainDone.write (.rstStream id .streamClosed) := by
  have hrecv : ss.recvData id payload false =
      .error (streamError .streamClosed id "DATA on half-closed/closed stream") := by
    simp only [ServerStream.recvData, hst]
  have hmap : id ∈ s.drainDone.streams := hlive
  have hobj : s.drainDone.stream id = some ss := hss
  rw [step_frame_taken htakes]
  simp only [dispatchFrame, onData, hmap, if_true, hobj, hrecv, answer, streamError, hid, if_false]

theorem halfClosed_data_lost (payload : Bytes) (hlen : payload.length = 16384) :
    let data : Event := .frame (.data 1 payload none false)
    let es : List Event := [.frame (.headers 1 [] true true none), data, data]
    (run blankDecoder (newServerConn () {} {}) es).stopped = none ∧
      returned (run blankDecoder (newServerConn () {} {}) es).wire = 0 ∧
      (es.foldl (watch (step blankDecoder) dataLengths) (newServerConn () {} {}, [])).2 =
        [16384, 16384] := by
  intro data es
  let f : Frame := .data 1 payload none false
  have hflow : flowControlledLength payload none = 16384 := hlen
  let s : ServerConn Unit :=
    step blankDecoder (newServerConn () {} {}) (.frame (.headers 1 [] true true none))
  have hread (t : ServerConn Unit) (hset : t.settings = {}) (hacc : t.hdrAccum = none) :
      t.readError f = none := by
    simp [readError, parseError, f, hflow, checkFrameOrder, hset, hacc]
  have hs : s.Takes f := ⟨rfl, rfl, hread s rfl rfl⟩
  have hstep : step blankDecoder s data = s.drainDone.write (.rstStream 1 .streamClosed) :=
    step_data_halfClosed hs (by decide) rfl rfl (by decide)
  let t : ServerConn Unit := s.drainDone.write (.rstStream 1 .streamClosed)
  have ht : t.Takes f := ⟨rfl, rfl, hread t rfl rfl⟩
  have hstep' : step blankDecoder t data = t.drainDone.write (.rstStream 1 .streamClosed) :=
    step_data_halfClosed ht (by decide) rfl rfl (by decide)
  have hrun : run blankDecoder (newServerConn () {} {}) es =
      t.drainDone.write (.rstStream 1 .streamClosed) := by
    simp only [run, es, List.foldl_cons, List.foldl_nil]
    rw [← hstep']
    exact congrArg (fun u => step blankDecoder u data) hstep
  have hlengths (u : ServerConn Unit) (hu : u.Takes f) : u.dataLengths data = [16384] := by
    rw [dataLengths_data hu, hflow]
    rfl
  have hnone : (newServerConn () ({} : ServerSettings) ({} : ClientSettings)).dataLengths
      (.frame (.headers 1 [] true true none)) = [] :=
    dataLengths_nil (.inr rfl)
  have hmid : step blankDecoder s data = t := hstep
  refine ⟨?_, ?_, ?_⟩
  · rw [hrun]
    rfl
  · rw [hrun]
    decide
  · simp only [es, List.foldl_cons, List.foldl_nil, watch, hnone]
    change ([] ++ [] ++ s.dataLengths data) ++ (step blankDecoder s data).dataLengths data = _
    rw [hmid, hlengths s hs, hlengths t ht]
    rfl

/-- A whole threshold is received behind END_STREAM and nothing given back. -/
theorem halfClosed_data_unreturned :
    let data : Event := .frame (.data 1 (List.replicate 16384 0) none false)
    let es : List Event := [.frame (.headers 1 [] true true none), data, data]
    (run blankDecoder (newServerConn () {} {}) es).stopped = none ∧
      ¬ (es.foldl (watch (step blankDecoder) dataLengths) (newServerConn () {} {}, [])).2.sum -
        returned (run blankDecoder (newServerConn () {} {}) es).wire < 32768 := by
  obtain ⟨hrun, hzero, hsum⟩ := halfClosed_data_lost (List.replicate 16384 0) List.length_replicate
  refine ⟨hrun, ?_⟩
  rw [hzero, hsum]
  decide

/-- A request whose body is one DATA frame, followed by a ping. -/
theorem unpadded_data_returned :
    let es : List Event := [.frame (.headers 1 [] true false none),
      .frame (.data 1 [0, 0] none true), .frame (.ping false)]
    StepsMeet (step blankDecoder) Counted (newServerConn () {} {}) es ∧
      (es.foldl (watch (step blankDecoder) dataLengths) (newServerConn () {} {}, [])).2.sum -
        returned (run blankDecoder (newServerConn () {} {}) es).wire < 32768 := by
  intro es
  have hmeet : StepsMeet (step blankDecoder) Counted (newServerConn () {} {}) es := by
    decide
  have hrun : (run blankDecoder (newServerConn () {} {}) es).stopped = none := by
    decide
  exact ⟨hmeet, connection_credit_returned blankDecoder () {} {} es hmeet hrun⟩

end ServerConn

end EnvoyGo.H2

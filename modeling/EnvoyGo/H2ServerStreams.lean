import EnvoyGo.AdmissionBook
import EnvoyGo.H2ServerMoves

/-!
The streams and dispatches of a downstream HTTP/2 connection as an admission book: every step of
the connection is a few steps of the book, or the removal a peer's RST_STREAM makes.
-/

namespace EnvoyGo.H2

open Relation

def Event.frame? : Event → Option Frame
  | .frame f => some f
  | _ => none

def ServerStream.Receiving (ss : ServerStream) : Prop :=
  ss.state = .opened ∨ ss.state = .halfClosedLocal

instance (ss : ServerStream) : Decidable ss.Receiving :=
  inferInstanceAs (Decidable (_ ∨ _))

theorem ServerStream.recvData_ok {id : ℕ} {payload : Bytes} {endStream : Bool}
    {ss ss' : ServerStream} (h : ss.recvData id payload endStream = .ok ss') :
    ss.Receiving ∧ (ss'.Receiving ↔ endStream = false) ∧ ss'.reqBody = ss.reqBody ++ payload ∧
      ss'.sendW = ss.sendW ∧ ss'.recvW = ss.recvW ∧
      ss'.recvDebitSinceLastUpdate = ss.recvDebitSinceLastUpdate := by
  unfold recvData at h
  unfold Receiving
  split at h
  case h_1 hst =>
      cases h
      cases endStream <;> simp [hst]
  case h_2 hst =>
      cases h
      cases endStream <;> simp [hst]
  all_goals cases h

namespace ServerConn

variable {δ : Type} {dec : BlockDecoder δ}

def IsReceiving (s : ServerConn δ) (id : ℕ) : Prop := ∃ ss ∈ s.stream id, ss.Receiving

def book (s : ServerConn δ) : AdmissionBook where
  cap := s.settings.maxConcurrentStreams
  entries := s.streams
  opened := {id | s.IsReceiving id}
  last := s.lastInID
  done := s.doneCh
  pending := s.pendingDispatch
  running := s.running
  launched := s.launched

variable {s : ServerConn δ} {ss : ServerStream}

theorem isReceiving_iff {id : ℕ} (h : s.stream id = some ss) : s.IsReceiving id ↔ ss.Receiving := by
  simp only [IsReceiving, h, Option.mem_some_iff, exists_eq_left']

theorem isReceiving_setStream (s : ServerConn δ) (id j : ℕ) (ss : ServerStream) :
    (s.setStream id ss).IsReceiving j ↔ if j = id then ss.Receiving else s.IsReceiving j := by
  unfold IsReceiving setStream
  by_cases hj : j = id
  · subst hj
    simp
  · simp [hj]

theorem book_setStream_same {id : ℕ} {ss' : ServerStream} (h : s.stream id = some ss)
    (hst : ss'.Receiving ↔ ss.Receiving) : (s.setStream id ss').book = s.book := by
  have hopened : {j | (s.setStream id ss').IsReceiving j} = {j | s.IsReceiving j} := by
    ext j
    simp only [Set.mem_ofPred_eq, isReceiving_setStream]
    split_ifs with hj
    · rw [hj, isReceiving_iff h, hst]
    · exact Iff.rfl
  change { s.book with opened := {j | (s.setStream id ss').IsReceiving j} } = s.book
  rw [hopened]
  rfl

section

variable (s : ServerConn δ)

theorem book_setStream_ended (id : ℕ) (hst : ¬ ss.Receiving) :
    (s.setStream id ss).book = { s.book with opened := s.book.opened \ {id} } := by
  have hopened : {j | (s.setStream id ss).IsReceiving j} = {j | s.IsReceiving j} \ {id} := by
    ext j
    simp only [Set.mem_ofPred_eq, isReceiving_setStream, Set.mem_sdiff, Set.mem_singleton_iff]
    split_ifs with hj
    · simp [hj, hst]
    · simp [hj]
  change { s.book with opened := {j | (s.setStream id ss).IsReceiving j} } = _
  rw [hopened]
  rfl

theorem book_setStream_opened (id : ℕ) (hst : ss.Receiving) :
    (s.setStream id ss).book = { s.book with opened := insert id s.book.opened } := by
  have hopened : {j | (s.setStream id ss).IsReceiving j} = insert id {j | s.IsReceiving j} := by
    ext j
    simp only [Set.mem_ofPred_eq, isReceiving_setStream, Set.mem_insert_iff]
    split_ifs with hj
    · simp [hj, hst]
    · simp [hj]
  change { s.book with opened := {j | (s.setStream id ss).IsReceiving j} } = _
  rw [hopened]
  rfl

theorem book_closeStream (id : ℕ) :
    (s.closeStream id).book = { s.book with opened := s.book.opened \ {id} } := by
  unfold closeStream
  cases h : s.stream id with
  | none =>
    have hid : id ∉ s.book.opened := by
      rintro ⟨ss, hss, -⟩
      rw [h] at hss
      cases hss
    simp only []
    rw [Set.sdiff_singleton_eq_self hid]
  | some ss => exact book_setStream_ended s id (by simp [ServerStream.Receiving])

theorem book_close (id : ℕ) : ReflTransGen AdmissionBook.Step s.book (s.closeStream id).book := by
  rw [book_closeStream]
  exact .single (.close s.book id)

theorem book_abort (code : ErrCode) : ReflTransGen AdmissionBook.Step s.book (s.abort code).book :=
  .single (.launch s.book)

theorem book_answer (err : Option Error) :
    ReflTransGen AdmissionBook.Step s.book (answer (s, err)).book := by
  cases err with
  | none => exact .refl
  | some err =>
    unfold answer
    by_cases h0 : err.stream = 0
    · simp only []
      rw [if_pos h0]
      exact book_abort s err.code
    · simp only []
      rw [if_neg h0]
      exact .refl

theorem book_drainDone : AdmissionBook.Step s.book s.drainDone.book :=
  .drain s.book

theorem book_walkStreams (delta : ℤ) : (s.walkStreams delta).book = s.book := by
  have hopened : {j | (s.walkStreams delta).IsReceiving j} = {j | s.IsReceiving j} := by
    ext j
    simp only [Set.mem_ofPred_eq, IsReceiving, walkStreams]
    by_cases hj : j ∈ s.streams
    · cases s.stream j <;> simp [hj, ServerStream.Receiving]
    · simp [hj]
  change { s.book with opened := {j | (s.walkStreams delta).IsReceiving j} } = s.book
  rw [hopened]
  rfl

theorem book_applySetting (st : Setting) : (s.applySetting st).1.book = s.book := by
  unfold applySetting
  split
  case h_2 =>
      simp only []
      split_ifs
      · rfl
      · exact book_walkStreams _ _
      · rfl
  all_goals rfl

theorem book_applySettings (err : Option Error) (params : List Setting) :
    (s.applySettings err params).1.book = s.book := by
  induction params generalizing s err with
  | nil => rfl
  | cons st rest ih =>
    have hone := book_applySetting s st
    unfold applySettings
    split
    · rename_i s' hs'
      rw [ih s' err, ← hone, hs']
    · rename_i s' e hs'
      rw [ih s' (some e), ← hone, hs']

theorem book_applySettings_write (params : List Setting) {t : ServerConn δ} {err : Option Error}
    (h : s.applySettings none params = (t, err)) :
    (if err = none then t.write .settingsAck else t).book = s.book := by
  have ht : t.book = s.book := by
    rw [← book_applySettings s none params, h]
  split_ifs
  · exact ht
  · exact ht

end

theorem book_queued {id : ℕ} (hmem : id ∈ s.streams) (hopen : s.IsReceiving id)
    (hst : ¬ ss.Receiving) :
    AdmissionBook.Step s.book ((s.setStream id ss).queueDispatch id).book := by
  have hbook : ((s.setStream id ss).queueDispatch id).book =
      { (s.setStream id ss).book with pending := s.book.pending ++ [id] } := rfl
  rw [hbook, book_setStream_ended s id hst]
  exact .complete s.book id hopen hmem

theorem book_openStream (s : ServerConn δ) (id : ℕ) (headers : OrderedHeaders) (endStream : Bool)
    (hlast : s.lastInID < id) (hroom : s.streams.card < s.settings.maxConcurrentStreams) :
    ReflTransGen AdmissionBook.Step s.book (s.openStream id headers endStream).book := by
  have henter := AdmissionBook.Step.enter s.book id hlast hroom
  cases endStream with
  | false =>
    have hbook : (s.openStream id headers false).book =
        { s.book with
          entries := insert id s.book.entries
          opened := insert id s.book.opened
          last := id } := by
      change { (s.setStream id (s.openedStream headers false)).book with
        entries := insert id s.streams, last := id } = _
      rw [book_setStream_opened s id (.inl rfl)]
      rfl
    rw [hbook]
    exact .single henter
  | true =>
    refine .head henter (.single ?_)
    have hbook : (s.openStream id headers true).book =
        { s.book with
          entries := insert id s.book.entries
          opened := insert id s.book.opened \ {id}
          last := id
          pending := s.book.pending ++ [id] } := by
      change { (s.setStream id (s.openedStream headers true)).book with
        entries := insert id s.streams, last := id, pending := s.pendingDispatch ++ [id] } = _
      rw [book_setStream_ended s id (by simp [ServerStream.Receiving, openedStream])]
      have hset : insert id s.book.opened \ {id} = s.book.opened \ {id} := by
        ext j
        simp only [Set.mem_sdiff, Set.mem_insert_iff, Set.mem_singleton_iff]
        tauto
      rw [hset]
      rfl
    rw [hbook]
    exact .complete _ id (Set.mem_insert _ _) (Finset.mem_insert_self _ _)

theorem Handled.book {t : ServerConn δ} {f : Frame} {err : Option Error}
    (h : Handled dec s f (t, err)) :
    ReflTransGen AdmissionBook.Step s.book t.book ∨
      ∃ id code, f = .rstStream id code ∧ id ∈ s.streams ∧ err = none ∧
        t.book = s.book.remove id := by
  have hdrain := ReflTransGen.single (book_drainDone s)
  cases h with
  | aside t ht hpack acc goaway err =>
    rcases ht with rfl | rfl
    · exact .inl .refl
    · exact .inl hdrain
  | opened a headers hpack acc ha hdec ho =>
    obtain ⟨-, -, -, -, -, hlast, -, hroom⟩ := ho
    let t : ServerConn δ := { s.drainDone with hpack := hpack, hdrAccum := acc }
    exact .inl (hdrain.trans (book_openStream t a.stream headers a.endStream hlast hroom))
  | trailed a headers hpack acc ss ha hdec hlive hss hst hend hnames =>
    refine .inl (hdrain.tail (book_queued hlive ?_ ?_))
    · exact ⟨ss, hss, .inl hst⟩
    · simp [ServerStream.Receiving]
  | accepted id payload padding endStream ss ss' hf hlive hss hrecv =>
    obtain ⟨hrcv, hend, -⟩ := ServerStream.recvData_ok hrecv
    obtain ⟨w, d, upd, ss'', -, hstate, -, -, heq⟩ :=
      acceptData_parts s.drainDone id ss' payload.length endStream
    have hst : ss''.Receiving ↔ endStream = false := by
      rw [← hend, ServerStream.Receiving, ServerStream.Receiving, hstate]
    rw [heq]
    cases endStream with
    | false =>
      refine .inl (hdrain.trans ?_)
      let t : ServerConn δ := { s.drainDone with
        recvW := w, recvDebitSinceLastUpdate := d, wire := s.drainDone.wire ++ upd }
      have hsame : (t.setStream id ss'').book = t.book :=
        book_setStream_same hss (iff_of_true (hst.mpr rfl) hrcv)
      change ReflTransGen _ t.book (t.setStream id ss'').book
      rw [hsame]
    | true =>
      refine .inl (hdrain.tail (book_queued hlive ?_ ?_))
      · exact ⟨ss, hss, hrcv⟩
      · rw [hst]
        exact Bool.noConfusion
  | configured params t err hf hvalid happly =>
    rw [book_applySettings_write s params happly]
    exact .inl .refl
  | ponged => exact .inl .refl
  | credited id increment hf hfits => exact .inl .refl
  | removed id code hf hmem =>
    refine .inr ⟨id, code, hf, hmem, rfl, ?_⟩
    rw [book_closeStream]
    rfl

/-- The loop takes the frame and the framer has nothing against it. -/
def Takes (s : ServerConn δ) (f : Frame) : Prop :=
  s.stopped = none ∧ s.adding = none ∧ s.readError f = none

instance (s : ServerConn δ) (f : Frame) : Decidable (s.Takes f) :=
  inferInstanceAs (Decidable (_ ∧ _))

theorem step_frame_taken {f : Frame} (h : s.Takes f) :
    step dec s (.frame f) = answer (s.dispatchFrame dec f) := by
  obtain ⟨hstop, hadd, hread⟩ := h
  simp only [step, hstop, hadd, and_self, if_true, readFrame, hread]
  rfl

theorem step_frame_untaken (dec : BlockDecoder δ) {f : Frame} (h : ¬ s.Takes f) :
    step dec s (.frame f) = s ∨ (∃ code, step dec s (.frame f) = s.abort code) ∨
      ∃ code, step dec s (.frame f) = { s with stopped := some code } := by
  by_cases hloop : s.stopped = none ∧ s.adding = none
  · have hread : s.readError f ≠ none := fun hr => h ⟨hloop.1, hloop.2, hr⟩
    obtain ⟨err, herr⟩ := Option.ne_none_iff_exists'.mp hread
    simp only [step, hloop, and_self, if_true, readFrame, herr]
    split_ifs
    · exact .inr (.inl ⟨err.code, rfl⟩)
    · exact .inr (.inr ⟨err.code, rfl⟩)
  · simp only [step, hloop, if_false]
    exact .inl trivial

theorem frame_induct {P : ServerConn δ → Prop} {f : Frame} (h : P s)
    (habort : ∀ code, P (s.abort code)) (hstop : ∀ code, P { s with stopped := some code })
    (hh : s.Takes f → ∀ t err, Handled dec s f (t, err) → P (answer (t, err))) :
    P (step dec s (.frame f)) := by
  by_cases htakes : s.Takes f
  · rw [step_frame_taken htakes]
    exact hh htakes _ _ (dispatchFrame_handled dec s f)
  · rcases step_frame_untaken dec htakes with hs | ⟨code, hs⟩ | ⟨code, hs⟩
    · rw [hs]
      exact h
    · rw [hs]
      exact habort code
    · rw [hs]
      exact hstop code

def newWriter (s : ServerConn δ) (id len : ℕ) (endStream : Bool) : Writer :=
  ⟨id, len, endStream, s.clientS.effectiveMaxFrame, .stream, 0, 0⟩

inductive Acts (s : ServerConn δ) : Event → ServerConn δ → Prop
  | credited {delta : ℤ} (hadding : s.adding = some (0, delta)) :
      Acts s .addCredit { s with adding := none, sendW := s.sendW.replenish delta }
  | uncredited {id : ℕ} {delta : ℤ} (hadding : s.adding = some (id, delta)) (hid : id ≠ 0)
      (hnone : s.stream id = none) : Acts s .addCredit { s with adding := none }
  | streamCredited {id : ℕ} {delta : ℤ} {ss : ServerStream} (hadding : s.adding = some (id, delta))
      (hid : id ≠ 0) (hss : s.stream id = some ss) : Acts s .addCredit
      { s.setStream id { ss with sendW := ss.sendW.replenish delta } with adding := none }
  | flushed : Acts s .flush s.flushPendingDispatch
  | copied {id : ℕ} {ss : ServerStream} (hss : s.stream id = some ss) :
      Acts s (.snapshot id) { s with bodies := s.bodies ++ [(id, ss.reqBody)] }
  | headers {id : ℕ} (hrun : id ∈ s.running) :
      Acts s (.headers id false) (s.write (.headers id false))
  | lastHeaders {id : ℕ} (hrun : id ∈ s.running) :
      Acts s (.headers id true) ((s.write (.headers id true)).closeStream id)
  | lastData {id : ℕ} (hrun : id ∈ s.running) :
      Acts s (.data id 0 true) ((s.write (.data id 0 true)).closeStream id)
  | started {id len : ℕ} {endStream : Bool} (hrun : id ∈ s.running) (hlen : len ≠ 0) :
      Acts s (.data id len endStream) { s with
        writer := Function.update s.writer s.writers (some (s.newWriter id len endStream))
        writers := s.writers + 1 }
  | ended {id len : ℕ} : Acts s (.data id len true) (s.closeStream id)
  | reserved {k : ℕ} {w : Writer} {ss : ServerStream} (hw : s.writer k = some w)
      (hss : s.stream w.stream = some ss) (hphase : w.phase = .stream) (hsome : 0 < ss.sendW.n) :
      Acts s (.reserveStream k)
        ((s.setStream w.stream
          { ss with sendW := ss.sendW.take (ss.sendW.offer (Writer.want w)) }).setWriter k
          (some { w with phase := .conn, streamTaken := ss.sendW.offer (Writer.want w) }))
  | granted {k : ℕ} {w : Writer} (hw : s.writer k = some w) (hphase : w.phase = .conn)
      (hsome : 0 < s.sendW.n) : Acts s (.reserveConn k)
        (({ s with sendW := s.sendW.take (s.sendW.offer w.streamTaken) } : ServerConn δ).setWriter k
          (some { w with
            phase := if s.sendW.offer w.streamTaken < w.streamTaken then .refund else .write
            connTaken := s.sendW.offer w.streamTaken }))
  | refunded {k : ℕ} {w : Writer} {ss : ServerStream} (hw : s.writer k = some w)
      (hss : s.stream w.stream = some ss) (hphase : w.phase = .refund) : Acts s (.refund k)
        ((s.setStream w.stream
          { ss with sendW := ss.sendW.replenish (w.streamTaken - w.connTaken) }).setWriter k
          (some { w with phase := .write, streamTaken := w.connTaken }))
  | wroteLast {k : ℕ} {w : Writer} (hw : s.writer k = some w) (hphase : w.phase = .write)
      (last : Bool) : Acts s (.chunk k)
        (((s.write (.data w.stream w.connTaken.toNat last)).setWriter k none).closeStream w.stream)
  | wroteAll {k : ℕ} {w : Writer} (hw : s.writer k = some w) (hphase : w.phase = .write)
      (last : Bool) :
      Acts s (.chunk k) ((s.write (.data w.stream w.connTaken.toNat last)).setWriter k none)
  | wroteSome {k : ℕ} {w : Writer} (hw : s.writer k = some w) (hphase : w.phase = .write)
      (hleft : w.remaining - w.connTaken.toNat ≠ 0) (last : Bool) : Acts s (.chunk k)
        ((s.write (.data w.stream w.connTaken.toNat last)).setWriter k (some { w with
          remaining := w.remaining - w.connTaken.toNat
          phase := .stream, streamTaken := 0, connTaken := 0 }))
  | dropped {k : ℕ} {w : Writer} (hw : s.writer k = some w) (hphase : w.phase = .stream) :
      Acts s (.cancel k) (s.setWriter k none)
  | givenBack {k : ℕ} {w : Writer} {ss : ServerStream} (hw : s.writer k = some w)
      (hss : s.stream w.stream = some ss) (hphase : w.phase = .conn) : Acts s (.cancel k)
        ((s.setStream w.stream
          { ss with sendW := ss.sendW.replenish w.streamTaken }).setWriter k none)
  | reset {id : ℕ} {code : ErrCode} :
      Acts s (.reset id code) ((s.write (.rstStream id code)).closeStream id)
  | finished {id : ℕ} (hrun : id ∈ s.running) (hidle : s.idleWriters id = true) :
      Acts s (.finish id)
        { s.closeStream id with running := s.running.erase id, doneCh := s.doneCh ++ [id] }

theorem step_acts (dec : BlockDecoder δ) (s : ServerConn δ) {e : Event} (he : e.frame? = none) :
    step dec s e = s ∨ Acts s e (step dec s e) := by
  cases e with
  | frame f => cases he
  | addCredit =>
    simp only [step, addCredit]
    split
    · exact .inl rfl
    · exact .inr (.credited ‹_›)
    · rename_i id delta hid hadding
      split
      · exact .inr (.uncredited hadding hid ‹_›)
      · exact .inr (.streamCredited hadding hid ‹_›)
  | flush =>
    simp only [step]
    split_ifs
    · exact .inr .flushed
    · exact .inl rfl
  | snapshot id =>
    simp only [step, snapshotBody]
    split_ifs
    · split
      · exact .inl rfl
      · exact .inr (.copied ‹_›)
    · exact .inl rfl
  | headers id endStream =>
    simp only [step, writeHeaders]
    split_ifs with hrun hend
    · subst hend
      exact .inr (.lastHeaders hrun)
    · obtain rfl : endStream = false := Bool.eq_false_iff.mpr hend
      exact .inr (.headers hrun)
    · exact .inl rfl
  | data id len endStream =>
    simp only [step, startData]
    split_ifs with hrun hmap hlen hend hend
    · subst hlen hend
      exact .inr (.lastData hrun)
    · exact .inl rfl
    · exact .inr (.started hrun hlen)
    · subst hend
      exact .inr .ended
    · exact .inl rfl
    · exact .inl rfl
  | reserveStream k =>
    simp only [step, reserveStream]
    split
    · exact .inl rfl
    · split
      · exact .inl rfl
      · split_ifs with hready
        · exact .inr (.reserved ‹_› ‹_› hready.1 hready.2)
        · exact .inl rfl
  | reserveConn k =>
    simp only [step, reserveConn]
    split
    · exact .inl rfl
    · split
      · rename_i hready
        exact .inr (.granted ‹_› hready.1 hready.2)
      · exact .inl rfl
  | refund k =>
    simp only [step, refund]
    split
    · exact .inl rfl
    · split
      · exact .inl rfl
      · split_ifs with hphase
        · exact .inr (.refunded ‹_› ‹_› hphase)
        · exact .inl rfl
  | chunk k =>
    simp only [step, writeChunk]
    split
    · exact .inl rfl
    · split_ifs with hphase hleft hend
      · exact .inr (.wroteLast ‹_› hphase _)
      · exact .inr (.wroteAll ‹_› hphase _)
      · exact .inr (.wroteSome ‹_› hphase hleft _)
      · exact .inl rfl
  | cancel k =>
    simp only [step, cancelWrite]
    split
    · exact .inl rfl
    · split
      · exact .inr (.dropped ‹_› ‹_›)
      · split
        · exact .inl rfl
        · exact .inr (.givenBack ‹_› ‹_› ‹_›)
      · exact .inl rfl
  | reset id code =>
    simp only [step]
    split_ifs
    · exact .inr .reset
    · exact .inl rfl
  | finish id =>
    simp only [step, finish]
    split_ifs with hrun hidle
    · exact .inr (.finished hrun hidle.1)
    · exact .inl rfl
    · exact .inl rfl

theorem acts_induct {P : ServerConn δ → Prop} {e : Event} (he : e.frame? = none) (h : P s)
    (hacts : ∀ t, Acts s e t → P t) : P (step dec s e) := by
  obtain hs | hs := step_acts dec s he
  · rw [hs]
    exact h
  · exact hacts _ hs

theorem step_induct {P : ServerConn δ → Prop} {e : Event}
    (hframe : ∀ f, e = .frame f → P (step dec s (.frame f))) (h : P s)
    (hacts : ∀ t, Acts s e t → P t) : P (step dec s e) := by
  cases he : e.frame? with
  | none => exact acts_induct he h hacts
  | some f =>
    cases e with
    | frame g => exact hframe g rfl
    | _ => cases he

theorem book_frame (dec : BlockDecoder δ) (s : ServerConn δ) (f : Frame) :
    ReflTransGen AdmissionBook.Step s.book (step dec s (.frame f)).book ∨
      ∃ id code, f = .rstStream id code ∧ id ∈ s.streams ∧
        (step dec s (.frame f)).book = s.book.remove id := by
  refine frame_induct (P := fun t => ReflTransGen AdmissionBook.Step s.book t.book ∨
    ∃ id code, f = .rstStream id code ∧ id ∈ s.streams ∧ t.book = s.book.remove id)
    (.inl .refl) (fun code => .inl (book_abort s code)) (fun _ => .inl .refl) ?_
  intro _ t err hh
  rcases hh.book with hsteps | ⟨id, code, hf, hmem, rfl, hbook⟩
  · exact .inl (hsteps.trans (book_answer t err))
  · exact .inr ⟨id, code, hf, hmem, hbook⟩

theorem book_acts {t : ServerConn δ} {e : Event} (h : Acts s e t) :
    ReflTransGen AdmissionBook.Step s.book t.book := by
  have same {t : ServerConn δ} (h : t.book = s.book) :
      ReflTransGen AdmissionBook.Step s.book t.book := by
    rw [h]
  cases h with
  | streamCredited _ _ hss | reserved _ hss _ _ | refunded _ hss _ | givenBack _ hss _ =>
    exact same (book_setStream_same hss Iff.rfl)
  | flushed => exact .single (.launch s.book)
  | lastHeaders _ | lastData _ | reset => exact book_close (s.write _) _
  | ended => exact book_close s _
  | wroteLast _ _ _ => exact book_close (setWriter (s.write _) _ none) _
  | @finished id hrun _ =>
    have hclosed := book_closeStream s id
    refine .head (.close s.book id) (.single ?_)
    have hbook : ServerConn.book { s.closeStream id with
        running := s.running.erase id, doneCh := s.doneCh ++ [id] } =
        { (s.closeStream id).book with
          running := s.running.erase id, done := s.doneCh ++ [id] } := rfl
    rw [hbook, hclosed]
    exact .finish _ id hrun
  | _ => exact .refl

theorem step_book (dec : BlockDecoder δ) (s : ServerConn δ) (e : Event) :
    ReflTransGen AdmissionBook.Step s.book (step dec s e).book ∨
      ∃ id code, e = .frame (.rstStream id code) ∧ id ∈ s.streams ∧
        (step dec s e).book = s.book.remove id := by
  refine step_induct (P := fun t => ReflTransGen AdmissionBook.Step s.book t.book ∨
    ∃ id code, e = .frame (.rstStream id code) ∧ id ∈ s.streams ∧ t.book = s.book.remove id)
    ?_ (.inl .refl) (fun t ht => .inl (book_acts ht))
  rintro f rfl
  rcases book_frame dec s f with h | ⟨id, code, hf, hmem, hbook⟩
  · exact .inl h
  · exact .inr ⟨id, code, congrArg _ hf, hmem, hbook⟩

theorem kept_step (e : Event) (h : s.book.Kept) : (step dec s e).book.Kept := by
  rcases step_book dec s e with hsteps | ⟨id, code, -, -, hbook⟩
  · exact h.steps hsteps
  · rw [hbook]
    exact h.remove id

theorem book_new (hpack : δ) (settings : ServerSettings) (clientS : ClientSettings) :
    (newServerConn hpack settings clientS).book =
      ⟨settings.maxConcurrentStreams, ∅, ∅, 0, [], [], [], []⟩ := by
  have hopened : {id | (newServerConn hpack settings clientS).IsReceiving id} = ∅ := by
    ext id
    simp [IsReceiving, newServerConn]
  change (⟨_, _, {id | (newServerConn hpack settings clientS).IsReceiving id}, _, _, _, _, _⟩ :
    AdmissionBook) = _
  rw [hopened]
  rfl

theorem kept_new (hpack : δ) (settings : ServerSettings) (clientS : ClientSettings) :
    (newServerConn hpack settings clientS).book.Kept := by
  rw [book_new]
  constructor
  all_goals simp [AdmissionBook.jobs]

/-- Stream identifiers are used once: the highest one never goes down and bounds every stream of
the connection, and a stream that is over, or was never opened below it, is not opened later. -/
theorem streams_opened_once (dec : BlockDecoder δ) (hpack : δ) (settings : ServerSettings)
    (clientS : ClientSettings) (es later : List Event) :
    let s := es.foldl (step dec) (newServerConn hpack settings clientS)
    let t := later.foldl (step dec) s
    s.lastInID ≤ t.lastInID ∧ (∀ id ∈ t.streams, id ≤ t.lastInID) ∧
      ∀ id ≤ s.lastInID, id ∉ s.streams → id ∉ t.streams := by
  intro s t
  have hkept : t.book.Kept := by
    have hstep : ∀ (u : ServerConn δ) (e : Event), u.book.Kept → (step dec u e).book.Kept :=
      fun _ => kept_step
    exact Runs.invariant_of_run hstep later s
      (Runs.invariant_of_run hstep es _ (kept_new hpack settings clientS))
  have hstep : ∀ (u : ServerConn δ) (e : Event),
      (s.lastInID ≤ u.lastInID ∧ ∀ id ≤ s.lastInID, id ∉ s.streams → id ∉ u.streams) →
      s.lastInID ≤ (step dec u e).lastInID ∧
        ∀ id ≤ s.lastInID, id ∉ s.streams → id ∉ (step dec u e).streams := by
    rintro u e ⟨hlast, hgone⟩
    rcases step_book dec u e with hsteps | ⟨id, code, -, -, hbook⟩
    · exact ⟨hlast.trans (AdmissionBook.steps_last_le hsteps), fun id hid hout =>
        AdmissionBook.steps_gone hsteps (hid.trans hlast) (hgone id hid hout)⟩
    · have hstreams : (step dec u e).streams = u.streams.erase id :=
        congrArg AdmissionBook.entries hbook
      refine ⟨hlast.trans (congrArg AdmissionBook.last hbook).ge, fun j hj hout => ?_⟩
      rw [hstreams]
      exact fun h => hgone j hj hout (Finset.mem_of_mem_erase h)
  have hruns := Runs.invariant_of_run hstep later s ⟨le_rfl, fun _ _ h => h⟩
  exact ⟨hruns.1, hkept.entries_le, hruns.2⟩

end ServerConn

end EnvoyGo.H2

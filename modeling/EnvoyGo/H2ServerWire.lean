import EnvoyGo.H2ServerStreams

/-!
Who writes on a downstream connection: the frame loop answers with frames of its own, HEADERS and
DATA come only from a dispatch that runs.
-/

namespace EnvoyGo.H2

def WireFrame.responseOn : WireFrame → Option ℕ
  | .headers id _ => some id
  | .data id _ _ => some id
  | _ => none

def ServerStream.recvSide (ss : ServerStream) : Window × ℤ :=
  (ss.recvW, ss.recvDebitSinceLastUpdate)

namespace ServerConn

variable {δ : Type} {dec : BlockDecoder δ}

structure Silent (s t : ServerConn δ) : Prop where
  writer : t.writer = s.writer
  writers : t.writers = s.writers
  sendW : t.sendW = s.sendW
  running : t.running = s.running
  launched : t.launched = s.launched
  wire : ∃ new, t.wire = s.wire ++ new ∧ ∀ f ∈ new, f.responseOn = none

variable {s t : ServerConn δ} {f : WireFrame} {id : ℕ}

theorem Silent.of_same (hwriter : t.writer = s.writer) (hwriters : t.writers = s.writers)
    (hsendW : t.sendW = s.sendW) (hrunning : t.running = s.running)
    (hlaunched : t.launched = s.launched) (hwire : t.wire = s.wire) : Silent s t := by
  refine ⟨hwriter, hwriters, hsendW, hrunning, hlaunched, [], ?_, ?_⟩
  · rw [hwire, List.append_nil]
  · intro f hf
    cases hf

theorem Silent.trans {u : ServerConn δ} (h : Silent s t) (h' : Silent t u) : Silent s u := by
  obtain ⟨new, hnew, hsilent⟩ := h.wire
  obtain ⟨new', hnew', hsilent'⟩ := h'.wire
  refine ⟨h'.writer.trans h.writer, h'.writers.trans h.writers, h'.sendW.trans h.sendW,
    h'.running.trans h.running, h'.launched.trans h.launched, new ++ new', ?_, ?_⟩
  · rw [hnew', hnew, List.append_assoc]
  · intro f hf
    rcases List.mem_append.mp hf with hf | hf
    · exact hsilent f hf
    · exact hsilent' f hf

theorem silent_write (s : ServerConn δ) (hf : f.responseOn = none) : Silent s (s.write f) := by
  refine ⟨rfl, rfl, rfl, rfl, rfl, [f], rfl, ?_⟩
  intro g hg
  rw [List.mem_singleton.mp hg]
  exact hf

theorem silent_applySetting (s : ServerConn δ) (st : Setting) :
    Silent s (s.applySetting st).1 := by
  unfold applySetting
  split
  case h_2 =>
      simp only []
      split_ifs
      all_goals exact .of_same rfl rfl rfl rfl rfl rfl
  all_goals exact .of_same rfl rfl rfl rfl rfl rfl

theorem silent_applySettings (s : ServerConn δ) (err : Option Error) (params : List Setting) :
    Silent s (s.applySettings err params).1 := by
  induction params generalizing s err with
  | nil => exact .of_same rfl rfl rfl rfl rfl rfl
  | cons st rest ih =>
    have hone := silent_applySetting s st
    unfold applySettings
    split
    · rename_i s' hs'
      rw [hs'] at hone
      exact hone.trans (ih s' err)
    · rename_i s' e hs'
      rw [hs'] at hone
      exact hone.trans (ih s' (some e))

theorem silent_queueIf (s : ServerConn δ) (endStream : Bool) (id : ℕ) :
    Silent s (s.queueIf endStream id) := by
  cases endStream
  all_goals exact .of_same rfl rfl rfl rfl rfl rfl

theorem Handled.silent {f : Frame} {err : Option Error} (hh : Handled dec s f (t, err)) :
    Silent s t := by
  cases hh with
  | aside t ht hpack acc goaway err =>
    rcases ht with rfl | rfl
    all_goals exact .of_same rfl rfl rfl rfl rfl rfl
  | opened a headers hpack acc ha hdec ho =>
    have hopen : Silent s { ({ s.drainDone with hpack := hpack, hdrAccum := acc } :
        ServerConn δ).setStream a.stream
          (({ s.drainDone with hpack := hpack, hdrAccum := acc } : ServerConn δ).openedStream
            headers a.endStream) with
        streams := insert a.stream s.drainDone.streams
        lastInID := a.stream } :=
      .of_same rfl rfl rfl rfl rfl rfl
    exact hopen.trans (silent_queueIf _ a.endStream a.stream)
  | trailed a headers hpack acc ss ha hdec hlive hss hst hend hnames =>
    exact .of_same rfl rfl rfl rfl rfl rfl
  | accepted id payload padding endStream ss ss' hf hlive hss hrecv =>
    obtain ⟨w, d, upd, ss'', hupd, -, -, -, heq⟩ :=
      acceptData_parts s.drainDone id ss' payload.length endStream
    rw [heq]
    refine Silent.trans ?_ (silent_queueIf _ endStream id)
    refine ⟨rfl, rfl, rfl, rfl, rfl, upd, rfl, ?_⟩
    intro f hf
    obtain ⟨j, delta, rfl⟩ := hupd f hf
    rfl
  | configured params t err hf hvalid happly =>
    have happ := silent_applySettings s none params
    rw [happly] at happ
    split_ifs
    · exact happ.trans (silent_write t rfl)
    · exact happ
  | ponged => exact silent_write s rfl
  | credited id increment hf hfits => exact .of_same rfl rfl rfl rfl rfl rfl
  | removed id code hf hmem =>
    obtain ⟨objects, hclose⟩ := closeStream_parts ({ s with
      streams := s.streams.erase id
      closedStreams := insert id s.closedStreams } : ServerConn δ) id
    rw [hclose]
    exact .of_same rfl rfl rfl rfl rfl rfl

/-- A step writes responses only on streams whose dispatch runs, and launches only what runs after
it. -/
structure Grows (s t : ServerConn δ) : Prop where
  wire : ∃ new, t.wire = s.wire ++ new ∧ ∀ f ∈ new, ∀ id ∈ f.responseOn, id ∈ s.running
  launched : ∃ new, t.launched = s.launched ++ new ∧ ∀ id ∈ new, id ∈ t.running

theorem Grows.of_same (hwire : t.wire = s.wire) (hlaunched : t.launched = s.launched) :
    Grows s t := by
  refine ⟨⟨[], ?_, ?_⟩, [], ?_, ?_⟩
  · rw [hwire, List.append_nil]
  · intro f hf
    cases hf
  · rw [hlaunched, List.append_nil]
  · intro id hid
    cases hid

theorem Grows.of_written (hwire : t.wire = s.wire ++ [f])
    (hf : ∀ id ∈ f.responseOn, id ∈ s.running) (hlaunched : t.launched = s.launched) :
    Grows s t := by
  refine ⟨⟨[f], hwire, ?_⟩, [], ?_, ?_⟩
  · intro g hg
    rw [List.mem_singleton.mp hg]
    exact hf
  · rw [hlaunched, List.append_nil]
  · intro id hid
    cases hid

theorem grows_write (s : ServerConn δ) (hf : ∀ id ∈ f.responseOn, id ∈ s.running) :
    Grows s (s.write f) :=
  .of_written rfl hf rfl

theorem Silent.grows (h : Silent s t) : Grows s t := by
  obtain ⟨new, hnew, hsilent⟩ := h.wire
  refine ⟨⟨new, hnew, ?_⟩, [], ?_, ?_⟩
  · intro f hf id hid
    rw [hsilent f hf] at hid
    cases hid
  · rw [h.launched, List.append_nil]
  · intro id hid
    cases hid

theorem Silent.grows_abort (h : Silent s t) (code : ErrCode) : Grows s (t.abort code) := by
  obtain ⟨new, hnew, hsilent⟩ := h.wire
  refine ⟨⟨new ++ [.goaway t.lastInID code], ?_, ?_⟩, t.pendingDispatch, ?_, ?_⟩
  · change t.wire ++ _ = _
    rw [hnew, List.append_assoc]
  · intro f hf id hid
    rcases List.mem_append.mp hf with hf | hf
    · rw [hsilent f hf] at hid
      cases hid
    · rw [List.mem_singleton.mp hf] at hid
      cases hid
  · change t.launched ++ _ = _
    rw [h.launched]
  · intro id hid
    exact List.mem_append_right _ hid

theorem grows_frame (dec : BlockDecoder δ) (s : ServerConn δ) (f : Frame) :
    Grows s (step dec s (.frame f)) := by
  have hself : Silent s s := .of_same rfl rfl rfl rfl rfl rfl
  refine frame_induct hself.grows hself.grows_abort (fun _ => .of_same rfl rfl) ?_
  intro _ t err hh
  have hsilent := hh.silent
  cases err with
  | none => exact hsilent.grows
  | some err =>
    unfold answer
    simp only []
    split_ifs
    · exact hsilent.grows_abort err.code
    · exact (hsilent.trans (silent_write t rfl)).grows

def WritersRun (s : ServerConn δ) : Prop :=
  ∀ k w, s.writer k = some w → k < s.writers ∧ w.stream ∈ s.running

theorem WritersRun.of_running (h : WritersRun s) (hwriter : t.writer = s.writer)
    (hwriters : t.writers = s.writers) (hrunning : ∀ id ∈ s.running, id ∈ t.running) :
    WritersRun t := by
  intro k w hw
  rw [hwriter] at hw
  rw [hwriters]
  exact ⟨(h k w hw).1, hrunning _ (h k w hw).2⟩

theorem WritersRun.setWriter (h : WritersRun s) {k : ℕ} {w : Writer} (hw : s.writer k = some w)
    {w' : Option Writer} (hstream : ∀ v ∈ w', v.stream = w.stream) :
    WritersRun (s.setWriter k w') := by
  intro j v hv
  change Function.update s.writer k w' j = some v at hv
  by_cases hj : j = k
  · subst hj
    rw [Function.update_self] at hv
    rw [hstream v hv]
    exact h j w hw
  · rw [Function.update_of_ne hj] at hv
    exact h j v hv

theorem writersRun_closeStream (h : WritersRun s) (id : ℕ) : WritersRun (s.closeStream id) := by
  obtain ⟨objects, heq⟩ := closeStream_parts s id
  rw [heq]
  exact h

theorem writersRun_frame (dec : BlockDecoder δ) (h : WritersRun s) (f : Frame) :
    WritersRun (step dec s (.frame f)) := by
  have habort {t : ServerConn δ} (ht : WritersRun t) (code : ErrCode) : WritersRun (t.abort code) :=
    ht.of_running rfl rfl (fun id hid => List.mem_append_left _ hid)
  refine frame_induct h (habort h) (fun _ => h) ?_
  intro _ t err hh
  have hsilent := hh.silent
  have ht : WritersRun t := h.of_running hsilent.writer hsilent.writers
    (fun id hid => hsilent.running ▸ hid)
  cases err with
  | none => exact ht
  | some err =>
    unfold answer
    simp only []
    split_ifs
    · exact habort ht err.code
    · exact ht

theorem writersRun_step (dec : BlockDecoder δ) (s : ServerConn δ) (e : Event) (h : WritersRun s) :
    WritersRun (step dec s e) := by
  refine step_induct (fun f _ => writersRun_frame dec h f) h fun t ht => ?_
  cases ht with
  | flushed => exact h.of_running rfl rfl (fun id hid => List.mem_append_left _ hid)
  | lastHeaders _ | lastData _ | reset => exact writersRun_closeStream (s := s.write _) h _
  | ended => exact writersRun_closeStream h _
  | started hrun _ =>
    intro k w hw
    change Function.update s.writer s.writers _ k = some w at hw
    change k < s.writers + 1 ∧ w.stream ∈ s.running
    by_cases hk : k = s.writers
    · subst hk
      rw [Function.update_self] at hw
      cases hw
      exact ⟨by omega, hrun⟩
    · rw [Function.update_of_ne hk] at hw
      exact ⟨(h k w hw).1.trans (Nat.lt_succ_self _), (h k w hw).2⟩
  | reserved hw _ _ _ | refunded hw _ _ | givenBack hw _ _ =>
    exact WritersRun.setWriter (s := s.setStream _ _) h hw (by simp)
  | granted hw _ _ => exact WritersRun.setWriter (s := { s with sendW := _ }) h hw (by simp)
  | wroteLast hw _ _ =>
    exact writersRun_closeStream (WritersRun.setWriter (s := s.write _) h hw (by simp)) _
  | wroteAll hw _ _ | wroteSome hw _ _ _ =>
    exact WritersRun.setWriter (s := s.write _) h hw (by simp)
  | dropped hw _ => exact h.setWriter hw (by simp)
  | @finished id _ hidle =>
    have hfree : ∀ k < s.writers, ∀ w ∈ s.writer k, w.stream ≠ id := by
      simpa [idleWriters] using hidle
    obtain ⟨objects, heq⟩ := closeStream_parts s id
    rw [heq]
    intro k w hw
    have hk := h k w hw
    exact ⟨hk.1, (List.mem_erase_of_ne (hfree k hk.1 w hw)).mpr hk.2⟩
  | _ => exact h

theorem grows_closed (h : Grows s t) (id : ℕ) : Grows s (t.closeStream id) := by
  obtain ⟨objects, heq⟩ := closeStream_parts t id
  rw [heq]
  exact ⟨h.wire, h.launched⟩

theorem grows_step (dec : BlockDecoder δ) (s : ServerConn δ) (e : Event) (h : WritersRun s) :
    Grows s (step dec s e) := by
  have same : Grows s s := .of_same rfl rfl
  have hwrote {k : ℕ} {w : Writer} (hw : s.writer k = some w) (last : Bool)
      (w' : Option Writer) :
      Grows s ((s.write (.data w.stream w.connTaken.toNat last)).setWriter k w') := by
    refine .of_written rfl ?_ rfl
    intro j hj
    cases hj
    exact (h k w hw).2
  refine step_induct (fun f _ => grows_frame dec s f) same fun t ht => ?_
  cases ht with
  | flushed =>
    refine ⟨⟨[], (List.append_nil _).symm, ?_⟩, s.pendingDispatch, rfl, ?_⟩
    · intro f hf
      cases hf
    · intro id hid
      exact List.mem_append_right _ hid
  | headers hrun =>
    refine grows_write s ?_
    intro j hj
    cases hj
    exact hrun
  | lastHeaders hrun | lastData hrun =>
    refine grows_closed (grows_write s ?_) _
    intro j hj
    cases hj
    exact hrun
  | ended => exact grows_closed same _
  | wroteLast hw _ last => exact grows_closed (hwrote hw last none) _
  | wroteAll hw _ last | wroteSome hw _ _ last => exact hwrote hw last _
  | reset =>
    refine grows_closed (grows_write s ?_) _
    intro j hj
    cases hj
  | @finished id _ _ =>
    have hclosed := grows_closed same id
    refine ⟨hclosed.wire, [], ?_, ?_⟩
    · rw [List.append_nil]
      obtain ⟨objects, heq⟩ := closeStream_parts s id
      rw [heq]
    · intro j hj
      cases hj
  | _ => exact .of_same rfl rfl

/-- What the frame loop alone changes: a step of a goroutine leaves it as it is, and writes no
WINDOW_UPDATE. -/
structure Local (s t : ServerConn δ) : Prop where
  settings : t.settings = s.settings
  clientS : t.clientS = s.clientS
  hpack : t.hpack = s.hpack
  encoderTable : t.encoderTable = s.encoderTable
  hdrAccum : t.hdrAccum = s.hdrAccum
  recvW : t.recvW = s.recvW
  debit : t.recvDebitSinceLastUpdate = s.recvDebitSinceLastUpdate
  streams : t.streams = s.streams
  lastInID : t.lastInID = s.lastInID
  stopped : t.stopped = s.stopped
  recv : ∀ id, (t.stream id).map ServerStream.recvSide = (s.stream id).map ServerStream.recvSide
  wire : ∃ new, t.wire = s.wire ++ new ∧ ∀ f ∈ new, ∀ id delta, f ≠ .windowUpdate id delta

theorem Local.refl (s : ServerConn δ) : Local s s := by
  refine ⟨rfl, rfl, rfl, rfl, rfl, rfl, rfl, rfl, rfl, rfl, fun _ => rfl, [],
    (List.append_nil _).symm, ?_⟩
  intro f hf
  cases hf

theorem recvSide_setStream {ss ss' : ServerStream} (h : s.stream id = some ss)
    (hside : ss'.recvSide = ss.recvSide) (j : ℕ) :
    ((s.setStream id ss').stream j).map ServerStream.recvSide =
      (s.stream j).map ServerStream.recvSide := by
  by_cases hj : j = id
  · subst hj
    simp [setStream, h, hside]
  · simp [setStream, hj]

theorem Local.setStream (h : Local s t) {ss ss' : ServerStream} (hss : t.stream id = some ss)
    (hside : ss'.recvSide = ss.recvSide) : Local s (t.setStream id ss') :=
  ⟨h.settings, h.clientS, h.hpack, h.encoderTable, h.hdrAccum, h.recvW, h.debit, h.streams,
    h.lastInID, h.stopped, fun j => (recvSide_setStream hss hside j).trans (h.recv j), h.wire⟩

theorem Local.closeStream (h : Local s t) (id : ℕ) : Local s (t.closeStream id) := by
  unfold ServerConn.closeStream
  cases hss : t.stream id with
  | none => exact h
  | some ss =>
    have hside : ({ ss with state := .closed } : ServerStream).recvSide = ss.recvSide := rfl
    exact h.setStream hss hside

theorem Local.write (h : Local s t) (hf : ∀ id delta, f ≠ .windowUpdate id delta) :
    Local s (t.write f) := by
  obtain ⟨new, hnew, hall⟩ := h.wire
  refine ⟨h.settings, h.clientS, h.hpack, h.encoderTable, h.hdrAccum, h.recvW, h.debit,
    h.streams, h.lastInID, h.stopped, h.recv, new ++ [f], ?_, ?_⟩
  · change t.wire ++ [f] = _
    rw [hnew, List.append_assoc]
  · intro g hg
    rcases List.mem_append.mp hg with hg | hg
    · exact hall g hg
    · rw [List.mem_singleton.mp hg]
      exact hf

def withOwn (t u : ServerConn δ) : ServerConn δ :=
  { t with
    sendW := u.sendW
    adding := u.adding
    pendingDispatch := u.pendingDispatch
    running := u.running
    doneCh := u.doneCh
    writer := u.writer
    writers := u.writers
    launched := u.launched
    bodies := u.bodies }

theorem Local.own {u : ServerConn δ} (h : Local s t) (hu : u = t.withOwn u) : Local s u := by
  rw [hu]
  exact ⟨h.settings, h.clientS, h.hpack, h.encoderTable, h.hdrAccum, h.recvW, h.debit,
    h.streams, h.lastInID, h.stopped, h.recv, h.wire⟩

theorem Local.sendSide {u : ServerConn δ} (h : Local s t) {ss : ServerStream}
    (hss : t.stream id = some ss) {w : Window}
    (hu : u = (t.setStream id { ss with sendW := w }).withOwn u) : Local s u := by
  have hside : ({ ss with sendW := w } : ServerStream).recvSide = ss.recvSide := rfl
  exact (h.setStream hss hside).own hu

theorem local_step (dec : BlockDecoder δ) (s : ServerConn δ) {e : Event} (he : e.frame? = none) :
    Local s (step dec s e) := by
  have same := Local.refl s
  have hdata (id n : ℕ) (last : Bool) : Local s (s.write (.data id n last)) :=
    same.write (fun _ _ h => by cases h)
  refine acts_induct he same fun t ht => ?_
  cases ht with
  | streamCredited _ _ hss | reserved _ hss _ _ | refunded _ hss _ | givenBack _ hss _ =>
    exact same.sendSide hss rfl
  | headers _ => exact same.write (fun _ _ h => by cases h)
  | lastHeaders _ | reset => exact (same.write (fun _ _ h => by cases h)).closeStream _
  | lastData _ => exact (hdata _ _ _).closeStream _
  | ended => exact same.closeStream _
  | @wroteLast k w _ _ last =>
    have hwrote :
        Local s ((s.write (.data w.stream w.connTaken.toNat last)).setWriter k none) :=
      (hdata _ _ last).own rfl
    exact hwrote.closeStream _
  | wroteAll _ _ last | wroteSome _ _ _ last => exact (hdata _ _ last).own rfl
  | finished _ _ => exact (same.closeStream _).own rfl
  | _ => exact same.own rfl

end ServerConn

end EnvoyGo.H2

import EnvoyGo.H2RapidReset

/-!
Streams whose opening block the server answered with a stream error.  Nothing records them, so a
frame the client had already sent on one may find the stream idle.
-/

namespace EnvoyGo.H2

open Runs

def Frame.late? : Frame → Option ℕ
  | .data id _ _ _ => some id
  | .windowUpdate id _ => some id
  | .rstStream id _ => some id
  | _ => none

namespace ServerConn

variable {δ : Type} {dec : BlockDecoder δ}

/-- The stream whose opening block the event brings, when it is answered with a stream error. -/
def refusals (dec : BlockDecoder δ) (s : ServerConn δ) (e : Event) : List ℕ :=
  match e.frame? with
  | none => []
  | some f =>
    match s.completedBlock f, (s.dispatchFrame dec f).2 with
    | some a, some err =>
      if s.Takes f ∧ a.stream ∉ s.live ∧ err.stream ≠ 0 then [a.stream] else []
    | _, _ => []

/-- Late frames on refused streams end no connection, and a block on one opens none. -/
def Tolerant (dec : BlockDecoder δ) (p : ServerConn δ × List ℕ) (e : Event) : Prop :=
  ∀ id ∈ p.2, ∀ f ∈ e.frame?, p.1.Takes f →
    (f.late? = some id → ∀ err ∈ (p.1.dispatchFrame dec f).2, err.stream ≠ 0) ∧
    ∀ a ∈ p.1.completedBlock f, a.stream = id → id ∈ (step dec p.1 e).streams → id ∈ p.1.streams

/-- Late frames on refused streams come only once a later stream has been opened, and a block on
one only where it does not open it. -/
def Overtaken (dec : BlockDecoder δ) (p : ServerConn δ × List ℕ) (e : Event) : Prop :=
  ∀ id ∈ p.2, ∀ f ∈ e.frame?, p.1.Takes f →
    (f.late? = some id → id ≤ p.1.lastInID) ∧
    ∀ a ∈ p.1.completedBlock f, a.stream = id → (dec p.1.hpack a.buf).isSome → ¬ p.1.Opens a

instance (dec : BlockDecoder δ) (p : ServerConn δ × List ℕ) (e : Event) :
    Decidable (Tolerant dec p e) :=
  inferInstanceAs (Decidable (∀ id ∈ p.2, ∀ f ∈ e.frame?, p.1.Takes f → _ ∧ _))

variable {id : ℕ} {s : ServerConn δ}

theorem recvData_error {payload : Bytes} {endStream : Bool} {ss : ServerStream} {err : Error}
    (h : ss.recvData id payload endStream = .error err) : err.stream = id := by
  unfold ServerStream.recvData at h
  split at h
  all_goals cases h
  all_goals rfl

theorem onData_connError_iff (s : ServerConn δ) (hid : id ≠ 0) (payload : Bytes)
    (endStream : Bool) :
    (∀ err ∈ (s.onData id payload endStream).2, err.stream ≠ 0) ↔
      id ∈ s.live ∨ id ≤ s.lastInID := by
  unfold onData
  by_cases hlive : id ∈ s.live
  · have hmap : id ∈ s.drainDone.streams := hlive
    simp only [hmap, if_true, hlive, true_or, iff_true]
    intro err herr
    cases hss : s.drainDone.stream id with
    | none => simp [hss] at herr
    | some ss =>
      cases hrecv : ss.recvData id payload endStream with
      | error err' =>
        simp only [hss, hrecv, Option.mem_def, Option.some.injEq] at herr
        rw [← herr, recvData_error hrecv]
        exact hid
      | ok ss' => simp [hss, hrecv] at herr
  · have hmap : id ∉ s.drainDone.streams := hlive
    have hlast : s.drainDone.lastInID = s.lastInID := rfl
    simp only [hmap, if_false, hlive, false_or, hlast]
    by_cases hle : id ≤ s.lastInID
    · simp only [gt_iff_lt, not_lt.mpr hle, if_false, hle, iff_true]
      split_ifs
      all_goals simp [streamError, hid]
    · simp only [gt_iff_lt, not_le.mp hle, if_true, hle, iff_false]
      simp [connError]

theorem onWindowUpdate_connError_iff (s : ServerConn δ) (hid : id ≠ 0) (delta : ℤ) :
    (∀ err ∈ (s.onWindowUpdate id delta).2, err.stream ≠ 0) ↔
      id ∈ s.streams ∨ id ≤ s.lastInID := by
  unfold onWindowUpdate
  simp only [hid, if_false]
  by_cases hmem : id ∈ s.streams
  · simp only [hmem, if_true, true_or, iff_true]
    cases s.stream id with
    | none => simp
    | some ss =>
      simp only []
      split_ifs
      all_goals simp [streamError, hid]
  · simp only [hmem, if_false, false_or]
    by_cases hle : id ≤ s.lastInID
    · simp [not_lt.mpr hle, hle]
    · simp [not_le.mp hle, hle, connError]

theorem onRSTStream_connError_iff (s : ServerConn δ) (id : ℕ) :
    (∀ err ∈ (s.onRSTStream id).2, err.stream ≠ 0) ↔ id ∈ s.streams ∨ id ≤ s.lastInID := by
  unfold onRSTStream
  by_cases hmem : id ∈ s.streams
  · simp [hmem]
  · simp only [hmem, if_false, false_or]
    by_cases hle : id ≤ s.lastInID
    · simp [not_lt.mpr hle, hle]
    · simp [not_le.mp hle, hle, connError]

theorem late_connError_iff (hkept : s.book.Kept) (hid : id ≠ 0) {f : Frame}
    (hf : f.late? = some id) :
    (∀ err ∈ (s.dispatchFrame dec f).2, err.stream ≠ 0) ↔ id ≤ s.lastInID := by
  have hmap : id ∈ s.streams → id ≤ s.lastInID := hkept.entries_le id
  unfold Frame.late? at hf
  split at hf
  · cases hf
    refine (onData_connError_iff s hid _ _).trans (or_iff_right_of_imp ?_)
    intro hlive
    exact hmap (Finset.mem_sdiff.mp hlive).1
  · cases hf
    exact (onWindowUpdate_connError_iff s hid _).trans (or_iff_right_of_imp hmap)
  · cases hf
    exact (onRSTStream_connError_iff s id).trans (or_iff_right_of_imp hmap)
  · cases hf

theorem answer_streams (s : ServerConn δ) (err : Option Error) :
    (answer (s, err)).streams = s.streams := by
  cases err with
  | none => rfl
  | some err =>
    unfold answer
    simp only []
    split_ifs
    all_goals rfl

theorem admits_iff {f : Frame} (htakes : s.Takes f) {a : HeaderBlockAccumulator}
    (ha : s.completedBlock f = some a) :
    (a.stream ∈ (step dec s (.frame f)).streams → a.stream ∈ s.streams) ↔
      ((dec s.hpack a.buf).isSome → ¬ s.Opens a) := by
  rw [step_frame_taken htakes]
  constructor
  · intro h hdec ho
    obtain ⟨⟨headers, hpack⟩, hdec⟩ := Option.isSome_iff_exists.mp hdec
    obtain ⟨acc, hopen⟩ := dispatchFrame_opens ha ho hdec
    have hin : a.stream ∈ (answer (s.dispatchFrame dec f)).streams := by
      rw [hopen, answer_streams]
      have hbook : a.stream ∈ insert a.stream s.drainDone.streams := Finset.mem_insert_self _ _
      cases a.endStream <;> exact hbook
    have hlive : a.stream ∈ s.live := Finset.mem_sdiff.mpr ⟨h hin, by simpa using ho.2.2.1⟩
    exact ho.1 hlive
  · intro h hin
    have hh := dispatchFrame_handled dec s f
    revert hin hh
    rcases s.dispatchFrame dec f with ⟨t, err⟩
    rw [answer_streams]
    intro hin hh
    have hlive : ∀ id ∈ s.live, id ∈ s.streams := fun id hid => (Finset.mem_sdiff.mp hid).1
    cases hh with
    | aside t ht hpack acc goaway err =>
      rcases ht with rfl | rfl
      · exact hin
      · exact hlive _ hin
    | opened b headers hpack acc hb hdec ho =>
      cases ha.symm.trans hb
      exact absurd ho (h (by rw [hdec]; rfl))
    | trailed b headers hpack acc ss hb hdec hmem hss hst hend hnames => exact hlive _ hin
    | accepted id payload padding endStream ss ss' hf hmem hss hrecv =>
      subst hf
      cases ha
    | configured params t err hf hvalid happly =>
      subst hf
      cases ha
    | ponged => exact hin
    | credited id increment hf hfits => exact hin
    | removed id code hf hmem =>
      subst hf
      cases ha

theorem completedBlock_stream {f : Frame} (hread : s.readError f = none)
    {a : HeaderBlockAccumulator} (ha : s.completedBlock f = some a) : a.stream ≠ 0 := by
  have hparse : parseError (min s.settings.maxFrameSize 16777215) f = none := by
    unfold readError at hread
    cases hp : parseError (min s.settings.maxFrameSize 16777215) f with
    | none => rfl
    | some err =>
      rw [hp] at hread
      cases hread
  unfold completedBlock at ha
  split at ha
  · rename_i id fragment endStream priority
    cases ha
    have hid : ¬ id = 0 := by
      simpa [parseError] using hparse
    exact hid
  · rename_i id fragment
    have hstream : a.stream = id := by
      unfold appendContinuation at ha
      split at ha
      · cases ha
      · split_ifs at ha with hne hlong
        · cases ha
        · cases ha
        · cases ha
          exact not_not.mp hne
    intro h0
    rw [hstream] at h0
    simp [parseError, h0] at hparse
  · cases ha

theorem refusals_ne_zero {e : Event} (h : id ∈ refusals dec s e) : id ≠ 0 := by
  unfold refusals at h
  split at h
  · cases h
  · split at h
    · rename_i a err ha herr
      split_ifs at h with hcond
      · rw [List.mem_singleton.mp h]
        exact completedBlock_stream hcond.1.2.2 ha
      · cases h
    · cases h

def RefusalsNamed (p : ServerConn δ × List ℕ) : Prop := p.1.book.Kept ∧ ∀ id ∈ p.2, id ≠ 0

theorem refusalsNamed_step (p : ServerConn δ × List ℕ) (e : Event) (h : RefusalsNamed p) :
    RefusalsNamed (watch (step dec) (refusals dec) p e) := by
  refine ⟨kept_step e h.1, ?_⟩
  intro id hid
  rcases List.mem_append.mp hid with hid | hid
  · exact h.2 id hid
  · exact refusals_ne_zero hid

theorem tolerant_iff (p : ServerConn δ × List ℕ) (e : Event) (h : RefusalsNamed p) :
    Tolerant dec p e ↔ Overtaken dec p e := by
  unfold Tolerant Overtaken
  refine forall₂_congr fun id hid => ?_
  refine forall₂_congr fun f hf => ?_
  refine forall_congr' fun htakes => ?_
  have he : e = .frame f := by
    cases e with
    | frame g => rw [Option.some.inj hf]
    | _ => cases hf
  refine and_congr ?_ ?_
  · refine forall_congr' fun hlate => ?_
    exact late_connError_iff h.1 (h.2 id hid) hlate
  · refine forall₂_congr fun a ha => ?_
    refine forall_congr' fun hstream => ?_
    rw [he, ← hstream]
    exact admits_iff htakes ha

/-- A run never treats a refused stream as idle exactly when every late frame on one finds a later
stream opened, and no block reopens one. -/
theorem refused_not_idle_iff (dec : BlockDecoder δ) (hpack : δ) (settings : ServerSettings)
    (clientS : ClientSettings) (es : List Event) :
    StepsMeet (watch (step dec) (refusals dec)) (Tolerant dec)
        (newServerConn hpack settings clientS, []) es ↔
      StepsMeet (watch (step dec) (refusals dec)) (Overtaken dec)
        (newServerConn hpack settings clientS, []) es := by
  have hinit : RefusalsNamed (newServerConn hpack settings clientS, ([] : List ℕ)) := by
    refine ⟨kept_new hpack settings clientS, ?_⟩
    intro id hid
    cases hid
  exact stepsMeet_iff refusalsNamed_step tolerant_iff es _ hinit

/-- A HEADERS frame that depends on itself is refused; the DATA sent behind it ends the connection,
and so would RST_STREAM; and the stream can be opened again. -/
theorem refused_stream_idle :
    let refused : Event := .frame (.headers 1 [] true false (some 1))
    ¬ StepsMeet (watch (step blankDecoder) (refusals blankDecoder)) (Tolerant blankDecoder)
        (newServerConn () {} {}, []) [refused, .frame (.data 1 [] none true)] ∧
      ¬ StepsMeet (watch (step blankDecoder) (refusals blankDecoder)) (Tolerant blankDecoder)
        (newServerConn () {} {}, []) [refused, .frame (.rstStream 1 .cancel)] ∧
      ¬ StepsMeet (watch (step blankDecoder) (refusals blankDecoder)) (Tolerant blankDecoder)
        (newServerConn () {} {}, []) [refused, .frame (.headers 1 [] true false none)] := by
  decide

end ServerConn

end EnvoyGo.H2

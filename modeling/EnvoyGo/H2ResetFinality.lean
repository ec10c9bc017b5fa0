import EnvoyGo.H2CompleteRequest
import EnvoyGo.H2RefusedStream
import EnvoyGo.H2ServerWire

/-!
What happens on a stream after it was reset, by the frame loop's answer to a stream error or by
the peer.
-/

namespace EnvoyGo.H2

open Runs

def Frame.data? : Frame → Option ℕ
  | .data id _ _ _ => some id
  | _ => none

def Frame.credit? : Frame → Option (ℕ × Fin (2^31))
  | .windowUpdate id increment => some (id, increment)
  | _ => none

def Frame.selfDependent? : Frame → Option ℕ
  | .priority id dependency => if dependency = id then some id else none
  | _ => none

namespace ServerConn

variable {δ : Type} {dec : BlockDecoder δ}

def resets (dec : BlockDecoder δ) (s : ServerConn δ) (e : Event) : List ℕ :=
  match e.frame? with
  | none => []
  | some f =>
    if s.Takes f then
      f.reset?.toList ++
        ((s.dispatchFrame dec f).2.toList.map Error.stream).filter (fun id => id ≠ 0)
    else []

/-- The frame provokes no stream error on a stream of the map, resets none whose dispatch is not
over, and opens none that was reset. -/
def FrameFinal (dec : BlockDecoder δ) (s : ServerConn δ) (reset : List ℕ) (f : Frame) : Prop :=
  (∀ id ∈ f.reset?, id ∉ s.unfinished) ∧
  (∀ id ∈ f.data?, id ∈ s.live → s.IsReceiving id) ∧
  (∀ u ∈ f.credit?, u.1 ∈ s.streams → ∀ ss ∈ s.stream u.1, ss.sendW.fits u.2.val = true) ∧
  (∀ id ∈ f.selfDependent?, id ∉ s.streams) ∧
  ∀ a ∈ s.completedBlock f, ∀ r ∈ dec s.hpack a.buf,
    (a.stream ∈ s.live → s.EndsOpen a ∧ hasPseudo r.1 = false) ∧
    (a.stream ∈ reset → ¬ s.Opens a)

def Final (dec : BlockDecoder δ) (p : ServerConn δ × List ℕ) (e : Event) : Prop :=
  ∀ f ∈ e.frame?, p.1.Takes f → FrameFinal dec p.1 p.2 f

instance (dec : BlockDecoder δ) (s : ServerConn δ) (reset : List ℕ) (f : Frame) :
    Decidable (FrameFinal dec s reset f) :=
  inferInstanceAs (Decidable ((∀ id ∈ f.reset?, _) ∧ (∀ id ∈ f.data?, _) ∧
    (∀ u ∈ f.credit?, _ → ∀ ss ∈ s.stream u.1, _) ∧ (∀ id ∈ f.selfDependent?, _) ∧
    ∀ a ∈ s.completedBlock f, ∀ r ∈ dec s.hpack a.buf, _ ∧ _))

instance (dec : BlockDecoder δ) (p : ServerConn δ × List ℕ) (e : Event) :
    Decidable (Final dec p e) :=
  inferInstanceAs (Decidable (∀ f ∈ e.frame?, p.1.Takes f → FrameFinal dec p.1 p.2 f))

theorem openStream_streams (s : ServerConn δ) (id : ℕ) (headers : OrderedHeaders)
    (endStream : Bool) : (s.openStream id headers endStream).streams = insert id s.streams := by
  cases endStream
  all_goals rfl

variable {s t : ServerConn δ} {f : Frame} {id : ℕ} {err : Error}

theorem Handled.streams {err : Option Error} (hh : Handled dec s f (t, err))
    (hid : id ∈ t.streams) :
    id ∈ s.streams ∨ ∃ a, s.completedBlock f = some a ∧ (dec s.hpack a.buf).isSome ∧
      s.Opens a ∧ a.stream = id := by
  have hlive : ∀ id ∈ s.live, id ∈ s.streams := fun id hid => (Finset.mem_sdiff.mp hid).1
  cases hh with
  | aside t ht hpack acc goaway err =>
    rcases ht with rfl | rfl
    · exact .inl hid
    · exact .inl (hlive id hid)
  | opened a headers hpack acc ha hdec ho =>
    rw [openStream_streams] at hid
    rcases Finset.mem_insert.mp hid with rfl | hid
    · refine .inr ⟨a, ha, ?_, ho, rfl⟩
      rw [hdec]
      rfl
    · exact .inl (hlive id hid)
  | trailed a headers hpack acc ss ha hdec hmem hss hst hend hnames => exact .inl (hlive id hid)
  | accepted id' payload padding endStream ss ss' hf hmem hss hrecv =>
    obtain ⟨w, d, upd, ss'', -, -, -, -, heq⟩ :=
      acceptData_parts s.drainDone id' ss' payload.length endStream
    rw [heq] at hid
    refine .inl (hlive id ?_)
    cases endStream <;> exact hid
  | configured params t err hf hvalid happly =>
    have happ : (if err = none then t.write .settingsAck else t).streams = s.streams :=
      congrArg AdmissionBook.entries (book_applySettings_write s params happly)
    rw [happ] at hid
    exact .inl hid
  | ponged => exact .inl hid
  | credited id' increment hf hfits => exact .inl hid
  | removed id' code hf hmem =>
    obtain ⟨objects, hclose⟩ := closeStream_parts ({ s with
      streams := s.streams.erase id'
      closedStreams := insert id' s.closedStreams } : ServerConn δ) id'
    rw [hclose] at hid
    exact .inl (Finset.mem_of_mem_erase hid)

theorem onDecodedBlock_error {t' : ServerConn δ} (hmap : id ∉ t.streams)
    {headers : OrderedHeaders} {endStream : Bool} {priority : Option ℕ}
    (h : t.onDecodedBlock id headers endStream priority = (t', some err))
    (hstream : err.stream ≠ 0) : err.stream = id ∧ t' = t := by
  unfold onDecodedBlock at h
  rw [if_neg hmap] at h
  split_ifs at h
  · cases h
    exact absurd rfl hstream
  · cases h
    exact ⟨rfl, rfl⟩
  · cases h
    exact absurd rfl hstream
  · cases h
    exact absurd rfl hstream
  · cases h
    exact ⟨rfl, rfl⟩
  · simp only [admitStream, recvHeaders_new] at h
    split_ifs at h
    · cases h
      exact ⟨rfl, rfl⟩
    all_goals cases h

theorem validateSetting_connError {st : Setting} (h : validateSetting st = some err) :
    err.stream = 0 := by
  unfold validateSetting at h
  split at h
  · split_ifs at h
    cases h
    rfl
  · split_ifs at h
    cases h
    rfl
  · split_ifs at h
    cases h
    rfl
  · cases h

theorem applySetting_connError {st : Setting} (h : (s.applySetting st).2 = some err) :
    err.stream = 0 := by
  unfold applySetting at h
  split at h
  case h_2 =>
      simp only [] at h
      split_ifs at h
      cases h
      rfl
  all_goals cases h

theorem applySettings_connError {prior : Option Error} {params : List Setting}
    (hprior : ∀ e ∈ prior, e.stream = 0) (h : (s.applySettings prior params).2 = some err) :
    err.stream = 0 := by
  induction params generalizing s prior with
  | nil => exact hprior err h
  | cons st rest ih =>
    unfold applySettings at h
    split at h
    · exact ih hprior h
    · rename_i s' e hs'
      refine ih ?_ h
      intro e' he'
      cases he'
      have herr : (s.applySetting st).2 = some e := by
        rw [hs']
      exact applySetting_connError herr

theorem onSettings_connError {ack : Bool} {params : List Setting}
    (h : (s.onSettings ack params).2 = some err) : err.stream = 0 := by
  unfold onSettings at h
  split_ifs at h
  split at h
  · rename_i e hvalid
    cases h
    obtain ⟨st, -, hst⟩ := List.exists_of_findSome?_eq_some hvalid
    exact validateSetting_connError hst
  · rename_i hvalid
    have happ : (s.applySettings none params).2 = some err := by
      split at h
      · rename_i t e heq
        rw [heq]
        exact h
      · cases h
    exact applySettings_connError (fun e he => by cases he) happ

theorem block_error_outside {reset : List ℕ} (hok : FrameFinal dec s reset f)
    {a : HeaderBlockAccumulator} (ha : s.completedBlock f = some a)
    (h : s.dispatchFrame dec f = (t, some err)) (hstream : err.stream ≠ 0) :
    err.stream ∉ t.streams := by
  obtain ⟨acc, hblock⟩ := dispatchFrame_block dec ha
  rw [hblock] at h
  cases hdec : dec s.hpack a.buf with
  | none =>
    simp only [onHeaderBlock, drainDone, hdec] at h
    cases h
    exact absurd rfl hstream
  | some r =>
    obtain ⟨headers, hpack⟩ := r
    by_cases hlive : a.stream ∈ s.live
    · obtain ⟨⟨-, ⟨ss, hss, hst⟩, hend⟩, hps⟩ := (hok.2.2.2.2 a ha _ hdec).1 hlive
      have hnames : headers.find? (fun h => ServerStream.isPseudo h.name) = none := by
        simpa [hasPseudo] using hps
      rw [onHeaderBlock_trails hlive hss hst hend acc hdec hnames] at h
      cases h
    · simp only [onHeaderBlock, drainDone, hdec] at h
      obtain ⟨hid, rfl⟩ := onDecodedBlock_error hlive h hstream
      rw [hid]
      exact hlive

theorem data_error_outside {payload : Bytes} {endStream : Bool}
    (hok : id ∈ s.live → s.IsReceiving id) (h : s.onData id payload endStream = (t, some err))
    (hstream : err.stream ≠ 0) : err.stream ∉ t.streams := by
  by_cases hlive : id ∈ s.live
  · obtain ⟨ss, hss, hrcv⟩ := hok hlive
    obtain ⟨ss', hrecv⟩ : ∃ ss', ss.recvData id payload endStream = .ok ss' :=
      recvData_receiving hrcv
    rw [onData_accepts hlive hss hrecv] at h
    cases h
  · have hmap : id ∉ s.drainDone.streams := hlive
    simp only [onData, hmap, if_false] at h
    split_ifs at h
    · cases h
      exact absurd rfl hstream
    all_goals cases h
    all_goals exact hlive

theorem credit_error_outside {increment : Fin (2^31)}
    (hread : s.readError (.windowUpdate id increment) = none)
    (hok : id ∈ s.streams → ∀ ss ∈ s.stream id, ss.sendW.fits increment.val = true)
    (h : s.onWindowUpdate id increment.val = (t, some err)) (hstream : err.stream ≠ 0) : False := by
  have hpos : increment.val ≠ 0 := by
    intro h0
    simp [readError, parseError, h0] at hread
  unfold onWindowUpdate at h
  by_cases h0 : id = 0
  · rw [if_pos h0] at h
    split_ifs at h
    all_goals cases h
    all_goals exact absurd rfl hstream
  rw [if_neg h0] at h
  by_cases hmem : id ∈ s.streams
  · rw [if_pos hmem] at h
    cases hss : s.stream id with
    | none =>
      rw [hss] at h
      cases h
    | some ss =>
      have hfits := hok hmem ss hss
      simp only [hss, hfits, Bool.not_true, Bool.false_eq_true, if_false] at h
      rw [if_neg (by exact_mod_cast hpos)] at h
      cases h
  · rw [if_neg hmem] at h
    split_ifs at h
    all_goals cases h
    exact absurd rfl hstream

theorem streamError_outside {reset : List ℕ} (htakes : s.Takes f) (hok : FrameFinal dec s reset f)
    (h : s.dispatchFrame dec f = (t, some err)) (hstream : err.stream ≠ 0) :
    err.stream ∉ t.streams := by
  cases ha : s.completedBlock f with
  | some a => exact block_error_outside hok ha h hstream
  | none =>
    cases f with
    | headers id fragment endHeaders endStream priority =>
      cases endHeaders with
      | false => cases h
      | true => cases ha
    | continuation id fragment endHeaders =>
      simp only [dispatchFrame, onContinuation] at h
      cases happ : appendContinuation s.hdrAccum id fragment with
      | error e =>
        rw [happ] at h
        cases h
        refine absurd ?_ hstream
        unfold appendContinuation at happ
        split at happ
        · cases happ
          rfl
        · split_ifs at happ
          all_goals cases happ
          all_goals rfl
      | ok a =>
        rw [happ] at h
        cases endHeaders with
        | false => cases h
        | true => simp [completedBlock, happ, Except.toOption] at ha
    | data id payload padding endStream =>
      exact data_error_outside (hok.2.1 id rfl) h hstream
    | settings ack params =>
      have herr : (s.onSettings ack params).2 = some err := congrArg Prod.snd h
      exact absurd (onSettings_connError herr) hstream
    | ping ack =>
      cases ack
      all_goals cases h
    | windowUpdate id increment =>
      exact (credit_error_outside htakes.2.2 (hok.2.2.1 _ rfl) h hstream).elim
    | rstStream id code =>
      simp only [dispatchFrame, onRSTStream] at h
      split_ifs at h
      all_goals cases h
      exact absurd rfl hstream
    | goaway => cases h
    | pushPromise =>
      cases h
      exact absurd rfl hstream
    | priority id dependency =>
      simp only [dispatchFrame, onPriority] at h
      split_ifs at h with hself
      · cases h
        refine hok.2.2.2.1 id ?_
        simp [Frame.selfDependent?, hself]
      · cases h
    | unknown => cases h
    | malformed stream code => cases h

structure ResetsGone (p : ServerConn δ × List ℕ) : Prop where
  covered : p.1.book.Covered
  writers : WritersRun p.1
  gone : ∀ id ∈ p.2, id ∉ p.1.streams

theorem rst_gone {code : ErrCode} {err : Option Error}
    (h : s.dispatchFrame dec (.rstStream id code) = (t, err)) : id ∉ t.streams := by
  simp only [dispatchFrame, onRSTStream] at h
  by_cases hmem : id ∈ s.streams
  · rw [if_pos hmem] at h
    obtain ⟨objects, hclose⟩ := closeStream_parts ({ s with
      streams := s.streams.erase id
      closedStreams := insert id s.closedStreams } : ServerConn δ) id
    rw [hclose] at h
    cases h
    exact Finset.notMem_erase id s.streams
  · rw [if_neg hmem] at h
    split_ifs at h
    all_goals cases h
    all_goals exact hmem

theorem gone_frame {reset : List ℕ} (htakes : s.Takes f) (hok : FrameFinal dec s reset f)
    (hgone : ∀ id ∈ reset, id ∉ s.streams) :
    ∀ id ∈ reset ++ resets dec s (.frame f), id ∉ (step dec s (.frame f)).streams := by
  intro id hid hmem
  have hh := dispatchFrame_handled dec s f
  rw [step_frame_taken htakes] at hmem
  have hresets : resets dec s (.frame f) = f.reset?.toList ++
      ((s.dispatchFrame dec f).2.toList.map Error.stream).filter (fun id => id ≠ 0) :=
    if_pos htakes
  rw [hresets] at hid
  rcases hres : s.dispatchFrame dec f with ⟨t, err⟩
  rw [hres] at hmem hh hid
  rw [answer_streams] at hmem
  simp only [List.mem_append, Option.mem_toList, List.mem_filter, List.mem_map] at hid
  rcases hid with hid | hid | ⟨⟨e, he, rfl⟩, hne⟩
  · rcases hh.streams hmem with hold | ⟨a, ha, hdec, ho, rfl⟩
    · exact hgone id hid hold
    · obtain ⟨r, hr⟩ := Option.isSome_iff_exists.mp hdec
      exact (hok.2.2.2.2 a ha r hr).2 hid ho
  · have hf : ∃ code, f = .rstStream id code := by
      unfold Frame.reset? at hid
      split at hid
      · cases hid
        exact ⟨_, rfl⟩
      · cases hid
    obtain ⟨code, rfl⟩ := hf
    exact rst_gone hres hmem
  · rw [he] at hres
    exact streamError_outside htakes hok hres (by simpa using hne) hmem

theorem resets_nil_of_untaken (htakes : ¬ s.Takes f) : resets dec s (.frame f) = [] :=
  if_neg htakes

theorem gone_step {p : ServerConn δ × List ℕ} {e : Event} (hok : Final dec p e)
    (hgone : ∀ id ∈ p.2, id ∉ p.1.streams) :
    ∀ id ∈ p.2 ++ resets dec p.1 e, id ∉ (step dec p.1 e).streams := by
  obtain ⟨s, reset⟩ := p
  by_cases hframe : e.frame? = none
  · have hnone : resets dec s e = [] := by
      rw [resets, hframe]
    rw [hnone, List.append_nil, (local_step dec s hframe).streams]
    exact hgone
  · cases e with
    | frame f =>
      by_cases htakes : s.Takes f
      · exact gone_frame htakes (hok f rfl htakes) hgone
      · rw [resets_nil_of_untaken htakes, List.append_nil]
        rcases step_frame_untaken dec htakes with hs | ⟨code, hs⟩ | ⟨code, hs⟩
        all_goals rw [hs]
        all_goals exact hgone
    | _ => exact absurd rfl hframe

/-- The connection with the streams reset so far. -/
abbrev resetsWatched (dec : BlockDecoder δ) := watch (step dec) (resets dec)

theorem resetsGone_step (p : ServerConn δ × List ℕ) (e : Event) (hok : Final dec p e)
    (h : ResetsGone p) : ResetsGone (resetsWatched dec p e) := by
  have hsettled : p.1.ResetsSettled e := by
    intro f hf htakes
    exact (hok f hf htakes).1
  exact ⟨covered_step hsettled h.covered, writersRun_step dec p.1 e h.writers,
    gone_step hok h.gone⟩

/-- The response frames written on a stream. -/
def responsesOn (s : ServerConn δ) (id : ℕ) : List WireFrame :=
  s.wire.filter (fun f => f.responseOn = some id)

theorem gone_quiet {p : ServerConn δ × List ℕ} {e : Event} (hok : Final dec p e)
    (h : ResetsGone p) (hid : id ∈ p.2) :
    (step dec p.1 e).responsesOn id = p.1.responsesOn id ∧
      (step dec p.1 e).launched.count id = p.1.launched.count id := by
  have hafter := resetsGone_step p e hok h
  have hnot : id ∉ p.1.running := by
    intro hrun
    exact h.gone id hid (h.covered.covers id (List.mem_append_right _ hrun))
  have hnot' : id ∉ (step dec p.1 e).running := by
    intro hrun
    exact hafter.gone id (List.mem_append_left _ hid)
      (hafter.covered.covers id (List.mem_append_right _ hrun))
  obtain ⟨⟨frames, hwire, hframes⟩, jobs, hlaunched, hjobs⟩ := grows_step dec p.1 e h.writers
  constructor
  · have hnew : frames.filter (fun f => f.responseOn = some id) = [] := by
      refine List.filter_eq_nil_iff.mpr ?_
      intro f hf hon
      exact hnot (hframes f hf id (by simpa using hon))
    rw [responsesOn, hwire, List.filter_append, hnew, List.append_nil]
    rfl
  · have hnew : jobs.count id = 0 := by
      refine List.count_eq_zero.mpr ?_
      intro hmem
      exact hnot' (hjobs id hmem)
    rw [hlaunched, List.count_append, hnew, Nat.add_zero]

theorem gone_run (fs : List Event) {p : ServerConn δ × List ℕ} (h : ResetsGone p)
    (hfs : StepsMeet (resetsWatched dec) (Final dec) p fs) (hid : id ∈ p.2) :
    id ∉ (run dec p.1 fs).streams ∧ (run dec p.1 fs).responsesOn id = p.1.responsesOn id ∧
      (run dec p.1 fs).launched.count id = p.1.launched.count id := by
  induction fs generalizing p with
  | nil => exact ⟨h.gone id hid, rfl, rfl⟩
  | cons e fs ih =>
    obtain ⟨hok, hrest⟩ := hfs
    obtain ⟨hresp, hlaunched⟩ := gone_quiet hok h hid
    obtain ⟨hgone, hresp', hlaunched'⟩ :=
      ih (resetsGone_step p e hok h) hrest (List.mem_append_left _ hid)
    exact ⟨hgone, hresp'.trans hresp, hlaunched'.trans hlaunched⟩

theorem resetsGone_new (hpack : δ) (settings : ServerSettings) (clientS : ClientSettings) :
    ResetsGone (newServerConn hpack settings clientS, []) := by
  refine ⟨covered_new hpack settings clientS, ?_, ?_⟩
  · intro k w hw
    cases hw
  · intro id hid
    cases hid

/-- In a run that meets the condition, a stream that was reset has no entry any more, and no
response frame and no dispatch follows on it. -/
theorem reset_final (dec : BlockDecoder δ) (hpack : δ) (settings : ServerSettings)
    (clientS : ClientSettings) (es fs : List Event) (id : ℕ)
    (hes : StepsMeet (resetsWatched dec) (Final dec) (newServerConn hpack settings clientS, [])
      (es ++ fs))
    (hid : id ∈ (es.foldl (resetsWatched dec) (newServerConn hpack settings clientS, [])).2) :
    let s := run dec (newServerConn hpack settings clientS) es
    let s' := run dec (newServerConn hpack settings clientS) (es ++ fs)
    id ∉ s.streams ∧ id ∉ s'.streams ∧ s'.responsesOn id = s.responsesOn id ∧
      s'.launched.count id = s.launched.count id := by
  obtain ⟨hbefore, hafter⟩ := (stepsMeet_append _ _ es fs).mp hes
  have hinv := invariant_of_steps resetsGone_step es _ (resetsGone_new hpack settings clientS)
    hbefore
  have hfst : (es.foldl (resetsWatched dec) (newServerConn hpack settings clientS, [])).1 =
      run dec (newServerConn hpack settings clientS) es :=
    foldl_watch_fst (step dec) (resets dec) es (newServerConn hpack settings clientS, [])
  have hlater := gone_run fs hinv hafter hid
  rw [hfst] at hlater
  have hrun : run dec (newServerConn hpack settings clientS) (es ++ fs) =
      run dec (run dec (newServerConn hpack settings clientS) es) fs :=
    List.foldl_append
  refine ⟨hfst ▸ hinv.gone id hid, ?_⟩
  rw [hrun]
  exact hlater

/-- A second HEADERS frame without END_STREAM is answered with RST_STREAM; the stream stays in
the map, its request is dispatched and its response written. -/
theorem reset_stream_answered :
    let es : List Event :=
      [.frame (.headers 1 [] true false none), .frame (.headers 1 [] true false none)]
    let fs : List Event := [.frame (.data 1 [] none true), .flush, .headers 1 true]
    let s := run blankDecoder (newServerConn () {} {}) es
    let s' := run blankDecoder (newServerConn () {} {}) (es ++ fs)
    1 ∈ (es.foldl (resetsWatched blankDecoder) (newServerConn () {} {}, [])).2 ∧
      1 ∈ s.streams ∧ s.launched = [] ∧ s'.launched = [1] ∧ s.responsesOn 1 = [] ∧
      s'.responsesOn 1 = [.headers 1 true] := by
  decide

/-- A stream reset before its request was complete, and another one served after it. -/
theorem open_stream_reset :
    let es : List Event := [.frame (.headers 1 [] true false none), .frame (.rstStream 1 .cancel)]
    let fs : List Event := [.frame (.headers 3 [] true true none), .flush, .headers 3 true]
    StepsMeet (resetsWatched blankDecoder) (Final blankDecoder) (newServerConn () {} {}, [])
        (es ++ fs) ∧
      1 ∈ (es.foldl (resetsWatched blankDecoder) (newServerConn () {} {}, [])).2 ∧
      1 ∉ (run blankDecoder (newServerConn () {} {}) (es ++ fs)).streams := by
  intro es fs
  have hmeet : StepsMeet (resetsWatched blankDecoder) (Final blankDecoder)
      (newServerConn () {} {}, []) (es ++ fs) := by
    decide
  have hid : 1 ∈ (es.foldl (resetsWatched blankDecoder) (newServerConn () {} {}, [])).2 := by
    decide
  exact ⟨hmeet, hid, (reset_final blankDecoder () {} {} es fs 1 hmeet hid).2.1⟩

end ServerConn

end EnvoyGo.H2

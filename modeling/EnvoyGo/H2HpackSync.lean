import EnvoyGo.Fragments
import EnvoyGo.H2PeerSettings

/-!
The header decoder of a connection and the header blocks of its peer.  The dynamic table is shared
by every stream, so each block has to reach the decoder whole, once and in order, whatever becomes
of its stream.
-/

namespace EnvoyGo.H2

open Runs Fragments

/-- The part a frame has in a header block. -/
def Frame.piece : Frame → Piece UInt8
  | .headers _ fragment endHeaders _ _ => .opens fragment endHeaders
  | .continuation _ fragment endHeaders => .continues fragment endHeaders
  | _ => .other

theorem appendContinuation_ok {acc : Option HeaderBlockAccumulator} {id : ℕ} {fragment : Bytes}
    {a : HeaderBlockAccumulator} (h : appendContinuation acc id fragment = .ok a) :
    ∃ b, acc = some b ∧ a = { b with buf := b.buf ++ fragment } := by
  unfold appendContinuation at h
  cases acc with
  | none => cases h
  | some b =>
    dsimp only at h
    split_ifs at h
    cases h
    exact ⟨b, rfl, rfl⟩

theorem appendContinuation_error {acc : Option HeaderBlockAccumulator} {id : ℕ} {fragment : Bytes}
    {err : Error} (h : appendContinuation acc id fragment = .error err) : err.stream = 0 := by
  unfold appendContinuation at h
  cases acc with
  | none =>
    cases h
    rfl
  | some b =>
    dsimp only at h
    split_ifs at h
    · cases h
      rfl
    · cases h
      rfl

namespace ServerConn

variable {δ : Type}

def codec (s : ServerConn δ) : δ × Option Bytes :=
  (s.hpack, s.hdrAccum.map HeaderBlockAccumulator.buf)

/-- The frame the loop reads. -/
def inbound (s : ServerConn δ) (e : Event) : List Frame :=
  match e.frame? with
  | none => []
  | some f => if s.stopped = none ∧ s.adding = none then [f] else []

theorem codec_onTrailingBlock (s : ServerConn δ) (id : ℕ) (headers : OrderedHeaders)
    (endStream : Bool) : (s.onTrailingBlock id headers endStream).1.codec = s.codec := by
  unfold onTrailingBlock
  cases s.stream id with
  | none => rfl
  | some ss =>
    dsimp only
    cases ss.recvTrailingHeaders id headers endStream with
    | error err => rfl
    | ok ss' =>
      cases endStream with
      | false => rfl
      | true => rfl

theorem codec_admitStream (s : ServerConn δ) (id : ℕ) (headers : OrderedHeaders)
    (endStream : Bool) : (s.admitStream id headers endStream).1.codec = s.codec := by
  unfold admitStream
  dsimp only
  split
  · rfl
  · split
    · rfl
    · cases endStream with
      | false => rfl
      | true => rfl

theorem codec_onDecodedBlock (s : ServerConn δ) (id : ℕ) (headers : OrderedHeaders)
    (endStream : Bool) (priority : Option ℕ) :
    (s.onDecodedBlock id headers endStream priority).1.codec = s.codec := by
  unfold onDecodedBlock
  split
  · exact codec_onTrailingBlock s id headers endStream
  · split_ifs
    all_goals first | rfl | exact codec_admitStream s id headers endStream

def Ends (err : Option Error) : Prop := ∃ e, err = some e ∧ e.stream = 0

variable {dec : BlockDecoder δ} {s t : ServerConn δ} {err : Option Error} {f : Frame}

theorem onHeaderBlock_decodes {id : ℕ} {block : Bytes} {endStream : Bool} {priority : Option ℕ}
    (h : s.onHeaderBlock dec id block endStream priority = (t, err)) (hopen : ¬ Ends err) :
    (∃ headers, dec s.hpack block = some (headers, t.codec.1)) ∧ t.codec.2 = s.codec.2 := by
  have hdrained : dec s.drainDone.hpack block = dec s.hpack block := rfl
  unfold onHeaderBlock at h
  dsimp only at h
  rw [hdrained] at h
  cases hdec : dec s.hpack block with
  | none =>
    rw [hdec] at h
    cases h
    exact absurd ⟨_, rfl, rfl⟩ hopen
  | some out =>
    obtain ⟨headers, hpack⟩ := out
    rw [hdec] at h
    have hcodec := codec_onDecodedBlock ({ s.drainDone with hpack := hpack } : ServerConn δ) id
      headers endStream priority
    have hresult : ({ s.drainDone with hpack := hpack } : ServerConn δ).onDecodedBlock id headers
      endStream priority = (t, err) := h
    rw [hresult] at hcodec
    change t.codec = (hpack, s.codec.2) at hcodec
    rw [hcodec]
    exact ⟨⟨headers, rfl⟩, rfl⟩

theorem onHeaders_consumes {id : ℕ} {fragment : Bytes} {endHeaders endStream : Bool}
    {priority : Option ℕ} (hnone : s.hdrAccum = none)
    (h : s.onHeaders dec id fragment endHeaders endStream priority = (t, err))
    (hopen : ¬ Ends err) : Consumes dec s.codec t.codec (.opens fragment endHeaders) := by
  cases endHeaders with
  | false =>
    cases h
    rfl
  | true =>
    obtain ⟨hdec, hacc⟩ := onHeaderBlock_decodes h hopen
    obtain ⟨headers, hdec⟩ := hdec
    refine ⟨headers, hdec, hacc.trans ?_⟩
    unfold codec
    rw [hnone]
    rfl

theorem onContinuation_consumes {id : ℕ} {fragment : Bytes} {endHeaders : Bool}
    (h : s.onContinuation dec id fragment endHeaders = (t, err)) (hopen : ¬ Ends err) :
    Consumes dec s.codec t.codec (.continues fragment endHeaders) := by
  unfold onContinuation at h
  cases happend : appendContinuation s.hdrAccum id fragment with
  | error e =>
    rw [happend] at h
    cases h
    exact absurd ⟨e, rfl, appendContinuation_error happend⟩ hopen
  | ok a =>
    rw [happend] at h
    obtain ⟨b, hacc, rfl⟩ := appendContinuation_ok happend
    have hbegun : s.codec.2 = some b.buf := by
      unfold codec
      rw [hacc]
      rfl
    cases endHeaders with
    | false =>
      cases h
      exact ⟨b.buf, hbegun, rfl⟩
    | true =>
      obtain ⟨⟨headers, hdec⟩, hnone⟩ := onHeaderBlock_decodes h hopen
      exact ⟨b.buf, hbegun, headers, hdec, hnone⟩

theorem codec_dispatchFrame (dec : BlockDecoder δ) (s : ServerConn δ) (hf : f.piece = .other) :
    (s.dispatchFrame dec f).1.codec = s.codec := by
  cases f with
  | headers id fragment endHeaders endStream priority => cases hf
  | continuation id fragment endHeaders => cases hf
  | data id payload padding endStream =>
    change (s.onData id payload endStream).1.codec = s.codec
    unfold onData
    dsimp only
    split
    · cases s.drainDone.stream id with
      | none => rfl
      | some ss =>
        dsimp only
        cases ss.recvData id payload endStream with
        | error err => rfl
        | ok ss' =>
          obtain ⟨w, d, upd, ss'', -, -, -, -, heq⟩ :=
            acceptData_parts s.drainDone id ss' payload.length endStream
          dsimp only
          rw [heq]
          cases endStream with
          | false => rfl
          | true => rfl
    · split_ifs
      all_goals rfl
  | settings ack params =>
    cases ack with
    | true => rfl
    | false =>
      obtain ⟨objects, cs, table, heq, -⟩ := applySettings_parts s none params
      change (s.onSettings false params).1.codec = s.codec
      unfold onSettings
      rw [if_neg Bool.false_ne_true]
      cases params.findSome? validateSetting with
      | some err => rfl
      | none =>
        revert heq
        rcases s.applySettings none params with ⟨t, err⟩
        intro heq
        change t = _ at heq
        cases err with
        | none =>
          rw [heq]
          rfl
        | some err =>
          rw [heq]
          rfl
  | ping ack =>
    cases ack with
    | true => rfl
    | false => rfl
  | windowUpdate id increment =>
    change (s.onWindowUpdate id increment.val).1.codec = s.codec
    unfold onWindowUpdate
    split
    · split_ifs
      all_goals rfl
    · split
      · cases s.stream id with
        | none => rfl
        | some ss =>
          dsimp only
          split_ifs
          all_goals rfl
      · split_ifs
        all_goals rfl
  | rstStream id code =>
    change (s.onRSTStream id).1.codec = s.codec
    unfold onRSTStream
    split
    · obtain ⟨objects, hclose⟩ := closeStream_parts ({ s with
        streams := s.streams.erase id
        closedStreams := insert id s.closedStreams } : ServerConn δ) id
      dsimp only
      rw [hclose]
      rfl
    · split_ifs
      · rfl
      · rfl
  | goaway => rfl
  | pushPromise => rfl
  | priority id dependency =>
    change (s.onPriority id dependency).1.codec = s.codec
    unfold onPriority
    split_ifs
    · rfl
    · rfl
  | unknown => rfl
  | malformed id code => rfl

theorem checkFrameOrder_of_takes (h : s.Takes f) : s.checkFrameOrder f = none := by
  have hread := h.2.2
  unfold readError at hread
  cases hparse : parseError (min s.settings.maxFrameSize 16777215) f with
  | some err =>
    rw [hparse] at hread
    cases hread
  | none =>
    rw [hparse] at hread
    exact hread

theorem hdrAccum_of_takes (h : s.Takes f)
    (hf : ∀ fragment last, f.piece ≠ .continues fragment last) : s.hdrAccum = none := by
  have horder := checkFrameOrder_of_takes h
  cases hacc : s.hdrAccum with
  | none => rfl
  | some a =>
    unfold checkFrameOrder at horder
    rw [hacc] at horder
    cases f with
    | continuation id fragment endHeaders => exact absurd rfl (hf fragment endHeaders)
    | _ => cases horder

theorem dispatchFrame_consumes (htakes : s.Takes f) (h : s.dispatchFrame dec f = (t, err))
    (hopen : ¬ Ends err) : Consumes dec s.codec t.codec f.piece := by
  have hother (hf : f.piece = .other) : Consumes dec s.codec t.codec f.piece := by
    have hsame := codec_dispatchFrame dec s hf
    have hnone : s.hdrAccum = none := by
      apply hdrAccum_of_takes htakes
      rw [hf]
      intro fragment last hne
      cases hne
    rw [h] at hsame
    rw [hf]
    change t.codec = (s.codec.1, none)
    rw [show t.codec = s.codec from hsame]
    unfold codec
    rw [hnone]
    rfl
  cases f with
  | headers id fragment endHeaders endStream priority =>
    have hnone : s.hdrAccum = none := by
      apply hdrAccum_of_takes htakes
      intro fragment last hne
      cases hne
    exact onHeaders_consumes hnone h hopen
  | continuation id fragment endHeaders => exact onContinuation_consumes h hopen
  | _ => exact hother rfl

theorem ends_of_answer (h : (answer (s, err)).stopped = none) : ¬ Ends err := by
  rintro ⟨e, rfl, hconn⟩
  unfold answer at h
  dsimp only at h
  rw [if_pos hconn] at h
  cases h

theorem codec_answer (s : ServerConn δ) (err : Option Error) :
    (answer (s, err)).codec = s.codec := by
  cases err with
  | none => rfl
  | some err =>
    unfold answer
    dsimp only
    split_ifs
    · rfl
    · rfl

theorem step_consumes (dec : BlockDecoder δ) (s : ServerConn δ) (e : Event) :
    StepConsumes dec (step dec) inbound Frame.piece codec (fun s => s.stopped = none) s e := by
  intro halive
  by_cases he : e.frame? = none
  · have hlocal := local_step dec s he
    refine ⟨hlocal.stopped.symm.trans halive, .inl ⟨?_, ?_⟩⟩
    · unfold inbound
      rw [he]
    · unfold codec
      rw [hlocal.hpack, hlocal.hdrAccum]
  · cases e with
    | frame f =>
      by_cases hloop : s.stopped = none ∧ s.adding = none
      · have hread : s.readError f = none := by
          by_contra hne
          obtain ⟨err, herr⟩ := Option.ne_none_iff_exists'.mp hne
          have hstep : step dec s (.frame f) =
              if err.stream = 0 then s.abort err.code
              else { s with stopped := some err.code } := by
            simp only [step, if_pos hloop, readFrame, herr]
          rw [hstep] at halive
          split_ifs at halive
          cases halive
        have htakes : s.Takes f := ⟨hloop.1, hloop.2, hread⟩
        refine ⟨hloop.1, .inr ⟨f, if_pos hloop, ?_⟩⟩
        rw [step_frame_taken htakes] at halive ⊢
        rcases hr : s.dispatchFrame dec f with ⟨t, err⟩
        rw [hr] at halive
        rw [codec_answer]
        exact dispatchFrame_consumes htakes hr (ends_of_answer halive)
      · have hstep : step dec s (.frame f) = s := if_neg hloop
        rw [hstep] at halive ⊢
        exact ⟨halive, .inl ⟨if_neg hloop, rfl⟩⟩
    | _ => exact absurd rfl he

end ServerConn

/-- The part a frame of the upstream peer has in a header block; a PUSH_PROMISE carries one too. -/
def PeerFrame.piece : PeerFrame → Piece UInt8
  | .headers _ fragment endHeaders _ => .opens fragment endHeaders
  | .pushPromise _ _ fragment endHeaders => .opens fragment endHeaders
  | .continuation _ fragment endHeaders => .continues fragment endHeaders
  | _ => .other

def PeerFrame.readPiece : PeerFrame → Piece UInt8
  | .pushPromise _ _ _ _ => .other
  | f => f.piece

/-- A PUSH_PROMISE that holds a whole header block. -/
def PeerFrame.promises : PeerFrame → Bool
  | .pushPromise _ _ _ endHeaders => endHeaders
  | _ => false

namespace ClientConn

variable {δ : Type}

def codec (s : ClientConn δ) : δ × Option Bytes :=
  (s.hpack, s.hdrAccum.map HeaderBlockAccumulator.buf)

def inbound (s : ClientConn δ) (e : ClientEvent) : List PeerFrame :=
  match e.frame? with
  | none => []
  | some f => if s.closed = false ∧ s.adding = none then [f] else []

theorem SameCodec.codec {s t : ClientConn δ} (h : SameCodec s t) : t.codec = s.codec := by
  unfold ClientConn.codec
  rw [h.hpack, h.hdrAccum]

theorem checkFrameOrder_of_takes {s : ClientConn δ} {f : PeerFrame} (h : s.Takes f) :
    s.checkFrameOrder f = none := by
  have hread := h.2.2
  unfold readError at hread
  cases hparse : f.parseError 16384 with
  | some err =>
    rw [hparse] at hread
    cases hread
  | none =>
    rw [hparse] at hread
    exact hread

theorem hdrAccum_of_takes {s : ClientConn δ} {f : PeerFrame} (h : s.Takes f)
    (hf : ∀ fragment last, f.readPiece ≠ .continues fragment last) : s.hdrAccum = none := by
  have horder := checkFrameOrder_of_takes h
  cases hacc : s.hdrAccum with
  | none => rfl
  | some a =>
    unfold checkFrameOrder at horder
    rw [hacc] at horder
    cases f with
    | continuation id fragment endHeaders => exact absurd rfl (hf fragment endHeaders)
    | _ => cases horder

theorem codec_applySettings (s : ClientConn δ) (params : List Setting) :
    (params.foldl applySetting s).codec = s.codec := by
  induction params generalizing s with
  | nil => rfl
  | cons st rest ih =>
    rw [List.foldl_cons, ih]
    unfold applySetting
    cases st.id with
    | _ => rfl

theorem onContinuation_consumes {dec : BlockDecoder δ} {s t : ClientConn δ} {id : ℕ}
    {fragment : Bytes} {endHeaders : Bool}
    (h : s.onContinuation dec id fragment endHeaders = (t, none)) :
    Consumes dec s.codec t.codec (.continues fragment endHeaders) := by
  unfold onContinuation at h
  cases happend : appendContinuation s.hdrAccum id fragment with
  | error e =>
    rw [happend] at h
    cases h
  | ok a =>
    rw [happend] at h
    obtain ⟨b, hacc, rfl⟩ := appendContinuation_ok happend
    have hbegun : s.codec.2 = some b.buf := by
      unfold codec
      rw [hacc]
      rfl
    cases endHeaders with
    | false =>
      cases h
      exact ⟨b.buf, hbegun, rfl⟩
    | true =>
      have htaken := blockTaken_onResponseHeaderBlock dec
        ({ s with hdrAccum := none } : ClientConn δ) b.stream (b.buf ++ fragment) b.endStream
      have hresult : ({ s with hdrAccum := none } : ClientConn δ).onResponseHeaderBlock dec
        b.stream (b.buf ++ fragment) b.endStream = (t, none) := h
      rw [hresult] at htaken
      obtain ⟨headers, hdec⟩ := htaken.fed rfl
      refine ⟨b.buf, hbegun, headers, hdec, ?_⟩
      unfold codec
      rw [show t.hdrAccum = none from htaken.hdrAccum]
      rfl

theorem dispatchFrame_consumes {dec : BlockDecoder δ} {s t : ClientConn δ} {f : PeerFrame}
    (htakes : s.Takes f) (h : s.dispatchFrame dec f = (t, none)) :
    Consumes dec s.codec t.codec f.readPiece := by
  have hfirst (hf : ∀ fragment last, f.readPiece ≠ .continues fragment last) :
      s.codec.2 = none := by
    unfold codec
    rw [hdrAccum_of_takes htakes hf]
    rfl
  have hother (hf : f.readPiece = .other) (hsame : t.codec = s.codec) :
      Consumes dec s.codec t.codec f.readPiece := by
    have hnone : s.codec.2 = none := by
      apply hfirst
      rw [hf]
      intro fragment last hne
      cases hne
    rw [hf, hsame]
    exact Prod.ext rfl hnone
  have hsame (hf : f.touchesCodec = false) : t.codec = s.codec := by
    have hcodec := sameCodec_dispatchFrame dec s hf
    rw [h] at hcodec
    exact hcodec.codec
  cases f with
  | headers id fragment endHeaders endStream =>
    cases endHeaders with
    | false =>
      cases h
      rfl
    | true =>
      have htaken := blockTaken_onResponseHeaderBlock dec s id fragment endStream
      have hresult : s.onResponseHeaderBlock dec id fragment endStream = (t, none) := h
      rw [hresult] at htaken
      obtain ⟨headers, hdec⟩ := htaken.fed rfl
      have hnone := hfirst (fun fragment last hne => by cases hne)
      refine ⟨headers, hdec, ?_⟩
      rw [← hnone]
      unfold codec
      rw [show t.hdrAccum = s.hdrAccum from htaken.hdrAccum]
  | continuation id fragment endHeaders => exact onContinuation_consumes h
  | settings ack params =>
    cases ack with
    | true => exact hother rfl (hsame rfl)
    | false =>
      cases h
      exact hother rfl (codec_applySettings s params)
  | _ => exact hother rfl (hsame rfl)

theorem step_consumes (dec : BlockDecoder δ) (s : ClientConn δ) (e : ClientEvent) :
    StepConsumes dec (step dec) inbound PeerFrame.readPiece codec (fun s => s.closed = false) s
      e := by
  intro halive
  by_cases he : e.frame? = none
  · refine ⟨?_, .inl ⟨?_, (sameCodec_local dec s he).codec⟩⟩
    · by_contra hclosed
      have h := closed_local dec he (Bool.not_eq_false _ ▸ hclosed)
      rw [halive] at h
      cases h
    · unfold inbound
      rw [he]
  · cases e with
    | frame f =>
      by_cases hloop : s.closed = false ∧ s.adding = none
      · have hread : s.readError f = none := by
          by_contra hne
          obtain ⟨err, herr⟩ := Option.ne_none_iff_exists'.mp hne
          have hstep : step dec s (.frame f) = { s with closed := true } := by
            simp only [step, if_pos hloop, readFrame, herr]
          rw [hstep] at halive
          cases halive
        have htakes : s.Takes f := ⟨hloop.1, hloop.2, hread⟩
        refine ⟨hloop.1, .inr ⟨f, if_pos hloop, ?_⟩⟩
        rw [step_frame_taken htakes] at halive ⊢
        rcases hr : s.dispatchFrame dec f with ⟨t, err⟩
        rw [hr] at halive
        cases err with
        | some err => cases halive
        | none => exact dispatchFrame_consumes htakes hr
      · have hstep : step dec s (.frame f) = s := if_neg hloop
        rw [hstep] at halive ⊢
        exact ⟨halive, .inl ⟨if_neg hloop, rfl⟩⟩
    | _ => exact absurd rfl he

end ClientConn

/-- The blocks as sent and as read, after the same frames: a message begun is the same on both
sides or there is none on the reader's, and the sender has one more for each whole promise. -/
structure Compared (fs : List PeerFrame) (sent read : Option Bytes × List Bytes) : Prop where
  begun : read.1 = none ∨ sent.1 = read.1
  count : sent.2.length = read.2.length + fs.countP PeerFrame.promises
  blocks : fs.countP PeerFrame.promises = 0 → sent.2 = read.2

theorem compared_same {fs : List PeerFrame} {sent read : Option Bytes × List Bytes}
    (h : Compared fs sent read) {f : PeerFrame} (hno : f.promises = false) {p : Piece UInt8}
    (hp : ∀ fragment last, p = .continues fragment last → read.1 ≠ none) :
    Compared (fs ++ [f]) (assemble sent p) (assemble read p) := by
  obtain ⟨hbegun, hcount, hblocks⟩ := h
  have hpromises : (fs ++ [f]).countP PeerFrame.promises = fs.countP PeerFrame.promises := by
    rw [List.countP_append, List.countP_singleton, if_neg (by rw [hno]; decide), Nat.add_zero]
  -- a complete block goes to both lists
  have hwhole (m : Bytes) : Compared (fs ++ [f]) (none, sent.2 ++ [m]) (none, read.2 ++ [m]) := by
    refine ⟨.inl rfl, ?_, ?_⟩
    · rw [hpromises, List.length_append, List.length_append]
      change sent.2.length + 1 = read.2.length + 1 + _
      omega
    · intro hzero
      rw [hpromises] at hzero
      dsimp only
      rw [hblocks hzero]
  have hpart (m : Option Bytes) : Compared (fs ++ [f]) (m, sent.2) (m, read.2) := by
    refine ⟨.inr rfl, ?_, ?_⟩
    · rw [hpromises]
      exact hcount
    · rw [hpromises]
      exact hblocks
  cases p with
  | opens fragment last =>
    cases last with
    | false => exact hpart (some fragment)
    | true => exact hwhole fragment
  | continues fragment last =>
    have hopen := hp fragment last rfl
    have hequal := hbegun.resolve_left hopen
    obtain ⟨begun, hb⟩ := Option.ne_none_iff_exists'.mp hopen
    unfold assemble
    rw [hequal, hb]
    cases last with
    | false => exact hpart (some (begun ++ fragment))
    | true => exact hwhole (begun ++ fragment)
  | other => exact hpart none

theorem compared_assemble {fs : List PeerFrame} {sent read : Option Bytes × List Bytes}
    (h : Compared fs sent read) (f : PeerFrame)
    (hf : ∀ fragment last, f.readPiece = .continues fragment last → read.1 ≠ none) :
    Compared (fs ++ [f]) (assemble sent f.piece) (assemble read f.readPiece) := by
  cases f with
  | pushPromise id promised fragment endHeaders =>
    obtain ⟨hbegun, hcount, hblocks⟩ := h
    cases endHeaders with
    | false =>
      have hpromises : (fs ++ [PeerFrame.pushPromise id promised fragment false]).countP
          PeerFrame.promises = fs.countP PeerFrame.promises := by
        rw [List.countP_append]
        rfl
      refine ⟨.inl rfl, ?_, ?_⟩
      · rw [hpromises]
        exact hcount
      · rw [hpromises]
        exact hblocks
    | true =>
      have hpromises : (fs ++ [PeerFrame.pushPromise id promised fragment true]).countP
          PeerFrame.promises = fs.countP PeerFrame.promises + 1 := by
        rw [List.countP_append]
        rfl
      refine ⟨.inl rfl, ?_, ?_⟩
      · rw [hpromises]
        change (sent.2 ++ [fragment]).length = read.2.length + _
        rw [List.length_append, List.length_singleton]
        omega
      · intro hzero
        omega
  | _ => exact compared_same h rfl hf

theorem compared_run {δ : Type} (dec : BlockDecoder δ) {s : ClientConn δ}
    (hs : s.codec.2 = none) (es : List ClientEvent) :
    let p := es.foldl (watch (ClientConn.step dec) ClientConn.inbound) (s, [])
    p.1.closed = false → Compared p.2 (assembled (p.2.map PeerFrame.piece))
      (assembled (p.2.map PeerFrame.readPiece)) := by
  induction es using List.reverseRecOn with
  | nil =>
    intro p _
    exact ⟨.inl rfl, rfl, fun _ => rfl⟩
  | append_singleton es e ih =>
    intro p halive
    have hin := inStep_run (ClientConn.step_consumes dec) hs es
    have hfold : p = watch (ClientConn.step dec) ClientConn.inbound
        (es.foldl (watch (ClientConn.step dec) ClientConn.inbound) (s, [])) e := by
      rw [show p = _ from List.foldl_append, List.foldl_cons, List.foldl_nil]
    revert ih hin
    generalize es.foldl (watch (ClientConn.step dec) ClientConn.inbound) (s, []) = q at hfold
    intro ih hin
    rw [hfold] at halive ⊢
    unfold watch at halive ⊢
    dsimp only at halive ih hin ⊢
    obtain ⟨hbefore, hread⟩ := ClientConn.step_consumes dec q.1 e halive
    rcases hread with ⟨hnone, -⟩ | ⟨f, hf, hconsumed⟩
    · rw [hnone, List.append_nil]
      exact ih hbefore
    · rw [hf, List.map_append, List.map_singleton, assembled_concat, List.map_append,
        List.map_singleton, assembled_concat]
      apply compared_assemble (ih hbefore)
      intro fragment last hpiece
      rw [hpiece] at hconsumed
      rw [← (hin hbefore).2]
      cases last with
      | false =>
        obtain ⟨begun, hb, -⟩ := hconsumed
        rw [hb]
        exact Option.some_ne_none begun
      | true =>
        obtain ⟨begun, hb, -⟩ := hconsumed
        rw [hb]
        exact Option.some_ne_none begun

/-- The header decoder of a connection that has not been torn down has been fed with the header
blocks of the peer, each whole, once and in order; a client connection misses those of a
PUSH_PROMISE and no others. -/
theorem decoder_fed_with_blocks_sent {δ : Type} (dec : BlockDecoder δ) (hpack : δ)
    (cs : ClientSettings) :
    (∀ (settings : ServerSettings) (es : List Event),
      let p := es.foldl (watch (ServerConn.step (logged dec)) ServerConn.inbound)
        (newServerConn (hpack, []) settings cs, [])
      p.1.stopped = none → p.1.hpack.2 = (assembled (p.2.map Frame.piece)).2) ∧
    ∀ es : List ClientEvent,
      let p := es.foldl (watch (ClientConn.step (logged dec)) ClientConn.inbound)
        (newClientConn (hpack, []) cs, [])
      p.1.closed = false → (p.1.hpack.2 = (assembled (p.2.map PeerFrame.piece)).2 ↔
        ∀ f ∈ p.2, f.promises = false) := by
  constructor
  · intro settings es p halive
    have hin := inStep_run (ServerConn.step_consumes (logged dec))
      (s := newServerConn (hpack, []) settings cs) rfl es halive
    have hlog := feed_logged dec hin.1
    exact hlog
  · intro es p halive
    have hin := inStep_run (ClientConn.step_consumes (logged dec))
      (s := newClientConn (hpack, []) cs) rfl es halive
    have hlog : p.1.hpack.2 = (assembled (p.2.map PeerFrame.readPiece)).2 :=
      feed_logged dec hin.1
    have hcompared : Compared p.2 (assembled (p.2.map PeerFrame.piece))
        (assembled (p.2.map PeerFrame.readPiece)) :=
      compared_run (logged dec) (s := newClientConn (hpack, []) cs) rfl es halive
    rw [hlog]
    constructor
    · intro heq
      have hlength := congrArg List.length heq
      have hcount := hcompared.count
      have hzero : p.2.countP PeerFrame.promises = 0 := by omega
      intro f hf
      simpa using List.countP_eq_zero.mp hzero f hf
    · intro hall
      have hzero : p.2.countP PeerFrame.promises = 0 := by
        apply List.countP_eq_zero.mpr
        intro f hf
        rw [hall f hf]
        decide
      exact (hcompared.blocks hzero).symm

/-- A response header block in two frames, and one on a stream that was reset meanwhile. -/
theorem split_block_fed_once :
    let es := [ClientEvent.start 0, .headers 1, .start 0, .headers 3, .cancel 3, .leave 3,
      .frame (.headers 1 [1] false false), .frame (.continuation 1 [2] true),
      .frame (.headers 3 [3] true false)]
    let p := es.foldl (watch (ClientConn.step (logged blankDecoder)) ClientConn.inbound)
      (newClientConn ((), []) {}, [])
    p.1.closed = false ∧ p.1.hpack.2 = (assembled (p.2.map PeerFrame.piece)).2 := by
  intro es p
  have hopen : p.1.closed = false := by decide
  have h := (decoder_fed_with_blocks_sent blankDecoder () {}).2 es hopen
  exact ⟨hopen, h.mpr (by decide)⟩

/-- The header block of a PUSH_PROMISE is dropped, and the connection stays open. -/
theorem promised_block_dropped :
    let p := [ClientEvent.frame (.pushPromise 1 2 [1] true)].foldl
      (watch (ClientConn.step (logged blankDecoder)) ClientConn.inbound)
      (newClientConn ((), []) {}, [])
    p.1.closed = false ∧ p.1.hpack.2 = [] ∧ (assembled (p.2.map PeerFrame.piece)).2 = [[1]] := by
  decide

end EnvoyGo.H2

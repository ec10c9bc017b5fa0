import EnvoyGo.H2ClientMoves

/-!
What becomes of the streams of an upstream connection: how a step moves the calls, which streams it
fails or resets, and which of the reset numbers it still retains.
-/

namespace EnvoyGo.H2

def Error.FromPeer (err : Error) : Prop :=
  err.msg = "client: peer RST_STREAM" ∨ err.msg = "client: peer GOAWAY"

namespace ClientConn

variable {δ : Type}

def inProgress (s : ClientConn δ) (id : ℕ) : Bool :=
  match s.call id with
  | none => false
  | some .leaving => false
  | some _ => true

def fate (s : ClientConn δ) (id : ℕ) : Option (Option Error) :=
  (s.stream id).bind ClientStream.done

def blocked (s : ClientConn δ) (id : ℕ) : Bool :=
  match s.call id with
  | some (.body w) => decide (w.phase = .stream ∨ w.phase = .conn)
  | _ => false

def wholeBlock (s : ClientConn δ) : PeerFrame → Option HeaderBlockAccumulator
  | .headers id fragment true endStream => some ⟨id, fragment, endStream, none⟩
  | .continuation id fragment true => (appendContinuation s.hdrAccum id fragment).toOption
  | _ => none

def refuses (dec : BlockDecoder δ) (s : ClientConn δ) (a : HeaderBlockAccumulator) : Bool :=
  match s.lookupStream a.stream, dec s.hpack a.buf with
  | some cs, some (decoded, _) =>
    if cs.respHeadersSeen then (validateResponseTrailers a.stream decoded a.endStream).isSome
    else (validateResponseHeaders a.stream false decoded).isSome
  | _, _ => false

def resetBy (dec : BlockDecoder δ) (s : ClientConn δ) : ClientEvent → Option ℕ
  | .cancel id => if s.call id = some .waiting then some id else none
  | .frame f =>
    if s.Takes f then ((s.wholeBlock f).filter (s.refuses dec)).map (·.stream) else none
  | _ => none

/-- The stream the peer ends with a frame. -/
def ends (s : ClientConn δ) : PeerFrame → Option ℕ
  | .data id _ _ endStream => if endStream then some id else none
  | .rstStream id _ => some id
  | f => ((s.wholeBlock f).filter (·.endStream)).map (·.stream)

def endedBy (s : ClientConn δ) : ClientEvent → Option ℕ
  | .frame f => if s.Takes f then s.ends f else none
  | _ => none

/-- What a frame may ask of the connection: credit that fits the stream, unless the stream is
retained or over, and on a stream that nobody waits for a block that can be gathered and decoded. -/
def manageable (dec : BlockDecoder δ) (s : ClientConn δ) : PeerFrame → Bool
  | .windowUpdate id increment =>
    match s.lookupStream id with
    | some cs => cs.done.isSome || cs.sendW.fits increment.val || decide (id ∈ s.resetStreams)
    | none => true
  | .headers id fragment true _ => s.inProgress id || (dec s.hpack fragment).isSome
  | .continuation id fragment endHeaders =>
    s.inProgress id ||
      match appendContinuation s.hdrAccum id fragment with
      | .error _ => false
      | .ok a => !endHeaders || (dec s.hpack a.buf).isSome
  | _ => true

def orderly (dec : BlockDecoder δ) (s : ClientConn δ) : ClientEvent → Bool
  | .cancel id => !s.blocked id || decide (id ∈ s.resetStreams)
  | .frame f => !decide (s.Takes f) || s.manageable dec f
  | _ => true

/-- And no retained stream is pruned while its RoundTrip goes on. -/
def Orderly (dec : BlockDecoder δ) (s : ClientConn δ) (e : ClientEvent) : Prop :=
  s.orderly dec e = true ∧ ∀ newer ∈ s.resetBy dec e, ∀ old ∈ s.resetStreams,
    old + resetRetainWindow < newer → s.inProgress old = false

instance (dec : BlockDecoder δ) (s : ClientConn δ) (e : ClientEvent) :
    Decidable (s.Orderly dec e) := inferInstanceAs (Decidable (_ ∧ _))

structure SameCalls (s t : ClientConn δ) : Prop where
  call : t.call = s.call
  streams : t.streams = s.streams
  nextStreamID : t.nextStreamID = s.nextStreamID
  exits : t.exits = s.exits

variable {s t u : ClientConn δ} {lost : ℕ → Prop} {id : ℕ} {cs : ClientStream}
  {dec : BlockDecoder δ} {f : PeerFrame} {e : ClientEvent}

theorem SameCalls.trans (h : SameCalls s t) (h' : SameCalls t u) : SameCalls s u :=
  ⟨h'.call.trans h.call, h'.streams.trans h.streams, h'.nextStreamID.trans h.nextStreamID,
    h'.exits.trans h.exits⟩

structure SameFates (s t : ClientConn δ) : Prop where
  resetStreams : t.resetStreams = s.resetStreams
  lives : ∀ id, s.stream id ≠ none → t.stream id ≠ none
  fates : ∀ id err, t.fate id = some (some err) → ¬ err.FromPeer → s.fate id = some (some err)

/-- A stream that fails here is retained, and of the retained ones only `lost` may go. -/
structure Follows (lost : ℕ → Prop) (s t : ClientConn δ) : Prop where
  lives : ∀ id, s.stream id ≠ none → t.stream id ≠ none
  fates : ∀ id err, t.fate id = some (some err) → ¬ err.FromPeer →
    s.fate id = some (some err) ∨ id ∈ t.resetStreams
  kept : ∀ id ∈ s.resetStreams, id ∈ t.resetStreams ∨ lost id

theorem SameFates.of_stream (hstream : t.stream = s.stream)
    (hreset : t.resetStreams = s.resetStreams) : SameFates s t := by
  refine ⟨hreset, fun id h => ?_, fun id err h _ => ?_⟩
  · rw [hstream]
    exact h
  · unfold fate at h ⊢
    rw [← hstream]
    exact h

theorem SameFates.trans (h : SameFates s t) (h' : SameFates t u) : SameFates s u :=
  ⟨h'.resetStreams.trans h.resetStreams, fun id hid => h'.lives id (h.lives id hid),
    fun id err hid hown => h.fates id err (h'.fates id err hid hown) hown⟩

theorem SameFates.follows (h : SameFates s t) : Follows lost s t := by
  refine ⟨h.lives, fun id err hid hown => .inl (h.fates id err hid hown), fun id hid => .inl ?_⟩
  rw [h.resetStreams]
  exact hid

theorem Follows.then (h : Follows lost s t) (h' : SameFates t u) : Follows lost s u := by
  refine ⟨fun id hid => h'.lives id (h.lives id hid), ?_, ?_⟩
  · intro id err hid hown
    rw [h'.resetStreams]
    exact h.fates id err (h'.fates id err hid hown) hown
  · rw [h'.resetStreams]
    exact h.kept

theorem Follows.mono {lost' : ℕ → Prop} (h : Follows lost s t) (hle : ∀ id, lost id → lost' id) :
    Follows lost' s t :=
  ⟨h.lives, h.fates, fun id hid => (h.kept id hid).imp_right (hle id)⟩

theorem fate_setStream (s : ClientConn δ) (id j : ℕ) (cs : ClientStream) :
    (s.setStream id cs).fate j = if j = id then cs.done else s.fate j := by
  unfold fate setStream
  by_cases hj : j = id
  · subst hj
    simp only [Function.update_self, Option.bind_some, if_true]
  · simp only [Function.update_of_ne hj, hj, if_false]

theorem fate_of_stream (h : s.stream id = some cs) : s.fate id = cs.done := by
  unfold fate
  rw [h]
  rfl

theorem setStream_lives (s : ClientConn δ) (id : ℕ) (cs : ClientStream) (j : ℕ)
    (h : s.stream j ≠ none) : (s.setStream id cs).stream j ≠ none := by
  unfold setStream
  by_cases hj : j = id
  · subst hj
    simp only [Function.update_self, ne_eq, reduceCtorEq, not_false_eq_true]
  · simp only [Function.update_of_ne hj]
    exact h

theorem sameFates_setStream (s : ClientConn δ) (id : ℕ) (cs : ClientStream)
    (h : ∀ err, cs.done = some (some err) → ¬ err.FromPeer → s.fate id = some (some err)) :
    SameFates s (s.setStream id cs) := by
  refine ⟨rfl, setStream_lives s id cs, ?_⟩
  intro j err hj hown
  rw [fate_setStream] at hj
  by_cases hjid : j = id
  · subst hjid
    rw [if_pos rfl] at hj
    exact h err hj hown
  · rw [if_neg hjid] at hj
    exact hj

theorem done_finish (cs : ClientStream) (err : Option Error) :
    (cs.finish err).done = some err ∨ (cs.finish err).done = cs.done := by
  unfold ClientStream.finish
  split_ifs
  · exact .inl rfl
  · exact .inr rfl

theorem sameFates_finishStream (s : ClientConn δ) (id : ℕ) (err : Option Error)
    (herr : ∀ e, err = some e → e.FromPeer) : SameFates s (s.finishStream id err) := by
  unfold finishStream
  cases hstream : s.stream id with
  | none => exact .of_stream rfl rfl
  | some cs =>
    apply sameFates_setStream
    intro e he hown
    rw [fate_of_stream hstream]
    rcases done_finish cs err with h | h
    · rw [h] at he
      exact absurd (herr e (Option.some.inj he)) hown
    · rw [← h]
      exact he

structure Quiet (s t : ClientConn δ) : Prop extends SameCalls s t, SameFates s t

theorem Quiet.refl (s : ClientConn δ) : Quiet s s := ⟨⟨rfl, rfl, rfl, rfl⟩, .of_stream rfl rfl⟩

theorem Quiet.trans (h : Quiet s t) (h' : Quiet t u) : Quiet s u :=
  ⟨h.toSameCalls.trans h'.toSameCalls, h.toSameFates.trans h'.toSameFates⟩

theorem quiet_write (s : ClientConn δ) (f : WireFrame) : Quiet s (s.write f) :=
  ⟨⟨rfl, rfl, rfl, rfl⟩, .of_stream rfl rfl⟩

theorem sameCalls_finishStream (s : ClientConn δ) (id : ℕ) (err : Option Error) :
    SameCalls s (s.finishStream id err) := by
  unfold finishStream
  cases s.stream id with
  | none => exact ⟨rfl, rfl, rfl, rfl⟩
  | some cs => exact ⟨rfl, rfl, rfl, rfl⟩

theorem quiet_finishStream (s : ClientConn δ) (id : ℕ) (err : Option Error)
    (herr : ∀ e, err = some e → e.FromPeer) : Quiet s (s.finishStream id err) :=
  ⟨sameCalls_finishStream s id err, sameFates_finishStream s id err herr⟩

theorem quiet_answered (s : ClientConn δ) (id : ℕ) : Quiet s (s.finishStream id none) :=
  quiet_finishStream s id none (fun _ h => by cases h)

theorem quiet_setStream (cs' : ClientStream) (h : s.stream id = some cs)
    (hdone : cs'.done = cs.done) : Quiet s (s.setStream id cs') := by
  refine ⟨⟨rfl, rfl, rfl, rfl⟩, sameFates_setStream s id cs' ?_⟩
  intro err herr _
  rw [fate_of_stream h, ← hdone]
  exact herr

theorem quiet_emitGoaway (s : ClientConn δ) (code : ErrCode) : Quiet s (s.emitGoaway code) := by
  unfold emitGoaway
  split_ifs
  · exact .refl s
  · exact ⟨⟨rfl, rfl, rfl, rfl⟩, .of_stream rfl rfl⟩

theorem stream_debitConnRecvWindow (s : ClientConn δ) (dataLen : ℤ) :
    (s.debitConnRecvWindow dataLen).stream = s.stream := by
  unfold debitConnRecvWindow
  dsimp only
  split_ifs
  all_goals rfl

theorem quiet_debitConnRecvWindow (s : ClientConn δ) (dataLen : ℤ) :
    Quiet s (s.debitConnRecvWindow dataLen) := by
  unfold debitConnRecvWindow
  dsimp only
  split_ifs
  · exact .refl s
  · exact ⟨⟨rfl, rfl, rfl, rfl⟩, .of_stream rfl rfl⟩
  · exact ⟨⟨rfl, rfl, rfl, rfl⟩, .of_stream rfl rfl⟩

theorem quiet_applySettings (s : ClientConn δ) (params : List Setting) :
    Quiet s (params.foldl applySetting s) := by
  induction params generalizing s with
  | nil => exact .refl s
  | cons st rest ih =>
    have hone : Quiet s (s.applySetting st) := by
      unfold applySetting
      cases st.id with
      | other n => exact .refl s
      | _ => exact ⟨⟨rfl, rfl, rfl, rfl⟩, .of_stream rfl rfl⟩
    exact hone.trans (ih _)

theorem quiet_onGoaway (s : ClientConn δ) (lastStream : ℕ) (code : ErrCode) :
    Quiet s (s.onGoaway lastStream code) := by
  refine ⟨⟨rfl, rfl, rfl, rfl⟩, rfl, ?_, ?_⟩
  · intro id hid
    unfold onGoaway
    dsimp only
    split_ifs
    · intro hnone
      exact hid (Option.map_eq_none_iff.mp hnone)
    · exact hid
  · intro id err hfate hown
    unfold fate onGoaway at hfate
    dsimp only at hfate
    split_ifs at hfate
    · cases hstream : s.stream id with
      | none =>
        rw [hstream] at hfate
        cases hfate
      | some cs =>
        rw [hstream] at hfate
        change (cs.finish _).done = some (some err) at hfate
        rw [fate_of_stream hstream]
        rcases done_finish cs (some (streamError code id "client: peer GOAWAY")) with h | h
        · rw [h] at hfate
          cases hfate
          exact absurd (.inr rfl) hown
        · rw [← h]
          exact hfate
    · exact hfate

theorem quiet_acceptData (h : s.stream id = some cs) (payload : Bytes) (endStream : Bool) :
    Quiet s (s.acceptData id cs payload endStream) := by
  have hfinish {t : ClientConn δ} (ht : Quiet s t) :
      Quiet s (if endStream then t.finishStream id none else t) := by
    split_ifs
    · exact ht.trans (quiet_answered t id)
    · exact ht
  have hdebit := quiet_debitConnRecvWindow s (payload.length : ℤ)
  have hstream : (s.debitConnRecvWindow payload.length).stream id = some cs := by
    rw [stream_debitConnRecvWindow]
    exact h
  unfold acceptData
  apply hfinish
  dsimp only
  split_ifs
  · refine Quiet.trans ?_ (quiet_write _ _)
    exact hdebit.trans (quiet_setStream _ hstream rfl)
  · exact hdebit.trans (quiet_setStream _ hstream rfl)
  · exact .refl s

structure FrameTurn (lost : ℕ → Prop) (s t : ClientConn δ) : Prop
    extends SameCalls s t, Follows lost s t

theorem Quiet.turn (h : Quiet s t) : FrameTurn lost s t :=
  ⟨h.toSameCalls, h.toSameFates.follows⟩

theorem FrameTurn.then (h : FrameTurn lost s t) (h' : Quiet t u) : FrameTurn lost s u :=
  ⟨h.toSameCalls.trans h'.toSameCalls, h.toFollows.then h'.toSameFates⟩

theorem FrameTurn.mono {lost' : ℕ → Prop} (h : FrameTurn lost s t)
    (hle : ∀ id, lost id → lost' id) : FrameTurn lost' s t :=
  ⟨h.toSameCalls, h.toFollows.mono hle⟩

theorem turn_wasReset (s : ClientConn δ) (id : ℕ) (done : Bool) :
    FrameTurn (fun j => j = id ∧ done = true) s (s.wasReset id done).1 := by
  unfold wasReset
  split_ifs with hmem hdone
  · refine ⟨⟨rfl, rfl, rfl, rfl⟩, fun _ h => h, fun _ _ h _ => .inl h, ?_⟩
    intro j hj
    by_cases hjid : j = id
    · exact .inr ⟨hjid, hdone⟩
    · exact .inl (Finset.mem_erase.mpr ⟨hjid, hj⟩)
  · exact (Quiet.refl s).turn
  · exact (Quiet.refl s).turn

theorem mem_markReset (s : ClientConn δ) (id : ℕ) : id ∈ (s.markReset id).resetStreams := by
  have hself : ¬ id + resetRetainWindow < id := by omega
  exact Finset.mem_filter.mpr ⟨Finset.mem_insert_self id _, hself⟩

theorem markReset_keeps {j : ℕ} (h : j ∈ s.resetStreams) :
    j ∈ (s.markReset id).resetStreams ∨ j + resetRetainWindow < id := by
  by_cases hfar : j + resetRetainWindow < id
  · exact .inr hfar
  · exact .inl (Finset.mem_filter.mpr ⟨Finset.mem_insert_of_mem h, hfar⟩)

theorem turn_rejected (s : ClientConn δ) (id : ℕ) (err : Error) :
    FrameTurn (fun j => j + resetRetainWindow < id) s
      (((s.markReset id).write (.rstStream id .internalError)).finishStream id (some err)) := by
  have hcalls := sameCalls_finishStream
    ((s.markReset id).write (.rstStream id .internalError)) id (some err)
  refine ⟨⟨hcalls.call, hcalls.streams, hcalls.nextStreamID, hcalls.exits⟩, ?_⟩
  have hread :
      ((s.markReset id).write (.rstStream id .internalError)).stream id = s.stream id := rfl
  unfold finishStream
  rw [hread]
  cases hstream : s.stream id with
  | none => exact ⟨fun _ h => h, fun _ _ h _ => .inl h, fun j hj => markReset_keeps hj⟩
  | some cs =>
    refine ⟨fun j hj => setStream_lives _ id _ j hj, ?_, fun j hj => markReset_keeps hj⟩
    intro j e hj _
    rw [fate_setStream] at hj
    by_cases hjid : j = id
    · subst hjid
      exact .inr (mem_markReset s j)
    · rw [if_neg hjid] at hj
      exact .inl hj

def BlockLoses (dec : BlockDecoder δ) (s : ClientConn δ) (a : HeaderBlockAccumulator) (j : ℕ) :
    Prop :=
  (s.refuses dec a = true ∧ j + resetRetainWindow < a.stream) ∨
    (a.endStream = true ∧ j = a.stream ∧ s.lookupStream j = none)

theorem stream_of_lookupStream (h : s.lookupStream id = some cs) :
    id ∈ s.streams ∧ s.stream id = some cs := by
  unfold lookupStream at h
  split_ifs at h with hmem
  · exact ⟨hmem, h⟩

theorem turn_onDecodedBlock (dec : BlockDecoder δ) {a : HeaderBlockAccumulator}
    {decoded : OrderedHeaders} {hpack : δ} (hcs : s.lookupStream a.stream = some cs)
    (hdec : dec s.hpack a.buf = some (decoded, hpack)) :
    FrameTurn (s.BlockLoses dec a) s
      (({ s with hpack := hpack } : ClientConn δ).onDecodedBlock a.stream cs decoded
        a.endStream) := by
  have hstream := (stream_of_lookupStream hcs).2
  have hhpack : Quiet s ({ s with hpack := hpack } : ClientConn δ) :=
    ⟨⟨rfl, rfl, rfl, rfl⟩, .of_stream rfl rfl⟩
  have hreject (err : Error) (href : s.refuses dec a = true) : FrameTurn (s.BlockLoses dec a) s
      (((({ s with hpack := hpack } : ClientConn δ).markReset a.stream).write
        (.rstStream a.stream .internalError)).finishStream a.stream (some err)) := by
    have hturn := turn_rejected ({ s with hpack := hpack } : ClientConn δ) a.stream err
    have hfirst : FrameTurn (fun j => j + resetRetainWindow < a.stream) s _ :=
      ⟨hhpack.toSameCalls.trans hturn.toSameCalls, hturn.lives, hturn.fates, hturn.kept⟩
    exact hfirst.mono (fun j hj => .inl ⟨href, hj⟩)
  have hretain (cs' : ClientStream) (hdone : cs'.done = cs.done) :
      FrameTurn (s.BlockLoses dec a) s
        (if a.endStream = true then
          (({ s with hpack := hpack } : ClientConn δ).setStream a.stream cs').finishStream
            a.stream none
        else ({ s with hpack := hpack } : ClientConn δ).setStream a.stream cs') := by
    have hset := hhpack.trans (quiet_setStream cs' hstream hdone)
    split_ifs
    · exact (hset.trans (quiet_answered _ _)).turn
    · exact hset.turn
  unfold onDecodedBlock
  dsimp only
  by_cases hseen : cs.respHeadersSeen = true
  · rw [if_pos hseen]
    cases hverr : validateResponseTrailers a.stream decoded a.endStream with
    | some err =>
      refine hreject err ?_
      simp only [refuses, hcs, hdec, hseen, if_true, hverr, Option.isSome_some]
    | none => exact hretain _ rfl
  · rw [if_neg hseen]
    cases hverr : validateResponseHeaders a.stream false decoded with
    | some err =>
      refine hreject err ?_
      simp only [refuses, hcs, hdec, hseen, hverr, Option.isSome_some, Bool.false_eq_true,
        if_false]
    | none => exact hretain _ rfl

theorem turn_onResponseHeaderBlock (dec : BlockDecoder δ) (s : ClientConn δ)
    (a : HeaderBlockAccumulator) :
    FrameTurn (s.BlockLoses dec a) s
      (s.onResponseHeaderBlock dec a.stream a.buf a.endStream).1 := by
  have hreset := turn_wasReset s a.stream a.endStream
  unfold onResponseHeaderBlock
  cases hlook : s.lookupStream a.stream with
  | none =>
    have hlost : FrameTurn (s.BlockLoses dec a) s (s.wasReset a.stream a.endStream).1 := by
      refine hreset.mono ?_
      rintro j ⟨rfl, hend⟩
      exact .inr ⟨hend, rfl, hlook⟩
    revert hlost
    rcases s.wasReset a.stream a.endStream with ⟨t, found⟩
    intro hlost
    cases found with
    | false => exact hlost.then (quiet_emitGoaway t _)
    | true =>
      cases hdec : dec t.hpack a.buf with
      | none =>
        simp only [hdec]
        exact hlost.then (quiet_emitGoaway t _)
      | some out =>
        obtain ⟨decoded, hpack⟩ := out
        simp only [hdec]
        exact hlost.then ⟨⟨rfl, rfl, rfl, rfl⟩, .of_stream rfl rfl⟩
  | some cs =>
    cases hdec : dec s.hpack a.buf with
    | none => exact (quiet_emitGoaway s _).turn
    | some out =>
      obtain ⟨decoded, hpack⟩ := out
      exact turn_onDecodedBlock dec hlook hdec

def FrameLoses (dec : BlockDecoder δ) (s : ClientConn δ) (f : PeerFrame) (j : ℕ) : Prop :=
  (∃ newer, ((s.wholeBlock f).filter (s.refuses dec)).map (·.stream) = some newer ∧
    j + resetRetainWindow < newer) ∨ (s.ends f = some j ∧ s.lookupStream j = none)

theorem frameLoses_of_block {a : HeaderBlockAccumulator} {j : ℕ}
    (hwhole : s.wholeBlock f = some a)
    (hends : s.ends f = ((s.wholeBlock f).filter (·.endStream)).map (·.stream))
    (h : s.BlockLoses dec a j) : s.FrameLoses dec f j := by
  rcases h with ⟨href, hfar⟩ | ⟨hend, rfl, hlook⟩
  · refine .inl ⟨a.stream, ?_, hfar⟩
    rw [hwhole, Option.filter_some_pos href]
    rfl
  · refine .inr ⟨?_, hlook⟩
    rw [hends, hwhole, Option.filter_some_pos hend]
    rfl

section

variable (dec : BlockDecoder δ) (s : ClientConn δ) (id : ℕ)

theorem turn_headers (fragment : Bytes) (endHeaders endStream : Bool) :
    FrameTurn (s.FrameLoses dec (.headers id fragment endHeaders endStream)) s
      (s.dispatchFrame dec (.headers id fragment endHeaders endStream)).1 := by
  have hopened : Quiet s
      ({ s with hdrAccum := some ⟨id, fragment, endStream, none⟩ } : ClientConn δ) :=
    ⟨⟨rfl, rfl, rfl, rfl⟩, .of_stream rfl rfl⟩
  cases endHeaders with
  | false => exact hopened.turn
  | true =>
    exact (turn_onResponseHeaderBlock dec s ⟨id, fragment, endStream, none⟩).mono
      (fun j hj => frameLoses_of_block rfl rfl hj)

theorem turn_continuation (fragment : Bytes) (endHeaders : Bool) :
    FrameTurn (s.FrameLoses dec (.continuation id fragment endHeaders)) s
      (s.dispatchFrame dec (.continuation id fragment endHeaders)).1 := by
  have hgathered (acc : Option HeaderBlockAccumulator) :
      Quiet s ({ s with hdrAccum := acc } : ClientConn δ) :=
    ⟨⟨rfl, rfl, rfl, rfl⟩, .of_stream rfl rfl⟩
  change FrameTurn _ s (s.onContinuation dec id fragment endHeaders).1
  unfold onContinuation
  cases happend : appendContinuation s.hdrAccum id fragment with
  | error err => exact ((hgathered none).trans (quiet_emitGoaway _ _)).turn
  | ok a =>
    cases endHeaders with
    | false => exact (hgathered (some a)).turn
    | true =>
      have hblock := turn_onResponseHeaderBlock dec ({ s with hdrAccum := none } : ClientConn δ)
        a
      have hwhole : s.wholeBlock (.continuation id fragment true) = some a := by
        simp only [wholeBlock, happend]
        rfl
      have hturn : FrameTurn (s.BlockLoses dec a) s _ :=
        ⟨(hgathered none).toSameCalls.trans hblock.toSameCalls, hblock.lives, hblock.fates,
          hblock.kept⟩
      exact hturn.mono (fun j hj => frameLoses_of_block hwhole rfl hj)

theorem turn_onData (payload : Bytes) (padding : Option (Fin 256)) (endStream : Bool) :
    FrameTurn (s.FrameLoses dec (.data id payload padding endStream)) s
      (s.onData id payload endStream).1 := by
  have hreset := turn_wasReset s id endStream
  unfold onData
  cases hlook : s.lookupStream id with
  | some cs => exact (quiet_acceptData (stream_of_lookupStream hlook).2 payload endStream).turn
  | none =>
    have hlost : FrameTurn (s.FrameLoses dec (.data id payload padding endStream)) s
        (s.wasReset id endStream).1 := by
      refine hreset.mono ?_
      rintro j ⟨rfl, hend⟩
      refine .inr ⟨?_, hlook⟩
      simp only [ends, hend, if_true]
    revert hlost
    rcases s.wasReset id endStream with ⟨t, found⟩
    intro hlost
    cases found with
    | true => exact hlost.then (quiet_debitConnRecvWindow t _)
    | false => exact hlost

theorem turn_onRSTStream (code : ErrCode) :
    FrameTurn (s.FrameLoses dec (.rstStream id code)) s (s.onRSTStream id code).1 := by
  unfold onRSTStream
  cases hlook : s.lookupStream id with
  | none =>
    refine (turn_wasReset s id true).mono ?_
    rintro j ⟨rfl, -⟩
    exact .inr ⟨rfl, hlook⟩
  | some cs =>
    refine (quiet_finishStream s id _ ?_).turn
    rintro e he
    cases he
    exact .inl rfl

end

theorem turn_onWindowUpdate (dec : BlockDecoder δ) {increment : Fin (2^31)}
    (hpos : increment.val ≠ 0) (h : s.manageable dec (.windowUpdate id increment) = true) :
    FrameTurn lost s (s.onWindowUpdate id increment.val).1 := by
  have hadds (a : Option (ℕ × ℤ)) : Quiet s ({ s with adding := a } : ClientConn δ) :=
    ⟨⟨rfl, rfl, rfl, rfl⟩, .of_stream rfl rfl⟩
  have hdelta : (increment.val : ℤ) ≠ 0 := by exact_mod_cast hpos
  unfold onWindowUpdate
  by_cases hzero : id = 0
  · rw [if_pos hzero, if_neg hdelta]
    split_ifs
    · exact (quiet_emitGoaway s _).turn
    · exact (hadds _).turn
  · rw [if_neg hzero]
    cases hlook : s.lookupStream id with
    | none => exact (Quiet.refl s).turn
    | some cs =>
      have hstream := (stream_of_lookupStream hlook).2
      simp only [manageable, hlook, Bool.or_eq_true, decide_eq_true_eq] at h
      dsimp only
      rw [if_neg hdelta]
      split_ifs with hfits
      · refine ⟨sameCalls_finishStream s id _, ?_⟩
        unfold finishStream
        rw [hstream]
        refine ⟨setStream_lives s id _, ?_, fun j hj => .inl hj⟩
        intro j e hj _
        rw [fate_setStream] at hj
        by_cases hjid : j = id
        · subst hjid
          rw [if_pos rfl] at hj
          rcases h with (hover | hfit) | hmem
          · -- The stream was finished before: the failure is the old one.
            left
            have hdone : cs.done ≠ none := Option.isSome_iff_ne_none.mp hover
            unfold ClientStream.finish at hj
            rw [if_neg hdone] at hj
            rw [fate_of_stream hstream]
            exact hj
          · rw [hfit] at hfits
            cases hfits
          · exact .inr hmem
        · rw [if_neg hjid] at hj
          exact .inl hj
      · exact (hadds _).turn

theorem turn_dispatchFrame (htakes : s.Takes f) (h : s.manageable dec f = true) :
    FrameTurn (s.FrameLoses dec f) s (s.dispatchFrame dec f).1 := by
  have same : FrameTurn (s.FrameLoses dec f) s s := (Quiet.refl s).turn
  cases f with
  | headers id fragment endHeaders endStream => exact turn_headers dec s id fragment _ endStream
  | continuation id fragment endHeaders => exact turn_continuation dec s id fragment endHeaders
  | data id payload padding endStream => exact turn_onData dec s id payload padding endStream
  | settings ack params =>
    cases ack with
    | true => exact same
    | false => exact ((quiet_applySettings s params).trans (quiet_write _ _)).turn
  | ping ack =>
    cases ack with
    | true => exact same
    | false => exact (quiet_write s _).turn
  | windowUpdate id increment =>
    refine turn_onWindowUpdate dec ?_ h
    intro hzero
    have hread := htakes.2.2
    simp only [readError, PeerFrame.parseError, hzero, if_true, Option.orElse] at hread
    cases hread
  | rstStream id code => exact turn_onRSTStream dec s id code
  | goaway lastStream code => exact (quiet_onGoaway s lastStream code).turn
  | pushPromise id promised fragment endHeaders => exact same
  | other => exact same
  | malformed id code => exact same

def StepLoses (dec : BlockDecoder δ) (s : ClientConn δ) (e : ClientEvent) (j : ℕ) : Prop :=
  (∃ newer, s.resetBy dec e = some newer ∧ j + resetRetainWindow < newer) ∨
    (s.endedBy e = some j ∧ s.lookupStream j = none)

theorem manageable_of_orderly (h : s.Orderly dec (.frame f)) (htakes : s.Takes f) :
    s.manageable dec f = true := by
  have horderly := h.1
  simpa only [orderly, htakes, decide_true, Bool.not_true, Bool.false_or] using horderly

theorem turn_frame (h : s.Orderly dec (.frame f)) :
    FrameTurn (s.StepLoses dec (.frame f)) s (step dec s (.frame f)) := by
  have hclosed (t : ClientConn δ) : Quiet t ({ t with closed := true } : ClientConn δ) :=
    ⟨⟨rfl, rfl, rfl, rfl⟩, .of_stream rfl rfl⟩
  by_cases htakes : s.Takes f
  · have hmanage := manageable_of_orderly h htakes
    have hturn : FrameTurn (s.StepLoses dec (.frame f)) s (s.dispatchFrame dec f).1 := by
      refine (turn_dispatchFrame htakes hmanage).mono ?_
      intro j hj
      simp only [StepLoses, resetBy, endedBy, if_pos htakes]
      exact hj
    rw [step_frame_taken htakes]
    revert hturn
    rcases s.dispatchFrame dec f with ⟨t, err⟩
    intro hturn
    cases err with
    | none => exact hturn
    | some err => exact hturn.then (hclosed t)
  · rcases step_frame_untaken dec htakes with hstep | hstep
    · rw [hstep]
      exact (Quiet.refl s).turn
    · rw [hstep]
      exact (hclosed s).turn

theorem follows_local (dec : BlockDecoder δ) (s : ClientConn δ) (he : e.frame? = none) :
    Follows (s.StepLoses dec e) s (step dec s e) := by
  have hafter {t u : ClientConn δ} (hu : SameFates s u) (hstream : t.stream = u.stream)
      (hreset : t.resetStreams = u.resetStreams) : Follows (s.StepLoses dec e) s t :=
    (hu.trans (.of_stream hstream hreset)).follows
  have hsame {t : ClientConn δ} (hstream : t.stream = s.stream)
      (hreset : t.resetStreams = s.resetStreams) : Follows (s.StepLoses dec e) s t :=
    (SameFates.of_stream hstream hreset).follows
  have hset {t : ClientConn δ} {id : ℕ} {cs : ClientStream} {w : Window}
      (hcs : s.stream id = some cs)
      (hstream : t.stream = Function.update s.stream id (some { cs with sendW := w }))
      (hreset : t.resetStreams = s.resetStreams) : Follows (s.StepLoses dec e) s t :=
    hafter (quiet_setStream { cs with sendW := w } hcs rfl).toSameFates hstream hreset
  cases e with
  | frame f => cases he
  | addCredit =>
    simp only [step, addCredit]
    split
    · exact hsame rfl rfl
    · exact hsame rfl rfl
    · split
      · exact hsame rfl rfl
      · next cs hcs => exact hset hcs rfl rfl
  | close => exact hsame rfl rfl
  | start len =>
    simp only [step, start]
    split_ifs
    · exact hsame rfl rfl
    · have hfresh := sameFates_setStream s (s.nextStreamID + 1) s.newClientStream
        (fun err herr _ => by cases herr)
      exact hafter hfresh rfl rfl
  | headers id =>
    simp only [step, writeRequest]
    split
    · split_ifs
      · exact hsame rfl rfl
      · exact hsame rfl rfl
    · exact hsame rfl rfl
  | reserveStream id =>
    simp only [step, reserveStream]
    split
    · next w cs hcall hcs =>
        split_ifs
        · exact hset hcs rfl rfl
        · exact hsame rfl rfl
    · exact hsame rfl rfl
  | reserveConn id =>
    simp only [step, reserveConn]
    split
    · split
      · exact hsame rfl rfl
      · exact hsame rfl rfl
    · exact hsame rfl rfl
  | refund id =>
    simp only [step, refund]
    split
    · next w cs hcall hcs =>
        split_ifs
        · exact hset hcs rfl rfl
        · exact hsame rfl rfl
    · exact hsame rfl rfl
  | chunk id =>
    simp only [step, writeChunk]
    split
    · split
      · split
        · exact hsame rfl rfl
        · exact hsame rfl rfl
      · exact hsame rfl rfl
    · exact hsame rfl rfl
  | cancel id =>
    simp only [step, cancelCall]
    split
    · split
      · exact hsame rfl rfl
      · split
        · exact hsame rfl rfl
        · next cs hcs => exact hset hcs rfl rfl
      · exact hsame rfl rfl
    · next hwait =>
        refine ⟨fun _ h => h, fun _ _ h _ => .inl h, ?_⟩
        intro j hj
        refine (markReset_keeps hj).imp_right (fun hfar => .inl ⟨id, ?_, hfar⟩)
        simp only [resetBy, if_pos hwait]
    · exact hsame rfl rfl
  | deliver id =>
    simp only [step, deliver]
    split
    · split
      · exact hsame rfl rfl
      · exact hsame rfl rfl
    · exact hsame rfl rfl
  | loseConn id =>
    simp only [step, loseConn]
    split
    · split_ifs
      · exact hsame rfl rfl
      · exact hsame rfl rfl
    · exact hsame rfl rfl
  | leave id =>
    simp only [step, leave]
    split
    · exact hsame rfl rfl
    · exact hsame rfl rfl

theorem follows_step (h : s.Orderly dec e) : Follows (s.StepLoses dec e) s (step dec s e) := by
  cases hframe : e.frame? with
  | none => exact follows_local dec s hframe
  | some f =>
    cases e with
    | frame f' => exact (turn_frame h).toFollows
    | _ => cases hframe

inductive Cause (s : ClientConn δ) : ClientEvent → ℕ → Exit → Prop
  | waiting (id : ℕ) (h : s.call id = some .waiting) : Cause s (.cancel id) id .canceledWaiting
  | body (id : ℕ) (h : s.blocked id = true) : Cause s (.cancel id) id .canceledBody
  | delivered (id : ℕ) (err : Option Error) (h : s.fate id = some err) :
      Cause s (.deliver id) id (.finished err)
  | lost (id : ℕ) : Cause s (.loseConn id) id .connClosed

inductive CallMove (s : ClientConn δ) (e : ClientEvent) (t : ClientConn δ) : Prop
  | still (h : SameCalls s t)
  | advanced (id : ℕ) (c : Call) (hlive : s.inProgress id = true)
      (hcall : t.call = Function.update s.call id (some c)) (hstreams : t.streams = s.streams)
      (hnext : t.nextStreamID = s.nextStreamID) (hexits : t.exits = s.exits)
  | exited (id : ℕ) (exit : Exit) (hlive : s.inProgress id = true) (hcause : Cause s e id exit)
      (hcall : t.call = Function.update s.call id (some .leaving))
      (hstreams : t.streams = s.streams) (hnext : t.nextStreamID = s.nextStreamID)
      (hexits : t.exits = s.exits ++ [(id, exit)])
  | left (id : ℕ) (hcall : t.call = Function.update s.call id none)
      (hstreams : t.streams = s.streams.erase id) (hnext : t.nextStreamID = s.nextStreamID)
      (hexits : t.exits = s.exits)
  | opened (c : Call) (hcall : t.call = Function.update s.call (s.nextStreamID + 1) (some c))
      (hstream : t.stream (s.nextStreamID + 1) = some s.newClientStream)
      (hstreams : t.streams = insert (s.nextStreamID + 1) s.streams)
      (hnext : t.nextStreamID = s.nextStreamID + 2) (hexits : t.exits = s.exits)

theorem inProgress_of_call {c : Call} (h : s.call id = some c) (hc : c ≠ .leaving) :
    s.inProgress id = true := by
  unfold inProgress
  rw [h]
  cases c with
  | leaving => exact absurd rfl hc
  | _ => rfl

theorem callMove_local (dec : BlockDecoder δ) (s : ClientConn δ) (he : e.frame? = none) :
    CallMove s e (step dec s e) := by
  have same : CallMove s e s := .still ⟨rfl, rfl, rfl, rfl⟩
  cases e with
  | frame f => cases he
  | addCredit =>
    simp only [step, addCredit]
    split
    · exact same
    · exact .still ⟨rfl, rfl, rfl, rfl⟩
    · split
      · exact .still ⟨rfl, rfl, rfl, rfl⟩
      · exact .still ⟨rfl, rfl, rfl, rfl⟩
  | close => exact .still ⟨rfl, rfl, rfl, rfl⟩
  | start len =>
    simp only [step, start]
    split_ifs
    · exact same
    · exact .opened (.headers len) rfl (Function.update_self ..) rfl rfl rfl
  | headers id =>
    simp only [step, writeRequest]
    split
    · next len hcall =>
        have hlive := inProgress_of_call hcall (fun h => by cases h)
        split_ifs
        · exact .advanced id _ hlive rfl rfl rfl rfl
        · exact .advanced id _ hlive rfl rfl rfl rfl
    · exact same
  | reserveStream id =>
    simp only [step, reserveStream]
    split
    · next w cs hcall hcs =>
        have hlive := inProgress_of_call hcall (fun h => by cases h)
        split_ifs
        · exact .advanced id _ hlive rfl rfl rfl rfl
        · exact same
    · exact same
  | reserveConn id =>
    simp only [step, reserveConn]
    split
    · next w hcall =>
        have hlive := inProgress_of_call hcall (fun h => by cases h)
        split
        · exact .advanced id _ hlive rfl rfl rfl rfl
        · exact same
    · exact same
  | refund id =>
    simp only [step, refund]
    split
    · next w cs hcall hcs =>
        have hlive := inProgress_of_call hcall (fun h => by cases h)
        split_ifs
        · exact .advanced id _ hlive rfl rfl rfl rfl
        · exact same
    · exact same
  | chunk id =>
    simp only [step, writeChunk]
    split
    · next w hcall =>
        have hlive := inProgress_of_call hcall (fun h => by cases h)
        split
        · split
          · exact .advanced id _ hlive rfl rfl rfl rfl
          · exact .advanced id _ hlive rfl rfl rfl rfl
        · exact same
    · exact same
  | cancel id =>
    simp only [step, cancelCall]
    split
    · next w hcall =>
        have hlive := inProgress_of_call hcall (fun h => by cases h)
        have hblocked (hphase : w.phase = .stream ∨ w.phase = .conn) : s.blocked id = true := by
          simp only [blocked, hcall, hphase, decide_true]
        split
        · next hphase =>
            exact .exited id _ hlive (.body id (hblocked (.inl hphase))) rfl rfl rfl rfl
        · next hphase =>
            split
            · exact same
            · exact .exited id _ hlive (.body id (hblocked (.inr hphase))) rfl rfl rfl rfl
        · exact same
    · next hcall =>
        have hlive := inProgress_of_call hcall (fun h => by cases h)
        exact .exited id _ hlive (.waiting id hcall) rfl rfl rfl rfl
    · exact same
  | deliver id =>
    simp only [step, deliver]
    split
    · next cs hcall hcs =>
        have hlive := inProgress_of_call hcall (fun h => by cases h)
        split
        · exact same
        · next err hdone =>
            have hfate : s.fate id = some err := (fate_of_stream hcs).trans hdone
            exact .exited id _ hlive (.delivered id err hfate) rfl rfl rfl rfl
    · exact same
  | loseConn id =>
    simp only [step, loseConn]
    split
    · next hcall =>
        have hlive := inProgress_of_call hcall (fun h => by cases h)
        split_ifs
        · exact .exited id _ hlive (.lost id) rfl rfl rfl rfl
        · exact same
    · exact same
  | leave id =>
    simp only [step, leave]
    split
    · exact .left id rfl rfl rfl rfl
    · exact same

theorem callMove_step (h : s.Orderly dec e) : CallMove s e (step dec s e) := by
  cases hframe : e.frame? with
  | none => exact callMove_local dec s hframe
  | some f =>
    cases e with
    | frame f' => exact .still (turn_frame h).toSameCalls
    | _ => cases hframe

theorem inProgress_congr (h : t.call id = s.call id) : t.inProgress id = s.inProgress id := by
  unfold inProgress
  rw [h]

theorem inProgress_leaving (h : t.call id = some .leaving) : t.inProgress id = false := by
  unfold inProgress
  rw [h]

theorem inProgress_none (h : t.call id = none) : t.inProgress id = false := by
  unfold inProgress
  rw [h]

theorem call_of_inProgress (h : s.inProgress id = true) : s.call id ≠ none := by
  intro hnone
  rw [inProgress_none hnone] at h
  cases h

namespace CallMove

variable {s t : ClientConn δ} {e : ClientEvent}

theorem inProgress (h : CallMove s e t) {id : ℕ} (hid : t.inProgress id = true) :
    s.inProgress id = true ∨ t.stream id = some s.newClientStream := by
  have hother {i : ℕ} {c : Option Call} (hcall : t.call = Function.update s.call i c)
      (hi : id ≠ i) : s.inProgress id = true := by
    have hsame : t.call id = s.call id := by rw [hcall, Function.update_of_ne hi]
    rw [inProgress_congr hsame] at hid
    exact hid
  have hbusy {i : ℕ} {c : Option Call} (hlive : s.inProgress i = true)
      (hcall : t.call = Function.update s.call i c) : s.inProgress id = true := by
    by_cases hi : id = i
    · exact hi ▸ hlive
    · exact hother hcall hi
  cases h with
  | still h =>
    rw [inProgress_congr (congrFun h.call id)] at hid
    exact .inl hid
  | advanced i c hlive hcall hstreams hnext hexits => exact .inl (hbusy hlive hcall)
  | exited i exit hlive hcause hcall hstreams hnext hexits => exact .inl (hbusy hlive hcall)
  | left i hcall hstreams hnext hexits =>
    by_cases hi : id = i
    · subst hi
      have hnone : t.call id = none := by rw [hcall, Function.update_self]
      exact absurd hnone (call_of_inProgress hid)
    · exact .inl (hother hcall hi)
  | opened c hcall hstream hstreams hnext hexits =>
    by_cases hi : id = s.nextStreamID + 1
    · subst hi
      exact .inr hstream
    · exact .inl (hother hcall hi)

theorem returned (h : CallMove s e t) {id : ℕ} (hid : s.inProgress id = false)
    (hle : id ≤ s.nextStreamID) : t.inProgress id = false ∧ id ≤ t.nextStreamID := by
  have hother {i : ℕ} {c : Option Call} (hcall : t.call = Function.update s.call i c)
      (hi : id ≠ i) : t.inProgress id = false := by
    have hsame : t.call id = s.call id := by rw [hcall, Function.update_of_ne hi]
    rw [inProgress_congr hsame]
    exact hid
  have hbusy {i : ℕ} (hlive : s.inProgress i = true) : id ≠ i := by
    rintro rfl
    rw [hid] at hlive
    cases hlive
  cases h with
  | still h =>
    rw [inProgress_congr (congrFun h.call id), h.nextStreamID]
    exact ⟨hid, hle⟩
  | advanced i c hlive hcall hstreams hnext hexits =>
    exact ⟨hother hcall (hbusy hlive), hnext ▸ hle⟩
  | exited i exit hlive hcause hcall hstreams hnext hexits =>
    exact ⟨hother hcall (hbusy hlive), hnext ▸ hle⟩
  | left i hcall hstreams hnext hexits =>
    refine ⟨?_, hnext ▸ hle⟩
    by_cases hi : id = i
    · subst hi
      exact inProgress_none (by rw [hcall, Function.update_self])
    · exact hother hcall hi
  | opened c hcall hstream hstreams hnext hexits =>
    have hi : id ≠ s.nextStreamID + 1 := by omega
    refine ⟨hother hcall hi, ?_⟩
    rw [hnext]
    omega

end CallMove

end ClientConn

end EnvoyGo.H2

import EnvoyGo.H2ClientConn

/-!
What the steps of the upstream connection leave alone.  The header codec and the peer's settings
belong to the read loop: SETTINGS, HEADERS and CONTINUATION change them and nothing else does.
-/

namespace EnvoyGo.H2

def PeerFrame.touchesCodec : PeerFrame → Bool
  | .settings ack _ => !ack
  | .headers _ _ _ _ => true
  | .continuation _ _ _ => true
  | _ => false

def ClientEvent.frame? : ClientEvent → Option PeerFrame
  | .frame f => some f
  | _ => none

namespace ClientConn

variable {δ : Type}

structure SameCodec (s t : ClientConn δ) : Prop where
  serverS : t.serverS = s.serverS
  encoderTable : t.encoderTable = s.encoderTable
  hpack : t.hpack = s.hpack
  hdrAccum : t.hdrAccum = s.hdrAccum

theorem SameCodec.refl (s : ClientConn δ) : SameCodec s s := ⟨rfl, rfl, rfl, rfl⟩

variable {s : ClientConn δ} {f : PeerFrame}

theorem SameCodec.trans {t u : ClientConn δ} (h : SameCodec s t) (h' : SameCodec t u) :
    SameCodec s u :=
  ⟨h'.serverS.trans h.serverS, h'.encoderTable.trans h.encoderTable, h'.hpack.trans h.hpack,
    h'.hdrAccum.trans h.hdrAccum⟩

section

variable (s : ClientConn δ)

theorem sameCodec_setStream (id : ℕ) (cs : ClientStream) :
    SameCodec s (s.setStream id cs) := ⟨rfl, rfl, rfl, rfl⟩

theorem sameCodec_write (f : WireFrame) : SameCodec s (s.write f) :=
  ⟨rfl, rfl, rfl, rfl⟩

theorem sameCodec_finishStream (id : ℕ) (err : Option Error) :
    SameCodec s (s.finishStream id err) := by
  unfold finishStream
  cases s.stream id with
  | none => exact .refl s
  | some cs => exact sameCodec_setStream s id _

theorem sameCodec_wasReset (id : ℕ) (done : Bool) : SameCodec s (s.wasReset id done).1 := by
  unfold wasReset
  split_ifs
  · exact ⟨rfl, rfl, rfl, rfl⟩
  · exact .refl s
  · exact .refl s

theorem sameCodec_emitGoaway (code : ErrCode) : SameCodec s (s.emitGoaway code) := by
  unfold emitGoaway
  split_ifs
  · exact .refl s
  · exact ⟨rfl, rfl, rfl, rfl⟩

theorem sameCodec_debitConnRecvWindow (dataLen : ℤ) :
    SameCodec s (s.debitConnRecvWindow dataLen) := by
  unfold debitConnRecvWindow
  dsimp only
  split_ifs
  · exact .refl s
  · exact ⟨rfl, rfl, rfl, rfl⟩
  · exact ⟨rfl, rfl, rfl, rfl⟩

theorem sameCodec_onDecodedBlock (id : ℕ) (cs : ClientStream) (decoded : OrderedHeaders)
    (endStream : Bool) : SameCodec s (s.onDecodedBlock id cs decoded endStream) := by
  have hreject (err : Error) : SameCodec s
      (((s.markReset id).write (.rstStream id .internalError)).finishStream id (some err)) := by
    have hreset : SameCodec s ((s.markReset id).write (.rstStream id .internalError)) :=
      ⟨rfl, rfl, rfl, rfl⟩
    exact hreset.trans (sameCodec_finishStream _ id _)
  have hretain (cs' : ClientStream) : SameCodec s
      (if endStream then (s.setStream id cs').finishStream id none else s.setStream id cs') := by
    have hset := sameCodec_setStream s id cs'
    split_ifs
    · exact hset.trans (sameCodec_finishStream _ id none)
    · exact hset
  unfold onDecodedBlock
  dsimp only
  split
  · split
    · exact hreject _
    · exact hretain _
  · split
    · exact hreject _
    · exact hretain _

theorem sameCodec_acceptData (id : ℕ) (cs : ClientStream) (payload : Bytes) (endStream : Bool) :
    SameCodec s (s.acceptData id cs payload endStream) := by
  have hfinish {t : ClientConn δ} (h : SameCodec s t) :
      SameCodec s (if endStream then t.finishStream id none else t) := by
    split_ifs
    · exact h.trans (sameCodec_finishStream t id none)
    · exact h
  unfold acceptData
  apply hfinish
  dsimp only
  split_ifs
  · have hdebit := sameCodec_debitConnRecvWindow s (payload.length : ℤ)
    exact hdebit.trans ⟨rfl, rfl, rfl, rfl⟩
  · exact (sameCodec_debitConnRecvWindow s (payload.length : ℤ)).trans
      (sameCodec_setStream _ id _)
  · exact .refl s

theorem sameCodec_onData (id : ℕ) (payload : Bytes) (endStream : Bool) :
    SameCodec s (s.onData id payload endStream).1 := by
  have hreset := sameCodec_wasReset s id endStream
  unfold onData
  cases s.lookupStream id with
  | some cs => exact sameCodec_acceptData s id cs payload endStream
  | none =>
    revert hreset
    rcases s.wasReset id endStream with ⟨t, found⟩
    intro hreset
    cases found with
    | true => exact hreset.trans (sameCodec_debitConnRecvWindow t _)
    | false => exact hreset

theorem sameCodec_onRSTStream (id : ℕ) (code : ErrCode) :
    SameCodec s (s.onRSTStream id code).1 := by
  unfold onRSTStream
  cases s.lookupStream id with
  | none => exact sameCodec_wasReset s id true
  | some cs => exact sameCodec_finishStream s id _

theorem sameCodec_onWindowUpdate (id : ℕ) (delta : ℤ) :
    SameCodec s (s.onWindowUpdate id delta).1 := by
  unfold onWindowUpdate
  split
  · split_ifs
    · exact .refl s
    · exact sameCodec_emitGoaway s _
    · exact ⟨rfl, rfl, rfl, rfl⟩
  · cases s.lookupStream id with
    | none => exact .refl s
    | some cs =>
      dsimp only
      split_ifs
      · exact sameCodec_finishStream s id _
      · exact sameCodec_finishStream s id _
      · exact ⟨rfl, rfl, rfl, rfl⟩

end

theorem sameCodec_dispatchFrame (dec : BlockDecoder δ) (s : ClientConn δ)
    (hf : f.touchesCodec = false) : SameCodec s (s.dispatchFrame dec f).1 := by
  have same : SameCodec s s := .refl s
  cases f with
  | headers id fragment endHeaders endStream => cases hf
  | continuation id fragment endHeaders => cases hf
  | data id payload padding endStream => exact sameCodec_onData s id payload endStream
  | settings ack params =>
    cases ack with
    | false => cases hf
    | true => exact same
  | ping ack =>
    cases ack with
    | false => exact sameCodec_write s .pingAck
    | true => exact same
  | windowUpdate id increment => exact sameCodec_onWindowUpdate s id _
  | rstStream id code => exact sameCodec_onRSTStream s id code
  | goaway lastStream code => exact ⟨rfl, rfl, rfl, rfl⟩
  | pushPromise id promised fragment endHeaders => exact same
  | other => exact same
  | malformed id code => exact same

structure BlockTaken (dec : BlockDecoder δ) (s : ClientConn δ) (block : Bytes) (r : Result δ) :
    Prop where
  serverS : r.1.serverS = s.serverS
  encoderTable : r.1.encoderTable = s.encoderTable
  hdrAccum : r.1.hdrAccum = s.hdrAccum
  fed : r.2 = none → ∃ decoded, dec s.hpack block = some (decoded, r.1.hpack)

theorem blockTaken_failed {dec : BlockDecoder δ} {t : ClientConn δ} {block : Bytes} {err : Error}
    (h : SameCodec s t) : BlockTaken dec s block (t, some err) :=
  ⟨h.serverS, h.encoderTable, h.hdrAccum, fun hnone => by cases hnone⟩

section

variable (dec : BlockDecoder δ) (s : ClientConn δ)

theorem blockTaken_onResponseHeaderBlock (id : ℕ) (block : Bytes) (endStream : Bool) :
    BlockTaken dec s block (s.onResponseHeaderBlock dec id block endStream) := by
  have hreset := sameCodec_wasReset s id endStream
  unfold onResponseHeaderBlock
  cases s.lookupStream id with
  | none =>
    revert hreset
    rcases s.wasReset id endStream with ⟨t, found⟩
    intro hreset
    cases found with
    | false => exact blockTaken_failed (hreset.trans (sameCodec_emitGoaway t _))
    | true =>
      cases hdec : dec t.hpack block with
      | none =>
        simp only [hdec]
        exact blockTaken_failed (hreset.trans (sameCodec_emitGoaway t _))
      | some out =>
        obtain ⟨decoded, hpack⟩ := out
        simp only [hdec]
        refine ⟨hreset.serverS, hreset.encoderTable, hreset.hdrAccum, fun _ => ⟨decoded, ?_⟩⟩
        rw [← hreset.hpack]
        exact hdec
  | some cs =>
    cases hdec : dec s.hpack block with
    | none => exact blockTaken_failed (sameCodec_emitGoaway s _)
    | some out =>
      obtain ⟨decoded, hpack⟩ := out
      have hsame := sameCodec_onDecodedBlock ({ s with hpack := hpack } : ClientConn δ) id cs
        decoded endStream
      refine ⟨hsame.serverS, hsame.encoderTable, hsame.hdrAccum, fun _ => ⟨decoded, ?_⟩⟩
      dsimp only
      rw [hsame.hpack]
      exact hdec

theorem samePeer_headers (id : ℕ) (fragment : Bytes) (endHeaders endStream : Bool) :
    (s.dispatchFrame dec (.headers id fragment endHeaders endStream)).1.serverS = s.serverS ∧
      (s.dispatchFrame dec (.headers id fragment endHeaders endStream)).1.encoderTable =
        s.encoderTable := by
  have hblock := blockTaken_onResponseHeaderBlock dec s id fragment endStream
  cases endHeaders with
  | false => exact ⟨rfl, rfl⟩
  | true => exact ⟨hblock.serverS, hblock.encoderTable⟩

theorem samePeer_continuation (id : ℕ) (fragment : Bytes) (endHeaders : Bool) :
    (s.dispatchFrame dec (.continuation id fragment endHeaders)).1.serverS = s.serverS ∧
      (s.dispatchFrame dec (.continuation id fragment endHeaders)).1.encoderTable =
        s.encoderTable := by
  change (s.onContinuation dec id fragment endHeaders).1.serverS = s.serverS ∧
    (s.onContinuation dec id fragment endHeaders).1.encoderTable = s.encoderTable
  unfold onContinuation
  cases appendContinuation s.hdrAccum id fragment with
  | error err =>
    have hsame := sameCodec_emitGoaway ({ s with hdrAccum := none } : ClientConn δ) err.code
    exact ⟨hsame.serverS, hsame.encoderTable⟩
  | ok a =>
    have hblock := blockTaken_onResponseHeaderBlock dec
      ({ s with hdrAccum := none } : ClientConn δ) a.stream a.buf a.endStream
    cases endHeaders with
    | false => exact ⟨rfl, rfl⟩
    | true => exact ⟨hblock.serverS, hblock.encoderTable⟩

theorem sameCodec_local {e : ClientEvent} (he : e.frame? = none) : SameCodec s (step dec s e) := by
  have same : SameCodec s s := .refl s
  cases e with
  | frame f => cases he
  | addCredit =>
    simp only [step, addCredit]
    split
    · exact same
    · exact ⟨rfl, rfl, rfl, rfl⟩
    · split
      · exact ⟨rfl, rfl, rfl, rfl⟩
      · exact ⟨rfl, rfl, rfl, rfl⟩
  | close => exact ⟨rfl, rfl, rfl, rfl⟩
  | start len =>
    simp only [step, start]
    split_ifs
    · exact same
    · exact ⟨rfl, rfl, rfl, rfl⟩
  | headers id =>
    simp only [step, writeRequest]
    split
    · split_ifs
      · exact ⟨rfl, rfl, rfl, rfl⟩
      · exact ⟨rfl, rfl, rfl, rfl⟩
    · exact same
  | reserveStream id =>
    simp only [step, reserveStream]
    split
    · split_ifs
      · exact ⟨rfl, rfl, rfl, rfl⟩
      · exact same
    · exact same
  | reserveConn id =>
    simp only [step, reserveConn]
    split
    · split
      · exact ⟨rfl, rfl, rfl, rfl⟩
      · exact same
    · exact same
  | refund id =>
    simp only [step, refund]
    split
    · split_ifs
      · exact ⟨rfl, rfl, rfl, rfl⟩
      · exact same
    · exact same
  | chunk id =>
    simp only [step, writeChunk]
    split
    · split
      · split
        · exact ⟨rfl, rfl, rfl, rfl⟩
        · exact ⟨rfl, rfl, rfl, rfl⟩
      · exact same
    · exact same
  | cancel id =>
    simp only [step, cancelCall]
    split
    · split
      · exact ⟨rfl, rfl, rfl, rfl⟩
      · split
        · exact same
        · exact ⟨rfl, rfl, rfl, rfl⟩
      · exact same
    · exact ⟨rfl, rfl, rfl, rfl⟩
    · exact same
  | deliver id =>
    simp only [step, deliver]
    split
    · split
      · exact same
      · exact ⟨rfl, rfl, rfl, rfl⟩
    · exact same
  | loseConn id =>
    simp only [step, loseConn]
    split
    · split_ifs
      · exact ⟨rfl, rfl, rfl, rfl⟩
      · exact same
    · exact same
  | leave id =>
    simp only [step, leave]
    split
    · exact ⟨rfl, rfl, rfl, rfl⟩
    · exact same

theorem closed_of_local {e : ClientEvent} (hclose : e ≠ .close) (he : e.frame? = none) :
    (step dec s e).closed = s.closed := by
  cases e with
  | frame f => cases he
  | close => exact absurd rfl hclose
  | addCredit =>
    simp only [step, addCredit]
    split
    · rfl
    · rfl
    · split
      all_goals rfl
  | start len =>
    simp only [step, start]
    split_ifs
    all_goals rfl
  | headers id =>
    simp only [step, writeRequest]
    split
    · split
      all_goals rfl
    · rfl
  | reserveStream id =>
    simp only [step, reserveStream]
    split
    · split
      all_goals rfl
    · rfl
  | reserveConn id =>
    simp only [step, reserveConn]
    split
    · split
      all_goals rfl
    · rfl
  | refund id =>
    simp only [step, refund]
    split
    · split
      all_goals rfl
    · rfl
  | chunk id =>
    simp only [step, writeChunk]
    split
    · split
      · split
        all_goals rfl
      · rfl
    · rfl
  | cancel id =>
    simp only [step, cancelCall]
    split
    · split
      · rfl
      · split
        all_goals rfl
      · rfl
    · rfl
    · rfl
  | deliver id =>
    simp only [step, deliver]
    split
    · split
      all_goals rfl
    · rfl
  | loseConn id =>
    simp only [step, loseConn]
    split
    · split
      all_goals rfl
    · rfl
  | leave id =>
    simp only [step, leave]
    split
    all_goals rfl

end

theorem closed_local (dec : BlockDecoder δ) {e : ClientEvent} (he : e.frame? = none)
    (h : s.closed = true) : (step dec s e).closed = true := by
  by_cases hclose : e = .close
  · rw [hclose]
    rfl
  · rw [closed_of_local dec s hclose he]
    exact h

/-- The loop is at a frame and the framer passes it on. -/
def Takes (s : ClientConn δ) (f : PeerFrame) : Prop :=
  s.closed = false ∧ s.adding = none ∧ s.readError f = none

instance (s : ClientConn δ) (f : PeerFrame) : Decidable (s.Takes f) :=
  inferInstanceAs (Decidable (_ ∧ _))

/-- What a turn of the loop makes of what the handlers return. -/
def answer : Result δ → ClientConn δ
  | (s, none) => s
  | (s, some _) => { s with closed := true }

theorem sameCodec_answer (s : ClientConn δ) (err : Option Error) :
    SameCodec s (answer (s, err)) := by
  cases err with
  | none => exact .refl s
  | some err => exact ⟨rfl, rfl, rfl, rfl⟩

theorem step_frame_taken {dec : BlockDecoder δ} (h : s.Takes f) :
    step dec s (.frame f) = answer (s.dispatchFrame dec f) := by
  obtain ⟨hopen, hadd, hread⟩ := h
  simp only [step, hopen, hadd, and_self, if_true, readFrame, hread]
  rfl

theorem step_frame_untaken (dec : BlockDecoder δ) (h : ¬ s.Takes f) : step dec s (.frame f) = s ∨
      step dec s (.frame f) = { s with closed := true } := by
  by_cases hloop : s.closed = false ∧ s.adding = none
  · have hread : s.readError f ≠ none := fun hr => h ⟨hloop.1, hloop.2, hr⟩
    obtain ⟨err, herr⟩ := Option.ne_none_iff_exists'.mp hread
    right
    simp only [step, hloop, and_self, if_true, readFrame, herr]
  · left
    simp only [step, hloop, if_false]

theorem sameCodec_frame (dec : BlockDecoder δ) (s : ClientConn δ)
    (hf : s.Takes f → f.touchesCodec = false) : SameCodec s (step dec s (.frame f)) := by
  by_cases htakes : s.Takes f
  · rw [step_frame_taken htakes]
    exact (sameCodec_dispatchFrame dec s (hf htakes)).trans (sameCodec_answer _ _)
  · rcases step_frame_untaken dec htakes with h | h
    · rw [h]
      exact .refl s
    · rw [h]
      exact ⟨rfl, rfl, rfl, rfl⟩

end ClientConn

end EnvoyGo.H2

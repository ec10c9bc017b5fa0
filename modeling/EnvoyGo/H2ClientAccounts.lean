import EnvoyGo.H2PeerSettings
import EnvoyGo.H2StreamFates

/-!
The send window of each RoundTrip of an upstream connection as a credit account, and what a step of
the connection does to it.
-/

namespace EnvoyGo.H2

def ClientEvent.caller? : ClientEvent → Option ℕ
  | .headers id => some id
  | .reserveStream id => some id
  | .reserveConn id => some id
  | .refund id => some id
  | .chunk id => some id
  | .cancel id => some id
  | .deliver id => some id
  | .loseConn id => some id
  | .leave id => some id
  | _ => none

theorem ClientEvent.frame?_of_caller {e : ClientEvent} {id : ℕ} (h : e.caller? = some id) :
    e.frame? = none := by
  cases e with
  | frame f => cases h
  | _ => rfl

namespace ClientConn

variable {δ : Type}

def sends (s : ClientConn δ) (id : ℕ) : Bool :=
  match s.call id with
  | some (.headers len) => decide (0 < len)
  | some (.body _) => true
  | _ => false

def callHeld : Option Call → ℤ
  | some (.body w) => w.streamHeld
  | _ => 0

def dueOn (s : ClientConn δ) (id : ℕ) : ℤ := s.adding.elim 0 (fun a => if a.1 = id then a.2 else 0)

def sendWindow (s : ClientConn δ) (id : ℕ) : Window :=
  (s.stream id).elim (Window.new 0) ClientStream.sendW

def streamAccount (s : ClientConn δ) (id : ℕ) (granted : ℤ) : CreditAccount where
  window := s.sendWindow id
  held := callHeld (s.call id)
  spent := dataBytesOn id s.wire
  due := s.dueOn id
  granted := granted

structure Untouched (id : ℕ) (s t : ClientConn δ) : Prop where
  next : t.nextStreamID = s.nextStreamID
  call : t.call id = s.call id
  window : (t.stream id).map ClientStream.sendW = (s.stream id).map ClientStream.sendW
  listed : id ∈ t.streams ↔ id ∈ s.streams
  wire : ∃ new, t.wire = s.wire ++ new ∧ ∀ length last, WireFrame.data id length last ∉ new
  adding : t.adding = s.adding

theorem Untouched.refl (id : ℕ) (s : ClientConn δ) : Untouched id s s :=
  ⟨rfl, rfl, rfl, Iff.rfl, ⟨[], (List.append_nil _).symm, fun _ _ => List.not_mem_nil⟩, rfl⟩

variable {id j : ℕ} {s t : ClientConn δ} {cs : ClientStream}

theorem Untouched.trans {u : ClientConn δ} (h : Untouched id s t) (h' : Untouched id t u) :
    Untouched id s u := by
  obtain ⟨new, hnew, hdata⟩ := h.wire
  obtain ⟨new', hnew', hdata'⟩ := h'.wire
  refine ⟨h'.next.trans h.next, h'.call.trans h.call, h'.window.trans h.window,
    h'.listed.trans h.listed, ⟨new ++ new', ?_, ?_⟩, h'.adding.trans h.adding⟩
  · rw [hnew', hnew, List.append_assoc]
  · intro length last hmem
    rcases List.mem_append.mp hmem with hmem | hmem
    · exact hdata length last hmem
    · exact hdata' length last hmem

theorem Untouched.of_same (hnext : t.nextStreamID = s.nextStreamID)
    (hcall : t.call id = s.call id) (hstream : t.stream id = s.stream id)
    (hlisted : id ∈ t.streams ↔ id ∈ s.streams) (hwire : t.wire = s.wire)
    (hadding : t.adding = s.adding) : Untouched id s t := by
  refine ⟨hnext, hcall, by rw [hstream], hlisted, ⟨[], ?_, fun _ _ => List.not_mem_nil⟩, hadding⟩
  rw [hwire, List.append_nil]

theorem untouched_write (id : ℕ) (s : ClientConn δ) {f : WireFrame}
    (hf : ∀ length last, WireFrame.data id length last ≠ f) : Untouched id s (s.write f) := by
  refine ⟨rfl, rfl, rfl, Iff.rfl, ⟨[f], rfl, ?_⟩, rfl⟩
  intro length last hmem
  exact hf length last (List.mem_singleton.mp hmem)

theorem untouched_setStream (id : ℕ) (cs' : ClientStream) (h : s.stream j = some cs)
    (hsend : cs'.sendW = cs.sendW) : Untouched id s (s.setStream j cs') := by
  refine ⟨rfl, rfl, ?_, Iff.rfl, ⟨[], (List.append_nil _).symm, fun _ _ => List.not_mem_nil⟩, rfl⟩
  change (Function.update s.stream j (some cs') id).map ClientStream.sendW = _
  by_cases hj : id = j
  · subst hj
    rw [Function.update_self, h, Option.map_some, Option.map_some, hsend]
  · rw [Function.update_of_ne hj]

theorem sendW_finish (cs : ClientStream) (err : Option Error) :
    (cs.finish err).sendW = cs.sendW := by
  unfold ClientStream.finish
  split_ifs
  · rfl
  · rfl

section

variable (id : ℕ) (s : ClientConn δ)

theorem untouched_finishStream (j : ℕ) (err : Option Error) :
    Untouched id s (s.finishStream j err) := by
  unfold finishStream
  cases h : s.stream j with
  | none => exact .refl id s
  | some cs => exact untouched_setStream id _ h (sendW_finish cs err)

theorem untouched_wasReset (j : ℕ) (done : Bool) : Untouched id s (s.wasReset j done).1 := by
  unfold wasReset
  split_ifs
  · exact .of_same rfl rfl rfl Iff.rfl rfl rfl
  · exact .refl id s
  · exact .refl id s

theorem untouched_emitGoaway (code : ErrCode) : Untouched id s (s.emitGoaway code) := by
  unfold emitGoaway
  split_ifs
  · exact .refl id s
  · have hsent : Untouched id s { s with goawaySent := true } :=
      .of_same rfl rfl rfl Iff.rfl rfl rfl
    exact hsent.trans (untouched_write id _ (fun _ _ => nofun))

theorem untouched_debitConnRecvWindow (dataLen : ℤ) :
    Untouched id s (s.debitConnRecvWindow dataLen) := by
  unfold debitConnRecvWindow
  dsimp only
  split_ifs
  · exact .refl id s
  · refine .trans ?_ (untouched_write id _ (fun _ _ => nofun))
    exact .of_same rfl rfl rfl Iff.rfl rfl rfl
  · exact .of_same rfl rfl rfl Iff.rfl rfl rfl

theorem untouched_applySettings (params : List Setting) :
    Untouched id s (params.foldl applySetting s) := by
  induction params generalizing s with
  | nil => exact .refl id s
  | cons st rest ih =>
    have hone : Untouched id s (s.applySetting st) := by
      unfold applySetting
      cases st.id with
      | other n => exact .refl id s
      | _ => exact .of_same rfl rfl rfl Iff.rfl rfl rfl
    exact hone.trans (ih _)

theorem untouched_onGoaway (lastStream : ℕ) (code : ErrCode) :
    Untouched id s (s.onGoaway lastStream code) := by
  refine ⟨rfl, rfl, ?_, Iff.rfl, ⟨[], (List.append_nil _).symm, fun _ _ => List.not_mem_nil⟩, rfl⟩
  unfold onGoaway
  dsimp only
  split_ifs
  · cases s.stream id with
    | none => rfl
    | some cs => exact congrArg some (sendW_finish cs _)
  · rfl

end

theorem untouched_onDecodedBlock (id : ℕ) (h : s.stream j = some cs) (decoded : OrderedHeaders)
    (endStream : Bool) : Untouched id s (s.onDecodedBlock j cs decoded endStream) := by
  have hreject (err : Error) : Untouched id s
      (((s.markReset j).write (.rstStream j .internalError)).finishStream j (some err)) := by
    have hmark : Untouched id s (s.markReset j) := .of_same rfl rfl rfl Iff.rfl rfl rfl
    have hwrite : Untouched id (s.markReset j)
        ((s.markReset j).write (.rstStream j .internalError)) :=
      untouched_write id _ (fun _ _ => nofun)
    exact (hmark.trans hwrite).trans (untouched_finishStream id _ j _)
  have hretain (cs' : ClientStream) (hsend : cs'.sendW = cs.sendW) : Untouched id s
      (if endStream then (s.setStream j cs').finishStream j none else s.setStream j cs') := by
    have hset := untouched_setStream id cs' h hsend
    split_ifs
    · exact hset.trans (untouched_finishStream id _ j none)
    · exact hset
  unfold onDecodedBlock
  dsimp only
  split
  · split
    · exact hreject _
    · exact hretain _ rfl
  · split
    · exact hreject _
    · exact hretain _ rfl

theorem untouched_onResponseHeaderBlock (id : ℕ) (dec : BlockDecoder δ) (s : ClientConn δ) (j : ℕ)
    (block : Bytes) (endStream : Bool) :
    Untouched id s (s.onResponseHeaderBlock dec j block endStream).1 := by
  have hreset := untouched_wasReset id s j endStream
  unfold onResponseHeaderBlock
  cases hlookup : s.lookupStream j with
  | none =>
    revert hreset
    rcases s.wasReset j endStream with ⟨t, found⟩
    intro hreset
    cases found with
    | false => exact hreset.trans (untouched_emitGoaway id t _)
    | true =>
      cases hdec : dec t.hpack block with
      | none =>
        simp only [hdec]
        exact hreset.trans (untouched_emitGoaway id t _)
      | some out =>
        simp only [hdec]
        exact hreset.trans (.of_same rfl rfl rfl Iff.rfl rfl rfl)
  | some cs =>
    have hstream := (stream_of_lookupStream hlookup).2
    cases dec s.hpack block with
    | none => exact untouched_emitGoaway id s _
    | some out =>
      obtain ⟨decoded, hpack⟩ := out
      have hfed : Untouched id s { s with hpack := hpack } :=
        .of_same rfl rfl rfl Iff.rfl rfl rfl
      have hkept : ({ s with hpack := hpack } : ClientConn δ).stream j = some cs := hstream
      exact hfed.trans (untouched_onDecodedBlock id hkept decoded endStream)

theorem untouched_onContinuation (id : ℕ) (dec : BlockDecoder δ) (s : ClientConn δ) (j : ℕ)
    (fragment : Bytes) (endHeaders : Bool) :
    Untouched id s (s.onContinuation dec j fragment endHeaders).1 := by
  have hcleared : Untouched id s { s with hdrAccum := none } :=
    .of_same rfl rfl rfl Iff.rfl rfl rfl
  unfold onContinuation
  cases appendContinuation s.hdrAccum j fragment with
  | error err => exact hcleared.trans (untouched_emitGoaway id _ err.code)
  | ok a =>
    cases endHeaders with
    | false => exact .of_same rfl rfl rfl Iff.rfl rfl rfl
    | true =>
      exact hcleared.trans
        (untouched_onResponseHeaderBlock id dec _ a.stream a.buf a.endStream)

theorem untouched_acceptData (id : ℕ) (h : s.stream j = some cs) (payload : Bytes)
    (endStream : Bool) : Untouched id s (s.acceptData j cs payload endStream) := by
  have hfinish {t : ClientConn δ} (ht : Untouched id s t) :
      Untouched id s (if endStream then t.finishStream j none else t) := by
    split_ifs
    · exact ht.trans (untouched_finishStream id t j none)
    · exact ht
  have hdebit := untouched_debitConnRecvWindow id s (payload.length : ℤ)
  have hkept : (s.debitConnRecvWindow (payload.length : ℤ)).stream j = some cs := by
    rw [stream_debitConnRecvWindow]
    exact h
  have hset (cs' : ClientStream) (hsend : cs'.sendW = cs.sendW) : Untouched id s
      ((s.debitConnRecvWindow (payload.length : ℤ)).setStream j cs') :=
    hdebit.trans (untouched_setStream id cs' hkept hsend)
  unfold acceptData
  apply hfinish
  dsimp only
  split_ifs
  · refine (hset _ ?_).trans (untouched_write id _ (fun _ _ => nofun))
    rfl
  · exact hset _ rfl
  · exact .refl id s

theorem untouched_onData (id : ℕ) (s : ClientConn δ) (j : ℕ) (payload : Bytes)
    (endStream : Bool) : Untouched id s (s.onData j payload endStream).1 := by
  have hreset := untouched_wasReset id s j endStream
  unfold onData
  cases hlookup : s.lookupStream j with
  | some cs => exact untouched_acceptData id (stream_of_lookupStream hlookup).2 payload endStream
  | none =>
    revert hreset
    rcases s.wasReset j endStream with ⟨t, found⟩
    intro hreset
    cases found with
    | true => exact hreset.trans (untouched_debitConnRecvWindow id t _)
    | false => exact hreset

theorem untouched_onRSTStream (id : ℕ) (s : ClientConn δ) (j : ℕ) (code : ErrCode) :
    Untouched id s (s.onRSTStream j code).1 := by
  unfold onRSTStream
  cases s.lookupStream j with
  | none => exact untouched_wasReset id s j true
  | some cs => exact untouched_finishStream id s j _

theorem onWindowUpdate_cases (s : ClientConn δ) (j : ℕ) (delta : ℤ) :
    (∀ id, Untouched id s (s.onWindowUpdate j delta).1) ∨
      (j = 0 ∨ j ∈ s.streams) ∧
        s.onWindowUpdate j delta = ({ s with adding := some (j, delta) }, none) := by
  unfold onWindowUpdate
  split
  · rename_i hj
    subst hj
    split_ifs
    · exact .inl fun id => .refl id s
    · exact .inl fun id => untouched_emitGoaway id s _
    · exact .inr ⟨.inl rfl, rfl⟩
  · cases hlookup : s.lookupStream j with
    | none => exact .inl fun id => .refl id s
    | some cs =>
      have hmem := (stream_of_lookupStream hlookup).1
      dsimp only
      split_ifs
      · exact .inl fun id => untouched_finishStream id s j _
      · exact .inl fun id => untouched_finishStream id s j _
      · exact .inr ⟨.inr hmem, rfl⟩

theorem untouched_answer (id : ℕ) (s : ClientConn δ) (err : Option Error) :
    Untouched id s (answer (s, err)) := by
  cases err with
  | none => exact .refl id s
  | some err => exact .of_same rfl rfl rfl Iff.rfl rfl rfl

theorem frame_cases (dec : BlockDecoder δ) (s : ClientConn δ) (f : PeerFrame) :
    (∀ id, Untouched id s (step dec s (.frame f))) ∨
      ∃ j increment, f = .windowUpdate j increment ∧ s.Takes f ∧ (j = 0 ∨ j ∈ s.streams) ∧
        step dec s (.frame f) = { s with adding := some (j, (increment.val : ℤ)) } := by
  by_cases htakes : s.Takes f
  · rw [step_frame_taken htakes]
    have hdone (h : ∀ id, Untouched id s (s.dispatchFrame dec f).1) :
        ∀ id, Untouched id s (answer (s.dispatchFrame dec f)) :=
      fun id => (h id).trans (untouched_answer id _ _)
    cases f with
    | headers j fragment endHeaders endStream =>
      refine .inl (hdone fun id => ?_)
      cases endHeaders with
      | false => exact .of_same rfl rfl rfl Iff.rfl rfl rfl
      | true => exact untouched_onResponseHeaderBlock id dec s j fragment endStream
    | continuation j fragment endHeaders =>
      exact .inl (hdone fun id => untouched_onContinuation id dec s j fragment endHeaders)
    | data j payload padding endStream =>
      exact .inl (hdone fun id => untouched_onData id s j payload endStream)
    | settings ack params =>
      refine .inl (hdone fun id => ?_)
      cases ack with
      | true => exact .refl id s
      | false =>
        exact (untouched_applySettings id s params).trans
          (untouched_write id _ (fun _ _ => nofun))
    | ping ack =>
      refine .inl (hdone fun id => ?_)
      cases ack with
      | true => exact .refl id s
      | false => exact untouched_write id s (fun _ _ => nofun)
    | windowUpdate j increment =>
      rcases onWindowUpdate_cases s j (increment.val : ℤ) with hsame | ⟨hmem, hadded⟩
      · exact .inl (hdone hsame)
      · refine .inr ⟨j, increment, rfl, htakes, hmem, ?_⟩
        change answer (s.onWindowUpdate j (increment.val : ℤ)) = _
        rw [hadded]
        rfl
    | rstStream j code => exact .inl (hdone fun id => untouched_onRSTStream id s j code)
    | goaway lastStream code =>
      exact .inl (hdone fun id => untouched_onGoaway id s lastStream code)
    | pushPromise j promised fragment endHeaders => exact .inl (hdone fun id => .refl id s)
    | other => exact .inl (hdone fun id => .refl id s)
    | malformed j code => exact .inl (hdone fun id => .refl id s)
  · left
    intro id
    rcases step_frame_untaken dec htakes with hs | hs
    · rw [hs]
      exact .refl id s
    · rw [hs]
      exact .of_same rfl rfl rfl Iff.rfl rfl rfl

theorem stream_setStream_of_ne (s : ClientConn δ) (hne : id ≠ j) (cs : ClientStream) :
    (s.setStream j cs).stream id = s.stream id := Function.update_of_ne hne ..

theorem untouched_setCall (hne : id ≠ j) (c : Option Call) : Untouched id s (s.setCall j c) := by
  have hcall : (s.setCall j c).call id = s.call id := Function.update_of_ne hne ..
  exact .of_same rfl hcall rfl Iff.rfl rfl rfl

theorem untouched_setStream_of_ne (hne : id ≠ j) (cs : ClientStream) :
    Untouched id s (s.setStream j cs) :=
  .of_same rfl rfl (stream_setStream_of_ne s hne cs) Iff.rfl rfl rfl

theorem untouched_exitCall (hne : id ≠ j) (exit : Exit) : Untouched id s (s.exitCall j exit) := by
  have hcall : (s.exitCall j exit).call id = s.call id := Function.update_of_ne hne ..
  exact .of_same rfl hcall rfl Iff.rfl rfl rfl

theorem untouched_caller (dec : BlockDecoder δ) (s : ClientConn δ) {e : ClientEvent}
    (he : e.caller? = some j) (hne : id ≠ j) : Untouched id s (step dec s e) := by
  have hother : ∀ length last length' last',
      WireFrame.data id length last ≠ .data j length' last' := by
    intro length last length' last' heq
    exact hne (WireFrame.data.inj heq).1
  have same : Untouched id s s := .refl id s
  cases e with
  | frame f => cases he
  | addCredit => cases he
  | close => cases he
  | start len => cases he
  | headers i =>
    obtain rfl := Option.some.inj he
    simp only [step, writeRequest]
    split
    · have hwrite (last : Bool) : Untouched id s (s.write (.headers i last)) :=
        untouched_write id s (fun _ _ h => by cases h)
      split
      · exact (hwrite _).trans (untouched_setCall hne _)
      · exact (hwrite _).trans (untouched_setCall hne _)
    · exact same
  | reserveStream i =>
    obtain rfl := Option.some.inj he
    simp only [step, reserveStream]
    split
    · split_ifs
      · exact (untouched_setStream_of_ne hne _).trans (untouched_setCall hne _)
      · exact same
    · exact same
  | reserveConn i =>
    obtain rfl := Option.some.inj he
    simp only [step, reserveConn]
    split
    · split
      · refine .trans ?_ (untouched_setCall hne _)
        exact .of_same rfl rfl rfl Iff.rfl rfl rfl
      · exact same
    · exact same
  | refund i =>
    obtain rfl := Option.some.inj he
    simp only [step, refund]
    split
    · split_ifs
      · exact (untouched_setStream_of_ne hne _).trans (untouched_setCall hne _)
      · exact same
    · exact same
  | chunk i =>
    obtain rfl := Option.some.inj he
    simp only [step, writeChunk]
    split
    · split
      · have hwrite (length : ℕ) (last : Bool) : Untouched id s (s.write (.data i length last)) :=
          untouched_write id s (fun n l => hother n l length last)
        split
        · exact (hwrite _ _).trans (untouched_setCall hne _)
        · exact (hwrite _ _).trans (untouched_setCall hne _)
      · exact same
    · exact same
  | cancel i =>
    obtain rfl := Option.some.inj he
    simp only [step, cancelCall]
    split
    · split
      · exact untouched_exitCall hne _
      · split
        · exact same
        · exact (untouched_setStream_of_ne hne _).trans (untouched_exitCall hne _)
      · exact same
    · refine .trans ?_ (untouched_exitCall hne _)
      refine .trans ?_ (untouched_write id _ (fun _ _ h => by cases h))
      exact .of_same rfl rfl rfl Iff.rfl rfl rfl
    · exact same
  | deliver i =>
    obtain rfl := Option.some.inj he
    simp only [step, deliver]
    split
    · split
      · exact same
      · exact untouched_exitCall hne _
    · exact same
  | loseConn i =>
    obtain rfl := Option.some.inj he
    simp only [step, loseConn]
    split
    · split_ifs
      · exact untouched_exitCall hne _
      · exact same
    · exact same
  | leave i =>
    obtain rfl := Option.some.inj he
    simp only [step, leave]
    split
    · refine (untouched_setCall hne none).trans ?_
      refine .of_same rfl rfl rfl ?_ rfl rfl
      exact ⟨Finset.mem_of_mem_erase, Finset.mem_erase_of_ne_of_mem hne⟩
    · exact same

theorem step_of_no_call (dec : BlockDecoder δ) {e : ClientEvent} (he : e.caller? = some id)
    (h : s.call id = none) : step dec s e = s := by
  cases e with
  | frame f => cases he
  | addCredit => cases he
  | close => cases he
  | start len => cases he
  | _ =>
    obtain rfl := Option.some.inj he
    simp only [step, writeRequest, reserveStream, reserveConn, refund, writeChunk, cancelCall,
      deliver, loseConn, leave, h]

structure Sending (s : ClientConn δ) (id : ℕ) (granted : ℤ) : Prop where
  mem : id ∈ s.streams
  object : s.stream id ≠ none
  short : ∀ len, s.call id = some (.headers len) → (len : ℤ) ≤ maxInt32
  sound : ∀ w, s.call id = some (.body w) → w.Sound
  account : (s.streamAccount id granted).Solvent

theorem dataBytesOn_of_notMem {fs : List WireFrame}
    (h : ∀ length last, WireFrame.data id length last ∉ fs) : dataBytesOn id fs = 0 := by
  refine List.sum_eq_zero ?_
  intro x hx
  obtain ⟨f, hf, rfl⟩ := List.mem_map.mp hx
  cases f with
  | data j length last =>
    have hj : j ≠ id := by
      rintro rfl
      exact h length last hf
    exact if_neg hj
  | _ => rfl

theorem Untouched.spent (h : Untouched id s t) : dataBytesOn id t.wire = dataBytesOn id s.wire := by
  obtain ⟨new, hnew, hdata⟩ := h.wire
  rw [hnew, dataBytesOn_append, dataBytesOn_of_notMem hdata, add_zero]

theorem Untouched.streamAccount (h : Untouched id s t) (granted : ℤ) :
    t.streamAccount id granted = s.streamAccount id granted := by
  have hwindow : t.sendWindow id = s.sendWindow id := by
    have hw := h.window
    unfold sendWindow
    cases hs : s.stream id with
    | none =>
      rw [hs, Option.map_none, Option.map_eq_none_iff] at hw
      rw [hw]
    | some cs =>
      rw [hs, Option.map_some] at hw
      obtain ⟨cs', hcs', hsend⟩ := Option.map_eq_some_iff.mp hw
      rw [hcs']
      exact hsend
  have hdue : t.dueOn id = s.dueOn id := by
    unfold dueOn
    rw [h.adding]
  unfold ClientConn.streamAccount
  rw [hwindow, hdue, h.call, h.spent]

theorem Sending.untouched {granted : ℤ} (h : Sending s id granted) (hsame : Untouched id s t) :
    Sending t id granted := by
  refine ⟨hsame.listed.mpr h.mem, ?_, ?_, ?_, ?_⟩
  · intro hnone
    have hwindow := hsame.window
    rw [hnone, Option.map_none] at hwindow
    exact h.object (Option.map_eq_none_iff.mp hwindow.symm)
  · rw [hsame.call]
    exact h.short
  · rw [hsame.call]
    exact h.sound
  · rw [hsame.streamAccount]
    exact h.account

theorem Sending.mono {granted : ℤ} (h : Sending s id granted) {more : ℤ} (hmore : 0 ≤ more) :
    Sending s id (granted + more) :=
  ⟨h.mem, h.object, h.short, h.sound, h.account.apply (c := .regrant more) trivial hmore⟩

theorem streamAccount_held (hadding : t.adding = s.adding)
    (hspent : dataBytesOn id t.wire = dataBytesOn id s.wire) (granted : ℤ) :
    t.streamAccount id granted = { s.streamAccount id granted with
      window := t.sendWindow id
      held := (s.streamAccount id granted).held +
        (callHeld (t.call id) - callHeld (s.call id)) } := by
  have hdue : t.dueOn id = s.dueOn id := by
    unfold dueOn
    rw [hadding]
  have hheld : callHeld (s.call id) + (callHeld (t.call id) - callHeld (s.call id)) =
      callHeld (t.call id) := by
    omega
  unfold streamAccount
  dsimp only
  rw [hspent, hdue, hheld]

theorem streamAccount_chunk {granted taken : ℤ} {last : Bool} (hpos : 0 ≤ taken)
    (hheld : (s.streamAccount id granted).held = taken) (hcall : callHeld (t.call id) = 0)
    (hstream : t.stream = s.stream) (hadding : t.adding = s.adding)
    (hwire : t.wire = s.wire ++ [.data id taken.toNat last]) :
    t.streamAccount id granted = { s.streamAccount id granted with
      held := (s.streamAccount id granted).held + -taken
      spent := (s.streamAccount id granted).spent + taken } := by
  have hnow : callHeld (t.call id) = (s.streamAccount id granted).held + -taken := by
    rw [hcall, hheld]
    exact (add_neg_cancel taken).symm
  have hspent : dataBytesOn id t.wire = dataBytesOn id s.wire + taken := by
    rw [hwire, dataBytesOn_append]
    congr 1
    change (if id = id then (taken.toNat : ℤ) else 0) + 0 = taken
    rw [if_pos rfl]
    omega
  unfold streamAccount sendWindow dueOn at hnow ⊢
  dsimp only at hnow ⊢
  rw [hnow, hspent, hstream, hadding]

theorem sendWindow_of_stream (h : s.stream id = some cs) : s.sendWindow id = cs.sendW := by
  unfold sendWindow
  rw [h]
  rfl

theorem setStream_self (s : ClientConn δ) (id : ℕ) (cs : ClientStream) :
    (s.setStream id cs).stream id = some cs := Function.update_self ..

theorem setCall_self (s : ClientConn δ) (id : ℕ) (c : Option Call) :
    (s.setCall id c).call id = c := Function.update_self ..

namespace Sending

variable {s : ClientConn δ} {id : ℕ} {granted : ℤ}

section

variable (h : Sending s id granted)

include h

theorem body {t : ClientConn δ} {w : Writer} (hcall : t.call id = some (.body w)) (hw : w.Sound)
    (hstreams : t.streams = s.streams) (hobject : t.stream id ≠ none)
    (hmoves : CreditAccount.Moves (s.streamAccount id granted) (t.streamAccount id granted)) :
    Sending t id granted := by
  refine ⟨hstreams ▸ h.mem, hobject, ?_, ?_, h.account.moves hmoves⟩
  · intro len hlen
    rw [hcall] at hlen
    cases hlen
  · intro v hv
    rw [hcall] at hv
    cases hv
    exact hw

theorem bodyHeld {t : ClientConn δ} {w : Writer} (hcall : t.call id = some (.body w))
    (hw : w.Sound) (hstreams : t.streams = s.streams) (hobject : t.stream id ≠ none)
    (hadding : t.adding = s.adding) (hspent : dataBytesOn id t.wire = dataBytesOn id s.wire)
    (hmoves : CreditAccount.Moves (s.streamAccount id granted) { s.streamAccount id granted with
      window := t.sendWindow id
      held := (s.streamAccount id granted).held + (w.streamHeld - callHeld (s.call id)) }) :
    Sending t id granted := by
  refine h.body hcall hw hstreams hobject ?_
  rw [streamAccount_held (t := t) hadding hspent granted, hcall]
  exact hmoves

theorem bodyKept {t : ClientConn δ} {w : Writer} (hcall : t.call id = some (.body w))
    (hw : w.Sound) (hstreams : t.streams = s.streams) (hstream : t.stream = s.stream)
    (hadding : t.adding = s.adding) (hspent : dataBytesOn id t.wire = dataBytesOn id s.wire)
    (hheld : w.streamHeld = callHeld (s.call id)) : Sending t id granted := by
  have hwindow : t.sendWindow id = s.sendWindow id := by
    unfold sendWindow
    rw [hstream]
  refine h.bodyHeld hcall hw hstreams (by rw [hstream]; exact h.object) hadding hspent ?_
  rw [hwindow, hheld]
  exact .keep rfl (sub_self _)

theorem writeRequest (hsends : (s.writeRequest id).sends id = true) :
    Sending (s.writeRequest id) id granted := by
  unfold ClientConn.writeRequest at hsends ⊢
  cases hcall : s.call id with
  | none => exact h
  | some c =>
    cases c with
    | headers len =>
      simp only [hcall] at hsends ⊢
      by_cases hlen : len = 0
      · simp only [hlen, if_true, sends, setCall_self] at hsends
        cases hsends
      · rw [if_neg hlen]
        have hpos := ServerConn.effectiveMaxFrame_pos s.serverS
        generalize s.serverS.effectiveMaxFrame = frame at hpos ⊢
        have hsound : Writer.Sound ⟨id, len, true, frame, .stream, 0, 0⟩ := by
          refine ⟨Nat.pos_of_ne_zero hlen, h.short len hcall, hpos, ?_, ?_, ?_⟩
          all_goals
            intro hphase
            cases hphase
        refine h.bodyKept (setCall_self _ id _) hsound rfl rfl rfl ?_ ?_
        · change dataBytesOn id (s.wire ++ [.headers id _]) = _
          rw [dataBytesOn_append]
          exact add_zero _
        · rw [hcall]
          rfl
    | _ => exact h

theorem reserveStream : Sending (s.reserveStream id) id granted := by
  unfold ClientConn.reserveStream
  split
  · rename_i w cs hcall hstream
    split_ifs with hready
    · obtain ⟨hphase, hsome⟩ := hready
      have hw := h.sound w hcall
      have hwindow := sendWindow_of_stream hstream
      have hpos := Window.offer_pos cs.sendW _ hsome (ServerConn.want_pos hw)
      have hle := Window.offer_le cs.sendW (ServerConn.Writer.want w)
      have hsound := ServerConn.sound_advance hw (.reserved w cs.sendW hphase hsome)
      generalize cs.sendW.offer (ServerConn.Writer.want w) = taken at hpos hle hsound ⊢
      refine h.bodyHeld (setCall_self _ id _) hsound rfl (setStream_lives s id _ id h.object) rfl
        rfl ?_
      refine CreditAccount.Moves.reserve hpos ?_ ?_ ?_
      · change _ ≤ (s.sendWindow id).n
        rw [hwindow]
        exact hle
      · change _ = (s.sendWindow id).take _
        rw [hwindow]
        exact sendWindow_of_stream (setStream_self s id _)
      · rw [hcall]
        change _ - w.streamHeld = _
        rw [(Writer.held_stream hphase).1, sub_zero]
        exact (Writer.held_conn rfl).1
    · exact h
  · exact h

theorem reserveConn : Sending (s.reserveConn id) id granted := by
  unfold ClientConn.reserveConn
  split
  · rename_i w hcall
    split
    · rename_i hready
      obtain ⟨hphase, hsome⟩ := hready
      have hw := h.sound w hcall
      have hle := Window.offer_le_max s.sendW w.streamTaken
      refine h.bodyKept (setCall_self _ id _)
        (ServerConn.sound_advance hw (.granted w s.sendW hphase hsome)) rfl rfl rfl rfl ?_
      rw [hcall]
      change _ = w.streamHeld
      rw [(Writer.held_conn hphase).1]
      unfold Writer.streamHeld
      dsimp only
      split_ifs with hlow
      · rfl
      · change s.sendW.offer w.streamTaken = w.streamTaken
        omega
    · exact h
  · exact h

theorem refund : Sending (s.refund id) id granted := by
  unfold ClientConn.refund
  split
  · rename_i w cs hcall hstream
    split_ifs with hphase
    · have hw := h.sound w hcall
      obtain ⟨hpos, hlt, -⟩ := hw.refund hphase
      have hheld : (s.streamAccount id granted).held = w.streamTaken := by
        change callHeld (s.call id) = _
        rw [hcall]
        exact (Writer.held_refund hphase).1
      refine h.bodyHeld (setCall_self _ id _)
        (ServerConn.sound_advance hw (.refunded w hphase)) rfl
        (setStream_lives s id _ id h.object) rfl rfl
        (.giveBack (show 0 ≤ w.streamTaken - w.connTaken by omega) (by omega) ?_ ?_)
      · change _ = (s.sendWindow id).replenish _
        rw [sendWindow_of_stream hstream]
        exact sendWindow_of_stream (setStream_self s id _)
      · rw [hcall]
        change w.connTaken - w.streamHeld = _
        rw [(Writer.held_refund hphase).1]
        omega
    · exact h
  · exact h

theorem writeChunk (hsends : (s.writeChunk id).sends id = true) :
    Sending (s.writeChunk id) id granted := by
  unfold ClientConn.writeChunk at hsends ⊢
  cases hcall : s.call id with
  | none => exact h
  | some c =>
    cases c with
    | body w =>
      simp only [hcall] at hsends ⊢
      by_cases hphase : w.phase = .write
      · rw [if_pos hphase] at hsends ⊢
        by_cases hleft : w.remaining - w.connTaken.toNat = 0
        · simp only [hleft, if_true, sends, setCall_self] at hsends
          cases hsends
        · rw [if_neg hleft]
          have hw := h.sound w hcall
          obtain ⟨hpos, -⟩ := hw.write hphase
          refine h.body (setCall_self _ id _)
            (ServerConn.sound_advance hw (.wrote w hphase hleft)) rfl h.object ?_
          have hheld : (s.streamAccount id granted).held = w.connTaken := by
            change callHeld (s.call id) = _
            rw [hcall]
            exact (Writer.held_write hphase).1
          have hcall' := congrArg callHeld (setCall_self (s.write (.data id w.connTaken.toNat
            (decide (w.remaining - w.connTaken.toNat = 0)))) id (some (.body { w with
              remaining := w.remaining - w.connTaken.toNat
              phase := .stream
              streamTaken := 0
              connTaken := 0 })))
          rw [streamAccount_chunk hpos.le hheld hcall' rfl rfl rfl]
          exact CreditAccount.Moves.spend hpos.le hheld.ge rfl
      · rw [if_neg hphase]
        exact h
    | _ => exact h

end

theorem sends_exitCall (t : ClientConn δ) (id : ℕ) (exit : Exit) :
    (t.exitCall id exit).sends id = false := by
  have hcall : (t.exitCall id exit).call id = some .leaving := setCall_self t id _
  unfold sends
  rw [hcall]

theorem leaves_or_same (dec : BlockDecoder δ) (s : ClientConn δ) (id : ℕ) {e : ClientEvent}
    (he : e = .cancel id ∨ e = .deliver id ∨ e = .loseConn id ∨ e = .leave id) :
    (step dec s e).sends id = false ∨ step dec s e = s := by
  rcases he with rfl | rfl | rfl | rfl
  · simp only [step, cancelCall]
    split
    · split
      · exact .inl (sends_exitCall _ id _)
      · split
        · exact .inr rfl
        · exact .inl (sends_exitCall _ id _)
      · exact .inr rfl
    · exact .inl (sends_exitCall _ id _)
    · exact .inr rfl
  · simp only [step, deliver]
    split
    · split
      · exact .inr rfl
      · exact .inl (sends_exitCall _ id _)
    · exact .inr rfl
  · simp only [step, loseConn]
    split
    · split_ifs
      · exact .inl (sends_exitCall _ id _)
      · exact .inr rfl
    · exact .inr rfl
  · simp only [step, leave]
    split
    · left
      have hcall : (s.setCall id none).call id = none := setCall_self s id none
      unfold sends
      dsimp only
      rw [hcall]
    · exact .inr rfl

theorem caller (h : Sending s id granted) (dec : BlockDecoder δ) {e : ClientEvent}
    (he : e.caller? = some id) (hsends : (step dec s e).sends id = true) :
    Sending (step dec s e) id granted := by
  have hother (heq : e = .cancel id ∨ e = .deliver id ∨ e = .loseConn id ∨ e = .leave id) :
      Sending (step dec s e) id granted := by
    rcases leaves_or_same dec s id heq with hleaves | hsame
    · rw [hleaves] at hsends
      cases hsends
    · rw [hsame]
      exact h
  cases e with
  | frame f => cases he
  | addCredit => cases he
  | close => cases he
  | start len => cases he
  | headers j =>
    obtain rfl := Option.some.inj he
    exact h.writeRequest hsends
  | reserveStream j =>
    obtain rfl := Option.some.inj he
    exact h.reserveStream
  | reserveConn j =>
    obtain rfl := Option.some.inj he
    exact h.reserveConn
  | refund j =>
    obtain rfl := Option.some.inj he
    exact h.refund
  | chunk j =>
    obtain rfl := Option.some.inj he
    exact h.writeChunk hsends
  | cancel j =>
    obtain rfl := Option.some.inj he
    exact hother (.inl rfl)
  | deliver j =>
    obtain rfl := Option.some.inj he
    exact hother (.inr (.inl rfl))
  | loseConn j =>
    obtain rfl := Option.some.inj he
    exact hother (.inr (.inr (.inl rfl)))
  | leave j =>
    obtain rfl := Option.some.inj he
    exact hother (.inr (.inr (.inr rfl)))

theorem addCredit (h : Sending s id granted) (hid : id ≠ 0) :
    Sending s.addCredit id granted := by
  have hdue {j : ℕ} {delta : ℤ} (hadd : s.adding = some (j, delta)) :
      s.dueOn id = if j = id then delta else 0 := by
    unfold dueOn
    rw [hadd]
    rfl
  have hkept {t : ClientConn δ} (hcall : t.call = s.call) (hstream : t.stream id = s.stream id)
      (hstreams : t.streams = s.streams) (hwire : t.wire = s.wire)
      (hnone : s.dueOn id = 0) (hadding : t.adding = none) : Sending t id granted := by
    refine ⟨hstreams ▸ h.mem, hstream ▸ h.object, hcall ▸ h.short, hcall ▸ h.sound, ?_⟩
    have haccount : t.streamAccount id granted = s.streamAccount id granted := by
      have hnow : t.dueOn id = s.dueOn id := by
        rw [hnone]
        unfold dueOn
        rw [hadding]
        rfl
      unfold streamAccount sendWindow
      rw [hnow, hcall, hstream, hwire]
    rw [haccount]
    exact h.account
  unfold ClientConn.addCredit
  split
  · exact h
  · rename_i delta hadd
    refine hkept rfl rfl rfl rfl ?_ rfl
    rw [hdue hadd, if_neg (Ne.symm hid)]
  · rename_i j delta _ hadd
    by_cases hj : j = id
    · subst hj
      split
      · rename_i hnone
        exact absurd hnone h.object
      · rename_i cs hstream
        refine ⟨h.mem, setStream_lives s j _ j h.object, h.short, h.sound, ?_⟩
        have hadded := h.account.apply (c := .add) trivial trivial
        convert hadded using 1
        have hwindow : Window.replenish cs.sendW delta =
            (s.sendWindow j).replenish (s.dueOn j) := by
          rw [hdue hadd, if_pos rfl, sendWindow_of_stream hstream]
        unfold streamAccount CreditAccount.apply
        dsimp only
        rw [← hwindow]
        congr 1
        exact sendWindow_of_stream (setStream_self s j _)
    · have hnone : s.dueOn id = 0 := by
        rw [hdue hadd, if_neg hj]
      split
      · exact hkept rfl rfl rfl rfl hnone rfl
      · refine hkept rfl ?_ rfl rfl hnone rfl
        exact stream_setStream_of_ne s (Ne.symm hj) _

end Sending

end ClientConn

end EnvoyGo.H2

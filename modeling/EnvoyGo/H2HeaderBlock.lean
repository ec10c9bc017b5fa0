import EnvoyGo.H2ServerConn

/-!
A header block on its way: the writer cuts it into one HEADERS frame and CONTINUATION frames, the
reader of the other side puts it together again.  The framer under both is a parameter: it says
which frames it cannot write.
-/

namespace EnvoyGo.H2

/-- `http2.PriorityParam`. -/
structure PriorityParam where
  streamDep : ℕ := 0
  exclusive : Bool := false
  weight : UInt8 := 0
  deriving DecidableEq

def PriorityParam.isZero (p : PriorityParam) : Bool := decide (p = {})

/-- `http2.HeadersFrameParam`. -/
structure HeadersFrameParam where
  streamID : ℕ
  blockFragment : Bytes
  endStream : Bool
  endHeaders : Bool := false
  padLength : UInt8 := 0
  priority : PriorityParam := {}
  deriving DecidableEq

def HeadersFrameParam.overhead (p : HeadersFrameParam) : ℕ :=
  (if p.padLength ≠ 0 then 1 + p.padLength.toNat else 0) + if p.priority.isZero then 0 else 5

/-- A frame of a header block. -/
inductive BlockFrame
  | headers (p : HeadersFrameParam)
  | continuation (streamID : ℕ) (endHeaders : Bool) (fragment : Bytes)
  deriving DecidableEq

namespace BlockFrame

/-- What SETTINGS_MAX_FRAME_SIZE bounds. -/
def payloadLength : BlockFrame → ℕ
  | .headers p => p.overhead + p.blockFragment.length
  | .continuation _ _ fragment => fragment.length

def endHeaders : BlockFrame → Bool
  | .headers p => p.endHeaders
  | .continuation _ endHeaders _ => endHeaders

def isContinuation : BlockFrame → Bool
  | .headers _ => false
  | .continuation _ _ _ => true

/-- The identifiers have 31 bits, and the frame is not of the connection. -/
def Valid : BlockFrame → Prop
  | .headers p => 0 < p.streamID ∧ p.streamID < 2^31 ∧ p.priority.streamDep < 2^31
  | .continuation id _ _ => 0 < id ∧ id < 2^31

end BlockFrame

def maxFrameOf (peerMaxFrameSize : ℤ) : ℤ :=
  if peerMaxFrameSize ≤ 0 then defaultPeerMaxFrameSize else peerMaxFrameSize

def headMax (p : HeadersFrameParam) (maxFrame : ℤ) : ℤ :=
  max 0 (maxFrame - p.overhead)

abbrev Written := List BlockFrame × Option String

/-- The CONTINUATION loop; a turn takes at least one byte, so `fuel` is the length of the rest. -/
def writeContinuations (writeErr : BlockFrame → Option String) (streamID maxFrame : ℕ) :
    ℕ → Bytes → Written
  | 0, _ => ([], none)
  | fuel + 1, rest =>
    if rest = [] then ([], none)
    else
      let f := BlockFrame.continuation streamID (rest.drop maxFrame).isEmpty (rest.take maxFrame)
      match writeErr f with
      | some err => ([], some err)
      | none =>
        let w := writeContinuations writeErr streamID maxFrame fuel (rest.drop maxFrame)
        (f :: w.1, w.2)

def writeHeaderBlock (writeErr : BlockFrame → Option String) (p : HeadersFrameParam)
    (peerMaxFrameSize : ℤ) : Written :=
  let maxFrame := maxFrameOf peerMaxFrameSize
  let head := p.blockFragment.take (headMax p maxFrame).toNat
  let rest := p.blockFragment.drop (headMax p maxFrame).toNat
  let first := BlockFrame.headers { p with blockFragment := head, endHeaders := rest.isEmpty }
  match writeErr first with
  | some err => ([], some err)
  | none =>
    let w := writeContinuations writeErr p.streamID maxFrame.toNat rest.length rest
    (first :: w.1, w.2)

structure HeaderBlock where
  streamID : ℕ
  block : Bytes
  endStream : Bool
  hasPriority : Bool
  priority : PriorityParam
  deriving DecidableEq

namespace HeaderBlock

def startHeaderBlock (p : HeadersFrameParam) : HeaderBlock :=
  ⟨p.streamID, p.blockFragment, p.endStream, !p.priority.isZero, p.priority⟩

/-- The part of an accumulator that the connection's own `appendContinuation` reads. -/
def accumulator (b : HeaderBlock) : HeaderBlockAccumulator :=
  ⟨b.streamID, b.block, b.endStream, if b.hasPriority then some b.priority.streamDep else none⟩

def appendContinuation (acc : Option HeaderBlock) (streamID : ℕ) (fragment : Bytes) :
    Except Error HeaderBlock :=
  match acc with
  | none =>
    .error (connError .protocolError ("unexpected CONTINUATION for stream " ++ Nat.repr streamID))
  | some b =>
    if b.streamID ≠ streamID then
      .error (connError .protocolError ("got CONTINUATION for stream " ++ Nat.repr streamID ++
        "; expected stream " ++ Nat.repr b.streamID))
    else if b.block.length + fragment.length > maxHeaderBlockSize then
      .error (connError .enhanceYourCalm
        "h2 continuation accumulator exceeded maxHeaderBlockSize")
    else .ok { b with block := b.block ++ fragment }

/-- `onHeaders` and `onContinuation`: the open accumulator, and the block that is complete. -/
def receive (acc : Option HeaderBlock) :
    BlockFrame → Except Error (Option HeaderBlock × Option HeaderBlock)
  | .headers p =>
    if !p.endHeaders then .ok (some (startHeaderBlock p), none)
    else .ok (acc, some (startHeaderBlock p))
  | .continuation id endHeaders fragment =>
    match appendContinuation acc id fragment with
    | .error err => .error err
    | .ok b => if !endHeaders then .ok (some b, none) else .ok (none, some b)

def receiveAll (acc : Option HeaderBlock) :
    List BlockFrame → Except Error (Option HeaderBlock × List HeaderBlock)
  | [] => .ok (acc, [])
  | f :: fs =>
    match receive acc f with
    | .error err => .error err
    | .ok (acc', done) => (receiveAll acc' fs).map (fun r => (r.1, done.toList ++ r.2))

end HeaderBlock

/-- CONTINUATION frames that carry `rest` between them, END_HEADERS on the last. -/
inductive Continues (id maxFrame : ℕ) : Bytes → List BlockFrame → Prop
  | nil : Continues id maxFrame [] []
  | cons {chunk rest : Bytes} {fs : List BlockFrame} (hne : chunk ≠ [])
      (hlen : chunk.length ≤ maxFrame) (h : Continues id maxFrame rest fs) :
      Continues id maxFrame (chunk ++ rest) (.continuation id rest.isEmpty chunk :: fs)

def EndsOnce (fs : List BlockFrame) : Prop :=
  ∀ pre f post, fs = pre ++ f :: post → (f.endHeaders = true ↔ post = [])

section Writer

variable {id maxFrame : ℕ} {rest : Bytes} {fs : List BlockFrame}

theorem continues_writeContinuations {writeErr : BlockFrame → Option String} (id maxFrame : ℕ)
    (hid : 0 < id ∧ id < 2^31) (hmax : 0 < maxFrame) (hsmall : maxFrame < 2^24)
    (hwrite : ∀ f : BlockFrame, f.Valid → f.payloadLength < 2^24 → writeErr f = none)
    (fuel : ℕ) (rest : Bytes) (hfuel : rest.length ≤ fuel) :
    Continues id maxFrame rest (writeContinuations writeErr id maxFrame fuel rest).1 ∧
      (writeContinuations writeErr id maxFrame fuel rest).2 = none := by
  induction fuel generalizing rest with
  | zero =>
    have hrest : rest = [] := List.length_eq_zero_iff.mp (Nat.le_zero.mp hfuel)
    subst hrest
    exact ⟨.nil, rfl⟩
  | succ fuel ih =>
    by_cases hrest : rest = []
    · subst hrest
      exact ⟨.nil, rfl⟩
    · have htake : (rest.take maxFrame).length ≤ maxFrame := List.length_take_le _ _
      have hsent : writeErr (.continuation id (rest.drop maxFrame).isEmpty
          (rest.take maxFrame)) = none := hwrite _ hid (lt_of_le_of_lt htake hsmall)
      have hpos : 0 < rest.length := List.length_pos_iff.mpr hrest
      have hshort : (rest.drop maxFrame).length ≤ fuel := by
        rw [List.length_drop]
        omega
      obtain ⟨hcont, hnone⟩ := ih (rest.drop maxFrame) hshort
      unfold writeContinuations
      rw [if_neg hrest]
      simp only [hsent]
      refine ⟨?_, hnone⟩
      have hne : rest.take maxFrame ≠ [] := by
        intro hempty
        have hlen := congrArg List.length hempty
        rw [List.length_take, List.length_nil] at hlen
        omega
      have hcons := Continues.cons hne htake hcont
      rwa [List.take_append_drop] at hcons

theorem Continues.nil_iff (h : Continues id maxFrame rest fs) : rest.isEmpty = true ↔ fs = [] := by
  cases h with
  | nil => exact iff_of_true rfl rfl
  | cons hne hlen h =>
    refine iff_of_false ?_ (List.cons_ne_nil _ _)
    intro hempty
    exact hne (List.append_eq_nil_iff.mp (List.isEmpty_iff.mp hempty)).1

theorem Continues.isContinuation (h : Continues id maxFrame rest fs) :
    ∀ f ∈ fs, f.isContinuation = true := by
  induction h with
  | nil => exact nofun
  | cons hne hlen h ih =>
    intro f hf
    obtain rfl | hf := List.mem_cons.mp hf
    · rfl
    · exact ih f hf

theorem Continues.payloadLength_le (h : Continues id maxFrame rest fs) :
    ∀ f ∈ fs, f.payloadLength ≤ maxFrame := by
  induction h with
  | nil => exact nofun
  | cons hne hlen h ih =>
    intro f hf
    obtain rfl | hf := List.mem_cons.mp hf
    · exact hlen
    · exact ih f hf

theorem endsOnce_cons {f : BlockFrame} (hf : f.endHeaders = true ↔ fs = []) (h : EndsOnce fs) :
    EndsOnce (f :: fs) := by
  intro pre g post hsplit
  cases pre with
  | nil =>
    obtain ⟨rfl, rfl⟩ := List.cons.inj hsplit
    exact hf
  | cons x pre => exact h pre g post (List.cons.inj hsplit).2

theorem Continues.endsOnce (h : Continues id maxFrame rest fs) : EndsOnce fs := by
  induction h with
  | nil =>
    intro pre f post hsplit
    exact absurd hsplit.symm (List.append_ne_nil_of_right_ne_nil pre (List.cons_ne_nil f post))
  | cons hne hlen h ih => exact endsOnce_cons h.nil_iff ih

namespace HeaderBlock

theorem appendContinuation_of_fits (b : HeaderBlock) (fragment : Bytes)
    (hfits : b.block.length + fragment.length ≤ maxHeaderBlockSize) :
    appendContinuation (some b) b.streamID fragment =
      .ok { b with block := b.block ++ fragment } := by
  simp only [appendContinuation]
  rw [if_neg (not_not.mpr rfl), if_neg (not_lt.mpr hfits)]

theorem receiveAll_of_continues {b : HeaderBlock} (h : Continues b.streamID maxFrame rest fs)
    (hfits : b.block.length + rest.length ≤ maxHeaderBlockSize) (hne : rest ≠ []) :
    receiveAll (some b) fs = .ok (none, [{ b with block := b.block ++ rest }]) := by
  generalize hid : b.streamID = id at h
  induction h generalizing b with
  | nil => exact absurd rfl hne
  | @cons chunk rest fs hchunk hlen h ih =>
    subst hid
    rw [List.length_append] at hfits
    have happend := appendContinuation_of_fits b chunk (by omega)
    by_cases hrest : rest = []
    · subst hrest
      have hnil : fs = [] := h.nil_iff.mp rfl
      subst hnil
      simp [receiveAll, receive, happend, Except.map]
    · have hmore := ih (b := { b with block := b.block ++ chunk })
        (by rw [List.length_append]; omega) hrest rfl
      have hopen : rest.isEmpty = false := by
        rw [List.isEmpty_eq_false_iff]
        exact hrest
      simp [receiveAll, receive, happend, hopen, hmore, Except.map, List.append_assoc]

end HeaderBlock

end Writer

/-- The writer's promise to the reader on the other side. -/
structure RoundTrip (p : HeadersFrameParam) (limit : ℕ) (fs : List BlockFrame) : Prop where
  shape : ∃ first rest, fs = .headers first :: rest ∧ ∀ f ∈ rest, f.isContinuation = true
  ends : EndsOnce fs
  payload : ∀ f ∈ fs, f.payloadLength ≤ limit
  received : HeaderBlock.receiveAll none fs = .ok (none, [HeaderBlock.startHeaderBlock p])

section RoundTrips

variable {p : HeadersFrameParam}

theorem overhead_le (p : HeadersFrameParam) : p.overhead ≤ 261 := by
  have hpad : p.padLength.toNat < 256 := p.padLength.toNat_lt
  unfold HeadersFrameParam.overhead
  split_ifs <;> omega

theorem roundTrip_of_continues {maxFrame : ℕ} {rest : List BlockFrame}
    (hmax : p.overhead ≤ maxFrame) (hblock : p.blockFragment.length ≤ maxHeaderBlockSize)
    (h : Continues p.streamID maxFrame (p.blockFragment.drop (maxFrame - p.overhead)) rest) :
    RoundTrip p maxFrame (.headers { p with
      blockFragment := p.blockFragment.take (maxFrame - p.overhead)
      endHeaders := (p.blockFragment.drop (maxFrame - p.overhead)).isEmpty } :: rest) where
  shape := ⟨_, rest, rfl, h.isContinuation⟩
  ends := endsOnce_cons h.nil_iff h.endsOnce
  payload := by
    intro f hf
    obtain rfl | hf := List.mem_cons.mp hf
    · have htake := List.length_take_le (maxFrame - p.overhead) p.blockFragment
      change p.overhead + (p.blockFragment.take (maxFrame - p.overhead)).length ≤ maxFrame
      omega
    · exact h.payloadLength_le f hf
  received := by
    have hwhole := List.take_append_drop (maxFrame - p.overhead) p.blockFragment
    by_cases hrest : p.blockFragment.drop (maxFrame - p.overhead) = []
    · have hnone : rest = [] := h.nil_iff.mp (List.isEmpty_iff.mpr hrest)
      subst hnone
      rw [hrest, List.append_nil] at hwhole
      rw [hrest, hwhole]
      rfl
    · have hopen : (p.blockFragment.drop (maxFrame - p.overhead)).isEmpty = false := by
        rw [List.isEmpty_eq_false_iff]
        exact hrest
      have hfits : (p.blockFragment.take (maxFrame - p.overhead)).length +
          (p.blockFragment.drop (maxFrame - p.overhead)).length ≤ maxHeaderBlockSize := by
        rw [← List.length_append, hwhole]
        exact hblock
      have hmore := HeaderBlock.receiveAll_of_continues
        (b := HeaderBlock.startHeaderBlock { p with
          blockFragment := p.blockFragment.take (maxFrame - p.overhead)
          endHeaders := false }) h hfits hrest
      rw [hopen]
      simp only [HeaderBlock.receiveAll, HeaderBlock.receive, Bool.not_false, if_true, hmore]
      exact congrArg (fun block => Except.ok (none, [HeaderBlock.mk p.streamID block p.endStream
        (!p.priority.isZero) p.priority])) hwhole

/-- The framer writes what its contract covers: frames with legal identifiers that fit the 24 bits
of a frame length. -/
theorem writeHeaderBlock_roundTrip (writeErr : BlockFrame → Option String)
    (hwrite : ∀ f : BlockFrame, f.Valid → f.payloadLength < 2^24 → writeErr f = none)
    (p : HeadersFrameParam) (hp : (BlockFrame.headers p).Valid)
    (hblock : p.blockFragment.length ≤ maxHeaderBlockSize) (peerMaxFrameSize : ℤ)
    (hpeer : peerMaxFrameSize = 0 ∨ 16384 ≤ peerMaxFrameSize ∧ peerMaxFrameSize < 2^24) :
    ∃ fs, writeHeaderBlock writeErr p peerMaxFrameSize = (fs, none) ∧
      RoundTrip p (if peerMaxFrameSize = 0 then 16384 else peerMaxFrameSize.toNat) fs := by
  have hlimit : maxFrameOf peerMaxFrameSize =
      ((if peerMaxFrameSize = 0 then 16384 else peerMaxFrameSize.toNat : ℕ) : ℤ) := by
    unfold maxFrameOf defaultPeerMaxFrameSize
    split_ifs <;> omega
  have hrange : 16384 ≤ (if peerMaxFrameSize = 0 then 16384 else peerMaxFrameSize.toNat) ∧
      (if peerMaxFrameSize = 0 then 16384 else peerMaxFrameSize.toNat) < 2^24 := by
    split_ifs <;> omega
  generalize (if peerMaxFrameSize = 0 then 16384 else peerMaxFrameSize.toNat) = m at hlimit hrange
  have hover := overhead_le p
  have hhead : (headMax p m).toNat = m - p.overhead := by
    unfold headMax
    omega
  obtain ⟨hcont, hnone⟩ := continues_writeContinuations p.streamID m ⟨hp.1, hp.2.1⟩ (by omega)
    hrange.2 hwrite _ (p.blockFragment.drop (m - p.overhead)) le_rfl
  have htrip := roundTrip_of_continues (by omega) hblock hcont
  obtain ⟨hfirst, -⟩ := List.forall_mem_cons.mp htrip.payload
  refine ⟨_, ?_, htrip⟩
  have hsent := hwrite (.headers { p with
    blockFragment := p.blockFragment.take (m - p.overhead)
    endHeaders := (p.blockFragment.drop (m - p.overhead)).isEmpty }) hp
    (lt_of_le_of_lt hfirst hrange.2)
  unfold writeHeaderBlock
  simp only [hlimit, hhead, Int.toNat_natCast]
  rw [hsent]
  exact Prod.ext rfl hnone

/-- An x/net framer with nothing wrong on its connection. -/
def framerErr (f : BlockFrame) : Option String :=
  if f.payloadLength < 2^24 then none else some "http2: frame too large"

/-- A padded block with a priority that fills the first frame and one byte of the second. -/
def paddedParam : HeadersFrameParam where
  streamID := 1
  blockFragment := List.replicate 16373 0
  endStream := true
  padLength := 6
  priority := { weight := 15 }

theorem writeHeaderBlock_roundTrip_padded :
    ∃ fs, writeHeaderBlock framerErr paddedParam 0 = (fs, none) ∧ RoundTrip paddedParam 16384 fs :=
  writeHeaderBlock_roundTrip framerErr (fun f _ hlen => by rw [framerErr, if_pos hlen]) paddedParam
    ⟨by decide, by decide, by decide⟩ (by rw [paddedParam, List.length_replicate]; decide) 0
    (.inl rfl)

end RoundTrips

section Connection

variable {δ : Type} (dec : BlockDecoder δ) {s : ServerConn δ} {acc : Option HeaderBlock}

def BlockFrame.toFrame : BlockFrame → Frame
  | .headers p =>
    .headers p.streamID p.blockFragment p.endHeaders p.endStream
      (HeaderBlock.startHeaderBlock p).accumulator.priority
  | .continuation id endHeaders fragment => .continuation id fragment endHeaders

def ServerConn.feed (dec : BlockDecoder δ) : ServerConn δ → List Frame → Result δ
  | s, [] => (s, none)
  | s, f :: fs =>
    match s.dispatchFrame dec f with
    | (s', none) => ServerConn.feed dec s' fs
    | (s', some err) => (s', some err)

theorem appendContinuation_accumulator (acc : Option HeaderBlock) (id : ℕ) (fragment : Bytes) :
    appendContinuation (acc.map HeaderBlock.accumulator) id fragment =
      (HeaderBlock.appendContinuation acc id fragment).map HeaderBlock.accumulator := by
  cases acc with
  | none => rfl
  | some b =>
    have hstream : b.accumulator.stream = b.streamID := rfl
    have hbuf : b.accumulator.buf = b.block := rfl
    simp only [HeaderBlock.appendContinuation, appendContinuation, Option.map_some, hstream,
      hbuf]
    split_ifs <;> rfl

theorem dispatchFrame_of_open (hs : s.hdrAccum = acc.map HeaderBlock.accumulator)
    {f : BlockFrame} (hf : f.endHeaders = false) {acc' done : Option HeaderBlock}
    (h : HeaderBlock.receive acc f = .ok (acc', done)) :
    done = none ∧ s.dispatchFrame dec f.toFrame =
      ({ s with hdrAccum := acc'.map HeaderBlock.accumulator }, none) := by
  cases f with
  | headers p =>
    change p.endHeaders = false at hf
    simp only [HeaderBlock.receive, hf, Bool.not_false, if_true] at h
    cases h
    refine ⟨rfl, ?_⟩
    simp only [BlockFrame.toFrame, ServerConn.dispatchFrame, ServerConn.onHeaders, hf,
      Bool.not_false, if_true]
    rfl
  | continuation id endHeaders fragment =>
    change endHeaders = false at hf
    subst hf
    have happend := appendContinuation_accumulator acc id fragment
    simp only [HeaderBlock.receive] at h
    simp only [BlockFrame.toFrame, ServerConn.dispatchFrame, ServerConn.onContinuation, hs,
      happend]
    cases hb : HeaderBlock.appendContinuation acc id fragment with
    | error err =>
      rw [hb] at h
      cases h
    | ok b =>
      rw [hb] at h
      cases h
      exact ⟨rfl, rfl⟩

theorem dispatchFrame_of_last (hs : s.hdrAccum = acc.map HeaderBlock.accumulator)
    {f : BlockFrame} (hf : f.endHeaders = true) {b : HeaderBlock}
    (h : HeaderBlock.receive acc f = .ok (none, some b)) :
    s.dispatchFrame dec f.toFrame = ({ s with hdrAccum := none } : ServerConn δ).onHeaderBlock dec
      b.streamID b.block b.endStream b.accumulator.priority := by
  cases f with
  | headers p =>
    change p.endHeaders = true at hf
    simp only [HeaderBlock.receive, hf, Bool.not_true, Bool.false_eq_true, if_false] at h
    cases h
    have hsame : s = { s with hdrAccum := none } := by
      rw [Option.map_none] at hs
      rw [← hs]
    rw [← hsame]
    simp only [BlockFrame.toFrame, ServerConn.dispatchFrame, ServerConn.onHeaders, hf,
      Bool.not_true, Bool.false_eq_true, if_false]
    rfl
  | continuation id endHeaders fragment =>
    change endHeaders = true at hf
    subst hf
    have happend := appendContinuation_accumulator acc id fragment
    simp only [HeaderBlock.receive] at h
    simp only [BlockFrame.toFrame, ServerConn.dispatchFrame, ServerConn.onContinuation, hs,
      happend]
    cases hb : HeaderBlock.appendContinuation acc id fragment with
    | error err =>
      rw [hb] at h
      cases h
    | ok c =>
      rw [hb] at h
      cases h
      rfl

theorem feed_of_receiveAll {fs : List BlockFrame} {b : HeaderBlock}
    (hs : s.hdrAccum = acc.map HeaderBlock.accumulator) (hends : EndsOnce fs)
    (h : HeaderBlock.receiveAll acc fs = .ok (none, [b])) :
    ServerConn.feed dec s (fs.map BlockFrame.toFrame) =
      ({ s with hdrAccum := none } : ServerConn δ).onHeaderBlock dec b.streamID b.block b.endStream
        b.accumulator.priority := by
  induction fs generalizing s acc with
  | nil => cases h
  | cons f fs ih =>
    have hlast := hends [] f fs rfl
    have hrest : EndsOnce fs := by
      intro pre g post hsplit
      exact hends (f :: pre) g post (congrArg (List.cons f) hsplit)
    rw [HeaderBlock.receiveAll] at h
    cases hrecv : HeaderBlock.receive acc f with
    | error err =>
      rw [hrecv] at h
      cases h
    | ok r =>
      obtain ⟨acc', done⟩ := r
      rw [hrecv] at h
      cases hf : f.endHeaders with
      | true =>
        have hnil : fs = [] := hlast.mp hf
        subst hnil
        obtain ⟨hacc, hdone⟩ := Prod.mk.inj (Except.ok.inj h)
        have hb : done = some b := by
          cases done with
          | none => cases hdone
          | some c =>
            rw [(List.cons.inj hdone).1]
        change acc' = none at hacc
        subst hacc hb
        have hdispatch := dispatchFrame_of_last dec hs hf hrecv
        rw [List.map_cons, ServerConn.feed, hdispatch]
        split
        · next hres => rw [hres]; rfl
        · next hres => rw [hres]
      | false =>
        obtain ⟨hnone, hdispatch⟩ := dispatchFrame_of_open dec hs hf hrecv
        subst hnone
        rw [List.map_cons, ServerConn.feed, hdispatch]
        refine (ih rfl hrest ?_).trans rfl
        change (HeaderBlock.receiveAll acc' fs).map _ = _ at h
        cases hmore : HeaderBlock.receiveAll acc' fs with
        | error err =>
          rw [hmore] at h
          cases h
        | ok r =>
          rw [hmore] at h
          exact h

theorem feed_roundTrip {p : HeadersFrameParam} {limit : ℕ} {fs : List BlockFrame}
    (h : RoundTrip p limit fs) (hs : s.hdrAccum = none) :
    ServerConn.feed dec s (fs.map BlockFrame.toFrame) =
      s.onHeaderBlock dec p.streamID p.blockFragment p.endStream
        (HeaderBlock.startHeaderBlock p).accumulator.priority := by
  have hfeed := feed_of_receiveAll dec hs h.ends h.received
  rw [hfeed, ← hs]
  rfl

theorem feed_singleton (f : Frame) : ServerConn.feed dec s [f] = s.dispatchFrame dec f := by
  rw [ServerConn.feed]
  split
  · next hres => rw [hres]; rfl
  · next hres => rw [hres]

/-- The CONTINUATION frames of a block whose sender chose where to cut it. -/
def continuations (id : ℕ) : List Bytes → List Frame
  | [] => []
  | chunk :: chunks => .continuation id chunk chunks.isEmpty :: continuations id chunks

theorem feed_continuations {a : HeaderBlockAccumulator} (hs : s.hdrAccum = some a)
    {chunks : List Bytes} (hne : chunks ≠ []) :
    ServerConn.feed dec s (continuations a.stream chunks) =
      if a.buf.length + chunks.flatten.length ≤ maxHeaderBlockSize then
        ({ s with hdrAccum := none } : ServerConn δ).onHeaderBlock dec a.stream
          (a.buf ++ chunks.flatten) a.endStream a.priority
      else
        ({ s with hdrAccum := none }, some (connError .enhanceYourCalm
          "h2 continuation accumulator exceeded maxHeaderBlockSize")) := by
  induction chunks generalizing s a with
  | nil => exact absurd rfl hne
  | cons chunk chunks ih =>
    rw [List.flatten_cons, List.length_append]
    cases chunks with
    | nil =>
      -- the last frame: the block is complete, or too long
      rw [List.flatten_nil, List.append_nil, List.length_nil, Nat.add_zero, continuations,
        continuations, feed_singleton]
      simp only [ServerConn.dispatchFrame, ServerConn.onContinuation, hs, appendContinuation,
        ne_eq, not_true_eq_false, if_false, List.isEmpty_nil, Bool.not_true, Bool.false_eq_true]
      by_cases hlong : a.buf.length + chunk.length > maxHeaderBlockSize
      · rw [if_pos hlong, if_neg (not_le.mpr hlong)]
      · rw [if_neg hlong, if_pos (not_lt.mp hlong)]
    | cons next chunks =>
      simp only [continuations, ServerConn.feed, ServerConn.dispatchFrame,
        ServerConn.onContinuation, hs, appendContinuation, ne_eq, not_true_eq_false, if_false]
      by_cases hlong : a.buf.length + chunk.length > maxHeaderBlockSize
      · rw [if_pos hlong, if_neg (by omega)]
      · have hmore := ih (s := { s with hdrAccum := some { a with buf := a.buf ++ chunk } }) rfl
          (List.cons_ne_nil next chunks)
        simp only [List.length_append, List.append_assoc, Nat.add_assoc] at hmore
        rw [if_neg hlong]
        exact hmore

/-- However the sender cuts a block, the connection answers the frames as it answers the block in
one frame, unless it needs a CONTINUATION and is too long. -/
theorem feed_cut (hs : s.hdrAccum = none) (id : ℕ) (head : Bytes) (chunks : List Bytes)
    (endStream : Bool) (priority : Option ℕ) :
    ServerConn.feed dec s
        (.headers id head chunks.isEmpty endStream priority :: continuations id chunks) =
      if chunks = [] ∨ head.length + chunks.flatten.length ≤ maxHeaderBlockSize then
        s.onHeaderBlock dec id (head ++ chunks.flatten) endStream priority
      else
        (s, some (connError .enhanceYourCalm
          "h2 continuation accumulator exceeded maxHeaderBlockSize")) := by
  have hsame : ({ s with hdrAccum := none } : ServerConn δ) = s := by rw [← hs]
  cases chunks with
  | nil =>
    rw [List.flatten_nil, List.append_nil, if_pos (.inl rfl), continuations, feed_singleton]
    rfl
  | cons chunk chunks =>
    have hmore := feed_continuations dec
      (s := { s with hdrAccum := some ⟨id, head, endStream, priority⟩ }) rfl
      (List.cons_ne_nil chunk chunks)
    simp only [hsame] at hmore
    simp only [List.cons_ne_nil, false_or]
    exact hmore

theorem feed_cut_empty :
    ServerConn.feed (fun d _ => some ([], d)) (newServerConn () {} {})
        (.headers 1 [0x82] false true none :: continuations 1 [[], [0x84]]) =
      (newServerConn () {} {}).onHeaderBlock (fun d _ => some ([], d)) 1 [0x82, 0x84] true none :=
  feed_cut _ rfl 1 [0x82] [[], [0x84]] true none

end Connection

end EnvoyGo.H2

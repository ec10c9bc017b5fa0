import Mathlib.Data.List.Infix
import EnvoyGo.Runs

/-!
The hand-over of frames from the reader goroutine of an HTTP/2 framer to the one consumer of the
connection.  `frameCh` is unbuffered, `releaseCh` has room for one token, `stopCh` and `doneCh`
are only ever closed.  A select picks any of its ready cases; a step that is not ready waits.
-/

namespace EnvoyGo.H2.FrameReader

inductive FramerErr
  | connectionError (code : ℕ)
  | streamError (code streamID : ℕ)
  | frameTooLarge
  | eof
  | other (text : String)
  deriving DecidableEq

inductive ReadErr
  | h2 (code streamID : ℕ) (text : String)
  | other (err : FramerErr)
  deriving DecidableEq

def errFrameSizeError : ℕ := 6

def translateFramerErr : FramerErr → ReadErr
  | .connectionError code => .h2 code 0 ("framer: connection-error code=" ++ toString code)
  | .streamError code streamID => .h2 code streamID ("framer: stream-error code=" ++ toString code)
  | .frameTooLarge => .h2 errFrameSizeError 0 "framer: frame too large"
  | err => .other err

/-- Where `readerLoop` is: in `ReadFrame`, at the close of `frameCh`, at one of its two selects,
on its way out, or out. -/
inductive ReaderAt (F : Type)
  | inReadFrame
  | closingFrameCh
  | sending (frame : F)
  | awaitingRelease
  | returning
  | gone
  deriving DecidableEq

inductive Read
  | readFrameCtx
  | tryReadFrame
  deriving DecidableEq

/-- Where the consumer is: outside a read call, at `release`, at the send of the token, at the
select, or between the receive and `held = true`. -/
inductive ConsumerAt (F : Type)
  | between
  | atRelease (call : Read)
  | sendingToken (call : Read)
  | selecting (call : Read)
  | received (frame : F)
  deriving DecidableEq

inductive CloserAt
  | notCalled
  | closingStopCh
  | stampingDeadline
  | joining
  | returned
  deriving DecidableEq

inductive Once
  | fresh
  | running
  | finished
  deriving DecidableEq

/-- What a read call returns; `burstExhausted` is the `(nil, nil)` of `tryReadFrame`. -/
inductive Outcome (F : Type)
  | frame (f : F)
  | failed (err : ReadErr)
  | ctxErr
  | burstExhausted
  deriving DecidableEq

def releaseChCap : ℕ := 1

/-- `fromSocket` are the frames `ReadFrame` has returned and `outcomes` what the consumer's calls
have, both in order. -/
structure Framer (F : Type) where
  reader : ReaderAt F := .inReadFrame
  consumer : ConsumerAt F := .between
  held : Bool := false
  releaseCh : ℕ := 0
  frameChClosed : Bool := false
  readErr : Option FramerErr := none
  stopChClosed : Bool := false
  doneChClosed : Bool := false
  stopOnce : Once := .fresh
  closer : ℕ → CloserAt := fun _ => .notCalled
  fromSocket : List F := []
  outcomes : List (Outcome F) := []

/-- One step of the reader, of the consumer, of the two together, or of the `n`th call of
`closeReader`. -/
inductive Event (F : Type)
  | readFrame (frame : F)
  | readFails (err : FramerErr)
  | closeFrameCh
  | handOver
  | stopSending
  | takeRelease
  | stopAwaiting
  | closeDoneCh
  | call (c : Read) (ctxCanceled : Bool)
  | release
  | sendToken
  | keep
  | seeClosed
  | giveUp
  | enterOnce (n : ℕ)
  | closeStopCh (n : ℕ)
  | stampDeadline (n : ℕ)
  | join (n : ℕ)
  deriving DecidableEq

variable {F : Type}

/-- The steps `readerLoop` takes a part in. -/
def Event.ofReader : Event F → Bool
  | .readFrame _ | .readFails _ | .closeFrameCh | .handOver | .stopSending | .takeRelease
  | .stopAwaiting | .closeDoneCh => true
  | _ => false

def exitErr (s : Framer F) : FramerErr := s.readErr.getD .eof

def Read.givesUp : Read → Outcome F
  | .readFrameCtx => .ctxErr
  | .tryReadFrame => .burstExhausted

/-- The start of a call: only `readFrameCtx` looks at its context, and before the release. -/
def startCall (s : Framer F) (c : Read) (ctxCanceled : Bool) : Framer F :=
  if c = .readFrameCtx ∧ ctxCanceled = true then
    { s with outcomes := s.outcomes ++ [.ctxErr] }
  else { s with consumer := .atRelease c }

def setCloser (s : Framer F) (n : ℕ) (c : CloserAt) : Framer F :=
  { s with closer := Function.update s.closer n c }

/-- The steps of `readerLoop` alone, the rendezvous on `frameCh`, and the consumer's. -/
def step (s : Framer F) : Event F → Framer F
  | .readFrame frame =>
    match s.reader with
    | .inReadFrame =>
      { s with reader := .sending frame, fromSocket := s.fromSocket ++ [frame] }
    | _ => s
  | .readFails err =>
    match s.reader with
    | .inReadFrame => { s with reader := .closingFrameCh, readErr := some err }
    | _ => s
  | .closeFrameCh =>
    match s.reader with
    | .closingFrameCh => { s with reader := .returning, frameChClosed := true }
    | _ => s
  | .handOver =>
    match s.reader, s.consumer with
    | .sending frame, .selecting _ =>
      { s with reader := .awaitingRelease, consumer := .received frame }
    | _, _ => s
  | .stopSending =>
    match s.reader with
    | .sending _ => if s.stopChClosed then { s with reader := .returning } else s
    | _ => s
  | .takeRelease =>
    match s.reader with
    | .awaitingRelease =>
      if 0 < s.releaseCh then
        { s with reader := .inReadFrame, releaseCh := s.releaseCh - 1 }
      else s
    | _ => s
  | .stopAwaiting =>
    match s.reader with
    | .awaitingRelease => if s.stopChClosed then { s with reader := .returning } else s
    | _ => s
  | .closeDoneCh =>
    match s.reader with
    | .returning => { s with reader := .gone, doneChClosed := true }
    | _ => s
  | .call c ctxCanceled =>
    match s.consumer with
    | .between => startCall s c ctxCanceled
    | _ => s
  | .release =>
    match s.consumer with
    | .atRelease c =>
      if s.held then { s with held := false, consumer := .sendingToken c }
      else { s with consumer := .selecting c }
    | _ => s
  | .sendToken =>
    match s.consumer with
    | .sendingToken c =>
      if s.releaseCh < releaseChCap then
        { s with releaseCh := s.releaseCh + 1, consumer := .selecting c }
      else s
    | _ => s
  | .keep =>
    match s.consumer with
    | .received frame =>
      { s with held := true, consumer := .between, outcomes := s.outcomes ++ [.frame frame] }
    | _ => s
  | .seeClosed =>
    match s.consumer with
    | .selecting _ =>
      if s.frameChClosed then
        { s with
          consumer := .between
          outcomes := s.outcomes ++ [.failed (translateFramerErr (exitErr s))] }
      else s
    | _ => s
  | .giveUp =>
    match s.consumer with
    | .selecting c => { s with consumer := .between, outcomes := s.outcomes ++ [c.givesUp] }
    | _ => s
  | .enterOnce n =>
    match s.closer n, s.stopOnce with
    | .notCalled, .fresh => { setCloser s n .closingStopCh with stopOnce := .running }
    | .notCalled, .finished => setCloser s n .joining
    | _, _ => s
  | .closeStopCh n =>
    match s.closer n with
    | .closingStopCh => { setCloser s n .stampingDeadline with stopChClosed := true }
    | _ => s
  | .stampDeadline n =>
    match s.closer n with
    | .stampingDeadline => { setCloser s n .joining with stopOnce := .finished }
    | _ => s
  | .join n =>
    match s.closer n with
    | .joining => if s.doneChClosed then setCloser s n .returned else s
    | _ => s

/-- The framer when `startReader` has spawned the reader. -/
def startReader : Framer F := {}

def Outcome.frame? : Outcome F → Option F
  | .frame f => some f
  | _ => none

/-- The frames the consumer's calls have returned. -/
def received (s : Framer F) : List F := s.outcomes.filterMap Outcome.frame?

def ConsumerAt.taken : ConsumerAt F → List F
  | .received frame => [frame]
  | _ => []

def taken (s : Framer F) : List F := received s ++ s.consumer.taken

def ConsumerAt.owns : ConsumerAt F → ℕ
  | .received _ => 1
  | .sendingToken _ => 1
  | _ => 0

def unreleased (s : Framer F) : ℕ := s.held.toNat + s.consumer.owns

/-- Tokens on their way and frames not yet released: none while the reader reads or offers a
frame, one while it waits, and after a stop at most one that nobody takes any more. -/
def TokensMatch (s : Framer F) : Prop :=
  match s.reader with
  | .inReadFrame | .closingFrameCh | .sending _ => s.releaseCh + unreleased s = 0
  | .awaitingRelease => s.releaseCh + unreleased s = 1
  | .returning | .gone => s.releaseCh + unreleased s ≤ 1

def OrderKept (s : Framer F) : Prop :=
  match s.reader with
  | .sending frame => taken s ++ [frame] = s.fromSocket
  | .inReadFrame | .awaitingRelease => taken s = s.fromSocket
  | .closingFrameCh | .returning | .gone => taken s <+: s.fromSocket

structure Joined (s : Framer F) : Prop where
  done : s.doneChClosed = true → s.reader = .gone
  returned : ∀ n, s.closer n = .returned → s.doneChClosed = true

variable {s t : Framer F}

theorem TokensMatch.le_one (h : TokensMatch s) : s.releaseCh + unreleased s ≤ 1 := by
  unfold TokensMatch at h
  split at h
  all_goals omega

theorem OrderKept.isPrefix (h : OrderKept s) : taken s <+: s.fromSocket := by
  unfold OrderKept at h
  split at h
  · exact ⟨_, h⟩
  · rw [h]
  · rw [h]
  all_goals exact h

/-- What the consumer and `closeReader` leave alone: the reader, the account and the frames. -/
structure Untouched (s t : Framer F) : Prop where
  reader : t.reader = s.reader
  account : t.releaseCh + unreleased t = s.releaseCh + unreleased s
  taken : taken t = taken s
  fromSocket : t.fromSocket = s.fromSocket

theorem Untouched.refl (s : Framer F) : Untouched s s := ⟨rfl, rfl, rfl, rfl⟩

theorem Untouched.tokensMatch (h : Untouched s t) (hs : TokensMatch s) : TokensMatch t := by
  unfold TokensMatch
  rw [h.reader, h.account]
  exact hs

theorem Untouched.orderKept (h : Untouched s t) (hs : OrderKept s) : OrderKept t := by
  unfold OrderKept
  rw [h.reader, h.taken, h.fromSocket]
  exact hs

theorem received_append {o : Outcome F} (h : t.outcomes = s.outcomes ++ [o]) :
    received t = received s ++ o.frame?.toList := by
  rw [received, h, List.filterMap_append, ← received]
  cases o with
  | _ => rfl

theorem untouched_end {o : Outcome F} (ho : o.frame? = none)
    (hout : t.outcomes = s.outcomes ++ [o]) (hreader : t.reader = s.reader)
    (hheld : t.held = s.held) (htoken : t.releaseCh = s.releaseCh)
    (hsocket : t.fromSocket = s.fromSocket) (howns : t.consumer.owns = s.consumer.owns)
    (htaken : t.consumer.taken = s.consumer.taken) : Untouched s t := by
  refine ⟨hreader, ?_, ?_, hsocket⟩
  · rw [unreleased, unreleased, hheld, howns, htoken]
  · rw [taken, taken, received_append hout, ho, htaken, Option.toList_none, List.append_nil]

theorem untouched_step {e : Event F} (he : e.ofReader = false) (hs : TokensMatch s) :
    Untouched s (step s e) := by
  have hone := hs.le_one
  cases e with
  | readFrame frame => cases he
  | readFails err => cases he
  | closeFrameCh => cases he
  | handOver => cases he
  | stopSending => cases he
  | takeRelease => cases he
  | stopAwaiting => cases he
  | closeDoneCh => cases he
  | call c ctxCanceled =>
    simp only [step]
    split
    · rename_i hc
      unfold startCall
      split_ifs
      · exact untouched_end (o := .ctxErr) rfl rfl rfl rfl rfl rfl rfl rfl
      · refine ⟨rfl, ?_, ?_, rfl⟩
        · simp only [unreleased, hc, ConsumerAt.owns]
        · simp only [taken, received, hc, ConsumerAt.taken]
    · exact Untouched.refl s
  | release =>
    simp only [step]
    split
    · rename_i c hc
      split_ifs with hheld
      · refine ⟨rfl, ?_, ?_, rfl⟩
        · simp only [unreleased, hc, hheld, ConsumerAt.owns]
          rfl
        · simp only [taken, received, hc, ConsumerAt.taken]
      · refine ⟨rfl, ?_, ?_, rfl⟩
        · simp only [unreleased, hc, ConsumerAt.owns]
        · simp only [taken, received, hc, ConsumerAt.taken]
    · exact Untouched.refl s
  | sendToken =>
    simp only [step]
    split
    · rename_i c hc
      split_ifs
      · refine ⟨rfl, ?_, ?_, rfl⟩
        · simp only [unreleased, hc, ConsumerAt.owns]
          omega
        · simp only [taken, received, hc, ConsumerAt.taken]
      · exact Untouched.refl s
    · exact Untouched.refl s
  | keep =>
    simp only [step]
    split
    · rename_i frame hc
      refine ⟨rfl, ?_, ?_, rfl⟩
      · simp only [unreleased, hc, ConsumerAt.owns] at hone ⊢
        have hheld : s.held.toNat = 0 := by omega
        rw [hheld]
        rfl
      · rw [taken, taken, received_append (s := s) (o := .frame frame) rfl, hc]
        exact List.append_nil _
    · exact Untouched.refl s
  | seeClosed =>
    simp only [step]
    split
    · rename_i c hc
      split_ifs
      · refine untouched_end (o := .failed _) rfl rfl rfl rfl rfl rfl ?_ ?_
        · rw [hc]
          rfl
        · rw [hc]
          rfl
      · exact Untouched.refl s
    · exact Untouched.refl s
  | giveUp =>
    simp only [step]
    split
    · rename_i c hc
      refine untouched_end (o := c.givesUp) ?_ rfl rfl rfl rfl rfl ?_ ?_
      · cases c with
        | _ => rfl
      · rw [hc]
        rfl
      · rw [hc]
        rfl
    · exact Untouched.refl s
  | enterOnce n | closeStopCh n | stampDeadline n =>
    simp only [step]
    split
    all_goals exact ⟨rfl, rfl, rfl, rfl⟩
  | join n =>
    simp only [step]
    split
    · split_ifs
      · exact ⟨rfl, rfl, rfl, rfl⟩
      · exact Untouched.refl s
    · exact Untouched.refl s

theorem tokensMatch_step (s : Framer F) (e : Event F) (h : TokensMatch s) :
    TokensMatch (step s e) := by
  have hone := h.le_one
  cases e with
  | readFrame frame | readFails err =>
    simp only [step]
    split
    · rename_i hr
      simp only [TokensMatch, hr] at h
      exact h
    · exact h
  | closeFrameCh | closeDoneCh =>
    simp only [step]
    split
    · exact hone
    · exact h
  | handOver =>
    simp only [step]
    split
    · rename_i frame c hr hc
      simp only [TokensMatch, hr, unreleased, hc, ConsumerAt.owns] at h
      simp only [TokensMatch, unreleased, ConsumerAt.owns]
      omega
    · exact h
  | stopSending | stopAwaiting =>
    simp only [step]
    split
    · split_ifs
      · exact hone
      · exact h
    · exact h
  | takeRelease =>
    simp only [step]
    split
    · rename_i hr
      split_ifs with htoken
      · simp only [TokensMatch, hr] at h
        change s.releaseCh - 1 + unreleased s = 0
        omega
      · exact h
    · exact h
  | _ => exact (untouched_step rfl h).tokensMatch h

theorem orderKept_step (s : Framer F) (e : Event F) (htokens : TokensMatch s) (h : OrderKept s) :
    OrderKept (step s e) := by
  have hprefix := h.isPrefix
  cases e with
  | readFrame frame =>
    simp only [step]
    split
    · rename_i hr
      simp only [OrderKept, hr] at h
      exact congrArg (· ++ [frame]) h
    · exact h
  | readFails err | closeFrameCh | closeDoneCh =>
    simp only [step]
    split
    · exact hprefix
    · exact h
  | handOver =>
    simp only [step]
    split
    · rename_i frame c hr hc
      simp only [OrderKept, hr, taken, hc, ConsumerAt.taken, List.append_nil] at h
      exact h
    · exact h
  | stopSending | stopAwaiting =>
    simp only [step]
    split
    · split_ifs
      · exact hprefix
      · exact h
    · exact h
  | takeRelease =>
    simp only [step]
    split
    · rename_i hr
      split_ifs
      · simp only [OrderKept, hr] at h
        exact h
      · exact h
    · exact h
  | _ => exact (untouched_step rfl htokens).orderKept h

theorem step_gone (hr : s.reader = .gone) {e : Event F} (he : e.ofReader = true) :
    step s e = s := by
  cases e with
  | readFrame frame | readFails err | closeFrameCh | handOver | stopSending | takeRelease
  | stopAwaiting | closeDoneCh => simp only [step, hr]
  | _ => cases he

theorem Joined.moved (h : Joined s) (hr : s.reader ≠ .gone)
    (hdone : t.doneChClosed = s.doneChClosed) (hcloser : t.closer = s.closer) : Joined t := by
  have hopen : t.doneChClosed ≠ true := by
    rw [hdone]
    intro hd
    exact hr (h.done hd)
  refine ⟨fun hd => absurd hd hopen, ?_⟩
  intro n hn
  rw [hcloser] at hn
  rw [hdone]
  exact h.returned n hn

theorem Joined.same (h : Joined s) (hr : t.reader = s.reader)
    (hdone : t.doneChClosed = s.doneChClosed) (hcloser : t.closer = s.closer) : Joined t := by
  refine ⟨?_, ?_⟩
  · rw [hr, hdone]
    exact h.done
  · rw [hcloser, hdone]
    exact h.returned

theorem Joined.setCloser (h : Joined s) (n : ℕ) {c : CloserAt}
    (hc : c = .returned → s.doneChClosed = true) : Joined (setCloser s n c) := by
  refine ⟨h.done, ?_⟩
  intro m hm
  by_cases hmn : m = n
  · subst hmn
    change Function.update s.closer m c m = .returned at hm
    rw [Function.update_self] at hm
    exact hc hm
  · change Function.update s.closer n c m = .returned at hm
    rw [Function.update_of_ne hmn] at hm
    exact h.returned m hm

theorem joined_step (s : Framer F) (e : Event F) (h : Joined s) : Joined (step s e) := by
  cases e with
  | closeDoneCh =>
    simp only [step]
    split
    · exact ⟨fun _ => rfl, fun _ _ => rfl⟩
    · exact h
  | readFrame frame | readFails err | closeFrameCh =>
    simp only [step]
    split
    · rename_i hr
      exact h.moved (by simp [hr]) rfl rfl
    · exact h
  | handOver =>
    simp only [step]
    split
    · rename_i hr _
      exact h.moved (by simp [hr]) rfl rfl
    · exact h
  | stopSending | takeRelease | stopAwaiting =>
    simp only [step]
    split
    · rename_i hr
      split_ifs
      · exact h.moved (by simp [hr]) rfl rfl
      · exact h
    · exact h
  | call c ctxCanceled =>
    simp only [step]
    split
    · unfold startCall
      split_ifs
      · exact h.same rfl rfl rfl
      · exact h.same rfl rfl rfl
    · exact h
  | release =>
    simp only [step]
    split
    · split_ifs
      · exact h.same rfl rfl rfl
      · exact h.same rfl rfl rfl
    · exact h
  | sendToken | seeClosed =>
    simp only [step]
    split
    · split_ifs
      · exact h.same rfl rfl rfl
      · exact h
    · exact h
  | keep | giveUp =>
    simp only [step]
    split
    · exact h.same rfl rfl rfl
    · exact h
  | enterOnce n =>
    simp only [step]
    split
    · exact (h.setCloser n CloserAt.noConfusion).same rfl rfl rfl
    · exact h.setCloser n CloserAt.noConfusion
    · exact h
  | closeStopCh n | stampDeadline n =>
    simp only [step]
    split
    · exact (h.setCloser n CloserAt.noConfusion).same rfl rfl rfl
    · exact h
  | join n =>
    simp only [step]
    split
    · split_ifs with hdone
      · exact h.setCloser n (fun _ => hdone)
      · exact h
    · exact h

structure Inv (s : Framer F) : Prop where
  tokens : TokensMatch s
  order : OrderKept s
  joined : Joined s

theorem inv_run (es : List (Event F)) : Inv (es.foldl step startReader) := by
  have hstep : ∀ (s : Framer F) e, Inv s → Inv (step s e) := by
    intro s e h
    exact ⟨tokensMatch_step s e h.tokens, orderKept_step s e h.tokens h.order,
      joined_step s e h.joined⟩
  have hstart : Inv (startReader : Framer F) := by
    refine ⟨rfl, rfl, ?_, ?_⟩
    · intro hd
      cases hd
    · intro n hn
      cases hn
  exact Runs.invariant_of_run hstep es _ hstart

/-- The consumer has a frame that it has not released. -/
def Holds (s : Framer F) : Prop := 0 < unreleased s

/-- The send of a token does not block. -/
def ReleaseSendReady (s : Framer F) : Prop := s.releaseCh < releaseChCap

/-- In every state of every interleaving: the consumer has received a prefix of the frames read
from the socket; while the reader is in `ReadFrame` the consumer holds no frame; a release finds
room in its channel; and once a `closeReader` has returned, no step of the reader does anything. -/
theorem frames_handed_over_in_order (es : List (Event F)) :
    let s := es.foldl step startReader
    received s <+: s.fromSocket ∧
      (s.reader = .inReadFrame → ¬ Holds s) ∧
      (∀ c, s.consumer = .sendingToken c → ReleaseSendReady s) ∧
      ∀ n, s.closer n = .returned → ∀ e : Event F, e.ofReader = true → step s e = s := by
  intro s
  have h : Inv s := inv_run es
  refine ⟨?_, ?_, ?_, ?_⟩
  · exact (List.prefix_append _ _).trans h.order.isPrefix
  · intro hr
    have ht := h.tokens
    simp only [TokensMatch, hr] at ht
    unfold Holds
    omega
  · intro c hc
    have hone := h.tokens.le_one
    simp only [unreleased, hc, ConsumerAt.owns] at hone
    change s.releaseCh < 1
    omega
  · intro n hn e he
    exact step_gone (h.joined.done (h.joined.returned n hn)) he

/-- A timer that runs out before the frame is offered, and a cancelled read after it. -/
example : received ([.call .tryReadFrame false, .release, .giveUp, .readFrame 7,
    .call .readFrameCtx false, .release, .handOver, .keep, .call .readFrameCtx true].foldl step
      (startReader : Framer ℕ)) = [7] := by decide

end EnvoyGo.H2.FrameReader

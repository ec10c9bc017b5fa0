import EnvoyGo.H2StreamFates
import EnvoyGo.Runs

/-!
Frames on an upstream stream whose RoundTrip returned before its answer was whole.  The streams the
connection has reset are retained, and what the peer still sends on them is discarded; HEADERS or
DATA on a number that is neither registered nor retained ends the connection, with every call on it.
-/

namespace EnvoyGo.H2

open Runs

def Exit.Early : Exit → Prop
  | .canceledWaiting => True
  | .canceledBody => True
  | .finished (some err) => ¬ err.FromPeer
  | _ => False

def PeerFrame.stream? : PeerFrame → Option ℕ
  | .headers id _ _ _ => some id
  | .continuation id _ _ => some id
  | .data id _ _ _ => some id
  | .rstStream id _ => some id
  | _ => none

namespace ClientConn

variable {δ : Type}

/-- A number far enough ahead is reset, or the peer ends the stream: frames on it need no more
tolerating. -/
def ClosesWindow (dec : BlockDecoder δ) (s : ClientConn δ) (id : ℕ) (e : ClientEvent) : Prop :=
  (∃ newer ∈ s.resetBy dec e, id + resetRetainWindow < newer) ∨ s.endedBy e = some id

instance (dec : BlockDecoder δ) (s : ClientConn δ) (id : ℕ) (e : ClientEvent) :
    Decidable (s.ClosesWindow dec id e) := inferInstanceAs (Decidable (_ ∨ _))

/-- The frame is dropped: no error for the loop, and nothing for the other streams. -/
structure Discards (dec : BlockDecoder δ) (s : ClientConn δ) (id : ℕ) (f : PeerFrame) : Prop where
  passes : (s.dispatchFrame dec f).2 = none
  others : ∀ j, j ≠ id → (s.dispatchFrame dec f).1.stream j = s.stream j

/-- Wherever the run stands after an early return, what comes on the stream within the retain
window is dropped. -/
def LateFramesDiscarded (dec : BlockDecoder δ) (s : ClientConn δ) (es : List ClientEvent) : Prop :=
  ∀ before e after f id exit, before ++ e :: after ++ [.frame f] <+: es →
    (step dec (s.run dec before) e).exits = (s.run dec before).exits ++ [(id, exit)] →
    exit.Early →
    StepsMeet (step dec) (fun t e' => ¬ t.ClosesWindow dec id e')
      (step dec (s.run dec before) e) after →
    (s.run dec (before ++ e :: after)).Takes f → f.stream? = some id →
    (s.run dec (before ++ e :: after)).Discards dec id f

/-- The map holds the streams of the calls, and one that failed here while its call goes on is
retained. -/
structure Retained (s : ClientConn δ) : Prop where
  placed : ∀ id, s.call id ≠ none → id ∈ s.streams
  held : ∀ id ∈ s.streams, s.stream id ≠ none
  opened : ∀ id, s.call id ≠ none → id ≤ s.nextStreamID
  failed : ∀ id err, s.fate id = some (some err) → ¬ err.FromPeer → s.inProgress id = true →
    id ∈ s.resetStreams

theorem retained_new (hpack : δ) (serverS : ClientSettings) :
    Retained (newClientConn hpack serverS) :=
  ⟨fun _ h => absurd rfl h, fun _ h => absurd h (Finset.notMem_empty _), fun _ h => absurd rfl h,
    fun _ _ h => by cases h⟩

namespace Retained

variable {dec : BlockDecoder δ} {s : ClientConn δ} {e : ClientEvent}

theorem lookup (h : Retained s) {id : ℕ} (hid : s.inProgress id = true) :
    s.lookupStream id ≠ none := by
  have hmem := h.placed id (call_of_inProgress hid)
  unfold lookupStream
  rw [if_pos hmem]
  exact h.held id hmem

theorem keeps (h : Retained s) (ho : s.Orderly dec e) {id : ℕ} (hmem : id ∈ s.resetStreams)
    (hlive : s.inProgress id = true) : id ∈ (step dec s e).resetStreams := by
  rcases (follows_step ho).kept id hmem with hkept | ⟨newer, hnewer, hfar⟩ | ⟨-, hgone⟩
  · exact hkept
  · have hidle := ho.2 newer hnewer id hmem hfar
    rw [hlive] at hidle
    cases hidle
  · exact absurd hgone (h.lookup hlive)

theorem step_failed (h : Retained s) (ho : s.Orderly dec e) {id : ℕ} {err : Error}
    (hfate : (step dec s e).fate id = some (some err)) (hown : ¬ err.FromPeer)
    (hlive : (step dec s e).inProgress id = true) : id ∈ (step dec s e).resetStreams := by
  rcases (callMove_step ho).inProgress hlive with hbefore | hnew
  · rcases (follows_step ho).fates id err hfate hown with hsame | hmem
    · exact h.keeps ho (h.failed id err hsame hown hbefore) hbefore
    · exact hmem
  · rw [fate_of_stream hnew] at hfate
    cases hfate

theorem of_calls {t : ClientConn δ} (h : Retained s)
    (hcalls : ∀ id, t.call id ≠ none → s.call id ≠ none) (hstreams : t.streams = s.streams)
    (hnext : t.nextStreamID = s.nextStreamID)
    (hlives : ∀ id, s.stream id ≠ none → t.stream id ≠ none)
    (hfailed : ∀ id err, t.fate id = some (some err) → ¬ err.FromPeer → t.inProgress id = true →
      id ∈ t.resetStreams) : Retained t := by
  refine ⟨?_, ?_, ?_, hfailed⟩
  · rw [hstreams]
    exact fun id hid => h.placed id (hcalls id hid)
  · rw [hstreams]
    exact fun id hid => hlives id (h.held id hid)
  · rw [hnext]
    exact fun id hid => h.opened id (hcalls id hid)

theorem step (h : Retained s) (ho : s.Orderly dec e) : Retained (step dec s e) := by
  have hlives := (follows_step ho).lives
  have hfailed : ∀ id err, (ClientConn.step dec s e).fate id = some (some err) → ¬ err.FromPeer →
      (ClientConn.step dec s e).inProgress id = true →
      id ∈ (ClientConn.step dec s e).resetStreams :=
    fun id err hfate hown hlive => h.step_failed ho hfate hown hlive
  have hmove := callMove_step ho
  revert hlives hfailed hmove
  generalize ClientConn.step dec s e = t
  intro hlives hfailed hmove
  have hsome {id i : ℕ} {c : Option Call} (hcall : t.call = Function.update s.call i c)
      (hid : t.call id ≠ none) (hi : id ≠ i) : s.call id ≠ none := by
    rw [hcall, Function.update_of_ne hi] at hid
    exact hid
  have hbusy {i : ℕ} {c : Option Call} (hlive : s.inProgress i = true)
      (hcall : t.call = Function.update s.call i c) (id : ℕ) (hid : t.call id ≠ none) :
      s.call id ≠ none := by
    by_cases hi : id = i
    · exact hi ▸ call_of_inProgress hlive
    · exact hsome hcall hid hi
  cases hmove with
  | still hsame =>
    refine h.of_calls ?_ hsame.streams hsame.nextStreamID hlives hfailed
    rw [hsame.call]
    exact fun _ hid => hid
  | advanced i c hlive hcall hstreams hnext hexits =>
    exact h.of_calls (hbusy hlive hcall) hstreams hnext hlives hfailed
  | exited i exit hlive hcause hcall hstreams hnext hexits =>
    exact h.of_calls (hbusy hlive hcall) hstreams hnext hlives hfailed
  | left i hcall hstreams hnext hexits =>
    have hne (id : ℕ) (hid : t.call id ≠ none) : id ≠ i := by
      rintro rfl
      rw [hcall, Function.update_self] at hid
      exact hid rfl
    refine ⟨?_, ?_, ?_, hfailed⟩
    · intro id hid
      rw [hstreams]
      exact Finset.mem_erase.mpr ⟨hne id hid, h.placed id (hsome hcall hid (hne id hid))⟩
    · intro id hid
      rw [hstreams] at hid
      exact hlives id (h.held id (Finset.mem_of_mem_erase hid))
    · rw [hnext]
      exact fun id hid => h.opened id (hsome hcall hid (hne id hid))
  | opened c hcall hstream hstreams hnext hexits =>
    refine ⟨?_, ?_, ?_, hfailed⟩
    · intro id hid
      rw [hstreams]
      by_cases hi : id = s.nextStreamID + 1
      · rw [hi]
        exact Finset.mem_insert_self _ _
      · exact Finset.mem_insert_of_mem (h.placed id (hsome hcall hid hi))
    · intro id hid
      rw [hstreams] at hid
      rcases Finset.mem_insert.mp hid with rfl | hmem
      · rw [hstream]
        exact Option.some_ne_none _
      · exact hlives id (h.held id hmem)
    · intro id hid
      rw [hnext]
      by_cases hi : id = s.nextStreamID + 1
      · omega
      · exact (h.opened id (hsome hcall hid hi)).trans (Nat.le_add_right _ 2)

theorem early_exit (h : Retained s) (ho : s.Orderly dec e) {id : ℕ} {exit : Exit}
    (hexit : (ClientConn.step dec s e).exits = s.exits ++ [(id, exit)]) (hearly : exit.Early) :
    id ∈ (ClientConn.step dec s e).resetStreams ∧ (ClientConn.step dec s e).inProgress id = false ∧
      id ≤ (ClientConn.step dec s e).nextStreamID := by
  have hnone (hsame : (ClientConn.step dec s e).exits = s.exits) : False := by
    rw [hsame] at hexit
    exact List.cons_ne_nil _ _ (List.self_eq_append_right.mp hexit)
  cases callMove_step ho with
  | still hsame => exact (hnone hsame.exits).elim
  | advanced i c hlive hcall hstreams hnext hexits => exact (hnone hexits).elim
  | left i hcall hstreams hnext hexits => exact (hnone hexits).elim
  | opened c hcall hstream hstreams hnext hexits => exact (hnone hexits).elim
  | exited i exit' hlive hcause hcall hstreams hnext hexits =>
    rw [hexits] at hexit
    obtain ⟨rfl, rfl⟩ := Prod.mk.inj (List.singleton_injective (List.append_cancel_left hexit))
    have hidle : (ClientConn.step dec s e).inProgress i = false :=
      inProgress_leaving (by rw [hcall, Function.update_self])
    have hle : i ≤ (ClientConn.step dec s e).nextStreamID := by
      rw [hnext]
      exact h.opened i (call_of_inProgress hlive)
    refine ⟨?_, hidle, hle⟩
    cases hcause with
    | waiting _ hwait =>
      have hmarked : (ClientConn.step dec s (.cancel i)).resetStreams =
          (s.markReset i).resetStreams := by
        simp only [ClientConn.step, cancelCall, hwait]
        rfl
      rw [hmarked]
      exact mem_markReset s i
    | body _ hblocked =>
      have hmem : i ∈ s.resetStreams := by
        have horderly := ho.1
        simpa only [orderly, hblocked, Bool.not_true, Bool.false_or, decide_eq_true_eq] using
          horderly
      exact h.keeps ho hmem hlive
    | delivered _ err hfate =>
      cases err with
      | none => exact hearly.elim
      | some err => exact h.keeps ho (h.failed i err hfate hearly hlive) hlive
    | lost _ => exact hearly.elim

end Retained

theorem stream_wasReset (s : ClientConn δ) (id : ℕ) (done : Bool) :
    (s.wasReset id done).1.stream = s.stream := by
  unfold wasReset
  split_ifs
  all_goals rfl

variable {s : ClientConn δ} {id j : ℕ} {dec : BlockDecoder δ}

theorem wasReset_found (h : id ∈ s.resetStreams) (done : Bool) : (s.wasReset id done).2 = true := by
  unfold wasReset
  rw [if_pos h]

theorem stream_setStream_ne (s : ClientConn δ) (hj : j ≠ id) (cs : ClientStream) :
    (s.setStream id cs).stream j = s.stream j := Function.update_of_ne hj ..

theorem stream_finishStream_ne (s : ClientConn δ) (hj : j ≠ id) (err : Option Error) :
    (s.finishStream id err).stream j = s.stream j := by
  unfold finishStream
  cases s.stream id with
  | none => rfl
  | some cs => exact stream_setStream_ne s hj _

theorem stream_onDecodedBlock_ne (s : ClientConn δ) (hj : j ≠ id) (cs : ClientStream)
    (decoded : OrderedHeaders) (endStream : Bool) :
    (s.onDecodedBlock id cs decoded endStream).stream j = s.stream j := by
  have hretain (cs' : ClientStream) : (if endStream = true then
      (s.setStream id cs').finishStream id none else s.setStream id cs').stream j = s.stream j := by
    have hset := stream_setStream_ne s hj cs'
    split_ifs
    · exact (stream_finishStream_ne _ hj none).trans hset
    · exact hset
  unfold onDecodedBlock
  dsimp only
  split
  · split
    · exact stream_finishStream_ne _ hj _
    · exact hretain _
  · split
    · exact stream_finishStream_ne _ hj _
    · exact hretain _

theorem stream_acceptData_ne (s : ClientConn δ) (hj : j ≠ id) (cs : ClientStream)
    (payload : Bytes) (endStream : Bool) :
    (s.acceptData id cs payload endStream).stream j = s.stream j := by
  have hfinish {t : ClientConn δ} (ht : t.stream j = s.stream j) :
      (if endStream = true then t.finishStream id none else t).stream j = s.stream j := by
    split_ifs
    · exact (stream_finishStream_ne t hj none).trans ht
    · exact ht
  have hdebit := congrFun (stream_debitConnRecvWindow s payload.length) j
  unfold acceptData
  apply hfinish
  dsimp only
  split_ifs
  · exact (stream_setStream_ne _ hj _).trans hdebit
  · exact (stream_setStream_ne _ hj _).trans hdebit
  · rfl

theorem stream_of_appendContinuation {acc : Option HeaderBlockAccumulator} {fragment : Bytes}
    {a : HeaderBlockAccumulator} (h : appendContinuation acc id fragment = .ok a) :
    a.stream = id := by
  cases acc with
  | none => cases h
  | some b =>
    simp only [appendContinuation] at h
    split_ifs at h with hid hlen
    cases h
    exact not_not.mp hid

theorem discards_block (hmem : id ∈ s.resetStreams) {block : Bytes}
    (hdec : (dec s.hpack block).isSome = true) (endStream : Bool) :
    (s.onResponseHeaderBlock dec id block endStream).2 = none ∧
      ∀ j, j ≠ id → (s.onResponseHeaderBlock dec id block endStream).1.stream j = s.stream j := by
  obtain ⟨⟨decoded, hpack⟩, hout⟩ := Option.isSome_iff_exists.mp hdec
  unfold onResponseHeaderBlock
  cases s.lookupStream id with
  | some cs =>
    simp only [hout, true_and]
    intro j hj
    exact stream_onDecodedBlock_ne _ hj cs decoded endStream
  | none =>
    have hfound := wasReset_found hmem endStream
    have hstream := stream_wasReset s id endStream
    have hcodec := (sameCodec_wasReset s id endStream).hpack
    revert hfound hstream hcodec
    rcases s.wasReset id endStream with ⟨t, found⟩
    intro hfound hstream hcodec
    dsimp only at hfound hstream hcodec
    subst hfound
    simp only [hcodec, hout, hstream, implies_true, and_self]

theorem discards_data (hmem : id ∈ s.resetStreams) (payload : Bytes) (endStream : Bool) :
    (s.onData id payload endStream).2 = none ∧
      ∀ j, j ≠ id → (s.onData id payload endStream).1.stream j = s.stream j := by
  unfold onData
  cases s.lookupStream id with
  | some cs => exact ⟨rfl, fun j hj => stream_acceptData_ne s hj cs payload endStream⟩
  | none =>
    have hfound := wasReset_found hmem endStream
    have hstream := stream_wasReset s id endStream
    revert hfound hstream
    rcases s.wasReset id endStream with ⟨t, found⟩
    intro hfound hstream
    dsimp only at hfound hstream
    subst hfound
    refine ⟨rfl, fun j _ => ?_⟩
    exact (congrFun (stream_debitConnRecvWindow t _) j).trans (congrFun hstream j)

theorem discards_rst (s : ClientConn δ) (id : ℕ) (code : ErrCode) :
    (s.onRSTStream id code).2 = none ∧
      ∀ j, j ≠ id → (s.onRSTStream id code).1.stream j = s.stream j := by
  unfold onRSTStream
  cases s.lookupStream id with
  | none => exact ⟨rfl, fun j _ => congrFun (stream_wasReset s id true) j⟩
  | some cs => exact ⟨rfl, fun j hj => stream_finishStream_ne s hj _⟩

theorem discards_of_retained {f : PeerFrame} (hmem : id ∈ s.resetStreams)
    (hidle : s.inProgress id = false) (hmanage : s.manageable dec f = true)
    (hf : f.stream? = some id) : s.Discards dec id f := by
  cases f with
  | headers i fragment endHeaders endStream =>
    obtain rfl := Option.some.inj hf
    cases endHeaders with
    | false => exact ⟨rfl, fun _ _ => rfl⟩
    | true =>
      simp only [manageable, hidle, Bool.false_or] at hmanage
      obtain ⟨hpass, hothers⟩ := discards_block hmem hmanage endStream
      exact ⟨hpass, hothers⟩
  | continuation i fragment endHeaders =>
    obtain rfl := Option.some.inj hf
    simp only [manageable, hidle, Bool.false_or] at hmanage
    suffices h : (s.onContinuation dec i fragment endHeaders).2 = none ∧
        ∀ j, j ≠ i → (s.onContinuation dec i fragment endHeaders).1.stream j = s.stream j from
      ⟨h.1, h.2⟩
    unfold onContinuation
    cases happend : appendContinuation s.hdrAccum i fragment with
    | error err =>
      rw [happend] at hmanage
      cases hmanage
    | ok a =>
      rw [happend] at hmanage
      cases endHeaders with
      | false => exact ⟨rfl, fun _ _ => rfl⟩
      | true =>
        simp only [Bool.not_true, Bool.false_or] at hmanage
        have hstream : a.stream = i := stream_of_appendContinuation happend
        subst hstream
        exact discards_block (s := ({ s with hdrAccum := none } : ClientConn δ)) hmem hmanage
          a.endStream
  | data i payload padding endStream =>
    obtain rfl := Option.some.inj hf
    obtain ⟨hpass, hothers⟩ := discards_data hmem payload endStream
    exact ⟨hpass, hothers⟩
  | rstStream i code =>
    obtain rfl := Option.some.inj hf
    obtain ⟨hpass, hothers⟩ := discards_rst s i code
    exact ⟨hpass, hothers⟩
  | _ => cases hf

theorem retained_through (es : List ClientEvent) (s : ClientConn δ)
    (ho : StepsMeet (step dec) (Orderly dec) s es)
    (hwindow : StepsMeet (step dec) (fun t e => ¬ t.ClosesWindow dec id e) s es)
    (hmem : id ∈ s.resetStreams) (hidle : s.inProgress id = false) (hle : id ≤ s.nextStreamID) :
    id ∈ (s.run dec es).resetStreams ∧ (s.run dec es).inProgress id = false := by
  induction es generalizing s with
  | nil => exact ⟨hmem, hidle⟩
  | cons e es ih =>
    obtain ⟨hfirst, hrest⟩ := ho
    obtain ⟨hstays, hwindow⟩ := hwindow
    obtain ⟨hidle', hle'⟩ := (callMove_step hfirst).returned hidle hle
    have hmem' : id ∈ (step dec s e).resetStreams := by
      rcases (follows_step hfirst).kept id hmem with hkept | hfar | ⟨hended, -⟩
      · exact hkept
      · exact absurd (.inl hfar) hstays
      · exact absurd (.inr hended) hstays
    exact ih (step dec s e) hrest hwindow hmem' hidle' hle'

theorem lateFrames_of_retained (hs : Retained s) {es : List ClientEvent}
    (h : StepsMeet (step dec) (Orderly dec) s es) : LateFramesDiscarded dec s es := by
  intro before e after f id exit hpre hexit hearly hwindow htakes hf
  have hinv : ∀ s e, s.Orderly dec e → Retained s → Retained (step dec s e) :=
    fun s e ho hs => hs.step ho
  obtain ⟨rest, rfl⟩ := hpre
  obtain ⟨hrun, -⟩ := (stepsMeet_append _ _ _ _).mp h
  obtain ⟨hmet, hlast, -⟩ := (stepsMeet_append _ _ _ _).mp hrun
  obtain ⟨hbefore, hexits, hafter⟩ := (stepsMeet_append _ _ _ _).mp hmet
  have hretained := invariant_of_steps hinv before _ hs hbefore
  obtain ⟨hmem, hidle, hle⟩ := hretained.early_exit hexits hexit hearly
  obtain ⟨hmem, hidle⟩ := retained_through after _ hafter hwindow hmem hidle hle
  have hreached : s.run dec (before ++ e :: after) =
      (step dec (s.run dec before) e).run dec after :=
    List.foldl_append
  have hmanage := manageable_of_orderly hlast htakes
  refine discards_of_retained ?_ ?_ hmanage hf
  · rw [hreached]
    exact hmem
  · rw [hreached]
    exact hidle

/-- As long as every stream that is given up is retained, the peer's late frames cost nobody else
anything. -/
theorem lateFramesDiscarded_of_orderly (dec : BlockDecoder δ) (hpack : δ)
    (serverS : ClientSettings) (es : List ClientEvent)
    (h : StepsMeet (step dec) (Orderly dec) (newClientConn hpack serverS) es) :
    LateFramesDiscarded dec (newClientConn hpack serverS) es :=
  lateFrames_of_retained (retained_new hpack serverS) h

/-- A decoder that knows the indexed field of a 200. -/
def statusDecoder : BlockDecoder Unit := fun _ block =>
  if block = [136] then some ([⟨":status", "200"⟩], ()) else none

/-- A call canceled at the select, next to one that goes on. -/
def canceledWait : List ClientEvent :=
  [.start 0, .headers 1, .start 0, .headers 3, .cancel 1, .leave 1,
    .frame (.headers 1 [136] true false)]

theorem lateFramesDiscarded_canceledWait :
    StepsMeet (step statusDecoder) (Orderly statusDecoder) (newClientConn () {}) canceledWait ∧
      ((newClientConn () {}).run statusDecoder (canceledWait.take 6)).Discards statusDecoder 1
        (.headers 1 [136] true false) := by
  have hmeet : StepsMeet (step statusDecoder) (Orderly statusDecoder) (newClientConn () {})
      canceledWait := by decide +kernel
  refine ⟨hmeet, lateFramesDiscarded_of_orderly statusDecoder () {} canceledWait hmeet
    (canceledWait.take 4) (.cancel 1) [.leave 1] (.headers 1 [136] true false) 1 .canceledWaiting
    List.prefix_rfl ?_ trivial ?_ ?_ rfl⟩
  · decide +kernel
  · decide +kernel
  · decide +kernel

/-- An upload of two bytes to a peer that grants one, canceled while it waits for the second. -/
def canceledUpload : List ClientEvent :=
  [.start 2, .headers 1, .reserveStream 1, .reserveConn 1, .chunk 1, .cancel 1, .leave 1,
    .frame (.headers 1 [136] true true)]

theorem not_lateFramesDiscarded :
    ¬ LateFramesDiscarded statusDecoder (newClientConn () { initialWindowSize := 1 })
      canceledUpload := by
  intro h
  have hdiscards := h (canceledUpload.take 5) (.cancel 1) [.leave 1] (.headers 1 [136] true true) 1
    .canceledBody List.prefix_rfl (by decide +kernel) trivial (by decide +kernel)
    (by decide +kernel) rfl
  have herr : (((newClientConn () { initialWindowSize := 1 }).run statusDecoder
      (canceledUpload.take 5 ++ .cancel 1 :: [.leave 1])).dispatchFrame statusDecoder
        (.headers 1 [136] true true)).2 ≠ none := by decide +kernel
  exact herr hdiscards.passes

end ClientConn

end EnvoyGo.H2

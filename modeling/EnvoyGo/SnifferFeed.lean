import EnvoyGo.NetworkChain
import EnvoyGo.Runs
import Mathlib.Tactic.SplitIfs

/-!
What the protocol-sniffing filters of a chain are fed.  Every one of them takes its new bytes from
the shared buffer by a cursor of its own, while filters, the handoff and the replays drain it.
-/

namespace EnvoyGo.Network

open Runs

variable {σ : Type}

/-- What a sniffing filter has obtained and what its next call would give it are together the
downstream stream; and after the handoff, between two reads and with no replay parked, it has
obtained all of it. -/
def FeedExact (c : Chain σ) (s : Conn σ) : Prop :=
  ∀ i, c.Sniffs i →
    s.rt.fed i ++ (newBytes s.rt.buf.data s.rt.buf.total (s.rt.consumed i)).1 = s.received ∧
    (s.phase = .handed → s.rt.replayHeld = false → s.rt.fed i = s.received)

def Lossless (c : Chain σ) (rt : Runtime σ) : Prop :=
  ∀ i, c.Sniffs i → rt.buf.total ≤ rt.consumed i + rt.buf.data.length

theorem Chain.Sniffs.lt {c : Chain σ} {i : ℕ} (h : c.Sniffs i) : i < c.filters.length := by
  by_contra hge
  unfold Chain.Sniffs at h
  rw [List.getElem?_eq_none (Nat.le_of_not_lt hge)] at h
  cases h

instance (c : Chain σ) (rt : Runtime σ) : Decidable (Lossless c rt) :=
  decidable_of_iff (∀ i < c.filters.length, c.Sniffs i →
      rt.buf.total ≤ rt.consumed i + rt.buf.data.length)
    ⟨fun h i hi => h i hi.lt hi, fun h i _ hi => h i hi⟩

/-- What the step drains from the buffer the sniffing filters have taken, whoever drains it: a
filter, the handoff, the end of a replay, or the resume of a parked one. -/
def DrainsTaken (c : Chain σ) (s : Conn σ) (e : Event) : Prop := Lossless c (step c s e).rt

instance (c : Chain σ) (s : Conn σ) (e : Event) : Decidable (DrainsTaken c s e) :=
  inferInstanceAs (Decidable (Lossless c (step c s e).rt))

def Taken (c : Chain σ) (rt : Runtime σ) : Prop := ∀ i, c.Sniffs i → rt.consumed i = rt.buf.total

theorem Chain.wrapped_of_sniffs {c : Chain σ} {i : ℕ} (h : c.Sniffs i) : c.wrapped = true := by
  unfold Chain.Sniffs at h
  cases hf : c.filters[i]? with
  | none => simp [hf] at h
  | some f =>
    rw [hf, Option.any_some] at h
    have hany : c.filters.any (·.writes) = true :=
      List.any_eq_true.mpr ⟨f, List.mem_of_getElem? hf, f.writes_of_sniffs h⟩
    unfold Chain.wrapped
    rw [hany, Bool.or_true]

theorem newBytes_eq {received data : Bytes} {consumed : ℕ} (hsuffix : data <:+ received)
    (hle : consumed ≤ received.length) (hthere : received.length ≤ consumed + data.length) :
    newBytes data received.length consumed = (received.drop consumed, received.length) := by
  unfold newBytes
  split_ifs with hall
  · have heq : consumed = received.length := Nat.le_antisymm hle hall
    rw [heq, List.drop_length]
  · obtain ⟨front, rfl⟩ := hsuffix
    rw [List.length_append] at hthere hall hle ⊢
    have hcount : min (front.length + data.length - consumed) data.length =
        front.length + data.length - consumed := by omega
    have hdrop : (front ++ data).drop consumed = data.drop (consumed - front.length) := by
      rw [List.drop_append, List.drop_eq_nil_of_le (by omega), List.nil_append]
    dsimp only
    rw [hcount, hdrop]
    congr 2
    omega

structure Drains (rt rt' : Runtime σ) : Prop where
  total : rt'.buf.total = rt.buf.total
  suffix : rt'.buf.data <:+ rt.buf.data
  consumed : rt'.consumed = rt.consumed
  fed : rt'.fed = rt.fed
  parked : rt'.replayHeld = rt.replayHeld ∨ rt'.replayHeld = false ∧ rt'.buf.data = []
  pass : rt'.pass = rt.pass
  halted : rt'.connHalted = rt.connHalted

namespace Drains

variable {rt rt' rt'' : Runtime σ}

theorem of_same (hbuf : rt'.buf = rt.buf) (hc : rt'.consumed = rt.consumed)
    (hf : rt'.fed = rt.fed) (hr : rt'.replayHeld = rt.replayHeld) (hp : rt'.pass = rt.pass)
    (hh : rt'.connHalted = rt.connHalted) : Drains rt rt' where
  total := by rw [hbuf]
  suffix := hbuf ▸ List.suffix_rfl
  consumed := hc
  fed := hf
  parked := .inl hr
  pass := hp
  halted := hh

theorem trans (h : Drains rt rt') (h' : Drains rt' rt'') : Drains rt rt'' where
  total := h'.total.trans h.total
  suffix := h'.suffix.trans h.suffix
  consumed := h'.consumed.trans h.consumed
  fed := h'.fed.trans h.fed
  parked := by
    rcases h'.parked with he | hdone
    · rcases h.parked with he' | ⟨hf, hnil⟩
      · exact .inl (he.trans he')
      · refine .inr ⟨he.trans hf, ?_⟩
        have hsuffix := h'.suffix
        rw [hnil] at hsuffix
        exact List.suffix_nil.mp hsuffix
    · exact .inr hdone
  pass := h'.pass.trans h.pass
  halted := h'.halted.trans h.halted

theorem releaseResume (rt : Runtime σ) : Drains rt rt.releaseResume := by
  unfold Runtime.releaseResume
  split_ifs <;> exact of_same rfl rfl rfl rfl rfl rfl

theorem finishParkedReplay (rt : Runtime σ) : Drains rt rt.finishParkedReplay where
  total := rfl
  suffix := List.drop_suffix _ _
  consumed := rfl
  fed := rfl
  parked := .inr ⟨rfl, List.drop_length⟩
  pass := rfl
  halted := rfl

theorem signalResume (c : Chain σ) (rt : Runtime σ) : Drains rt (rt.signalResume c) := by
  unfold Runtime.signalResume
  split_ifs
  · exact (finishParkedReplay rt).trans (releaseResume _)
  · exact releaseResume rt
  · exact of_same rfl rfl rfl rfl rfl rfl

theorem react (c : Chain σ) (rt : Runtime σ) (i : ℕ) (r : Reaction) :
    Drains rt (rt.react c i r) := by
  have hdrain : Drains rt { rt with buf := rt.buf.drain r.drain } :=
    ⟨rfl, List.drop_suffix _ _, rfl, rfl, .inl rfl, rfl, rfl⟩
  have hclose : ∀ rt : Runtime σ, Drains rt
      (r.close.elim rt (rt.close i)) := by
    intro rt
    cases r.close <;> exact of_same rfl rfl rfl rfl rfl rfl
  have hresume : ∀ rt : Runtime σ, Drains rt (if r.resume then rt.signalResume c else rt) := by
    intro rt
    split_ifs
    · exact signalResume c rt
    · exact of_same rfl rfl rfl rfl rfl rfl
  rw [Runtime.react_eq]
  exact (hdrain.trans (hclose _)).trans (hresume _)

end Drains

structure Same (rt rt' : Runtime σ) : Prop where
  buf : rt'.buf = rt.buf
  consumed : rt'.consumed = rt.consumed
  fed : rt'.fed = rt.fed
  replayHeld : rt'.replayHeld = rt.replayHeld

namespace Same

variable {rt rt' rt'' : Runtime σ}

theorem refl (rt : Runtime σ) : Same rt rt := ⟨rfl, rfl, rfl, rfl⟩

theorem trans (h : Same rt rt') (h' : Same rt' rt'') : Same rt rt'' :=
  ⟨h'.buf.trans h.buf, h'.consumed.trans h.consumed, h'.fed.trans h.fed,
    h'.replayHeld.trans h.replayHeld⟩

theorem signalResume {c : Chain σ} (h : rt.replayHeld = false) :
    Same rt (rt.signalResume c) := by
  unfold Runtime.signalResume
  split_ifs with hhalt hheld
  · rw [h] at hheld
    cases hheld
  · unfold Runtime.releaseResume
    split_ifs <;> exact ⟨rfl, rfl, rfl, rfl⟩
  · exact ⟨rfl, rfl, rfl, rfl⟩

theorem callOnNewConnection {c : Chain σ} (h : rt.replayHeld = false) (i : ℕ)
    (f : ReadFilter σ) : Same rt (rt.callOnNewConnection c i f).2 := by
  have hclose : ∀ (rt : Runtime σ) (ct : Option CloseType), Same rt
      (ct.elim rt (rt.close i)) := by
    intro rt ct
    cases ct <;> exact ⟨rfl, rfl, rfl, rfl⟩
  have hresume : ∀ (rt : Runtime σ) (b : Bool), rt.replayHeld = false →
      Same rt (if b then rt.signalResume c else rt) := by
    intro rt b hr
    cases b
    · exact refl rt
    · exact signalResume hr
  have hcalled : Same rt
      { rt with
        done := Function.update rt.done i true
        mem := Function.update rt.mem i (f.onNewConnection (rt.mem i)).2
        buf := rt.buf.drain 0 } := ⟨rfl, rfl, rfl, rfl⟩
  have hclosed := hcalled.trans (hclose _ (f.onNewConnection (rt.mem i)).1.close)
  unfold Runtime.callOnNewConnection
  dsimp only
  rw [Runtime.react_eq]
  exact hclosed.trans (hresume _ _ (hclosed.replayHeld.trans h))

theorem openFrom {c : Chain σ} (fs : List (ReadFilter σ)) (i : ℕ)
    (h : rt.replayHeld = false) : Same rt (Runtime.openFrom c fs i rt) := by
  induction fs generalizing i rt with
  | nil => exact ⟨rfl, rfl, rfl, rfl⟩
  | cons f fs ih =>
    have hcall : Same rt (rt.callOnNewConnection c i f).2 := callOnNewConnection h i f
    unfold Runtime.openFrom
    cases hres : rt.callOnNewConnection c i f with
    | mk status rt' =>
      rw [hres] at hcall
      cases status with
      | stopIteration => exact hcall.trans ⟨rfl, rfl, rfl, rfl⟩
      | continueIteration =>
        have hnext : Same rt { rt' with resumeIdx := i + 1 } :=
          hcall.trans ⟨rfl, rfl, rfl, rfl⟩
        exact hnext.trans (ih (i + 1) (hnext.replayHeld.trans h))

end Same

structure Feeds (rt rt' : Runtime σ) : Prop where
  total : rt'.buf.total = rt.buf.total
  suffix : rt'.buf.data <:+ rt.buf.data
  taken : ∀ i, (rt'.consumed i = rt.consumed i ∧ rt'.fed i = rt.fed i) ∨
    (rt'.consumed i = (newBytes rt.buf.data rt.buf.total (rt.consumed i)).2 ∧
      rt'.fed i = rt.fed i ++ (newBytes rt.buf.data rt.buf.total (rt.consumed i)).1)
  parked : rt'.replayHeld = rt.replayHeld ∨ rt'.replayHeld = false ∧ rt'.buf.data = []

theorem Drains.feeds {rt rt' : Runtime σ} (h : Drains rt rt') : Feeds rt rt' where
  total := h.total
  suffix := h.suffix
  taken := fun i => .inl ⟨congrFun h.consumed i, congrFun h.fed i⟩
  parked := h.parked

namespace Feeds

variable {rt rt' rt'' : Runtime σ}

theorem keep (h : Feeds rt rt') (h' : Same rt' rt'') : Feeds rt rt'' where
  total := by rw [h'.buf, h.total]
  suffix := by rw [h'.buf]; exact h.suffix
  taken := by rw [h'.consumed, h'.fed]; exact h.taken
  parked := by rw [h'.replayHeld, h'.buf]; exact h.parked

theorem after (h : Same rt rt') (h' : Feeds rt' rt'') : Feeds rt rt'' where
  total := by rw [h'.total, h.buf]
  suffix := by rw [← h.buf]; exact h'.suffix
  taken := by rw [← h.buf, ← h.consumed, ← h.fed]; exact h'.taken
  parked := by rw [← h.replayHeld]; exact h'.parked

theorem of_same (h : Same rt rt') : Feeds rt rt' where
  total := by rw [h.buf]
  suffix := h.buf ▸ List.suffix_rfl
  taken := fun i => .inl ⟨congrFun h.consumed i, congrFun h.fed i⟩
  parked := .inl h.replayHeld

theorem drains (h : Feeds rt rt') (h' : Drains rt' rt'') : Feeds rt rt'' where
  total := h'.total.trans h.total
  suffix := h'.suffix.trans h.suffix
  taken := by rw [h'.consumed, h'.fed]; exact h.taken
  parked := by
    rcases h'.parked with he | hdone
    · rcases h.parked with he' | ⟨hf, hnil⟩
      · exact .inl (he.trans he')
      · refine .inr ⟨he.trans hf, ?_⟩
        have hsuffix := h'.suffix
        rw [hnil] at hsuffix
        exact List.suffix_nil.mp hsuffix
    · exact .inr hdone

theorem sniff (rt : Runtime σ) (i : ℕ) : Feeds rt (rt.sniff i) where
  total := rfl
  suffix := List.suffix_rfl
  taken := by
    intro j
    by_cases hj : j = i
    · subst hj
      exact .inr ⟨Function.update_self _ _ _, Function.update_self _ _ _⟩
    · exact .inl ⟨Function.update_of_ne hj _ _, Function.update_of_ne hj _ _⟩
  parked := .inl rfl

theorem callOnData (c : Chain σ) (rt : Runtime σ) (i : ℕ) (f : ReadFilter σ) (endStream : Bool) :
    Feeds rt (rt.callOnData c i f endStream).2 := by
  refine Feeds.drains ?_ (Drains.react c _ i _)
  have hshown : Same rt { rt with
      mem := Function.update rt.mem i (f.onData (rt.mem i) rt.buf endStream).2
      log := rt.log ++ [.data i rt.buf] } := ⟨rfl, rfl, rfl, rfl⟩
  split_ifs
  · exact after hshown (sniff _ i)
  · exact of_same hshown

theorem deliver (c : Chain σ) (rt : Runtime σ) (i : ℕ) (f : ReadFilter σ) :
    Feeds rt (rt.deliver c i f) := by
  unfold Runtime.deliver
  by_cases hnone : rt.buf.data = [] ∧ rt.lastEndStream = false
  · rw [if_pos hnone]
    exact of_same ⟨rfl, rfl, rfl, rfl⟩
  · rw [if_neg hnone]
    have hreset : Same rt { rt with resumeRequested := false } := ⟨rfl, rfl, rfl, rfl⟩
    have hcall := after hreset
      (callOnData c { rt with resumeRequested := false } i f rt.lastEndStream)
    cases hres : Runtime.callOnData c { rt with resumeRequested := false } i f
        rt.lastEndStream with
    | mk status rt' =>
      rw [hres] at hcall
      cases status with
      | continueIteration => exact hcall.keep ⟨rfl, rfl, rfl, rfl⟩
      | stopIteration =>
        dsimp only
        split_ifs <;> exact hcall.keep ⟨rfl, rfl, rfl, rfl⟩

theorem runDataTurn {c : Chain σ} (h : rt.replayHeld = false) : Feeds rt (rt.runDataTurn c) := by
  unfold Runtime.runDataTurn
  cases c.filters[rt.resumeIdx]? with
  | none => exact of_same ⟨rfl, rfl, rfl, rfl⟩
  | some f =>
    dsimp only
    split_ifs
    · exact deliver c rt rt.resumeIdx f
    · have hcall : Same rt (rt.callOnNewConnection c rt.resumeIdx f).2 :=
        Same.callOnNewConnection h rt.resumeIdx f
      cases hres : rt.callOnNewConnection c rt.resumeIdx f with
      | mk status rt' =>
        rw [hres] at hcall
        cases status with
        | stopIteration => exact of_same (hcall.trans ⟨rfl, rfl, rfl, rfl⟩)
        | continueIteration => exact after hcall (deliver c rt' rt'.resumeIdx f)

end Feeds

theorem callOnData_flags (c : Chain σ) (rt : Runtime σ) (i : ℕ) (f : ReadFilter σ)
    (endStream : Bool) : (rt.callOnData c i f endStream).2.pass = rt.pass ∧
      (rt.callOnData c i f endStream).2.connHalted = rt.connHalted := by
  have hflags : ∀ shown : Runtime σ, (shown.pass = rt.pass ∧ shown.connHalted = rt.connHalted) →
      (shown.react c i (f.onData (rt.mem i) rt.buf endStream).1).pass = rt.pass ∧
      (shown.react c i (f.onData (rt.mem i) rt.buf endStream).1).connHalted = rt.connHalted := by
    intro shown hs
    have hd := Drains.react c shown i (f.onData (rt.mem i) rt.buf endStream).1
    exact ⟨hd.pass.trans hs.1, hd.halted.trans hs.2⟩
  apply hflags
  split_ifs <;> exact ⟨rfl, rfl⟩

/-- Between the replays of two reads. -/
def Phase.settled : Phase → Bool
  | .handed | .replayingEOF _ | .withheld _ _ => true
  | _ => false

structure FeedInv (c : Chain σ) (s : Conn σ) : Prop where
  total : s.rt.buf.total = s.received.length
  suffix : s.rt.buf.data <:+ s.received
  fed : ∀ i, c.Sniffs i → s.rt.consumed i ≤ s.received.length ∧
    s.rt.fed i = s.received.take (s.rt.consumed i)
  lossless : Lossless c s.rt
  taken : s.phase.settled = true → s.rt.replayHeld = false → Taken c s.rt
  apart : s.handedOff = true → s.rt.pass = false ∧ s.rt.connHalted = false
  unparked : s.handedOff = false → s.rt.replayHeld = false

theorem Phase.handedOff_of_settled {s : Conn σ} (h : s.phase.settled = true) :
    s.handedOff = true := by
  unfold Conn.handedOff
  cases hphase : s.phase <;> simp_all [Phase.settled]

theorem Taken.feeds {c : Chain σ} {rt rt' : Runtime σ} (h : Taken c rt) (hf : Feeds rt rt') :
    Taken c rt' := by
  intro i hi
  rcases hf.taken i with ⟨hc, -⟩ | ⟨hc, -⟩
  · rw [hc, hf.total, h i hi]
  · rw [hc, hf.total, h i hi]
    unfold newBytes
    rw [if_pos (Nat.le_refl _)]

namespace FeedInv

variable {c : Chain σ} {s s' : Conn σ}

section

variable (h : FeedInv c s)

include h

theorem newBytes {i : ℕ} (hi : c.Sniffs i) :
    newBytes s.rt.buf.data s.rt.buf.total (s.rt.consumed i) =
      (s.received.drop (s.rt.consumed i), s.received.length) := by
  have hthere := h.lossless i hi
  rw [h.total] at hthere ⊢
  exact newBytes_eq h.suffix (h.fed i hi).1 hthere

theorem feedExact : FeedExact c s := by
  intro i hi
  obtain ⟨hle, hfed⟩ := h.fed i hi
  refine ⟨?_, ?_⟩
  · rw [h.newBytes hi, hfed]
    exact List.take_append_drop _ _
  · intro hphase hheld
    have htaken := h.taken (by rw [hphase]; rfl) hheld i hi
    rw [hfed, htaken, h.total, List.take_length]

theorem of_feeds {rt' : Runtime σ} (hf : Feeds s.rt rt') (hbuf : s'.rt.buf = rt'.buf)
    (hcons : s'.rt.consumed = rt'.consumed) (hfed : s'.rt.fed = rt'.fed)
    (hrec : s'.received = s.received) (hl : Lossless c s'.rt)
    (htaken : s'.phase.settled = true → s'.rt.replayHeld = false → Taken c s'.rt)
    (hapart : s'.handedOff = true → s'.rt.pass = false ∧ s'.rt.connHalted = false)
    (hunparked : s'.handedOff = false → s'.rt.replayHeld = false) : FeedInv c s' where
  total := by rw [hbuf, hf.total, h.total, hrec]
  suffix := by
    rw [hbuf, hrec]
    exact hf.suffix.trans h.suffix
  fed := by
    intro i hi
    obtain ⟨hle, hold⟩ := h.fed i hi
    rw [hcons, hfed, hrec]
    rcases hf.taken i with ⟨hc, hd⟩ | ⟨hc, hd⟩
    · rw [hc, hd]
      exact ⟨hle, hold⟩
    · rw [hc, hd, h.newBytes hi, hold]
      refine ⟨Nat.le_refl _, ?_⟩
      rw [List.take_append_drop, List.take_length]
  lossless := hl
  taken := htaken
  apart := hapart
  unparked := hunparked

theorem of_same (hsame : Same s.rt s'.rt) (hrec : s'.received = s.received)
    (hsettled : s'.phase.settled = true → s.phase.settled = true)
    (hoff : s'.handedOff = s.handedOff)
    (hapart : s'.handedOff = true → s'.rt.pass = false ∧ s'.rt.connHalted = false) :
    FeedInv c s' := by
  refine h.of_feeds (Feeds.of_same hsame) rfl rfl rfl hrec ?_ ?_ hapart ?_
  · unfold Lossless
    rw [hsame.buf, hsame.consumed]
    exact h.lossless
  · intro hs hr
    unfold Taken
    rw [hsame.buf, hsame.consumed]
    exact h.taken (hsettled hs) (hsame.replayHeld.symm.trans hr)
  · intro hf
    rw [hsame.replayHeld]
    exact h.unparked (hoff.symm.trans hf)

theorem taken_of_drained {rt' : Runtime σ} (hf : Feeds s.rt rt') (hl : Lossless c rt')
    (hnil : rt'.buf.data = []) : Taken c rt' := by
  intro i hi
  have hle := (h.fed i hi).1
  have hge := hl i hi
  rw [hnil, hf.total, h.total] at hge
  rw [hf.total, h.total]
  rcases hf.taken i with ⟨hc, -⟩ | ⟨hc, -⟩
  · rw [hc] at hge ⊢
    exact Nat.le_antisymm hle hge
  · rw [hc, h.newBytes hi]

theorem handleTerminal (hpass : ¬ s.rt.pass = true) (hready : s.rt.terminalReady c = true)
    (hl : Lossless c s.handleTerminal.rt) : FeedInv c s.handleTerminal := by
  have hf : Feeds s.rt s.handleTerminal.rt :=
    ⟨rfl, List.drop_suffix _ _, fun i => .inl ⟨rfl, rfl⟩, .inl rfl⟩
  refine h.of_feeds hf rfl rfl rfl rfl hl ?_ ?_ ?_
  · intro _ _
    exact h.taken_of_drained hf hl List.drop_length
  · intro _
    unfold Runtime.terminalReady at hready
    simp only [Bool.and_eq_true, Bool.not_eq_true'] at hready
    exact ⟨Bool.eq_false_iff.mpr hpass, hready.1.2⟩
  · intro hoff
    cases hoff

theorem forward (hoff : s.handedOff = true) (ht : s.rt.replayHeld = false → Taken c s.rt)
    (p : Bytes) : FeedInv c (s.forward p) := by
  refine h.of_feeds (Feeds.of_same ⟨rfl, rfl, rfl, rfl⟩) rfl rfl rfl rfl h.lossless
    (fun _ hr => ht hr) (fun _ => h.apart hoff) ?_
  intro hf
  cases hf

theorem afterReplay (hoff : s.handedOff = true) (ht : s.rt.replayHeld = false → Taken c s.rt)
    (p : Bytes) (eof : Bool) : FeedInv c (s.afterReplay p eof) := by
  unfold Conn.afterReplay
  split_ifs
  · refine h.of_feeds (Feeds.of_same (Same.refl _)) rfl rfl rfl rfl h.lossless
      (fun _ hr => ht hr) (fun _ => h.apart hoff) ?_
    intro hf
    cases hf
  · exact h.forward hoff ht p

end

theorem lossless_of_afterReplay {p : Bytes} {eof : Bool}
    (hl : Lossless c (s.afterReplay p eof).rt) : Lossless c s.rt := by
  unfold Conn.afterReplay at hl
  split_ifs at hl
  · exact hl
  · exact hl

section

variable (h : FeedInv c s)

include h

theorem endReplay (hoff : s.handedOff = true) (hl : Lossless c s.endReplay.rt) :
    FeedInv c s.endReplay ∧ Taken c s.endReplay.rt := by
  have hf : Feeds s.rt s.endReplay.rt :=
    ⟨rfl, List.drop_suffix _ _, fun i => .inl ⟨rfl, rfl⟩, .inl rfl⟩
  have ht : Taken c s.endReplay.rt := h.taken_of_drained hf hl List.drop_length
  refine ⟨h.of_feeds hf rfl rfl rfl rfl hl (fun _ _ => ht) (fun _ => h.apart hoff) ?_, ht⟩
  intro hnot
  exact absurd (hoff.symm.trans hnot) (by simp)

theorem called (hoff : s.handedOff = true) (k : ℕ) (f : ReadFilter σ) (endStream : Bool)
    (hrt : Same { (s.rt.callOnData c k f endStream).2 with
      replayHeld := s'.rt.replayHeld } s'.rt)
    (hflags : s'.rt.pass = (s.rt.callOnData c k f endStream).2.pass ∧
      s'.rt.connHalted = (s.rt.callOnData c k f endStream).2.connHalted)
    (hrec : s'.received = s.received) (hoff' : s'.handedOff = true) (hl : Lossless c s'.rt)
    (ht : s'.phase.settled = true → s'.rt.replayHeld = false → Taken c s'.rt) : FeedInv c s' := by
  have hcall := callOnData_flags c s.rt k f endStream
  refine h.of_feeds (Feeds.callOnData c s.rt k f endStream) hrt.buf hrt.consumed hrt.fed hrec hl
    ht ?_ ?_
  · intro _
    rw [hflags.1, hflags.2, hcall.1, hcall.2]
    exact h.apart hoff
  · intro hnot
    exact absurd (hoff'.symm.trans hnot) (by simp)

theorem replayTurn {p : Bytes} {eof : Bool} (hphase : s.phase = .replaying p eof)
    (hl : Lossless c (s.replayTurn c p eof).rt) : FeedInv c (s.replayTurn c p eof) := by
  have hoff : s.handedOff = true := by
    unfold Conn.handedOff
    rw [hphase]
  unfold Conn.replayTurn at hl ⊢
  cases hfilter : c.filters[s.rt.replayIdx]? with
  | none =>
    rw [hfilter] at hl
    obtain ⟨hend, ht⟩ := h.endReplay hoff (lossless_of_afterReplay hl)
    exact hend.afterReplay hoff (fun _ => ht) p eof
  | some f =>
    rw [hfilter] at hl
    dsimp only at hl ⊢
    split_ifs at hl ⊢ with hstop hready
    · refine FeedInv.afterReplay ?_ ?_ ?_ p eof
      · exact h.called hoff s.rt.replayIdx f false ⟨rfl, rfl, rfl, rfl⟩ ⟨rfl, rfl⟩ rfl hoff
          (lossless_of_afterReplay hl) (fun _ hr => by cases hr)
      · exact hoff
      · intro hr
        cases hr
    · exact h.called hoff s.rt.replayIdx f false ⟨rfl, rfl, rfl, rfl⟩ ⟨rfl, rfl⟩ rfl rfl hl
        (fun _ hr => by cases hr)
    · refine h.called hoff s.rt.replayIdx f false ⟨rfl, rfl, rfl, rfl⟩ ⟨rfl, rfl⟩ rfl hoff hl ?_
      intro hs
      have hs' : s.phase.settled = true := hs
      rw [hphase] at hs'
      cases hs'

theorem replayEOFTurn {p : Bytes} (hphase : s.phase = .replayingEOF p)
    (hl : Lossless c (s.replayEOFTurn c p).rt) : FeedInv c (s.replayEOFTurn c p) := by
  have hoff : s.handedOff = true := by
    unfold Conn.handedOff
    rw [hphase]
  unfold Conn.replayEOFTurn at hl ⊢
  cases hfilter : c.filters[s.rt.replayIdx]? with
  | none =>
    rw [hfilter] at hl
    obtain ⟨hend, ht⟩ := h.endReplay hoff hl
    exact hend.forward hoff (fun _ => ht) p
  | some f =>
    rw [hfilter] at hl
    dsimp only at hl ⊢
    split_ifs at hl ⊢ with hstop
    · refine FeedInv.forward ?_ ?_ ?_ p
      · exact h.called hoff s.rt.replayIdx f true ⟨rfl, rfl, rfl, rfl⟩ ⟨rfl, rfl⟩ rfl hoff hl
          (fun _ hr => by cases hr)
      · exact hoff
      · intro hr
        cases hr
    · refine h.called hoff s.rt.replayIdx f true ⟨rfl, rfl, rfl, rfl⟩ ⟨rfl, rfl⟩ rfl hoff hl ?_
      intro _ hr
      have hcall := Feeds.callOnData c s.rt s.rt.replayIdx f true
      rcases hcall.parked with he | ⟨-, hnil⟩
      · refine Taken.feeds ?_ (hcall.keep ⟨rfl, rfl, rfl, rfl⟩)
        exact h.taken (by rw [hphase]; rfl) (he.symm.trans hr)
      · exact h.taken_of_drained (hcall.keep ⟨rfl, rfl, rfl, rfl⟩) hl hnil

theorem tick_loop (hoff : s.handedOff = false) (hl : Lossless c (s.tick c).rt) :
    FeedInv c (s.tick c) := by
  have hheld : s.rt.replayHeld = false := h.unparked hoff
  have hsame : ∀ {ph : Phase} {rt : Runtime σ}, Same s.rt rt →
      (ph = .opened ∨ ph = .top ∨ ph = .reading ∨ ph = .ended) →
      FeedInv c { s with rt := rt, phase := ph } := by
    intro ph rt hs hph
    have hnot : Conn.handedOff { s with rt := rt, phase := ph } = false := by
      rcases hph with rfl | rfl | rfl | rfl <;> rfl
    refine h.of_same hs rfl ?_ (hnot.trans hoff.symm) ?_
    · intro hset
      have hoff' := Phase.handedOff_of_settled hset
      rw [hnot] at hoff'
      cases hoff'
    · intro hoff'
      rw [hnot] at hoff'
      cases hoff'
  unfold Conn.tick at hl ⊢
  by_cases hbusy : s.rt.held = true
  · rw [if_pos hbusy]
    exact h
  rw [if_neg hbusy] at hl ⊢
  by_cases hpass : s.rt.pass = true
  · rw [if_pos hpass] at hl ⊢
    have hf : Feeds s.rt (s.rt.runDataTurn c) := Feeds.runDataTurn hheld
    refine h.of_feeds hf rfl rfl rfl rfl hl ?_ ?_ ?_
    · intro hset
      have hoff' : s.handedOff = true := Phase.handedOff_of_settled hset
      rw [hoff] at hoff'
      cases hoff'
    · intro hoff'
      exact absurd (hoff.symm.trans hoff') (by simp)
    · intro _
      rcases hf.parked with he | ⟨hfalse, -⟩
      · exact he.trans hheld
      · exact hfalse
  rw [if_neg hpass] at hl ⊢
  cases hphase : s.phase with
  | start =>
    rw [hphase] at hl
    dsimp only at hl ⊢
    split_ifs at hl ⊢ with hready
    · exact h.handleTerminal hpass hready hl
    · exact hsame (Same.openFrom c.filters 0 hheld) (.inl rfl)
  | opened =>
    rw [hphase] at hl
    dsimp only at hl ⊢
    split_ifs at hl ⊢ with hready
    · exact h.handleTerminal hpass hready hl
    · exact hsame (Same.refl _) (.inr (.inl rfl))
  | top =>
    dsimp only
    split_ifs
    · exact hsame (Same.refl _) (.inr (.inr (.inr rfl)))
    · exact hsame (Same.refl _) (.inr (.inr (.inl rfl)))
  | checking err =>
    rw [hphase] at hl
    dsimp only at hl ⊢
    split_ifs at hl ⊢ with hready
    · exact h.handleTerminal hpass hready hl
    · exact hsame (Same.refl _) (.inr (.inr (.inr rfl)))
    · cases err with
      | none => exact hsame (Same.refl _) (.inr (.inl rfl))
      | eof =>
        refine hsame ⟨?_, rfl, rfl, rfl⟩ (.inr (.inr (.inr rfl)))
        exact Buffer.append_nil s.rt.buf
      | other => exact hsame (Same.refl _) (.inr (.inr (.inr rfl)))
  | reading => exact h
  | ended => exact h
  | handed => simp [Conn.handedOff, hphase] at hoff
  | replaying p eof => simp [Conn.handedOff, hphase] at hoff
  | replayingEOF p => simp [Conn.handedOff, hphase] at hoff
  | withheld p eof => simp [Conn.handedOff, hphase] at hoff

theorem tick (hl : Lossless c (s.tick c).rt) : FeedInv c (s.tick c) := by
  cases hoff : s.handedOff with
  | false => exact h.tick_loop hoff hl
  | true =>
    have hpass : ¬ s.rt.pass = true := by
      rw [(h.apart hoff).1]
      simp
    unfold Conn.tick at hl ⊢
    by_cases hbusy : s.rt.held = true
    · rw [if_pos hbusy]
      exact h
    rw [if_neg hbusy, if_neg hpass] at hl ⊢
    cases hphase : s.phase with
    | replaying p eof =>
      rw [hphase] at hl
      exact h.replayTurn hphase hl
    | replayingEOF p =>
      rw [hphase] at hl
      exact h.replayEOFTurn hphase hl
    | withheld p eof =>
      exact h.afterReplay hoff (h.taken (by rw [hphase]; rfl)) p eof
    | handed => exact h
    | reading => exact h
    | ended => exact h
    | start => simp [Conn.handedOff, hphase] at hoff
    | opened => simp [Conn.handedOff, hphase] at hoff
    | top => simp [Conn.handedOff, hphase] at hoff
    | checking err => simp [Conn.handedOff, hphase] at hoff

theorem received (p : Bytes) (hbuf : s'.rt.buf = s.rt.buf.append p)
    (hcons : s'.rt.consumed = s.rt.consumed) (hfed : s'.rt.fed = s.rt.fed)
    (hheld : s'.rt.replayHeld = s.rt.replayHeld) (hrec : s'.received = s.received ++ p)
    (hset : s'.phase.settled = false) (hoff : s'.handedOff = s.handedOff)
    (hapart : s'.handedOff = true → s'.rt.pass = false ∧ s'.rt.connHalted = false) :
    FeedInv c s' where
  total := by
    rw [hbuf, hrec, List.length_append, ← h.total]
    rfl
  suffix := by
    obtain ⟨front, hfront⟩ := h.suffix
    rw [hbuf, hrec, ← hfront]
    exact ⟨front, (List.append_assoc _ _ _).symm⟩
  fed := by
    intro i hi
    obtain ⟨hle, hold⟩ := h.fed i hi
    rw [hcons, hfed, hrec, List.take_append_of_le_length hle, List.length_append]
    exact ⟨Nat.le_add_right_of_le hle, hold⟩
  lossless := by
    intro i hi
    have hold := h.lossless i hi
    rw [hbuf, hcons]
    simp only [Buffer.append, List.length_append]
    omega
  taken := by
    intro hs
    rw [hset] at hs
    cases hs
  apart := hapart
  unparked := by
    intro hf
    rw [hheld]
    exact h.unparked (hoff.symm.trans hf)

theorem recv (hw : c.wrapped = true) (p : Bytes) (err : ReadErr) : FeedInv c (s.recv c p err) := by
  unfold Conn.recv
  by_cases hbusy : (s.rt.held || s.rt.pass) = true
  · rw [if_pos hbusy]
    exact h
  rw [if_neg hbusy]
  cases hphase : s.phase with
  | reading =>
    have hoff : s.handedOff = false := by
      unfold Conn.handedOff
      rw [hphase]
    dsimp only
    split_ifs with hp
    · refine h.of_same (Same.refl _) ?_ (fun hs => by cases hs) hoff.symm
        (fun hf => by cases hf)
      rw [hp]
      exact List.append_nil _
    · exact h.received p rfl rfl rfl rfl rfl rfl hoff.symm (fun hf => by cases hf)
  | handed =>
    have hoff : s.handedOff = true := by
      unfold Conn.handedOff
      rw [hphase]
    have hset : s.phase.settled = true := by
      rw [hphase]
      rfl
    dsimp only
    split_ifs with hpre hwrap hp heof
    · exact h
    · rw [hw] at hwrap
      cases hwrap
    · exact h.of_same (Same.refl _) rfl (fun _ => hset) hoff.symm (fun _ => h.apart hoff)
    · exact h.of_same (Same.refl _) rfl (fun _ => hset) hoff.symm (fun _ => h.apart hoff)
    · exact h.received p rfl rfl rfl rfl rfl rfl hoff.symm (fun _ => h.apart hoff)
  | _ => exact h

theorem continueReading (hl : Lossless c (s.rt.continueReading c)) :
    FeedInv c { s with rt := s.rt.continueReading c } := by
  unfold Runtime.continueReading at hl ⊢
  split_ifs at hl ⊢ with hhalt
  · have hoff : s.handedOff = false := by
      rw [Bool.eq_false_iff]
      intro hf
      have hnot := (h.apart hf).2
      rw [hhalt] at hnot
      cases hnot
    refine h.of_same ⟨rfl, rfl, rfl, rfl⟩ rfl (fun hs => hs) rfl ?_
    intro hf
    exact absurd (hoff.symm.trans hf) (by simp)
  · have hd := Drains.signalResume c s.rt
    refine h.of_feeds hd.feeds rfl rfl rfl rfl hl ?_ ?_ ?_
    · intro hs hr
      rcases hd.parked with he | ⟨-, hnil⟩
      · exact (h.taken hs (he.symm.trans hr)).feeds hd.feeds
      · exact h.taken_of_drained hd.feeds hl hnil
    · intro hf
      have hold := h.apart hf
      exact ⟨hd.pass.trans hold.1, hd.halted.trans hold.2⟩
    · intro hf
      rcases hd.parked with he | ⟨hfalse, -⟩
      · exact he.trans (h.unparked hf)
      · exact hfalse

theorem step (hw : c.wrapped = true) {e : Event} (hok : DrainsTaken c s e) :
    FeedInv c (step c s e) := by
  have hkeep : ∀ {rt : Runtime σ} {pre : Bytes}, Same s.rt rt → rt.pass = s.rt.pass →
      rt.connHalted = s.rt.connHalted → FeedInv c { s with rt := rt, pre := pre } := by
    intro rt pre hs hp hh
    refine h.of_same hs rfl (fun hset => hset) rfl ?_
    intro hf
    have hold := h.apart hf
    exact ⟨hp.trans hold.1, hh.trans hold.2⟩
  cases e with
  | tick => exact h.tick hok
  | recv p err => exact h.recv hw p err
  | readPrefix n =>
    simp only [Network.step, Conn.readPrefix]
    split_ifs
    · exact hkeep ⟨rfl, rfl, rfl, rfl⟩ rfl rfl
    · exact h
  | continueReading => exact h.continueReading hok
  | onWriteClose i ct =>
    simp only [Network.step, Conn.onWriteClose]
    split_ifs
    · exact hkeep ⟨rfl, rfl, rfl, rfl⟩ rfl rfl
    · exact h

end

theorem initial (c : Chain σ) (mem : ℕ → σ) : FeedInv c (Conn.init mem) where
  total := rfl
  suffix := List.suffix_rfl
  fed := fun i _ => ⟨Nat.le_refl _, rfl⟩
  lossless := fun i _ => Nat.le_refl _
  taken := fun hs => by cases hs
  apart := fun hf => by cases hf
  unparked := fun _ => rfl

end FeedInv

/-- A filter that sniffs and lets everything through. -/
def sniffer : ReadFilter Bool where
  onNewConnection m := ({}, m)
  onData m _ _ := ({}, m)
  sniffs := true
  writes := true

/-- A filter that stops the first data it is shown, unless it is open from the start. -/
def gate : ReadFilter Bool where
  onNewConnection m := ({}, m)
  onData m _ _ := ({ status := if m then .continueIteration else .stopIteration }, true)
  writes_of_sniffs := Bool.le_refl false

/-- One read before the handoff, one after it. -/
def throughOpenGate : List Event :=
  [.tick, .tick, .tick, .recv [1] .none, .tick, .tick, .tick, .tick, .readPrefix 1,
    .recv [2] .none, .tick, .tick, .tick]

/-- The gate stops the first read behind the sniffing filter, and the second goes on from there to
the handoff. -/
def throughGate : List Event :=
  [.tick, .tick, .tick, .recv [1] .none, .tick, .tick, .tick, .tick, .recv [2] .none, .tick, .tick,
    .tick, .readPrefix 2, .recv [3] .none, .tick, .tick, .tick]

/-- A sniffing filter that holds the second data it is shown. -/
def holder : ReadFilter Bool where
  onNewConnection m := ({}, m)
  onData m _ _ := ({ status := if m then .stopIteration else .continueIteration }, true)
  sniffs := true
  writes := true
  mayHalt := true

/-- A read after the handoff is held and let go. -/
def heldReplay : List Event :=
  [.tick, .tick, .tick, .recv [1] .none, .tick, .tick, .tick, .tick, .readPrefix 1,
    .recv [2] .none, .tick, .continueReading, .tick]

end EnvoyGo.Network

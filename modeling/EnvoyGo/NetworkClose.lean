import EnvoyGo.NetworkChain
import EnvoyGo.Runs
import Mathlib.Tactic.SplitIfs

/-!
The close of a network filter.  `Close` only leaves a request that the read loop looks at between
two reads; after the handoff nobody looks at it.
-/

namespace EnvoyGo.Network

open Runs

variable {σ : Type}

/-- What may stand later in the record than a close: no later filter is shown, and the terminal does
not get, a byte that was received after it. -/
def Obs.Respects : Obs → Obs → Prop
  | .close i n, .data j buf => i < j → buf.total ≤ n
  | .close _ n, .upstream _ upTo => upTo ≤ n
  | _, _ => True

instance (a b : Obs) : Decidable (a.Respects b) :=
  match a, b with
  | .close i n, .data j buf => inferInstanceAs (Decidable (i < j → buf.total ≤ n))
  | .close _ n, .upstream _ upTo => inferInstanceAs (Decidable (upTo ≤ n))
  | .close _ _, .close _ _ => isTrue trivial
  | .data _ _, _ => isTrue trivial
  | .upstream _ _, _ => isTrue trivial

/-- Nothing received after a close goes past the filter that asked for it. -/
def CloseFinal (s : Conn σ) : Prop := s.rt.log.Pairwise Obs.Respects

instance (s : Conn σ) : Decidable (CloseFinal s) :=
  inferInstanceAs (Decidable (s.rt.log.Pairwise Obs.Respects))

def Phase.heeds : Phase → Bool
  | .start | .opened | .top | .checking _ | .ended => true
  | _ => false

def Conn.handsOff (c : Chain σ) (s : Conn σ) : Bool :=
  match s.phase with
  | .start | .opened | .checking _ => !s.rt.held && !s.rt.pass && s.rt.terminalReady c
  | _ => false

/-- No handoff with a close pending, and no filter asks for a close during a read of the loop or
after the handoff. -/
def CloseHeeded (c : Chain σ) (s : Conn σ) (e : Event) : Prop :=
  (e = .tick → s.handsOff c = true → s.rt.closeReq = false) ∧
  (s.phase.heeds = false → (step c s e).rt.closeReq = true → s.rt.closeReq = true)

instance (c : Chain σ) (s : Conn σ) (e : Event) : Decidable (CloseHeeded c s e) :=
  inferInstanceAs (Decidable ((e = .tick → s.handsOff c = true → s.rt.closeReq = false) ∧
    (s.phase.heeds = false → (step c s e).rt.closeReq = true → s.rt.closeReq = true)))

structure Quiet (rt rt' : Runtime σ) : Prop where
  total : rt'.buf.total = rt.buf.total
  req : rt.closeReq = true → rt'.closeReq = true
  log : ∃ more, rt'.log = rt.log ++ more ∧ ∀ o ∈ more,
    (∃ j buf, o = .data j buf ∧ buf.total = rt.buf.total) ∨
    (∃ i, o = .close i rt.buf.total ∧ rt'.closeReq = true)

namespace Quiet

variable {rt rt' rt'' : Runtime σ}

theorem of_same (htotal : rt'.buf.total = rt.buf.total) (hreq : rt'.closeReq = rt.closeReq)
    (hlog : rt'.log = rt.log) : Quiet rt rt' where
  total := htotal
  req := fun h => hreq.trans h
  log := ⟨[], by rw [hlog, List.append_nil], fun o ho => by cases ho⟩

theorem refl (rt : Runtime σ) : Quiet rt rt := of_same rfl rfl rfl

theorem trans (h : Quiet rt rt') (h' : Quiet rt' rt'') : Quiet rt rt'' := by
  obtain ⟨more, hlog, hmore⟩ := h.log
  obtain ⟨more', hlog', hmore'⟩ := h'.log
  refine ⟨h'.total.trans h.total, fun hreq => h'.req (h.req hreq), more ++ more', ?_, ?_⟩
  · rw [hlog', hlog, List.append_assoc]
  · intro o ho
    rcases List.mem_append.mp ho with ho | ho
    · rcases hmore o ho with hdata | ⟨i, he, hreq⟩
      · exact .inl hdata
      · exact .inr ⟨i, he, h'.req hreq⟩
    · have hnew := hmore' o ho
      rw [h.total] at hnew
      exact hnew

theorem releaseResume (rt : Runtime σ) : Quiet rt rt.releaseResume := by
  unfold Runtime.releaseResume
  split_ifs <;> exact of_same rfl rfl rfl

theorem signalResume (c : Chain σ) (rt : Runtime σ) : Quiet rt (rt.signalResume c) := by
  unfold Runtime.signalResume
  split_ifs
  · have hfinish : Quiet rt rt.finishParkedReplay := of_same rfl rfl rfl
    exact hfinish.trans (releaseResume _)
  · exact releaseResume rt
  · exact of_same rfl rfl rfl

theorem close (rt : Runtime σ) (i : ℕ) (ct : CloseType) : Quiet rt (rt.close i ct) where
  total := rfl
  req := fun _ => rfl
  log := by
    refine ⟨[.close i rt.buf.total], rfl, ?_⟩
    intro o ho
    exact .inr ⟨i, List.mem_singleton.mp ho, rfl⟩

theorem react (c : Chain σ) (rt : Runtime σ) (i : ℕ) (r : Reaction) :
    Quiet rt (rt.react c i r) := by
  have hdrain : Quiet rt { rt with buf := rt.buf.drain r.drain } := of_same rfl rfl rfl
  have hclose : ∀ rt : Runtime σ, Quiet rt
      (r.close.elim rt (rt.close i)) := by
    intro rt
    cases r.close with
    | none => exact refl rt
    | some ct => exact close rt i ct
  have hresume : ∀ rt : Runtime σ, Quiet rt (if r.resume then rt.signalResume c else rt) := by
    intro rt
    split_ifs
    · exact signalResume c rt
    · exact refl rt
  rw [Runtime.react_eq]
  exact (hdrain.trans (hclose _)).trans (hresume _)

theorem callOnNewConnection (c : Chain σ) (rt : Runtime σ) (i : ℕ) (f : ReadFilter σ) :
    Quiet rt (rt.callOnNewConnection c i f).2 := by
  refine Quiet.trans ?_ (react c _ i _)
  exact of_same rfl rfl rfl

theorem callOnData (c : Chain σ) (rt : Runtime σ) (i : ℕ) (f : ReadFilter σ) (endStream : Bool) :
    Quiet rt (rt.callOnData c i f endStream).2 := by
  refine Quiet.trans ?_ (react c _ i _)
  have hshown : Quiet rt { rt with
      mem := Function.update rt.mem i (f.onData (rt.mem i) rt.buf endStream).2
      log := rt.log ++ [.data i rt.buf] } := by
    refine ⟨rfl, id, [.data i rt.buf], rfl, ?_⟩
    intro o ho
    exact .inl ⟨i, rt.buf, List.mem_singleton.mp ho, rfl⟩
  split_ifs
  · exact hshown.trans (of_same rfl rfl rfl)
  · exact hshown

theorem openFrom (c : Chain σ) (fs : List (ReadFilter σ)) (i : ℕ) (rt : Runtime σ) :
    Quiet rt (Runtime.openFrom c fs i rt) := by
  induction fs generalizing i rt with
  | nil => exact of_same rfl rfl rfl
  | cons f fs ih =>
    have hcall := callOnNewConnection c rt i f
    unfold Runtime.openFrom
    cases hres : rt.callOnNewConnection c i f with
    | mk status rt' =>
      rw [hres] at hcall
      cases status with
      | stopIteration => exact hcall.trans (of_same rfl rfl rfl)
      | continueIteration =>
        have hnext : Quiet rt' { rt' with resumeIdx := i + 1 } := of_same rfl rfl rfl
        exact (hcall.trans hnext).trans (ih (i + 1) _)

theorem deliver (c : Chain σ) (rt : Runtime σ) (i : ℕ) (f : ReadFilter σ) :
    Quiet rt (rt.deliver c i f) := by
  unfold Runtime.deliver
  by_cases hnone : rt.buf.data = [] ∧ rt.lastEndStream = false
  · rw [if_pos hnone]
    exact of_same rfl rfl rfl
  · rw [if_neg hnone]
    have hreset : Quiet rt { rt with resumeRequested := false } := of_same rfl rfl rfl
    have hcall := hreset.trans
      (callOnData c { rt with resumeRequested := false } i f rt.lastEndStream)
    cases hres : Runtime.callOnData c { rt with resumeRequested := false } i f
        rt.lastEndStream with
    | mk status rt' =>
      rw [hres] at hcall
      cases status with
      | continueIteration => exact hcall.trans (of_same rfl rfl rfl)
      | stopIteration =>
        dsimp only
        split_ifs <;> exact hcall.trans (of_same rfl rfl rfl)

theorem runDataTurn (c : Chain σ) (rt : Runtime σ) : Quiet rt (rt.runDataTurn c) := by
  unfold Runtime.runDataTurn
  cases c.filters[rt.resumeIdx]? with
  | none => exact of_same rfl rfl rfl
  | some f =>
    dsimp only
    split_ifs
    · exact deliver c rt rt.resumeIdx f
    · have hcall := callOnNewConnection c rt rt.resumeIdx f
      cases hres : rt.callOnNewConnection c rt.resumeIdx f with
      | mk status rt' =>
        rw [hres] at hcall
        cases status with
        | stopIteration => exact hcall.trans (of_same rfl rfl rfl)
        | continueIteration => exact hcall.trans (deliver c rt' rt'.resumeIdx f)

theorem continueReading (c : Chain σ) (rt : Runtime σ) : Quiet rt (rt.continueReading c) := by
  unfold Runtime.continueReading
  split_ifs
  · exact of_same rfl rfl rfl
  · exact signalResume c rt

theorem tick {c : Chain σ} {s : Conn σ} (hheeds : s.phase.heeds = true) :
    Quiet s.rt (s.tick c).rt := by
  unfold Conn.tick
  by_cases hheld : s.rt.held = true
  · rw [if_pos hheld]
    exact refl s.rt
  · rw [if_neg hheld]
    by_cases hpass : s.rt.pass = true
    · rw [if_pos hpass]
      exact runDataTurn c s.rt
    · rw [if_neg hpass]
      have hterm : Quiet s.rt s.handleTerminal.rt := of_same rfl rfl rfl
      cases hphase : s.phase with
      | start =>
        dsimp only
        split_ifs
        · exact hterm
        · exact openFrom c c.filters 0 s.rt
      | opened =>
        dsimp only
        split_ifs
        · exact hterm
        · exact refl s.rt
      | top => exact refl s.rt
      | checking err =>
        dsimp only
        split_ifs
        · exact hterm
        · exact refl s.rt
        · cases err with
          | none => exact refl s.rt
          | eof => exact of_same rfl rfl rfl
          | other => exact refl s.rt
      | ended => exact refl s.rt
      | reading => simp [hphase, Phase.heeds] at hheeds
      | handed => simp [hphase, Phase.heeds] at hheeds
      | replaying p eof => simp [hphase, Phase.heeds] at hheeds
      | replayingEOF p => simp [hphase, Phase.heeds] at hheeds
      | withheld p eof => simp [hphase, Phase.heeds] at hheeds

end Quiet

def Grows (rt rt' : Runtime σ) : Prop :=
  ∃ more, rt'.log = rt.log ++ more ∧ ∀ i n, .close i n ∈ more → rt'.closeReq = true

theorem Quiet.grows {rt rt' : Runtime σ} (h : Quiet rt rt') : Grows rt rt' := by
  obtain ⟨more, hlog, hmore⟩ := h.log
  refine ⟨more, hlog, ?_⟩
  intro i n hmem
  rcases hmore _ hmem with ⟨j, buf, he, -⟩ | ⟨-, -, hreq⟩
  · cases he
  · exact hreq

namespace Grows

variable {rt rt' : Runtime σ}

theorem of_same (hlog : rt'.log = rt.log) : Grows rt rt' :=
  ⟨[], by rw [hlog, List.append_nil], fun i n h => by cases h⟩

theorem snoc (h : Grows rt rt') (o : Obs) (ho : ∀ i n, o ≠ .close i n) {rt'' : Runtime σ}
    (hlog : rt''.log = rt'.log ++ [o]) (hreq : rt''.closeReq = rt'.closeReq) :
    Grows rt rt'' := by
  obtain ⟨more, hmore, hclose⟩ := h
  refine ⟨more ++ [o], by rw [hlog, hmore, List.append_assoc], ?_⟩
  intro i n hmem
  rcases List.mem_append.mp hmem with hmem | hmem
  · exact hreq.trans (hclose i n hmem)
  · exact absurd (List.mem_singleton.mp hmem).symm (ho i n)

theorem keep (h : Grows rt rt') {rt'' : Runtime σ} (hlog : rt''.log = rt'.log)
    (hreq : rt''.closeReq = rt'.closeReq) : Grows rt rt'' := by
  obtain ⟨more, hmore, hclose⟩ := h
  exact ⟨more, hlog.trans hmore, fun i n hmem => hreq.trans (hclose i n hmem)⟩

theorem forward {s : Conn σ} (h : Grows rt s.rt) (p : Bytes) : Grows rt (s.forward p).rt :=
  h.snoc (.upstream p s.received.length) (fun i n he => by cases he) rfl rfl

theorem afterReplay {s : Conn σ} (h : Grows rt s.rt) (p : Bytes) (eof : Bool) :
    Grows rt (s.afterReplay p eof).rt := by
  unfold Conn.afterReplay
  split_ifs
  · exact h
  · exact h.forward p

variable (c : Chain σ) (s : Conn σ)

theorem replayTurn (p : Bytes) (eof : Bool) : Grows s.rt (s.replayTurn c p eof).rt := by
  unfold Conn.replayTurn
  cases c.filters[s.rt.replayIdx]? with
  | none =>
    have hend : Grows s.rt s.endReplay.rt := of_same rfl
    exact hend.afterReplay p eof
  | some f =>
    have hcall := (Quiet.callOnData c s.rt s.rt.replayIdx f false).grows
    dsimp only
    split_ifs
    · refine Grows.afterReplay ?_ p eof
      exact hcall.keep rfl rfl
    · exact hcall.keep rfl rfl
    · exact hcall.keep rfl rfl

theorem replayEOFTurn (p : Bytes) : Grows s.rt (s.replayEOFTurn c p).rt := by
  unfold Conn.replayEOFTurn
  cases c.filters[s.rt.replayIdx]? with
  | none =>
    have hend : Grows s.rt s.endReplay.rt := of_same rfl
    exact hend.forward p
  | some f =>
    have hcall := (Quiet.callOnData c s.rt s.rt.replayIdx f true).grows
    dsimp only
    split_ifs
    · refine Grows.forward ?_ p
      exact hcall.keep rfl rfl
    · exact hcall.keep rfl rfl

theorem tick : Grows s.rt (s.tick c).rt := by
  by_cases hheeds : s.phase.heeds = true
  · exact (Quiet.tick hheeds).grows
  · unfold Conn.tick
    by_cases hheld : s.rt.held = true
    · rw [if_pos hheld]
      exact of_same rfl
    · rw [if_neg hheld]
      by_cases hpass : s.rt.pass = true
      · rw [if_pos hpass]
        exact (Quiet.runDataTurn c s.rt).grows
      · rw [if_neg hpass]
        cases hphase : s.phase with
        | reading => exact of_same rfl
        | handed => exact of_same rfl
        | replaying p eof => exact replayTurn c s p eof
        | replayingEOF p => exact replayEOFTurn c s p
        | withheld p eof => exact (of_same rfl).afterReplay p eof
        | start => simp [hphase, Phase.heeds] at hheeds
        | opened => simp [hphase, Phase.heeds] at hheeds
        | top => simp [hphase, Phase.heeds] at hheeds
        | checking err => simp [hphase, Phase.heeds] at hheeds
        | ended => simp [hphase, Phase.heeds] at hheeds

theorem recv (p : Bytes) (err : ReadErr) : Grows s.rt (s.recv c p err).rt := by
  unfold Conn.recv
  by_cases hbusy : (s.rt.held || s.rt.pass) = true
  · rw [if_pos hbusy]
    exact of_same rfl
  · rw [if_neg hbusy]
    cases hphase : s.phase with
    | reading =>
      dsimp only
      split_ifs <;> exact of_same rfl
    | handed =>
      dsimp only
      split_ifs
      · exact of_same rfl
      · exact (of_same rfl).snoc (.upstream p (s.received ++ p).length)
          (fun i n he => by cases he) rfl rfl
      · exact of_same rfl
      · exact of_same rfl
      · exact of_same rfl
    | _ => exact of_same rfl

theorem step (e : Event) : Grows s.rt (step c s e).rt := by
  cases e with
  | tick => exact tick c s
  | recv p err => exact recv c s p err
  | readPrefix n =>
    simp only [Network.step, Conn.readPrefix]
    split_ifs
    · exact (of_same rfl).snoc _ (fun i n he => by cases he) rfl rfl
    · exact of_same rfl
  | continueReading => exact (Quiet.continueReading c s.rt).grows
  | onWriteClose i ct =>
    simp only [Network.step, Conn.onWriteClose]
    split_ifs
    · exact (Quiet.close s.rt i ct).grows
    · exact of_same rfl

end Grows

theorem Obs.respects_of_ne {a : Obs} (h : ∀ i n, a ≠ .close i n) (b : Obs) : a.Respects b := by
  cases a with
  | close i n => exact absurd rfl (h i n)
  | data i buf => trivial
  | upstream p n => trivial

theorem Obs.respects_of_total {a b : Obs} {n : ℕ} (ha : ∀ i m, a = .close i m → m = n)
    (hb : (∃ j buf, b = .data j buf ∧ buf.total = n) ∨ ∃ i, b = .close i n) : a.Respects b := by
  cases a with
  | close i m =>
    obtain rfl := ha i m rfl
    rcases hb with ⟨j, buf, rfl, htotal⟩ | ⟨j, rfl⟩
    · exact fun _ => htotal.le
    · trivial
  | data i buf => trivial
  | upstream p n => trivial

structure CloseInv (s : Conn σ) : Prop where
  heeded : s.rt.closeReq = true → s.phase.heeds = true
  closes : ∀ i n, .close i n ∈ s.rt.log → s.rt.closeReq = true ∧ n = s.rt.buf.total
  final : CloseFinal s

namespace CloseInv

variable {c : Chain σ} {s s' : Conn σ}

theorem quiet (h : CloseInv s) (hq : Quiet s.rt s'.rt)
    (hheeded : s'.rt.closeReq = true → s'.phase.heeds = true) : CloseInv s' := by
  obtain ⟨more, hlog, hmore⟩ := hq.log
  have hnew : ∀ o ∈ more, (∃ j buf, o = .data j buf ∧ buf.total = s.rt.buf.total) ∨
      ∃ i, o = .close i s.rt.buf.total :=
    fun o ho => (hmore o ho).imp_right fun ⟨i, he, _⟩ => ⟨i, he⟩
  have hat : ∀ o ∈ more, ∀ i n, o = .close i n → n = s.rt.buf.total := by
    intro o ho i n he
    rcases hnew o ho with ⟨j, buf, hd, -⟩ | ⟨j, hc⟩
    · rw [he] at hd
      cases hd
    · rw [he] at hc
      exact (Obs.close.inj hc).2
  refine ⟨hheeded, ?_, ?_⟩
  · intro i n hmem
    rw [hlog] at hmem
    rw [hq.total]
    rcases List.mem_append.mp hmem with hold | hmem
    · exact ⟨hq.req (h.closes i n hold).1, (h.closes i n hold).2⟩
    · refine ⟨?_, hat _ hmem i n rfl⟩
      rcases hmore _ hmem with ⟨j, buf, hd, -⟩ | ⟨-, -, hreq⟩
      · cases hd
      · exact hreq
  · unfold CloseFinal
    rw [hlog, List.pairwise_append]
    refine ⟨h.final, List.pairwise_of_forall_mem_list ?_, ?_⟩
    · exact fun a ha b hb => Obs.respects_of_total (hat a ha) (hnew b hb)
    · intro a ha b hb
      refine Obs.respects_of_total ?_ (hnew b hb)
      intro i m he
      exact (h.closes i m (he ▸ ha)).2

theorem unheeded (h : CloseInv s) (hphase : s.phase.heeds = false) (hg : Grows s.rt s'.rt)
    (hreq : s'.rt.closeReq = true → s.rt.closeReq = true) : CloseInv s' := by
  have hnone : s.rt.closeReq = false := by
    rw [Bool.eq_false_iff]
    intro hc
    have hheeds := h.heeded hc
    rw [hphase] at hheeds
    cases hheeds
  have hnone' : ¬ s'.rt.closeReq = true := by
    intro hc
    have hold := hreq hc
    rw [hnone] at hold
    cases hold
  obtain ⟨more, hlog, hmore⟩ := hg
  have hfree : ∀ o ∈ s'.rt.log, ∀ i n, o ≠ .close i n := by
    intro o ho i n he
    rw [he, hlog] at ho
    rcases List.mem_append.mp ho with ho | ho
    · have hc := (h.closes i n ho).1
      rw [hnone] at hc
      cases hc
    · exact hnone' (hmore i n ho)
  refine ⟨fun hc => absurd hc hnone', ?_, ?_⟩
  · intro i n hmem
    exact absurd rfl (hfree _ hmem i n)
  · exact List.pairwise_of_forall_mem_list fun a ha b _ => Obs.respects_of_ne (hfree a ha) b

theorem heeds_tick (hheeds : s.phase.heeds = true)
    (hoff : s.handsOff c = true → s.rt.closeReq = false)
    (hreq : (s.tick c).rt.closeReq = true) : (s.tick c).phase.heeds = true := by
  by_cases hbusy : s.rt.held = true ∨ s.rt.pass = true
  · have he : (s.tick c).phase = s.phase := by
      unfold Conn.tick
      rcases hbusy with hheld | hpass
      · rw [if_pos hheld]
      · split_ifs <;> rfl
    rw [he]
    exact hheeds
  rw [not_or] at hbusy
  have hoff' : s.phase = .start ∨ s.phase = .opened ∨ (∃ err, s.phase = .checking err) →
      s.rt.terminalReady c = true → ¬ s.rt.closeReq = true := by
    intro hphase hready
    rw [Bool.not_eq_true]
    apply hoff
    rcases hphase with hp | hp | ⟨err, hp⟩ <;> simp [Conn.handsOff, hp, hbusy, hready]
  unfold Conn.tick at hreq ⊢
  rw [if_neg hbusy.1, if_neg hbusy.2] at hreq ⊢
  cases hphase : s.phase with
  | start =>
    rw [hphase] at hreq
    dsimp only at hreq ⊢
    split_ifs at hreq ⊢ with hready
    · exact absurd hreq (hoff' (.inl hphase) hready)
    · rfl
  | opened =>
    rw [hphase] at hreq
    dsimp only at hreq ⊢
    split_ifs at hreq ⊢ with hready
    · exact absurd hreq (hoff' (.inr (.inl hphase)) hready)
    · rfl
  | top =>
    rw [hphase] at hreq
    have hset : s.rt.closeReq = true := hreq
    dsimp only
    rw [if_pos hset]
    rfl
  | checking err =>
    rw [hphase] at hreq
    dsimp only at hreq ⊢
    split_ifs at hreq ⊢ with hready
    · exact absurd hreq (hoff' (.inr (.inr ⟨err, hphase⟩)) hready)
    · rfl
    · cases err <;> rfl
  | ended =>
    dsimp only
    rw [hphase]
    rfl
  | reading => simp [hphase, Phase.heeds] at hheeds
  | handed => simp [hphase, Phase.heeds] at hheeds
  | replaying p eof => simp [hphase, Phase.heeds] at hheeds
  | replayingEOF p => simp [hphase, Phase.heeds] at hheeds
  | withheld p eof => simp [hphase, Phase.heeds] at hheeds

theorem still (hheeds : s.phase.heeds = true) (e : Event) (he : e ≠ .tick)
    (hcont : e ≠ .continueReading) : Network.step c s e = s := by
  cases e with
  | tick => exact absurd rfl he
  | continueReading => exact absurd rfl hcont
  | recv p err =>
    simp only [Network.step, Conn.recv]
    cases hphase : s.phase <;> simp_all [Phase.heeds]
  | readPrefix n =>
    simp only [Network.step, Conn.readPrefix]
    rw [if_neg]
    rintro ⟨hphase, -⟩
    simp [hphase, Phase.heeds] at hheeds
  | onWriteClose i ct =>
    simp only [Network.step, Conn.onWriteClose]
    rw [if_neg]
    cases hphase : s.phase <;> simp_all [Phase.heeds, Conn.handedOff]

theorem step (h : CloseInv s) {e : Event} (hok : CloseHeeded c s e) :
    CloseInv (step c s e) := by
  by_cases hheeds : s.phase.heeds = true
  · by_cases htick : e = .tick
    · subst htick
      exact h.quiet (Quiet.tick hheeds) (heeds_tick hheeds (hok.1 rfl))
    · by_cases hcont : e = .continueReading
      · subst hcont
        exact h.quiet (Quiet.continueReading c s.rt) (fun _ => hheeds)
      · rw [still hheeds e htick hcont]
        exact h
  · rw [Bool.not_eq_true] at hheeds
    exact h.unheeded hheeds (Grows.step c s e) (hok.2 hheeds)

theorem initial (mem : ℕ → σ) : CloseInv (Conn.init mem) where
  heeded := fun _ => rfl
  closes := fun i n h => by cases h
  final := List.Pairwise.nil

end CloseInv

/-- In every run in which closes are heeded they are final. -/
theorem closeFinal_of_heeded {σ : Type} (c : Chain σ) (mem : ℕ → σ) (es : List Event)
    (hes : StepsMeet (step c) (CloseHeeded c) (Conn.init mem) es) :
    ∀ pre, pre <+: es → CloseFinal (pre.foldl (step c) (Conn.init mem)) := by
  rintro pre ⟨rest, rfl⟩
  have hpre := ((stepsMeet_append (step c) (CloseHeeded c) pre rest).mp hes).1
  have hstep : ∀ s e, CloseHeeded c s e → CloseInv s → CloseInv (step c s e) :=
    fun s e hok h => h.step hok
  exact (invariant_of_steps hstep pre _ (CloseInv.initial mem) hpre).final

/-- A filter that denies every connection with its first bytes. -/
def denier : ReadFilter Unit where
  onNewConnection m := ({}, m)
  onData m _ _ := ({ status := .stopIteration, close := some .noFlush }, m)

/-- A filter of both directions that lets everything through. -/
def observer : ReadFilter Unit where
  onNewConnection m := ({}, m)
  onData m _ _ := ({}, m)
  writes := true

/-- The first bytes are denied, and the connection ends. -/
def denied : List Event :=
  [.tick, .tick, .tick, .recv [1] .none, .tick, .tick, .recv [2] .none, .tick]

theorem closeFinal_denied : CloseFinal (denied.foldl (step ⟨[denier, observer], true, false⟩)
    (Conn.init fun _ => ())) := by
  exact closeFinal_of_heeded ⟨[denier, observer], true, false⟩ (fun _ => ()) denied
    (by decide +kernel) _ List.prefix_rfl

/-- A handoff, a close in an `OnWrite`, and a read after it. -/
def closedOnWrite : List Event :=
  [.tick, .tick, .tick, .recv [1] .none, .tick, .tick, .tick, .readPrefix 1, .onWriteClose 0
    .flushWrite, .recv [2] .none, .tick, .tick]

/-- The terminal gets the byte that was received after the close. -/
theorem not_closeFinal : ¬ CloseFinal (closedOnWrite.foldl (step ⟨[observer], true, false⟩)
    (Conn.init fun _ => ())) := by
  decide +kernel

end EnvoyGo.Network

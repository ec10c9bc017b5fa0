import EnvoyGo.FairRuns
import EnvoyGo.WasmRegistrySteps

/-!
The registry of wasm VMs over whole runs: who holds what, when a VM is closed, and that nobody
waits forever.
-/

namespace EnvoyGo.WasmRegistry

open Census Runs FairRuns

variable {K U : Type}

/-- The user has acquired the VM and has not released it. -/
def Holds (s : State K U) (u : U) (k : K) (n : ℕ) : Prop :=
  s.phase u = .holding k (some n) ∨ ∃ e, s.phase u = .signalling k e (some n)

/-- The construction of the entry has not ended. -/
def UnderConstruction (s : State K U) (e : ℕ) : Prop := ∃ u k, (s.phase u).Constructs k e

/-- Sharing, closing and waiting, as they are in every state. -/
structure Shared (s : State K U) : Prop where
  holds_vm : ∀ u k vm, s.phase u = .holding k vm → ∃ n, vm = some n
  same_vm : ∀ u v k n m, Holds s u k n → Holds s v k m → n = m
  open_vm : ∀ u k n, Holds s u k n → s.closes n = 0
  one_factory : ∀ u v k e e', s.phase u = .building k e → s.phase v = .building k e' → u = v
  closes_le : ∀ n, s.closes n ≤ 1
  /-- A VM that was built is not published yet, or is held, or is about to be closed, or is
  closed. -/
  fate : ∀ n, n < s.vms → (∃ u k e, s.phase u = .built k e (some n)) ∨ (∃ u k, Holds s u k n) ∨
    (∃ u, s.phase u = .closing n ∧ s.closes n = 0) ∨ s.closes n = 1
  /-- No channel is closed twice. -/
  signals_le : ∀ e, s.signals e ≤ 1

section Facts

variable {b : Book K U} {s : State K U}

theorem Tracks.live_of_holds (h : Tracks b s) {u : U} {k : K} {n : ℕ} (hu : Holds s u k n) :
    b.place n = .live k := by
  rcases hu with hu | ⟨e, hu⟩
  · obtain ⟨m, hm, hlive⟩ := h.phaseOk hu
    rw [Option.some.inj hm]
    exact hlive
  · exact (h.phaseOk hu).2 n rfl

theorem Tracks.closes_eq (h : Tracks b s) {n : ℕ} (hclosed : b.place n ≠ .closed) :
    s.closes n = 0 := by
  have hplace := h.place n
  cases hn : b.place n with
  | unbuilt => rw [hn] at hplace; exact hplace
  | withBuilder u => rw [hn] at hplace; exact hplace.1
  | live k => rw [hn] at hplace; exact hplace.1
  | closing u => rw [hn] at hplace; exact hplace.1
  | closed => exact absurd hn hclosed

theorem Tracks.closes_closed (h : Tracks b s) {n : ℕ} (hn : b.place n = .closed) :
    s.closes n = 1 := by
  have hplace := h.place n
  rwa [hn] at hplace

theorem Tracks.exists_holds (h : Tracks b s) {k : K} {n : ℕ} (hn : b.place n = .live k) :
    ∃ u, Holds s u k n := by
  obtain ⟨e, he⟩ := h.entry_of_live hn
  have hroot := h.rootVM_of_live hn he
  have hpos := (h.entry k e he).2
  have hcount := h.count k
  rw [refcountFor_some s he] at hcount
  have hsome : ∃ u, s.refs u = some k := by
    refine Classical.byContradiction fun hnone => ?_
    have hzero := hcount.eq_zero_iff.mpr fun u hu => hnone ⟨u, hu⟩
    omega
  -- The user that counts on the entry is not its builder, since the entry has a VM.
  have hbuilt : ∀ u, ¬(s.phase u).Constructs k e := by
    intro u hu
    have hstage : b.stage e = .constructing u k := by
      rcases hu with hu | ⟨vm, hu⟩
      · exact h.phaseOk hu
      · exact (h.phaseOk hu).1
    rw [(h.constructing hstage).2.1] at hroot
    cases hroot
  obtain ⟨u, hu⟩ := hsome
  refine ⟨u, ?_⟩
  have hok := h.phase u
  unfold State.refs at hu
  cases hp : s.phase u with
  | idle => rw [hp] at hu; cases hu
  | acquiring k' => rw [hp] at hu; cases hu
  | waiting k' e' => rw [hp] at hu; cases hu
  | building k' e' =>
    rw [hp] at hu hok
    cases hu
    have he' := (h.constructing hok).1
    rw [he] at he'
    rw [← Option.some.inj he'] at hp
    exact absurd (.inl hp) (hbuilt u)
  | built k' e' vm =>
    rw [hp] at hu hok
    cases hu
    have he' := (h.constructing hok.1).1
    rw [he] at he'
    rw [← Option.some.inj he'] at hp
    exact absurd (.inr ⟨vm, hp⟩) (hbuilt u)
  | signalling k' e' vm =>
    rw [hp] at hu hok
    cases vm with
    | none => cases hu
    | some m =>
      cases hu
      have hroot' := h.rootVM_of_live (hok.2 m rfl) he
      rw [hroot] at hroot'
      rw [← Option.some.inj hroot'] at hp
      exact .inr ⟨e', hp⟩
  | holding k' vm =>
    rw [hp] at hu hok
    cases hu
    obtain ⟨m, hm, hlive⟩ := hok
    have hroot' := h.rootVM_of_live hlive he
    rw [hroot] at hroot'
    rw [hm, ← Option.some.inj hroot'] at hp
    exact .inl hp
  | closing m => rw [hp] at hu; cases hu

theorem Tracks.shared (h : Tracks b s) : Shared s where
  holds_vm u k vm hu := by
    obtain ⟨n, hn, -⟩ := h.phaseOk hu
    exact ⟨n, hn⟩
  same_vm u v k n m hu hv := by
    have hn := h.live_of_holds hu
    obtain ⟨e, he⟩ := h.entry_of_live hn
    have hroot := h.rootVM_of_live hn he
    rw [h.rootVM_of_live (h.live_of_holds hv) he] at hroot
    exact (Option.some.inj hroot).symm
  open_vm u k n hu := by
    refine h.closes_eq ?_
    rw [h.live_of_holds hu]
    exact fun hpl => by cases hpl
  one_factory u v k e e' hu hv := by
    have hstage : b.stage e = .constructing u k := h.phaseOk hu
    have hstage' : b.stage e' = .constructing v k := h.phaseOk hv
    have hentry := (h.constructing hstage).1
    rw [(h.constructing hstage').1] at hentry
    rw [Option.some.inj hentry, hstage] at hstage'
    exact (Stage.constructing.inj hstage').1
  closes_le n := by
    by_cases hn : b.place n = .closed
    · exact (h.closes_closed hn).le
    · exact (h.closes_eq hn).trans_le (Nat.zero_le 1)
  fate n hn := by
    cases hplace : b.place n with
    | unbuilt =>
      have hle := (h.unbuilt n).mp hplace
      omega
    | withBuilder u =>
      obtain ⟨k, e, hu⟩ := h.builder hplace
      exact .inl ⟨u, k, e, hu⟩
    | live k =>
      obtain ⟨u, hu⟩ := h.exists_holds hplace
      exact .inr (.inl ⟨u, k, hu⟩)
    | closing u =>
      refine .inr (.inr (.inl ⟨u, h.closer hplace, h.closes_eq ?_⟩))
      rw [hplace]
      exact fun hpl => by cases hpl
    | closed => exact .inr (.inr (.inr (h.closes_closed hplace)))
  signals_le e := by
    have hstage := h.stage e
    cases he : b.stage e with
    | unborn => rw [he] at hstage; exact hstage.trans_le (Nat.zero_le 1)
    | constructing u k => rw [he] at hstage; exact hstage.2.2.1.trans_le (Nat.zero_le 1)
    | signalling u => rw [he] at hstage; exact hstage.2.1.trans_le (Nat.zero_le 1)
    | ended => rw [he] at hstage; exact hstage.2.le

theorem Tracks.waiting (h : Tracks b s) {u : U} {k : K} {e : ℕ} (hu : s.phase u = .waiting k e) :
    UnderConstruction s e ∨ (∃ v k' vm, s.phase v = .signalling k' e vm) ∨ 0 < s.signals e := by
  have hborn : b.stage e ≠ .unborn := h.phaseOk hu
  cases hstage : b.stage e with
  | unborn => exact absurd hstage hborn
  | constructing v k' => exact .inl ⟨v, k', (h.constructing hstage).2.2.2⟩
  | signalling v =>
    obtain ⟨k', vm, hv⟩ := h.signaller hstage
    exact .inr (.inl ⟨v, k', vm, hv⟩)
  | ended =>
    have hended := h.stage e
    rw [hstage] at hended
    have hone := hended.2
    exact .inr (.inr (by omega))

end Facts

section Runs

variable [DecidableEq K] [DecidableEq U] {s : State K U}

def Tracked (s : State K U) : Prop := ∃ b : Book K U, Tracks b s

omit [DecidableEq U] [DecidableEq K] in
theorem Tracked.shared (h : Tracked s) : Shared s := by
  obtain ⟨b, hb⟩ := h
  exact hb.shared

theorem Tracked.takes (h : Tracked s) {ev : Event K U} {s' : State K U} (hstep : Takes s ev s') :
    Tracked s' := by
  obtain ⟨b, hb⟩ := h
  cases hstep with
  | acquire hu => exact ⟨b, hb.moved (by rw [hu]; rfl) rfl trivial⟩
  | miss hu hk => exact ⟨_, hb.miss hu hk⟩
  | @wait u k e hu hk hpending =>
    refine ⟨b, hb.moved (by rw [hu]; rfl) rfl ?_⟩
    rcases (hb.entry k e hk).1 with ⟨v, hv⟩ | ⟨hpublished, -⟩
    · change b.stage e ≠ .unborn
      rw [hv]
      exact fun hst => by cases hst
    · rw [hpublished] at hpending
      cases hpending
  | hit hu hk hpublished => exact ⟨b, hb.hit hu hk hpublished⟩
  | wake hu _ => exact ⟨b, hb.moved (by rw [hu]; rfl) rfl trivial⟩
  | fails hu => exact ⟨b, hb.factoryFails hu⟩
  | succeeds hu => exact ⟨_, hb.factorySucceeds hu⟩
  | withdraw hu => exact ⟨_, hb.withdraw hu⟩
  | publish hu => exact ⟨_, hb.publish hu⟩
  | closePending hu => exact ⟨_, hb.closePending hu⟩
  | absent hu hk =>
    obtain ⟨e, n, -, -, he, -⟩ := hb.holder hu
    rw [hk] at he
    cases he
  | left hu hk hmore => exact ⟨b, hb.left hu hk hmore⟩
  | removed hu hk hlast => exact hb.removed hu hk hlast
  | closeRootVM hu => exact ⟨_, hb.closeRootVM hu⟩

theorem Tracked.step (h : Tracked s) (ev : Event K U) : Tracked (s.step ev) := by
  rcases step_takes s ev with hsame | hstep
  · rw [hsame]
    exact h
  · exact h.takes hstep

theorem tracked_run (es : List (Event K U)) : Tracked (State.run es) :=
  invariant_of_run (fun (s : State K U) ev (h : Tracked s) => h.step ev) es {} ⟨{}, Tracks.init⟩

end Runs

section Monotone

variable [DecidableEq K] [DecidableEq U] {s : State K U}

theorem le_update_add {f : ℕ → ℕ} (i j : ℕ) : f j ≤ Function.update f i (f i + 1) j := by
  by_cases hj : j = i
  · rw [hj, Function.update_self]
    exact Nat.le_succ _
  · rw [Function.update_of_ne hj]

theorem closes_le_step (s : State K U) (ev : Event K U) (n : ℕ) :
    s.closes n ≤ (s.step ev).closes n := by
  rcases step_takes s ev with hsame | hstep
  · rw [hsame]
  · revert hstep
    generalize s.step ev = s'
    intro hstep
    cases hstep with
    | @closeRootVM u vm hu => exact le_update_add vm n
    | _ => exact Nat.le_refl _

theorem signals_le_step (s : State K U) (ev : Event K U) (e : ℕ) :
    s.signals e ≤ (s.step ev).signals e := by
  rcases step_takes s ev with hsame | hstep
  · rw [hsame]
  · revert hstep
    generalize s.step ev = s'
    intro hstep
    cases hstep with
    | @closePending u k e' vm hu => exact le_update_add e' e
    | _ => exact Nat.le_refl _

theorem closes_le_run (es later : List (Event K U)) (n : ℕ) :
    (State.run es).closes n ≤ (State.run (es ++ later)).closes n := by
  unfold State.run
  rw [List.foldl_append]
  have hstep : ∀ (s : State K U) (ev : Event K U), (State.run es).closes n ≤ s.closes n →
      (State.run es).closes n ≤ (s.step ev).closes n :=
    fun s ev h => Nat.le_trans h (closes_le_step s ev n)
  exact invariant_of_run hstep later _ (Nat.le_refl _)

end Monotone

section Fair

variable [DecidableEq K] [DecidableEq U] {s : State K U}

def Phase.last : Phase K → Bool
  | .signalling _ _ _ => true
  | .closing _ => true
  | _ => false

variable {v : U} {k : K} {e n : ℕ}

theorem Takes.stays {ev : Event K U} {s' : State K U} (hstep : Takes s ev s') {p : Phase K}
    (hv : s.phase v = p) (hp : p.last = true) :
    s'.phase v = p ∨ ev = .closePending v ∨ ev = .closeRootVM v := by
  have hother : ∀ {u : U} {q : Phase K}, (s.phase u).last = false →
      Function.update s.phase u q v = p := by
    intro u q hu
    refine update_eq_of_eq hv fun heq => ?_
    rw [heq, hp] at hu
    cases hu
  cases hstep with
  | acquire hu => exact .inl (hother (by rw [hu]; rfl))
  | miss hu _ => exact .inl (hother (by rw [hu]; rfl))
  | wait hu _ _ => exact .inl (hother (by rw [hu]; rfl))
  | hit hu _ _ => exact .inl (hother (by rw [hu]; rfl))
  | wake hu _ => exact .inl (hother (by rw [hu]; rfl))
  | fails hu => exact .inl (hother (by rw [hu]; rfl))
  | succeeds hu => exact .inl (hother (by rw [hu]; rfl))
  | withdraw hu => exact .inl (hother (by rw [hu]; rfl))
  | publish hu => exact .inl (hother (by rw [hu]; rfl))
  | @closePending u k e vm hu =>
    by_cases hvu : v = u
    · exact .inr (.inl (by rw [hvu]))
    · exact .inl ((Function.update_of_ne hvu _ _).trans hv)
  | absent hu _ => exact .inl (hother (by rw [hu]; rfl))
  | left hu _ _ => exact .inl (hother (by rw [hu]; rfl))
  | removed hu _ _ => exact .inl (hother (by rw [hu]; rfl))
  | @closeRootVM u vm hu =>
    by_cases hvu : v = u
    · exact .inr (.inr (by rw [hvu]))
    · exact .inl ((Function.update_of_ne hvu _ _).trans hv)

theorem stays_step {p : Phase K} (hv : s.phase v = p) (hp : p.last = true) (ev : Event K U) :
    (s.step ev).phase v = p ∨ ev = .closePending v ∨ ev = .closeRootVM v := by
  rcases step_takes s ev with hsame | hstep
  · rw [hsame]
    exact .inl hv
  · exact hstep.stays hv hp

theorem signals_closePending {vm : Option ℕ} (hv : s.phase v = .signalling k e vm) :
    0 < (s.step (.closePending v)).signals e := by
  simp only [State.step, hv]
  change 0 < Function.update s.signals e _ e
  rw [Function.update_self]
  omega

theorem closes_closeRootVM (hv : s.phase v = .closing n) :
    0 < (s.step (.closeRootVM v)).closes n := by
  simp only [State.step, hv]
  change 0 < Function.update s.closes n _ n
  rw [Function.update_self]
  omega

theorem signalling_step {vm : Option ℕ} (hv : s.phase v = .signalling k e vm) (ev : Event K U) :
    (s.step ev).phase v = .signalling k e vm ∨ 0 < (s.step ev).signals e := by
  rcases stays_step hv rfl ev with hstay | rfl | rfl
  · exact .inl hstay
  · exact .inr (signals_closePending hv)
  · left
    simp only [State.step, hv]

theorem closing_step (hv : s.phase v = .closing n) (ev : Event K U) :
    (s.step ev).phase v = .closing n ∨ 0 < (s.step ev).closes n := by
  rcases stays_step hv rfl ev with hstay | rfl | rfl
  · exact .inl hstay
  · left
    simp only [State.step, hv]
  · exact .inr (closes_closeRootVM hv)

/-- No user that can go on is passed over forever. -/
structure Fair (sched : ℕ → Event K U) : Prop where
  wake : ∀ u, WeaklyFair State.step {} sched
    (fun s => ∃ k e, s.phase u = .waiting k e ∧ 0 < s.signals e) (.wake u)
  closePending : ∀ u, WeaklyFair State.step {} sched
    (fun s => ∃ k e vm, s.phase u = .signalling k e vm) (.closePending u)
  closeRootVM : ∀ u, WeaklyFair State.step {} sched
    (fun s => ∃ n, s.phase u = .closing n) (.closeRootVM u)

variable {sched : ℕ → Event K U} {t : ℕ}

theorem Fair.wakes (h : Fair sched) {u : U}
    (hu : (trace State.step {} sched t).phase u = .waiting k e)
    (hsignal : 0 < (trace State.step {} sched t).signals e) :
    ∃ t', t ≤ t' ∧ (trace State.step {} sched t').phase u ≠ .waiting k e := by
  refine eventually_of_fair (p := fun s => s.phase u = .waiting k e ∧ 0 < s.signals e)
    (q := fun s => s.phase u ≠ .waiting k e) (fun s ev hp => ?_) (fun s hp => ⟨k, e, hp⟩)
    (fun s hp => ?_) (h.wake u) ⟨hu, hsignal⟩
  · by_cases hstay : (s.step ev).phase u = .waiting k e
    · exact .inl ⟨hstay, Nat.lt_of_lt_of_le hp.2 (signals_le_step s ev e)⟩
    · exact .inr hstay
  · simp only [State.step, hp.1, if_pos hp.2]
    change Function.update s.phase u _ u ≠ _
    rw [Function.update_self]
    exact fun heq => by cases heq

theorem Fair.signals (h : Fair sched) {vm : Option ℕ}
    (hv : (trace State.step {} sched t).phase v = .signalling k e vm) :
    ∃ t', t ≤ t' ∧ 0 < (trace State.step {} sched t').signals e := by
  exact eventually_of_fair (p := fun s => s.phase v = .signalling k e vm)
    (q := fun s => 0 < s.signals e) (fun s ev hp => signalling_step hp ev)
    (fun s hp => ⟨k, e, vm, hp⟩) (fun s hp => signals_closePending hp) (h.closePending v) hv

theorem Fair.closes (h : Fair sched) (hv : (trace State.step {} sched t).phase v = .closing n) :
    ∃ t', t ≤ t' ∧ 0 < (trace State.step {} sched t').closes n := by
  exact eventually_of_fair (p := fun s => s.phase v = .closing n) (q := fun s => 0 < s.closes n)
    (fun s ev hp => closing_step hp ev) (fun s hp => ⟨n, hp⟩) (fun s hp => closes_closeRootVM hp)
    (h.closeRootVM v) hv

theorem tracked_trace (sched : ℕ → Event K U) (t : ℕ) :
    Tracked (trace State.step {} sched t) :=
  invariant_of_trace (fun (s : State K U) ev (h : Tracked s) => h.step ev)
    (t := 0) ⟨{}, Tracks.init⟩ (Nat.zero_le t)

theorem Fair.waiter_goes_on (h : Fair sched) {u : U}
    (hu : (trace State.step {} sched t).phase u = .waiting k e)
    (hended : ¬UnderConstruction (trace State.step {} sched t) e) :
    ∃ t', t ≤ t' ∧ (trace State.step {} sched t').phase u ≠ .waiting k e := by
  obtain ⟨b, hb⟩ := tracked_trace sched t
  rcases hb.waiting hu with hrunning | ⟨v, k', vm, hv⟩ | hsignal
  · exact absurd hrunning hended
  · obtain ⟨t', ht, hsignal⟩ := h.signals hv
    by_cases hstay : (trace State.step {} sched t').phase u = .waiting k e
    · obtain ⟨t'', ht', hgone⟩ := h.wakes hstay hsignal
      exact ⟨t'', Nat.le_trans ht ht', hgone⟩
    · exact ⟨t', ht, hstay⟩
  · exact h.wakes hu hsignal

theorem Fair.unheld_closes (h : Fair sched) (hbuilt : n < (trace State.step {} sched t).vms)
    (hpublished : ∀ u k e, (trace State.step {} sched t).phase u ≠ .built k e (some n))
    (hunheld : ∀ u k, ¬Holds (trace State.step {} sched t) u k n) :
    ∃ t', t ≤ t' ∧ (trace State.step {} sched t').closes n = 1 := by
  rcases (tracked_trace sched t).shared.fate n hbuilt with
    ⟨u, k, e, hu⟩ | ⟨u, k, hu⟩ | ⟨u, hu, -⟩ | hclosed
  · exact absurd hu (hpublished u k e)
  · exact absurd hu (hunheld u k)
  · obtain ⟨t', ht, hpos⟩ := h.closes hu
    have hle := (tracked_trace sched t').shared.closes_le n
    exact ⟨t', ht, by omega⟩
  · exact ⟨t, Nat.le_refl t, hclosed⟩

end Fair

/-- Over every interleaving of calls: the holders of a key share one VM, which is open; a key has
one factory at a time; a VM is closed at most once, and never held afterwards.  Where no user is
passed over forever, nobody waits forever for a construction that has ended, and a VM that nobody
holds any more is closed. -/
theorem registry_shares (K U : Type) [DecidableEq K] [DecidableEq U] :
    (∀ es : List (Event K U), Shared (State.run es)) ∧
    (∀ (es later : List (Event K U)) u k n, (State.run es).closes n ≠ 0 →
      ¬Holds (State.run (es ++ later)) u k n) ∧
    (∀ sched : ℕ → Event K U, Fair sched → ∀ t,
      (∀ u k e, (trace State.step {} sched t).phase u = .waiting k e →
        ¬UnderConstruction (trace State.step {} sched t) e →
        ∃ t', t ≤ t' ∧ (trace State.step {} sched t').phase u ≠ .waiting k e) ∧
      (∀ n, n < (trace State.step {} sched t).vms →
        (∀ u k e, (trace State.step {} sched t).phase u ≠ .built k e (some n)) →
        (∀ u k, ¬Holds (trace State.step {} sched t) u k n) →
        ∃ t', t ≤ t' ∧ (trace State.step {} sched t').closes n = 1)) := by
  refine ⟨fun es => (tracked_run es).shared, fun es later u k n hclosed hholds => ?_,
    fun sched hfair t => ⟨fun u k e hu hended => hfair.waiter_goes_on hu hended,
      fun n hbuilt hpublished hunheld => hfair.unheld_closes hbuilt hpublished hunheld⟩⟩
  have hopen := (tracked_run (es ++ later)).shared.open_vm u k n hholds
  have hle := closes_le_run es later n
  omega

def twoUsers : List (Event Unit Bool) :=
  [.acquireRootVM false (), .lookUp false, .acquireRootVM true (), .lookUp true,
    .factoryReturns false true, .complete false, .wake true, .closePending false, .wake true,
    .lookUp true, .release false, .release true, .closeRootVM true]

example : (State.run (twoUsers.take 10)).phase true = .holding () (some 0) ∧
    (State.run (twoUsers.take 10)).refcountFor () = 2 ∧ (State.run twoUsers).closes 0 = 1 := by
  decide

end EnvoyGo.WasmRegistry

import EnvoyGo.WasmRegistryBook

/-!
Every step of the registry of wasm VMs keeps the book.
-/

namespace EnvoyGo.WasmRegistry

open Census

variable {K U : Type}

def Phase.outside : Phase K → Bool
  | .idle => true
  | .acquiring _ => true
  | .waiting _ _ => true
  | _ => false

theorem Phase.ref_of_outside {p : Phase K} (h : p.outside = true) : p.ref = none := by
  cases p with
  | idle => rfl
  | acquiring k => rfl
  | waiting k e => rfl
  | building k e => cases h
  | built k e vm => cases h
  | signalling k e vm => cases h
  | holding k vm => cases h
  | closing n => cases h

namespace Tracks

variable [DecidableEq U] {b : Book K U} {s : State K U} {u : U}

omit [DecidableEq U] in
theorem born_update {st : Stage K U} (hst : st ≠ .unborn) {e e' : ℕ} (he : b.stage e' ≠ .unborn) :
    Function.update b.stage e st e' ≠ .unborn := by
  by_cases hee : e' = e
  · rw [hee, Function.update_self]
    exact hst
  · rw [Function.update_of_ne hee]
    exact he

omit [DecidableEq U] in
theorem unborn_update (h : Tracks b s) {st : Stage K U} (hst : st ≠ .unborn) {e : ℕ}
    (he : b.stage e ≠ .unborn) (e' : ℕ) :
    Function.update b.stage e st e' = .unborn ↔ s.nextEntry ≤ e' := by
  by_cases hee : e' = e
  · rw [hee, Function.update_self]
    exact iff_of_false hst (mt (h.unborn e).mpr he)
  · rw [Function.update_of_ne hee]
    exact h.unborn e'

theorem phase_of_ne {p q : Phase K} (hu : s.phase u = p) {v : U} (hv : s.phase v ≠ p) :
    Function.update s.phase u q v = s.phase v := by
  refine Function.update_of_ne (fun heq => hv ?_) _ _
  rw [heq]
  exact hu

theorem phase_update {b' : Book K U} {q : Phase K} (hq : PhaseOk b' u q)
    (hother : ∀ v, v ≠ u → PhaseOk b' v (s.phase v)) (v : U) :
    PhaseOk b' v (Function.update s.phase u q v) := by
  by_cases hv : v = u
  · rw [hv, Function.update_self]
    exact hq
  · rw [Function.update_of_ne hv]
    exact hother v hv

theorem moved (h : Tracks b s) {q : Phase K} (hu : (s.phase u).outside = true)
    (hq : q.outside = true) (hok : PhaseOk b u q) : Tracks b (s.moved u q) := by
  have hother : ∀ v, (s.phase v).outside = false → Function.update s.phase u q v = s.phase v := by
    intro v hv
    refine phase_of_ne rfl fun heq => ?_
    rw [heq, hu] at hv
    cases hv
  have hrefs : (s.moved u q).refs = Function.update s.refs u q.ref := refs_eq s _ rfl
  refine ⟨h.unborn, h.fresh, h.unbuilt, phase_update hok fun v _ => h.phase v, fun e => ?_,
    fun n => ?_, h.entry, fun k => ?_⟩
  · refine (h.stage e).mono (fun v k hst => ⟨rfl, rfl, hother v ?_⟩) (fun v hst => hother v ?_)
      (fun _ => rfl) rfl
    · rcases (h.constructing hst).2.2.2 with hv | ⟨vm, hv⟩ <;> rw [hv] <;> rfl
    · obtain ⟨k, vm, hv⟩ := h.signaller hst
      rw [hv]
      rfl
  · refine (h.place n).mono (fun v hpl => hother v ?_) (fun k e _ he hroot => ⟨he, hroot⟩)
      (fun v hpl => hother v ?_) rfl
    · obtain ⟨k, e, hv⟩ := h.builder hpl
      rw [hv]
      rfl
    · rw [h.closer hpl]
      rfl
  · rw [hrefs]
    refine (h.count k).stay ?_
    rw [Phase.ref_of_outside hq, State.refs, Phase.ref_of_outside hu]

section LookUp

variable [DecidableEq K] {k : K}

theorem miss (h : Tracks b s) (hu : s.phase u = .acquiring k) (hk : s.entries k = none) :
    Tracks { b with stage := Function.update b.stage s.nextEntry (.constructing u k) }
      (s.miss u k) := by
  have hnew : b.stage s.nextEntry = .unborn := (h.unborn _).mpr (Nat.le_refl _)
  have hentries : ∀ k' e, s.entries k' = some e →
      Function.update s.entries k (some s.nextEntry) k' = some e :=
    fun k' e he => update_eq_of_eq he (by simp [hk])
  have hheap : ∀ e, e < s.nextEntry → Function.update s.heap s.nextEntry {} e = s.heap e :=
    fun e he => Function.update_of_ne (Nat.ne_of_lt he) _ _
  have hborn : ∀ e, b.stage e ≠ .unborn → e < s.nextEntry :=
    fun e he => Nat.lt_of_not_le (mt (h.unborn e).mpr he)
  have hstage : ∀ e, e ≠ s.nextEntry →
      Function.update b.stage s.nextEntry (.constructing u k) e = b.stage e :=
    fun e he => Function.update_of_ne he _ _
  have hphase : ∀ v, s.phase v ≠ .acquiring k →
      Function.update s.phase u (.building k s.nextEntry) v = s.phase v :=
    fun v => phase_of_ne hu
  have hrefs : (s.miss u k).refs = Function.update s.refs u (some k) :=
    refs_eq s _ (q := .building k s.nextEntry) rfl
  have hfree : s.refs u = none := by rw [State.refs, hu]; rfl
  refine ⟨fun e => ?_, fun k' e he => ?_, h.unbuilt, phase_update ?_ fun v _ => ?_, fun e => ?_,
    fun n => ?_, fun k' e he => ?_, fun k' => ?_⟩
  · change Function.update b.stage s.nextEntry _ e = _ ↔ s.nextEntry + 1 ≤ e
    by_cases he : e = s.nextEntry
    · rw [he, Function.update_self]
      exact iff_of_false (fun hst => by cases hst) (by omega)
    · rw [hstage e he, h.unborn e]
      omega
  · change Function.update s.entries k (some s.nextEntry) k' = some e at he
    change e < s.nextEntry + 1
    by_cases hkk : k' = k
    · rw [hkk, Function.update_self] at he
      have heq := Option.some.inj he
      omega
    · rw [Function.update_of_ne hkk] at he
      have hlt := h.fresh k' e he
      omega
  · exact Function.update_self _ _ _
  · refine (h.phase v).mono (fun e k' he => update_eq_of_eq he (by simp [hnew]))
      (fun e he => update_eq_of_eq he (by simp [hnew])) (fun e he => ?_)
      (fun _ hn => hn) (fun _ _ _ hn => hn) (fun _ hn => hn)
    change Function.update b.stage s.nextEntry _ e ≠ _
    rw [hstage e (Nat.ne_of_lt (hborn e he))]
    exact he
  · change StageOk _ e (Function.update b.stage s.nextEntry _ e)
    by_cases he : e = s.nextEntry
    · have hsignals := h.stage s.nextEntry
      rw [hnew] at hsignals
      rw [he, Function.update_self]
      refine ⟨Function.update_self _ _ _, Function.update_self _ _ _, hsignals, .inl ?_⟩
      exact Function.update_self _ _ _
    · rw [hstage e he]
      refine (h.stage e).mono (fun v k' hst => ⟨?_, ?_, hphase v ?_⟩) (fun v hst => hphase v ?_)
        (fun hst => ?_) rfl
      · rw [(h.constructing hst).1]
        exact hentries k' e (h.constructing hst).1
      · exact Function.update_of_ne he _ _
      · rcases (h.constructing hst).2.2.2 with hv | ⟨vm, hv⟩ <;> simp [hv]
      · obtain ⟨k', vm, hv⟩ := h.signaller hst
        simp [hv]
      · exact congrArg RegistryEntry.pending (hheap e (hborn e hst))
  · refine (h.place n).mono (fun v hpl => hphase v ?_)
      (fun k' e _ he hroot => ⟨hentries k' e he, ?_⟩) (fun v hpl => hphase v ?_) rfl
    · obtain ⟨k', e, hv⟩ := h.builder hpl
      simp [hv]
    · rw [← hroot]
      exact congrArg RegistryEntry.rootVM (hheap e (h.fresh k' e he))
    · simp [h.closer hpl]
  · change Function.update s.entries k (some s.nextEntry) k' = some e at he
    by_cases hkk : k' = k
    · rw [hkk, Function.update_self] at he
      rw [hkk, ← Option.some.inj he]
      refine ⟨.inl ⟨u, Function.update_self _ _ _⟩, ?_⟩
      change 0 < (Function.update s.heap s.nextEntry {} s.nextEntry).refcount
      rw [Function.update_self]
      decide
    · rw [Function.update_of_ne hkk] at he
      have hold := hheap e (h.fresh k' e he)
      refine (h.entry k' e he).mono (fun v hst => update_eq_of_eq hst (by simp [hnew]))
        (congrArg _ hold) (congrArg _ hold) (fun _ _ hn => hn) fun hpos => ?_
      exact hpos.trans_eq (congrArg RegistryEntry.refcount hold).symm
  · rw [hrefs]
    by_cases hkk : k' = k
    · have hcount := (h.count k).join (u := u) (by simp [hfree])
      rw [refcountFor_none s hk] at hcount
      have hone : (s.miss u k).refcountFor k = 1 := by
        rw [refcountFor_some (s.miss u k) (Function.update_self _ _ _)]
        change (Function.update s.heap s.nextEntry {} s.nextEntry).refcount = 1
        rw [Function.update_self]
      rw [hkk, hone]
      exact hcount
    · have hcount := (h.count k').aside (u := u) (r := some k) (by simp [hfree])
        (fun heq => hkk (Option.some.inj heq).symm)
      rw [refcountFor_eq s (s.miss u k) (Function.update_of_ne hkk _ _) fun e he =>
        congrArg RegistryEntry.refcount (hheap e (h.fresh k' e he))]
      exact hcount

theorem hit (h : Tracks b s) (hu : s.phase u = .acquiring k) {e : ℕ} (hk : s.entries k = some e)
    (hpublished : (s.heap e).pending = false) : Tracks b (s.hit u k e) := by
  obtain ⟨⟨v, hv⟩ | ⟨-, n, hroot, hn⟩, hpos⟩ := h.entry k e hk
  · rw [(h.constructing hv).2.1] at hpublished
    cases hpublished
  have hheap := heap_refcount s e ((s.heap e).refcount + 1)
  have hphase : ∀ v, s.phase v ≠ .acquiring k →
      Function.update s.phase u (.holding k (s.heap e).rootVM) v = s.phase v :=
    fun v => phase_of_ne hu
  have hrefs : (s.hit u k e).refs = Function.update s.refs u (some k) :=
    refs_eq s _ (q := .holding k (s.heap e).rootVM) rfl
  have hfree : s.refs u = none := by rw [State.refs, hu]; rfl
  refine ⟨h.unborn, h.fresh, h.unbuilt, phase_update ⟨n, hroot, hn⟩ fun v _ => h.phase v,
    fun e' => ?_, fun n' => ?_, fun k' e' he => ?_, fun k' => ?_⟩
  · refine (h.stage e').mono (fun v k' hst => ⟨rfl, ?_, hphase v ?_⟩) (fun v hst => hphase v ?_)
      (fun hst => (hheap e').2) rfl
    · refine Function.update_of_ne (fun heq => ?_) _ _
      rw [← heq, (h.constructing hst).2.1] at hpublished
      cases hpublished
    · rcases (h.constructing hst).2.2.2 with hv | ⟨vm, hv⟩ <;> simp [hv]
    · obtain ⟨k', vm, hv⟩ := h.signaller hst
      simp [hv]
  · refine (h.place n').mono (fun v hpl => hphase v ?_)
      (fun k' e' _ he hroot' => ⟨he, (hheap e').1.trans hroot'⟩) (fun v hpl => hphase v ?_) rfl
    · obtain ⟨k', e', hv⟩ := h.builder hpl
      simp [hv]
    · simp [h.closer hpl]
  · refine (h.entry k' e' he).mono (fun _ hst => hst) (hheap e').2 (hheap e').1
      (fun _ _ hn' => hn') fun hpos' => ?_
    change 0 < (Function.update s.heap e _ e').refcount
    by_cases hee : e' = e
    · rw [hee, Function.update_self]
      change 0 < (s.heap e).refcount + 1
      omega
    · rw [Function.update_of_ne hee]
      exact hpos'
  · rw [hrefs]
    by_cases hkk : k' = k
    · have hcount := (h.count k).join (u := u) (by simp [hfree])
      rw [refcountFor_some s hk] at hcount
      have hmore : (s.hit u k e).refcountFor k = (s.heap e).refcount + 1 := by
        rw [refcountFor_some (s.hit u k e) hk]
        change (Function.update s.heap e _ e).refcount = _
        rw [Function.update_self]
      rw [hkk, hmore]
      exact hcount
    · have hcount := (h.count k').aside (u := u) (r := some k) (by simp [hfree])
        (fun heq => hkk (Option.some.inj heq).symm)
      rw [refcountFor_eq s (s.hit u k e) rfl fun e' he =>
        congrArg RegistryEntry.refcount (Function.update_of_ne (fun heq => ?_) _ _)]
      · exact hcount
      · rw [heq] at he
        exact hkk (h.key_unique he hk)

end LookUp

section Construction

variable {k : K} {e : ℕ}

section

variable (h : Tracks b s) (hu : s.phase u = .building k e)

include h hu

theorem stage_returned (vm : Option ℕ) (vms : ℕ) (e' : ℕ) :
    StageOk { s with vms := vms, phase := Function.update s.phase u (.built k e vm) } e'
      (b.stage e') := by
  have hphase : ∀ v, s.phase v ≠ .building k e →
      Function.update s.phase u (.built k e vm) v = s.phase v :=
    fun v => phase_of_ne hu
  have hstage : b.stage e = .constructing u k := h.phaseOk hu
  by_cases he : e' = e
  · obtain ⟨hentry, hheap, hsignals, -⟩ := h.constructing hstage
    rw [he, hstage]
    exact ⟨hentry, hheap, hsignals, .inr ⟨vm, Function.update_self _ _ _⟩⟩
  · refine (h.stage e').mono (fun v k' hst => ⟨rfl, rfl, hphase v ?_⟩)
      (fun v hst => hphase v ?_) (fun _ => rfl) rfl
    · rcases (h.constructing hst).2.2.2 with hv | ⟨vm, hv⟩
      · simp [hv, he]
      · simp [hv]
    · obtain ⟨k', vm', hv⟩ := h.signaller hst
      simp [hv]

theorem count_returned (vm : Option ℕ) (k' : K) :
    Counted (Function.update s.refs u (Phase.built k e vm).ref) k' (s.refcountFor k') := by
  refine (h.count k').stay ?_
  rw [State.refs, hu]
  rfl

theorem factoryFails : Tracks b (s.factoryReturns u k e false) := by
  have hphase : ∀ v, s.phase v ≠ .building k e →
      Function.update s.phase u (.built k e none) v = s.phase v :=
    fun v => phase_of_ne hu
  have hok : PhaseOk b u (.built k e none) := ⟨h.phaseOk hu, fun n hn => by cases hn⟩
  refine ⟨h.unborn, h.fresh, h.unbuilt, phase_update hok fun v _ => h.phase v,
    h.stage_returned hu none s.vms, fun n => ?_, h.entry, fun k' => ?_⟩
  · refine (h.place n).mono (fun v hpl => hphase v ?_) (fun k' e' _ he hroot => ⟨he, hroot⟩)
      (fun v hpl => hphase v ?_) rfl
    · obtain ⟨k', e', hv⟩ := h.builder hpl
      simp [hv]
    · simp [h.closer hpl]
  · rw [refs_eq s _ (q := .built k e none) rfl]
    exact h.count_returned hu none k'

theorem factorySucceeds : Tracks { b with place := Function.update b.place s.vms (.withBuilder u) }
      (s.factoryReturns u k e true) := by
  have hnew : b.place s.vms = .unbuilt := (h.unbuilt _).mpr (Nat.le_refl _)
  have hphase : ∀ v, s.phase v ≠ .building k e →
      Function.update s.phase u (.built k e (some s.vms)) v = s.phase v :=
    fun v => phase_of_ne hu
  have hlive : ∀ n k', b.place n = .live k' →
      Function.update b.place s.vms (.withBuilder u) n = .live k' :=
    fun n k' hn => update_eq_of_eq hn (by simp [hnew])
  refine ⟨h.unborn, h.fresh, fun n => ?_, phase_update ⟨h.phaseOk hu, fun n hn => ?_⟩ fun v _ => ?_,
    h.stage_returned hu (some s.vms) (s.vms + 1), fun n => ?_, fun k' e' he => ?_, fun k' => ?_⟩
  · change Function.update b.place s.vms _ n = _ ↔ s.vms + 1 ≤ n
    by_cases hn : n = s.vms
    · rw [hn, Function.update_self]
      exact iff_of_false (fun hpl => by cases hpl) (by omega)
    · rw [Function.update_of_ne hn, h.unbuilt n]
      omega
  · rw [← Option.some.inj hn]
    exact Function.update_self _ _ _
  · exact (h.phase v).mono (fun _ _ he => he) (fun _ he => he) (fun _ he => he)
      (fun n hn => update_eq_of_eq hn (by simp [hnew])) (fun n k' _ hn => hlive n k' hn)
      (fun n hn => update_eq_of_eq hn (by simp [hnew]))
  · change PlaceOk _ n (Function.update b.place s.vms _ n)
    by_cases hn : n = s.vms
    · have hcloses := h.place s.vms
      rw [hnew] at hcloses
      rw [hn, Function.update_self]
      exact ⟨hcloses, k, e, Function.update_self _ _ _⟩
    · rw [Function.update_of_ne hn]
      refine (h.place n).mono (fun v hpl => hphase v ?_) (fun k' e' _ he hroot => ⟨he, hroot⟩)
        (fun v hpl => hphase v ?_) rfl
      · obtain ⟨k', e', hv⟩ := h.builder hpl
        simp [hv]
      · simp [h.closer hpl]
  · exact (h.entry k' e' he).mono (fun _ hst => hst) rfl rfl (fun n _ hn => hlive n k' hn)
      fun hpos => hpos
  · rw [refs_eq s _ (q := .built k e (some s.vms)) rfl]
    exact h.count_returned hu (some s.vms) k'

end

variable [DecidableEq K]

theorem withdraw (h : Tracks b s) (hu : s.phase u = .built k e none) :
    Tracks { b with stage := Function.update b.stage e (.signalling u) } (s.withdraw u k e) := by
  obtain ⟨hstage, -⟩ := h.phaseOk hu
  obtain ⟨hentry, hheap, hsignals, -⟩ := h.constructing hstage
  have hphase : ∀ v, s.phase v ≠ .built k e none →
      Function.update s.phase u (.signalling k e none) v = s.phase v :=
    fun v => phase_of_ne hu
  have hentries : ∀ k', k' ≠ k → Function.update s.entries k none k' = s.entries k' :=
    fun k' hkk => Function.update_of_ne hkk _ _
  have hold : ∀ k' e', k' ≠ k → s.entries k' = some e' →
      Function.update s.heap e { s.heap e with pending := false } e' = s.heap e' := by
    intro k' e' hkk he'
    refine Function.update_of_ne (fun heq => hkk ?_) _ _
    rw [heq] at he'
    exact h.key_unique he' hentry
  have hnext : Stage.signalling u ≠ (.unborn : Stage K U) := fun hst => by cases hst
  refine ⟨h.unborn_update hnext (by simp [hstage]), fun k' e' he => ?_, h.unbuilt,
    phase_update ⟨Function.update_self _ _ _, fun n hn => by cases hn⟩ fun v hv => ?_, fun e' => ?_,
    fun n => ?_, fun k' e' he => ?_, fun k' => ?_⟩
  · change Function.update s.entries k none k' = some e' at he
    by_cases hkk : k' = k
    · rw [hkk, Function.update_self] at he
      cases he
    · rw [hentries k' hkk] at he
      exact h.fresh k' e' he
  · refine (h.phase v).mono (fun e' k' he => update_eq_of_eq he ?_)
      (fun e' he => update_eq_of_eq he (by simp [hstage])) (fun e' he => born_update hnext he)
      (fun _ hn => hn) (fun _ _ _ hn => hn) (fun _ hn => hn)
    rw [hstage]
    exact fun heq => hv (Stage.constructing.inj heq).1.symm
  · change StageOk _ e' (Function.update b.stage e _ e')
    by_cases hee : e' = e
    · rw [hee, Function.update_self]
      refine ⟨?_, hsignals, k, none, Function.update_self _ _ _⟩
      change (Function.update s.heap e _ e).pending = false
      rw [Function.update_self]
    · rw [Function.update_of_ne hee]
      refine (h.stage e').mono (fun v k' hst => ⟨hentries k' ?_, Function.update_of_ne hee _ _,
        hphase v ?_⟩) (fun v hst => hphase v ?_)
        (fun _ => congrArg RegistryEntry.pending (Function.update_of_ne hee _ _)) rfl
      · intro hkk
        have he' := (h.constructing hst).1
        rw [hkk, hentry] at he'
        exact hee (Option.some.inj he').symm
      · rcases (h.constructing hst).2.2.2 with hv | ⟨vm, hv⟩
        · simp [hv]
        · simp [hv, hee]
      · obtain ⟨k', vm, hv⟩ := h.signaller hst
        simp [hv]
  · refine (h.place n).mono (fun v hpl => hphase v ?_) (fun k' e' hpl he hroot => ?_)
      (fun v hpl => hphase v ?_) rfl
    · obtain ⟨k', e', hv⟩ := h.builder hpl
      simp [hv]
    · have hkk : k' ≠ k := by
        intro hkk
        rw [hkk, hentry] at he
        rw [← Option.some.inj he, hheap] at hroot
        cases hroot
      refine ⟨(hentries k' hkk).trans he, ?_⟩
      rw [← hroot]
      exact congrArg RegistryEntry.rootVM (hold k' e' hkk he)
    · simp [h.closer hpl]
  · change Function.update s.entries k none k' = some e' at he
    by_cases hkk : k' = k
    · rw [hkk, Function.update_self] at he
      cases he
    · rw [hentries k' hkk] at he
      have hsame := hold k' e' hkk he
      refine (h.entry k' e' he).mono (fun v hst => update_eq_of_eq hst ?_) (congrArg _ hsame)
        (congrArg _ hsame) (fun _ _ hn => hn) fun hpos => ?_
      · rw [hstage]
        exact fun heq => hkk (Stage.constructing.inj heq).2.symm
      · exact hpos.trans_eq (congrArg RegistryEntry.refcount hsame).symm
  · have href : s.refs u = some k := by rw [State.refs, hu]; rfl
    rw [refs_eq s _ (q := .signalling k e none) rfl]
    by_cases hkk : k' = k
    · have hcount := (h.count k).leave (r := none) href (fun heq => by cases heq)
      rw [h.refcountFor_constructing hstage] at hcount
      rw [hkk, refcountFor_none (s.withdraw u k e) (Function.update_self _ _ _)]
      exact hcount
    · rw [refcountFor_eq s (s.withdraw u k e) (hentries k' hkk) fun e' he =>
        congrArg RegistryEntry.refcount (hold k' e' hkk he)]
      refine (h.count k').aside (fun heq => ?_) (fun heq => by cases heq)
      rw [href] at heq
      exact hkk (Option.some.inj heq).symm

omit [DecidableEq K] in
theorem publish (h : Tracks b s) {n : ℕ} (hu : s.phase u = .built k e (some n)) :
    Tracks ⟨Function.update b.stage e (.signalling u), Function.update b.place n (.live k)⟩
      (s.publish u k e n) := by
  obtain ⟨hstage, hmine⟩ := h.phaseOk hu
  have hplace : b.place n = .withBuilder u := hmine n rfl
  obtain ⟨hentry, hheap, hsignals, -⟩ := h.constructing hstage
  have hphase : ∀ v, s.phase v ≠ .built k e (some n) →
      Function.update s.phase u (.signalling k e (some n)) v = s.phase v :=
    fun v => phase_of_ne hu
  have hold : ∀ e', e' ≠ e → Function.update s.heap e
      { s.heap e with rootVM := some n, pending := false } e' = s.heap e' :=
    fun e' hee => Function.update_of_ne hee _ _
  have hlive : ∀ n' k', b.place n' = .live k' → Function.update b.place n (.live k) n' = .live k' :=
    fun n' k' hn => update_eq_of_eq hn (by simp [hplace])
  have hnext : Stage.signalling u ≠ (.unborn : Stage K U) := fun hst => by cases hst
  refine ⟨h.unborn_update hnext (by simp [hstage]), h.fresh, fun n' => ?_,
    phase_update ⟨Function.update_self _ _ _, fun n' hn => ?_⟩ fun v hv => ?_, fun e' => ?_,
    fun n' => ?_, fun k' e' he => ?_, fun k' => ?_⟩
  · change Function.update b.place n _ n' = _ ↔ _
    by_cases hn : n' = n
    · rw [hn, Function.update_self]
      refine iff_of_false (fun hpl => by cases hpl) (mt (h.unbuilt n).mpr ?_)
      rw [hplace]
      exact fun hpl => by cases hpl
    · rw [Function.update_of_ne hn]
      exact h.unbuilt n'
  · rw [← Option.some.inj hn]
    exact Function.update_self _ _ _
  · refine (h.phase v).mono (fun e' k' he => update_eq_of_eq he ?_)
      (fun e' he => update_eq_of_eq he (by simp [hstage])) (fun e' he => born_update hnext he)
      (fun n' hn => update_eq_of_eq hn ?_) (fun n' k' _ hn => hlive n' k' hn)
      (fun n' hn => update_eq_of_eq hn (by simp [hplace]))
    · rw [hstage]
      exact fun heq => hv (Stage.constructing.inj heq).1.symm
    · rw [hplace]
      exact fun heq => hv (Place.withBuilder.inj heq).symm
  · change StageOk _ e' (Function.update b.stage e _ e')
    by_cases hee : e' = e
    · rw [hee, Function.update_self]
      refine ⟨?_, hsignals, k, some n, Function.update_self _ _ _⟩
      change (Function.update s.heap e _ e).pending = false
      rw [Function.update_self]
    · rw [Function.update_of_ne hee]
      refine (h.stage e').mono (fun v k' hst => ⟨rfl, hold e' hee, hphase v ?_⟩)
        (fun v hst => hphase v ?_) (fun _ => congrArg RegistryEntry.pending (hold e' hee)) rfl
      · rcases (h.constructing hst).2.2.2 with hv | ⟨vm, hv⟩
        · simp [hv]
        · simp [hv, hee]
      · obtain ⟨k', vm, hv⟩ := h.signaller hst
        simp [hv]
  · change PlaceOk _ n' (Function.update b.place n _ n')
    by_cases hn : n' = n
    · have hcloses := h.place n
      rw [hplace] at hcloses
      rw [hn, Function.update_self]
      refine ⟨hcloses.1, e, hentry, ?_⟩
      change (Function.update s.heap e _ e).rootVM = some n
      rw [Function.update_self]
    · rw [Function.update_of_ne hn]
      refine (h.place n').mono (fun v hpl => hphase v ?_) (fun k' e' _ he hroot => ⟨he, ?_⟩)
        (fun v hpl => hphase v ?_) rfl
      · obtain ⟨k', e', hv⟩ := h.builder hpl
        simp [hv, hn]
      · rw [← hroot]
        refine congrArg RegistryEntry.rootVM (hold e' fun hee => ?_)
        rw [hee, hheap] at hroot
        cases hroot
      · simp [h.closer hpl]
  · by_cases hee : e' = e
    · rw [hee] at he ⊢
      rw [h.key_unique he hentry]
      have hnew :
          (s.publish u k e n).heap e = { s.heap e with rootVM := some n, pending := false } :=
        Function.update_self _ _ _
      refine ⟨.inr ⟨by rw [hnew], n, by rw [hnew], Function.update_self _ _ _⟩, ?_⟩
      rw [hnew, hheap]
      exact Int.one_pos
    · have hsame := hold e' hee
      refine (h.entry k' e' he).mono (fun v hst => ?_) (congrArg _ hsame) (congrArg _ hsame)
        (fun n' _ hn => hlive n' k' hn) fun hpos => ?_
      · rw [← hst]
        exact Function.update_of_ne hee _ _
      · exact hpos.trans_eq (congrArg RegistryEntry.refcount hsame).symm
  · rw [refs_eq s _ (q := .signalling k e (some n)) rfl,
      refcountFor_eq s (s.publish u k e n) rfl fun e' _ => ?_]
    · refine (h.count k').stay ?_
      rw [State.refs, hu]
      rfl
    · change (Function.update s.heap e _ e').refcount = _
      by_cases hee : e' = e
      · rw [hee, Function.update_self]
      · rw [Function.update_of_ne hee]

omit [DecidableEq K] in
theorem closePending (h : Tracks b s) {vm : Option ℕ} (hu : s.phase u = .signalling k e vm) :
    Tracks { b with stage := Function.update b.stage e .ended } (s.closePending u k e vm) := by
  obtain ⟨hstage, hmine⟩ := h.phaseOk hu
  have hsignal := h.stage e
  rw [hstage] at hsignal
  have hphase : ∀ v, s.phase v ≠ .signalling k e vm →
      (s.closePending u k e vm).phase v = s.phase v :=
    fun v => phase_of_ne hu
  have hnext : Stage.ended ≠ (.unborn : Stage K U) := fun hst => by cases hst
  refine ⟨h.unborn_update hnext (by simp [hstage]), h.fresh, h.unbuilt,
    phase_update ?_ fun v hv => ?_, fun e' => ?_, fun n => ?_, fun k' e' he => ?_, fun k' => ?_⟩
  · cases vm with
    | none => trivial
    | some n => exact ⟨n, rfl, hmine n rfl⟩
  · refine (h.phase v).mono (fun e' k' he => update_eq_of_eq he (by simp [hstage]))
      (fun e' he => update_eq_of_eq he ?_) (fun e' he => born_update hnext he)
      (fun _ hn => hn) (fun _ _ _ hn => hn) (fun _ hn => hn)
    rw [hstage]
    exact fun heq => hv (Stage.signalling.inj heq).symm
  · change StageOk _ e' (Function.update b.stage e _ e')
    by_cases hee : e' = e
    · rw [hee, Function.update_self]
      refine ⟨hsignal.1, ?_⟩
      change Function.update s.signals e _ e = 1
      rw [Function.update_self, hsignal.2.1]
    · rw [Function.update_of_ne hee]
      refine (h.stage e').mono (fun v k' hst => ⟨rfl, rfl, hphase v ?_⟩) (fun v hst => hphase v ?_)
        (fun _ => rfl) (Function.update_of_ne hee _ _)
      · rcases (h.constructing hst).2.2.2 with hv | ⟨vm', hv⟩ <;> simp [hv]
      · obtain ⟨k', vm', hv⟩ := h.signaller hst
        simp [hv, hee]
  · refine (h.place n).mono (fun v hpl => hphase v ?_) (fun k' e' _ he hroot => ⟨he, hroot⟩)
      (fun v hpl => hphase v ?_) rfl
    · obtain ⟨k', e', hv⟩ := h.builder hpl
      simp [hv]
    · simp [h.closer hpl]
  · exact (h.entry k' e' he).mono (fun v hst => update_eq_of_eq hst (by simp [hstage])) rfl rfl
      (fun _ _ hn => hn) fun hpos => hpos
  · rw [refs_eq s (s.closePending u k e vm) rfl]
    refine (h.count k').stay ?_
    rw [State.refs, hu]
    cases vm <;> rfl

end Construction

section Release

variable {k : K} {vm : Option ℕ}

omit [DecidableEq U] in
theorem holder (h : Tracks b s) (hu : s.phase u = .holding k vm) :
    ∃ e n, vm = some n ∧ b.place n = .live k ∧ s.entries k = some e ∧
      (s.heap e).rootVM = some n := by
  obtain ⟨n, hvm, hn⟩ := h.phaseOk hu
  obtain ⟨e, he⟩ := h.entry_of_live hn
  exact ⟨e, n, hvm, hn, he, h.rootVM_of_live hn he⟩

theorem left (h : Tracks b s) (hu : s.phase u = .holding k vm) {e : ℕ}
    (he : s.entries k = some e) (hmore : (s.heap e).refcount - 1 > 0) :
    Tracks b (s.left u e) := by
  obtain ⟨e', n, -, hn, he', hroot⟩ := h.holder hu
  obtain rfl : e' = e := Option.some.inj (he'.symm.trans he)
  have hheap := heap_refcount s e' ((s.heap e').refcount - 1)
  have hphase : ∀ v, s.phase v ≠ .holding k vm →
      Function.update s.phase u .idle v = s.phase v :=
    fun v => phase_of_ne hu
  have href : s.refs u = some k := by rw [State.refs, hu]; rfl
  refine ⟨h.unborn, h.fresh, h.unbuilt, phase_update trivial fun v _ => h.phase v, fun e => ?_,
    fun n' => ?_, fun k' e hk => ?_, fun k' => ?_⟩
  · refine (h.stage e).mono (fun v k' hst => ⟨rfl, ?_, hphase v ?_⟩) (fun v hst => hphase v ?_)
      (fun _ => (hheap e).2) rfl
    · refine Function.update_of_ne (fun heq => ?_) _ _
      rw [← heq, (h.constructing hst).2.1] at hroot
      cases hroot
    · rcases (h.constructing hst).2.2.2 with hv | ⟨vm', hv⟩ <;> simp [hv]
    · obtain ⟨k', vm', hv⟩ := h.signaller hst
      simp [hv]
  · refine (h.place n').mono (fun v hpl => hphase v ?_)
      (fun k' e _ hk hroot' => ⟨hk, (hheap e).1.trans hroot'⟩) (fun v hpl => hphase v ?_) rfl
    · obtain ⟨k', e, hv⟩ := h.builder hpl
      simp [hv]
    · simp [h.closer hpl]
  · refine (h.entry k' e hk).mono (fun _ hst => hst) (hheap e).2 (hheap e).1 (fun _ _ hn' => hn')
      fun hpos => ?_
    change 0 < (Function.update s.heap e' _ e).refcount
    by_cases hee : e = e'
    · rw [hee, Function.update_self]
      exact hmore
    · rw [Function.update_of_ne hee]
      exact hpos
  · rw [refs_eq s _ (q := .idle) rfl]
    by_cases hkk : k' = k
    · have hcount := (h.count k).leave (r := none) href (fun heq => by cases heq)
      have hless : (s.left u e').refcountFor k = s.refcountFor k - 1 := by
        rw [refcountFor_some (s.left u e') he,
          refcountFor_some s he]
        change (Function.update s.heap e' _ e').refcount = _
        rw [Function.update_self]
      rw [hkk, hless]
      exact hcount
    · rw [refcountFor_eq s (s.left u e') rfl
        fun e hk => congrArg RegistryEntry.refcount (Function.update_of_ne (fun heq => ?_) _ _)]
      · refine (h.count k').aside (fun heq => ?_) (fun heq => by cases heq)
        rw [href] at heq
        exact hkk (Option.some.inj heq).symm
      · rw [heq] at hk
        exact hkk (h.key_unique hk he)

variable [DecidableEq K]

theorem removed (h : Tracks b s) (hu : s.phase u = .holding k vm) {e : ℕ}
    (he : s.entries k = some e) (hlast : ¬(s.heap e).refcount - 1 > 0) :
    ∃ b', Tracks b' (s.removed u k e) := by
  obtain ⟨e', n, -, hn, he', hroot⟩ := h.holder hu
  obtain rfl : e' = e := Option.some.inj (he'.symm.trans he)
  have hone : (s.heap e').refcount = 1 := by
    have hpos := (h.entry k e' he).2
    omega
  have href : s.refs u = some k := by rw [State.refs, hu]; rfl
  have hcount := h.count k
  rw [refcountFor_some s he, hone] at hcount
  -- Nobody else counts on the entry.
  have halone : ∀ v, v ≠ u → (s.phase v).ref ≠ some k :=
    fun v hv hk => hv (hcount.unique hk href)
  have hheap := heap_refcount s e' ((s.heap e').refcount - 1)
  have hstate : (s.removed u k e').phase = Function.update s.phase u (.closing n) := by
    unfold State.removed
    rw [hroot]
  have hphase : ∀ v, s.phase v ≠ .holding k vm → (s.removed u k e').phase v = s.phase v := by
    intro v hv
    rw [hstate]
    exact phase_of_ne hu hv
  have hentries : ∀ k', k' ≠ k → Function.update s.entries k none k' = s.entries k' :=
    fun k' hkk => Function.update_of_ne hkk _ _
  have hkept : ∀ k', k' ≠ k → ∀ n', b.place n' = .live k' →
      Function.update b.place n (.closing u) n' = .live k' := by
    intro k' hkk n' hn'
    refine update_eq_of_eq hn' ?_
    rw [hn]
    exact fun heq => hkk (Place.live.inj heq).symm
  refine ⟨{ b with place := Function.update b.place n (.closing u) }, h.unborn, fun k' e hk => ?_,
    fun n' => ?_, fun v => ?_, fun e => ?_, fun n' => ?_, fun k' e hk => ?_, fun k' => ?_⟩
  · change Function.update s.entries k none k' = some e at hk
    by_cases hkk : k' = k
    · rw [hkk, Function.update_self] at hk
      cases hk
    · rw [hentries k' hkk] at hk
      exact h.fresh k' e hk
  · change Function.update b.place n _ n' = _ ↔ _
    by_cases hnn : n' = n
    · rw [hnn, Function.update_self]
      refine iff_of_false (fun hpl => by cases hpl) (mt (h.unbuilt n).mpr ?_)
      rw [hn]
      exact fun hpl => by cases hpl
    · rw [Function.update_of_ne hnn]
      exact h.unbuilt n'
  · have hok : PhaseOk { b with place := Function.update b.place n (.closing u) } u (.closing n) :=
      Function.update_self _ _ _
    rw [hstate]
    refine phase_update hok (fun v hv => ?_) v
    refine (h.phase v).mono (fun _ _ hst => hst) (fun _ hst => hst) (fun _ hst => hst)
      (fun n' hn' => update_eq_of_eq hn' (by simp [hn])) (fun n' k' hk' hn' => ?_)
      (fun n' hn' => update_eq_of_eq hn' (by simp [hn]))
    refine hkept k' (fun hkk => halone v hv ?_) n' hn'
    rw [hk', hkk]
  · refine (h.stage e).mono (fun v k' hst => ⟨hentries k' ?_, ?_, hphase v ?_⟩)
      (fun v hst => hphase v ?_) (fun _ => (hheap e).2) rfl
    · intro hkk
      obtain ⟨hentry, hnew, -⟩ := h.constructing hst
      rw [hkk, he] at hentry
      rw [Option.some.inj hentry, hnew] at hroot
      cases hroot
    · refine Function.update_of_ne (fun heq => ?_) _ _
      rw [← heq, (h.constructing hst).2.1] at hroot
      cases hroot
    · rcases (h.constructing hst).2.2.2 with hv | ⟨vm', hv⟩ <;> simp [hv]
    · obtain ⟨k', vm', hv⟩ := h.signaller hst
      simp [hv]
  · change PlaceOk _ n' (Function.update b.place n _ n')
    by_cases hnn : n' = n
    · have hcloses := h.place n
      rw [hn] at hcloses
      rw [hnn, Function.update_self]
      refine ⟨hcloses.1, ?_⟩
      rw [hstate, Function.update_self]
    · rw [Function.update_of_ne hnn]
      refine (h.place n').mono (fun v hpl => hphase v ?_) (fun k' e hpl hk hroot' => ?_)
        (fun v hpl => hphase v ?_) rfl
      · obtain ⟨k', e, hv⟩ := h.builder hpl
        simp [hv]
      · have hkk : k' ≠ k := by
          intro hkk
          rw [hkk, he] at hk
          rw [← Option.some.inj hk, hroot] at hroot'
          exact hnn (Option.some.inj hroot').symm
        exact ⟨(hentries k' hkk).trans hk, (hheap e).1.trans hroot'⟩
      · simp [h.closer hpl]
  · change Function.update s.entries k none k' = some e at hk
    by_cases hkk : k' = k
    · rw [hkk, Function.update_self] at hk
      cases hk
    · rw [hentries k' hkk] at hk
      have hne : e ≠ e' := by
        intro hee
        rw [hee] at hk
        exact hkk (h.key_unique hk he)
      refine (h.entry k' e hk).mono (fun _ hst => hst) (hheap e).2 (hheap e).1
        (fun n' _ hn' => hkept k' hkk n' hn') fun hpos => ?_
      exact hpos.trans_eq (congrArg RegistryEntry.refcount (Function.update_of_ne hne _ _)).symm
  · rw [refs_eq s _ (q := .closing n) hstate]
    by_cases hkk : k' = k
    · rw [hkk, refcountFor_none (s.removed u k e') (Function.update_self _ _ _)]
      exact hcount.leave href (fun heq => by cases heq)
    · rw [refcountFor_eq s (s.removed u k e') (hentries k' hkk)
        fun e hk => congrArg RegistryEntry.refcount (Function.update_of_ne (fun heq => ?_) _ _)]
      · refine (h.count k').aside (fun heq => ?_) (fun heq => by cases heq)
        rw [href] at heq
        exact hkk (Option.some.inj heq).symm
      · rw [heq] at hk
        exact hkk (h.key_unique hk he)

omit [DecidableEq K] in
theorem closeRootVM (h : Tracks b s) {n : ℕ} (hu : s.phase u = .closing n) :
    Tracks { b with place := Function.update b.place n .closed } (s.closeRootVM u n) := by
  have hn : b.place n = .closing u := h.phaseOk hu
  have hphase : ∀ v, s.phase v ≠ .closing n → Function.update s.phase u .idle v = s.phase v :=
    fun v => phase_of_ne hu
  have hlive : ∀ n' k', b.place n' = .live k' → Function.update b.place n .closed n' = .live k' :=
    fun n' k' hn' => update_eq_of_eq hn' (by simp [hn])
  refine ⟨h.unborn, h.fresh, fun n' => ?_, phase_update trivial fun v hv => ?_, fun e => ?_,
    fun n' => ?_, fun k' e hk => ?_, fun k' => ?_⟩
  · change Function.update b.place n _ n' = _ ↔ _
    by_cases hnn : n' = n
    · rw [hnn, Function.update_self]
      refine iff_of_false (fun hpl => by cases hpl) (mt (h.unbuilt n).mpr ?_)
      rw [hn]
      exact fun hpl => by cases hpl
    · rw [Function.update_of_ne hnn]
      exact h.unbuilt n'
  · refine (h.phase v).mono (fun _ _ hst => hst) (fun _ hst => hst) (fun _ hst => hst)
      (fun n' hn' => update_eq_of_eq hn' (by simp [hn])) (fun n' k' _ hn' => hlive n' k' hn')
      (fun n' hn' => update_eq_of_eq hn' ?_)
    rw [hn]
    exact fun heq => hv (Place.closing.inj heq).symm
  · refine (h.stage e).mono (fun v k' hst => ⟨rfl, rfl, hphase v ?_⟩) (fun v hst => hphase v ?_)
      (fun _ => rfl) rfl
    · rcases (h.constructing hst).2.2.2 with hv | ⟨vm', hv⟩ <;> simp [hv]
    · obtain ⟨k', vm', hv⟩ := h.signaller hst
      simp [hv]
  · change PlaceOk _ n' (Function.update b.place n _ n')
    by_cases hnn : n' = n
    · have hcloses := h.place n
      rw [hn] at hcloses
      rw [hnn, Function.update_self]
      change Function.update s.closes n _ n = 1
      rw [Function.update_self, hcloses.1]
    · rw [Function.update_of_ne hnn]
      refine (h.place n').mono (fun v hpl => hphase v ?_) (fun k' e _ hk hroot => ⟨hk, hroot⟩)
        (fun v hpl => hphase v ?_) (Function.update_of_ne hnn _ _)
      · obtain ⟨k', e, hv⟩ := h.builder hpl
        simp [hv]
      · simp [h.closer hpl, hnn]
  · exact (h.entry k' e hk).mono (fun _ hst => hst) rfl rfl (fun n' _ hn' => hlive n' k' hn')
      fun hpos => hpos
  · rw [refs_eq s _ (q := .idle) rfl]
    refine (h.count k').stay ?_
    rw [State.refs, hu]
    rfl

end Release

end Tracks

end EnvoyGo.WasmRegistry

import EnvoyGo.WasmRegistry

/-!
What every state of the registry of wasm VMs satisfies: a book of where each construction and each
VM is, kept along every interleaving.
-/

namespace EnvoyGo.WasmRegistry

open Census

variable {K U : Type}

inductive Stage (K U : Type) where
  | unborn
  | constructing (u : U) (k : K)
  | signalling (u : U)
  | ended

inductive Place (K U : Type) where
  | unbuilt
  | withBuilder (u : U)
  | live (k : K)
  | closing (u : U)
  | closed

structure Book (K U : Type) where
  stage : ℕ → Stage K U := fun _ => .unborn
  place : ℕ → Place K U := fun _ => .unbuilt

namespace Phase

def ref : Phase K → Option K
  | .building k _ => some k
  | .built k _ _ => some k
  | .signalling k _ (some _) => some k
  | .holding k _ => some k
  | _ => none

def Constructs (k : K) (e : ℕ) (p : Phase K) : Prop :=
  p = .building k e ∨ ∃ vm, p = .built k e vm

end Phase

def PhaseOk (b : Book K U) (u : U) : Phase K → Prop
  | .idle => True
  | .acquiring _ => True
  | .waiting _ e => b.stage e ≠ .unborn
  | .building k e => b.stage e = .constructing u k
  | .built k e vm =>
    b.stage e = .constructing u k ∧ ∀ n, vm = some n → b.place n = .withBuilder u
  | .signalling k e vm => b.stage e = .signalling u ∧ ∀ n, vm = some n → b.place n = .live k
  | .holding k vm => ∃ n, vm = some n ∧ b.place n = .live k
  | .closing n => b.place n = .closing u

def StageOk (s : State K U) (e : ℕ) : Stage K U → Prop
  | .unborn => s.signals e = 0
  | .constructing u k =>
    s.entries k = some e ∧ s.heap e = {} ∧ s.signals e = 0 ∧ (s.phase u).Constructs k e
  | .signalling u =>
    (s.heap e).pending = false ∧ s.signals e = 0 ∧ ∃ k vm, s.phase u = .signalling k e vm
  | .ended => (s.heap e).pending = false ∧ s.signals e = 1

def PlaceOk (s : State K U) (n : ℕ) : Place K U → Prop
  | .unbuilt => s.closes n = 0
  | .withBuilder u => s.closes n = 0 ∧ ∃ k e, s.phase u = .built k e (some n)
  | .live k => s.closes n = 0 ∧ ∃ e, s.entries k = some e ∧ (s.heap e).rootVM = some n
  | .closing u => s.closes n = 0 ∧ s.phase u = .closing n
  | .closed => s.closes n = 1

def EntryOk (b : Book K U) (s : State K U) (k : K) (e : ℕ) : Prop :=
  ((∃ u, b.stage e = .constructing u k) ∨
    (s.heap e).pending = false ∧ ∃ n, (s.heap e).rootVM = some n ∧ b.place n = .live k) ∧
  0 < (s.heap e).refcount

def State.refcountFor (s : State K U) (k : K) : ℤ :=
  match s.entries k with
  | some e => (s.heap e).refcount
  | none => 0

def State.refs (s : State K U) (u : U) : Option K := (s.phase u).ref

structure Tracks (b : Book K U) (s : State K U) : Prop where
  unborn : ∀ e, b.stage e = .unborn ↔ s.nextEntry ≤ e
  fresh : ∀ k e, s.entries k = some e → e < s.nextEntry
  unbuilt : ∀ n, b.place n = .unbuilt ↔ s.vms ≤ n
  phase : ∀ u, PhaseOk b u (s.phase u)
  stage : ∀ e, StageOk s e (b.stage e)
  place : ∀ n, PlaceOk s n (b.place n)
  entry : ∀ k e, s.entries k = some e → EntryOk b s k e
  count : ∀ k, Counted s.refs k (s.refcountFor k)

theorem Tracks.init : Tracks ({} : Book K U) {} where
  unborn e := iff_of_true rfl (Nat.zero_le e)
  fresh _ _ h := by cases h
  unbuilt n := iff_of_true rfl (Nat.zero_le n)
  phase _ := trivial
  stage _ := rfl
  place _ := rfl
  entry _ _ h := by cases h
  count _ := counted_none fun _ h => by cases h

section Facts

variable {b : Book K U} {s : State K U} (h : Tracks b s)

include h in
theorem Tracks.rootVM_of_live {k : K} {e n : ℕ} (hn : b.place n = .live k)
    (he : s.entries k = some e) : (s.heap e).rootVM = some n := by
  have hplace := h.place n
  rw [hn] at hplace
  obtain ⟨-, e', he', hroot⟩ := hplace
  rw [he] at he'
  rw [Option.some.inj he']
  exact hroot

include h in
theorem Tracks.entry_of_live {k : K} {n : ℕ} (hn : b.place n = .live k) :
    ∃ e, s.entries k = some e := by
  have hplace := h.place n
  rw [hn] at hplace
  exact ⟨_, hplace.2.choose_spec.1⟩

include h in
theorem Tracks.constructing {u : U} {k : K} {e : ℕ} (he : b.stage e = .constructing u k) :
    s.entries k = some e ∧ s.heap e = {} ∧ s.signals e = 0 ∧ (s.phase u).Constructs k e := by
  have hstage := h.stage e
  rwa [he] at hstage

include h in
theorem Tracks.signaller {v : U} {e : ℕ} (he : b.stage e = .signalling v) :
    ∃ k vm, s.phase v = .signalling k e vm := by
  have hstage := h.stage e
  rw [he] at hstage
  exact hstage.2.2

include h in
theorem Tracks.builder {v : U} {n : ℕ} (hn : b.place n = .withBuilder v) :
    ∃ k e, s.phase v = .built k e (some n) := by
  have hplace := h.place n
  rw [hn] at hplace
  exact hplace.2

include h in
theorem Tracks.closer {v : U} {n : ℕ} (hn : b.place n = .closing v) : s.phase v = .closing n := by
  have hplace := h.place n
  rw [hn] at hplace
  exact hplace.2

include h in
theorem Tracks.phaseOk {v : U} {p : Phase K} (hv : s.phase v = p) : PhaseOk b v p := by
  rw [← hv]
  exact h.phase v

include h in
theorem Tracks.key_unique {k k' : K} {e : ℕ} (he : s.entries k = some e)
    (he' : s.entries k' = some e) : k = k' := by
  obtain ⟨⟨u, hu⟩ | ⟨hpublished, n, hroot, hn⟩, -⟩ := h.entry k e he
  · obtain ⟨⟨u', hu'⟩ | ⟨hpublished', -⟩, -⟩ := h.entry k' e he'
    · rw [hu] at hu'
      exact (Stage.constructing.inj hu').2
    · rw [(h.constructing hu).2.1] at hpublished'
      cases hpublished'
  · obtain ⟨⟨u', hu'⟩ | ⟨-, n', hroot', hn'⟩, -⟩ := h.entry k' e he'
    · rw [(h.constructing hu').2.1] at hpublished
      cases hpublished
    · rw [hroot] at hroot'
      rw [← Option.some.inj hroot', hn] at hn'
      exact Place.live.inj hn'

end Facts

theorem update_eq_of_eq {I A : Type} [DecidableEq I] {f : I → A} {i j : I} {x y : A}
    (hj : f j = y) (hi : f i ≠ y) : Function.update f i x j = y := by
  rw [Function.update_of_ne (fun heq => ?_), hj]
  rw [heq] at hj
  exact hi hj

section Frame

variable {b b' : Book K U} {s s' : State K U} {v : U} {p : Phase K}

theorem PhaseOk.mono (h : PhaseOk b v p)
    (hstage : ∀ e k, b.stage e = .constructing v k → b'.stage e = .constructing v k)
    (hsignal : ∀ e, b.stage e = .signalling v → b'.stage e = .signalling v)
    (hborn : ∀ e, b.stage e ≠ .unborn → b'.stage e ≠ .unborn)
    (hbuilder : ∀ n, b.place n = .withBuilder v → b'.place n = .withBuilder v)
    (hlive : ∀ n k, p.ref = some k → b.place n = .live k → b'.place n = .live k)
    (hclosing : ∀ n, b.place n = .closing v → b'.place n = .closing v) : PhaseOk b' v p := by
  cases p with
  | idle => trivial
  | acquiring k => trivial
  | waiting k e => exact hborn e h
  | building k e => exact hstage e k h
  | built k e vm => exact ⟨hstage e k h.1, fun n hn => hbuilder n (h.2 n hn)⟩
  | signalling k e vm =>
    refine ⟨hsignal e h.1, fun n hn => hlive n k ?_ (h.2 n hn)⟩
    rw [hn]
    rfl
  | holding k vm =>
    obtain ⟨n, hvm, hn⟩ := h
    exact ⟨n, hvm, hlive n k rfl hn⟩
  | closing n => exact hclosing n h

theorem StageOk.mono {e : ℕ} {st : Stage K U} (h : StageOk s e st)
    (hentry : ∀ u k, st = .constructing u k →
      s'.entries k = s.entries k ∧ s'.heap e = s.heap e ∧ s'.phase u = s.phase u)
    (hsignal : ∀ u, st = .signalling u → s'.phase u = s.phase u)
    (hpending : st ≠ .unborn → (s'.heap e).pending = (s.heap e).pending)
    (hsignals : s'.signals e = s.signals e) : StageOk s' e st := by
  cases st with
  | unborn => exact hsignals.trans h
  | constructing u k =>
    obtain ⟨hentries, hheap, hphase⟩ := hentry u k rfl
    refine ⟨hentries.trans h.1, hheap.trans h.2.1, hsignals.trans h.2.2.1, ?_⟩
    rw [hphase]
    exact h.2.2.2
  | signalling u =>
    refine ⟨(hpending (fun hst => by cases hst)).trans h.1, hsignals.trans h.2.1, ?_⟩
    rw [hsignal u rfl]
    exact h.2.2
  | ended => exact ⟨(hpending (fun hst => by cases hst)).trans h.1, hsignals.trans h.2⟩

theorem PlaceOk.mono {n : ℕ} {pl : Place K U} (h : PlaceOk s n pl)
    (hbuilder : ∀ u, pl = .withBuilder u → s'.phase u = s.phase u)
    (hlive : ∀ k e, pl = .live k → s.entries k = some e → (s.heap e).rootVM = some n →
      s'.entries k = some e ∧ (s'.heap e).rootVM = some n)
    (hclosing : ∀ u, pl = .closing u → s'.phase u = s.phase u)
    (hcloses : s'.closes n = s.closes n) : PlaceOk s' n pl := by
  cases pl with
  | unbuilt => exact hcloses.trans h
  | withBuilder u =>
    refine ⟨hcloses.trans h.1, ?_⟩
    rw [hbuilder u rfl]
    exact h.2
  | live k =>
    obtain ⟨hzero, e, he, hroot⟩ := h
    exact ⟨hcloses.trans hzero, e, hlive k e rfl he hroot⟩
  | closing u => exact ⟨hcloses.trans h.1, (hclosing u rfl).trans h.2⟩
  | closed => exact hcloses.trans h

theorem EntryOk.mono {k : K} {e : ℕ} (h : EntryOk b s k e)
    (hstage : ∀ u, b.stage e = .constructing u k → b'.stage e = .constructing u k)
    (hpending : (s'.heap e).pending = (s.heap e).pending)
    (hroot : (s'.heap e).rootVM = (s.heap e).rootVM)
    (hlive : ∀ n, (s.heap e).rootVM = some n → b.place n = .live k → b'.place n = .live k)
    (hcount : 0 < (s.heap e).refcount → 0 < (s'.heap e).refcount) : EntryOk b' s' k e := by
  obtain ⟨⟨u, hu⟩ | ⟨hpublished, n, hn, hplace⟩, hpos⟩ := h
  · exact ⟨.inl ⟨u, hstage u hu⟩, hcount hpos⟩
  · exact ⟨.inr ⟨hpending.trans hpublished, n, hroot.trans hn, hlive n hn hplace⟩, hcount hpos⟩

theorem refcountFor_eq (s s' : State K U) {k : K} (hentries : s'.entries k = s.entries k)
    (hheap : ∀ e, s.entries k = some e → (s'.heap e).refcount = (s.heap e).refcount) :
    s'.refcountFor k = s.refcountFor k := by
  unfold State.refcountFor
  rw [hentries]
  cases he : s.entries k with
  | none => rfl
  | some e => exact hheap e he

theorem refcountFor_some (s : State K U) {k : K} {e : ℕ} (he : s.entries k = some e) :
    s.refcountFor k = (s.heap e).refcount := by
  rw [State.refcountFor, he]

theorem Tracks.refcountFor_constructing (h : Tracks b s) {u : U} {k : K} {e : ℕ}
    (he : b.stage e = .constructing u k) : s.refcountFor k = 1 := by
  obtain ⟨hentry, hheap, -, -⟩ := h.constructing he
  rw [refcountFor_some s hentry, hheap]

theorem refcountFor_none (s : State K U) {k : K} (he : s.entries k = none) :
    s.refcountFor k = 0 := by
  rw [State.refcountFor, he]

theorem heap_refcount (s : State K U) (e : ℕ) (c : ℤ) (e' : ℕ) :
    (Function.update s.heap e { s.heap e with refcount := c } e').rootVM = (s.heap e').rootVM ∧
      (Function.update s.heap e { s.heap e with refcount := c } e').pending =
        (s.heap e').pending := by
  by_cases he : e' = e
  · rw [he, Function.update_self]
    exact ⟨rfl, rfl⟩
  · rw [Function.update_of_ne he]
    exact ⟨rfl, rfl⟩

variable [DecidableEq U]

theorem refs_eq (s s' : State K U) {u : U} {q : Phase K}
    (hphase : s'.phase = Function.update s.phase u q) :
    s'.refs = Function.update s.refs u q.ref := by
  funext v
  unfold State.refs
  rw [hphase]
  by_cases hv : v = u
  · rw [hv, Function.update_self, Function.update_self]
  · rw [Function.update_of_ne hv, Function.update_of_ne hv]

end Frame

end EnvoyGo.WasmRegistry

import EnvoyGo.WasmMoves

/-!
Root contexts and stream contexts.  Root ids come from a counter of the process, stream ids from a
counter of each VM, and a hostcall finds its stream by the id alone; nothing keeps the two apart.
-/

namespace EnvoyGo.Wasm

open RootVM

variable {m : GuestModule} {s : RootVM}

structure Routing where
  rootCtxID : ℕ
  nextStreamCtxID : ℕ
  perCB : ℕ → Option ℕ
  running : Option Frame
  currentCtxID : ℕ

def RootVM.routing (s : RootVM) : Routing :=
  ⟨s.rootCtxID, s.nextStreamCtxID, s.perCB, s.running, s.currentCtxID⟩

inductive RoutingMoved (m : GuestModule) (s : RootVM) : Event → Routing → Prop
  | same (e : Event) : RoutingMoved m s e s.routing
  | counted (published : s.published = true) (admitted : 0 < s.admitted) :
      RoutingMoved m s .newStream
        { s.routing with nextStreamCtxID := (s.nextStreamCtxID + 1) % idLimit }
  | registered (i : ℕ) (sc : StreamContext) (stream : s.streams[i]? = some sc) :
      RoutingMoved m s (.register i)
        { s.routing with perCB := Function.update s.perCB sc.streamCtxID (some i) }
  | unregistered (i id : ℕ) :
      RoutingMoved m s (.unregister i) { s.routing with perCB := Function.update s.perCB id none }
  | skipped (e : Event) (id : ℕ) (running : s.running = none) :
      RoutingMoved m s e { s.routing with currentCtxID := id }
  | stream (e : Event) (i : ℕ) (cb : Callback) (id : ℕ) (running : s.running = none) :
      RoutingMoved m s e { s.routing with running := some (.stream i cb), currentCtxID := id }
  | root (e : Event) (cb : RootCallback) (running : s.running = none) :
      RoutingMoved m s e { s.routing with running := some (.root cb), currentCtxID := s.rootCtxID }
  | switched (id : ℕ) (callable : m.callable "proxy_set_effective_context" = true) :
      RoutingMoved m s (.setEffectiveContext id) { s.routing with currentCtxID := id }
  | returned (trap : Bool) :
      RoutingMoved m s (.guestReturns trap) { s.routing with running := none }

variable {e : Event} {i : ℕ} {r : Routing}

theorem routing_dispatchGuest {t : RootVM} (i : ℕ) (sc : StreamContext) (cb : Callback)
    (hsame : t.routing = s.routing) (hrun : s.running = none) :
    RoutingMoved m s e (t.dispatchGuest m i sc cb).routing := by
  unfold dispatchGuest
  split
  · rw [hsame]
    exact .same e
  · split_ifs
    · have henter : ∀ n, (t.enter (.stream i cb) sc.streamCtxID n).routing =
          { t.routing with running := some (.stream i cb), currentCtxID := sc.streamCtxID } :=
        fun _ => rfl
      rw [henter, hsame]
      exact .stream e i cb sc.streamCtxID hrun
    · rw [hsame]
      exact .same e

theorem routing_guestReturns (s : RootVM) (trap : Bool) (f : Frame) :
    (s.guestReturns trap f).routing = { s.routing with running := none } := by
  obtain ⟨_, _, _, _, _, _, _, heq⟩ := guestReturns_parts s trap f
  rw [heq]
  rfl

theorem routing_step (m : GuestModule) (s : RootVM) (e : Event) :
    RoutingMoved m s e (step m s e).routing := by
  refine step_induct (P := fun t => RoutingMoved m s e t.routing) (.same e) fun t ht => ?_
  cases ht with
  | newStream hpublished hadmitted => exact .counted hpublished hadmitted
  | created i sc n hrun _ _ _ _ => exact .stream _ i .contextCreate _ hrun
  | createdQuietly i sc n hrun _ _ _ => exact .skipped _ _ hrun
  | registered i sc hsc => exact .registered i sc hsc
  | unregistered i id => exact .unregistered i id
  | called i sc cb hrun _ _ _ => exact routing_dispatchGuest i sc cb rfl hrun
  | closing i sc cb next hrun _ _ _ => exact routing_dispatchGuest i sc cb rfl hrun
  | responded k r i sc n hrun _ _ _ _ _ _ => exact .stream _ _ _ _ hrun
  | respondedQuietly k r i id hrun _ _ => exact .skipped _ _ hrun
  | ticked n hrun _ _ _ => exact .root _ .tick hrun
  | tickedQuietly hrun => exact .skipped _ _ hrun
  | switched id hcall => exact .switched id hcall
  | returned f trap _ =>
    rw [routing_guestReturns]
    exact .returned trap
  | reloaded hrun _ _ => exact .root _ .reload hrun
  | _ => exact .same _

def Entry.rootAccess? : Entry → Option (Option ℕ)
  | .access (.root _) reached => some reached
  | _ => none

/-- No stream has the id of the root context, and no hostcall of a root callback found a stream. -/
def Isolated (s : RootVM) : Prop :=
  (∀ sc ∈ s.streams, sc.streamCtxID ≠ s.rootCtxID) ∧
    ∀ a ∈ s.trace, ∀ reached ∈ a.rootAccess?, reached = none

instance (s : RootVM) : Decidable (Isolated s) := inferInstanceAs (Decidable (_ ∧ _))

/-- The stream ids start from 1 and wrap, so the root id is the one of the stream with its number,
and the root id 0 that of the last before the wrap. -/
def streamOfRoot (rootCtxID : ℕ) : ℕ := if rootCtxID = 0 then idLimit else rootCtxID

def Frame.isRoot : Frame → Bool
  | .root _ => true
  | .stream _ _ => false

/-- The VM has not come to the stream with the number of its root id, and a root callback does not
take up another context. -/
def KeepsApart (m : GuestModule) (s : RootVM) : Event → Prop
  | .newStream =>
    s.published = true → 0 < s.admitted → s.streams.length + 1 < streamOfRoot s.rootCtxID
  | .setEffectiveContext id =>
    m.callable "proxy_set_effective_context" = true →
      ∀ f ∈ s.running, f.isRoot = true → id = s.rootCtxID
  | _ => True

instance (m : GuestModule) (s : RootVM) : ∀ e, Decidable (KeepsApart m s e)
  | .newStream => inferInstanceAs (Decidable (_ → _ → _ < _))
  | .setEffectiveContext _ => inferInstanceAs (Decidable (_ → ∀ f ∈ s.running, _))
  | .createContext _ | .register _ | .unregister _ | .callback _ _ | .close _ | .httpCall
  | .takeToken _ | .resolve _ | .respond _ | .tick | .access | .guestReturns _
  | .noteRuntimeError | .reloadDispatch _ _ => inferInstanceAs (Decidable True)

structure Apart (s : RootVM) : Prop where
  counter : s.nextStreamCtxID = s.streams.length
  ids : ∀ (i : ℕ) (sc : StreamContext), s.streams[i]? = some sc → sc.streamCtxID = i + 1
  room : s.streams.length < streamOfRoot s.rootCtxID
  root : s.rootCtxID < idLimit
  table : ∀ id i, s.perCB id = some i → id = i + 1 ∧ i < s.streams.length
  rooted : ∀ cb, s.running = some (.root cb) → s.currentCtxID = s.rootCtxID

theorem streamOfRoot_le {r : ℕ} (h : r < idLimit) : streamOfRoot r ≤ idLimit := by
  unfold streamOfRoot
  split_ifs
  · exact Nat.le_refl _
  · exact Nat.le_of_lt h

theorem ne_root_of_lt {r : ℕ} (hi : i < streamOfRoot r) (hpos : 0 < i) : i ≠ r := by
  unfold streamOfRoot at hi
  split_ifs at hi
  · omega
  · omega

theorem Apart.ids_ne (h : Apart s) : ∀ sc ∈ s.streams, sc.streamCtxID ≠ s.rootCtxID := by
  intro sc hsc
  obtain ⟨i, hi⟩ := List.mem_iff_getElem?.mp hsc
  have hlt := (List.getElem?_eq_some_iff.mp hi).1
  have hroom := h.room
  rw [h.ids i sc hi]
  exact ne_root_of_lt (by omega) (Nat.succ_pos i)

theorem Apart.lookup_root (h : Apart s) {cb : RootCallback} (hrun : s.running = some (.root cb)) :
    s.lookup = none := by
  unfold lookup
  rw [h.rooted cb hrun]
  cases hfound : s.perCB s.rootCtxID with
  | none => rfl
  | some i =>
    obtain ⟨hid, hlt⟩ := h.table _ i hfound
    have hroom := h.room
    exact absurd hid.symm (ne_root_of_lt (by omega) (Nat.succ_pos i))

theorem Changed.streamCtxID {sc sc' : StreamContext} (h : Changed s i sc e sc') :
    sc'.streamCtxID = sc.streamCtxID := by
  cases h with
  | _ => rfl

theorem apart_newStream (h : Apart s) (hok : KeepsApart m s .newStream) :
    Apart (step m s .newStream) := by
  simp only [step]
  split_ifs with hready
  · have hroom : s.streams.length + 1 < streamOfRoot s.rootCtxID := hok hready.1 hready.2
    have hlimit := streamOfRoot_le h.root
    have hid : (s.nextStreamCtxID + 1) % idLimit = s.streams.length + 1 := by
      rw [h.counter]
      exact Nat.mod_eq_of_lt (by omega)
    have hlen : s.newStream.streams.length = s.streams.length + 1 := by
      unfold newStream
      rw [List.length_append, List.length_singleton]
    refine ⟨hid.trans hlen.symm, ?_, ?_, h.root, ?_, h.rooted⟩
    · intro i sc hsc
      unfold newStream at hsc
      dsimp only at hsc
      by_cases hlt : i < s.streams.length
      · rw [List.getElem?_append_left hlt] at hsc
        exact h.ids i sc hsc
      · rw [List.getElem?_append_right (Nat.le_of_not_lt hlt), List.getElem?_singleton] at hsc
        split_ifs at hsc with hzero
        obtain rfl := Option.some.inj hsc
        dsimp only
        omega
    · rw [hlen]
      exact hroom
    · intro id i hfound
      obtain ⟨heq, hlt⟩ := h.table id i hfound
      exact ⟨heq, by omega⟩
  · exact h

theorem length_step_of_ne (he : e ≠ .newStream) :
    (step m s e).streams.length = s.streams.length := by
  have hmoved := streams_step m s e
  generalize (step m s e).streams = streams at hmoved
  cases hmoved with
  | same => rfl
  | moved _ j sc sc' => exact List.length_set
  | grown => exact absurd rfl he

theorem ids_step_of_ne (h : Apart s) (he : e ≠ .newStream) {sc' : StreamContext}
    (hsc' : (step m s e).streams[i]? = some sc') : sc'.streamCtxID = i + 1 := by
  rcases stream_step hsc' with ⟨sc, hsc, hch⟩ | ⟨hnew, -, -⟩
  · rw [hch.streamCtxID]
    exact h.ids i sc hsc
  · exact absurd hnew he

theorem RoutingMoved.rootCtxID (h : RoutingMoved m s e r) : r.rootCtxID = s.rootCtxID := by
  cases h with
  | _ => rfl

theorem RoutingMoved.counter (h : RoutingMoved m s e r) (he : e ≠ .newStream) :
    r.nextStreamCtxID = s.nextStreamCtxID := by
  cases h with
  | counted => exact absurd rfl he
  | _ => rfl

theorem RoutingMoved.table (h : RoutingMoved m s e r) {id : ℕ} (hi : r.perCB id = some i) :
    s.perCB id = some i ∨ ∃ sc, s.streams[i]? = some sc ∧ id = sc.streamCtxID := by
  cases h with
  | registered j sc hsc =>
    have hj : Function.update s.perCB sc.streamCtxID (some j) id = some i := hi
    by_cases hid : id = sc.streamCtxID
    · rw [hid, Function.update_self] at hj
      obtain rfl := Option.some.inj hj
      exact Or.inr ⟨sc, hsc, hid⟩
    · rw [Function.update_of_ne hid] at hj
      exact Or.inl hj
  | unregistered j id' =>
    have hj : Function.update s.perCB id' none id = some i := hi
    by_cases hid : id = id'
    · rw [hid, Function.update_self] at hj
      cases hj
    · rw [Function.update_of_ne hid] at hj
      exact Or.inl hj
  | _ => exact Or.inl hi

theorem RoutingMoved.rooted (h : RoutingMoved m s e r) (hok : KeepsApart m s e)
    (hs : ∀ cb, s.running = some (.root cb) → s.currentCtxID = s.rootCtxID) {cb : RootCallback}
    (hrun : r.running = some (.root cb)) : r.currentCtxID = s.rootCtxID := by
  cases h with
  | skipped _ id hnone => cases hnone.symm.trans hrun
  | stream => cases hrun
  | root => rfl
  | switched id hcall => exact hok hcall (.root cb) hrun rfl
  | returned => cases hrun
  | _ => exact hs cb hrun

theorem apart_step (h : Apart s) (hok : KeepsApart m s e) : Apart (step m s e) := by
  by_cases he : e = .newStream
  · subst he
    exact apart_newStream h hok
  · have hlen := length_step_of_ne (m := m) (s := s) he
    have hmoved := routing_step m s e
    have hroot : (step m s e).rootCtxID = s.rootCtxID := hmoved.rootCtxID
    constructor
    · exact (hmoved.counter he).trans (h.counter.trans hlen.symm)
    · exact fun _ _ hsc => ids_step_of_ne h he hsc
    · rw [hlen, hroot]
      exact h.room
    · rw [hroot]
      exact h.root
    · intro id i hi
      rw [hlen]
      rcases hmoved.table hi with hold | ⟨sc, hsc, hid⟩
      · exact h.table id i hold
      · rw [hid, h.ids i sc hsc]
        exact ⟨rfl, (List.getElem?_eq_some_iff.mp hsc).1⟩
    · intro cb hrun
      rw [hroot]
      exact hmoved.rooted hok h.rooted hrun

theorem isolated_step (h : Apart s) (hok : KeepsApart m s e) (hs : Isolated s) :
    Isolated (step m s e) := by
  refine ⟨(apart_step h hok).ids_ne, ?_⟩
  intro a ha reached hreached
  obtain ⟨new, hnoted, htrace, -⟩ := shows_step m s e
  rw [htrace, List.mem_append] at ha
  rcases ha with ha | ha
  · exact hs.2 a ha reached hreached
  · cases hnoted with
    | nothing => cases ha
    | accessed f hf =>
      obtain rfl := List.mem_singleton.mp ha
      cases f with
      | stream i cb => cases hreached
      | root cb =>
        obtain rfl := Option.some.inj hreached
        exact h.lookup_root hf
    | _ =>
      obtain rfl := List.mem_singleton.mp ha
      cases hreached

/-- The root VMs of a process and the counter their ids come from. -/
structure Process where
  rootContextIDCounter : ℕ := 0
  vms : List RootVM := []

/-- A configuration that shares its VM with an earlier one still takes an id. -/
inductive ProcessEvent
  | newCompiledConfig (hit : Bool)
  | vm (v : ℕ) (e : Event)

def Process.step (ms : ℕ → GuestModule) (p : Process) : ProcessEvent → Process
  | .newCompiledConfig hit =>
    let rootCtxID := (p.rootContextIDCounter + 1) % idLimit
    { rootContextIDCounter := rootCtxID
      vms := if hit then p.vms else p.vms ++ [newRootVM rootCtxID] }
  | .vm v e =>
    match p.vms[v]? with
    | none => p
    | some s => { p with vms := p.vms.set v (Wasm.step (ms v) s e) }

def AllKeepApart (ms : ℕ → GuestModule) (p : Process) : ProcessEvent → Prop
  | .newCompiledConfig _ => True
  | .vm v e => ∀ s ∈ p.vms[v]?, KeepsApart (ms v) s e

instance (ms : ℕ → GuestModule) (p : Process) : ∀ e, Decidable (AllKeepApart ms p e)
  | .newCompiledConfig _ => inferInstanceAs (Decidable True)
  | .vm v e => inferInstanceAs (Decidable (∀ s ∈ p.vms[v]?, KeepsApart (ms v) s e))

theorem apart_new {rootCtxID : ℕ} (h : rootCtxID < idLimit) : Apart (newRootVM rootCtxID) := by
  refine ⟨rfl, nofun, ?_, h, nofun, fun _ _ => rfl⟩
  change 0 < streamOfRoot rootCtxID
  unfold streamOfRoot
  split_ifs with hzero
  · exact Nat.two_pow_pos 32
  · exact Nat.pos_of_ne_zero hzero

theorem isolated_new (rootCtxID : ℕ) : Isolated (newRootVM rootCtxID) := by
  refine ⟨nofun, ?_⟩
  intro a ha reached hreached
  obtain rfl := List.mem_singleton.mp ha
  cases hreached

theorem process_step (ms : ℕ → GuestModule) {p : Process} {e : ProcessEvent}
    (hok : AllKeepApart ms p e) (h : ∀ s ∈ p.vms, Apart s ∧ Isolated s) :
    ∀ s ∈ (p.step ms e).vms, Apart s ∧ Isolated s := by
  cases e with
  | newCompiledConfig hit =>
    intro s hs
    unfold Process.step at hs
    dsimp only at hs
    split_ifs at hs
    · exact h s hs
    · rcases List.mem_append.mp hs with hs | hs
      · exact h s hs
      · obtain rfl := List.mem_singleton.mp hs
        exact ⟨apart_new (Nat.mod_lt _ (Nat.two_pow_pos 32)), isolated_new _⟩
  | vm v e =>
    intro s hs
    unfold Process.step at hs
    dsimp only at hs
    split at hs
    · exact h s hs
    · rename_i t ht
      rcases List.mem_or_eq_of_mem_set hs with hs | rfl
      · exact h s hs
      · obtain ⟨hapart, hisolated⟩ := h t (List.mem_of_getElem? ht)
        have hkeep := hok t ht
        exact ⟨apart_step hapart hkeep, isolated_step hapart hkeep hisolated⟩

/-- In every process history in which no VM comes to the stream with the number of its root id and
no root callback takes up another context, no stream of a VM has the id of its root, and no hostcall
of a root callback reaches a stream. -/
theorem contexts_isolated (ms : ℕ → GuestModule) (es : List ProcessEvent)
    (hes : Runs.StepsMeet (Process.step ms) (AllKeepApart ms) {} es) :
    ∀ s ∈ (es.foldl (Process.step ms) {}).vms, Isolated s := by
  have hstep : ∀ p e, AllKeepApart ms p e → (∀ s ∈ p.vms, Apart s ∧ Isolated s) →
      ∀ s ∈ (p.step ms e).vms, Apart s ∧ Isolated s := fun p e hok h => process_step ms hok h
  have hend := Runs.invariant_of_steps hstep es {} nofun hes
  exact fun s hs => (hend s hs).2

/-- One request, and a tick whose guest asks for the headers. -/
def tickDuringStream (v : ℕ) : List ProcessEvent :=
  [.vm v (.guestReturns false), .vm v (.reloadDispatch false false), .vm v .newStream,
    .vm v (.createContext 0), .vm v (.guestReturns false), .vm v (.register 0), .vm v .tick,
    .vm v .access, .vm v (.guestReturns false)]

/-- The first VM of the process has the root id 1, and so has its first stream. -/
theorem tick_reaches_first_stream :
    ∃ s ∈ ((ProcessEvent.newCompiledConfig false :: tickDuringStream 0).foldl
      (Process.step fun _ => allCallable) {}).vms,
      (¬ ∀ sc ∈ s.streams, sc.streamCtxID ≠ s.rootCtxID) ∧
        ¬ ∀ a ∈ s.trace, ∀ reached ∈ a.rootAccess?, reached = none := by
  decide +kernel

/-- A later VM, whose root id its one stream does not come to. -/
def laterVM : List ProcessEvent :=
  [.newCompiledConfig false, .newCompiledConfig true, .newCompiledConfig false] ++
    tickDuringStream 1

theorem tick_apart_from_stream :
    Runs.StepsMeet (Process.step fun _ => allCallable) (AllKeepApart fun _ => allCallable) {}
      laterVM ∧
    (laterVM.foldl (Process.step fun _ => allCallable) {}).vms.length = 2 ∧
    ∀ s ∈ (laterVM.foldl (Process.step fun _ => allCallable) {}).vms, Isolated s := by
  have hmeet : Runs.StepsMeet (Process.step fun _ => allCallable)
      (AllKeepApart fun _ => allCallable) {} laterVM := by
    decide +kernel
  exact ⟨hmeet, by decide +kernel, contexts_isolated (fun _ => allCallable) laterVM hmeet⟩

end EnvoyGo.Wasm

import EnvoyGo.WasmStreams

/-!
The instance a root VM runs its streams on.  A trap is to be the end of the instance, and a stream
is to stay on the instance it was made on.  `ReloadDispatch` swaps the instance under the open
streams, and it is armed by a trap of `proxy_on_request_headers` alone.
-/

namespace EnvoyGo.Wasm

open RootVM

variable {m : GuestModule} {s : RootVM}

def Entry.traps? : Entry → Option ℕ
  | .trap n => some n
  | _ => none

def Entry.runsOn? : Entry → Option ℕ
  | .guest _ n => some n
  | _ => none

def Entry.streamOn? : Entry → Option (ℕ × ℕ)
  | .guest (.stream i _) n => some (i, n)
  | _ => none

/-- Every callback of a context ran on the instance on which the context was made. -/
def RunsWhereMade (s : RootVM) : Prop :=
  ∀ a ∈ s.trace, ∀ p ∈ a.streamOn?, (s.streams[p.1]?).bind StreamContext.createdOn = some p.2

/-- No instance was entered after a trap on it. -/
def NotAfterTrap (trace : List Entry) : Prop :=
  trace.Pairwise (fun a b => ∀ n ∈ a.traps?, b.runsOn? ≠ some n)

def Frame.arms : Frame → Bool
  | .stream _ .requestHeaders | .root .configure | .root .reload => true
  | _ => false

def Untrapped (s : RootVM) : Prop := s.reload = .running ∧ s.unnoted = 0

instance (s : RootVM) : Decidable (Untrapped s) := inferInstanceAs (Decidable (_ ∧ _))

def addressee? (s : RootVM) (k : ℕ) : Option StreamContext :=
  (s.responders[k]?).bind (fun r =>
    match r.pos with
    | .resolved i => s.streams[i]?
    | _ => none)

/-- The guest traps only where the trap is acted upon; until the reload nobody enters it; the
instance is swapped when no context made on it is open; a response goes to a context that has been
made. -/
def KeepsInstance (m : GuestModule) (s : RootVM) : Event → Prop
  | .createContext i =>
    s.running = none → m.callable Callback.contextCreate.guestExport = true →
      ∀ sc ∈ s.streams[i]?, sc.createdOn = none → Untrapped s
  | .callback i cb =>
    s.running = none → m.callable cb.guestExport = true →
      ∀ sc ∈ s.streams[i]?, sc.closed = false → Untrapped s
  | .close i =>
    s.running = none → ∀ sc ∈ s.streams[i]?, ∀ p ∈ sc.closeAt.callback?,
      m.callable p.1.guestExport = true → Untrapped s
  | .respond k =>
    s.running = none → m.callable (Callback.httpCallResponse 0).guestExport = true →
      ∀ sc ∈ addressee? s k, sc.closed = false → Untrapped s ∧ sc.createdOn ≠ none
  | .tick => s.running = none → m.callable "proxy_on_tick" = true → Untrapped s
  | .guestReturns true => ∀ f ∈ s.running, f.arms = true
  | .reloadDispatch true true =>
    s.running = none → s.reload = .failed →
      ∀ sc ∈ s.streams, sc.createdOn ≠ none → sc.closed = true
  | _ => True

instance (m : GuestModule) (s : RootVM) : ∀ e, Decidable (KeepsInstance m s e)
  | .createContext i =>
    inferInstanceAs (Decidable (_ → _ → ∀ sc ∈ s.streams[i]?, _ → Untrapped s))
  | .callback i _ => inferInstanceAs (Decidable (_ → _ → ∀ sc ∈ s.streams[i]?, _ → Untrapped s))
  | .close i => inferInstanceAs (Decidable (_ → ∀ sc ∈ s.streams[i]?,
      ∀ p ∈ sc.closeAt.callback?, m.callable p.1.guestExport = true → Untrapped s))
  | .respond k => inferInstanceAs (Decidable (_ → _ → ∀ sc ∈ addressee? s k, _ → Untrapped s ∧ _))
  | .tick => inferInstanceAs (Decidable (_ → _ → Untrapped s))
  | .guestReturns true => inferInstanceAs (Decidable (∀ f ∈ s.running, f.arms = true))
  | .reloadDispatch true true => inferInstanceAs (Decidable (_ → _ → ∀ sc ∈ s.streams,
      sc.createdOn ≠ none → sc.closed = true))
  | .newStream | .register _ | .unregister _ | .httpCall | .takeToken _ | .resolve _
  | .setEffectiveContext _ | .access | .guestReturns false | .noteRuntimeError
  | .reloadDispatch false _ | .reloadDispatch true false => inferInstanceAs (Decidable True)

structure Machine where
  inst : Option ℕ
  instances : ℕ
  reload : ReloadState
  unnoted : ℕ
  published : Bool

def RootVM.machine (s : RootVM) : Machine := ⟨s.inst, s.instances, s.reload, s.unnoted, s.published⟩

def Machine.returned (v : Machine) (trap : Bool) : Frame → Machine
  | .stream _ .requestHeaders => if trap then { v with unnoted := v.unnoted + 1 } else v
  | .stream _ _ | .root .tick => v
  | .root .configure => if trap then v else { v with published := true }
  | .root .reload => { v with reload := if trap then .failed else .running }

inductive MachineMoved (s : RootVM) : Event → Machine → Prop
  | same (e : Event) : MachineMoved s e s.machine
  | returned (f : Frame) (trap : Bool) (running : s.running = some f) :
      MachineMoved s (.guestReturns trap) (s.machine.returned trap f)
  | noted (unnoted : 0 < s.unnoted) :
      MachineMoved s .noteRuntimeError
        { s.machine with unnoted := s.unnoted - 1, reload := .failed }
  | gone (failed : s.reload = .failed) :
      MachineMoved s (.reloadDispatch true false) { s.machine with inst := none }
  | reloaded (running : s.running = none) (failed : s.reload = .failed) :
      MachineMoved s (.reloadDispatch true true)
        { s.machine with inst := some s.instances, instances := s.instances + 1 }

theorem machine_dispatchGuest (m : GuestModule) (s : RootVM) (i : ℕ) (sc : StreamContext)
    (cb : Callback) : (s.dispatchGuest m i sc cb).machine = s.machine := by
  unfold dispatchGuest
  split
  · rfl
  · split_ifs
    · rfl
    · rfl

theorem machine_guestReturns (s : RootVM) (trap : Bool) (f : Frame) :
    (s.guestReturns trap f).machine = s.machine.returned trap f := by
  cases f with
  | stream i cb =>
    cases cb with
    | contextCreate =>
      unfold guestReturns afterReturn
      dsimp only
      split_ifs
      · split
        · rfl
        · rfl
      · rfl
    | _ =>
      cases trap with
      | false => rfl
      | true => rfl
  | root cb =>
    cases cb with
    | _ =>
      cases trap with
      | false => rfl
      | true => rfl

theorem machine_step (m : GuestModule) (s : RootVM) (e : Event) :
    MachineMoved s e (step m s e).machine := by
  refine step_induct (P := fun t => MachineMoved s e t.machine) (.same e) fun t ht => ?_
  cases ht with
  | called i sc cb _ _ _ _ =>
    rw [machine_dispatchGuest]
    exact .same _
  | closing i sc cb next _ _ _ _ =>
    rw [machine_dispatchGuest]
    exact .same _
  | returned f trap hf =>
    rw [machine_guestReturns]
    exact .returned f trap hf
  | noted hunnoted => exact .noted hunnoted
  | gone hfailed => exact .gone hfailed
  | reloaded hrun _ hfailed => exact .reloaded hrun hfailed
  | _ => exact .same _

/-- Made contexts that are open are on the current instance, and a trapped instance is out of use
until the reload. -/
structure OnOneInstance (s : RootVM) : Prop where
  made : ∀ (i : ℕ) (sc : StreamContext) (n : ℕ), s.streams[i]? = some sc →
    sc.createdOn = some n → sc.closed = false → ∀ n' ∈ s.inst, n' = n
  current : ∀ n, s.inst = some n → n < s.instances
  past : ∀ n, Entry.trap n ∈ s.trace → n < s.instances
  trapped : ∀ n, s.inst = some n → Entry.trap n ∈ s.trace →
    s.running = none ∧ (s.published = true → s.reload = .failed ∨ 0 < s.unnoted)
  unpublished : s.published = false → s.streams = []
  configuring : s.running = some (.root .configure) → s.published = false

variable {i n : ℕ} {sc : StreamContext} {e : Event} {f : Frame}

theorem OnOneInstance.published_of_stream (h : OnOneInstance s) (hsc : s.streams[i]? = some sc) :
    s.published = true := by
  cases hp : s.published with
  | true => rfl
  | false =>
    rw [h.unpublished hp] at hsc
    cases hsc

theorem OnOneInstance.clean (h : OnOneInstance s) (hinst : s.inst = some n)
    (hpub : s.published = true) (hu : Untrapped s) : Entry.trap n ∉ s.trace := by
  intro htrap
  rcases (h.trapped n hinst htrap).2 hpub with hfailed | hunnoted
  · rw [hu.1] at hfailed
    cases hfailed
  · rw [hu.2] at hunnoted
    exact Nat.lt_irrefl 0 hunnoted

theorem addressee_of_resolved {k : ℕ} {r : Responder} (hr : s.responders[k]? = some r)
    (hpos : r.pos = .resolved i) (hsc : s.streams[i]? = some sc) : addressee? s k = some sc := by
  rw [addressee?, hr, Option.bind_some, hpos]
  exact hsc

theorem clean_of_noted (h : OnOneInstance s) (hok : KeepsInstance m s e)
    (hnoted : Noted m s e [.guest f n]) : Entry.trap n ∉ s.trace := by
  cases hnoted with
  | created i sc _ hrun hsc hfresh hinst hcall =>
    exact h.clean hinst (h.published_of_stream hsc) (hok hrun hcall sc hsc hfresh)
  | called i sc cb _ hrun hsc husable hclosed hinst hfilter hcall =>
    exact h.clean hinst (h.published_of_stream hsc) (hok hrun hcall sc hsc hclosed)
  | closing i sc cb next _ hrun hsc husable hclosed hinst hpos hcall =>
    exact h.clean hinst (h.published_of_stream hsc) (hok hrun sc hsc (cb, next) hpos hcall)
  | responded k r i sc _ hrun hr hpos hsc hclosed hinst hcall =>
    have hto := hok hrun hcall sc (addressee_of_resolved hr hpos hsc) hclosed
    exact h.clean hinst (h.published_of_stream hsc) hto.1
  | ticked _ hrun hpub hinst hcall => exact h.clean hinst hpub (hok hrun hcall)
  | reloaded => exact fun htrap => Nat.lt_irrefl _ (h.past _ htrap)

theorem made_of_noted {cb : Callback} (hlives : Lives s) (h : OnOneInstance s)
    (hok : KeepsInstance m s e) (hnoted : Noted m s e [.guest (.stream i cb) n]) :
    ∃ sc, s.streams[i]? = some sc ∧ (sc.createdOn = some n ∨
      (e = .createContext i ∧ s.running = none ∧ sc.createdOn = none ∧ s.inst = some n)) := by
  have hsame : ∀ sc : StreamContext, s.streams[i]? = some sc → sc.createdOn ≠ none →
      sc.closed = false → s.inst = some n → sc.createdOn = some n := by
    intro sc hsc hne hclosed hinst
    obtain ⟨n', hn'⟩ := Option.ne_none_iff_exists'.mp hne
    rw [hn', h.made i sc n' hsc hn' hclosed n hinst]
  cases hnoted with
  | created _ sc _ hrun hsc hfresh hinst => exact ⟨sc, hsc, Or.inr ⟨rfl, hrun, hfresh, hinst⟩⟩
  | called _ sc _ _ hrun hsc husable hclosed hinst hfilter =>
    have hne := (hlives.ordered i sc hsc).made husable
    exact ⟨sc, hsc, Or.inl (hsame sc hsc hne hclosed hinst)⟩
  | closing _ sc _ next _ hrun hsc husable hclosed hinst hpos =>
    have hne := (hlives.ordered i sc hsc).made husable
    exact ⟨sc, hsc, Or.inl (hsame sc hsc hne hclosed hinst)⟩
  | responded k r _ sc _ hrun hr hpos hsc hclosed hinst hcall =>
    have hto := hok hrun hcall sc (addressee_of_resolved hr hpos hsc) hclosed
    exact ⟨sc, hsc, Or.inl (hsame sc hsc hto.2 hclosed hinst)⟩

theorem Changed.createdOn_kept {sc' : StreamContext} (h : Changed s i sc e sc')
    (hon : sc.createdOn = some n) : sc'.createdOn = some n := by
  cases h with
  | created n' hrun hfresh | createdQuietly n' hrun hfresh =>
    rw [hon] at hfresh
    cases hfresh
  | _ => exact hon

theorem createdOn_step (m : GuestModule) (e : Event)
    (h : (s.streams[i]?).bind StreamContext.createdOn = some n) :
    ((step m s e).streams[i]?).bind StreamContext.createdOn = some n := by
  obtain ⟨sc, hsc, hon⟩ := Option.bind_eq_some_iff.mp h
  have hlt := (List.getElem?_eq_some_iff.mp hsc).1
  have hlt' := Nat.lt_of_lt_of_le hlt (length_step m s e)
  obtain ⟨sc', hsc'⟩ : ∃ sc', (step m s e).streams[i]? = some sc' :=
    ⟨_, List.getElem?_eq_getElem hlt'⟩
  rw [hsc', Option.bind_some]
  rcases stream_step hsc' with ⟨sc0, hsc0, hch⟩ | ⟨-, heq, -⟩
  · rw [hsc] at hsc0
    obtain rfl := Option.some.inj hsc0
    exact hch.createdOn_kept hon
  · omega

theorem runsWhereMade_step (hlives : Lives s) (hone : OnOneInstance s) (hok : KeepsInstance m s e)
    (h : RunsWhereMade s) : RunsWhereMade (step m s e) := by
  intro a ha p hp
  obtain ⟨new, hnoted, htrace, -⟩ := shows_step m s e
  rw [htrace, List.mem_append] at ha
  rcases ha with ha | ha
  · exact createdOn_step m e (h a ha p hp)
  · cases a with
    | guest f n =>
      cases f with
      | stream i cb =>
        obtain rfl := Option.some.inj hp
        have hnew : new = [.guest (.stream i cb) n] := by
          cases hnoted with
          | nothing => cases ha
          | _ => rw [List.mem_singleton.mp ha]
        rw [hnew] at hnoted
        obtain ⟨sc, hsc, hon | ⟨rfl, hrun, hfresh, hinst⟩⟩ :=
          made_of_noted hlives hone hok hnoted
        · apply createdOn_step
          rw [hsc, Option.bind_some, hon]
        · obtain ⟨sc', hsc', hon⟩ := createdOn_next (m := m) hsc hrun hfresh hinst
          rw [hsc', Option.bind_some, hon]
      | root cb => cases hp
    | trap n => cases hp
    | access f reached => cases hp

theorem Changed.made_before {sc' : StreamContext} (h : Changed s i sc e sc')
    (hon : sc'.createdOn = some n) (hclosed : sc'.closed = false) :
    (sc.createdOn = some n ∧ sc.closed = false) ∨ (e = .createContext i ∧ s.inst = some n) := by
  cases h with
  | created n' hrun hfresh hinst | createdQuietly n' hrun hfresh hinst =>
    obtain rfl := Option.some.inj hon
    exact Or.inr ⟨rfl, hinst⟩
  | flagged => cases hclosed
  | _ => exact Or.inl ⟨hon, hclosed⟩

theorem running_guestReturns (trap : Bool) (hf : s.running = some f) :
    (step m s (.guestReturns trap)).running = none := by
  simp only [step, hf]
  unfold guestReturns
  exact (trace_afterReturn _ trap f).2

theorem Machine.inst_returned (v : Machine) (trap : Bool) (f : Frame) :
    (v.returned trap f).inst = v.inst ∧ (v.returned trap f).instances = v.instances := by
  unfold Machine.returned
  split
  · split_ifs
    · exact ⟨rfl, rfl⟩
    · exact ⟨rfl, rfl⟩
  · exact ⟨rfl, rfl⟩
  · exact ⟨rfl, rfl⟩
  · split_ifs
    · exact ⟨rfl, rfl⟩
    · exact ⟨rfl, rfl⟩
  · exact ⟨rfl, rfl⟩

theorem inst_step (m : GuestModule) (s : RootVM) (e : Event) :
    ((step m s e).inst = s.inst ∧ (step m s e).instances = s.instances) ∨
      ((step m s e).inst = none ∧ (step m s e).instances = s.instances) ∨
      (e = .reloadDispatch true true ∧ s.running = none ∧ s.reload = .failed ∧
        (step m s e).inst = some s.instances ∧ (step m s e).instances = s.instances + 1) := by
  have hmoved := machine_step m s e
  generalize hv : (step m s e).machine = v at hmoved
  have hinst : (step m s e).inst = v.inst := congrArg Machine.inst hv
  have hcount : (step m s e).instances = v.instances := congrArg Machine.instances hv
  rw [hinst, hcount]
  cases hmoved with
  | same => exact Or.inl ⟨rfl, rfl⟩
  | returned f trap hf => exact Or.inl (Machine.inst_returned s.machine trap f)
  | noted => exact Or.inl ⟨rfl, rfl⟩
  | gone => exact Or.inr (Or.inl ⟨rfl, rfl⟩)
  | reloaded hrun hfailed => exact Or.inr (Or.inr ⟨rfl, hrun, hfailed, rfl, rfl⟩)

theorem made_step (h : OnOneInstance s) (hok : KeepsInstance m s e) {sc' : StreamContext}
    (hsc' : (step m s e).streams[i]? = some sc') (hon : sc'.createdOn = some n)
    (hclosed : sc'.closed = false) : ∀ n' ∈ (step m s e).inst, n' = n := by
  intro n' hn'
  rcases stream_step hsc' with ⟨sc, hsc, hch⟩ | ⟨-, -, rfl⟩
  · rcases inst_step m s e with ⟨hinst, -⟩ | ⟨hinst, -⟩ | ⟨rfl, hrun, hfailed, -, -⟩
    · rw [hinst] at hn'
      rcases hch.made_before hon hclosed with ⟨hon, hclosed⟩ | ⟨-, hnow⟩
      · exact h.made i sc n hsc hon hclosed n' hn'
      · exact Option.some.inj (hn'.symm.trans hnow)
    · rw [hinst] at hn'
      cases hn'
    · rcases hch.made_before hon hclosed with ⟨hon, hclosed⟩ | ⟨he, -⟩
      · have hdown := hok hrun hfailed sc (List.mem_of_getElem? hsc) (by simp [hon])
        rw [hclosed] at hdown
        cases hdown
      · cases he
  · cases hon

theorem current_step (e : Event) (h : OnOneInstance s) (hn : (step m s e).inst = some n) :
    n < (step m s e).instances := by
  rcases inst_step m s e with ⟨hinst, hcount⟩ | ⟨hinst, -⟩ | ⟨-, -, -, hinst, hcount⟩
  · rw [hcount]
    exact h.current n (hinst.symm.trans hn)
  · rw [hinst] at hn
    cases hn
  · rw [hinst] at hn
    rw [hcount, ← Option.some.inj hn]
    exact Nat.lt_succ_self _

theorem trap_step (h : Entry.trap n ∈ (step m s e).trace) :
    Entry.trap n ∈ s.trace ∨
      ∃ f, e = .guestReturns true ∧ s.running = some f ∧ s.inst = some n := by
  obtain ⟨new, hnoted, htrace, -⟩ := shows_step m s e
  rw [htrace, List.mem_append] at h
  rcases h with h | h
  · exact Or.inl h
  · right
    cases hnoted with
    | nothing => cases h
    | trapped f n' hf hinst =>
      obtain rfl : n = n' := Entry.trap.inj (List.mem_singleton.mp h)
      exact ⟨f, rfl, hf, hinst⟩
    | _ => cases List.mem_singleton.mp h

theorem past_step (e : Event) (h : OnOneInstance s) (hn : Entry.trap n ∈ (step m s e).trace) :
    n < (step m s e).instances := by
  have hlt : n < s.instances := by
    rcases trap_step hn with hn | ⟨f, -, -, hinst⟩
    · exact h.past n hn
    · exact h.current n hinst
  rcases inst_step m s e with ⟨-, hcount⟩ | ⟨-, hcount⟩ | ⟨-, -, -, -, hcount⟩
  · rw [hcount]
    exact hlt
  · rw [hcount]
    exact hlt
  · rw [hcount]
    exact Nat.lt_succ_of_lt hlt

theorem published_step (m : GuestModule) (s : RootVM) (e : Event) :
    (step m s e).published = s.published ∨
      (s.running = some (.root .configure) ∧ (step m s e).running = none ∧
        (step m s e).published = true) := by
  have hmoved := machine_step m s e
  generalize hv : (step m s e).machine = v at hmoved
  have hpub : (step m s e).published = v.published := congrArg Machine.published hv
  rw [hpub]
  cases hmoved with
  | returned f trap hf =>
    have hnone := running_guestReturns (m := m) trap hf
    unfold Machine.returned
    split
    · split_ifs
      · exact Or.inl rfl
      · exact Or.inl rfl
    · exact Or.inl rfl
    · exact Or.inl rfl
    · split_ifs
      · exact Or.inl rfl
      · exact Or.inr ⟨hf, hnone, rfl⟩
    · exact Or.inl rfl
  | _ => exact Or.inl rfl

theorem unpublished_step (e : Event) (h : OnOneInstance s)
    (hpub : (step m s e).published = false) : (step m s e).streams = [] := by
  have hbefore : s.published = false := by
    rcases published_step m s e with hsame | ⟨-, -, htrue⟩
    · exact hsame.symm.trans hpub
    · rw [htrue] at hpub
      cases hpub
  have hnone := h.unpublished hbefore
  have hmoved := streams_step m s e
  generalize (step m s e).streams = streams at hmoved
  cases hmoved with
  | same => exact hnone
  | moved _ j sc sc' hsc hch =>
    rw [hnone] at hsc
    cases hsc
  | grown htrue =>
    rw [htrue] at hbefore
    cases hbefore

theorem configuring_step (e : Event) (h : OnOneInstance s)
    (hrun : (step m s e).running = some (.root .configure)) : (step m s e).published = false := by
  rcases running_step hrun with hbefore | ⟨n, hnoted⟩
  · rcases published_step m s e with hsame | ⟨-, hnone, -⟩
    · exact hsame.trans (h.configuring hbefore)
    · rw [hnone] at hrun
      cases hrun
  · cases hnoted

theorem armed_of_trap (h : OnOneInstance s) (hf : s.running = some f) (harms : f.arms = true)
    (hpub : (step m s (.guestReturns true)).published = true) :
    (step m s (.guestReturns true)).reload = .failed ∨
      0 < (step m s (.guestReturns true)).unnoted := by
  have hv : (step m s (.guestReturns true)).machine = s.machine.returned true f := by
    simp only [step, hf]
    exact machine_guestReturns s true f
  have hpub' := congrArg Machine.published hv
  have hreload := congrArg Machine.reload hv
  have hunnoted := congrArg Machine.unnoted hv
  cases f with
  | stream i cb =>
    cases cb with
    | requestHeaders =>
      right
      exact Nat.lt_of_lt_of_eq (Nat.succ_pos _) hunnoted.symm
    | _ => cases harms
  | root cb =>
    cases cb with
    | configure =>
      have hfalse : (step m s (.guestReturns true)).published = false :=
        hpub'.trans (h.configuring hf)
      rw [hfalse] at hpub
      cases hpub
    | reload => exact Or.inl hreload
    | tick => cases harms

theorem inst_of_noted (h : Noted m s e [.guest f n]) :
    s.inst = some n ∨ (n = s.instances ∧ (step m s e).inst = some n) := by
  cases h with
  | reloaded hrun hpub hfailed =>
    refine Or.inr ⟨rfl, ?_⟩
    simp only [step, reloadDispatch, hfailed]
    rw [if_pos ⟨hrun, hpub⟩]
    rfl
  | created _ _ _ _ _ _ hinst | called _ _ _ _ _ _ _ _ hinst | closing _ _ _ _ _ _ _ _ _ hinst
  | responded _ _ _ _ _ _ _ _ _ _ hinst | ticked _ _ _ hinst => exact Or.inl hinst

theorem running_none_of_trap (h : OnOneInstance s) (hok : KeepsInstance m s e)
    (hinst : (step m s e).inst = some n) (htrap : Entry.trap n ∈ s.trace) :
    s.inst = some n ∧ (step m s e).running = none := by
  have hsame : s.inst = some n := by
    rcases inst_step m s e with ⟨heq, -⟩ | ⟨heq, -⟩ | ⟨-, -, -, heq, -⟩
    · exact heq.symm.trans hinst
    · rw [heq] at hinst
      cases hinst
    · rw [heq] at hinst
      have hlt := h.past n htrap
      rw [Option.some.inj hinst] at hlt
      exact absurd hlt (Nat.lt_irrefl n)
  refine ⟨hsame, ?_⟩
  cases hrun : (step m s e).running with
  | none => rfl
  | some f =>
    rcases running_step hrun with hbefore | ⟨n', hnoted⟩
    · rw [(h.trapped n hsame htrap).1] at hbefore
      cases hbefore
    · have hclean := clean_of_noted h hok hnoted
      rcases inst_of_noted hnoted with hn' | ⟨-, hn'⟩
      · rw [hsame] at hn'
        rw [← Option.some.inj hn'] at hclean
        exact absurd htrap hclean
      · rw [hinst] at hn'
        rw [← Option.some.inj hn'] at hclean
        exact absurd htrap hclean

theorem trapped_step (h : OnOneInstance s) (hok : KeepsInstance m s e)
    (hinst : (step m s e).inst = some n) (htrap : Entry.trap n ∈ (step m s e).trace) :
    (step m s e).running = none ∧ ((step m s e).published = true →
      (step m s e).reload = .failed ∨ 0 < (step m s e).unnoted) := by
  rcases trap_step htrap with hold | ⟨f, rfl, hf, -⟩
  · obtain ⟨hsame, hnone⟩ := running_none_of_trap h hok hinst hold
    obtain ⟨hbefore, harmed⟩ := h.trapped n hsame hold
    refine ⟨hnone, ?_⟩
    have hmoved := machine_step m s e
    generalize hv : (step m s e).machine = v at hmoved
    have hpub : (step m s e).published = v.published := congrArg Machine.published hv
    have hreload : (step m s e).reload = v.reload := congrArg Machine.reload hv
    have hunnoted : (step m s e).unnoted = v.unnoted := congrArg Machine.unnoted hv
    rw [hpub, hreload, hunnoted]
    cases hmoved with
    | returned f trap hf =>
      rw [hbefore] at hf
      cases hf
    | noted => exact fun _ => Or.inl rfl
    | _ => exact harmed
  · exact ⟨running_guestReturns true hf, armed_of_trap h hf (hok f hf)⟩

theorem onOneInstance_step (h : OnOneInstance s) (hok : KeepsInstance m s e) :
    OnOneInstance (step m s e) where
  made _ _ _ := made_step h hok
  current _ := current_step e h
  past _ := past_step e h
  trapped _ := trapped_step h hok
  unpublished := unpublished_step e h
  configuring := configuring_step e h

theorem notAfterTrap_step (hone : OnOneInstance s) (hok : KeepsInstance m s e)
    (h : NotAfterTrap s.trace) : NotAfterTrap (step m s e).trace := by
  obtain ⟨new, hnoted, htrace, -⟩ := shows_step m s e
  have hself : new.Pairwise (fun a b => ∀ n ∈ a.traps?, b.runsOn? ≠ some n) := by
    cases hnoted with
    | nothing => exact List.Pairwise.nil
    | _ => exact List.pairwise_singleton _ _
  rw [htrace]
  refine List.pairwise_append.mpr ⟨h, hself, ?_⟩
  intro a ha b hb n htrap hon
  cases a with
  | trap n' =>
    obtain rfl := Option.some.inj htrap
    cases b with
    | guest f n =>
      obtain rfl := Option.some.inj hon
      have hnew : new = [.guest f n] := by
        cases hnoted with
        | nothing => cases hb
        | _ => rw [List.mem_singleton.mp hb]
      rw [hnew] at hnoted
      exact clean_of_noted hone hok hnoted ha
    | _ => cases hon
  | _ => cases htrap

theorem onOneInstance_new (rootCtxID : ℕ) : OnOneInstance (newRootVM rootCtxID) where
  made := nofun
  current n hn := by
    obtain rfl := Option.some.inj hn
    exact Nat.zero_lt_one
  past n hn := by cases List.mem_singleton.mp hn
  trapped n _ hn := by cases List.mem_singleton.mp hn
  unpublished _ := rfl
  configuring _ := rfl

/-- In every run in which the guest traps only where the trap is acted upon, nobody enters it
between such a trap and the reload, the instance is swapped only when no context made on it is
open, and a response goes to a context that has been made, every callback of a context runs on the
instance the context was made on, and nothing runs on an instance after a trap on it. -/
theorem instance_kept (m : GuestModule) (rootCtxID : ℕ) (es : List Event)
    (hes : Runs.StepsMeet (step m) (KeepsInstance m) (newRootVM rootCtxID) es) :
    RunsWhereMade (es.foldl (step m) (newRootVM rootCtxID)) ∧
      NotAfterTrap (es.foldl (step m) (newRootVM rootCtxID)).trace := by
  have hstep : ∀ s e, KeepsInstance m s e →
      Lives s ∧ OnOneInstance s ∧ RunsWhereMade s ∧ NotAfterTrap s.trace →
      Lives (step m s e) ∧ OnOneInstance (step m s e) ∧ RunsWhereMade (step m s e) ∧
        NotAfterTrap (step m s e).trace := by
    rintro s e hok ⟨hlives, hone, hmade, htrap⟩
    exact ⟨lives_step e hlives, onOneInstance_step hone hok,
      runsWhereMade_step hlives hone hok hmade, notAfterTrap_step hone hok htrap⟩
  have hstart : Lives (newRootVM rootCtxID) ∧ OnOneInstance (newRootVM rootCtxID) ∧
      RunsWhereMade (newRootVM rootCtxID) ∧ NotAfterTrap (newRootVM rootCtxID).trace := by
    refine ⟨lives_new rootCtxID, onOneInstance_new rootCtxID, ?_, List.pairwise_singleton _ _⟩
    intro a ha p hp
    obtain rfl := List.mem_singleton.mp ha
    cases hp
  have hend := Runs.invariant_of_steps hstep es _ hstart hes
  exact ⟨hend.2.2.1, hend.2.2.2⟩

/-- Two streams are open when one traps; the other goes on, before and after the reload. -/
def trapUnderStreams : List Event :=
  [.guestReturns false, .reloadDispatch false false, .reloadDispatch false false, .newStream,
    .newStream, .createContext 0, .guestReturns false, .createContext 1, .guestReturns false,
    .callback 0 .requestHeaders, .guestReturns true, .noteRuntimeError,
    .callback 1 .responseHeaders, .guestReturns false, .reloadDispatch true true,
    .guestReturns false, .callback 1 .responseBody]

/-- The stream that traps is the only one, and is closed before the reload. -/
def trapAlone : List Event :=
  [.guestReturns false, .reloadDispatch false false, .newStream, .createContext 0,
    .guestReturns false, .callback 0 .requestHeaders, .guestReturns true, .noteRuntimeError,
    .close 0, .close 0, .reloadDispatch true true, .guestReturns false, .newStream,
    .createContext 1, .guestReturns false, .callback 1 .requestHeaders, .guestReturns false]

theorem swapped_under_streams :
    ¬ RunsWhereMade (trapUnderStreams.foldl (step allCallable) (newRootVM 1)) ∧
      ¬ NotAfterTrap (trapUnderStreams.foldl (step allCallable) (newRootVM 1)).trace := by
  unfold RunsWhereMade NotAfterTrap
  decide +kernel

theorem swapped_between_streams :
    Runs.StepsMeet (step allCallable) (KeepsInstance allCallable) (newRootVM 1) trapAlone ∧
      Entry.guest (.stream 1 .requestHeaders) 1 ∈
        (trapAlone.foldl (step allCallable) (newRootVM 1)).trace ∧
      NotAfterTrap (trapAlone.foldl (step allCallable) (newRootVM 1)).trace := by
  have hmeet : Runs.StepsMeet (step allCallable) (KeepsInstance allCallable) (newRootVM 1)
      trapAlone := by
    decide +kernel
  exact ⟨hmeet, by decide +kernel, (instance_kept allCallable 1 _ hmeet).2⟩

end EnvoyGo.Wasm

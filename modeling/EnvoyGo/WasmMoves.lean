import EnvoyGo.WasmRootVM

/-!
What a step of a root VM can do, once for all: what it adds to the trace, and how it changes one
stream context.
-/

namespace EnvoyGo.Wasm

open RootVM

variable {m : GuestModule} {s : RootVM}

def CloseAt.callback? : CloseAt → Option (Callback × CloseAt)
  | .atDone => some (.done, .atLog)
  | .atLog => some (.log, .atDelete)
  | .atDelete => some (.delete, .atFlag)
  | _ => none

inductive Noted (m : GuestModule) (s : RootVM) : Event → List Entry → Prop
  | nothing (e : Event) : Noted m s e []
  | created (i : ℕ) (sc : StreamContext) (n : ℕ) (running : s.running = none)
      (stream : s.streams[i]? = some sc) (fresh : sc.createdOn = none) (inst : s.inst = some n)
      (callable : m.callable Callback.contextCreate.guestExport = true) :
      Noted m s (.createContext i) [.guest (.stream i .contextCreate) n]
  | called (i : ℕ) (sc : StreamContext) (cb : Callback) (n : ℕ) (running : s.running = none)
      (stream : s.streams[i]? = some sc) (usable : sc.usable = true) (closed : sc.closed = false)
      (inst : s.inst = some n) (filter : cb.ofFilter = true)
      (callable : m.callable cb.guestExport = true) :
      Noted m s (.callback i cb) [.guest (.stream i cb) n]
  | closing (i : ℕ) (sc : StreamContext) (cb : Callback) (next : CloseAt) (n : ℕ)
      (running : s.running = none) (stream : s.streams[i]? = some sc) (usable : sc.usable = true)
      (closed : sc.closed = false) (inst : s.inst = some n)
      (pos : sc.closeAt.callback? = some (cb, next))
      (callable : m.callable cb.guestExport = true) :
      Noted m s (.close i) [.guest (.stream i cb) n]
  | responded (k : ℕ) (r : Responder) (i : ℕ) (sc : StreamContext) (n : ℕ)
      (running : s.running = none) (responder : s.responders[k]? = some r)
      (pos : r.pos = .resolved i) (stream : s.streams[i]? = some sc) (closed : sc.closed = false)
      (inst : s.inst = some n)
      (callable : m.callable (Callback.httpCallResponse r.callID).guestExport = true) :
      Noted m s (.respond k) [.guest (.stream i (.httpCallResponse r.callID)) n]
  | ticked (n : ℕ) (running : s.running = none) (published : s.published = true)
      (inst : s.inst = some n) (callable : m.callable "proxy_on_tick" = true) :
      Noted m s .tick [.guest (.root .tick) n]
  | reloaded (running : s.running = none) (published : s.published = true)
      (failed : s.reload = .failed) :
      Noted m s (.reloadDispatch true true) [.guest (.root .reload) s.instances]
  | accessed (f : Frame) (running : s.running = some f) :
      Noted m s .access [.access f s.lookup]
  | trapped (f : Frame) (n : ℕ) (running : s.running = some f) (inst : s.inst = some n) :
      Noted m s (.guestReturns true) [.trap n]

def Holder (s t : RootVM) (new : List Entry) : Prop :=
  t.running = s.running ∨ t.running = none ∨ ∃ f n, new = [.guest f n] ∧ t.running = some f

def Shows (m : GuestModule) (s : RootVM) (e : Event) (t : RootVM) : Prop :=
  ∃ new, Noted m s e new ∧ t.trace = s.trace ++ new ∧ Holder s t new

variable {e : Event} {t : RootVM} {i : ℕ} {sc : StreamContext}

inductive Fires (m : GuestModule) (s : RootVM) : Event → RootVM → Prop
  | newStream (published : s.published = true) (admitted : 0 < s.admitted) :
      Fires m s .newStream s.newStream
  | createLost (i id : ℕ) : Fires m s (.createContext i)
      { s with streamCtxs := Function.update s.streamCtxs id none }
  | created (i : ℕ) (sc : StreamContext) (n : ℕ) (running : s.running = none)
      (stream : s.streams[i]? = some sc) (fresh : sc.createdOn = none) (inst : s.inst = some n)
      (callable : m.callable Callback.contextCreate.guestExport = true) :
      Fires m s (.createContext i)
        ((s.setStream i (fun sc => { sc with createdOn := some n })).enter
          (.stream i .contextCreate) sc.streamCtxID n)
  | createdQuietly (i : ℕ) (sc : StreamContext) (n : ℕ) (running : s.running = none)
      (stream : s.streams[i]? = some sc) (fresh : sc.createdOn = none) (inst : s.inst = some n) :
      Fires m s (.createContext i)
        { s.setStream i (fun sc => { sc with createdOn := some n, usable := true }) with
          currentCtxID := sc.streamCtxID }
  | registered (i : ℕ) (sc : StreamContext) (stream : s.streams[i]? = some sc) :
      Fires m s (.register i)
        { s with perCB := Function.update s.perCB sc.streamCtxID (some i) }
  | unregistered (i id : ℕ) :
      Fires m s (.unregister i) { s with perCB := Function.update s.perCB id none }
  | called (i : ℕ) (sc : StreamContext) (cb : Callback) (running : s.running = none)
      (stream : s.streams[i]? = some sc) (usable : sc.usable = true)
      (filter : cb.ofFilter = true) : Fires m s (.callback i cb) (s.dispatchGuest m i sc cb)
  | closeCalled (i : ℕ) (sc : StreamContext) (stream : s.streams[i]? = some sc)
      (usable : sc.usable = true) (pos : sc.closeAt = .notCalled) : Fires m s (.close i)
        (s.setStream i fun sc => { sc with closeAt := if sc.trapped then .atFlag else .atDone })
  | closing (i : ℕ) (sc : StreamContext) (cb : Callback) (next : CloseAt)
      (running : s.running = none) (stream : s.streams[i]? = some sc) (usable : sc.usable = true)
      (pos : sc.closeAt.callback? = some (cb, next)) : Fires m s (.close i)
        ((s.setStream i fun sc => { sc with closeAt := next }).dispatchGuest m i sc cb)
  | flagged (i : ℕ) (sc : StreamContext) (stream : s.streams[i]? = some sc)
      (usable : sc.usable = true) (pos : sc.closeAt = .atFlag)
      (running : s.running ≠ some (.stream i .delete)) : Fires m s (.close i)
        (s.setStream i fun sc => { sc with closed := true, closeAt := .atUnmap })
  | unmapped (i : ℕ) (sc : StreamContext) (stream : s.streams[i]? = some sc)
      (usable : sc.usable = true) (pos : sc.closeAt = .atUnmap) : Fires m s (.close i)
        { s.setStream i (fun sc => { sc with closeAt := .atCancel }) with
          streamCtxs := Function.update s.streamCtxs sc.streamCtxID none }
  | canceled (i : ℕ) (sc : StreamContext) (stream : s.streams[i]? = some sc)
      (usable : sc.usable = true) (pos : sc.closeAt = .atCancel) : Fires m s (.close i)
        { s.setStream i (fun sc => { sc with closeAt := .finished }) with
          httpCalls := fun c =>
            if s.httpCalls c = some sc.streamCtxID then none else s.httpCalls c }
  | httpCall : Fires m s .httpCall s.dispatchHttpCall
  | tokenGone (k : ℕ) (r : Responder) (responder : s.responders[k]? = some r)
      (pos : r.pos = .inFlight) : Fires m s (.takeToken k) (s.setResponder k .finished)
  | tokenTaken (k : ℕ) (r : Responder) (id : ℕ) (responder : s.responders[k]? = some r)
      (pos : r.pos = .inFlight) : Fires m s (.takeToken k)
        { s.setResponder k (.token id) with
          httpCalls := Function.update s.httpCalls r.callID none }
  | resolved (k : ℕ) (r : Responder) (id : ℕ) (next : ResponderAt)
      (responder : s.responders[k]? = some r) (pos : r.pos = .token id) :
      Fires m s (.resolve k) (s.setResponder k next)
  | unanswered (k : ℕ) (r : Responder) (i : ℕ) (responder : s.responders[k]? = some r)
      (pos : r.pos = .resolved i) : Fires m s (.respond k) (s.setResponder k .finished)
  | responded (k : ℕ) (r : Responder) (i : ℕ) (sc : StreamContext) (n : ℕ)
      (running : s.running = none) (responder : s.responders[k]? = some r)
      (pos : r.pos = .resolved i) (stream : s.streams[i]? = some sc) (closed : sc.closed = false)
      (inst : s.inst = some n)
      (callable : m.callable (Callback.httpCallResponse r.callID).guestExport = true) :
      Fires m s (.respond k) ((s.setResponder k .finished).enter
        (.stream i (.httpCallResponse r.callID)) sc.streamCtxID n)
  | respondedQuietly (k : ℕ) (r : Responder) (i id : ℕ) (running : s.running = none)
      (responder : s.responders[k]? = some r) (pos : r.pos = .resolved i) :
      Fires m s (.respond k) { s.setResponder k .finished with currentCtxID := id }
  | ticked (n : ℕ) (running : s.running = none) (published : s.published = true)
      (inst : s.inst = some n) (callable : m.callable "proxy_on_tick" = true) :
      Fires m s .tick (s.enter (.root .tick) s.rootCtxID n)
  | tickedQuietly (running : s.running = none) :
      Fires m s .tick { s with currentCtxID := s.rootCtxID }
  | switched (id : ℕ) (callable : m.callable "proxy_set_effective_context" = true) :
      Fires m s (.setEffectiveContext id) { s with currentCtxID := id }
  | accessed (f : Frame) (running : s.running = some f) :
      Fires m s .access { s with trace := s.trace ++ [.access f s.lookup] }
  | returned (f : Frame) (trap : Bool) (running : s.running = some f) :
      Fires m s (.guestReturns trap) (s.guestReturns trap f)
  | noted (unnoted : 0 < s.unnoted) :
      Fires m s .noteRuntimeError { s with unnoted := s.unnoted - 1, reload := .failed }
  | served (elapsed instantiates : Bool) :
      Fires m s (.reloadDispatch elapsed instantiates) { s with admitted := s.admitted + 1 }
  | gone (failed : s.reload = .failed) :
      Fires m s (.reloadDispatch true false) { s with inst := none }
  | reloaded (running : s.running = none) (published : s.published = true)
      (failed : s.reload = .failed) : Fires m s (.reloadDispatch true true)
        (({ s with inst := some s.instances, instances := s.instances + 1 }).enter (.root .reload)
          s.rootCtxID s.instances)

theorem close_cases {sc : StreamContext} {i : ℕ} (hsc : s.streams[i]? = some sc)
    (husable : sc.usable = true) : close m s i sc = s ∨ Fires m s (.close i) (close m s i sc) := by
  unfold close
  split
  · exact .inr (.closeCalled i sc hsc husable ‹_›)
  · rename_i hpos
    split_ifs with hrun
    · exact .inr (.closing i sc .done .atLog hrun hsc husable (by rw [hpos]; rfl))
    · exact .inl rfl
  · rename_i hpos
    split_ifs with hrun
    · exact .inr (.closing i sc .log .atDelete hrun hsc husable (by rw [hpos]; rfl))
    · exact .inl rfl
  · rename_i hpos
    split_ifs with hrun
    · exact .inr (.closing i sc .delete .atFlag hrun hsc husable (by rw [hpos]; rfl))
    · exact .inl rfl
  · split_ifs with hrun
    · exact .inl rfl
    · exact .inr (.flagged i sc hsc husable ‹_› hrun)
  · exact .inr (.unmapped i sc hsc husable ‹_›)
  · exact .inr (.canceled i sc hsc husable ‹_›)
  · exact .inl rfl

theorem step_cases (m : GuestModule) (s : RootVM) (e : Event) :
    step m s e = s ∨ Fires m s e (step m s e) := by
  cases e with
  | newStream =>
    simp only [step]
    split_ifs with h
    · exact .inr (.newStream h.1 h.2)
    · exact .inl rfl
  | createContext i =>
    simp only [step, createContext]
    split
    · exact .inl rfl
    · rename_i sc hsc
      split_ifs with h hcall
      · split
        · exact .inr (.createLost i _)
        · exact .inr (.created i sc _ h.1 hsc h.2 ‹_› hcall)
      · split
        · exact .inr (.createLost i _)
        · exact .inr (.createdQuietly i sc _ h.1 hsc h.2 ‹_›)
      · exact .inl rfl
  | register i =>
    simp only [step]
    split
    · exact .inl rfl
    · split_ifs
      · exact .inr (.registered i _ ‹_›)
      · exact .inl rfl
  | unregister i =>
    simp only [step]
    split
    · exact .inl rfl
    · split_ifs
      · exact .inr (.unregistered i _)
      · exact .inl rfl
  | callback i cb =>
    simp only [step]
    split
    · exact .inl rfl
    · split_ifs with h
      · exact .inr (.called i _ cb h.1 ‹_› h.2.1 h.2.2)
      · exact .inl rfl
  | close i =>
    simp only [step]
    split
    · exact .inl rfl
    · split_ifs with h
      · exact close_cases ‹_› h
      · exact .inl rfl
  | httpCall =>
    simp only [step]
    split_ifs
    · exact .inl rfl
    · exact .inr .httpCall
  | takeToken k =>
    simp only [step, takeToken]
    split
    · exact .inl rfl
    · split_ifs with hpos
      · split
        · exact .inr (.tokenGone k _ ‹_› hpos)
        · exact .inr (.tokenTaken k _ _ ‹_› hpos)
      · exact .inl rfl
  | resolve k =>
    simp only [step, resolve]
    split
    · exact .inl rfl
    · split
      · split
        · exact .inr (.resolved k _ _ _ ‹_› ‹_›)
        · split
          · exact .inr (.resolved k _ _ _ ‹_› ‹_›)
          · split_ifs
            · exact .inr (.resolved k _ _ _ ‹_› ‹_›)
            · exact .inr (.resolved k _ _ _ ‹_› ‹_›)
      · exact .inl rfl
  | respond k =>
    simp only [step, respond]
    split
    · exact .inl rfl
    · rename_i r hr
      split
      · rename_i i hpos
        split
        · exact .inl rfl
        · rename_i sc hsc
          split_ifs with hrun hclosed hcall
          · split
            · exact .inr (.unanswered k r i hr hpos)
            · exact .inr (.unanswered k r i hr hpos)
          · have hopen : sc.closed = false := Bool.eq_false_iff.mpr hclosed
            split
            · exact .inr (.unanswered k r i hr hpos)
            · exact .inr (.responded k r i sc _ hrun hr hpos hsc hopen ‹_› hcall)
          · split
            · exact .inr (.unanswered k r i hr hpos)
            · exact .inr (.respondedQuietly k r i _ hrun hr hpos)
          · exact .inl rfl
      · exact .inl rfl
  | tick =>
    simp only [step, tick]
    split_ifs with h hcall
    · split
      · exact .inl rfl
      · exact .inr (.ticked _ h.1 h.2 ‹_› hcall)
    · split
      · exact .inl rfl
      · exact .inr (.tickedQuietly h.1)
    · exact .inl rfl
  | setEffectiveContext id =>
    simp only [step]
    split_ifs with h
    · exact .inr (.switched id h.2)
    · exact .inl rfl
  | access =>
    simp only [step]
    split
    · exact .inl rfl
    · exact .inr (.accessed _ ‹_›)
  | guestReturns trap =>
    simp only [step]
    split
    · exact .inl rfl
    · exact .inr (.returned _ trap ‹_›)
  | noteRuntimeError =>
    simp only [step]
    split_ifs with h
    · exact .inr (.noted h)
    · exact .inl rfl
  | reloadDispatch elapsed instantiates =>
    simp only [step, reloadDispatch]
    split_ifs with h
    · split
      · exact .inr (.served _ _)
      · exact .inl rfl
      · exact .inr (.gone ‹_›)
      · exact .inr (.reloaded h.1 h.2 ‹_›)
    · exact .inl rfl

theorem step_induct {P : RootVM → Prop} (h : P s) (hf : ∀ t, Fires m s e t → P t) :
    P (step m s e) := by
  obtain he | hfires := step_cases m s e
  · rw [he]
    exact h
  · exact hf _ hfires

theorem guestReturns_parts (s : RootVM) (trap : Bool) (f : Frame) :
    ∃ (trace : List Entry) (streams : List StreamContext) (streamCtxs : ℕ → Option ℕ)
      (unnoted : ℕ) (published : Bool) (reload : ReloadState) (admitted : ℕ),
      s.guestReturns trap f = { s with
        running := none, trace := trace, streams := streams, streamCtxs := streamCtxs
        unnoted := unnoted, published := published, reload := reload, admitted := admitted } := by
  unfold guestReturns afterReturn
  dsimp only
  split
  · split_ifs
    · split
      all_goals exact ⟨_, _, _, _, _, _, _, rfl⟩
    · exact ⟨_, _, _, _, _, _, _, rfl⟩
  all_goals first
    | exact ⟨_, _, _, _, _, _, _, rfl⟩
    | split_ifs
      all_goals exact ⟨_, _, _, _, _, _, _, rfl⟩

theorem shows_quiet (htrace : t.trace = s.trace) (hrun : t.running = s.running) : Shows m s e t :=
  ⟨[], .nothing e, htrace.trans (List.append_nil _).symm, Or.inl hrun⟩

theorem shows_enter {f : Frame} {n : ℕ} (h : Noted m s e [.guest f n])
    (htrace : t.trace = s.trace ++ [.guest f n]) (hrun : t.running = some f) : Shows m s e t :=
  ⟨[.guest f n], h, htrace, Or.inr (Or.inr ⟨f, n, rfl, hrun⟩)⟩

theorem shows_dispatchGuest {cb : Callback} (htrace : t.trace = s.trace)
    (hrun : t.running = s.running) (hinst : t.inst = s.inst)
    (h : ∀ n, s.inst = some n → sc.closed = false → m.callable cb.guestExport = true →
      Noted m s e [.guest (.stream i cb) n]) : Shows m s e (t.dispatchGuest m i sc cb) := by
  unfold dispatchGuest
  split
  · exact shows_quiet htrace hrun
  · rename_i n hn
    rw [hinst] at hn
    split_ifs with hok
    · exact shows_enter (h n hn hok.1 hok.2) (congrArg (· ++ _) htrace) rfl
    · exact shows_quiet htrace hrun

theorem trace_afterReturn (s : RootVM) (trap : Bool) (f : Frame) :
    (s.afterReturn trap f).trace = s.trace ∧ (s.afterReturn trap f).running = s.running := by
  unfold afterReturn
  split
  · split_ifs
    · split
      · exact ⟨rfl, rfl⟩
      · exact ⟨rfl, rfl⟩
    · exact ⟨rfl, rfl⟩
  · split_ifs
    · exact ⟨rfl, rfl⟩
    · exact ⟨rfl, rfl⟩
  · split_ifs
    · exact ⟨rfl, rfl⟩
    · exact ⟨rfl, rfl⟩
  · split_ifs
    · exact ⟨rfl, rfl⟩
    · exact ⟨rfl, rfl⟩
  · split_ifs
    · exact ⟨rfl, rfl⟩
    · exact ⟨rfl, rfl⟩
  · exact ⟨rfl, rfl⟩

theorem shows_guestReturns {trap : Bool} {f : Frame} (hf : s.running = some f) :
    Shows m s (.guestReturns trap) (s.guestReturns trap f) := by
  unfold guestReturns
  dsimp only
  cases trap with
  | false =>
    have hafter := trace_afterReturn { s with running := none } false f
    exact ⟨[], .nothing _, hafter.1.trans (List.append_nil _).symm, Or.inr (Or.inl hafter.2)⟩
  | true =>
    cases hn : s.inst with
    | none =>
      have hafter := trace_afterReturn { s with running := none, inst := none } true f
      exact ⟨[], .nothing _, hafter.1.trans (List.append_nil _).symm, Or.inr (Or.inl hafter.2)⟩
    | some n =>
      have hafter := trace_afterReturn
        { s with running := none, inst := some n, trace := s.trace ++ [.trap n] } true f
      exact ⟨_, .trapped f n hf hn, hafter.1, Or.inr (Or.inl hafter.2)⟩

theorem shows_step (m : GuestModule) (s : RootVM) (e : Event) : Shows m s e (step m s e) := by
  refine step_induct (shows_quiet rfl rfl) fun t ht => ?_
  cases ht with
  | created i sc n hrun hsc hfresh hn hcall =>
    exact shows_enter (.created i sc n hrun hsc hfresh hn hcall) rfl rfl
  | called i sc cb hrun hsc husable hfilter =>
    refine shows_dispatchGuest rfl rfl rfl ?_
    intro n hn hclosed hcall
    exact .called i sc cb n hrun hsc husable hclosed hn hfilter hcall
  | closing i sc cb next hrun hsc husable hpos =>
    refine shows_dispatchGuest rfl rfl rfl ?_
    intro n hn hclosed hcall
    exact .closing i sc cb next n hrun hsc husable hclosed hn hpos hcall
  | responded k r i sc n hrun hr hpos hsc hclosed hn hcall =>
    exact shows_enter (.responded k r i sc n hrun hr hpos hsc hclosed hn hcall) rfl rfl
  | ticked n hrun hpublished hn hcall =>
    exact shows_enter (.ticked n hrun hpublished hn hcall) rfl rfl
  | accessed f hf => exact ⟨_, .accessed f hf, rfl, Or.inl rfl⟩
  | returned f trap hf => exact shows_guestReturns hf
  | reloaded hrun hpublished hfailed =>
    exact shows_enter (.reloaded hrun hpublished hfailed) rfl rfl
  | _ => exact shows_quiet rfl rfl

inductive Changed (s : RootVM) (i : ℕ) (sc : StreamContext) : Event → StreamContext → Prop
  | same (e : Event) : Changed s i sc e sc
  | created (n : ℕ) (running : s.running = none) (fresh : sc.createdOn = none)
      (inst : s.inst = some n) : Changed s i sc (.createContext i) { sc with createdOn := some n }
  | createdQuietly (n : ℕ) (running : s.running = none) (fresh : sc.createdOn = none)
      (inst : s.inst = some n) :
      Changed s i sc (.createContext i) { sc with createdOn := some n, usable := true }
  | returned (running : s.running = some (.stream i .contextCreate)) :
      Changed s i sc (.guestReturns false) { sc with usable := true }
  | trapped (cb : Callback) (running : s.running = some (.stream i cb)) :
      Changed s i sc (.guestReturns true) { sc with trapped := true }
  | closeCalled (usable : sc.usable = true) (pos : sc.closeAt = .notCalled) :
      Changed s i sc (.close i) { sc with closeAt := if sc.trapped then .atFlag else .atDone }
  | closing (usable : sc.usable = true) (cb : Callback) (next : CloseAt)
      (running : s.running = none) (pos : sc.closeAt.callback? = some (cb, next)) :
      Changed s i sc (.close i) { sc with closeAt := next }
  | flagged (usable : sc.usable = true) (pos : sc.closeAt = .atFlag)
      (running : s.running ≠ some (.stream i .delete)) :
      Changed s i sc (.close i) { sc with closed := true, closeAt := .atUnmap }
  | unmapped (usable : sc.usable = true) (pos : sc.closeAt = .atUnmap) :
      Changed s i sc (.close i) { sc with closeAt := .atCancel }
  | canceled (usable : sc.usable = true) (pos : sc.closeAt = .atCancel) :
      Changed s i sc (.close i) { sc with closeAt := .finished }

inductive StreamsMoved (s : RootVM) : Event → List StreamContext → Prop
  | same (e : Event) : StreamsMoved s e s.streams
  | moved (e : Event) (j : ℕ) (sc sc' : StreamContext) (stream : s.streams[j]? = some sc)
      (changed : Changed s j sc e sc') : StreamsMoved s e (s.streams.set j sc')
  | grown (published : s.published = true) : StreamsMoved s .newStream
      (s.streams ++ [{ streamCtxID := (s.nextStreamCtxID + 1) % idLimit }])

theorem streams_modify {j : ℕ} {f : StreamContext → StreamContext} (hj : s.streams[j]? = some sc)
    (hf : Changed s j sc e (f sc)) : StreamsMoved s e (s.streams.modify j f) := by
  have heq : s.streams.modify j f = s.streams.set j (f sc) := by
    apply List.ext_getElem?
    intro i
    rw [List.getElem?_modify, List.getElem?_set]
    obtain ⟨hlt, -⟩ := List.getElem?_eq_some_iff.mp hj
    split_ifs with hji
    · subst hji
      rw [hj]
      rfl
    · exact Option.map_id'
  rw [heq]
  exact .moved e j sc (f sc) hj hf

theorem streams_modify_any {j : ℕ} {f : StreamContext → StreamContext}
    (hf : ∀ sc, Changed s j sc e (f sc)) : StreamsMoved s e (s.streams.modify j f) := by
  cases hj : s.streams[j]? with
  | some sc => exact streams_modify hj (hf sc)
  | none =>
    rw [List.modify_eq_self (List.getElem?_eq_none_iff.mp hj)]
    exact .same e

theorem streams_dispatchGuest (m : GuestModule) (s : RootVM) (i : ℕ) (sc : StreamContext)
    (cb : Callback) : (s.dispatchGuest m i sc cb).streams = s.streams := by
  unfold dispatchGuest
  split
  · rfl
  · split_ifs
    · rfl
    · rfl

theorem streams_guestReturns {trap : Bool} {f : Frame} (hf : s.running = some f) :
    StreamsMoved s (.guestReturns trap) (s.guestReturns trap f).streams := by
  unfold guestReturns afterReturn
  dsimp only
  cases trap with
  | false =>
    split
    · exact streams_modify_any (fun _ => .returned hf)
    all_goals exact .same _
  | true =>
    split
    · split_ifs with htrap
      · split
        · exact .same _
        · exact .same _
      · exact absurd rfl htrap
    · exact streams_modify_any (fun _ => .trapped _ hf)
    · exact streams_modify_any (fun _ => .trapped _ hf)
    all_goals exact .same _

theorem streams_step (m : GuestModule) (s : RootVM) (e : Event) :
    StreamsMoved s e (step m s e).streams := by
  refine step_induct (P := fun t => StreamsMoved s e t.streams) (.same e) fun t ht => ?_
  cases ht with
  | newStream hpublished _ => exact .grown hpublished
  | created i sc n hrun hsc hfresh hn _ =>
    exact streams_modify hsc (.created n hrun hfresh hn)
  | createdQuietly i sc n hrun hsc hfresh hn =>
    exact streams_modify hsc (.createdQuietly n hrun hfresh hn)
  | called i sc cb _ _ _ _ =>
    rw [streams_dispatchGuest]
    exact .same _
  | closeCalled i sc hsc husable hpos => exact streams_modify hsc (.closeCalled husable hpos)
  | closing i sc cb next hrun hsc husable hpos =>
    rw [streams_dispatchGuest]
    exact streams_modify hsc (.closing husable cb next hrun hpos)
  | flagged i sc hsc husable hpos hrun =>
    exact streams_modify hsc (.flagged husable hpos hrun)
  | unmapped i sc hsc husable hpos => exact streams_modify hsc (.unmapped husable hpos)
  | canceled i sc hsc husable hpos => exact streams_modify hsc (.canceled husable hpos)
  | returned f trap hf => exact streams_guestReturns hf
  | _ => exact .same _

theorem length_step (m : GuestModule) (s : RootVM) (e : Event) :
    s.streams.length ≤ (step m s e).streams.length := by
  have hmoved := streams_step m s e
  generalize (step m s e).streams = streams at hmoved
  cases hmoved with
  | same => exact Nat.le_refl _
  | moved _ j sc sc' hsc hch => exact Nat.le_of_eq List.length_set.symm
  | grown =>
    rw [List.length_append]
    exact Nat.le_add_right _ _

theorem stream_step {sc' : StreamContext} (h : (step m s e).streams[i]? = some sc') :
    (∃ sc, s.streams[i]? = some sc ∧ Changed s i sc e sc') ∨
      (e = .newStream ∧ i = s.streams.length ∧
        sc' = { streamCtxID := (s.nextStreamCtxID + 1) % idLimit }) := by
  generalize hstreams : (step m s e).streams = streams at h
  have hmoved := streams_step m s e
  rw [hstreams] at hmoved
  cases hmoved with
  | same => exact Or.inl ⟨sc', h, .same e⟩
  | moved _ j sc sc1 hsc hch =>
    rw [List.getElem?_set] at h
    split_ifs at h with hji hlt
    · obtain rfl := Option.some.inj h
      subst hji
      exact Or.inl ⟨sc, hsc, hch⟩
    · exact Or.inl ⟨sc', h, .same e⟩
  | grown =>
    rcases Nat.lt_trichotomy i s.streams.length with hlt | heq | hgt
    · rw [List.getElem?_append_left hlt] at h
      exact Or.inl ⟨sc', h, .same _⟩
    · rw [List.getElem?_append_right (Nat.le_of_eq heq.symm), heq, Nat.sub_self] at h
      exact Or.inr ⟨rfl, heq, (Option.some.inj h).symm⟩
    · rw [List.getElem?_append_right (Nat.le_of_lt hgt), List.getElem?_singleton] at h
      split_ifs at h with hzero
      omega

inductive RespondersMoved (s t : RootVM) : Event → Prop
  | same (e : Event) (responders : t.responders = s.responders)
      (counter : t.nextCallID = s.nextCallID) : RespondersMoved s t e
  | moved (e : Event) (k : ℕ) (r : Responder) (pos : ResponderAt)
      (responder : s.responders[k]? = some r) (unfinished : r.pos ≠ .finished)
      (responders : t.responders = s.responders.modify k (fun r => { r with pos := pos }))
      (counter : t.nextCallID = s.nextCallID) (answered : ∀ j, e = .respond j → pos = .finished) :
      RespondersMoved s t e
  | called (responders : t.responders =
        s.responders ++ [{ callID := (s.nextCallID + 1) % idLimit }])
      (counter : t.nextCallID = (s.nextCallID + 1) % idLimit) : RespondersMoved s t .httpCall

theorem responders_dispatchGuest {cb : Callback} (h : RespondersMoved s t e) :
    RespondersMoved s (t.dispatchGuest m i sc cb) e := by
  have hsame : (t.dispatchGuest m i sc cb).responders = t.responders ∧
      (t.dispatchGuest m i sc cb).nextCallID = t.nextCallID := by
    unfold dispatchGuest
    split
    · exact ⟨rfl, rfl⟩
    · split_ifs
      · exact ⟨rfl, rfl⟩
      · exact ⟨rfl, rfl⟩
  cases h with
  | same _ responders counter =>
    exact .same e (hsame.1.trans responders) (hsame.2.trans counter)
  | moved _ k r pos responder unfinished responders counter answered =>
    exact .moved e k r pos responder unfinished (hsame.1.trans responders)
      (hsame.2.trans counter) answered
  | called responders counter => exact .called (hsame.1.trans responders) (hsame.2.trans counter)

theorem responders_step (m : GuestModule) (s : RootVM) (e : Event) :
    RespondersMoved s (step m s e) e := by
  refine step_induct (P := fun t => RespondersMoved s t e) (.same e rfl rfl) fun t ht => ?_
  cases ht with
  | called i sc cb _ _ _ _ => exact responders_dispatchGuest (.same _ rfl rfl)
  | closing i sc cb next _ _ _ _ => exact responders_dispatchGuest (.same _ rfl rfl)
  | httpCall => exact .called rfl rfl
  | tokenGone k r hr hpos => exact .moved _ k r .finished hr (by simp [hpos]) rfl rfl nofun
  | tokenTaken k r id hr hpos => exact .moved _ k r (.token id) hr (by simp [hpos]) rfl rfl nofun
  | resolved k r id next hr hpos => exact .moved _ k r next hr (by simp [hpos]) rfl rfl nofun
  | unanswered k r i hr hpos =>
    exact .moved _ k r .finished hr (by simp [hpos]) rfl rfl (fun _ _ => rfl)
  | responded k r i sc n _ hr hpos _ _ _ _ =>
    exact .moved _ k r .finished hr (by simp [hpos]) rfl rfl (fun _ _ => rfl)
  | respondedQuietly k r i id _ hr hpos =>
    exact .moved _ k r .finished hr (by simp [hpos]) rfl rfl (fun _ _ => rfl)
  | returned f trap _ =>
    obtain ⟨_, _, _, _, _, _, _, heq⟩ := guestReturns_parts s trap f
    rw [heq]
    exact .same _ rfl rfl
  | _ => exact .same _ rfl rfl

end EnvoyGo.Wasm

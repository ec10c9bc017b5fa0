import EnvoyGo.WasmStreams

/-!
The end of a stream context.  `proxy_on_delete` is to be the last callback of a context, and an
http call is to be answered once.  Between the dispatch of `proxy_on_delete` and the `closed` flag
nothing keeps a response out.
-/

namespace EnvoyGo.Wasm

open RootVM

variable {m : GuestModule} {s : RootVM}

def Entry.answers? : Entry → Option ℕ
  | .guest (.stream _ (.httpCallResponse callID)) _ => some callID
  | _ => none

/-- No context has a callback after its `proxy_on_delete`. -/
def DeleteFinal (trace : List Entry) : Prop :=
  trace.Pairwise (fun a b => ∀ i ∈ a.deletes?, b.enters? ≠ some i)

/-- No http-call id is answered twice. -/
def AnsweredOnce (trace : List Entry) : Prop := (trace.filterMap Entry.answers?).Nodup

def InDeleteWindow (s : RootVM) (i : ℕ) : Prop :=
  Deleted s i ∧ (s.streams[i]?).any (fun sc => !sc.closed) = true

instance (s : RootVM) (i : ℕ) : Decidable (InDeleteWindow s i) :=
  inferInstanceAs (Decidable (_ ∧ _))

def target? (s : RootVM) (k : ℕ) : Option ℕ :=
  (s.responders[k]?).bind (fun r =>
    match r.pos with
    | .resolved i => some i
    | _ => none)

/-- No callback and no response gets `dispatchMu` while its context is between the dispatch of
`proxy_on_delete` and the flag, and the call ids do not run out. -/
def KeepsOut (m : GuestModule) (s : RootVM) : Event → Prop
  | .callback i cb =>
    s.running = none → m.callable cb.guestExport = true → ¬ InDeleteWindow s i
  | .respond k =>
    s.running = none → m.callable (Callback.httpCallResponse 0).guestExport = true →
      ∀ i ∈ target? s k, ¬ InDeleteWindow s i
  | .httpCall => s.nextCallID + 1 < idLimit
  | _ => True

instance (m : GuestModule) (s : RootVM) : ∀ e, Decidable (KeepsOut m s e)
  | .callback i _ => inferInstanceAs (Decidable (_ → _ → ¬ InDeleteWindow s i))
  | .respond k => inferInstanceAs (Decidable (_ → _ → ∀ i ∈ target? s k, ¬ InDeleteWindow s i))
  | .httpCall => inferInstanceAs (Decidable (_ < _))
  | .newStream | .createContext _ | .register _ | .unregister _ | .close _ | .takeToken _
  | .resolve _ | .tick | .setEffectiveContext _ | .access | .guestReturns _ | .noteRuntimeError
  | .reloadDispatch _ _ => inferInstanceAs (Decidable True)

theorem inDeleteWindow_of {i : ℕ} {sc : StreamContext} (hd : Deleted s i)
    (hsc : s.streams[i]? = some sc) (hclosed : sc.closed = false) : InDeleteWindow s i := by
  refine ⟨hd, ?_⟩
  rw [hsc, Option.any_some, hclosed]
  rfl

theorem not_deleted_of_noted {e : Event} (h : Lives s) (hok : KeepsOut m s e) {i : ℕ}
    {cb : Callback} {n : ℕ} (hnoted : Noted m s e [.guest (.stream i cb) n]) : ¬ Deleted s i := by
  intro hd
  cases hnoted with
  | created _ sc _ hrun hsc hfresh hinst =>
    have ho := h.ordered i sc hsc
    have hpast := ho.deleted hd
    have hused : sc.closeAt ≠ .notCalled := by
      intro hc
      rw [hc] at hpast
      cases hpast
    exact ho.made (ho.usable hused) hfresh
  | called _ sc _ _ hrun hsc husable hclosed hinst hfilter hcall =>
    exact hok hrun hcall (inDeleteWindow_of hd hsc hclosed)
  | closing _ sc _ next _ hrun hsc husable hclosed hinst hpos =>
    have hpast := (h.ordered i sc hsc).deleted hd
    cases hclose : sc.closeAt with
    | atDone | atLog | atDelete | notCalled =>
      rw [hclose] at hpast
      cases hpast
    | _ =>
      rw [hclose] at hpos
      cases hpos
  | responded k r _ sc _ hrun hr hpos hsc hclosed hinst hcall =>
    have htarget : target? s k = some i := by
      rw [target?, hr, Option.bind_some, hpos]
    exact hok hrun hcall i htarget (inDeleteWindow_of hd hsc hclosed)

theorem deleteFinal_step {e : Event} (hlives : Lives s) (hok : KeepsOut m s e)
    (h : DeleteFinal s.trace) : DeleteFinal (step m s e).trace := by
  obtain ⟨new, hnoted, htrace, -⟩ := shows_step m s e
  have hone : new.Pairwise (fun a b => ∀ i ∈ a.deletes?, b.enters? ≠ some i) := by
    cases hnoted with
    | nothing => exact List.Pairwise.nil
    | _ => exact List.pairwise_singleton _ _
  rw [htrace]
  refine List.pairwise_append.mpr ⟨h, hone, ?_⟩
  intro a ha b hb i hdel henter
  have hd : Deleted s i := ⟨a, ha, hdel⟩
  cases hb' : b with
  | guest f n =>
    cases f with
    | stream j cb =>
      rw [hb'] at henter hb
      obtain rfl := Option.some.inj henter
      have hsingle : new = [.guest (.stream j cb) n] := by
        cases hnoted with
        | nothing => cases hb
        | _ =>
          rw [List.mem_singleton] at hb
          rw [hb]
      rw [hsingle] at hnoted
      exact not_deleted_of_noted hlives hok hnoted hd
    | root cb =>
      rw [hb'] at henter
      cases henter
  | trap n =>
    rw [hb'] at henter
    cases henter
  | access f reached =>
    rw [hb'] at henter
    cases henter

/-- The calls are numbered from one on, and an answered call's goroutine is out. -/
structure Counted (s : RootVM) : Prop where
  counter : s.nextCallID = s.responders.length
  ids : ∀ (k : ℕ) (r : Responder), s.responders[k]? = some r → r.callID = k + 1
  answered : ∀ c ∈ s.trace.filterMap Entry.answers?,
    ∃ (k : ℕ) (r : Responder), s.responders[k]? = some r ∧ r.callID = c ∧ r.pos = .finished

theorem finished_step {e : Event} {k : ℕ} {r : Responder} (hr : s.responders[k]? = some r)
    (hpos : r.pos = .finished) : (step m s e).responders[k]? = some r := by
  cases responders_step m s e with
  | same _ hresp => rw [hresp, hr]
  | moved _ k' r' pos hr' hne hresp =>
    have hk : k' ≠ k := by
      rintro rfl
      rw [hr] at hr'
      obtain rfl := Option.some.inj hr'
      exact hne hpos
    rw [hresp, List.getElem?_modify_ne _ _ hk, hr]
  | called hresp =>
    rw [hresp, List.getElem?_append_left (List.getElem?_eq_some_iff.mp hr).1, hr]

theorem respond_finishes {k : ℕ} {r : Responder} {i : ℕ} {sc : StreamContext}
    (hrun : s.running = none) (hr : s.responders[k]? = some r) (hpos : r.pos = .resolved i)
    (hsc : s.streams[i]? = some sc) :
    (step m s (.respond k)).responders[k]? = some { r with pos := .finished } := by
  have hset : (s.responders.modify k (fun r => { r with pos := .finished }))[k]? =
      some { r with pos := .finished } := by
    rw [List.getElem?_modify_eq, hr]
    rfl
  have hstep : step m s (.respond k) = respond m s k r i sc := by
    simp only [step, hr, hpos, hsc]
    exact if_pos hrun
  rw [hstep]
  unfold respond
  dsimp only
  split
  · exact hset
  · split_ifs
    · exact hset
    · exact hset
    · exact hset

theorem answers_step (m : GuestModule) (s : RootVM) (e : Event) :
    (step m s e).trace.filterMap Entry.answers? = s.trace.filterMap Entry.answers? ∨
      ∃ (k : ℕ) (r : Responder), s.responders[k]? = some r ∧ r.pos ≠ .finished ∧
        (step m s e).responders[k]? = some { r with pos := .finished } ∧
        (step m s e).trace.filterMap Entry.answers? =
          s.trace.filterMap Entry.answers? ++ [r.callID] := by
  obtain ⟨new, hnoted, htrace, -⟩ := shows_step m s e
  rw [htrace, List.filterMap_append]
  cases hnoted with
  | nothing => exact Or.inl (List.append_nil _)
  | called i sc cb n hrun hsc husable hclosed hinst hfilter =>
    cases cb with
    | httpCallResponse c => cases hfilter
    | _ => exact Or.inl (List.append_nil _)
  | closing i sc cb next n hrun hsc husable hclosed hinst hpos =>
    cases cb with
    | httpCallResponse c =>
      cases hclose : sc.closeAt with
      | _ =>
        rw [hclose] at hpos
        cases hpos
    | _ => exact Or.inl (List.append_nil _)
  | responded k r i sc n hrun hr hpos hsc =>
    exact Or.inr ⟨k, r, hr, by simp [hpos], respond_finishes hrun hr hpos hsc, rfl⟩
  | _ => exact Or.inl (List.append_nil _)

theorem counted_step {e : Event} (hok : KeepsOut m s e) (h : Counted s) :
    Counted (step m s e) := by
  have hanswered : ∀ c ∈ (step m s e).trace.filterMap Entry.answers?,
      ∃ (k : ℕ) (r : Responder), (step m s e).responders[k]? = some r ∧ r.callID = c ∧
        r.pos = .finished := by
    intro c hc
    rcases answers_step m s e with hsame | ⟨k, r, -, -, hnext, happ⟩
    · rw [hsame] at hc
      obtain ⟨k, r, hr, hid, hpos⟩ := h.answered c hc
      exact ⟨k, r, finished_step hr hpos, hid, hpos⟩
    · rw [happ, List.mem_append] at hc
      rcases hc with hc | hc
      · obtain ⟨k, r, hr, hid, hpos⟩ := h.answered c hc
        exact ⟨k, r, finished_step hr hpos, hid, hpos⟩
      · exact ⟨k, _, hnext, (List.mem_singleton.mp hc).symm, rfl⟩
  have hmoved := responders_step m s e
  generalize step m s e = t at hmoved hanswered
  cases hmoved with
  | same _ hresp hcounter =>
    refine ⟨by rw [hcounter, hresp, h.counter], ?_, hanswered⟩
    rw [hresp]
    exact h.ids
  | moved _ k r pos hr hne hresp hcounter =>
    refine ⟨by rw [hcounter, hresp, List.length_modify, h.counter], ?_, hanswered⟩
    intro k' r' hr'
    rw [hresp] at hr'
    by_cases hk : k = k'
    · subst hk
      rw [List.getElem?_modify_eq, hr] at hr'
      obtain rfl := Option.some.inj hr'
      exact h.ids k r hr
    · rw [List.getElem?_modify_ne _ _ hk] at hr'
      exact h.ids k' r' hr'
  | called hresp hcounter =>
    have hmod : (s.nextCallID + 1) % idLimit = s.nextCallID + 1 := Nat.mod_eq_of_lt hok
    rw [hmod] at hresp hcounter
    refine ⟨?_, ?_, hanswered⟩
    · rw [hcounter, hresp, List.length_append, h.counter, List.length_singleton]
    · intro k r hr
      rw [hresp] at hr
      by_cases hk : k < s.responders.length
      · rw [List.getElem?_append_left hk] at hr
        exact h.ids k r hr
      · rw [List.getElem?_append_right (Nat.le_of_not_lt hk), List.getElem?_singleton] at hr
        split_ifs at hr with hzero
        obtain rfl := Option.some.inj hr
        have hcount := h.counter
        change s.nextCallID + 1 = k + 1
        omega

theorem answeredOnce_step {e : Event} (hcount : Counted s) (h : AnsweredOnce s.trace) :
    AnsweredOnce (step m s e).trace := by
  unfold AnsweredOnce at h ⊢
  rcases answers_step m s e with hsame | ⟨k, r, hr, hne, -, happ⟩
  · rw [hsame]
    exact h
  · rw [happ]
    refine List.nodup_append.mpr ⟨h, List.pairwise_singleton _ _, ?_⟩
    intro c hc c' hc' heq
    subst heq
    obtain ⟨k', r', hr', hid, hpos⟩ := hcount.answered c hc
    have hk := hcount.ids k r hr
    have hk' := hcount.ids k' r' hr'
    have hsingle := List.mem_singleton.mp hc'
    obtain rfl : k = k' := by omega
    rw [hr] at hr'
    obtain rfl := Option.some.inj hr'
    exact hne hpos

/-- In every run in which no callback and no response gets in between `proxy_on_delete` and the
`closed` flag of its context, and the call ids do not wrap, `proxy_on_delete` is the last callback
of its context and no call is answered twice. -/
theorem delete_final_outside_window (m : GuestModule) (rootCtxID : ℕ) (es : List Event)
    (hes : Runs.StepsMeet (step m) (KeepsOut m) (newRootVM rootCtxID) es) :
    DeleteFinal (es.foldl (step m) (newRootVM rootCtxID)).trace ∧
      AnsweredOnce (es.foldl (step m) (newRootVM rootCtxID)).trace := by
  have hstep : ∀ s e, KeepsOut m s e →
      Lives s ∧ DeleteFinal s.trace ∧ Counted s ∧ AnsweredOnce s.trace →
      Lives (step m s e) ∧ DeleteFinal (step m s e).trace ∧ Counted (step m s e) ∧
        AnsweredOnce (step m s e).trace := by
    rintro s e hok ⟨hlives, hfinal, hcounted, honce⟩
    exact ⟨lives_step e hlives, deleteFinal_step hlives hok hfinal, counted_step hok hcounted,
      answeredOnce_step hcounted honce⟩
  have hstart : Lives (newRootVM rootCtxID) ∧ DeleteFinal (newRootVM rootCtxID).trace ∧
      Counted (newRootVM rootCtxID) ∧ AnsweredOnce (newRootVM rootCtxID).trace := by
    refine ⟨lives_new rootCtxID, List.pairwise_singleton _ _, ⟨rfl, nofun, nofun⟩, ?_⟩
    exact List.Pairwise.nil
  have hend := Runs.invariant_of_steps hstep es _ hstart hes
  exact ⟨hend.2.1, hend.2.2.2⟩

/-- A stream whose request headers callback makes an http call; the response has its stream in
hand. -/
def callInHand : List Event :=
  [.guestReturns false, .reloadDispatch false false, .newStream, .createContext 0,
    .guestReturns false, .register 0, .callback 0 .requestHeaders, .httpCall, .guestReturns false,
    .takeToken 0, .resolve 0]

def closeCallbacks : List Event :=
  [.close 0, .close 0, .guestReturns false, .close 0, .guestReturns false, .close 0,
    .guestReturns false]

/-- The response that already has the stream goes in after `proxy_on_delete`. -/
def lateResponse : List Event := callInHand ++ closeCallbacks ++ [Event.respond 0]

/-- The response comes before the teardown, and a late callback after the flag. -/
def promptResponse : List Event :=
  callInHand ++ [Event.respond 0, Event.guestReturns false] ++ closeCallbacks ++
    [Event.close 0, Event.callback 0 .responseHeaders, Event.close 0, Event.close 0]

theorem response_after_delete :
    ¬ DeleteFinal (lateResponse.foldl (step allCallable) (newRootVM 1)).trace := by
  unfold DeleteFinal
  decide +kernel

theorem answered_then_deleted :
    Runs.StepsMeet (step allCallable) (KeepsOut allCallable) (newRootVM 1) promptResponse ∧
      DeleteFinal (promptResponse.foldl (step allCallable) (newRootVM 1)).trace := by
  have hmeet : Runs.StepsMeet (step allCallable) (KeepsOut allCallable) (newRootVM 1)
      promptResponse := by
    decide +kernel
  exact ⟨hmeet, (delete_final_outside_window allCallable 1 _ hmeet).1⟩

end EnvoyGo.Wasm

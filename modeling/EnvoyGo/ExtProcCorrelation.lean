import EnvoyGo.ExtProc
import EnvoyGo.Runs

/-!
The messages of one ext_proc stream, step by step.  Every dispatched stage has a goroutine that
sends one message and takes one message from the stream, whichever it is, and then resumes the
chain; the processor answers the messages in the order it gets them.
-/

namespace EnvoyGo.ExtProc

inductive Leg
  | sending
  | receiving (message : Nat)
  deriving DecidableEq

structure StageGoroutine where
  id : Nat
  stage : Stage
  leg : Leg
  deriving DecidableEq

/-- A goroutine that is through: the message it sent, and what it received for it unless its
exchange failed. -/
structure Completion where
  id : Nat
  stage : Stage
  message : Option Nat
  received : Option ProcessingResponse

/-- A stream with its two ends.  `sent` and `answers` are all the messages the processor got and
all its answers to them; `inbox` is what is on its way back.  The resume channels are those of
the chain. -/
structure Transaction where
  world : World FilterState
  dispatched : Nat := 0
  live : List StageGoroutine := []
  parkedOn : Option (Nat × Stage) := none
  resumeCh : Direction → Bool := fun _ => false
  broken : Bool := false
  sent : List Stage := []
  answers : List ProcessingResponse := []
  inbox : List ProcessingResponse := []
  completions : List Completion := []
  released : List Nat := []

def isOverrideMessage (resp : ProcessingResponse) : Bool :=
  match resp.response with
  | .immediateResponse _ => false
  | _ => resp.overrideMessageTimeout.isSome

/-- Steps of the dispatch goroutine (`dispatch`, `wake`), of the goroutine at a place of the list
(`send`, `recv`, `fail`), of the processor and of the stream.  A callback that dispatched a stage
parks unless its chunk overran the buffer. -/
inductive ExchangeEvent
  | dispatch (s : Stage) (parks : Bool)
  | wake
  | send (i : Nat)
  | recv (i : Nat)
  | fail (i : Nat)
  | override (resp : ProcessingResponse)
  | answer (resp : ProcessingResponse)
  | breakStream

/-- `completeStage`: the goroutine is through and signals the channel of its direction. -/
def completed (t : Transaction) (i : Nat) (g : StageGoroutine)
    (received : Option ProcessingResponse) (world : World FilterState) : Transaction :=
  { t with
    world := world
    live := t.live.eraseIdx i
    resumeCh := Function.update t.resumeCh g.stage.direction true
    completions := t.completions ++
      [{ id := g.id, stage := g.stage, received := received
         message := match g.leg with
           | .sending => none
           | .receiving m => some m }] }

/-- A step that is not enabled leaves everything alone. -/
def exchangeStep (cc : CompiledConfig) (t : Transaction) : ExchangeEvent → Transaction
  | .dispatch s parks =>
    if t.parkedOn.isSome then t
    else
      { t with
        dispatched := t.dispatched + 1
        live := t.live ++ [⟨t.dispatched, s, .sending⟩]
        parkedOn := if parks then some (t.dispatched, s) else none }
  | .wake =>
    match t.parkedOn with
    | none => t
    | some p =>
      if t.resumeCh p.2.direction then
        { t with
          parkedOn := none
          resumeCh := Function.update t.resumeCh p.2.direction false
          released := t.released ++ [p.1] }
      else t
  | .send i =>
    match t.live[i]? with
    | some ⟨id, s, .sending⟩ =>
      if t.broken then t
      else
        { t with
          sent := t.sent ++ [s]
          live := t.live.set i ⟨id, s, .receiving t.sent.length⟩ }
    | _ => t
  | .recv i =>
    match t.live[i]?, t.inbox with
    | some ⟨id, s, .receiving m⟩, resp :: rest =>
      if t.broken then t
      else completed { t with inbox := rest } i ⟨id, s, .receiving m⟩ (some resp)
        (updateState (fun st => st.mark s (verdict cc s resp))
          (applyProcessingResponse cc s resp t.world).world)
    | _, _ => t
  | .fail i =>
    match t.live[i]? with
    | some g =>
      if t.broken then
        completed t i g none (updateState (fun st => st.mark g.stage .failed) t.world)
      else t
    | none => t
  | .override resp =>
    if t.answers.length < t.sent.length ∧ isOverrideMessage resp = true then
      { t with inbox := t.inbox ++ [resp] }
    else t
  | .answer resp =>
    if t.answers.length < t.sent.length ∧ isOverrideMessage resp = false then
      { t with answers := t.answers ++ [resp], inbox := t.inbox ++ [resp] }
    else t
  | .breakStream => { t with broken := true }

/-- What a stage received is the processor's answer to the message of that stage, unless the
stream broke, and a stage is released only when it is completed. -/
structure Correlated (t : Transaction) : Prop where
  answered : ∀ k ∈ t.completions, ∀ resp, k.received = some resp →
    ∃ m, k.message = some m ∧ t.sent[m]? = some k.stage ∧ t.answers[m]? = some resp
  failed : ∀ k ∈ t.completions, k.received = none → t.broken = true
  released : ∀ id ∈ t.released, ∃ k ∈ t.completions, k.id = id

/-- The processor sends answers only, and a stage is dispatched when no other is under way and no
signal is left in its channel. -/
def oneAtATime (t : Transaction) : ExchangeEvent → Prop
  | .dispatch s _ => t.live = [] ∧ t.resumeCh s.direction = false
  | .override _ => False
  | _ => True

def StreamInStep (t : Transaction) : List StageGoroutine → Prop
  | [] => t.inbox = [] ∧ t.answers.length = t.sent.length
  | [⟨_, _, .sending⟩] => t.inbox = [] ∧ t.answers.length = t.sent.length
  | [⟨_, s, .receiving m⟩] => t.sent.length = m + 1 ∧ t.sent[m]? = some s ∧
      (t.inbox = [] ∧ t.answers.length = m ∨
        ∃ resp, t.inbox = [resp] ∧ t.answers.length = m + 1 ∧ t.answers[m]? = some resp)
  | _ => False

structure ExchangeInv (t : Transaction) : Prop where
  correlated : Correlated t
  one : ∀ g ∈ t.live, t.live = [g] ∧ t.resumeCh g.stage.direction = false
  parked : ∀ p, t.parkedOn = some p →
    (∃ g ∈ t.live, (g.id, g.stage) = p) ∨ ∃ k ∈ t.completions, k.id = p.1
  stream : t.broken = false → StreamInStep t t.live

theorem ExchangeInv.initial (w : World FilterState) : ExchangeInv { world := w } where
  correlated := by
    constructor
    · intro k hk
      cases hk
    · intro k hk
      cases hk
    · intro id hid
      cases hid
  one := by
    intro g hg
    cases hg
  parked := by
    intro p hp
    cases hp
  stream := fun _ => ⟨rfl, rfl⟩

section Step
variable {t : Transaction}

theorem Correlated.grow {t' : Transaction} (h : Correlated t) (hc : t'.completions = t.completions)
    (hr : t'.released = t.released) (hb : t.broken = true → t'.broken = true)
    (hsent : ∀ (m : Nat) (s : Stage), t.sent[m]? = some s → t'.sent[m]? = some s)
    (hanswers : ∀ (m : Nat) (resp : ProcessingResponse), t.answers[m]? = some resp →
      t'.answers[m]? = some resp) :
    Correlated t' := by
  constructor
  · intro k hk resp hresp
    rw [hc] at hk
    obtain ⟨m, hm, hs, ha⟩ := h.answered k hk resp hresp
    exact ⟨m, hm, hsent m _ hs, hanswers m _ ha⟩
  · intro k hk hnone
    rw [hc] at hk
    exact hb (h.failed k hk hnone)
  · rw [hr, hc]
    exact h.released

theorem getElem?_grow {α : Type} (xs : List α) (y : α) (m : Nat) (x : α) (h : xs[m]? = some x) :
    (xs ++ [y])[m]? = some x := by
  obtain ⟨hlt, -⟩ := List.getElem?_eq_some_iff.mp h
  rw [List.getElem?_append_left hlt]
  exact h

theorem live_of_getElem? (h : ExchangeInv t) {i : Nat} {g : StageGoroutine}
    (hg : t.live[i]? = some g) : t.live = [g] ∧ i = 0 := by
  have hmem := List.mem_of_getElem? hg
  have hone := (h.one g hmem).1
  refine ⟨hone, ?_⟩
  obtain ⟨hlt, -⟩ := List.getElem?_eq_some_iff.mp hg
  rw [hone] at hlt
  exact Nat.lt_one_iff.mp hlt

theorem ExchangeInv.complete (h : ExchangeInv t) {g : StageGoroutine}
    (hlive : t.live = [g]) (received : Option ProcessingResponse) (world : World FilterState)
    (inbox : List ProcessingResponse)
    (hresp : ∀ resp, received = some resp → ∃ m, g.leg = .receiving m ∧
      t.sent[m]? = some g.stage ∧ t.answers[m]? = some resp)
    (hfail : received = none → t.broken = true)
    (hstream : t.broken = false → inbox = [] ∧ t.answers.length = t.sent.length) :
    ExchangeInv (completed { t with inbox := inbox } 0 g received world) := by
  have hnil : t.live.eraseIdx 0 = [] := by
    rw [hlive]
    rfl
  constructor
  · constructor
    · intro k hk resp hk'
      rcases List.mem_append.mp hk with hk | hk
      · exact h.correlated.answered k hk resp hk'
      · rw [List.mem_singleton] at hk
        subst hk
        obtain ⟨m, hm, hs, ha⟩ := hresp resp hk'
        refine ⟨m, ?_, hs, ha⟩
        simp only [hm]
    · intro k hk hnone
      rcases List.mem_append.mp hk with hk | hk
      · exact h.correlated.failed k hk hnone
      · rw [List.mem_singleton] at hk
        subst hk
        exact hfail hnone
    · intro id hid
      obtain ⟨k, hk, he⟩ := h.correlated.released id hid
      exact ⟨k, List.mem_append_left _ hk, he⟩
  · intro g' hg'
    rw [show (completed { t with inbox := inbox } 0 g received world).live = [] from hnil] at hg'
    cases hg'
  · intro p hp
    right
    rcases h.parked p hp with ⟨g', hg', he⟩ | ⟨k, hk, he⟩
    · rw [hlive, List.mem_singleton] at hg'
      subst hg'
      exact ⟨_, List.mem_append_right _ (List.mem_singleton_self _), congrArg Prod.fst he⟩
    · exact ⟨k, List.mem_append_left _ hk, he⟩
  · intro hb
    rw [show (completed { t with inbox := inbox } 0 g received world).live = [] from hnil]
    exact hstream hb

section

variable (cc : CompiledConfig) (h : ExchangeInv t)

include h

theorem ExchangeInv.dispatch (s : Stage) (parks : Bool) (hlive : t.live = [])
    (hch : t.resumeCh s.direction = false) :
    ExchangeInv (exchangeStep cc t (.dispatch s parks)) := by
  simp only [exchangeStep]
  by_cases hparked : t.parkedOn.isSome = true
  · rw [if_pos hparked]
    exact h
  · rw [if_neg hparked]
    constructor
    · exact h.correlated.grow rfl rfl id (fun _ _ hs => hs) (fun _ _ ha => ha)
    · intro g hg
      simp only [hlive, List.nil_append, List.mem_singleton] at hg ⊢
      subst hg
      exact ⟨rfl, hch⟩
    · intro p hp
      left
      refine ⟨_, List.mem_append_right _ (List.mem_singleton_self _), ?_⟩
      cases parks with
      | true => exact Option.some.inj hp
      | false => cases hp
    · intro hb
      have hstream := h.stream hb
      rw [hlive] at hstream
      simp only [hlive, List.nil_append]
      exact hstream

theorem ExchangeInv.wake : ExchangeInv (exchangeStep cc t .wake) := by
  simp only [exchangeStep]
  cases hp : t.parkedOn with
  | none => exact h
  | some p =>
    simp only []
    split_ifs with hch
    · -- the goroutine of a stage that is parked on leaves the channel empty until it is through
      have hdone : ∃ k ∈ t.completions, k.id = p.1 := by
        refine (h.parked p hp).resolve_left ?_
        rintro ⟨g, hg, rfl⟩
        have hempty := (h.one g hg).2
        rw [hch] at hempty
        cases hempty
      refine ⟨⟨h.correlated.answered, h.correlated.failed, ?_⟩, ?_, ?_, h.stream⟩
      · intro id hid
        rcases List.mem_append.mp hid with hid | hid
        · exact h.correlated.released id hid
        · rw [List.mem_singleton] at hid
          subst hid
          exact hdone
      · intro g hg
        refine ⟨(h.one g hg).1, ?_⟩
        by_cases hd : g.stage.direction = p.2.direction
        · simp only [hd, Function.update_self]
        · simp only [Function.update_of_ne hd]
          exact (h.one g hg).2
      · intro p' hp'
        cases hp'
    · exact h

theorem ExchangeInv.send (i : Nat) : ExchangeInv (exchangeStep cc t (.send i)) := by
  simp only [exchangeStep]
  cases hg : t.live[i]? with
  | none => exact h
  | some g =>
    obtain ⟨id, s, leg⟩ := g
    cases leg with
    | receiving m => exact h
    | sending =>
      simp only []
      split_ifs with hb
      · exact h
      · obtain ⟨hlive, rfl⟩ := live_of_getElem? h hg
        have hstream := h.stream (Bool.eq_false_iff.mpr hb)
        rw [hlive] at hstream
        have hset : t.live.set 0 ⟨id, s, .receiving t.sent.length⟩ =
            [⟨id, s, .receiving t.sent.length⟩] := by
          rw [hlive]
          rfl
        have hch : t.resumeCh s.direction = false :=
          (h.one ⟨id, s, .sending⟩ (List.mem_of_getElem? hg)).2
        constructor
        · exact h.correlated.grow rfl rfl (fun hb => hb) (getElem?_grow t.sent s)
            (fun _ _ ha => ha)
        · intro g' hg'
          simp only [hset, List.mem_singleton] at hg' ⊢
          subst hg'
          exact ⟨rfl, hch⟩
        · intro p hp
          rcases h.parked p hp with ⟨g', hg', he⟩ | hdone
          · rw [hlive, List.mem_singleton] at hg'
            subst hg'
            left
            simp only [hset]
            exact ⟨_, List.mem_singleton_self _, he⟩
          · exact .inr hdone
        · intro _
          simp only [hset]
          refine ⟨List.length_append, ?_, .inl ⟨hstream.1, hstream.2⟩⟩
          rw [List.getElem?_concat_length]

theorem ExchangeInv.recv (i : Nat) : ExchangeInv (exchangeStep cc t (.recv i)) := by
  simp only [exchangeStep]
  cases hg : t.live[i]? with
  | none => exact h
  | some g =>
    obtain ⟨id, s, leg⟩ := g
    cases leg with
    | sending => exact h
    | receiving m =>
      cases hin : t.inbox with
      | nil => exact h
      | cons resp rest =>
        simp only []
        split_ifs with hb
        · exact h
        · obtain ⟨hlive, rfl⟩ := live_of_getElem? h hg
          have hwhole : t.broken = false := Bool.eq_false_iff.mpr hb
          have hstream := h.stream hwhole
          rw [hlive] at hstream
          obtain ⟨hlen, hsent, hnil | ⟨resp', hone, hans, hget⟩⟩ := hstream
          · rw [hin] at hnil
            cases hnil.1
          · rw [hin] at hone
            obtain ⟨rfl, rfl⟩ := List.cons_eq_cons.mp hone
            refine h.complete hlive _ _ _ ?_ ?_ ?_
            · intro resp'' he
              cases he
              exact ⟨m, rfl, hsent, hget⟩
            · intro he
              cases he
            · exact fun _ => ⟨rfl, hans.trans hlen.symm⟩

theorem ExchangeInv.fail (i : Nat) : ExchangeInv (exchangeStep cc t (.fail i)) := by
  simp only [exchangeStep]
  cases hg : t.live[i]? with
  | none => exact h
  | some g =>
    simp only []
    split_ifs with hb
    · obtain ⟨hlive, rfl⟩ := live_of_getElem? h hg
      refine h.complete hlive none _ t.inbox ?_ (fun _ => hb) ?_
      · intro resp he
        cases he
      · intro hwhole
        rw [hb] at hwhole
        cases hwhole
    · exact h

theorem ExchangeInv.answer (resp : ProcessingResponse) :
    ExchangeInv (exchangeStep cc t (.answer resp)) := by
  simp only [exchangeStep]
  split_ifs with hok
  · refine ⟨?_, h.one, h.parked, fun hb => ?_⟩
    · exact h.correlated.grow rfl rfl (fun hb => hb) (fun _ _ hs => hs)
        (getElem?_grow t.answers resp)
    · have hstream := h.stream hb
      have hlt := hok.1
      -- only a message that was sent and not answered yet can be answered
      have hbusy : ∀ g, t.live = [g] → ∃ m, g.leg = .receiving m := by
        intro g hlive
        rw [hlive] at hstream
        obtain ⟨id, s, leg⟩ := g
        cases leg with
        | sending => exact absurd hstream.2 (Nat.ne_of_lt hlt)
        | receiving m => exact ⟨m, rfl⟩
      cases hlive : t.live with
      | nil =>
        rw [hlive] at hstream
        exact absurd hstream.2 (Nat.ne_of_lt hlt)
      | cons g rest =>
        have hone := (h.one g (by simp [hlive])).1
        obtain ⟨m, hm⟩ := hbusy g hone
        rw [hone] at hstream hlive
        rw [← hlive]
        obtain ⟨id, s, leg⟩ := g
        cases hm
        obtain ⟨hlen, hsent, hnil | ⟨_, _, hans, _⟩⟩ := hstream
        · refine ⟨hlen, hsent, .inr ⟨resp, ?_, ?_, ?_⟩⟩
          · simp only [hnil.1, List.nil_append]
          · simp only [List.length_append, List.length_singleton, hnil.2]
          · have hend := List.getElem?_concat_length (l := t.answers) (a := resp)
            rw [hnil.2] at hend
            exact hend
        · omega
  · exact h

end

theorem ExchangeInv.step (cc : CompiledConfig) (e : ExchangeEvent) (hok : oneAtATime t e)
    (h : ExchangeInv t) : ExchangeInv (exchangeStep cc t e) := by
  cases e with
  | dispatch s parks => exact h.dispatch cc s parks hok.1 hok.2
  | wake => exact h.wake cc
  | send i => exact h.send cc i
  | recv i => exact h.recv cc i
  | fail i => exact h.fail cc i
  | override resp => exact hok.elim
  | answer resp => exact h.answer cc resp
  | breakStream =>
    refine ⟨h.correlated.grow rfl rfl (fun _ => rfl) (fun _ _ hs => hs) (fun _ _ ha => ha), h.one,
      h.parked, fun hb => ?_⟩
    cases hb

end Step

def freshWorld : World FilterState :=
  { filters := newFilter {}, request := ∅, response := ∅ }

def continueWith (s : Stage) : ProcessingResponse := { response := .stage s (some {}) }

def denial : ProcessingResponse := { response := .immediateResponse { status := some 403 } }

/-- Two stages in turn, each with its answer. -/
def twoStages : List ExchangeEvent :=
  [.dispatch .requestHeaders true, .send 0, .answer (continueWith .requestHeaders), .recv 0, .wake,
   .dispatch .requestBody true, .send 0, .answer denial, .recv 0, .wake]

/-- An override of the timeout, then the denial of the request's headers. -/
def deniedLate : List ExchangeEvent :=
  [.dispatch .requestHeaders true, .send 0,
   .override { response := .unset, overrideMessageTimeout := some 0 }, .recv 0, .wake,
   .answer denial, .dispatch .requestBody true, .send 0, .recv 0]

end EnvoyGo.ExtProc

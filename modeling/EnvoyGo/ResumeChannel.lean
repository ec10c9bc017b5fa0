import EnvoyGo.FilterChain
import EnvoyGo.Runs

/-!
The resume channel of one direction of a chain, step by step.  All filters of the direction
share one channel of capacity one; a park takes whatever is in it.
-/

namespace EnvoyGo

variable {σ : Type}

inductive Direction
  | decode
  | encode
  deriving DecidableEq

/-- The filters a pass visits: those with the direction's side, in its order. -/
def visitOrder (fs : List (HTTPFilter σ)) : Direction → List Nat
  | .decode => (List.range fs.length).filter
      (fun i => ((fs[i]?).bind HTTPFilter.decoder).isSome)
  | .encode => ((List.range fs.length).filter
      (fun i => ((fs[i]?).bind HTTPFilter.encoder).isSome)).reverse

/-- Where the dispatch goroutine is: outside a pass, at the top of the loop, inside a
filter's callback, or parked on that filter. -/
inductive Phase
  | between
  | atTop (todo : List Nat)
  | inCallback (f : Nat) (todo : List Nat)
  | parked (f : Nat) (todo : List Nat)
  deriving DecidableEq

inductive AfterCallback
  | advance
  | park
  | leavePass
  deriving DecidableEq

/-- Steps of the dispatch goroutine, and Continue calls made by anyone at any time through
the callbacks of filter `f`. -/
inductive ResumeEvent
  | startPass
  | loopTop
  | abort
  | callbackReturns (r : AfterCallback)
  | continueCall (f : Nat)
  | wake
  | ctxDone
  deriving DecidableEq

/-- A park that ended: the filter, and whose Continue calls were made since its callback was
entered. -/
structure Release where
  filter : Nat
  callers : List Nat
  deriving DecidableEq

structure ResumeState where
  phase : Phase := .between
  token : Bool := false
  callers : List Nat := []
  released : List Release := []
  deriving DecidableEq

/-- A step that is not enabled leaves the state alone. -/
def resumeStep (order : List Nat) (s : ResumeState) : ResumeEvent → ResumeState
  | .startPass =>
    match s.phase with
    | .between => { s with phase := .atTop order }
    | _ => s
  | .loopTop =>
    match s.phase with
    | .atTop [] => { s with phase := .between }
    | .atTop (f :: todo) => { s with phase := .inCallback f todo, callers := [] }
    | _ => s
  | .abort =>
    match s.phase with
    | .atTop _ => { s with phase := .between }
    | _ => s
  | .callbackReturns r =>
    match s.phase with
    | .inCallback f todo =>
      match r with
      | .advance => { s with phase := .atTop todo }
      | .park => { s with phase := .parked f todo }
      | .leavePass => { s with phase := .between }
    | _ => s
  | .continueCall f => { s with token := true, callers := s.callers ++ [f] }
  | .wake =>
    match s.phase with
    | .parked f todo =>
      if s.token then
        { s with phase := .atTop todo, token := false,
                 released := s.released ++ [⟨f, s.callers⟩] }
      else s
    | _ => s
  | .ctxDone =>
    match s.phase with
    | .parked _ _ => { s with phase := .between }
    | _ => s

def resumeRun (order : List Nat) (es : List ResumeEvent) : ResumeState :=
  es.foldl (resumeStep order) {}

def ResumesOwned (s : ResumeState) : Prop := ∀ r ∈ s.released, r.filter ∈ r.callers

instance (s : ResumeState) : Decidable (ResumesOwned s) :=
  inferInstanceAs (Decidable (∀ r ∈ s.released, r.filter ∈ r.callers))

def visiting : Phase → Option Nat
  | .inCallback f _ => some f
  | .parked f _ => some f
  | _ => none

/-- No step leaves a token for another filter: a Continue that fills the empty channel comes
from the filter being visited, and a filter that moves on by itself, or a pass that starts,
finds the channel empty. -/
def leavesNoToken (s : ResumeState) : ResumeEvent → Prop
  | .startPass => s.token = false
  | .callbackReturns .advance => s.token = false
  | .continueCall f => s.token = true ∨ visiting s.phase = some f
  | _ => True

instance (s : ResumeState) : (e : ResumeEvent) → Decidable (leavesNoToken s e)
  | .startPass => inferInstanceAs (Decidable (s.token = false))
  | .callbackReturns .advance => inferInstanceAs (Decidable (s.token = false))
  | .callbackReturns .park => isTrue trivial
  | .callbackReturns .leavePass => isTrue trivial
  | .continueCall f => inferInstanceAs (Decidable (s.token = true ∨ visiting s.phase = some f))
  | .loopTop => isTrue trivial
  | .abort => isTrue trivial
  | .wake => isTrue trivial
  | .ctxDone => isTrue trivial

structure ResumeInvariant (s : ResumeState) : Prop where
  owned : ResumesOwned s
  atTop : ∀ todo, s.phase = .atTop todo → s.token = false
  visited : ∀ f, visiting s.phase = some f → s.token = true → f ∈ s.callers

theorem ResumeInvariant.initial : ResumeInvariant {} where
  owned := by simp [ResumesOwned]
  atTop := by simp
  visited := by simp [visiting]

theorem ResumeInvariant.setPhase {s : ResumeState} (h : ResumeInvariant s) (p : Phase)
    (htop : ∀ todo, p = .atTop todo → s.token = false)
    (hvis : ∀ f, visiting p = some f → s.token = true → f ∈ s.callers) :
    ResumeInvariant { s with phase := p } where
  owned := h.owned
  atTop := htop
  visited := hvis

theorem ResumeInvariant.leave {s : ResumeState} (h : ResumeInvariant s) :
    ResumeInvariant { s with phase := .between } :=
  h.setPhase .between (by simp) (by simp [visiting])

theorem continueCall_invariant (s : ResumeState) (f : Nat) (h : ResumeInvariant s)
    (hok : s.token = true ∨ visiting s.phase = some f) :
    ResumeInvariant { s with token := true, callers := s.callers ++ [f] } := by
  refine ⟨h.owned, ?_, ?_⟩
  · intro todo hp
    rcases hok with ht | hv
    · have := h.atTop todo hp
      simp [ht] at this
    · have hp' : s.phase = .atTop todo := hp
      simp [hp', visiting] at hv
  · intro g hg _
    have hg' : visiting s.phase = some g := hg
    rcases hok with ht | hv
    · exact List.mem_append_left [f] (h.visited g hg' ht)
    · rw [hg'] at hv
      obtain rfl := Option.some.inj hv
      exact List.mem_append_right s.callers List.mem_cons_self

theorem wake_invariant (s : ResumeState) (f : Nat) (todo : List Nat) (h : ResumeInvariant s)
    (hp : s.phase = .parked f todo) (ht : s.token = true) :
    ResumeInvariant { s with phase := .atTop todo, token := false,
                             released := s.released ++ [⟨f, s.callers⟩] } := by
  have hf : f ∈ s.callers := h.visited f (by rw [hp]; rfl) ht
  refine ⟨?_, fun _ _ => rfl, ?_⟩
  · intro r hr
    rcases List.mem_append.mp hr with hr | hr
    · exact h.owned r hr
    · rw [List.mem_singleton] at hr
      subst hr
      exact hf
  · intro g hg
    simp [visiting] at hg

theorem resumeStep_invariant (order : List Nat) (s : ResumeState) (e : ResumeEvent)
    (hok : leavesNoToken s e) (h : ResumeInvariant s) :
    ResumeInvariant (resumeStep order s e) := by
  cases e with
  | startPass =>
    simp only [resumeStep]
    split
    · exact h.setPhase _ (fun _ _ => hok) (by simp [visiting])
    · exact h
  | loopTop =>
    simp only [resumeStep]
    split
    · exact h.leave
    · rename_i f todo hp
      -- the channel is empty when a callback is entered
      have ht : s.token = false := h.atTop _ hp
      refine ⟨h.owned, by simp, ?_⟩
      intro g _ htok
      simp [ht] at htok
    · exact h
  | abort =>
    simp only [resumeStep]
    split
    · exact h.leave
    · exact h
  | callbackReturns r =>
    simp only [resumeStep]
    split
    · rename_i f todo hp
      cases r with
      | advance => exact h.setPhase _ (fun _ _ => hok) (by simp [visiting])
      | park =>
        refine h.setPhase _ (by simp) ?_
        intro g hg htok
        apply h.visited g _ htok
        rw [hp]
        exact hg
      | leavePass => exact h.leave
    · exact h
  | continueCall f => exact continueCall_invariant s f h hok
  | wake =>
    simp only [resumeStep]
    split
    · rename_i f todo hp
      split_ifs with ht
      · exact wake_invariant s f todo h hp ht
      · exact h
    · exact h
  | ctxDone =>
    simp only [resumeStep]
    split
    · exact h.leave
    · exact h

/-- In every interleaving whose steps leave no token for another filter, on either side of
every chain, a stopped filter is passed only after its own Continue call. -/
theorem resumes_owned_of_no_left_token (fs : List (HTTPFilter σ)) (d : Direction)
    (es : List ResumeEvent)
    (hes : Runs.StepsMeet (resumeStep (visitOrder fs d)) leavesNoToken {} es) :
    ResumesOwned (resumeRun (visitOrder fs d) es) := by
  have hinv : ResumeInvariant (resumeRun (visitOrder fs d) es) :=
    Runs.invariant_of_steps (fun s e hok h => resumeStep_invariant _ s e hok h) es {}
      ResumeInvariant.initial hes
  exact hinv.owned

def twoDecoders : List (HTTPFilter Unit) :=
  let d : StreamDecoderFilter Unit :=
    { decodeHeaders := fun _ => .done .stopIteration
      decodeData := fun _ _ => .done .dataStopIterationNoBuffer
      parked := .done .resumed }
  [{ name := "first", decoder := some d }, { name := "second", decoder := some d }]

def parkCurrent : List ResumeEvent := [.loopTop, .callbackReturns .park]

/-- Filter 0 calls Continue twice; the second call arrives after its own resume. -/
def continueTwice : List ResumeEvent :=
  [.startPass] ++ parkCurrent ++ [.continueCall 0, .wake, .continueCall 0] ++ parkCurrent ++ [.wake]

/-- Filter 0 calls Continue and does not stop. -/
def continueWithoutStop : List ResumeEvent :=
  [.startPass, .loopTop, .continueCall 0, .callbackReturns .advance] ++ parkCurrent ++ [.wake]

/-- Filter 0 calls Continue while filter 1 is parked. -/
def continueForOther : List ResumeEvent :=
  [.startPass, .loopTop, .callbackReturns .advance] ++ parkCurrent ++ [.continueCall 0, .wake]

/-- Each of the three lets the pass move past filter 1, which never called Continue. -/
theorem filter_released_by_other :
    (⟨1, []⟩ : Release) ∈ (resumeRun (visitOrder twoDecoders .decode) continueTwice).released ∧
      (⟨1, []⟩ : Release) ∈
        (resumeRun (visitOrder twoDecoders .decode) continueWithoutStop).released ∧
      (⟨1, [0]⟩ : Release) ∈
        (resumeRun (visitOrder twoDecoders .decode) continueForOther).released ∧
      ¬ ResumesOwned (resumeRun (visitOrder twoDecoders .decode) continueTwice) ∧
      ¬ ResumesOwned (resumeRun (visitOrder twoDecoders .decode) continueWithoutStop) ∧
      ¬ ResumesOwned (resumeRun (visitOrder twoDecoders .decode) continueForOther) := by
  decide

/-- Both filters stop, each is continued by its own callbacks, one of them twice in time. -/
def continueInTurn : List ResumeEvent :=
  [.startPass] ++ parkCurrent ++ [.continueCall 0, .continueCall 0, .wake] ++ parkCurrent
    ++ [.continueCall 1, .wake]

theorem continueInTurn_owned :
    (resumeRun (visitOrder twoDecoders .decode) continueInTurn).released =
        [⟨0, [0, 0]⟩, ⟨1, [1]⟩] ∧
      ResumesOwned (resumeRun (visitOrder twoDecoders .decode) continueInTurn) :=
  ⟨by decide, resumes_owned_of_no_left_token twoDecoders .decode continueInTurn (by decide)⟩

end EnvoyGo

import EnvoyGo.RetryExecutor
import EnvoyGo.Runs
import EnvoyGo.Tally

/-!
The hedging executors of the router: attempts that race, timers that ask for more of them, and the
collector that takes the first acceptable result.  `hedgeExecutorH1` and `hedgeExecutorH2` are this
machine; the driver they call and the retry budget are the environment.
-/

namespace EnvoyGo.Router

open Runs Tally

structure HedgePolicy where
  initialRequests : ℕ
  hedgeOnPerTryTimeout : Bool
  additionalRequestChanceNum : ℕ
  additionalRequestChanceDen : ℕ
  one_le : 1 ≤ initialRequests

def errMsgInitialRequestsBelowOne : String :=
  "initial_requests must be greater than or equal to 1"

def newHedgePolicy (initialRequests : ℕ) (hedgeOnPerTryTimeout : Bool) (chanceNum chanceDen : ℕ) :
    Except String HedgePolicy :=
  if h : initialRequests < 1 then .error errMsgInitialRequestsBelowOne
  else .ok ⟨initialRequests, hedgeOnPerTryTimeout, chanceNum, chanceDen, not_lt.mp h⟩

def drawAdditional (num den seq : ℕ) : Bool :=
  if num = 0 ∨ den = 0 then false else decide (seq % den < num)

/-- The action's policies, and the sequence number drawn for the chance request. -/
structure Hedge where
  hp : HedgePolicy
  rp : Option RetryPolicy
  seq : ℕ

namespace Hedge

def numRetries (cfg : Hedge) : ℕ := cfg.rp.elim 0 RetryPolicy.numRetries

def maxHedges (cfg : Hedge) : ℕ := if cfg.hp.hedgeOnPerTryTimeout then cfg.numRetries else 0

def chanceExtra (cfg : Hedge) : ℕ := if cfg.hp.additionalRequestChanceNum > 0 then 1 else 0

def capacity (cfg : Hedge) : ℕ :=
  cfg.hp.initialRequests + cfg.chanceExtra + cfg.maxHedges + 1

def extra (cfg : Hedge) : ℕ :=
  cfg.hp.initialRequests - 1 +
    if cfg.chanceExtra = 1 ∧ drawAdditional cfg.hp.additionalRequestChanceNum
      cfg.hp.additionalRequestChanceDen cfg.seq = true then 1 else 0

def arms (cfg : Hedge) : Bool :=
  cfg.hp.hedgeOnPerTryTimeout && cfg.rp.any (fun rp => decide (rp.perTryTimeout.ns > 0))

variable {ε : Type}

def acceptable (cfg : Hedge) (r : Outcome ε) : Bool :=
  match cfg.rp with
  | none => true
  | some rp => !rp.matchesOutcome r.resp.status r.resp.localOrigin

end Hedge

/-- The goroutine of an attempt: before its timer, in the driver, past it with the budget slot to
give back, at the send, and past it with the timer to stop. -/
inductive Phase (ε : Type)
  | idle
  | spawned (consumedBudget : Bool)
  | driving (consumedBudget : Bool)
  | returned (consumedBudget : Bool) (r : Outcome ε)
  | sending (r : Outcome ε)
  | sent
  | settled

inductive Timer
  | unset
  | armed
  | firing
  | signalled
  | quiet
  deriving DecidableEq

structure Racer (ε : Type) where
  phase : Phase ε := .idle
  timer : Timer := .unset

inductive Main (ε : Type)
  | fanOut (i : ℕ)
  | collecting
  | returned (r : Outcome ε)

/-- The last four fields are history: the signals and the results the collector has received, and
the budget slots. -/
structure Race (ε : Type) where
  main : Main ε
  launched : ℕ
  attempt : ℕ → Racer ε
  results : List (Outcome ε) := []
  hedgeReq : ℕ := 0
  ctxDone : Bool := false
  hedgesLaunched : ℕ := 0
  inFlight : ℕ
  limitExceededOnce : Bool := false
  last : Outcome ε
  upstreamRqRetry : ℕ := 0
  upstreamRqRetryBackoffExponential : ℕ := 0
  upstreamRqRetryLimitExceeded : ℕ := 0
  taken : ℕ := 0
  received : List (Outcome ε) := []
  acquired : ℕ := 0
  released : ℕ := 0

inductive RaceEvent (ε : Type)
  | fanOut (grant : Bool)
  | receive
  | hedge (grant : Bool)
  | finish
  | arm (k : ℕ)
  | driverReturns (k : ℕ) (r : Outcome ε)
  | release (k : ℕ)
  | send (k : ℕ)
  | stop (k : ℕ)
  | fire (k : ℕ)
  | signal (k : ℕ)
  | giveUp (k : ℕ)
  | cancel

namespace Race

variable {ε : Type}

def launch (s : Race ε) (consumedBudget : Bool) : Race ε :=
  { s with
    launched := s.launched + 1
    attempt := Function.update s.attempt s.launched { phase := .spawned consumedBudget }
    inFlight := s.inFlight + 1 }

/-- The primary attempt is launched, and the fan-out comes next. -/
def start [Inhabited ε] : Race ε :=
  ({ main := .fanOut 0, launched := 0, attempt := fun _ => {}, inFlight := 0,
     last := ⟨{}, default, none⟩ } : Race ε).launch false

def launchRetry (s : Race ε) : Race ε :=
  ({ s with
    acquired := s.acquired + 1
    hedgesLaunched := s.hedgesLaunched + 1
    upstreamRqRetry := s.upstreamRqRetry + 1
    upstreamRqRetryBackoffExponential := s.upstreamRqRetryBackoffExponential + 1 } :
    Race ε).launch true

def setAttempt (s : Race ε) (k : ℕ) (a : Racer ε) : Race ε :=
  { s with attempt := Function.update s.attempt k a }

def fanOut (cfg : Hedge) (s : Race ε) (grant : Bool) : Race ε :=
  match s.main with
  | .fanOut i =>
    if i < cfg.extra ∧ grant = true then { s.launchRetry with main := .fanOut (i + 1) }
    else { s with main := .collecting }
  | _ => s

def receive (cfg : Hedge) (s : Race ε) : Race ε :=
  match s.main, s.results with
  | .collecting, r :: rest =>
    if s.inFlight > 0 then
      let s' := { s with
        results := rest
        inFlight := s.inFlight - 1
        last := r
        received := s.received ++ [r] }
      if cfg.acceptable r then { s' with main := .returned r, ctxDone := true } else s'
    else s
  | _, _ => s

def hedge (cfg : Hedge) (s : Race ε) (grant : Bool) : Race ε :=
  match s.main with
  | .collecting =>
    if s.inFlight > 0 ∧ s.hedgeReq > 0 then
      let s' := { s with hedgeReq := s.hedgeReq - 1, taken := s.taken + 1 }
      if s.hedgesLaunched ≥ cfg.maxHedges then
        if s.limitExceededOnce then s'
        else { s' with
          upstreamRqRetryLimitExceeded := s.upstreamRqRetryLimitExceeded + 1
          limitExceededOnce := true }
      else if grant then s'.launchRetry
      else s'
    else s
  | _ => s

def finish (s : Race ε) : Race ε :=
  match s.main with
  | .collecting =>
    if s.inFlight = 0 then { s with main := .returned s.last, ctxDone := true } else s
  | _ => s

def arm (cfg : Hedge) (s : Race ε) (k : ℕ) : Race ε :=
  match (s.attempt k).phase with
  | .spawned c =>
    s.setAttempt k { phase := .driving c, timer := if cfg.arms then .armed else .unset }
  | _ => s

def driverReturns (s : Race ε) (k : ℕ) (r : Outcome ε) : Race ε :=
  match (s.attempt k).phase with
  | .driving c => s.setAttempt k { s.attempt k with phase := .returned c r }
  | _ => s

def release (s : Race ε) (k : ℕ) : Race ε :=
  match (s.attempt k).phase with
  | .returned c r =>
    { s.setAttempt k { s.attempt k with phase := .sending r } with
      released := if c then s.released + 1 else s.released }
  | _ => s

/-- The send waits for room. -/
def send (cfg : Hedge) (s : Race ε) (k : ℕ) : Race ε :=
  match (s.attempt k).phase with
  | .sending r =>
    if s.results.length < cfg.capacity then
      { s.setAttempt k { s.attempt k with phase := .sent } with results := s.results ++ [r] }
    else s
  | _ => s

/-- The deferred `timer.Stop`. -/
def stop (s : Race ε) (k : ℕ) : Race ε :=
  match (s.attempt k).phase with
  | .sent =>
    s.setAttempt k { phase := .settled
                     timer := if (s.attempt k).timer = .armed then .quiet
                       else (s.attempt k).timer }
  | _ => s

def fire (s : Race ε) (k : ℕ) : Race ε :=
  if (s.attempt k).timer = .armed then s.setAttempt k { s.attempt k with timer := .firing } else s

def signal (cfg : Hedge) (s : Race ε) (k : ℕ) : Race ε :=
  if (s.attempt k).timer = .firing ∧ s.hedgeReq < cfg.capacity then
    { s.setAttempt k { s.attempt k with timer := .signalled } with hedgeReq := s.hedgeReq + 1 }
  else s

def giveUp (s : Race ε) (k : ℕ) : Race ε :=
  if (s.attempt k).timer = .firing ∧ s.ctxDone = true then
    s.setAttempt k { s.attempt k with timer := .quiet }
  else s

def step (cfg : Hedge) (s : Race ε) : RaceEvent ε → Race ε
  | .fanOut grant => s.fanOut cfg grant
  | .receive => s.receive cfg
  | .hedge grant => s.hedge cfg grant
  | .finish => s.finish
  | .arm k => s.arm cfg k
  | .driverReturns k r => s.driverReturns k r
  | .release k => s.release k
  | .send k => s.send cfg k
  | .stop k => s.stop k
  | .fire k => s.fire k
  | .signal k => s.signal cfg k
  | .giveUp k => s.giveUp k
  | .cancel => { s with ctxDone := true }

def run (cfg : Hedge) (s : Race ε) (es : List (RaceEvent ε)) : Race ε := es.foldl (step cfg) s

/-- The executor has returned the first acceptable result it received, or, all that was launched
being retriable, the last one. -/
def ReturnsRightly (cfg : Hedge) (s : Race ε) (r : Outcome ε) : Prop :=
  (∃ before, s.received = before ++ [r] ∧ cfg.acceptable r = true ∧
    ∀ q ∈ before, cfg.acceptable q = false) ∨
  (s.received.length = s.launched ∧ s.received.getLast? = some r ∧
    ∀ q ∈ s.received, cfg.acceptable q = false)

end Race

def Phase.isSettled {ε : Type} : Phase ε → Bool
  | .sent => true
  | .settled => true
  | _ => false

/-- What an executor promises in every state. -/
structure Hedged {ε : Type} (cfg : Hedge) (s : Race ε) : Prop where
  launched : s.launched ≤ 1 + max cfg.extra cfg.numRetries
  sends : ∀ k r, (s.attempt k).phase = .sending r → s.results.length < cfg.capacity
  signals : ∀ k, (s.attempt k).timer = .firing → s.hedgeReq < cfg.capacity
  slots : (∀ k, k < s.launched → (s.attempt k).phase.isSettled = true) → s.released = s.acquired
  limitExceeded : s.upstreamRqRetryLimitExceeded ≤ 1
  result : ∀ r, s.main = .returned r → s.ReturnsRightly cfg r

def Phase.holdsSlot {ε : Type} : Phase ε → Bool
  | .spawned c => c
  | .driving c => c
  | .returned c _ => c
  | _ => false

def Timer.isSignalled (t : Timer) : Bool := decide (t = .signalled)

theorem holdsSlot_of_settled {ε : Type} {p : Phase ε} (h : p.isSettled = true) :
    p.holdsSlot = false := by
  cases p with
  | sent => rfl
  | settled => rfl
  | _ => cases h

namespace Race

variable {ε : Type} {cfg : Hedge} {s : Race ε}

structure Counts (cfg : Hedge) (s : Race ε) : Prop where
  launched : s.launched = 1 + s.hedgesLaunched
  acquired : s.acquired = s.hedgesLaunched
  bound : s.hedgesLaunched ≤ max cfg.extra cfg.maxHedges
  fan : ∀ i, s.main = .fanOut i → s.hedgesLaunched = i
  flight : s.inFlight + s.received.length = s.launched
  fresh : ∀ k, s.launched ≤ k → s.attempt k = {}
  unset : ∀ k c, (s.attempt k).phase = .spawned c → (s.attempt k).timer = .unset
  sent : tally s.launched (fun k => one (s.attempt k).phase.isSettled) =
    s.results.length + s.received.length
  signalled : tally s.launched (fun k => one (s.attempt k).timer.isSignalled) = s.hedgeReq + s.taken
  slots : tally s.launched (fun k => one (s.attempt k).phase.holdsSlot) = s.acquired - s.released
  limit : s.upstreamRqRetryLimitExceeded = if s.limitExceededOnce then 1 else 0

theorem tally_update (w : Racer ε → ℤ) {f : ℕ → Racer ε} {n k : ℕ} (hk : k < n) (a : Racer ε) :
    tally n (fun j => w (Function.update f k a j)) =
      tally n (fun j => w (f j)) + (w a - w (f k)) := by
  have hmove := tally_replace (w := fun j => w (f j))
    (v := fun j => w (Function.update f k a j)) hk
    (fun j hj => by rw [Function.update_of_ne hj])
  rw [hmove, Function.update_self]

section

variable (h : Counts cfg s)

include h

theorem Counts.turn {k : ℕ} (hk : k < s.launched) {a : Racer ε} {results : List (Outcome ε)}
    {hedgeReq released : ℕ} (hsent : one a.phase.isSettled - one (s.attempt k).phase.isSettled =
      results.length - s.results.length)
    (hsignal : one a.timer.isSignalled - one (s.attempt k).timer.isSignalled =
      hedgeReq - s.hedgeReq)
    (hslot : one a.phase.holdsSlot - one (s.attempt k).phase.holdsSlot = s.released - released)
    (hunset : ∀ c, a.phase = .spawned c → a.timer = .unset) :
    Counts cfg { s.setAttempt k a with
      results := results, hedgeReq := hedgeReq, released := released } := by
  refine ⟨h.launched, h.acquired, h.bound, h.fan, h.flight, ?_, ?_, ?_, ?_, ?_, h.limit⟩
  · intro j hj
    have hne : j ≠ k := by
      rintro rfl
      exact absurd hk (not_lt.mpr hj)
    exact (Function.update_of_ne hne ..).trans (h.fresh j hj)
  · intro j c
    change (Function.update s.attempt k a j).phase = _ → (Function.update s.attempt k a j).timer = _
    by_cases hj : j = k
    · subst hj
      rw [Function.update_self]
      exact hunset c
    · rw [Function.update_of_ne hj]
      exact h.unset j c
  · have hcount := h.sent
    refine (tally_update (fun b => one b.phase.isSettled) hk a).trans ?_
    change _ = (results.length : ℤ) + s.received.length
    omega
  · have hcount := h.signalled
    refine (tally_update (fun b => one b.timer.isSignalled) hk a).trans ?_
    change _ = (hedgeReq : ℤ) + s.taken
    omega
  · have hcount := h.slots
    refine (tally_update (fun b => one b.phase.holdsSlot) hk a).trans ?_
    change _ = (s.acquired : ℤ) - released
    omega

theorem Counts.lt_launched {k : ℕ} (hk : s.attempt k ≠ {}) : k < s.launched := by
  by_contra hle
  exact hk (h.fresh k (not_lt.mp hle))

theorem Counts.same {k : ℕ} (hk : k < s.launched) {a : Racer ε}
    (hsent : a.phase.isSettled = (s.attempt k).phase.isSettled)
    (hsignal : a.timer.isSignalled = (s.attempt k).timer.isSignalled)
    (hslot : a.phase.holdsSlot = (s.attempt k).phase.holdsSlot)
    (hunset : ∀ c, a.phase = .spawned c → a.timer = .unset) : Counts cfg (s.setAttempt k a) := by
  refine h.turn hk ?_ ?_ ?_ hunset
  · rw [hsent, sub_self, sub_self]
  · rw [hsignal, sub_self, sub_self]
  · rw [hslot, sub_self, sub_self]

theorem Counts.arm (k : ℕ) : Counts cfg (s.arm cfg k) := by
  unfold Race.arm
  split
  · next c hphase =>
      have hk := h.lt_launched (fun hidle => by rw [hidle] at hphase; cases hphase)
      refine h.same hk ?_ ?_ ?_ (fun _ hp => by cases hp)
      · rw [hphase]
        rfl
      · rw [h.unset k c hphase]
        cases cfg.arms with
        | true => rfl
        | false => rfl
      · rw [hphase]
        rfl
  · exact h

theorem Counts.driverReturns (k : ℕ) (r : Outcome ε) : Counts cfg (s.driverReturns k r) := by
  unfold Race.driverReturns
  split
  · next c hphase =>
      have hk := h.lt_launched (fun hidle => by rw [hidle] at hphase; cases hphase)
      refine h.same hk ?_ rfl ?_ (fun _ hp => by cases hp)
      · rw [hphase]
        rfl
      · rw [hphase]
        rfl
  · exact h

theorem Counts.release (k : ℕ) : Counts cfg (s.release k) := by
  unfold Race.release
  split
  · next c r hphase =>
      have hk := h.lt_launched (fun hidle => by rw [hidle] at hphase; cases hphase)
      refine h.turn hk ?_ ?_ ?_ (fun _ hp => by cases hp)
      · rw [hphase]
        exact (sub_self _).trans (sub_self _).symm
      · exact (sub_self _).trans (sub_self _).symm
      · rw [hphase]
        cases c with
        | true =>
          change (0 : ℤ) - 1 = s.released - (s.released + 1 : ℕ)
          omega
        | false =>
          change (0 : ℤ) - 0 = s.released - s.released
          omega
  · exact h

theorem Counts.send (k : ℕ) : Counts cfg (s.send cfg k) := by
  unfold Race.send
  split
  · next r hphase =>
      have hk := h.lt_launched (fun hidle => by rw [hidle] at hphase; cases hphase)
      split_ifs
      · refine h.turn hk ?_ ?_ ?_ (fun _ hp => by cases hp)
        · rw [hphase, List.length_append]
          change (1 : ℤ) - 0 = ((s.results.length + 1 : ℕ) : ℤ) - s.results.length
          omega
        · exact (sub_self _).trans (sub_self _).symm
        · rw [hphase]
          exact (sub_self _).trans (sub_self _).symm
      · exact h
  · exact h

theorem Counts.stop (k : ℕ) : Counts cfg (s.stop k) := by
  unfold Race.stop
  split
  · next hphase =>
      have hk := h.lt_launched (fun hidle => by rw [hidle] at hphase; cases hphase)
      refine h.same hk ?_ ?_ ?_ (fun _ hp => by cases hp)
      · rw [hphase]
        rfl
      · by_cases harmed : (s.attempt k).timer = .armed
        · rw [harmed]
          rfl
        · dsimp only
          rw [if_neg harmed]
      · rw [hphase]
        rfl
  · exact h

theorem Counts.timer_set {k : ℕ} {t : Timer} (hk : (s.attempt k).timer = t) (ht : t ≠ .unset) :
    k < s.launched ∧ ∀ c, (s.attempt k).phase ≠ .spawned c := by
  constructor
  · refine h.lt_launched (fun hidle => ht ?_)
    rw [← hk, hidle]
  · intro c hphase
    exact ht (hk.symm.trans (h.unset k c hphase))

theorem Counts.fire (k : ℕ) : Counts cfg (s.fire k) := by
  unfold Race.fire
  split_ifs with harmed
  · obtain ⟨hk, hspawned⟩ := h.timer_set harmed Timer.noConfusion
    refine h.same hk rfl ?_ rfl (fun c hp => absurd hp (hspawned c))
    rw [harmed]
    rfl
  · exact h

theorem Counts.signal (k : ℕ) : Counts cfg (s.signal cfg k) := by
  unfold Race.signal
  split_ifs with hfiring
  · obtain ⟨hk, hspawned⟩ := h.timer_set hfiring.1 Timer.noConfusion
    refine h.turn hk ?_ ?_ ?_ (fun c hp => absurd hp (hspawned c))
    · exact (sub_self _).trans (sub_self _).symm
    · rw [hfiring.1]
      change (1 : ℤ) - 0 = ((s.hedgeReq + 1 : ℕ) : ℤ) - s.hedgeReq
      omega
    · exact (sub_self _).trans (sub_self _).symm
  · exact h

theorem Counts.giveUp (k : ℕ) : Counts cfg (s.giveUp k) := by
  unfold Race.giveUp
  split_ifs with hfiring
  · obtain ⟨hk, hspawned⟩ := h.timer_set hfiring.1 Timer.noConfusion
    refine h.same hk rfl ?_ rfl (fun c hp => absurd hp (hspawned c))
    rw [hfiring.1]
    rfl
  · exact h

end

theorem tally_launch (w : Racer ε → ℤ) (s : Race ε) (c : Bool) :
    tally (s.launch c).launched (fun k => w ((s.launch c).attempt k)) =
      tally s.launched (fun k => w (s.attempt k)) + w { phase := .spawned c } := by
  refine (tally_succ _ _).trans ?_
  have hold : tally s.launched (fun k => w ((s.launch c).attempt k)) =
      tally s.launched (fun k => w (s.attempt k)) :=
    tally_congr (fun k hk => congrArg w (Function.update_of_ne (ne_of_lt hk) ..))
  have hnew : (s.launch c).attempt s.launched = { phase := .spawned c } :=
    Function.update_self ..
  rw [hold, hnew]

theorem Counts.launchRetry (h : Counts cfg s) (main : Main ε)
    (hroom : s.hedgesLaunched < max cfg.extra cfg.maxHedges)
    (hfan : ∀ i, main = .fanOut i → i = s.hedgesLaunched + 1) :
    Counts cfg { s.launchRetry with main := main } := by
  have hlaunched := h.launched
  have hacquired := h.acquired
  have hflight := h.flight
  refine ⟨?_, ?_, hroom, ?_, ?_, ?_, ?_, ?_, ?_, ?_, h.limit⟩
  · change s.launched + 1 = 1 + (s.hedgesLaunched + 1)
    omega
  · change s.acquired + 1 = s.hedgesLaunched + 1
    omega
  · intro i hi
    exact (hfan i hi).symm
  · change s.inFlight + 1 + s.received.length = s.launched + 1
    omega
  · intro k hk
    have hlt : s.launched < k := hk
    exact (Function.update_of_ne (ne_of_gt hlt) ..).trans (h.fresh k (le_of_lt hlt))
  · intro k c
    change (Function.update s.attempt s.launched _ k).phase = _ →
      (Function.update s.attempt s.launched _ k).timer = _
    by_cases hk : k = s.launched
    · subst hk
      rw [Function.update_self]
      exact fun _ => rfl
    · rw [Function.update_of_ne hk]
      exact h.unset k c
  · have hcount := h.sent
    refine (tally_launch (fun b => one b.phase.isSettled) _ true).trans ?_
    change _ + (0 : ℤ) = _
    exact (add_zero _).trans hcount
  · have hcount := h.signalled
    refine (tally_launch (fun b => one b.timer.isSignalled) _ true).trans ?_
    change _ + (0 : ℤ) = _
    exact (add_zero _).trans hcount
  · have hcount := h.slots
    refine (tally_launch (fun b => one b.phase.holdsSlot) _ true).trans ?_
    change tally s.launched (fun k => one (s.attempt k).phase.holdsSlot) + (1 : ℤ) =
      ((s.acquired + 1 : ℕ) : ℤ) - s.released
    omega

theorem Counts.leave (h : Counts cfg s) (ctxDone : Bool) {main : Main ε}
    (hmain : ∀ i, main ≠ .fanOut i) :
    Counts cfg { s with main := main, ctxDone := ctxDone } := by
  refine ⟨h.launched, h.acquired, h.bound, ?_, h.flight, h.fresh, h.unset, h.sent, h.signalled,
    h.slots, h.limit⟩
  intro i hi
  exact absurd hi (hmain i)

theorem Counts.fanOut (h : Counts cfg s) (grant : Bool) : Counts cfg (s.fanOut cfg grant) := by
  unfold Race.fanOut
  split
  · next i hmain =>
      have hi := h.fan i hmain
      split_ifs with hturn
      · refine h.launchRetry _ ?_ ?_
        · rw [hi]
          exact lt_max_of_lt_left hturn.1
        · intro j hj
          cases hj
          rw [hi]
      · exact h.leave s.ctxDone (fun _ => nofun)
  · exact h

theorem Counts.receive (h : Counts cfg s) : Counts cfg (s.receive cfg) := by
  unfold Race.receive
  split
  · next r rest hmain hresults =>
      by_cases hflight : s.inFlight > 0
      · rw [if_pos hflight]
        have htaken : Counts cfg { s with
            results := rest, inFlight := s.inFlight - 1, last := r,
            received := s.received ++ [r] } := by
          refine ⟨h.launched, h.acquired, h.bound, h.fan, ?_, h.fresh, h.unset, ?_, h.signalled,
            h.slots, h.limit⟩
          · have hsum := h.flight
            change s.inFlight - 1 + (s.received ++ [r]).length = s.launched
            rw [List.length_append, List.length_singleton]
            omega
          · have hsum := h.sent
            rw [hresults, List.length_cons] at hsum
            change tally s.launched _ = (rest.length : ℤ) + (s.received ++ [r]).length
            rw [List.length_append, List.length_singleton, hsum]
            omega
        cases cfg.acceptable r with
        | true => exact htaken.leave true (fun _ => nofun)
        | false => exact htaken
      · rw [if_neg hflight]
        exact h
  · exact h

theorem Counts.hedge (h : Counts cfg s) (grant : Bool) : Counts cfg (s.hedge cfg grant) := by
  unfold Race.hedge
  split
  · next hmain =>
      by_cases hsignal : s.inFlight > 0 ∧ s.hedgeReq > 0
      · rw [if_pos hsignal]
        have htaken : Counts cfg { s with
            hedgeReq := s.hedgeReq - 1, taken := s.taken + 1 } := by
          refine ⟨h.launched, h.acquired, h.bound, h.fan, h.flight, h.fresh, h.unset, h.sent, ?_,
            h.slots, h.limit⟩
          have hsum := h.signalled
          have hpos := hsignal.2
          change tally s.launched _ = ((s.hedgeReq - 1 : ℕ) : ℤ) + (s.taken + 1 : ℕ)
          rw [hsum]
          omega
        by_cases hfull : s.hedgesLaunched ≥ cfg.maxHedges
        · rw [if_pos hfull]
          have hlimit := h.limit
          by_cases honce : s.limitExceededOnce = true
          · rw [if_pos honce]
            exact htaken
          · rw [if_neg honce] at hlimit ⊢
            refine ⟨htaken.launched, htaken.acquired, htaken.bound, htaken.fan, htaken.flight,
              htaken.fresh, htaken.unset, htaken.sent, htaken.signalled, htaken.slots, ?_⟩
            change s.upstreamRqRetryLimitExceeded + 1 = 1
            rw [hlimit]
        · rw [if_neg hfull]
          cases grant with
          | true =>
            refine htaken.launchRetry s.main ?_ ?_
            · exact lt_max_of_lt_right (not_le.mp hfull)
            · intro i hi
              rw [hmain] at hi
              cases hi
          | false => exact htaken
      · rw [if_neg hsignal]
        exact h
  · exact h

theorem Counts.finish (h : Counts cfg s) : Counts cfg s.finish := by
  unfold Race.finish
  split
  · split_ifs
    · exact h.leave true (fun _ => nofun)
    · exact h
  · exact h

theorem counts_start [Inhabited ε] : Counts cfg (start : Race ε) := by
  refine ⟨rfl, rfl, Nat.zero_le _, ?_, rfl, ?_, ?_, rfl, rfl, rfl, rfl⟩
  · intro i hi
    cases hi
    rfl
  · intro k hk
    have hlt : 0 < k := hk
    exact Function.update_of_ne (ne_of_gt hlt) ..
  · intro k c
    have hattempt : (start : Race ε).attempt =
        Function.update (fun _ => {}) 0 { phase := .spawned false } := rfl
    rw [hattempt]
    by_cases hk : k = 0
    · subst hk
      rw [Function.update_self]
      exact fun _ => rfl
    · rw [Function.update_of_ne hk]
      exact fun _ => rfl

theorem Counts.step (h : Counts cfg s) (e : RaceEvent ε) : Counts cfg (s.step cfg e) := by
  cases e with
  | fanOut grant => exact h.fanOut grant
  | receive => exact h.receive
  | hedge grant => exact h.hedge grant
  | finish => exact h.finish
  | arm k => exact h.arm k
  | driverReturns k r => exact h.driverReturns k r
  | release k => exact h.release k
  | send k => exact h.send k
  | stop k => exact h.stop k
  | fire k => exact h.fire k
  | signal k => exact h.signal k
  | giveUp k => exact h.giveUp k
  | cancel => exact ⟨h.launched, h.acquired, h.bound, h.fan, h.flight, h.fresh, h.unset, h.sent,
      h.signalled, h.slots, h.limit⟩

/-- The part of the state that the collector's answer is about. -/
def seen (s : Race ε) : Main ε × ℕ × List (Outcome ε) × Outcome ε :=
  (s.main, s.launched, s.received, s.last)

/-- All that was received is retriable and `last` is the latest of it, until the executor returns
rightly. -/
def Collects (cfg : Hedge) : Main ε × ℕ × List (Outcome ε) × Outcome ε → Prop
  | (.returned r, launched, received, _) =>
    (∃ before, received = before ++ [r] ∧ cfg.acceptable r = true ∧
      ∀ q ∈ before, cfg.acceptable q = false) ∨
    (received.length = launched ∧ received.getLast? = some r ∧
      ∀ q ∈ received, cfg.acceptable q = false)
  | (_, _, received, last) =>
    (∀ q ∈ received, cfg.acceptable q = false) ∧ (received ≠ [] → received.getLast? = some last)

end Race

def RaceEvent.isExecutor {ε : Type} : RaceEvent ε → Bool
  | .fanOut _ => true
  | .receive => true
  | .hedge _ => true
  | .finish => true
  | _ => false

namespace Race

variable {ε : Type} {cfg : Hedge} {s : Race ε}

theorem seen_step_of_goroutine (e : RaceEvent ε) (he : e.isExecutor = false) :
    (s.step cfg e).seen = s.seen := by
  cases e with
  | arm k =>
    change (s.arm cfg k).seen = s.seen
    unfold Race.arm
    split <;> rfl
  | driverReturns k r =>
    change (s.driverReturns k r).seen = s.seen
    unfold Race.driverReturns
    split <;> rfl
  | release k =>
    change (s.release k).seen = s.seen
    unfold Race.release
    split <;> rfl
  | send k =>
    change (s.send cfg k).seen = s.seen
    unfold Race.send
    split
    · split_ifs <;> rfl
    · rfl
  | stop k =>
    change (s.stop k).seen = s.seen
    unfold Race.stop
    split <;> rfl
  | fire k =>
    change (s.fire k).seen = s.seen
    unfold Race.fire
    split_ifs <;> rfl
  | signal k =>
    change (s.signal cfg k).seen = s.seen
    unfold Race.signal
    split_ifs <;> rfl
  | giveUp k =>
    change (s.giveUp k).seen = s.seen
    unfold Race.giveUp
    split_ifs <;> rfl
  | cancel => rfl
  | _ => cases he

theorem collects_of_collecting {main : Main ε} {launched : ℕ} {received : List (Outcome ε)}
    {last : Outcome ε} (hmain : main = .collecting)
    (h : Collects cfg (.collecting, launched, received, last)) :
    Collects cfg (main, launched, received, last) := by
  rw [hmain]
  exact h

theorem collects_fanOut (h : Collects cfg s.seen) (grant : Bool) :
    Collects cfg (s.fanOut cfg grant).seen := by
  unfold Race.fanOut
  split
  · next i hmain =>
      rw [seen, hmain] at h
      split_ifs
      · exact h
      · exact h
  · exact h

theorem collects_receive (h : Collects cfg s.seen) : Collects cfg (s.receive cfg).seen := by
  unfold Race.receive
  split
  · next r rest hmain hresults =>
      by_cases hflight : s.inFlight > 0
      · rw [if_pos hflight]
        rw [seen, hmain] at h
        obtain ⟨hretriable, _⟩ := h
        cases hr : cfg.acceptable r with
        | true => exact .inl ⟨s.received, rfl, hr, hretriable⟩
        | false =>
          refine collects_of_collecting hmain ⟨?_, ?_⟩
          · intro q hq
            obtain hq | hq := List.mem_append.mp hq
            · exact hretriable q hq
            · rw [List.mem_singleton.mp hq]
              exact hr
          · exact fun _ => List.getLast?_concat
      · rw [if_neg hflight]
        exact h
  · exact h

theorem collects_hedge (h : Collects cfg s.seen) (grant : Bool) :
    Collects cfg (s.hedge cfg grant).seen := by
  unfold Race.hedge
  split
  · next hmain =>
      rw [seen, hmain] at h
      split_ifs
      · exact collects_of_collecting hmain h
      · exact collects_of_collecting hmain h
      · exact collects_of_collecting hmain h
      · exact collects_of_collecting hmain h
      · exact collects_of_collecting hmain h
  · exact h

theorem collects_finish (hcounts : Counts cfg s) (h : Collects cfg s.seen) :
    Collects cfg s.finish.seen := by
  unfold Race.finish
  split
  · next hmain =>
      split_ifs with hnone
      · rw [seen, hmain] at h
        have hall : s.received.length = s.launched := by
          have hflight := hcounts.flight
          omega
        refine .inr ⟨hall, h.2 ?_, h.1⟩
        intro hempty
        have hlaunched := hcounts.launched
        rw [hempty, List.length_nil] at hall
        omega
      · exact h
  · exact h

theorem collects_step (hcounts : Counts cfg s) (h : Collects cfg s.seen) (e : RaceEvent ε) :
    Collects cfg (s.step cfg e).seen := by
  cases he : e.isExecutor with
  | false =>
    rw [seen_step_of_goroutine e he]
    exact h
  | true =>
    cases e with
    | fanOut grant => exact collects_fanOut h grant
    | receive => exact collects_receive h
    | hedge grant => exact collects_hedge h grant
    | finish => exact collects_finish hcounts h
    | _ => cases he

theorem returnsRightly_of_collects (h : Collects cfg s.seen) {r : Outcome ε}
    (hr : s.main = .returned r) : s.ReturnsRightly cfg r := by
  rw [seen, hr] at h
  exact h

theorem maxHedges_le (cfg : Hedge) : cfg.maxHedges ≤ cfg.numRetries := by
  unfold Hedge.maxHedges
  split_ifs
  · exact le_rfl
  · exact Nat.zero_le _

theorem extra_le (cfg : Hedge) : cfg.extra + 1 ≤ cfg.hp.initialRequests + cfg.chanceExtra := by
  have hone := cfg.hp.one_le
  unfold Hedge.extra
  split_ifs with hdraw
  · rw [hdraw.1]
    omega
  · omega

theorem Counts.launched_le_capacity (h : Counts cfg s) : s.launched ≤ cfg.capacity := by
  have hlaunched := h.launched
  have hbound := h.bound
  have hextra := extra_le cfg
  have hmax : max cfg.extra cfg.maxHedges ≤ cfg.extra + cfg.maxHedges :=
    max_le (Nat.le_add_right _ _) (Nat.le_add_left _ _)
  unfold Hedge.capacity
  omega

theorem Counts.results_lt (h : Counts cfg s) {k : ℕ} {r : Outcome ε}
    (hk : (s.attempt k).phase = .sending r) : s.results.length < cfg.capacity := by
  have hlt := h.lt_launched (fun hidle => by rw [hidle] at hk; cases hk)
  have hroom := tally_one_lt s.launched (fun j => (s.attempt j).phase.isSettled) hlt
    (by rw [hk]; rfl)
  have hsent := h.sent
  have hcapacity := h.launched_le_capacity
  omega

theorem Counts.hedgeReq_lt (h : Counts cfg s) {k : ℕ} (hk : (s.attempt k).timer = .firing) :
    s.hedgeReq < cfg.capacity := by
  obtain ⟨hlt, _⟩ := h.timer_set hk Timer.noConfusion
  have hroom := tally_one_lt s.launched (fun j => (s.attempt j).timer.isSignalled) hlt
    (by rw [hk]; rfl)
  have hsignalled := h.signalled
  have hcapacity := h.launched_le_capacity
  omega

theorem Counts.released_eq (h : Counts cfg s)
    (hall : ∀ k, k < s.launched → (s.attempt k).phase.isSettled = true) :
    s.released = s.acquired := by
  have hnone : tally s.launched (fun k => one (s.attempt k).phase.holdsSlot) =
      tally s.launched (fun _ => 0) :=
    tally_congr (fun k hk => by rw [holdsSlot_of_settled (hall k hk)]; rfl)
  have hzero : tally s.launched (fun _ => 0) = 0 := Finset.sum_const_zero
  have hslots := h.slots
  omega

theorem hedged_of_counts (h : Counts cfg s) (hcollects : Collects cfg s.seen) : Hedged cfg s where
  launched := by
    have hmax : max cfg.extra cfg.maxHedges ≤ max cfg.extra cfg.numRetries :=
      max_le_max_left cfg.extra (maxHedges_le cfg)
    rw [h.launched]
    exact Nat.add_le_add_left (h.bound.trans hmax) 1
  sends := fun _ _ hk => h.results_lt hk
  signals := fun _ hk => h.hedgeReq_lt hk
  slots := h.released_eq
  limitExceeded := by
    rw [h.limit]
    split_ifs
    · exact le_rfl
    · exact zero_le_one
  result := fun _ hr => returnsRightly_of_collects hcollects hr

/-- In every interleaving of the executor, its attempts and their timers. -/
theorem hedged_run [Inhabited ε] (cfg : Hedge) (es : List (RaceEvent ε)) :
    Hedged cfg ((start : Race ε).run cfg es) := by
  have hstep : ∀ (s : Race ε) e, (Counts cfg s ∧ Collects cfg s.seen) →
      Counts cfg (s.step cfg e) ∧ Collects cfg (s.step cfg e).seen :=
    fun s e h => ⟨h.1.step e, collects_step h.1 h.2 e⟩
  have hstart : Collects cfg (start : Race ε).seen := ⟨nofun, fun h => absurd rfl h⟩
  have hrun := invariant_of_run hstep es start ⟨counts_start, hstart⟩
  exact hedged_of_counts hrun.1 hrun.2

end Race

end EnvoyGo.Router

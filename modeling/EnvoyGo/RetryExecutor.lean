import EnvoyGo.HTTPHeader
import Mathlib.Tactic.Common
import Mathlib.Algebra.Order.Group.Int

/-!
The retry loops of the router: the policy, one attempt after another, and what each attempt writes
in the cluster's counters.  The drivers, the clock and the retry budget are the environment.
-/

namespace EnvoyGo.Router

/-- `ActionResponse`; `localOrigin` marks a failure the router made up itself. -/
structure ActionResponse where
  status : ℤ := 0
  headers : OrderedHeaders := []
  body : Bytes := []
  close : Bool := false
  trailers : OrderedHeaders := []
  localOrigin : Bool := false
  deriving DecidableEq

abbrev RetryOnBits := UInt8

def retry5xx : RetryOnBits := 1
def retryGatewayError : RetryOnBits := 2
def retryConnectFail : RetryOnBits := 4
def retryStatusCodes : RetryOnBits := 8
def retryReset : RetryOnBits := 16

def minInt64 : ℤ := -2^63

def maxInt64 : ℤ := 2^63 - 1

/-- What `int64` arithmetic leaves of a number. -/
def wrap64 (x : ℤ) : ℤ := (x + 2^63) % 2^64 - 2^63

theorem wrap64_range (x : ℤ) : minInt64 ≤ wrap64 x ∧ wrap64 x ≤ maxInt64 := by
  have hlow := Int.emod_nonneg (x + 2^63) (by decide : (2:ℤ)^64 ≠ 0)
  have hhigh := Int.emod_lt_of_pos (x + 2^63) (by decide : (0:ℤ) < 2^64)
  unfold wrap64 minInt64 maxInt64
  omega

theorem wrap64_of_range {x : ℤ} (hlow : minInt64 ≤ x) (hhigh : x ≤ maxInt64) : wrap64 x = x := by
  unfold minInt64 at hlow
  unfold maxInt64 at hhigh
  unfold wrap64
  omega

/-- `time.Duration`, in nanoseconds. -/
structure Duration where
  ns : ℤ
  range : minInt64 ≤ ns ∧ ns ≤ maxInt64

def Duration.wrap (x : ℤ) : Duration := ⟨wrap64 x, wrap64_range x⟩

/-- A policy that `newRetryPolicy` has accepted. -/
structure RetryPolicy where
  on : RetryOnBits
  numRetries : ℕ
  retriableCodes : List ℤ
  baseInterval : Duration
  maxInterval : Duration
  perTryTimeout : Duration
  base_pos : 0 < baseInterval.ns
  base_le_max : baseInterval.ns ≤ maxInterval.ns
  perTry_nonneg : 0 ≤ perTryTimeout.ns

def retryOnTokens (s : String) : List String :=
  (s.toList.splitOnP (fun c => c == ',' || c == ' ')).filterMap
    (fun tok => if tok = [] then none else some (String.ofList tok))

def retryOnToken : String → RetryOnBits
  | "5xx" => retry5xx
  | "gateway-error" => retryGatewayError
  | "connect-failure" => retryConnectFail
  | "reset" => retryReset
  | "retriable-status-codes" => retryStatusCodes
  | _ => 0

def parseRetryOn (s : String) : RetryOnBits :=
  (retryOnTokens s).foldl (fun b tok => b ||| retryOnToken tok) 0

def errMsgMaxIntervalBelowBase : String :=
  "max_interval must be greater than or equal to the base_interval"

def errMsgPerTryTimeoutNegative : String := "per_try_timeout must not be negative"

def orBase (d : Duration) : Duration := if d.ns ≤ 0 then Duration.wrap 25000000 else d

theorem orBase_pos (d : Duration) : 0 < (orBase d).ns := by
  unfold orBase
  split_ifs with h
  · decide
  · exact not_le.mp h

def newRetryPolicy (retryOn : String) (numRetries : UInt32) (retriableCodes : List UInt32)
    (baseInterval maxInterval perTryTimeout : Duration) : Except String RetryPolicy :=
  let base := orBase baseInterval
  let max := if maxInterval.ns ≤ 0 then Duration.wrap (10 * base.ns) else maxInterval
  if hmax : max.ns < base.ns then .error errMsgMaxIntervalBelowBase
  else if hper : perTryTimeout.ns < 0 then .error errMsgPerTryTimeoutNegative
  else .ok
    { on := parseRetryOn retryOn
      numRetries := numRetries.toNat
      retriableCodes := retriableCodes.map (fun c => (c.toNat : ℤ))
      baseInterval := base
      maxInterval := max
      perTryTimeout := perTryTimeout
      base_pos := orBase_pos baseInterval
      base_le_max := not_lt.mp hmax
      perTry_nonneg := not_lt.mp hper }

namespace RetryPolicy

/-- The upper end of the jitter before retry `n`. -/
def backoffCap (rp : RetryPolicy) (n : ℕ) : ℤ :=
  let d := wrap64 (rp.baseInterval.ns * 2^(n - 1))
  if d > rp.maxInterval.ns ∨ d ≤ 0 then rp.maxInterval.ns else d

/-- The delay drawn before retry `n`; `Int63n` panics on a bound that is not positive. -/
def backoff (rp : RetryPolicy) (n : ℕ) (draw : ℕ) : Option ℤ :=
  let bound := wrap64 (rp.backoffCap n + 1)
  if bound ≤ 0 then none else some (draw % bound)

def matchesOutcome (rp : RetryPolicy) (status : ℤ) (localOrigin : Bool) : Bool :=
  (rp.on &&& (retryConnectFail ||| retryReset) != 0 && localOrigin) ||
  (rp.on &&& retry5xx != 0 && decide (500 ≤ status) && decide (status ≤ 599)) ||
  (rp.on &&& retryGatewayError != 0 && (status == 502 || status == 503 || status == 504)) ||
  (rp.on &&& retryStatusCodes != 0 && rp.retriableCodes.contains status)

def perTryTimeoutRetriable (rp : RetryPolicy) : Bool :=
  rp.matchesOutcome 504 false || rp.on &&& retryReset != 0

theorem backoffCap_range (rp : RetryPolicy) (n : ℕ) :
    0 < rp.backoffCap n ∧ rp.backoffCap n ≤ maxInt64 := by
  have hbase := rp.base_pos
  have hle := rp.base_le_max
  have hmax := rp.maxInterval.range.2
  unfold backoffCap
  dsimp only
  split_ifs with h
  · omega
  · rw [not_or, not_lt, not_le] at h
    exact ⟨h.2, h.1.trans hmax⟩

theorem backoff_eq_none_iff (rp : RetryPolicy) (n draw : ℕ) :
    rp.backoff n draw = none ↔ rp.backoffCap n = maxInt64 := by
  obtain ⟨hpos, hle⟩ := rp.backoffCap_range n
  unfold backoff
  dsimp only
  constructor
  · intro h
    by_contra hne
    have hlow : minInt64 ≤ rp.backoffCap n + 1 := by
      unfold minInt64
      omega
    have hwrap := wrap64_of_range hlow (by omega)
    rw [hwrap, if_neg (by omega)] at h
    cases h
  · intro h
    rw [h, if_pos]
    decide

end RetryPolicy

structure Attempt (ε : Type) where
  resp : ActionResponse
  ep : ε
  err : Option String
  malformedTrailers : Bool := false
  parentCtxErr : Bool := false
  deadlineExceeded : Bool := false
  deadlineElapsed : Bool := false
  date : String := ""

/-- What an executor returns. -/
structure Outcome (ε : Type) where
  resp : ActionResponse
  ep : ε
  err : Option String
  deriving DecidableEq

/-- The driver's answer to each call, whether the budget grants retry `n`, and the jitter. -/
structure Env (ε : Type) where
  driver : ℕ → Attempt ε
  grant : ℕ → Bool
  draw : ℕ → ℕ
  server : String

structure Ledger where
  driverCalls : ℕ := 0
  upstreamRqRetry : ℕ := 0
  upstreamRqRetryBackoffExponential : ℕ := 0
  upstreamRqRetrySuccess : ℕ := 0
  upstreamRqRetryLimitExceeded : ℕ := 0
  upstreamRqPerTryTimeout : ℕ := 0
  acquired : ℕ := 0
  released : ℕ := 0
  deriving DecidableEq

structure Ended (ε : Type) where
  ledger : Ledger
  result : Option (Outcome ε)
  deriving DecidableEq

namespace Ledger

/-- A retry the budget grants. -/
def admitted (l : Ledger) : Ledger :=
  { l with
    acquired := l.acquired + 1
    upstreamRqRetry := l.upstreamRqRetry + 1
    upstreamRqRetryBackoffExponential := l.upstreamRqRetryBackoffExponential + 1 }

def called (l : Ledger) : Ledger := { l with driverCalls := l.driverCalls + 1 }

def gaveBack (l : Ledger) : Ledger := { l with released := l.released + 1 }

def incPerTryTimeout (l : Ledger) : Ledger :=
  { l with upstreamRqPerTryTimeout := l.upstreamRqPerTryTimeout + 1 }

def incRetrySuccess (l : Ledger) : Ledger :=
  { l with upstreamRqRetrySuccess := l.upstreamRqRetrySuccess + 1 }

def incRetryLimitExceeded (l : Ledger) : Ledger :=
  { l with upstreamRqRetryLimitExceeded := l.upstreamRqRetryLimitExceeded + 1 }

end Ledger

structure Codec (ε : Type) where
  timedOut : RetryPolicy → Attempt ε → Bool
  timeoutHeaders : Env ε → Attempt ε → OrderedHeaders

section Executor

variable {ε : Type} (c : Codec ε) (rp : RetryPolicy) (env : Env ε)

def settle (a : Attempt ε) : Outcome ε :=
  if c.timedOut rp a then ⟨{ status := 504, headers := c.timeoutHeaders env a }, a.ep, none⟩
  else ⟨a.resp, a.ep, a.err⟩

def booked (attempt : ℕ) (l : Ledger) : Ledger :=
  let l := if attempt > 0 then l.called.gaveBack else l.called
  if c.timedOut rp (env.driver attempt) then l.incPerTryTimeout else l

def retryLoop (left attempt : ℕ) (l : Ledger) (last : Outcome ε) : Ended ε :=
  if attempt > 0 ∧ env.grant attempt = false then ⟨l, some last⟩
  else
    let l := if attempt > 0 then l.admitted else l
    if attempt > 0 ∧ rp.backoff attempt (env.draw attempt) = none then ⟨l, none⟩
    else
      let a := env.driver attempt
      let out := settle c rp env a
      let l := booked c rp env attempt l
      if c.timedOut rp a = true ∧ rp.perTryTimeoutRetriable = false then ⟨l, some out⟩
      else if c.timedOut rp a = false ∧
          rp.matchesOutcome a.resp.status a.resp.localOrigin = false then
        ⟨if attempt > 0 then l.incRetrySuccess else l, some out⟩
      else
        match left with
        | 0 => ⟨l.incRetryLimitExceeded, some out⟩
        | left + 1 => retryLoop left (attempt + 1) l out

end Executor

def timedOutH1 {ε : Type} (rp : RetryPolicy) (a : Attempt ε) : Bool :=
  decide (rp.perTryTimeout.ns > 0) && !a.parentCtxErr && a.resp.localOrigin &&
    (a.deadlineExceeded || a.deadlineElapsed)

def perTryTimedOutH2 {ε : Type} (rp : RetryPolicy) (a : Attempt ε) : Bool :=
  if rp.perTryTimeout.ns ≤ 0 then false
  else if a.parentCtxErr then false
  else if !a.resp.localOrigin && a.resp.status != 0 then false
  else if a.malformedTrailers then false
  else a.deadlineElapsed

def localReplyHeaders (bodyLen : ℕ) (server date : String) : OrderedHeaders :=
  [⟨"Content-Type", "text/plain"⟩, ⟨"Content-Length", toString bodyLen⟩, ⟨"Server", server⟩,
    ⟨"Date", date⟩]

def h2LocalReplyHeaders (bodyLen : ℕ) (server date : String) : OrderedHeaders :=
  [⟨"Content-Type", "text/plain"⟩, ⟨"Content-Length", toString bodyLen⟩, ⟨"Date", date⟩,
    ⟨"Server", server⟩]

def codecH1 (ε : Type) : Codec ε :=
  ⟨timedOutH1, fun env a => localReplyHeaders 0 env.server a.date⟩

def codecH2 (ε : Type) : Codec ε :=
  ⟨perTryTimedOutH2, fun env a => h2LocalReplyHeaders 0 env.server a.date⟩

def retryExecutor {ε : Type} [Inhabited ε] (c : Codec ε) (rp : RetryPolicy) (env : Env ε) :
    Ended ε :=
  retryLoop c rp env rp.numRetries 0 {} ⟨{}, default, none⟩

def retryExecutorH1 {ε : Type} [Inhabited ε] (rp : RetryPolicy) (env : Env ε) : Ended ε :=
  retryExecutor (codecH1 ε) rp env

def retryExecutorH2 {ε : Type} [Inhabited ε] (rp : RetryPolicy) (env : Env ε) : Ended ε :=
  retryExecutor (codecH2 ε) rp env

section Spec

variable {ε : Type} (c : Codec ε) (rp : RetryPolicy) (env : Env ε)

def retriable (k : ℕ) : Bool :=
  if c.timedOut rp (env.driver k) then rp.perTryTimeoutRetriable
  else rp.matchesOutcome (env.driver k).resp.status (env.driver k).resp.localOrigin

/-- The ledger of a request: how many calls, why the last one was the last, what is returned, and
what is counted and given back. -/
structure LedgerKept (r : Ended ε) : Prop where
  calls : r.ledger.driverCalls ≤ rp.numRetries + 1
  returned : ∃ n, r.ledger.driverCalls = n + 1 ∧
    r.result = some (settle c rp env (env.driver n)) ∧
    (∀ k, k < n → retriable c rp env k = true) ∧
    (retriable c rp env n = false ∨ n = rp.numRetries ∨ env.grant (n + 1) = false)
  retries : r.ledger.upstreamRqRetry + 1 = r.ledger.driverCalls ∧
    r.ledger.upstreamRqRetryBackoffExponential + 1 = r.ledger.driverCalls
  success : r.ledger.upstreamRqRetrySuccess = 0 ∨ r.ledger.upstreamRqRetrySuccess = 1 ∧
    1 < r.ledger.driverCalls ∧ retriable c rp env (r.ledger.driverCalls - 1) = false
  limitExceeded : r.ledger.upstreamRqRetryLimitExceeded = 0 ∨
    r.ledger.upstreamRqRetryLimitExceeded = 1 ∧ r.ledger.driverCalls = rp.numRetries + 1 ∧
      retriable c rp env rp.numRetries = true
  notBoth : r.ledger.upstreamRqRetrySuccess = 0 ∨ r.ledger.upstreamRqRetryLimitExceeded = 0
  slots : r.ledger.acquired = r.ledger.upstreamRqRetry ∧ r.ledger.released = r.ledger.acquired

/-- Retry `n` is granted after nothing but retriable outcomes. -/
structure ReachesRetry (n : ℕ) : Prop where
  pos : 0 < n
  le : n ≤ rp.numRetries
  outcomes : ∀ k, k < n → retriable c rp env k = true
  grants : ∀ k, 0 < k → k ≤ n → env.grant k = true

structure Before (n : ℕ) (l : Ledger) (last : Outcome ε) : Prop where
  calls : l.driverCalls = n
  retries : l.upstreamRqRetry = n - 1 ∧ l.upstreamRqRetryBackoffExponential = n - 1
  slots : l.acquired = n - 1 ∧ l.released = n - 1
  ends : l.upstreamRqRetrySuccess = 0 ∧ l.upstreamRqRetryLimitExceeded = 0
  last : 0 < n → last = settle c rp env (env.driver (n - 1))
  outcomes : ∀ k, k < n → retriable c rp env k = true

structure After (n : ℕ) (l : Ledger) : Prop where
  calls : l.driverCalls = n + 1
  retries : l.upstreamRqRetry = n ∧ l.upstreamRqRetryBackoffExponential = n
  slots : l.acquired = n ∧ l.released = n
  ends : l.upstreamRqRetrySuccess = 0 ∧ l.upstreamRqRetryLimitExceeded = 0

variable {c rp env} {n left : ℕ} {l : Ledger} {last : Outcome ε}

theorem Before.after (h : Before c rp env n l last) :
    After n (booked c rp env n (if n > 0 then l.admitted else l)) := by
  obtain ⟨hcalls, ⟨hretry, hbackoff⟩, ⟨hacquired, hreleased⟩, hends, -, -⟩ := h
  have hbooked : After n ((if n > 0 then (if n > 0 then l.admitted else l).called.gaveBack
      else (if n > 0 then l.admitted else l).called)) := by
    by_cases hn : n > 0
    · simp only [if_pos hn]
      refine ⟨?_, ⟨?_, ?_⟩, ⟨?_, ?_⟩, hends⟩
      · exact congrArg (· + 1) hcalls
      · change l.upstreamRqRetry + 1 = n
        omega
      · change l.upstreamRqRetryBackoffExponential + 1 = n
        omega
      · change l.acquired + 1 = n
        omega
      · change l.released + 1 = n
        omega
    · simp only [if_neg hn]
      refine ⟨?_, ⟨?_, ?_⟩, ⟨?_, ?_⟩, hends⟩
      · exact congrArg (· + 1) hcalls
      · change l.upstreamRqRetry = n
        omega
      · change l.upstreamRqRetryBackoffExponential = n
        omega
      · change l.acquired = n
        omega
      · change l.released = n
        omega
  unfold booked
  dsimp only
  split_ifs at hbooked ⊢
  all_goals exact ⟨hbooked.calls, hbooked.retries, hbooked.slots, hbooked.ends⟩

theorem retryLoop_called (hgrant : ¬ (n > 0 ∧ env.grant n = false))
    (hdelay : ¬ (n > 0 ∧ rp.backoff n (env.draw n) = none)) :
    retryLoop c rp env left n l last =
      if retriable c rp env n = false then
        ⟨if c.timedOut rp (env.driver n) = false ∧ n > 0 then
            (booked c rp env n (if n > 0 then l.admitted else l)).incRetrySuccess
          else booked c rp env n (if n > 0 then l.admitted else l),
          some (settle c rp env (env.driver n))⟩
      else
        match left with
        | 0 => ⟨(booked c rp env n (if n > 0 then l.admitted else l)).incRetryLimitExceeded,
            some (settle c rp env (env.driver n))⟩
        | left + 1 => retryLoop c rp env left (n + 1)
            (booked c rp env n (if n > 0 then l.admitted else l))
            (settle c rp env (env.driver n)) := by
  rw [retryLoop.eq_def, if_neg hgrant]
  dsimp only
  rw [if_neg hdelay]
  unfold retriable
  cases htimed : c.timedOut rp (env.driver n) with
  | true =>
    simp only [Bool.true_eq_false, false_and, if_false, true_and, if_true]
  | false =>
    simp only [Bool.false_eq_true, false_and, if_false, true_and]

theorem kept_of_denied (h : Before c rp env n l last) (hle : n ≤ rp.numRetries) (hn : n > 0)
    (hgrant : env.grant n = false) : LedgerKept c rp env ⟨l, some last⟩ := by
  obtain ⟨hcalls, ⟨hretry, hbackoff⟩, ⟨hacquired, hreleased⟩, ⟨hsuccess, hlimit⟩, hlast, hout⟩ := h
  have hnext : n - 1 + 1 = n := by omega
  refine ⟨?_, ⟨n - 1, ?_, ?_, ?_, ?_⟩, ⟨?_, ?_⟩, .inl hsuccess, .inl hlimit, .inl hsuccess,
    ⟨?_, ?_⟩⟩
  · change l.driverCalls ≤ _
    omega
  · exact hcalls.trans hnext.symm
  · exact congrArg some (hlast hn)
  · intro k hk
    exact hout k (by omega)
  · rw [hnext]
    exact .inr (.inr hgrant)
  · change l.upstreamRqRetry + 1 = l.driverCalls
    omega
  · change l.upstreamRqRetryBackoffExponential + 1 = l.driverCalls
    omega
  · exact hacquired.trans hretry.symm
  · exact hreleased.trans hacquired.symm

theorem kept_of_stopped {s : ℕ} (hb : ∀ k, k < n → retriable c rp env k = true)
    (ha : After n l) (hle : n ≤ rp.numRetries) (hstop : retriable c rp env n = false)
    (hs : s = 0 ∨ s = 1 ∧ n > 0) :
    LedgerKept c rp env
      ⟨{ l with upstreamRqRetrySuccess := s }, some (settle c rp env (env.driver n))⟩ := by
  obtain ⟨hcalls, ⟨hretry, hbackoff⟩, ⟨hacquired, hreleased⟩, ⟨-, hlimit⟩⟩ := ha
  refine ⟨?_, ⟨n, hcalls, rfl, hb, .inl hstop⟩, ⟨?_, ?_⟩, ?_, .inl hlimit, .inr hlimit, ⟨?_, ?_⟩⟩
  · change l.driverCalls ≤ _
    omega
  · change l.upstreamRqRetry + 1 = l.driverCalls
    omega
  · change l.upstreamRqRetryBackoffExponential + 1 = l.driverCalls
    omega
  · refine hs.imp_right (fun h => ⟨h.1, ?_, ?_⟩)
    · change 1 < l.driverCalls
      omega
    · change retriable c rp env (l.driverCalls - 1) = false
      rw [hcalls]
      exact hstop
  · exact hacquired.trans hretry.symm
  · exact hreleased.trans hacquired.symm

theorem kept_of_exhausted (hb : ∀ k, k < n → retriable c rp env k = true) (ha : After n l)
    (hn : n = rp.numRetries) (hgoes : retriable c rp env n = true) :
    LedgerKept c rp env
      ⟨l.incRetryLimitExceeded, some (settle c rp env (env.driver n))⟩ := by
  obtain ⟨hcalls, ⟨hretry, hbackoff⟩, ⟨hacquired, hreleased⟩, ⟨hsuccess, hlimit⟩⟩ := ha
  refine ⟨?_, ⟨n, hcalls, rfl, hb, .inr (.inl hn)⟩, ⟨?_, ?_⟩, .inl hsuccess,
    .inr ⟨?_, ?_, hn ▸ hgoes⟩, .inl hsuccess, ⟨?_, ?_⟩⟩
  · change l.driverCalls ≤ _
    omega
  · change l.upstreamRqRetry + 1 = l.driverCalls
    omega
  · change l.upstreamRqRetryBackoffExponential + 1 = l.driverCalls
    omega
  · exact congrArg (· + 1) hlimit
  · change l.driverCalls = _
    omega
  · exact hacquired.trans hretry.symm
  · exact hreleased.trans hacquired.symm

theorem before_next (hb : ∀ k, k < n → retriable c rp env k = true) (ha : After n l)
    (hgoes : retriable c rp env n = true) :
    Before c rp env (n + 1) l (settle c rp env (env.driver n)) := by
  refine ⟨ha.calls, ha.retries, ha.slots, ha.ends, fun _ => rfl, ?_⟩
  intro k hk
  rcases Nat.lt_succ_iff_lt_or_eq.mp hk with hlt | rfl
  · exact hb k hlt
  · exact hgoes

theorem grants_succ (hgrants : ∀ k, 0 < k → k < n → env.grant k = true)
    (hgranted : ¬ (n > 0 ∧ env.grant n = false)) :
    ∀ k, 0 < k → k < n + 1 → env.grant k = true := by
  intro k hk hkn
  rcases Nat.lt_succ_iff_lt_or_eq.mp hkn with hlt | rfl
  · exact hgrants k hk hlt
  · by_contra hne
    exact hgranted ⟨hk, by simpa using hne⟩

theorem delayed (h : Before c rp env n l last)
    (hcaps : ∀ m, ReachesRetry c rp env m → rp.backoffCap m ≠ maxInt64)
    (hgrants : ∀ k, 0 < k → k < n + 1 → env.grant k = true) (hle : n ≤ rp.numRetries) :
    ¬ (n > 0 ∧ rp.backoff n (env.draw n) = none) := by
  rintro ⟨hn, hnone⟩
  refine hcaps n ⟨hn, hle, h.outcomes, ?_⟩ ((rp.backoff_eq_none_iff n (env.draw n)).mp hnone)
  exact fun k hk hkn => hgrants k hk (Nat.lt_succ_of_le hkn)

theorem kept_stop (h : Before c rp env n l last) (hle : n ≤ rp.numRetries)
    (hstop : retriable c rp env n = false) :
    LedgerKept c rp env
      ⟨if c.timedOut rp (env.driver n) = false ∧ n > 0 then
          (booked c rp env n (if n > 0 then l.admitted else l)).incRetrySuccess
        else booked c rp env n (if n > 0 then l.admitted else l),
        some (settle c rp env (env.driver n))⟩ := by
  have hafter := h.after
  revert hafter
  generalize booked c rp env n (if n > 0 then l.admitted else l) = l'
  intro hafter
  split_ifs with hretried
  · refine kept_of_stopped h.outcomes hafter hle hstop (.inr ⟨?_, hretried.2⟩)
    exact congrArg (· + 1) hafter.ends.1
  · exact kept_of_stopped h.outcomes hafter hle hstop (.inl hafter.ends.1)

theorem retryLoop_kept (hcaps : ∀ m, ReachesRetry c rp env m → rp.backoffCap m ≠ maxInt64)
    (left n : ℕ) (l : Ledger) (last : Outcome ε) (hleft : n + left = rp.numRetries)
    (hgrants : ∀ k, 0 < k → k < n → env.grant k = true) (h : Before c rp env n l last) :
    LedgerKept c rp env (retryLoop c rp env left n l last) := by
  induction left generalizing n l last with
  | zero =>
    by_cases hdenied : n > 0 ∧ env.grant n = false
    · rw [retryLoop.eq_def, if_pos hdenied]
      exact kept_of_denied h (by omega) hdenied.1 hdenied.2
    · have hgrants' := grants_succ hgrants hdenied
      rw [retryLoop_called hdenied (delayed h hcaps hgrants' (by omega))]
      cases hstop : retriable c rp env n with
      | false =>
        rw [if_pos rfl]
        exact kept_stop h (by omega) hstop
      | true =>
        rw [if_neg Bool.noConfusion]
        exact kept_of_exhausted h.outcomes h.after (by omega) hstop
  | succ left ih =>
    by_cases hdenied : n > 0 ∧ env.grant n = false
    · rw [retryLoop.eq_def, if_pos hdenied]
      exact kept_of_denied h (by omega) hdenied.1 hdenied.2
    · have hgrants' := grants_succ hgrants hdenied
      rw [retryLoop_called hdenied (delayed h hcaps hgrants' (by omega))]
      cases hstop : retriable c rp env n with
      | false =>
        rw [if_pos rfl]
        exact kept_stop h (by omega) hstop
      | true =>
        rw [if_neg Bool.noConfusion]
        exact ih (n + 1) _ _ (by omega) hgrants' (before_next h.outcomes h.after hstop)

theorem retryLoop_panics {m : ℕ} (hm : ReachesRetry c rp env m)
    (hcap : rp.backoffCap m = maxInt64) (left n : ℕ) (l : Ledger) (last : Outcome ε)
    (hleft : n + left = rp.numRetries) (hnm : n ≤ m) :
    (retryLoop c rp env left n l last).result = none := by
  have hgranted : ¬ (n > 0 ∧ env.grant n = false) := by
    rintro ⟨hn, hdenied⟩
    rw [hm.grants n hn hnm] at hdenied
    cases hdenied
  induction left generalizing n l last with
  | zero =>
    have hn : n = m := by
      have hle := hm.le
      omega
    subst hn
    have hnone := (rp.backoff_eq_none_iff n (env.draw n)).mpr hcap
    rw [retryLoop.eq_def, if_neg hgranted]
    dsimp only
    rw [if_pos ⟨hm.pos, hnone⟩]
  | succ left ih =>
    by_cases hpanic : n > 0 ∧ rp.backoff n (env.draw n) = none
    · rw [retryLoop.eq_def, if_neg hgranted]
      dsimp only
      rw [if_pos hpanic]
    · have hlt : n < m := by
        rcases Nat.lt_or_eq_of_le hnm with hlt | rfl
        · exact hlt
        · exact absurd ⟨hm.pos, (rp.backoff_eq_none_iff n (env.draw n)).mpr hcap⟩ hpanic
      have hgoes := hm.outcomes n hlt
      rw [retryLoop_called hgranted hpanic, hgoes, if_neg Bool.noConfusion]
      refine ih (n + 1) _ _ (by omega) hlt ?_
      rintro ⟨hn, hdenied⟩
      rw [hm.grants (n + 1) hn hlt] at hdenied
      cases hdenied

theorem retryExecutor_kept_iff [Inhabited ε] (c : Codec ε) (rp : RetryPolicy) (env : Env ε) :
    LedgerKept c rp env (retryExecutor c rp env) ↔
      ∀ n, ReachesRetry c rp env n → rp.backoffCap n ≠ maxInt64 := by
  constructor
  · intro h n hn hcap
    obtain ⟨k, -, hresult, -⟩ := h.returned
    have hnone := retryLoop_panics hn hcap rp.numRetries 0 {} ⟨{}, default, none⟩
      (Nat.zero_add _) (Nat.zero_le _)
    rw [retryExecutor, hnone] at hresult
    cases hresult
  · intro hcaps
    refine retryLoop_kept hcaps rp.numRetries 0 {} _ (Nat.zero_add _) ?_ ?_
    · intro k _ hk
      exact absurd hk (Nat.not_lt_zero k)
    · exact ⟨rfl, ⟨rfl, rfl⟩, ⟨rfl, rfl⟩, ⟨rfl, rfl⟩, fun hn => absurd hn (Nat.lt_irrefl 0),
        fun k hk => absurd hk (Nat.not_lt_zero k)⟩

/-- Both executors keep the ledger unless they come to a retry whose back-off may last the longest
duration there is. -/
theorem retryExecutors_kept_iff [Inhabited ε] (rp : RetryPolicy) (env : Env ε) :
    (LedgerKept (codecH1 ε) rp env (retryExecutorH1 rp env) ↔
      ∀ n, ReachesRetry (codecH1 ε) rp env n → rp.backoffCap n ≠ maxInt64) ∧
    (LedgerKept (codecH2 ε) rp env (retryExecutorH2 rp env) ↔
      ∀ n, ReachesRetry (codecH2 ε) rp env n → rp.backoffCap n ≠ maxInt64) :=
  ⟨retryExecutor_kept_iff (codecH1 ε) rp env, retryExecutor_kept_iff (codecH2 ε) rp env⟩

end Spec

/-- The longest durations the parser passes on, and one retry of a 5xx. -/
def longestBackoff : Except String RetryPolicy :=
  newRetryPolicy "5xx" 1 [] ⟨maxInt64, by decide⟩ ⟨maxInt64, by decide⟩ ⟨0, by decide⟩

/-- An upstream that answers 503 once and then 200. -/
def recovers : Env Unit where
  driver := fun k => ⟨{ status := if k = 0 then 503 else 200 }, (), none, false, false, false,
    false, ""⟩
  grant := fun _ => true
  draw := fun _ => 0
  server := "envoy-go"

theorem not_kept_longestBackoff :
    ∃ rp, longestBackoff = .ok rp ∧
      ¬ LedgerKept (codecH1 Unit) rp recovers (retryExecutorH1 rp recovers) ∧
      (retryExecutorH1 rp recovers).ledger.acquired = 1 ∧
      (retryExecutorH1 rp recovers).ledger.released = 0 := by
  refine ⟨_, rfl, ?_, by decide +kernel, by decide +kernel⟩
  intro h
  have hslots := h.slots.2
  revert hslots
  decide +kernel

end EnvoyGo.Router

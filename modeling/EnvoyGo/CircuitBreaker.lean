import EnvoyGo.Runs
import Mathlib.Data.Finset.Card
import Mathlib.Data.Fin.Basic
import Mathlib.Tactic.Common
import Mathlib.Algebra.Order.Group.Int

/-!
The request and retry budgets of a cluster, and the gauges that say when one is used up.  Counter
and gauge are two atomics: a call reads or moves the counter in one step and writes the gauge in a
later one.
-/

namespace EnvoyGo.CircuitBreaker

open Runs

/-- The parsed thresholds, `DEFAULT` first.  `byPct n` is `budget_percent` of `n` requests, rounded
up as the floating-point arithmetic does it. -/
structure Config where
  maxRequests : Fin 2 → ℕ
  hasRetryBudget : Bool
  byPct : ℤ → ℤ
  minRetryConcurrency : ℕ

def Config.limit (cfg : Config) (active : ℤ) : ℤ :=
  if cfg.byPct active > cfg.minRetryConcurrency then cfg.byPct active else cfg.minRetryConcurrency

/-- Where a request stands between its `tryAcquire` and the end of its `release`: each constructor
but the resting ones names the atomic step that comes next. -/
inductive Request
  | idle
  | load (prio : Fin 2)
  | swap (prio : Fin 2) (cur : ℤ)
  | overflow (prio : Fin 2)
  | setOpen (prio : Fin 2) (admitted : Bool)
  | holding (prio : Fin 2)
  | add (prio : Fin 2)
  | setClosed (prio : Fin 2)
  | done (prio : Fin 2)
  deriving DecidableEq

inductive Retry
  | idle
  | loadRequests
  | loadRetries (limit : ℤ)
  | swap (cur : ℤ)
  | overflow
  | setOpen
  | holding
  | add
  | setClosed
  | done
  deriving DecidableEq

structure Breaker where
  activeRequests : Fin 2 → ℤ := fun _ => 0
  rqOpen : Fin 2 → ℕ := fun _ => 0
  upstreamRqPendingOverflow : ℕ := 0
  activeRetries : ℤ := 0
  rqRetryOpen : ℕ := 0
  upstreamRqRetryOverflow : ℕ := 0
  request : ℕ → Request := fun _ => .idle
  retry : ℕ → Retry := fun _ => .idle

/-- A call starts, or the call of a request or a retry takes its next step. -/
inductive Event
  | tryAcquire (i : ℕ) (prio : Fin 2)
  | release (i : ℕ)
  | request (i : ℕ)
  | tryAcquireRetry (j : ℕ)
  | releaseRetry (j : ℕ)
  | retry (j : ℕ)
  deriving DecidableEq

namespace Breaker

def setRequest (s : Breaker) (i : ℕ) (r : Request) : Breaker :=
  { s with request := Function.update s.request i r }

def setRetry (s : Breaker) (j : ℕ) (r : Retry) : Breaker :=
  { s with retry := Function.update s.retry j r }

def stepRequest (cfg : Config) (s : Breaker) (i : ℕ) : Breaker :=
  match s.request i with
  | .load p =>
    if s.activeRequests p ≥ cfg.maxRequests p then s.setRequest i (.overflow p)
    else s.setRequest i (.swap p (s.activeRequests p))
  | .overflow p =>
    { s with upstreamRqPendingOverflow := s.upstreamRqPendingOverflow + 1 }.setRequest i
      (.setOpen p false)
  | .swap p cur =>
    if s.activeRequests p = cur then
      { s with activeRequests := Function.update s.activeRequests p (cur + 1) }.setRequest i
        (if cur + 1 ≥ cfg.maxRequests p then .setOpen p true else .holding p)
    else s.setRequest i (.load p)
  | .setOpen p admitted =>
    { s with rqOpen := Function.update s.rqOpen p 1 }.setRequest i
      (if admitted then .holding p else .done p)
  | .add p =>
    { s with
      activeRequests := Function.update s.activeRequests p (s.activeRequests p - 1) }.setRequest i
      (if s.activeRequests p - 1 < cfg.maxRequests p then .setClosed p else .done p)
  | .setClosed p =>
    { s with rqOpen := Function.update s.rqOpen p 0 }.setRequest i (.done p)
  | _ => s

def stepRetry (cfg : Config) (s : Breaker) (j : ℕ) : Breaker :=
  match s.retry j with
  | .loadRequests => s.setRetry j (.loadRetries (cfg.limit (s.activeRequests 0)))
  | .loadRetries limit =>
    if s.activeRetries ≥ limit then s.setRetry j .overflow
    else s.setRetry j (.swap s.activeRetries)
  | .overflow =>
    { s with upstreamRqRetryOverflow := s.upstreamRqRetryOverflow + 1 }.setRetry j .setOpen
  | .setOpen => { s with rqRetryOpen := 1 }.setRetry j .done
  | .swap cur =>
    if s.activeRetries = cur then { s with activeRetries := cur + 1 }.setRetry j .holding
    else s.setRetry j .loadRequests
  | .add =>
    { s with activeRetries := s.activeRetries - 1 }.setRetry j
      (if s.activeRetries - 1 < cfg.minRetryConcurrency then .setClosed else .done)
  | .setClosed => { s with rqRetryOpen := 0 }.setRetry j .done
  | _ => s

/-- A call that cannot start changes nothing: only what `tryAcquire` gave is released, and once. -/
def step (cfg : Config) (s : Breaker) : Event → Breaker
  | .tryAcquire i p =>
    match s.request i with
    | .idle => s.setRequest i (.load p)
    | _ => s
  | .release i =>
    match s.request i with
    | .holding p => s.setRequest i (.add p)
    | _ => s
  | .request i => s.stepRequest cfg i
  | .tryAcquireRetry j =>
    match s.retry j with
    | .idle => s.setRetry j (if cfg.hasRetryBudget then .loadRequests else .holding)
    | _ => s
  | .releaseRetry j =>
    match s.retry j with
    | .holding => s.setRetry j (if cfg.hasRetryBudget then .add else .done)
    | _ => s
  | .retry j => s.stepRetry cfg j

def run (cfg : Config) (s : Breaker) (es : List Event) : Breaker := es.foldl (step cfg) s

def retryLimit (cfg : Config) (s : Breaker) : ℤ := cfg.limit (s.activeRequests 0)

end Breaker

def Request.resting : Request → Bool
  | .idle => true
  | .holding _ => true
  | .done _ => true
  | _ => false

def Request.answered (p : Fin 2) : Request → Bool
  | .holding q => q == p
  | .add q => q == p
  | .setClosed q => q == p
  | .done q => q == p
  | _ => false

def Retry.resting : Retry → Bool
  | .idle => true
  | .holding => true
  | .done => true
  | _ => false

def Retry.answered : Retry → Bool
  | .holding => true
  | .add => true
  | .setClosed => true
  | .done => true
  | _ => false

namespace Breaker

def AtRest (s : Breaker) : Prop :=
  (∀ i, (s.request i).resting = true) ∧ ∀ j, (s.retry j).resting = true

/-- The requests stay within their budget, and at rest each gauge is 1 exactly when its budget is
used up. -/
structure Truthful (cfg : Config) (s : Breaker) : Prop where
  bounds : ∀ p, 0 ≤ s.activeRequests p ∧ s.activeRequests p ≤ cfg.maxRequests p
  rqOpen : s.AtRest → ∀ p, (∃ i, (s.request i).answered p = true) →
    (s.rqOpen p = 1 ↔ s.activeRequests p ≥ cfg.maxRequests p)
  rqRetryOpen : s.AtRest → cfg.hasRetryBudget = true → (∃ j, (s.retry j).answered = true) →
    (s.rqRetryOpen = 1 ↔ s.activeRetries ≥ s.retryLimit cfg)

/-- A gauge is written while what it says is so, and nothing but a step that goes on to write it
makes the retry budget used up or free again. -/
def Steady (cfg : Config) (s : Breaker) : Event → Prop
  | .request i =>
    match s.request i with
    | .setOpen p _ => s.activeRequests p ≥ cfg.maxRequests p
    | .setClosed p => s.activeRequests p < cfg.maxRequests p
    | .swap p cur =>
      p = 0 ∧ s.activeRequests p = cur ∧ cfg.hasRetryBudget = true →
        (s.activeRetries ≥ cfg.limit (cur + 1) ↔ s.activeRetries ≥ cfg.limit cur)
    | .add p =>
      p = 0 ∧ cfg.hasRetryBudget = true →
        (s.activeRetries ≥ cfg.limit (s.activeRequests p - 1) ↔
          s.activeRetries ≥ cfg.limit (s.activeRequests p))
    | _ => True
  | .retry j =>
    match s.retry j with
    | .setOpen => s.activeRetries ≥ s.retryLimit cfg
    | .setClosed => s.activeRetries < s.retryLimit cfg
    | .swap cur => s.activeRetries = cur → cur + 1 ≠ s.retryLimit cfg
    | .add => s.activeRetries = s.retryLimit cfg → s.retryLimit cfg = cfg.minRetryConcurrency
    | _ => True
  | _ => True

end Breaker

def Tells (fact : Prop) (gauge : ℕ) (write : ℕ → Option ℕ) : Prop :=
  (gauge = 1 ↔ fact) ∨ ∃ i v, write i = some v ∧ (v = 1 ↔ fact)

theorem Tells.mono {fact fact' : Prop} {gauge : ℕ} {write write' : ℕ → Option ℕ}
    (h : Tells fact gauge write) (hfact : fact' ↔ fact)
    (hwrite : ∀ i v, write i = some v → write' i = some v) : Tells fact' gauge write' := by
  rcases h with h | ⟨i, v, hv, h⟩
  · exact .inl (h.trans hfact.symm)
  · exact .inr ⟨i, v, hwrite i v hv, h.trans hfact.symm⟩

theorem Tells.settled {fact : Prop} {gauge : ℕ} {write : ℕ → Option ℕ} (h : Tells fact gauge write)
    (hrest : ∀ i, write i = none) : gauge = 1 ↔ fact := by
  rcases h with h | ⟨i, v, hv, -⟩
  · exact h
  · rw [hrest i] at hv
    cases hv

def Request.write (p : Fin 2) : Request → Option ℕ
  | .setOpen q _ => if q = p then some 1 else none
  | .setClosed q => if q = p then some 0 else none
  | _ => none

def Request.holds (p : Fin 2) : Request → Bool
  | .setOpen q admitted => admitted && q == p
  | .holding q => q == p
  | .add q => q == p
  | _ => false

def Retry.write : Retry → Option ℕ
  | .setOpen => some 1
  | .setClosed => some 0
  | _ => none

inductive Request.Next (cfg : Config) (active : Fin 2 → ℤ) : Request → Request → Prop
  | start (p : Fin 2) : Next cfg active .idle (.load p)
  | full (p : Fin 2) (h : active p ≥ cfg.maxRequests p) : Next cfg active (.load p) (.overflow p)
  | room (p : Fin 2) (h : active p < cfg.maxRequests p) :
      Next cfg active (.load p) (.swap p (active p))
  | counted (p : Fin 2) : Next cfg active (.overflow p) (.setOpen p false)
  | again (p : Fin 2) (cur : ℤ) : Next cfg active (.swap p cur) (.load p)
  | release (p : Fin 2) : Next cfg active (.holding p) (.add p)

inductive RequestMove (cfg : Config) (s : Breaker) (i : ℕ) : Breaker → Prop
  | moved (r : Request) (n : ℕ) (hnext : Request.Next cfg s.activeRequests (s.request i) r) :
      RequestMove cfg s i ({ s with upstreamRqPendingOverflow := n }.setRequest i r)
  | took (p : Fin 2) (hi : s.request i = .swap p (s.activeRequests p)) :
      RequestMove cfg s i ({ s with
        activeRequests := Function.update s.activeRequests p (s.activeRequests p + 1) }.setRequest i
          (if s.activeRequests p + 1 ≥ cfg.maxRequests p then .setOpen p true else .holding p))
  | wrote (p : Fin 2) (v : ℕ) (r : Request) (hwrite : ∀ q, (s.request i).write q =
        if p = q then some v else none) (hholds : ∀ q, r.holds q = (s.request i).holds q)
      (hwritten : ∀ q, r.write q = none) (hr : r = .holding p ∨ r = .done p) :
      RequestMove cfg s i ({ s with rqOpen := Function.update s.rqOpen p v }.setRequest i r)
  | gave (p : Fin 2) (hi : s.request i = .add p) :
      RequestMove cfg s i ({ s with
        activeRequests := Function.update s.activeRequests p (s.activeRequests p - 1) }.setRequest i
          (if s.activeRequests p - 1 < cfg.maxRequests p then .setClosed p else .done p))

inductive Retry.Next (cfg : Config) (s : Breaker) : Retry → Retry → Prop
  | start (h : cfg.hasRetryBudget = true) : Next cfg s .idle .loadRequests
  | unlimited (h : cfg.hasRetryBudget = false) : Next cfg s .idle .holding
  | limited : Next cfg s .loadRequests (.loadRetries (s.retryLimit cfg))
  | full (limit : ℤ) (h : s.activeRetries ≥ limit) : Next cfg s (.loadRetries limit) .overflow
  | room (limit : ℤ) (h : s.activeRetries < limit) :
      Next cfg s (.loadRetries limit) (.swap s.activeRetries)
  | counted : Next cfg s .overflow .setOpen
  | again (cur : ℤ) : Next cfg s (.swap cur) .loadRequests
  | release (h : cfg.hasRetryBudget = true) : Next cfg s .holding .add
  | dropped (h : cfg.hasRetryBudget = false) : Next cfg s .holding .done

inductive RetryMove (cfg : Config) (s : Breaker) (j : ℕ) : Breaker → Prop
  | moved (r : Retry) (n : ℕ) (hnext : Retry.Next cfg s (s.retry j) r) :
      RetryMove cfg s j ({ s with upstreamRqRetryOverflow := n }.setRetry j r)
  | took (hj : s.retry j = .swap s.activeRetries) :
      RetryMove cfg s j
        ({ s with activeRetries := s.activeRetries + 1 }.setRetry j .holding)
  | wrote (v : ℕ) (hj : (s.retry j).write = some v) :
      RetryMove cfg s j ({ s with rqRetryOpen := v }.setRetry j .done)
  | gave (hj : s.retry j = .add) :
      RetryMove cfg s j ({ s with activeRetries := s.activeRetries - 1 }.setRetry j
        (if s.activeRetries - 1 < cfg.minRetryConcurrency then .setClosed else .done))

theorem requestMove_stepRequest (cfg : Config) (s : Breaker) (i : ℕ) :
    s.stepRequest cfg i = s ∨ RequestMove cfg s i (s.stepRequest cfg i) := by
  unfold Breaker.stepRequest
  cases hi : s.request i with
  | load p =>
    dsimp only
    split_ifs with hfull
    · exact .inr (.moved _ _ (hi ▸ .full p hfull))
    · exact .inr (.moved _ _ (hi ▸ .room p (not_le.mp hfull)))
  | overflow p => exact .inr (.moved _ _ (hi ▸ .counted p))
  | swap p cur =>
    dsimp only
    by_cases hcur : s.activeRequests p = cur
    · subst hcur
      rw [if_pos rfl]
      exact .inr (.took p hi)
    · rw [if_neg hcur]
      exact .inr (.moved _ _ (hi ▸ .again p cur))
  | setOpen p admitted =>
    right
    refine .wrote p 1 _ ?_ ?_ ?_ ?_
    · intro q
      rw [hi]
      rfl
    · intro q
      rw [hi]
      cases admitted with
      | true => rfl
      | false => rfl
    · intro q
      cases admitted with
      | true => rfl
      | false => rfl
    · cases admitted with
      | true => exact .inl rfl
      | false => exact .inr rfl
  | add p => exact .inr (.gave p hi)
  | setClosed p =>
    right
    refine .wrote p 0 _ ?_ ?_ ?_ (.inr rfl)
    · intro q
      rw [hi]
      rfl
    · intro q
      rw [hi]
      rfl
    · intro q
      rfl
  | _ => exact .inl rfl

theorem retryMove_stepRetry (cfg : Config) (s : Breaker) (j : ℕ) :
    s.stepRetry cfg j = s ∨ RetryMove cfg s j (s.stepRetry cfg j) := by
  unfold Breaker.stepRetry
  cases hj : s.retry j with
  | loadRequests => exact .inr (.moved _ _ (hj ▸ .limited))
  | loadRetries limit =>
    dsimp only
    split_ifs with hfull
    · exact .inr (.moved _ _ (hj ▸ .full limit hfull))
    · exact .inr (.moved _ _ (hj ▸ .room limit (not_le.mp hfull)))
  | overflow => exact .inr (.moved _ _ (hj ▸ .counted))
  | setOpen => exact .inr (.wrote 1 (hj ▸ rfl))
  | swap cur =>
    dsimp only
    by_cases hcur : s.activeRetries = cur
    · subst hcur
      rw [if_pos rfl]
      exact .inr (.took hj)
    · rw [if_neg hcur]
      exact .inr (.moved _ _ (hj ▸ .again cur))
  | add => exact .inr (.gave hj)
  | setClosed => exact .inr (.wrote 0 (hj ▸ rfl))
  | _ => exact .inl rfl

theorem step_cases {cfg : Config} {s : Breaker} {e : Event} (h : s.Steady cfg e) :
    s.step cfg e = s ∨
      (∃ i, s.Steady cfg (.request i) ∧ RequestMove cfg s i (s.step cfg e)) ∨
      ∃ j, s.Steady cfg (.retry j) ∧ RetryMove cfg s j (s.step cfg e) := by
  cases e with
  | request i =>
    exact (requestMove_stepRequest cfg s i).imp_right (fun hmove => .inl ⟨i, h, hmove⟩)
  | retry j =>
    exact (retryMove_stepRetry cfg s j).imp_right (fun hmove => .inr ⟨j, h, hmove⟩)
  | tryAcquire i p =>
    simp only [Breaker.step]
    cases hi : s.request i with
    | idle =>
      refine .inr (.inl ⟨i, ?_, .moved _ _ (hi ▸ .start p)⟩)
      simp only [Breaker.Steady, hi]
    | _ => exact .inl rfl
  | release i =>
    simp only [Breaker.step]
    cases hi : s.request i with
    | holding p =>
      refine .inr (.inl ⟨i, ?_, .moved _ _ (hi ▸ .release p)⟩)
      simp only [Breaker.Steady, hi]
    | _ => exact .inl rfl
  | tryAcquireRetry j =>
    simp only [Breaker.step]
    cases hj : s.retry j with
    | idle =>
      refine .inr (.inr ⟨j, ?_, .moved _ _ ?_⟩)
      · simp only [Breaker.Steady, hj]
      · rw [hj]
        split_ifs with hbudget
        · exact .start hbudget
        · exact .unlimited (Bool.eq_false_iff.mpr hbudget)
    | _ => exact .inl rfl
  | releaseRetry j =>
    simp only [Breaker.step]
    cases hj : s.retry j with
    | holding =>
      refine .inr (.inr ⟨j, ?_, .moved _ _ ?_⟩)
      · simp only [Breaker.Steady, hj]
      · rw [hj]
        split_ifs with hbudget
        · exact .release hbudget
        · exact .dropped (Bool.eq_false_iff.mpr hbudget)
    | _ => exact .inl rfl

namespace Request.Next

variable {cfg : Config} {active : Fin 2 → ℤ} {r r' : Request}

theorem write_eq_none (h : Next cfg active r r') (p : Fin 2) : r.write p = none := by
  cases h with
  | _ => rfl

theorem holds_eq (h : Next cfg active r r') (p : Fin 2) : r'.holds p = r.holds p := by
  cases h with
  | _ => rfl

theorem answered_eq (h : Next cfg active r r') (p : Fin 2) : r'.answered p = r.answered p := by
  cases h with
  | _ => rfl

end Request.Next

namespace Breaker

/-- The counter is the number of requests that have a slot. -/
def Counted (s : Breaker) (p : Fin 2) : Prop :=
  ∃ slots : Finset ℕ, (∀ i, i ∈ slots ↔ (s.request i).holds p = true) ∧
    s.activeRequests p = slots.card

/-- The gauge of the priority is right or about to be, or there is no budget and no call has been
answered yet. -/
def Told (cfg : Config) (s : Breaker) (p : Fin 2) : Prop :=
  Tells (s.activeRequests p ≥ cfg.maxRequests p) (s.rqOpen p) (fun i => (s.request i).write p) ∨
    (cfg.maxRequests p = 0 ∧ ∀ i, (s.request i).answered p = false)

def TurnedDown (retries : ℤ) : Retry → Prop
  | .idle => True
  | .loadRequests => True
  | .loadRetries limit => limit ≤ retries
  | .overflow => True
  | .setOpen => True
  | _ => False

def RetryTold (cfg : Config) (s : Breaker) : Prop :=
  Tells (s.activeRetries ≥ s.retryLimit cfg) s.rqRetryOpen (fun j => (s.retry j).write) ∨
    (s.activeRetries ≥ s.retryLimit cfg ∧ ∀ j, TurnedDown s.activeRetries (s.retry j))

theorem Counted.nonneg {s : Breaker} {p : Fin 2} (h : s.Counted p) : 0 ≤ s.activeRequests p := by
  obtain ⟨slots, -, hcard⟩ := h
  omega

end Breaker

namespace RequestMove

variable {cfg : Config} {s t : Breaker} {i : ℕ}

theorem counted (h : RequestMove cfg s i t) {p : Fin 2} (hs : s.Counted p) : t.Counted p := by
  obtain ⟨slots, hmem, hcard⟩ := hs
  have hsame {r : Request} (hr : r.holds p = (s.request i).holds p) (j : ℕ) :
      j ∈ slots ↔ (Function.update s.request i r j).holds p = true := by
    by_cases hj : j = i
    · subst hj
      rw [Function.update_self, hr]
      exact hmem j
    · rw [Function.update_of_ne hj]
      exact hmem j
  cases h with
  | moved r n hnext => exact ⟨slots, hsame (hnext.holds_eq p), hcard⟩
  | wrote q v r hwrite hholds hwritten hr => exact ⟨slots, hsame (hholds p), hcard⟩
  | took q hi =>
    have hnone : (s.request i).holds p = false := by
      rw [hi]
      rfl
    have hout : i ∉ slots := by
      rw [hmem i, hnone]
      exact Bool.false_ne_true
    by_cases hq : p = q
    · subst hq
      refine ⟨insert i slots, ?_, ?_⟩
      · intro j
        change _ ↔ (Function.update s.request i _ j).holds p = true
        by_cases hj : j = i
        · subst hj
          rw [Function.update_self]
          refine iff_of_true (Finset.mem_insert_self _ _) ?_
          split_ifs
          · exact beq_self_eq_true p
          · exact beq_self_eq_true p
        · rw [Function.update_of_ne hj, Finset.mem_insert]
          simp only [hj, false_or]
          exact hmem j
      · change Function.update s.activeRequests p _ p = _
        rw [Function.update_self, Finset.card_insert_of_notMem hout, hcard]
        push_cast
        rfl
    · refine ⟨slots, hsame ?_, ?_⟩
      · rw [hnone]
        split_ifs
        · exact beq_eq_false_iff_ne.mpr (Ne.symm hq)
        · exact beq_eq_false_iff_ne.mpr (Ne.symm hq)
      · change Function.update s.activeRequests q _ p = _
        rw [Function.update_of_ne hq]
        exact hcard
  | gave q hi =>
    have hholds : (s.request i).holds p = (q == p) := by
      rw [hi]
      rfl
    have hfree : (if s.activeRequests q - 1 < cfg.maxRequests q then Request.setClosed q
        else .done q).holds p = false := by
      split_ifs
      · rfl
      · rfl
    by_cases hq : p = q
    · subst hq
      have hin : i ∈ slots := (hmem i).mpr (hholds.trans (beq_self_eq_true p))
      refine ⟨slots.erase i, ?_, ?_⟩
      · intro j
        change _ ↔ (Function.update s.request i _ j).holds p = true
        by_cases hj : j = i
        · subst hj
          rw [Function.update_self, hfree]
          exact iff_of_false (Finset.notMem_erase _ _) Bool.false_ne_true
        · rw [Function.update_of_ne hj, Finset.mem_erase]
          simp only [ne_eq, hj, not_false_eq_true, true_and]
          exact hmem j
      · change Function.update s.activeRequests p _ p = _
        have hcardErase := Finset.card_erase_add_one hin
        rw [Function.update_self, hcard]
        omega
    · refine ⟨slots, hsame ?_, ?_⟩
      · rw [hfree, hholds]
        exact (beq_eq_false_iff_ne.mpr (Ne.symm hq)).symm
      · change Function.update s.activeRequests q _ p = _
        rw [Function.update_of_ne hq]
        exact hcard

theorem bounded (h : RequestMove cfg s i t)
    (hswaps : ∀ k p cur, s.request k = .swap p cur → cur < cfg.maxRequests p)
    (hbound : ∀ p, s.activeRequests p ≤ cfg.maxRequests p) :
    (∀ k p cur, t.request k = .swap p cur → cur < cfg.maxRequests p) ∧
      ∀ p, t.activeRequests p ≤ cfg.maxRequests p := by
  have hother {r : Request} (hr : ∀ p cur, r = .swap p cur → cur < cfg.maxRequests p) (k : ℕ)
      (p : Fin 2) (cur : ℤ) (hk : Function.update s.request i r k = .swap p cur) :
      cur < cfg.maxRequests p := by
    by_cases hki : k = i
    · subst hki
      rw [Function.update_self] at hk
      exact hr p cur hk
    · rw [Function.update_of_ne hki] at hk
      exact hswaps k p cur hk
  cases h with
  | moved r n hnext =>
    refine ⟨hother ?_, hbound⟩
    rintro p cur rfl
    generalize s.request i = r at hnext
    cases hnext with
    | room _ h => exact h
  | wrote q v r hwrite hholds hwritten hr =>
    refine ⟨hother ?_, hbound⟩
    intro p cur hcur
    rcases hr with rfl | rfl
    · cases hcur
    · cases hcur
  | took q hi =>
    refine ⟨hother ?_, ?_⟩
    · intro p cur hcur
      split_ifs at hcur
    · intro p
      have hlt := hswaps i q _ hi
      change Function.update s.activeRequests q _ p ≤ _
      by_cases hp : p = q
      · subst hp
        rw [Function.update_self]
        omega
      · rw [Function.update_of_ne hp]
        exact hbound p
  | gave q hi =>
    refine ⟨hother ?_, ?_⟩
    · intro p cur hcur
      split_ifs at hcur
    · intro p
      have hle := hbound q
      change Function.update s.activeRequests q _ p ≤ _
      by_cases hp : p = q
      · subst hp
        rw [Function.update_self]
        omega
      · rw [Function.update_of_ne hp]
        exact hbound p

theorem write_update {p : Fin 2} (hnone : (s.request i).write p = none) (r : Request) (k v : ℕ)
    (hk : (s.request k).write p = some v) : (Function.update s.request i r k).write p = some v := by
  have hki : k ≠ i := by
    rintro rfl
    rw [hnone] at hk
    cases hk
  rw [Function.update_of_ne hki]
  exact hk

theorem answered_update {p : Fin 2} (hs : ∀ k, (s.request k).answered p = false) {r : Request}
    (hr : r.answered p = false) (k : ℕ) : (Function.update s.request i r k).answered p = false := by
  by_cases hki : k = i
  · subst hki
    rw [Function.update_self]
    exact hr
  · rw [Function.update_of_ne hki]
    exact hs k

theorem steady_write (hsteady : s.Steady cfg (.request i)) {p : Fin 2} {v : ℕ}
    (hwrite : (s.request i).write p = some v) :
    v = 1 ↔ s.activeRequests p ≥ cfg.maxRequests p := by
  cases hi : s.request i with
  | setOpen q admitted =>
    simp only [Breaker.Steady, hi] at hsteady
    simp only [hi, Request.write] at hwrite
    split_ifs at hwrite with hq
    cases hwrite
    subst hq
    exact iff_of_true rfl hsteady
  | setClosed q =>
    simp only [Breaker.Steady, hi] at hsteady
    simp only [hi, Request.write] at hwrite
    split_ifs at hwrite with hq
    cases hwrite
    subst hq
    exact iff_of_false zero_ne_one (not_le.mpr hsteady)
  | _ =>
    rw [hi] at hwrite
    cases hwrite

theorem told (h : RequestMove cfg s i t) (hsteady : s.Steady cfg (.request i)) {p : Fin 2}
    (hcounted : s.Counted p) (hbound : s.activeRequests p ≤ cfg.maxRequests p)
    (hs : s.Told cfg p) : t.Told cfg p := by
  have hpos := hcounted.nonneg
  cases h with
  | moved r n hnext =>
    have hnone := hnext.write_eq_none p
    refine hs.imp (fun h => h.mono Iff.rfl (write_update hnone r)) ?_
    rintro ⟨hzero, hasked⟩
    refine ⟨hzero, answered_update hasked ?_⟩
    rw [hnext.answered_eq p]
    exact hasked i
  | wrote q v r hwrite hholds hwritten hr =>
    by_cases hq : p = q
    · subst hq
      have hv : (s.request i).write p = some v := by rw [hwrite p, if_pos rfl]
      refine .inl (.inl ?_)
      change Function.update s.rqOpen p v p = 1 ↔ _
      rw [Function.update_self]
      exact steady_write hsteady hv
    · have hnone : (s.request i).write p = none := by rw [hwrite p, if_neg (Ne.symm hq)]
      have hgauge : Function.update s.rqOpen q v p = s.rqOpen p := Function.update_of_ne hq ..
      have hasked : r.answered p = false := by
        rcases hr with rfl | rfl
        · exact beq_eq_false_iff_ne.mpr (Ne.symm hq)
        · exact beq_eq_false_iff_ne.mpr (Ne.symm hq)
      unfold Breaker.Told
      dsimp only [Breaker.setRequest]
      rw [hgauge]
      exact hs.imp (fun h => h.mono Iff.rfl (write_update hnone r))
        (fun h => ⟨h.1, answered_update h.2 hasked⟩)
  | took q hi =>
    have hnone : (s.request i).write p = none := by
      rw [hi]
      rfl
    unfold Breaker.Told
    dsimp only [Breaker.setRequest]
    by_cases hq : p = q
    · subst hq
      rw [Function.update_self]
      by_cases hfull : s.activeRequests p + 1 ≥ cfg.maxRequests p
      · refine .inl (.inr ⟨i, 1, ?_, iff_of_true rfl hfull⟩)
        change (Function.update s.request i _ i).write p = some 1
        rw [Function.update_self, if_pos hfull]
        exact if_pos rfl
      · rcases hs with hs | ⟨hzero, -⟩
        · refine .inl (hs.mono (iff_of_false hfull ?_) (write_update hnone _))
          omega
        · omega
    · rw [Function.update_of_ne hq]
      have hasked : (if s.activeRequests q + 1 ≥ cfg.maxRequests q then Request.setOpen q true
          else .holding q).answered p = false := by
        split_ifs
        · rfl
        · exact beq_eq_false_iff_ne.mpr (Ne.symm hq)
      exact hs.imp (fun h => h.mono Iff.rfl (write_update hnone _))
        (fun h => ⟨h.1, answered_update h.2 hasked⟩)
  | gave q hi =>
    have hnone : (s.request i).write p = none := by
      rw [hi]
      rfl
    unfold Breaker.Told
    dsimp only [Breaker.setRequest]
    by_cases hq : p = q
    · subst hq
      have hunder : s.activeRequests p - 1 < cfg.maxRequests p := by omega
      rw [Function.update_self]
      refine .inl (.inr ⟨i, 0, ?_, iff_of_false zero_ne_one (not_le.mpr hunder)⟩)
      change (Function.update s.request i _ i).write p = some 0
      rw [Function.update_self, if_pos hunder]
      exact if_pos rfl
    · rw [Function.update_of_ne hq]
      have hasked : (if s.activeRequests q - 1 < cfg.maxRequests q then Request.setClosed q
          else .done q).answered p = false := by
        split_ifs
        · exact beq_eq_false_iff_ne.mpr (Ne.symm hq)
        · exact beq_eq_false_iff_ne.mpr (Ne.symm hq)
      exact hs.imp (fun h => h.mono Iff.rfl (write_update hnone _))
        (fun h => ⟨h.1, answered_update h.2 hasked⟩)

theorem retryTold (h : RequestMove cfg s i t) (hsteady : s.Steady cfg (.request i))
    (hbudget : cfg.hasRetryBudget = true) (hs : s.RetryTold cfg) : t.RetryTold cfg := by
  have hkeep {n : ℤ} (hretries : t.activeRetries = s.activeRetries)
      (hgauge : t.rqRetryOpen = s.rqRetryOpen) (hretry : t.retry = s.retry)
      (hactive : t.activeRequests 0 = n)
      (hlimit : s.activeRetries ≥ cfg.limit n ↔ s.activeRetries ≥ s.retryLimit cfg) :
      t.RetryTold cfg := by
    unfold Breaker.RetryTold Breaker.retryLimit
    rw [hretries, hgauge, hretry, hactive]
    exact hs.imp (fun h => h.mono hlimit (fun _ _ hv => hv)) (fun h => ⟨hlimit.mpr h.1, h.2⟩)
  cases h with
  | moved r n hnext => exact hkeep rfl rfl rfl rfl Iff.rfl
  | wrote q v r hwrite hholds hwritten hr => exact hkeep rfl rfl rfl rfl Iff.rfl
  | took q hi =>
    simp only [Breaker.Steady, hi] at hsteady
    by_cases hq : q = 0
    · subst hq
      have hzero : Function.update s.activeRequests 0 (s.activeRequests 0 + 1) 0 =
          s.activeRequests 0 + 1 := Function.update_self ..
      exact hkeep rfl rfl rfl hzero (hsteady ⟨rfl, trivial, hbudget⟩)
    · exact hkeep rfl rfl rfl (Function.update_of_ne (Ne.symm hq) ..) Iff.rfl
  | gave q hi =>
    simp only [Breaker.Steady, hi] at hsteady
    by_cases hq : q = 0
    · subst hq
      have hzero : Function.update s.activeRequests 0 (s.activeRequests 0 - 1) 0 =
          s.activeRequests 0 - 1 := Function.update_self ..
      exact hkeep rfl rfl rfl hzero (hsteady ⟨rfl, hbudget⟩)
    · exact hkeep rfl rfl rfl (Function.update_of_ne (Ne.symm hq) ..) Iff.rfl

end RequestMove

theorem le_limit (cfg : Config) (active : ℤ) : cfg.minRetryConcurrency ≤ cfg.limit active := by
  unfold Config.limit
  split_ifs with h
  · exact h.le
  · exact le_rfl

namespace RetryMove

variable {cfg : Config} {s t : Breaker} {j : ℕ}

theorem requests (h : RetryMove cfg s j t) :
    t.activeRequests = s.activeRequests ∧ t.rqOpen = s.rqOpen ∧ t.request = s.request := by
  cases h with
  | _ => exact ⟨rfl, rfl, rfl⟩

theorem steady_write (hsteady : s.Steady cfg (.retry j)) {v : ℕ}
    (hwrite : (s.retry j).write = some v) : v = 1 ↔ s.activeRetries ≥ s.retryLimit cfg := by
  cases hj : s.retry j with
  | setOpen =>
    simp only [Breaker.Steady, hj] at hsteady
    rw [hj] at hwrite
    cases hwrite
    exact iff_of_true rfl hsteady
  | setClosed =>
    simp only [Breaker.Steady, hj] at hsteady
    rw [hj] at hwrite
    cases hwrite
    exact iff_of_false zero_ne_one (not_le.mpr hsteady)
  | _ =>
    rw [hj] at hwrite
    cases hwrite

theorem write_update (hnone : (s.retry j).write = none) (r : Retry) (k v : ℕ)
    (hk : (s.retry k).write = some v) : (Function.update s.retry j r k).write = some v := by
  have hkj : k ≠ j := by
    rintro rfl
    rw [hnone] at hk
    cases hk
  rw [Function.update_of_ne hkj]
  exact hk

theorem retryTold (h : RetryMove cfg s j t) (hsteady : s.Steady cfg (.retry j))
    (hbudget : cfg.hasRetryBudget = true) (hs : s.RetryTold cfg) : t.RetryTold cfg := by
  cases h with
  | moved r n hnext =>
    have hnone : (s.retry j).write = none := by
      generalize s.retry j = r' at hnext
      cases hnext with
      | _ => rfl
    refine hs.imp (fun h => h.mono Iff.rfl (write_update hnone r)) ?_
    rintro ⟨hfull, hdown⟩
    refine ⟨hfull, fun k => ?_⟩
    change Breaker.TurnedDown s.activeRetries (Function.update s.retry j r k)
    by_cases hk : k = j
    · subst hk
      rw [Function.update_self]
      have hbefore := hdown k
      generalize s.retry k = r' at hnext hbefore
      cases hnext with
      | start h => trivial
      | unlimited h =>
        rw [hbudget] at h
        cases h
      | limited => exact hfull
      | full limit h => trivial
      | room limit h => exact absurd hbefore (not_le.mpr h)
      | counted => trivial
      | again cur => exact hbefore.elim
      | release h => exact hbefore.elim
      | dropped h => exact hbefore.elim
    · rw [Function.update_of_ne hk]
      exact hdown k
  | wrote v hj => exact .inl (.inl (steady_write hsteady hj))
  | took hj =>
    have hnone : (s.retry j).write = none := by
      rw [hj]
      rfl
    simp only [Breaker.Steady, hj] at hsteady
    have hstep : s.activeRetries + 1 ≠ s.retryLimit cfg := hsteady trivial
    rcases hs with hs | ⟨-, hdown⟩
    · refine .inl (hs.mono ?_ (write_update hnone _))
      change s.activeRetries + 1 ≥ s.retryLimit cfg ↔ s.activeRetries ≥ s.retryLimit cfg
      omega
    · have hbefore := hdown j
      rw [hj] at hbefore
      exact hbefore.elim
  | gave hj =>
    have hnone : (s.retry j).write = none := by
      rw [hj]
      rfl
    have hmin := le_limit cfg (s.activeRequests 0)
    simp only [Breaker.Steady, hj] at hsteady
    unfold Breaker.retryLimit at hsteady
    by_cases hunder : s.activeRetries - 1 < cfg.minRetryConcurrency
    · refine .inl (.inr ⟨j, 0, ?_, iff_of_false zero_ne_one ?_⟩)
      · change (Function.update s.retry j _ j).write = some 0
        rw [Function.update_self, if_pos hunder]
        rfl
      · change ¬ s.activeRetries - 1 ≥ cfg.limit (s.activeRequests 0)
        omega
    · rcases hs with hs | ⟨-, hdown⟩
      · refine .inl (hs.mono ?_ (write_update hnone _))
        change s.activeRetries - 1 ≥ cfg.limit (s.activeRequests 0) ↔
          s.activeRetries ≥ cfg.limit (s.activeRequests 0)
        constructor
        · intro h
          omega
        · intro h
          by_contra hless
          have heq : s.activeRetries = cfg.limit (s.activeRequests 0) := by omega
          have hcap := hsteady heq
          omega
      · have hbefore := hdown j
        rw [hj] at hbefore
        exact hbefore.elim

end RetryMove

namespace Breaker

structure Kept (cfg : Config) (s : Breaker) : Prop where
  counted : ∀ p, s.Counted p
  swaps : ∀ i p cur, s.request i = .swap p cur → cur < cfg.maxRequests p
  bound : ∀ p, s.activeRequests p ≤ cfg.maxRequests p
  told : ∀ p, s.Told cfg p
  retryTold : cfg.hasRetryBudget = true → s.RetryTold cfg

theorem kept_new (cfg : Config) : Kept cfg {} := by
  refine ⟨?_, ?_, ?_, ?_, ?_⟩
  · intro p
    exact ⟨∅, fun i => iff_of_false (Finset.notMem_empty i) Bool.false_ne_true, rfl⟩
  · intro i p cur h
    cases h
  · intro p
    exact Int.natCast_nonneg _
  · intro p
    by_cases hzero : cfg.maxRequests p = 0
    · exact .inr ⟨hzero, fun _ => rfl⟩
    · refine .inl (.inl (iff_of_false zero_ne_one ?_))
      change ¬ (0 : ℤ) ≥ cfg.maxRequests p
      omega
  · intro _
    by_cases hfull : (0 : ℤ) ≥ cfg.limit 0
    · exact .inr ⟨hfull, fun _ => trivial⟩
    · exact .inl (.inl (iff_of_false zero_ne_one hfull))

theorem Kept.step {cfg : Config} {s : Breaker} {e : Event} (hsteady : s.Steady cfg e)
    (h : Kept cfg s) : Kept cfg (s.step cfg e) := by
  rcases step_cases hsteady with hsame | ⟨i, hi, hmove⟩ | ⟨j, hj, hmove⟩
  · rw [hsame]
    exact h
  · obtain ⟨hswaps, hbound⟩ := hmove.bounded h.swaps h.bound
    exact ⟨fun p => hmove.counted (h.counted p), hswaps, hbound,
      fun p => hmove.told hi (h.counted p) (h.bound p) (h.told p),
      fun hbudget => hmove.retryTold hi hbudget (h.retryTold hbudget)⟩
  · obtain ⟨hactive, hgauge, hrequest⟩ := hmove.requests
    have htold (p : Fin 2) : (s.step cfg e).Told cfg p := by
      unfold Told
      rw [hactive, hgauge, hrequest]
      exact h.told p
    have hcounted (p : Fin 2) : (s.step cfg e).Counted p := by
      unfold Counted
      rw [hactive, hrequest]
      exact h.counted p
    exact ⟨hcounted, hrequest ▸ h.swaps, hactive ▸ h.bound, htold,
      fun hbudget => hmove.retryTold hj hbudget (h.retryTold hbudget)⟩

theorem write_of_resting {p : Fin 2} {r : Request} (h : r.resting = true) : r.write p = none := by
  cases r with
  | idle => rfl
  | holding q => rfl
  | done q => rfl
  | _ => cases h

theorem retryWrite_of_resting {r : Retry} (h : r.resting = true) : r.write = none := by
  cases r with
  | idle => rfl
  | holding => rfl
  | done => rfl
  | _ => cases h

theorem Kept.truthful {cfg : Config} {s : Breaker} (h : Kept cfg s) : s.Truthful cfg := by
  refine ⟨fun p => ⟨(h.counted p).nonneg, h.bound p⟩, ?_, ?_⟩
  · rintro ⟨hrest, -⟩ p ⟨i, hi⟩
    rcases h.told p with htells | ⟨-, hnone⟩
    · exact htells.settled (fun k => write_of_resting (hrest k))
    · rw [hnone i] at hi
      cases hi
  · rintro ⟨-, hrest⟩ hbudget ⟨j, hj⟩
    rcases h.retryTold hbudget with htells | ⟨-, hdown⟩
    · exact htells.settled (fun k => retryWrite_of_resting (hrest k))
    · have hbefore := hdown j
      cases hretry : s.retry j with
      | holding =>
        rw [hretry] at hbefore
        exact hbefore.elim
      | done =>
        rw [hretry] at hbefore
        exact hbefore.elim
      | add =>
        rw [hretry] at hbefore
        exact hbefore.elim
      | setClosed =>
        rw [hretry] at hbefore
        exact hbefore.elim
      | _ =>
        rw [hretry] at hj
        cases hj

/-- In a steady run the gauges tell the truth whenever it rests. -/
theorem truthful_of_steady (cfg : Config) (es : List Event)
    (h : StepsMeet (step cfg) (Steady cfg) {} es) :
    ∀ pre, pre <+: es → ((({} : Breaker).run cfg pre).Truthful cfg) := by
  have hstep : ∀ s e, s.Steady cfg e → Kept cfg s → Kept cfg (s.step cfg e) :=
    fun s e hsteady hs => hs.step hsteady
  rintro pre ⟨rest, rfl⟩
  obtain ⟨hpre, -⟩ := (stepsMeet_append _ _ _ _).mp h
  exact (invariant_of_steps hstep pre {} (kept_new cfg) hpre).truthful

/-- One request at a time, and a fifth of the requests as retries, with a floor of three. -/
def oneAtATime : Config where
  maxRequests := fun _ => 1
  hasRetryBudget := true
  byPct := fun n => (20 * n + 99) / 100
  minRetryConcurrency := 3

/-- A request takes the only slot and gives it back. -/
def inTurn : List Event :=
  [.tryAcquire 0 0, .request 0, .request 0, .request 0, .release 0, .request 0, .request 0]

theorem truthful_inTurn :
    StepsMeet (step oneAtATime) (Steady oneAtATime) {} inTurn ∧
      (({} : Breaker).run oneAtATime inTurn).Truthful oneAtATime := by
  have hsteady : StepsMeet (step oneAtATime) (Steady oneAtATime) {} inTurn := by
    refine ⟨trivial, trivial, fun _ => ?_, ?_, trivial, fun _ => ?_, ?_, trivial⟩
    · decide
    · change (1 : ℤ) ≥ 1
      decide
    · decide
    · change (0 : ℤ) < 1
      decide
  exact ⟨hsteady, truthful_of_steady oneAtATime inTurn hsteady inTurn List.prefix_rfl⟩

/-- The next request takes the slot between the release's step on the counter and its write. -/
def crossing : List Event :=
  [.tryAcquire 0 0, .request 0, .request 0, .request 0, .release 0, .request 0,
    .tryAcquire 1 0, .request 1, .request 1, .request 1, .request 0]

theorem not_truthful_crossing :
    ¬ ∀ pre, pre <+: crossing → (({} : Breaker).run oneAtATime pre).Truthful oneAtATime := by
  intro h
  have hrest : (({} : Breaker).run oneAtATime crossing).AtRest := by
    refine ⟨fun i => ?_, fun _ => rfl⟩
    match i with
    | 0 => decide
    | 1 => decide
    | n + 2 => rfl
  have hgauge := (h crossing List.prefix_rfl).rqOpen hrest 0 ⟨0, by decide⟩
  have hopen : (({} : Breaker).run oneAtATime crossing).rqOpen 0 = 1 := hgauge.mpr (by decide)
  exact absurd hopen (by decide)

end Breaker

end EnvoyGo.CircuitBreaker

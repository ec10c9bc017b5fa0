import EnvoyGo.GoText
import EnvoyGo.RetryExecutor
import Mathlib.Algebra.Group.Int.Defs
import Mathlib.Data.Int.ConditionallyCompleteOrder
import Mathlib.Data.Int.Interval

/-!
The token bucket of the local rate limit filter: refilled on access by the whole intervals that have
passed, in the arithmetic of `int64` or in that of the integers.
-/

namespace EnvoyGo.LocalRateLimit

open Router (wrap64 Duration minInt64 maxInt64 wrap64_of_range wrap64_range)

structure TokenBucket where
  maxTokens : ℤ
  tokensPerFill : ℤ
  fillInterval : ℤ
  tokens : ℤ
  lastRefillNs : ℤ
  deriving DecidableEq

def newTokenBucket (maxTokens tokensPerFill fillInterval now : ℤ) : TokenBucket where
  maxTokens := maxTokens
  tokensPerFill := tokensPerFill
  fillInterval := fillInterval
  tokens := maxTokens
  lastRefillNs := now

structure TokenBucketConfig where
  maxTokens : UInt32
  tokensPerFill : Option UInt32
  fillInterval : Duration

structure Config where
  statPrefix : String
  tokenBucket : Option TokenBucketConfig
  status : Option ℤ := none

structure RuntimeConfig where
  statPrefix : String
  bucket : TokenBucket
  statusCode : ℤ

def minFillInterval : ℤ := 50 * 1000000

def fillTokens : Option UInt32 → Except String ℤ
  | none => .ok 1
  | some v =>
    if v = 0 then
      .error "local_ratelimit: token_bucket.tokens_per_fill must be > 0 if specified"
    else .ok v.toNat

def statusCode : Option ℤ → Except String ℤ
  | none => .ok 429
  | some code =>
    if code < 400 ∨ code ≥ 600 then
      .error ("local_ratelimit: status.code must be in [400, 600); got " ++
        String.ofList (Text.formatInt code))
    else .ok code

/-- `buildRuntimeConfig` at the time `now`. -/
def buildRuntimeConfig (c : Config) (now : ℤ) : Except String RuntimeConfig :=
  if c.statPrefix = "" then .error "local_ratelimit: stat_prefix required" else
  match c.tokenBucket with
  | none => .error "local_ratelimit: token_bucket required"
  | some tb =>
    if tb.maxTokens = 0 then
      .error "local_ratelimit: token_bucket.max_tokens must be > 0" else do
    let tokensPerFill ← fillTokens tb.tokensPerFill
    if tb.fillInterval.ns < minFillInterval then
      .error "local rate limit token bucket fill timer must be >= 50ms" else do
    let code ← statusCode c.status
    .ok { statPrefix := c.statPrefix
          bucket := newTokenBucket tb.maxTokens.toNat tokensPerFill tb.fillInterval.ns now
          statusCode := code }

section Consume

variable (int64 : ℤ → ℤ)

/-- The refill for a number of intervals; `int64` reduces the result of every operation. -/
def TokenBucket.refill (b : TokenBucket) (refills : ℤ) : TokenBucket :=
  let tokens := int64 (b.tokens + int64 (refills * b.tokensPerFill))
  { b with
    tokens := if tokens > b.maxTokens then b.maxTokens else tokens
    lastRefillNs := int64 (b.lastRefillNs + int64 (refills * b.fillInterval)) }

/-- The last lines of `tryConsume`. -/
def TokenBucket.take (b : TokenBucket) : Bool × TokenBucket :=
  if b.tokens > 0 then (true, { b with tokens := int64 (b.tokens - 1) }) else (false, b)

def TokenBucket.tryConsume (b : TokenBucket) (nowNs : ℤ) : Bool × TokenBucket :=
  let elapsedNs := int64 (nowNs - b.lastRefillNs)
  let refills := elapsedNs.tdiv b.fillInterval
  (if refills > 0 then b.refill int64 refills else b).take int64

/-- The answers to the requests at the given times, with the buckets they leave. -/
def TokenBucket.trace (b : TokenBucket) : List ℤ → List (Bool × TokenBucket)
  | [] => []
  | t :: ts => b.tryConsume int64 t :: TokenBucket.trace (b.tryConsume int64 t).2 ts

def TokenBucket.after (b : TokenBucket) (ts : List ℤ) : TokenBucket :=
  ts.foldl (fun b t => (b.tryConsume int64 t).2) b

def TokenBucket.grants (b : TokenBucket) (ts : List ℤ) : ℕ :=
  (b.trace int64 ts).countP (·.1)

end Consume

/-- The times in `(a, c]` at which a bucket of the time `start` is due for a refill. -/
noncomputable def fillBoundaries (start interval a c : ℤ) : Finset ℤ :=
  (Finset.Ioc a c).filter fun t => (t - start) % interval = 0

/-- What a bucket is to do over the requests at the given times. -/
structure Faithful (b : TokenBucket) (ts : List ℤ) : Prop where
  inRange : ∀ r ∈ b.trace wrap64 ts, 0 ≤ r.2.tokens ∧ r.2.tokens ≤ b.maxTokens
  grants_le : ∀ before within later a c, ts = before ++ within ++ later →
    (∀ t ∈ within, a ≤ t ∧ t ≤ c) →
      ((b.after wrap64 before).grants wrap64 within : ℤ) ≤ b.maxTokens +
        b.tokensPerFill * (fillBoundaries b.lastRefillNs b.fillInterval a c).card
  exact : b.trace wrap64 ts = b.trace id ts

/-- A request at a time at which the refill is counted right: the time that has passed is a
number of the type, and so are the tokens before they are capped, or what is left of them fills the
bucket all the same. -/
def RefillFits (b : TokenBucket) (now : ℤ) : Prop :=
  now - b.lastRefillNs < 2^63 ∧
    (b.tokens + (now - b.lastRefillNs) / b.fillInterval * b.tokensPerFill < 2^63 ∨
      b.maxTokens ≤
        wrap64 (b.tokens + (now - b.lastRefillNs) / b.fillInterval * b.tokensPerFill))

instance (b : TokenBucket) (now : ℤ) : Decidable (RefillFits b now) :=
  inferInstanceAs (Decidable (_ ∧ _))

/-- Every request of the run is at such a time. -/
def RunFits (b : TokenBucket) : List ℤ → Prop
  | [] => True
  | t :: ts => RefillFits b t ∧ RunFits (b.tryConsume wrap64 t).2 ts

namespace TokenBucket

/-- The ranges of a bucket that comes from an accepted configuration. -/
structure Valid (b : TokenBucket) : Prop where
  max_pos : 0 < b.maxTokens
  max_lt : b.maxTokens < 2^32
  fill_pos : 0 < b.tokensPerFill
  interval_pos : 0 < b.fillInterval
  interval_lt : b.fillInterval < 2^63
  tokens_nonneg : 0 ≤ b.tokens
  tokens_le : b.tokens ≤ b.maxTokens
  last_ge : -2^63 ≤ b.lastRefillNs

def refills (b : TokenBucket) (now : ℤ) : ℤ := (now - b.lastRefillNs) / b.fillInterval

def filled (b : TokenBucket) (now : ℤ) : ℤ := b.tokens + b.refills now * b.tokensPerFill

def refilled (b : TokenBucket) (now tokens : ℤ) : TokenBucket :=
  { b with
    tokens := min b.maxTokens tokens
    lastRefillNs := b.lastRefillNs + b.refills now * b.fillInterval }

variable {b : TokenBucket} {now : ℤ}

theorem refills_nonneg (hb : b.Valid) (hnow : b.lastRefillNs ≤ now) : 0 ≤ b.refills now :=
  Int.ediv_nonneg (sub_nonneg.mpr hnow) hb.interval_pos.le

theorem refills_bounds (hb : b.Valid) (now : ℤ) :
    b.lastRefillNs + b.refills now * b.fillInterval ≤ now ∧
      now < b.lastRefillNs + b.refills now * b.fillInterval + b.fillInterval := by
  have hmod := Int.emod_add_mul_ediv (now - b.lastRefillNs) b.fillInterval
  have hlow := Int.emod_nonneg (now - b.lastRefillNs) hb.interval_pos.ne'
  have hhigh := Int.emod_lt_of_pos (now - b.lastRefillNs) hb.interval_pos
  rw [mul_comm] at hmod
  unfold refills
  constructor
  · linarith
  · linarith

theorem min_eq_ite (a t : ℤ) : (if t > a then a else t) = min a t := by
  rw [min_def]
  split_ifs with h h' h'
  · rfl
  · omega
  · omega
  · rfl

theorem tryConsume_id (hb : b.Valid) (hnow : b.lastRefillNs ≤ now) :
    b.tryConsume id now = (b.refilled now (b.filled now)).take id := by
  have hdiv : (now - b.lastRefillNs).tdiv b.fillInterval = b.refills now :=
    Int.tdiv_eq_ediv_of_nonneg (sub_nonneg.mpr hnow)
  simp only [tryConsume, id, hdiv]
  split_ifs with hpos
  · simp only [refill, id, refilled, filled, min_eq_ite]
  · have hzero : b.refills now = 0 := le_antisymm (not_lt.mp hpos) (refills_nonneg hb hnow)
    simp only [refilled, filled, hzero, zero_mul, add_zero, min_eq_right hb.tokens_le]

theorem tryConsume_wrap64 (hb : b.Valid) (hnow : b.lastRefillNs ≤ now) (hlt : now < 2^63)
    (helapsed : now - b.lastRefillNs < 2^63) :
    b.tryConsume wrap64 now = (b.refilled now (wrap64 (b.filled now))).take wrap64 := by
  have hge := hb.last_ge
  have hmax := hb.max_lt
  have htok := hb.tokens_le
  have htok' := hb.tokens_nonneg
  have hfits : wrap64 (now - b.lastRefillNs) = now - b.lastRefillNs :=
    wrap64_of_range (by unfold minInt64; omega) (by unfold maxInt64; omega)
  have hdiv : (now - b.lastRefillNs).tdiv b.fillInterval = b.refills now :=
    Int.tdiv_eq_ediv_of_nonneg (sub_nonneg.mpr hnow)
  have hnonneg := refills_nonneg hb hnow
  obtain ⟨hlast, -⟩ := refills_bounds hb now
  simp only [tryConsume, hfits, hdiv]
  split_ifs with hpos
  · have hmoved : 0 ≤ b.refills now * b.fillInterval := mul_nonneg hnonneg hb.interval_pos.le
    have hmove : wrap64 (b.refills now * b.fillInterval) = b.refills now * b.fillInterval :=
      wrap64_of_range (by unfold minInt64; omega) (by unfold maxInt64; omega)
    have hplace : wrap64 (b.lastRefillNs + b.refills now * b.fillInterval) =
        b.lastRefillNs + b.refills now * b.fillInterval :=
      wrap64_of_range (by unfold minInt64; omega) (by unfold maxInt64; omega)
    have hsum : wrap64 (b.tokens + wrap64 (b.refills now * b.tokensPerFill)) =
        wrap64 (b.filled now) := by
      unfold filled wrap64
      omega
    simp only [refill, hmove, hplace, hsum, refilled, min_eq_ite]
  · have hzero : b.refills now = 0 := le_antisymm (not_lt.mp hpos) hnonneg
    have hsame : wrap64 b.tokens = b.tokens :=
      wrap64_of_range (by unfold minInt64; omega) (by unfold maxInt64; omega)
    simp only [refilled, filled, hzero, zero_mul, add_zero, hsame, min_eq_right hb.tokens_le]

theorem take_wrap64 (hle : b.tokens ≤ 2^32) : b.take wrap64 = b.take id := by
  unfold take
  split_ifs with hpos
  · rw [wrap64_of_range (by unfold minInt64; omega) (by unfold maxInt64; omega)]
    rfl
  · rfl

theorem take_injective : Function.Injective (take id) := by
  intro b c h
  unfold take at h
  split_ifs at h with hb hc hc
  · obtain ⟨bmax, bfill, binterval, btokens, blast⟩ := b
    obtain ⟨cmax, cfill, cinterval, ctokens, clast⟩ := c
    simp only [id, Prod.mk.injEq, TokenBucket.mk.injEq, true_and] at h ⊢
    omega
  · cases congrArg Prod.fst h
  · cases congrArg Prod.fst h
  · exact congrArg Prod.snd h

theorem take_lastRefillNs (int64 : ℤ → ℤ) (b : TokenBucket) :
    (b.take int64).2.lastRefillNs = b.lastRefillNs := by
  unfold take
  split_ifs <;> rfl

theorem tryConsume_wrap64_late (hb : b.Valid) (hlt : now < 2^63)
    (helapsed : 2^63 ≤ now - b.lastRefillNs) : b.tryConsume wrap64 now = b.take wrap64 := by
  have hge := hb.last_ge
  have hneg : wrap64 (now - b.lastRefillNs) ≤ 0 := by
    unfold wrap64
    omega
  have hflip := Int.tdiv_nonneg (neg_nonneg.mpr hneg) hb.interval_pos.le
  rw [Int.neg_tdiv] at hflip
  have hdiv : ¬(wrap64 (now - b.lastRefillNs)).tdiv b.fillInterval > 0 :=
    not_lt.mpr (neg_nonneg.mp hflip)
  simp only [tryConsume, if_neg hdiv]

theorem filled_nonneg (hb : b.Valid) (hnow : b.lastRefillNs ≤ now) : 0 ≤ b.filled now :=
  add_nonneg hb.tokens_nonneg (mul_nonneg (refills_nonneg hb hnow) hb.fill_pos.le)

theorem min_wrap64_iff {max n : ℤ} (hmax : max < 2^32) (hn : 0 ≤ n) :
    min max (wrap64 n) = min max n ↔ n < 2^63 ∨ max ≤ wrap64 n := by
  by_cases hlt : n < 2^63
  · rw [wrap64_of_range (by unfold minInt64; omega) (by unfold maxInt64; omega)]
    exact ⟨fun _ => .inl hlt, fun _ => rfl⟩
  · rw [min_eq_left (b := n) (by omega), min_eq_left_iff]
    exact ⟨.inr, fun h => h.resolve_left hlt⟩

theorem refilled_eq_iff {tokens tokens' : ℤ} :
    b.refilled now tokens = b.refilled now tokens' ↔
      min b.maxTokens tokens = min b.maxTokens tokens' := by
  simp only [refilled, TokenBucket.mk.injEq, true_and, and_true]

theorem tryConsume_eq_iff (hb : b.Valid) (hnow : b.lastRefillNs ≤ now) (hlt : now < 2^63) :
    b.tryConsume wrap64 now = b.tryConsume id now ↔ RefillFits b now := by
  by_cases helapsed : now - b.lastRefillNs < 2^63
  · have hcap : (b.refilled now (wrap64 (b.filled now))).tokens ≤ 2^32 :=
      (min_le_left _ _).trans hb.max_lt.le
    rw [tryConsume_wrap64 hb hnow hlt helapsed, tryConsume_id hb hnow,
      take_wrap64 hcap, take_injective.eq_iff, refilled_eq_iff,
      min_wrap64_iff hb.max_lt (filled_nonneg hb hnow)]
    exact ⟨fun h => ⟨helapsed, h⟩, fun h => h.2⟩
  · refine ⟨fun h => ?_, fun h => (helapsed h.1).elim⟩
    -- over the integers the reference time moves, since more than an interval has passed
    have hlast := congrArg (fun r => r.2.lastRefillNs) h
    rw [tryConsume_wrap64_late hb hlt (not_lt.mp helapsed), tryConsume_id hb hnow] at hlast
    simp only [take_lastRefillNs, refilled] at hlast
    have hbound := (refills_bounds hb now).2
    have hinterval := hb.interval_lt
    omega

structure Request (b : TokenBucket) (now : ℤ) (r : Bool × TokenBucket) : Prop where
  valid : r.2.Valid
  maxTokens : r.2.maxTokens = b.maxTokens
  tokensPerFill : r.2.tokensPerFill = b.tokensPerFill
  fillInterval : r.2.fillInterval = b.fillInterval
  lastRefillNs : r.2.lastRefillNs = b.lastRefillNs + b.refills now * b.fillInterval
  tokens : r.2.tokens + (if r.1 then 1 else 0) = min b.maxTokens (b.filled now)

theorem valid_refilled (hb : b.Valid) (hnow : b.lastRefillNs ≤ now) :
    (b.refilled now (b.filled now)).Valid where
  max_pos := hb.max_pos
  max_lt := hb.max_lt
  fill_pos := hb.fill_pos
  interval_pos := hb.interval_pos
  interval_lt := hb.interval_lt
  tokens_nonneg := le_min hb.max_pos.le (filled_nonneg hb hnow)
  tokens_le := min_le_left _ _
  last_ge := hb.last_ge.trans (le_add_of_nonneg_right
    (mul_nonneg (refills_nonneg hb hnow) hb.interval_pos.le))

theorem valid_take (hb : b.Valid) : (b.take id).2.Valid := by
  unfold take
  split_ifs with hpos
  · exact { hb with
      tokens_nonneg := Int.sub_nonneg_of_le hpos
      tokens_le := (sub_le_self _ zero_le_one).trans hb.tokens_le }
  · exact hb

theorem request_tryConsume (hb : b.Valid) (hnow : b.lastRefillNs ≤ now) :
    Request b now (b.tryConsume id now) := by
  have hvalid := valid_take (valid_refilled hb hnow)
  rw [tryConsume_id hb hnow]
  by_cases hpos : (b.refilled now (b.filled now)).tokens > 0
  · have htake : (b.refilled now (b.filled now)).take id = (true, _) := if_pos hpos
    rw [htake] at hvalid ⊢
    exact ⟨hvalid, rfl, rfl, rfl, rfl, sub_add_cancel _ _⟩
  · have htake : (b.refilled now (b.filled now)).take id = (false, _) := if_neg hpos
    rw [htake] at hvalid ⊢
    exact ⟨hvalid, rfl, rfl, rfl, rfl, add_zero _⟩

section Run

variable {ts : List ℤ}

structure Clocked (b : TokenBucket) (ts : List ℤ) : Prop where
  sorted : ts.Pairwise (· ≤ ·)
  after : ∀ t ∈ ts, b.lastRefillNs ≤ t
  below : ∀ t ∈ ts, t < 2^63

theorem Clocked.head {t : ℤ} (h : Clocked b (t :: ts)) : b.lastRefillNs ≤ t ∧ t < 2^63 :=
  ⟨h.after t List.mem_cons_self, h.below t List.mem_cons_self⟩

theorem Clocked.tail {t : ℤ} (hb : b.Valid) (h : Clocked b (t :: ts)) :
    Clocked (b.tryConsume id t).2 ts where
  sorted := (List.pairwise_cons.mp h.sorted).2
  after u hu := by
    have hle := (List.pairwise_cons.mp h.sorted).1 u hu
    rw [(request_tryConsume hb h.head.1).lastRefillNs]
    exact (refills_bounds hb t).1.trans hle
  below u hu := h.below u (List.mem_cons_of_mem t hu)

theorem Clocked.left {us : List ℤ} (h : Clocked b (ts ++ us)) : Clocked b ts where
  sorted := (List.pairwise_append.mp h.sorted).1
  after t ht := h.after t (List.mem_append_left us ht)
  below t ht := h.below t (List.mem_append_left us ht)

theorem trace_eq_iff (hb : b.Valid) (hts : Clocked b ts) :
    b.trace wrap64 ts = b.trace id ts ↔ RunFits b ts := by
  induction ts generalizing b with
  | nil => exact ⟨fun _ => trivial, fun _ => rfl⟩
  | cons t ts ih =>
    have hstep := tryConsume_eq_iff hb hts.head.1 hts.head.2
    rw [trace, trace, List.cons.injEq, RunFits, hstep]
    refine and_congr_right fun hfits => ?_
    rw [hstep.mpr hfits]
    exact ih (request_tryConsume hb hts.head.1).valid (hts.tail hb)

theorem trace_append (int64 : ℤ → ℤ) (b : TokenBucket) (ts us : List ℤ) :
    b.trace int64 (ts ++ us) = b.trace int64 ts ++ (b.after int64 ts).trace int64 us := by
  induction ts generalizing b with
  | nil => rfl
  | cons t ts ih => exact congrArg (_ :: ·) (ih _)

theorem length_trace (int64 : ℤ → ℤ) (b : TokenBucket) (ts : List ℤ) :
    (b.trace int64 ts).length = ts.length := by
  induction ts generalizing b with
  | nil => rfl
  | cons t ts ih => exact congrArg (· + 1) (ih _)

theorem after_eq_of_trace_eq (h : b.trace wrap64 ts = b.trace id ts) :
    b.after wrap64 ts = b.after id ts := by
  induction ts generalizing b with
  | nil => rfl
  | cons t ts ih =>
    obtain ⟨hhead, htail⟩ := List.cons.inj h
    change (b.tryConsume wrap64 t).2.after wrap64 ts = (b.tryConsume id t).2.after id ts
    rw [← hhead] at htail ⊢
    exact ih htail

theorem agree_of_append {us : List ℤ} (h : b.trace wrap64 (ts ++ us) = b.trace id (ts ++ us)) :
    b.after wrap64 ts = b.after id ts ∧
      (b.after id ts).trace wrap64 us = (b.after id ts).trace id us := by
  rw [trace_append, trace_append] at h
  obtain ⟨hts, hus⟩ := List.append_inj h
    ((length_trace wrap64 b ts).trans (length_trace id b ts).symm)
  have hafter := after_eq_of_trace_eq hts
  rw [hafter] at hus
  exact ⟨hafter, hus⟩

structure Ran (b : TokenBucket) (ts : List ℤ) (steps : ℕ) : Prop where
  valid : (b.after id ts).Valid
  maxTokens : (b.after id ts).maxTokens = b.maxTokens
  tokensPerFill : (b.after id ts).tokensPerFill = b.tokensPerFill
  fillInterval : (b.after id ts).fillInterval = b.fillInterval
  lastRefillNs : (b.after id ts).lastRefillNs = b.lastRefillNs + steps * b.fillInterval
  reached : ∀ c, b.lastRefillNs ≤ c → (∀ t ∈ ts, t ≤ c) → (b.after id ts).lastRefillNs ≤ c
  grants : b.grants id ts + (b.after id ts).tokens ≤ b.tokens + steps * b.tokensPerFill
  inRange : ∀ r ∈ b.trace id ts, 0 ≤ r.2.tokens ∧ r.2.tokens ≤ b.maxTokens

theorem grants_cons (int64 : ℤ → ℤ) (b : TokenBucket) (t : ℤ) (ts : List ℤ) :
    (b.grants int64 (t :: ts) : ℤ) = (if (b.tryConsume int64 t).1 then 1 else 0) +
      (b.tryConsume int64 t).2.grants int64 ts := by
  rw [grants, grants, trace, List.countP_cons]
  split_ifs <;> push_cast <;> omega

theorem exists_ran (hb : b.Valid) (hts : Clocked b ts) : ∃ steps, Ran b ts steps := by
  induction ts generalizing b with
  | nil =>
    refine ⟨0, hb, rfl, rfl, rfl, ?_, fun c hc _ => hc, ?_, fun r hr => (List.not_mem_nil hr).elim⟩
    · change b.lastRefillNs = b.lastRefillNs + (0 : ℕ) * b.fillInterval
      rw [Nat.cast_zero, zero_mul, add_zero]
    · change ((0 : ℕ) : ℤ) + b.tokens ≤ b.tokens + (0 : ℕ) * b.tokensPerFill
      rw [Nat.cast_zero, zero_mul, zero_add, add_zero]
  | cons t ts ih =>
    have hreq := request_tryConsume hb hts.head.1
    obtain ⟨steps, hran⟩ := ih hreq.valid (hts.tail hb)
    have hmoved : ((b.refills t).toNat : ℤ) = b.refills t :=
      Int.toNat_of_nonneg (refills_nonneg hb hts.head.1)
    refine ⟨(b.refills t).toNat + steps, hran.valid, hran.maxTokens.trans hreq.maxTokens,
      hran.tokensPerFill.trans hreq.tokensPerFill, hran.fillInterval.trans hreq.fillInterval,
      ?_, ?_, ?_, ?_⟩
    · refine hran.lastRefillNs.trans ?_
      rw [hreq.lastRefillNs, hreq.fillInterval, Nat.cast_add, hmoved]
      ring
    · intro c _ hc
      refine hran.reached c ?_ fun u hu => hc u (List.mem_cons_of_mem t hu)
      rw [hreq.lastRefillNs]
      exact (refills_bounds hb t).1.trans (hc t List.mem_cons_self)
    · have hrest := hran.grants
      have htokens := hreq.tokens
      have hcap : min b.maxTokens (b.filled t) ≤ b.tokens + b.refills t * b.tokensPerFill :=
        min_le_right _ _
      change _ + ((b.tryConsume id t).2.after id ts).tokens ≤ _
      rw [hreq.tokensPerFill] at hrest
      rw [grants_cons, Nat.cast_add, hmoved, add_mul]
      linarith
    · intro r hr
      rcases List.mem_cons.mp hr with rfl | hr
      · exact ⟨hreq.valid.tokens_nonneg, hreq.maxTokens ▸ hreq.valid.tokens_le⟩
      · exact hreq.maxTokens ▸ hran.inRange r hr

theorem steps_le_card {start interval last a c : ℤ} {steps : ℕ} (hinterval : 0 < interval)
    (hlast : (last - start) % interval = 0) (ha : a < last + interval)
    (hc : last + steps * interval ≤ c) :
    steps ≤ (fillBoundaries start interval a c).card := by
  have hinj : Function.Injective fun j : ℕ => last + (j + 1) * interval := by
    intro i j hij
    have := mul_right_cancel₀ hinterval.ne' (add_left_cancel hij)
    omega
  have hsub : (Finset.range steps).image (fun j : ℕ => last + (j + 1) * interval) ⊆
      fillBoundaries start interval a c := by
    intro t ht
    obtain ⟨j, hj, rfl⟩ := Finset.mem_image.mp ht
    have hj' : (j + 1 : ℤ) ≤ steps := by exact_mod_cast Finset.mem_range.mp hj
    have hone : 1 * interval ≤ (j + 1) * interval :=
      mul_le_mul_of_nonneg_right (by omega) hinterval.le
    have hall : (j + 1) * interval ≤ steps * interval :=
      mul_le_mul_of_nonneg_right hj' hinterval.le
    refine Finset.mem_filter.mpr ⟨Finset.mem_Ioc.mpr ⟨by linarith, by linarith⟩, ?_⟩
    have hshift : last + (j + 1) * interval - start = last - start + (j + 1) * interval := by ring
    rw [hshift, Int.add_mul_emod_self_right, hlast]
  have hcard := Finset.card_le_card hsub
  rwa [Finset.card_image_of_injective _ hinj, Finset.card_range] at hcard

theorem grants_id_le (hb : b.Valid) {start a c : ℤ} {within : List ℤ} (hts : Clocked b within)
    (hstart : (b.lastRefillNs - start) % b.fillInterval = 0)
    (hac : ∀ t ∈ within, a ≤ t ∧ t ≤ c) :
    (b.grants id within : ℤ) ≤
      b.maxTokens + b.tokensPerFill * (fillBoundaries start b.fillInterval a c).card := by
  cases within with
  | nil =>
    exact add_nonneg hb.max_pos.le (mul_nonneg hb.fill_pos.le (Nat.cast_nonneg _))
  | cons t ts =>
    have hreq := request_tryConsume hb hts.head.1
    obtain ⟨steps, hran⟩ := exists_ran hreq.valid (hts.tail hb)
    have hbound := refills_bounds hb t
    have hend : (b.tryConsume id t).2.lastRefillNs + steps * b.fillInterval ≤ c := by
      rw [← hreq.fillInterval, ← hran.lastRefillNs]
      refine hran.reached c ?_ fun u hu => (hac u (List.mem_cons_of_mem t hu)).2
      rw [hreq.lastRefillNs]
      exact hbound.1.trans (hac t List.mem_cons_self).2
    have hplace : ((b.tryConsume id t).2.lastRefillNs - start) % b.fillInterval = 0 := by
      have hshift : (b.tryConsume id t).2.lastRefillNs - start =
          b.lastRefillNs - start + b.refills t * b.fillInterval := by
        rw [hreq.lastRefillNs]
        ring
      rw [hshift, Int.add_mul_emod_self_right, hstart]
    have hcard : (steps : ℤ) ≤ (fillBoundaries start b.fillInterval a c).card := by
      refine Nat.cast_le.mpr (steps_le_card hb.interval_pos hplace ?_ hend)
      rw [hreq.lastRefillNs]
      exact (hac t List.mem_cons_self).1.trans_lt hbound.2
    have hpaid : steps * b.tokensPerFill ≤
        b.tokensPerFill * (fillBoundaries start b.fillInterval a c).card := by
      rw [mul_comm]
      exact mul_le_mul_of_nonneg_left hcard hb.fill_pos.le
    have hfirst := hreq.tokens
    have hcap : min b.maxTokens (b.filled t) ≤ b.maxTokens := min_le_left _ _
    have hrest := hran.grants
    have hleft := hran.valid.tokens_nonneg
    rw [hreq.tokensPerFill] at hrest
    rw [grants_cons]
    linarith

theorem clocked_after {before within : List ℤ} (hb : b.Valid)
    (hts : Clocked b (before ++ within)) : Clocked (b.after id before) within := by
  obtain ⟨steps, hran⟩ := exists_ran hb hts.left
  obtain ⟨-, hsorted, hcross⟩ := List.pairwise_append.mp hts.sorted
  refine ⟨hsorted, fun t ht => ?_, fun t ht => hts.below t (List.mem_append_right before ht)⟩
  exact hran.reached t (hts.after t (List.mem_append_right before ht))
    fun u hu => hcross u hu t ht

theorem faithful_of_runFits (hb : b.Valid) (hts : Clocked b ts) (hfits : RunFits b ts) :
    Faithful b ts where
  exact := (trace_eq_iff hb hts).mpr hfits
  inRange := by
    obtain ⟨steps, hran⟩ := exists_ran hb hts
    rw [(trace_eq_iff hb hts).mpr hfits]
    exact hran.inRange
  grants_le := by
    rintro before within later a c rfl hac
    have htrace := (trace_eq_iff hb hts).mpr hfits
    rw [List.append_assoc] at htrace
    obtain ⟨hbefore, hrest⟩ := agree_of_append htrace
    have hwithin : (b.after id before).trace wrap64 within =
        (b.after id before).trace id within := by
      rw [trace_append, trace_append] at hrest
      exact (List.append_inj hrest
        ((length_trace wrap64 _ within).trans (length_trace id _ within).symm)).1
    obtain ⟨steps, hran⟩ := exists_ran hb hts.left.left
    have hplace : ((b.after id before).lastRefillNs - b.lastRefillNs) %
        (b.after id before).fillInterval = 0 := by
      rw [hran.lastRefillNs, hran.fillInterval, add_sub_cancel_left, Int.mul_emod_left]
    have hle := grants_id_le hran.valid (clocked_after hb hts.left) hplace hac
    rw [hran.maxTokens, hran.tokensPerFill, hran.fillInterval] at hle
    rw [hbefore, grants, hwithin]
    exact hle

end Run

end TokenBucket

theorem toNat_lt_uint32 (v : UInt32) : (v.toNat : ℤ) < 2^32 := by
  exact_mod_cast v.toNat_lt

theorem toNat_pos_uint32 {v : UInt32} (h : v ≠ 0) : (0 : ℤ) < v.toNat := by
  have hne : v.toNat ≠ 0 := fun heq => h (UInt32.toNat.inj heq)
  omega

theorem fillTokens_pos {o : Option UInt32} {n : ℤ} (h : fillTokens o = .ok n) : 0 < n := by
  cases o with
  | none => cases h; exact zero_lt_one
  | some v =>
    unfold fillTokens at h
    dsimp only at h
    split_ifs at h with hv
    cases h
    exact toNat_pos_uint32 hv

theorem valid_buildRuntimeConfig {c : Config} {now : ℤ} {rc : RuntimeConfig}
    (h : buildRuntimeConfig c now = .ok rc) (hnow : -2^63 ≤ now) :
    rc.bucket.Valid ∧ rc.bucket.lastRefillNs = now := by
  unfold buildRuntimeConfig at h
  split_ifs at h
  cases htb : c.tokenBucket with
  | none => rw [htb] at h; cases h
  | some tb =>
    rw [htb] at h
    dsimp only at h
    by_cases hmax : tb.maxTokens = 0
    · rw [if_pos hmax] at h
      cases h
    rw [if_neg hmax] at h
    cases hfill : fillTokens tb.tokensPerFill with
    | error err => rw [hfill] at h; cases h
    | ok n =>
      rw [hfill] at h
      change (if tb.fillInterval.ns < minFillInterval then _ else _) = _ at h
      split_ifs at h with hinterval
      cases hstatus : statusCode c.status with
      | error err => rw [hstatus] at h; cases h
      | ok code =>
        rw [hstatus] at h
        cases h
        have hrange := tb.fillInterval.range.2
        unfold minFillInterval at hinterval
        unfold maxInt64 at hrange
        exact ⟨⟨toNat_pos_uint32 hmax, toNat_lt_uint32 _, fillTokens_pos hfill,
          by change 0 < tb.fillInterval.ns; omega, by change tb.fillInterval.ns < _; omega,
          (toNat_pos_uint32 hmax).le, le_rfl, hnow⟩, rfl⟩

/-- Readings of `UnixNano` from the creation of a bucket on, none before the one it follows. -/
def Readings (start : ℤ) (ts : List ℤ) : Prop :=
  (start :: ts).Pairwise (· ≤ ·) ∧ ∀ t ∈ start :: ts, -2^63 ≤ t ∧ t < 2^63

instance (start : ℤ) (ts : List ℤ) : Decidable (Readings start ts) :=
  inferInstanceAs (Decidable (_ ∧ _))

/-- The bucket of an accepted configuration does what it is to do over a run exactly when the refill
of every request fits. -/
theorem faithful_iff_runFits {c : Config} {start : ℤ} {rc : RuntimeConfig} {ts : List ℤ}
    (hc : buildRuntimeConfig c start = .ok rc) (hts : Readings start ts) :
    Faithful rc.bucket ts ↔ RunFits rc.bucket ts := by
  obtain ⟨hvalid, hlast⟩ := valid_buildRuntimeConfig hc (hts.2 start List.mem_cons_self).1
  obtain ⟨hafter, hsorted⟩ := List.pairwise_cons.mp hts.1
  have hclocked : TokenBucket.Clocked rc.bucket ts :=
    ⟨hsorted, fun t ht => hlast.trans_le (hafter t ht),
      fun t ht => (hts.2 t (List.mem_cons_of_mem start ht)).2⟩
  exact ⟨fun h => (TokenBucket.trace_eq_iff hvalid hclocked).mp h.exact,
    TokenBucket.faithful_of_runFits hvalid hclocked⟩

/-- Ten tokens at most, and the most that a fill can add every 50 ms. -/
def generous : Config where
  statPrefix := "local"
  tokenBucket := some ⟨10, some 4294967295, ⟨50000000, by decide⟩⟩

def generousBucket : TokenBucket := newTokenBucket 10 4294967295 50000000 0

theorem buildRuntimeConfig_generous :
    buildRuntimeConfig generous 0 = .ok ⟨"local", generousBucket, 429⟩ := by
  rfl

/-- Requests within a second. -/
theorem faithful_generous : Readings 0 [0, 10000000, 60000000, 990000000] ∧
    Faithful generousBucket [0, 10000000, 60000000, 990000000] :=
  ⟨by decide +kernel, (faithful_iff_runFits buildRuntimeConfig_generous (by decide +kernel)).mpr
    ⟨by decide +kernel, by decide +kernel, by decide +kernel, by decide +kernel, trivial⟩⟩

/-- After three years and five months the product of the intervals and the tokens does not fit: the
bucket is left with a debt, and the request is refused. -/
theorem not_faithful_generous :
    buildRuntimeConfig generous 0 = .ok ⟨"local", generousBucket, 429⟩ ∧
    Readings 0 [107374182450000000] ∧
    generousBucket.trace wrap64 [107374182450000000] =
      [(false, { generousBucket with
        tokens := -9223372034707292151, lastRefillNs := 107374182450000000 })] ∧
    (generousBucket.tryConsume id 107374182450000000).1 = true ∧
    ¬Faithful generousBucket [107374182450000000] := by
  have htrace : generousBucket.trace wrap64 [107374182450000000] =
      [(false, { generousBucket with
        tokens := -9223372034707292151, lastRefillNs := 107374182450000000 })] := by decide +kernel
  refine ⟨buildRuntimeConfig_generous, by decide +kernel, htrace, by decide +kernel, fun h => ?_⟩
  have hrange := h.inRange
  rw [htrace] at hrange
  exact absurd (hrange _ List.mem_cons_self).1 (by decide +kernel)

end EnvoyGo.LocalRateLimit

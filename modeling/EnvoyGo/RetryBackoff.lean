import EnvoyGo.RetryExecutor

/-!
The bound of the jitter before a retry, `RetryPolicy.backoff` of
`internal/filter/http/router/retry.go`, against the product computed without overflow.
-/

namespace EnvoyGo.Router

namespace RetryPolicy

variable {rp : RetryPolicy} {n k : ℕ}

def product (rp : RetryPolicy) (n : ℕ) : ℤ := rp.baseInterval.ns * 2^(n - 1)

def exactCap (rp : RetryPolicy) (n : ℕ) : ℤ := min rp.maxInterval.ns (rp.product n)

/-- A product past the `int64` range is caught: what the shift leaves of it is zero, negative, or
not below the maximum. -/
def ShiftCaught (rp : RetryPolicy) (n : ℕ) : Prop :=
  rp.product n < 2^63 ∨ rp.product n % 2^64 = 0 ∨ 2^63 ≤ rp.product n % 2^64 ∨
    rp.maxInterval.ns ≤ rp.product n % 2^64

/-- The greatest duration is not the bound, so that one more is still an `int64`. -/
def DrawInRange (rp : RetryPolicy) (n : ℕ) : Prop :=
  rp.maxInterval.ns < maxInt64 ∨ rp.product n < maxInt64

instance (rp : RetryPolicy) (n : ℕ) : Decidable (rp.ShiftCaught n) :=
  inferInstanceAs (Decidable (_ ∨ _ ∨ _ ∨ _))

instance (rp : RetryPolicy) (n : ℕ) : Decidable (rp.DrawInRange n) :=
  inferInstanceAs (Decidable (_ ∨ _))

theorem product_pos (rp : RetryPolicy) (n : ℕ) : 0 < rp.product n :=
  Int.mul_pos rp.base_pos (Int.pow_pos (by decide))

theorem product_mono (rp : RetryPolicy) (h : k ≤ n) : rp.product k ≤ rp.product n := by
  have hnat : 2^(k - 1) ≤ 2^(n - 1) :=
    Nat.pow_le_pow_right (by decide) (Nat.sub_le_sub_right h 1)
  have hpow : (2:ℤ)^(k - 1) ≤ 2^(n - 1) := by exact_mod_cast hnat
  exact Int.mul_le_mul_of_nonneg_left hpow rp.base_pos.le

theorem exactCap_mono (rp : RetryPolicy) (h : k ≤ n) : rp.exactCap k ≤ rp.exactCap n :=
  min_le_min_left rp.maxInterval.ns (rp.product_mono h)

theorem wrap64_product (rp : RetryPolicy) (n : ℕ) :
    wrap64 (rp.product n) =
      if rp.product n % 2^64 < 2^63 then rp.product n % 2^64 else rp.product n % 2^64 - 2^64 := by
  have hpos := rp.product_pos n
  unfold wrap64
  omega

theorem backoffCap_eq_exactCap_iff : rp.backoffCap n = rp.exactCap n ↔ rp.ShiftCaught n := by
  have hpos := rp.product_pos n
  have hbase := rp.base_pos
  have hle := rp.base_le_max
  have hmax : rp.maxInterval.ns ≤ 2^63 - 1 := rp.maxInterval.range.2
  have hwrap := rp.wrap64_product n
  have hcap : rp.backoffCap n =
      if wrap64 (rp.product n) > rp.maxInterval.ns ∨ wrap64 (rp.product n) ≤ 0 then
        rp.maxInterval.ns else wrap64 (rp.product n) := rfl
  rw [hcap, exactCap, ShiftCaught]
  by_cases hin : rp.product n < 2^63
  · -- nothing is lost by the shift
    have hmod : rp.product n % 2^64 = rp.product n := by omega
    rw [hmod, if_pos hin] at hwrap
    rw [hwrap]
    by_cases hover : rp.product n > rp.maxInterval.ns
    · rw [if_pos (Or.inl hover), min_eq_left hover.le]
      exact iff_of_true rfl (Or.inl hin)
    · rw [if_neg (by omega), min_eq_right (not_lt.mp hover)]
      exact iff_of_true rfl (Or.inl hin)
  · have hmin : min rp.maxInterval.ns (rp.product n) = rp.maxInterval.ns :=
      min_eq_left (by omega)
    rw [hmin, hwrap]
    by_cases hhalf : rp.product n % 2^64 < 2^63
    · rw [if_pos hhalf]
      split_ifs with h
      · exact iff_of_true rfl (by omega)
      · constructor
        · intro heq
          omega
        · intro hc
          omega
    · rw [if_neg hhalf, if_pos (by omega)]
      exact iff_of_true rfl (by omega)

theorem exactCap_eq_maxInt64_iff : rp.exactCap n = maxInt64 ↔ ¬ rp.DrawInRange n := by
  have hmax := rp.maxInterval.range.2
  rw [exactCap, DrawInRange, not_or, not_lt, not_lt]
  constructor
  · intro h
    have hleft := min_le_left rp.maxInterval.ns (rp.product n)
    have hright := min_le_right rp.maxInterval.ns (rp.product n)
    rw [h] at hleft hright
    exact ⟨hleft, hright⟩
  · intro ⟨hm, hp⟩
    rw [le_antisymm hmax hm, min_eq_left hp]

end RetryPolicy

/-- For every accepted policy and every retry, the bound is the least of the maximum and the
unbounded product, and the draw does not panic, exactly when the shift's overflow is caught and
the bound is not the greatest duration. -/
theorem backoff_exact_iff {retryOn : String} {numRetries : UInt32} {codes : List UInt32}
    {base max perTry : Duration} {rp : RetryPolicy}
    (_h : newRetryPolicy retryOn numRetries codes base max perTry = .ok rp) :
    (∀ n, 1 ≤ n →
      ((rp.backoffCap n = min rp.maxInterval.ns (rp.baseInterval.ns * 2^(n - 1)) ∧
        ∀ draw, rp.backoff n draw ≠ none) ↔ rp.ShiftCaught n ∧ rp.DrawInRange n)) ∧
    ∀ k n, 1 ≤ k → k ≤ n → rp.ShiftCaught k → rp.ShiftCaught n →
      rp.backoffCap k ≤ rp.backoffCap n := by
  refine ⟨?_, ?_⟩
  · intro n _
    have hcap : rp.backoffCap n = rp.exactCap n ↔ rp.ShiftCaught n :=
      RetryPolicy.backoffCap_eq_exactCap_iff
    have hdraw : (∀ draw, rp.backoff n draw ≠ none) ↔ rp.backoffCap n ≠ maxInt64 := by
      constructor
      · intro hne hmax
        exact hne 0 ((rp.backoff_eq_none_iff n 0).mpr hmax)
      · intro hne draw hnone
        exact hne ((rp.backoff_eq_none_iff n draw).mp hnone)
    have hrange : rp.exactCap n ≠ maxInt64 ↔ rp.DrawInRange n := by
      rw [ne_eq, RetryPolicy.exactCap_eq_maxInt64_iff, not_not]
    constructor
    · intro ⟨heq, hne⟩
      have hne' : rp.exactCap n ≠ maxInt64 := by
        rw [RetryPolicy.exactCap, RetryPolicy.product, ← heq]
        exact hdraw.mp hne
      exact ⟨hcap.mp heq, hrange.mp hne'⟩
    · intro ⟨hshift, hin⟩
      have heq := hcap.mpr hshift
      exact ⟨heq, hdraw.mpr (heq ▸ hrange.mpr hin)⟩
  · intro k n _ hkn hk hn
    rw [RetryPolicy.backoffCap_eq_exactCap_iff.mpr hk,
      RetryPolicy.backoffCap_eq_exactCap_iff.mpr hn]
    exact rp.exactCap_mono hkn

def wideBase : Duration := Duration.wrap (2^32 + 1)

def widePolicy : Except String RetryPolicy :=
  newRetryPolicy "5xx" 40 [] wideBase (Duration.wrap 0) (Duration.wrap 0)

theorem widePolicy_isOk : ∃ rp, widePolicy = .ok rp ∧ rp.baseInterval.ns = 2^32 + 1 ∧
    rp.maxInterval.ns = 10 * (2^32 + 1) :=
  ⟨_, rfl, by decide, by decide⟩

theorem backoff_exact_iff_wide : ∃ rp, widePolicy = .ok rp ∧
    rp.backoffCap 3 = 4 * (2^32 + 1) ∧ ∀ draw, rp.backoff 3 draw ≠ none := by
  obtain ⟨rp, hrp, hbase, hmax⟩ := widePolicy_isOk
  have hcond : rp.ShiftCaught 3 ∧ rp.DrawInRange 3 := by
    unfold RetryPolicy.ShiftCaught RetryPolicy.DrawInRange RetryPolicy.product
    rw [hbase, hmax]
    decide
  obtain ⟨heq, hdraw⟩ := ((backoff_exact_iff hrp).1 3 (by decide)).mpr hcond
  rw [hbase, hmax] at heq
  exact ⟨rp, hrp, heq, hdraw⟩

/-- At retry 33 the shift wraps to 2³², which is positive and below the maximum. -/
theorem backoff_wraps : ∃ rp, widePolicy = .ok rp ∧ rp.backoffCap 33 = 2^32 ∧
    min rp.maxInterval.ns (rp.baseInterval.ns * 2^(33 - 1)) = 10 * (2^32 + 1) ∧
    rp.backoffCap 33 < rp.backoffCap 32 := by
  refine ⟨_, rfl, ?_, ?_, ?_⟩ <;> decide

end EnvoyGo.Router

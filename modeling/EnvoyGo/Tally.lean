import Mathlib.Algebra.BigOperators.Intervals
import Mathlib.Algebra.BigOperators.Ring.Finset
import Mathlib.Algebra.Order.BigOperators.Group.Finset

/-!
Sums of integer weights over the first records of a store, and how they move when one record
is replaced.  Nothing here is about a particular store.
-/

namespace EnvoyGo.Tally

def tally (n : ℕ) (w : ℕ → ℤ) : ℤ := ∑ i ∈ Finset.range n, w i

theorem tally_congr {n : ℕ} {w v : ℕ → ℤ} (h : ∀ i < n, w i = v i) : tally n w = tally n v :=
  Finset.sum_congr rfl (fun i hi => h i (Finset.mem_range.mp hi))

theorem tally_succ (n : ℕ) (w : ℕ → ℤ) : tally (n + 1) w = tally n w + w n :=
  Finset.sum_range_succ w n

theorem tally_sub (n : ℕ) (w v : ℕ → ℤ) :
    tally n (fun i => w i - v i) = tally n w - tally n v :=
  Finset.sum_sub_distrib w v

theorem tally_add (n : ℕ) (w v : ℕ → ℤ) :
    tally n (fun i => w i + v i) = tally n w + tally n v :=
  Finset.sum_add_distrib

theorem tally_nonneg (n : ℕ) {w : ℕ → ℤ} (h : ∀ i, 0 ≤ w i) : 0 ≤ tally n w :=
  Finset.sum_nonneg (fun i _ => h i)

theorem le_tally {n : ℕ} {w : ℕ → ℤ} (h : ∀ i, 0 ≤ w i) {i : ℕ} (hi : i < n) :
    w i ≤ tally n w :=
  Finset.single_le_sum (fun j _ => h j) (Finset.mem_range.mpr hi)

theorem tally_replace {n : ℕ} {w v : ℕ → ℤ} {i : ℕ} (hi : i < n) (h : ∀ j, j ≠ i → v j = w j) :
    tally n v = tally n w + (v i - w i) := by
  have hmem : i ∈ Finset.range n := Finset.mem_range.mpr hi
  have hv := Finset.add_sum_erase (Finset.range n) v hmem
  have hw := Finset.add_sum_erase (Finset.range n) w hmem
  have hrest : ∑ j ∈ (Finset.range n).erase i, v j = ∑ j ∈ (Finset.range n).erase i, w j :=
    Finset.sum_congr rfl (fun j hj => h j (Finset.ne_of_mem_erase hj))
  unfold tally
  omega

def one (b : Bool) : ℤ := if b then 1 else 0

theorem tally_const_one (n : ℕ) : tally n (fun _ => 1) = n := by simp [tally]

theorem tally_one_eq_card (n : ℕ) (p : ℕ → Prop) [DecidablePred p] :
    tally n (fun j => one (decide (p j))) = ((Finset.range n).filter p).card := by
  rw [Finset.natCast_card_filter]
  refine tally_congr (fun j _ => ?_)
  by_cases hj : p j
  · rw [decide_eq_true hj, if_pos hj]
    rfl
  · rw [decide_eq_false hj, if_neg hj]
    rfl

theorem tally_one_lt (n : ℕ) (b : ℕ → Bool) {k : ℕ} (hk : k < n) (hb : b k = false) :
    tally n (fun j => one (b j)) < n := by
  have hrest : ∀ j, 0 ≤ 1 - one (b j) := by
    intro j
    cases b j with
    | true => exact le_rfl
    | false => exact zero_le_one
  have hle := le_tally hrest hk
  have hsum := tally_sub n (fun _ => 1) (fun j => one (b j))
  have hn := tally_const_one n
  rw [hb] at hle
  change (1 : ℤ) - 0 ≤ _ at hle
  omega

theorem exists_of_tally_one_lt {n : ℕ} {b : ℕ → Bool} (h : tally n (fun j => one (b j)) < n) :
    ∃ k < n, b k = false := by
  by_contra hall
  push Not at hall
  have hones : tally n (fun j => one (b j)) = tally n (fun _ => 1) := by
    refine tally_congr (fun j hj => ?_)
    rw [Bool.eq_true_of_not_eq_false (hall j hj)]
    rfl
  rw [hones, tally_const_one] at h
  exact lt_irrefl _ h

end EnvoyGo.Tally

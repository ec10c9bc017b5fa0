import EnvoyGo.Runs
import EnvoyGo.Tally
import Mathlib.Algebra.Order.Ring.Int
import Mathlib.Logic.Function.Iterate

/-!
A table filled in turns: each owner has a sequence of slots, and at its turn takes the first one
that is free.  When every sequence comes by every slot, the table fills up, and the owners share it
evenly.  Nothing here is about a particular table.
-/

namespace EnvoyGo.ProbeFill

open Tally

/-- The owners of the slots, how far each sequence has been followed, how many slots each owner and
all of them have, and whose turn it is. -/
structure Fill where
  owner : ℕ → Option ℕ := fun _ => none
  next : ℕ → ℕ := fun _ => 0
  count : ℕ → ℕ := fun _ => 0
  filled : ℕ := 0
  turn : ℕ := 0

/-- One slot looked at: it is taken, or the owner whose turn it is takes it. -/
def tick (n m : ℕ) (slot : ℕ → ℕ → ℕ) (s : Fill) : Fill :=
  if s.filled = m then s
  else
    let c := slot s.turn (s.next s.turn)
    let next := Function.update s.next s.turn (s.next s.turn + 1)
    if (s.owner c).isSome then { s with next := next }
    else
      { owner := Function.update s.owner c (some s.turn)
        next := next
        count := Function.update s.count s.turn (s.count s.turn + 1)
        filled := s.filled + 1
        turn := (s.turn + 1) % n }

def run (n m : ℕ) (slot : ℕ → ℕ → ℕ) (t : ℕ) : Fill := (tick n m slot)^[t] {}

section Fills

variable {n m : ℕ} {slot : ℕ → ℕ → ℕ} {s : Fill}

structure Sweeps (n m : ℕ) (slot : ℕ → ℕ → ℕ) : Prop where
  pos : 0 < n
  lt : ∀ k < n, ∀ j < m, slot k j < m
  hits : ∀ k < n, ∀ c < m, ∃ j < m, slot k j = c

/-- The slots are counted once with their owner, the turns go round, and what a sequence has passed
is taken. -/
structure Filling (n m : ℕ) (slot : ℕ → ℕ → ℕ) (s : Fill) : Prop where
  turn_lt : s.turn < n
  bound : s.filled ≤ m
  round : ∃ q, s.filled = q * n + s.turn ∧ ∀ k < n, s.count k = q + if k < s.turn then 1 else 0
  filled : tally m (fun c => one (s.owner c).isSome) = s.filled
  owned : ∀ k, tally m (fun c => one (decide (s.owner c = some k))) = s.count k
  owner_lt : ∀ c k, s.owner c = some k → k < n
  passed : ∀ k < n, ∀ j < s.next k, (s.owner (slot k j)).isSome = true
  next_le : ∀ k < n, s.next k ≤ m

theorem filling_init (h : Sweeps n m slot) : Filling n m slot {} where
  turn_lt := h.pos
  bound := Nat.zero_le _
  round := ⟨0, by simp, by simp⟩
  filled := by simp [tally, one]
  owned := by simp [tally, one]
  owner_lt := fun _ _ hc => by cases hc
  passed := fun _ _ _ hj => absurd hj (Nat.not_lt_zero _)
  next_le := fun _ _ => Nat.zero_le _

theorem Filling.next_lt (hs : Filling n m slot s) (h : Sweeps n m slot) (hfree : s.filled < m)
    {k : ℕ} (hk : k < n) : s.next k < m := by
  have hlt : tally m (fun c => one (s.owner c).isSome) < m := by
    rw [hs.filled]
    exact_mod_cast hfree
  obtain ⟨c, hc, hnone⟩ := exists_of_tally_one_lt hlt
  obtain ⟨j, hj, rfl⟩ := h.hits k hk c hc
  by_contra hge
  have htaken := hs.passed k hk j (lt_of_lt_of_le hj (not_lt.mp hge))
  rw [hnone] at htaken
  cases htaken

theorem tick_of_full (hfull : s.filled = m) : tick n m slot s = s := by
  rw [tick, if_pos hfull]

theorem tick_of_taken (hfree : s.filled ≠ m)
    (htaken : (s.owner (slot s.turn (s.next s.turn))).isSome = true) :
    tick n m slot s =
      { s with next := Function.update s.next s.turn (s.next s.turn + 1) } := by
  rw [tick, if_neg hfree]
  exact if_pos htaken

theorem tick_of_free (hfree : s.filled ≠ m)
    (hnone : s.owner (slot s.turn (s.next s.turn)) = none) :
    tick n m slot s =
      { owner := Function.update s.owner (slot s.turn (s.next s.turn)) (some s.turn)
        next := Function.update s.next s.turn (s.next s.turn + 1)
        count := Function.update s.count s.turn (s.count s.turn + 1)
        filled := s.filled + 1
        turn := (s.turn + 1) % n } := by
  rw [tick, if_neg hfree]
  exact if_neg (by rw [hnone]; exact Bool.false_ne_true)

theorem Filling.next_le_update (hs : Filling n m slot s) (h : Sweeps n m slot)
    (hfree : s.filled ≠ m) {k : ℕ} (hk : k < n) :
    Function.update s.next s.turn (s.next s.turn + 1) k ≤ m := by
  by_cases hturn : k = s.turn
  · rw [hturn, Function.update_self]
    exact hs.next_lt h (lt_of_le_of_ne hs.bound hfree) hs.turn_lt
  · rw [Function.update_of_ne hturn]
    exact hs.next_le k hk

theorem Filling.passed_update (hs : Filling n m slot s) {owner : ℕ → Option ℕ}
    (hmono : ∀ c, (s.owner c).isSome = true → (owner c).isSome = true)
    (hlast : (owner (slot s.turn (s.next s.turn))).isSome = true) {k : ℕ} (hk : k < n) {j : ℕ}
    (hj : j < Function.update s.next s.turn (s.next s.turn + 1) k) :
    (owner (slot k j)).isSome = true := by
  by_cases hturn : k = s.turn
  · subst hturn
    rw [Function.update_self] at hj
    obtain hj | rfl := Nat.lt_succ_iff_lt_or_eq.mp hj
    · exact hmono _ (hs.passed _ hk j hj)
    · exact hlast
  · rw [Function.update_of_ne hturn] at hj
    exact hmono _ (hs.passed k hk j hj)

theorem Filling.tick_taken (hs : Filling n m slot s) (h : Sweeps n m slot) (hfree : s.filled ≠ m)
    (htaken : (s.owner (slot s.turn (s.next s.turn))).isSome = true) :
    Filling n m slot { s with next := Function.update s.next s.turn (s.next s.turn + 1) } where
  turn_lt := hs.turn_lt
  bound := hs.bound
  round := hs.round
  filled := hs.filled
  owned := hs.owned
  owner_lt := hs.owner_lt
  passed := fun _ hk _ hj => hs.passed_update (fun _ hc => hc) htaken hk hj
  next_le := fun _ hk => hs.next_le_update h hfree hk

theorem round_succ {filled turn q : ℕ} {count : ℕ → ℕ} (hturn : turn < n)
    (hfilled : filled = q * n + turn) (hcount : ∀ k < n, count k = q + if k < turn then 1 else 0) :
    ∃ q', filled + 1 = q' * n + (turn + 1) % n ∧
      ∀ k < n, Function.update count turn (count turn + 1) k =
        q' + if k < (turn + 1) % n then 1 else 0 := by
  have hself := hcount turn hturn
  rw [if_neg (lt_irrefl turn)] at hself
  by_cases hlast : turn + 1 = n
  · refine ⟨q + 1, ?_, ?_⟩
    · rw [hlast, Nat.mod_self, hfilled]
      have hmul : (q + 1) * n = q * n + n := Nat.succ_mul q n
      omega
    · intro k hk
      rw [hlast, Nat.mod_self, if_neg (Nat.not_lt_zero k)]
      by_cases hkt : k = turn
      · rw [hkt, Function.update_self]
        omega
      · have hlt : k < turn := by omega
        rw [Function.update_of_ne hkt, hcount k hk, if_pos hlt]
  · have hmod : (turn + 1) % n = turn + 1 := Nat.mod_eq_of_lt (by omega)
    refine ⟨q, by rw [hmod, hfilled, Nat.add_assoc], ?_⟩
    intro k hk
    rw [hmod]
    by_cases hkt : k = turn
    · rw [hkt, Function.update_self, if_pos (Nat.lt_succ_self turn)]
      omega
    · have hiff : k < turn + 1 ↔ k < turn := by omega
      rw [Function.update_of_ne hkt, hcount k hk]
      simp only [hiff]

theorem tally_take {owner : ℕ → Option ℕ} {c k : ℕ} (hc : c < m) (hnone : owner c = none)
    (w : Option ℕ → ℤ) (hw : w none = 0) :
    tally m (fun x => w (Function.update owner c (some k) x)) =
      tally m (fun x => w (owner x)) + w (some k) := by
  rw [tally_replace hc (fun x hx => by rw [Function.update_of_ne hx]), Function.update_self, hnone,
    hw, sub_zero]

theorem Filling.tick_free (hs : Filling n m slot s) (h : Sweeps n m slot) (hfree : s.filled ≠ m)
    (hnone : s.owner (slot s.turn (s.next s.turn)) = none) :
    Filling n m slot
      { owner := Function.update s.owner (slot s.turn (s.next s.turn)) (some s.turn)
        next := Function.update s.next s.turn (s.next s.turn + 1)
        count := Function.update s.count s.turn (s.count s.turn + 1)
        filled := s.filled + 1
        turn := (s.turn + 1) % n } := by
  have hlt : s.filled < m := lt_of_le_of_ne hs.bound hfree
  have hslot := h.lt s.turn hs.turn_lt _ (hs.next_lt h hlt hs.turn_lt)
  refine ⟨Nat.mod_lt _ h.pos, hlt, ?_, ?_, ?_, ?_, ?_, fun _ hk => hs.next_le_update h hfree hk⟩
  · obtain ⟨q, hfilled, hcount⟩ := hs.round
    exact round_succ hs.turn_lt hfilled hcount
  · have hone := tally_take (k := s.turn) hslot hnone (fun o => one o.isSome) rfl
    rw [hs.filled] at hone
    exact_mod_cast hone
  · intro k
    have hone := tally_take (k := s.turn) hslot hnone (fun o => one (decide (o = some k))) rfl
    rw [hs.owned k] at hone
    refine hone.trans ?_
    change (s.count k : ℤ) + one (decide (some s.turn = some k)) =
      (Function.update s.count s.turn (s.count s.turn + 1) k : ℕ)
    by_cases hk : s.turn = k
    · subst hk
      rw [Function.update_self, decide_eq_true rfl, Nat.cast_add, Nat.cast_one]
      rfl
    · rw [Function.update_of_ne (Ne.symm hk),
        decide_eq_false (fun he => hk (Option.some.inj he))]
      exact add_zero _
  · intro c k
    change Function.update s.owner _ (some s.turn) c = some k → k < n
    by_cases hc : c = slot s.turn (s.next s.turn)
    · rw [hc, Function.update_self]
      intro hk
      rw [← Option.some.inj hk]
      exact hs.turn_lt
    · rw [Function.update_of_ne hc]
      exact hs.owner_lt c k
  · intro k hk j hj
    refine hs.passed_update ?_ ?_ hk hj
    · intro c hc
      change (Function.update s.owner _ (some s.turn) c).isSome = true
      by_cases heq : c = slot s.turn (s.next s.turn)
      · rw [heq, Function.update_self]
        rfl
      · rwa [Function.update_of_ne heq]
    · change (Function.update s.owner _ (some s.turn) _).isSome = true
      rw [Function.update_self]
      rfl

theorem Filling.tick (hs : Filling n m slot s) (h : Sweeps n m slot) :
    Filling n m slot (tick n m slot s) := by
  by_cases hfull : s.filled = m
  · rw [tick_of_full hfull]
    exact hs
  · cases howner : s.owner (slot s.turn (s.next s.turn)) with
    | none =>
      rw [tick_of_free hfull howner]
      exact hs.tick_free h hfull howner
    | some k =>
      have htaken : (s.owner (slot s.turn (s.next s.turn))).isSome = true := by rw [howner]; rfl
      rw [tick_of_taken hfull htaken]
      exact hs.tick_taken h hfull htaken

theorem run_succ (n m : ℕ) (slot : ℕ → ℕ → ℕ) (t : ℕ) :
    run n m slot (t + 1) = tick n m slot (run n m slot t) :=
  Function.iterate_succ_apply' _ _ _

theorem filling_run (h : Sweeps n m slot) (t : ℕ) : Filling n m slot (run n m slot t) := by
  induction t with
  | zero => exact filling_init h
  | succ t ih =>
    rw [run_succ]
    exact ih.tick h

theorem Filling.probes_tick (hs : Filling n m slot s) (hfree : s.filled ≠ m) :
    tally n (fun k => ((ProbeFill.tick n m slot s).next k : ℤ)) =
      tally n (fun k => (s.next k : ℤ)) + 1 := by
  have hnext : (ProbeFill.tick n m slot s).next =
      Function.update s.next s.turn (s.next s.turn + 1) := by
    cases howner : s.owner (slot s.turn (s.next s.turn)) with
    | none => rw [tick_of_free hfree howner]
    | some k => rw [tick_of_taken hfree (by rw [howner]; rfl)]
  rw [hnext, tally_replace hs.turn_lt (fun k hk => by rw [Function.update_of_ne hk]),
    Function.update_self, Nat.cast_add, Nat.cast_one, add_sub_cancel_left]

theorem probes_of_not_full (h : Sweeps n m slot) {t : ℕ} (hfree : (run n m slot t).filled ≠ m) :
    tally n (fun k => ((run n m slot t).next k : ℤ)) = t := by
  induction t with
  | zero => simp [run, tally]
  | succ t ih =>
    rw [run_succ] at hfree ⊢
    have hbefore : (run n m slot t).filled ≠ m := by
      intro hfull
      rw [tick_of_full hfull] at hfree
      exact hfree hfull
    rw [(filling_run h t).probes_tick hbefore, ih hbefore, Nat.cast_succ]

theorem full_run (h : Sweeps n m slot) {t : ℕ} (ht : n * m < t) : (run n m slot t).filled = m := by
  by_contra hfree
  have hprobes := probes_of_not_full h hfree
  have hle : tally n (fun k => ((run n m slot t).next k : ℤ)) ≤ n * m := by
    unfold tally
    refine (Finset.sum_le_card_nsmul (Finset.range n) _ (m : ℤ) ?_).trans ?_
    · intro k hk
      have hnext := (filling_run h t).next_le k (Finset.mem_range.mp hk)
      exact Int.ofNat_le.mpr hnext
    · rw [Finset.card_range, nsmul_eq_mul]
  rw [hprobes] at hle
  exact absurd ht (not_lt.mpr (by exact_mod_cast hle))

theorem run_of_full {t : ℕ} (hfull : (run n m slot t).filled = m) {t' : ℕ} (ht : t ≤ t') :
    run n m slot t' = run n m slot t := by
  induction t', ht using Nat.le_induction with
  | base => rfl
  | succ t' _ ih => rw [run_succ, ih, tick_of_full hfull]

theorem run_eq_of_full {t t' : ℕ} (hfull : (run n m slot t).filled = m)
    (hfull' : (run n m slot t').filled = m) : run n m slot t' = run n m slot t := by
  obtain hle | hle := Nat.le_total t t'
  · exact run_of_full hfull hle
  · exact (run_of_full hfull' hle).symm

theorem Filling.owner_of_full (hs : Filling n m slot s) (hfull : s.filled = m) {c : ℕ}
    (hc : c < m) : ∃ k < n, s.owner c = some k := by
  cases howner : s.owner c with
  | some k => exact ⟨k, hs.owner_lt c k howner, rfl⟩
  | none =>
    have hlt := tally_one_lt m (fun x => (s.owner x).isSome) hc (by rw [howner]; rfl)
    rw [hs.filled, hfull] at hlt
    exact absurd hlt (lt_irrefl _)

theorem Filling.count_of_full (hs : Filling n m slot s) (hfull : s.filled = m) {k : ℕ}
    (hk : k < n) : s.count k = m / n ∨ s.count k = (m + n - 1) / n := by
  obtain ⟨q, hfilled, hcount⟩ := hs.round
  have hturn := hs.turn_lt
  have hdiv : m / n = q := by
    rw [← hfull, hfilled, Nat.add_comm, Nat.add_mul_div_right _ _ (by omega),
      Nat.div_eq_of_lt hturn, Nat.zero_add]
  rw [hcount k hk]
  by_cases hshare : k < s.turn
  · right
    have hsum : m + n - 1 = s.turn - 1 + (q + 1) * n := by
      rw [← hfull, hfilled, Nat.succ_mul]
      omega
    rw [if_pos hshare, hsum, Nat.add_mul_div_right _ _ (by omega), Nat.div_eq_of_lt (by omega),
      Nat.zero_add]
  · left
    rw [if_neg hshare, hdiv, Nat.add_zero]

end Fills

end EnvoyGo.ProbeFill

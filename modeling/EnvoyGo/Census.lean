import Mathlib.Algebra.BigOperators.Group.Finset.Basic
import Mathlib.Algebra.Group.Int.Defs
import Mathlib.Data.Finset.Card

/-!
How many members refer to a key, when each of them refers to one or to none and there may be any
number of members; and the total weight of members of which all but some weigh nothing.  Nothing
here is about a particular program.
-/

namespace EnvoyGo.Census

variable {U K : Type} [DecidableEq U]

/-- As many members refer to the key. -/
def Counted (ref : U → Option K) (k : K) (n : ℤ) : Prop :=
  ∃ members : Finset U, (∀ u, u ∈ members ↔ ref u = some k) ∧ (members.card : ℤ) = n

section Counted

variable {ref : U → Option K} {k : K} {n : ℤ} {u v : U} {r : Option K}

omit [DecidableEq U] in
theorem counted_none (h : ∀ u, ref u ≠ some k) : Counted ref k 0 :=
  ⟨∅, fun u => iff_of_false (Finset.notMem_empty u) (h u), rfl⟩

omit [DecidableEq U] in
theorem Counted.eq_zero_iff (h : Counted ref k n) : n = 0 ↔ ∀ u, ref u ≠ some k := by
  obtain ⟨members, hmem, rfl⟩ := h
  rw [Int.natCast_eq_zero, Finset.card_eq_zero, Finset.eq_empty_iff_forall_notMem]
  exact forall_congr' fun u => not_congr (hmem u)

omit [DecidableEq U] in
theorem Counted.unique (h : Counted ref k 1) (hu : ref u = some k) (hv : ref v = some k) :
    u = v := by
  obtain ⟨members, hmem, hcard⟩ := h
  have hone : members.card = 1 := by exact_mod_cast hcard
  obtain ⟨w, rfl⟩ := Finset.card_eq_one.mp hone
  rw [Finset.mem_singleton.mp ((hmem u).mpr hu), Finset.mem_singleton.mp ((hmem v).mpr hv)]

theorem Counted.aside (h : Counted ref k n) (hu : ref u ≠ some k) (hr : r ≠ some k) :
    Counted (Function.update ref u r) k n := by
  obtain ⟨members, hmem, hcard⟩ := h
  refine ⟨members, fun v => ?_, hcard⟩
  rw [hmem v]
  by_cases hv : v = u
  · rw [hv, Function.update_self]
    exact iff_of_false hu hr
  · rw [Function.update_of_ne hv]

theorem Counted.stay (h : Counted ref k n) (hr : r = ref u) :
    Counted (Function.update ref u r) k n := by
  rw [hr, Function.update_eq_self]
  exact h

theorem Counted.join (h : Counted ref k n) (hu : ref u ≠ some k) :
    Counted (Function.update ref u (some k)) k (n + 1) := by
  obtain ⟨members, hmem, hcard⟩ := h
  have hout : u ∉ members := fun hin => hu ((hmem u).mp hin)
  refine ⟨insert u members, fun v => ?_, ?_⟩
  · rw [Finset.mem_insert, hmem v]
    by_cases hv : v = u
    · rw [hv, Function.update_self]
      exact iff_of_true (.inl rfl) rfl
    · rw [Function.update_of_ne hv]
      exact or_iff_right hv
  · have hmore := Finset.card_insert_of_notMem hout
    omega

theorem Counted.leave (h : Counted ref k n) (hu : ref u = some k) (hr : r ≠ some k) :
    Counted (Function.update ref u r) k (n - 1) := by
  obtain ⟨members, hmem, hcard⟩ := h
  have hin : u ∈ members := (hmem u).mpr hu
  refine ⟨members.erase u, fun v => ?_, ?_⟩
  · rw [Finset.mem_erase, hmem v]
    by_cases hv : v = u
    · rw [hv, Function.update_self]
      exact iff_of_false (fun hne => hne.1 rfl) hr
    · rw [Function.update_of_ne hv]
      exact and_iff_right hv
  · have hless := Finset.card_erase_of_mem hin
    have hpos := Finset.card_pos.mpr ⟨u, hin⟩
    omega

end Counted

def Total (w : U → ℕ) (n : ℕ) : Prop :=
  ∃ members : Finset U, (∀ u, u ∉ members → w u = 0) ∧ ∑ u ∈ members, w u = n

omit [DecidableEq U] in
theorem total_zero : Total (fun _ : U => 0) 0 := ⟨∅, fun _ _ => rfl, rfl⟩

theorem Total.update {w : U → ℕ} {n : ℕ} (h : Total w n) (u : U) (x : ℕ) :
    ∃ m, Total (Function.update w u x) m ∧ m + w u = n + x := by
  obtain ⟨members, hout, hsum⟩ := h
  have hmem : u ∈ insert u members := Finset.mem_insert_self u members
  have hrest : ∑ v ∈ (insert u members).erase u, Function.update w u x v =
      ∑ v ∈ (insert u members).erase u, w v :=
    Finset.sum_congr rfl fun v hv => Function.update_of_ne (Finset.ne_of_mem_erase hv) _ _
  have hold : ∑ v ∈ insert u members, w v = n := by
    rw [← hsum, Finset.sum_insert_of_eq_zero_if_notMem (hout u)]
  refine ⟨_, ⟨insert u members, fun v hv => ?_, rfl⟩, ?_⟩
  · have hne : v ≠ u := fun heq => hv (by rw [heq]; exact hmem)
    rw [Function.update_of_ne hne]
    exact hout v fun hin => hv (Finset.mem_insert_of_mem hin)
  · have hnew := Finset.add_sum_erase (insert u members) (Function.update w u x) hmem
    have hwas := Finset.add_sum_erase (insert u members) w hmem
    rw [Function.update_self, hrest] at hnew
    omega

end EnvoyGo.Census

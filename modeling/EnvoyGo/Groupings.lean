import Mathlib.Data.List.Basic

/-!
A list cut into consecutive groups that each satisfy a bound, and the cut that closes a group only
when the next element no longer fits.  No cut has fewer groups when the bound passes to the parts
of a group.  Nothing here is about a particular program.
-/

namespace EnvoyGo.Groupings

variable {α : Type} {ok : List α → Prop}

structure IsGrouping (ok : List α → Prop) (xs : List α) (gs : List (List α)) : Prop where
  flatten_eq : gs.flatten = xs
  all_ok : ∀ g ∈ gs, ok g

structure Hereditary (ok : List α → Prop) : Prop where
  left : ∀ {a b}, ok (a ++ b) → ok a
  right : ∀ {a b}, ok (a ++ b) → ok b

def greedy (ok : List α → Prop) [DecidablePred ok] : List α → List α → List (List α)
  | [], [] => []
  | c, [] => [c]
  | [], x :: xs => greedy ok [x] xs
  | c, x :: xs => if ok (c ++ [x]) then greedy ok (c ++ [x]) xs else c :: greedy ok [x] xs

variable {c : List α}

theorem IsGrouping.behind (hok : Hereditary ok) {ys : List α} {gs : List (List α)}
    (h : IsGrouping ok (c ++ ys) gs) : ∃ gs', IsGrouping ok ys gs' ∧ gs'.length ≤ gs.length := by
  induction gs generalizing c with
  | nil =>
    have hnil : c ++ ys = [] := h.flatten_eq.symm
    have hys : ys = [] := (List.append_eq_nil_iff.mp hnil).2
    exact ⟨[], ⟨hys.symm, h.all_ok⟩, Nat.le_refl 0⟩
  | cons g gs ih =>
    have heq : g ++ gs.flatten = c ++ ys := h.flatten_eq
    have htail : ∀ g' ∈ gs, ok g' := fun g' hg' => h.all_ok g' (List.mem_cons_of_mem g hg')
    rcases List.append_eq_append_iff.mp heq with ⟨c', hc, hrest⟩ | ⟨a, hg, hys⟩
    · have hgs : IsGrouping ok (c' ++ ys) gs := ⟨hrest, htail⟩
      obtain ⟨gs', hgs', hle⟩ := ih hgs
      exact ⟨gs', hgs', Nat.le_succ_of_le hle⟩
    · have ha : ok a := hok.right (hg ▸ h.all_ok g List.mem_cons_self)
      refine ⟨a :: gs, ⟨hys.symm, ?_⟩, Nat.le_refl _⟩
      intro g' hg'
      rcases List.mem_cons.mp hg' with rfl | hg'
      · exact ha
      · exact htail g' hg'

theorem IsGrouping.closed (hok : Hereditary ok) {xs : List α} {x : α} {gs : List (List α)}
    (h : IsGrouping ok (c ++ x :: xs) gs) (hfull : ¬ ok (c ++ [x])) :
    ∃ gs', IsGrouping ok (x :: xs) gs' ∧ gs'.length < gs.length := by
  cases gs with
  | nil =>
    have hnil : c ++ x :: xs = [] := h.flatten_eq.symm
    exact absurd (List.append_eq_nil_iff.mp hnil).2 (List.cons_ne_nil x xs)
  | cons g gs =>
    have heq : g ++ gs.flatten = c ++ x :: xs := h.flatten_eq
    have htail : ∀ g' ∈ gs, ok g' := fun g' hg' => h.all_ok g' (List.mem_cons_of_mem g hg')
    rcases List.append_eq_append_iff.mp heq with ⟨c', hc, hrest⟩ | ⟨a, hg, hys⟩
    · obtain ⟨gs', hgs', hle⟩ := IsGrouping.behind hok ⟨hrest, htail⟩
      exact ⟨gs', hgs', Nat.lt_succ_of_le hle⟩
    · cases a with
      | nil => exact ⟨gs, ⟨hys.symm, htail⟩, Nat.lt_succ_self _⟩
      | cons y a =>
        -- the first group would reach past the element that does not fit
        have hxy : x = y := (List.cons.inj hys).1
        have hg' : g = (c ++ [x]) ++ a := by
          rw [hg, hxy, List.append_assoc, List.singleton_append]
        exact absurd (hok.left (hg' ▸ h.all_ok g List.mem_cons_self)) hfull

variable [DecidablePred ok]

@[simp]
theorem greedy_nil_nil : greedy ok ([] : List α) [] = [] := by
  rw [greedy]

@[simp]
theorem greedy_nil_cons (x : α) (xs : List α) : greedy ok [] (x :: xs) = greedy ok [x] xs := by
  rw [greedy]

theorem greedy_nil (hc : c ≠ []) : greedy ok c [] = [c] := by
  cases c with
  | nil => exact absurd rfl hc
  | cons y c => rw [greedy]; exact hc

theorem greedy_cons (hc : c ≠ []) (x : α) (xs : List α) :
    greedy ok c (x :: xs) =
      if ok (c ++ [x]) then greedy ok (c ++ [x]) xs else c :: greedy ok [x] xs := by
  cases c with
  | nil => exact absurd rfl hc
  | cons y c => rw [greedy]; exact hc

theorem greedy_isGrouping (hone : ∀ x, ok [x]) (xs : List α) (hc : c ≠ []) (hokc : ok c) :
    IsGrouping ok (c ++ xs) (greedy ok c xs) := by
  induction xs generalizing c with
  | nil =>
    rw [greedy_nil hc, List.append_nil]
    exact ⟨List.flatten_singleton, fun g hg => List.mem_singleton.mp hg ▸ hokc⟩
  | cons x xs ih =>
    rw [greedy_cons hc]
    by_cases hfit : ok (c ++ [x])
    · rw [if_pos hfit, ← List.singleton_append, ← List.append_assoc]
      exact ih (List.append_ne_nil_of_right_ne_nil c (List.cons_ne_nil x [])) hfit
    · rw [if_neg hfit]
      have htail := ih (List.cons_ne_nil x []) (hone x)
      refine ⟨?_, ?_⟩
      · rw [List.flatten_cons, htail.flatten_eq, List.singleton_append]
      · intro g hg
        rcases List.mem_cons.mp hg with rfl | hg
        · exact hokc
        · exact htail.all_ok g hg

theorem greedy_ne_nil (xs : List α) (hc : c ≠ []) : ∀ g ∈ greedy ok c xs, g ≠ [] := by
  induction xs generalizing c with
  | nil =>
    intro g hg
    rw [greedy_nil hc, List.mem_singleton] at hg
    exact hg ▸ hc
  | cons x xs ih =>
    rw [greedy_cons hc]
    by_cases hfit : ok (c ++ [x])
    · rw [if_pos hfit]
      exact ih (List.append_ne_nil_of_right_ne_nil c (List.cons_ne_nil x []))
    · rw [if_neg hfit]
      intro g hg
      rcases List.mem_cons.mp hg with rfl | hg
      · exact hc
      · exact ih (List.cons_ne_nil x []) g hg

theorem greedy_length_le (hok : Hereditary ok) (xs : List α) (hc : c ≠ []) {gs : List (List α)}
    (h : IsGrouping ok (c ++ xs) gs) : (greedy ok c xs).length ≤ gs.length := by
  induction xs generalizing c gs with
  | nil =>
    rw [greedy_nil hc, List.length_singleton]
    apply List.length_pos_iff.mpr
    intro hgs
    have hflat := h.flatten_eq
    rw [hgs, List.append_nil] at hflat
    exact hc hflat.symm
  | cons x xs ih =>
    rw [greedy_cons hc]
    by_cases hfit : ok (c ++ [x])
    · rw [if_pos hfit]
      rw [← List.singleton_append, ← List.append_assoc] at h
      exact ih (List.append_ne_nil_of_right_ne_nil c (List.cons_ne_nil x [])) h
    · rw [if_neg hfit, List.length_cons]
      obtain ⟨gs', hgs', hlt⟩ := h.closed hok hfit
      have hle : (greedy ok [x] xs).length ≤ gs'.length := ih (List.cons_ne_nil x []) hgs'
      omega

end EnvoyGo.Groupings

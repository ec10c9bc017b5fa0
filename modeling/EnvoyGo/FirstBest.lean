import Mathlib.Data.List.Sort

/-!
The first element of a kind after a stable sort by a key, largest first, is the first among those
of the kind with the largest key.  Nothing here is about a particular program.
-/

namespace EnvoyGo.FirstBest

variable {α κ : Type} [LinearOrder κ] (key : α → κ) (p : α → Bool)

def prefer (a : α) : Option α → α
  | none => a
  | some b => if key b ≤ key a then a else b

def best : List α → Option α
  | [] => none
  | a :: l => if p a then some (prefer key a (best l)) else best l

variable {key p}

theorem find?_orderedInsert (a : α) {l : List α} (hl : l.Pairwise (fun b c => key b ≥ key c)) :
    (l.orderedInsert (fun b c => key b ≥ key c) a).find? p =
      if p a then some (prefer key a (l.find? p)) else l.find? p := by
  induction l with
  | nil =>
    rw [List.orderedInsert_nil, List.find?_nil, List.find?_singleton]
    rfl
  | cons b l ih =>
    obtain ⟨hb, hl⟩ := List.pairwise_cons.mp hl
    by_cases hab : key a ≥ key b
    · rw [List.orderedInsert_cons_of_le _ l hab, List.find?_cons]
      by_cases ha : p a = true
      · -- whatever is found behind `b` has no larger key
        have hpref : prefer key a ((b :: l).find? p) = a := by
          cases hf : (b :: l).find? p with
          | none => rfl
          | some c =>
            have hca : key c ≤ key a := by
              rcases List.mem_cons.mp (List.mem_of_find?_eq_some hf) with rfl | hc
              · exact hab
              · exact (hb c hc).trans hab
            exact if_pos hca
        rw [hpref, if_pos ha, ha]
      · rw [if_neg ha, Bool.eq_false_iff.mpr ha]
    · rw [List.orderedInsert_of_not_le _ l hab, List.find?_cons, List.find?_cons]
      by_cases hpb : p b = true
      · have hpref : prefer key a (some b) = b := if_neg hab
        rw [hpb, hpref]
        simp only [ite_self]
      · rw [Bool.eq_false_iff.mpr hpb]
        exact ih hl

theorem find?_insertionSort (l : List α) :
    (l.insertionSort (fun b c => key b ≥ key c)).find? p = best key p l := by
  have htotal : Std.Total (fun b c : α => key b ≥ key c) :=
    ⟨fun b c => le_total (key c) (key b)⟩
  have htrans : IsTrans α (fun b c => key b ≥ key c) :=
    ⟨fun _ _ _ hbc hcd => hcd.trans hbc⟩
  induction l with
  | nil => rfl
  | cons a l ih =>
    have hsorted := List.pairwise_insertionSort (fun b c => key b ≥ key c) l
    rw [List.insertionSort_cons, find?_orderedInsert a hsorted, ih, best]

theorem best_eq_none_iff {l : List α} : best key p l = none ↔ ∀ a ∈ l, p a = false := by
  rw [← find?_insertionSort, List.find?_eq_none]
  constructor
  · intro h a ha
    exact Bool.eq_false_iff.mpr (h a ((List.mem_insertionSort _).mpr ha))
  · intro h a ha
    exact Bool.eq_false_iff.mp (h a ((List.mem_insertionSort _).mp ha))

theorem best_first {l : List α} {b : α} (h : best key p l = some b) :
    ∃ i : ℕ, l[i]? = some b ∧ p b = true ∧
      ∀ (j : ℕ) a, l[j]? = some a → p a = true → key a < key b ∨ (key a ≤ key b ∧ i ≤ j) := by
  induction l generalizing b with
  | nil => cases h
  | cons c l ih =>
    rw [best] at h
    by_cases hc : p c = true
    · rw [if_pos hc, Option.some.injEq] at h
      cases hl : best key p l with
      | none =>
        rw [hl] at h
        have hcb : c = b := h
        refine ⟨0, by rw [hcb, List.getElem?_cons_zero], hcb ▸ hc, ?_⟩
        intro j a hj ha
        cases j with
        | zero =>
          have hac : c = a := Option.some.inj hj
          exact Or.inr ⟨by rw [← hac, hcb], Nat.le_refl 0⟩
        | succ j =>
          have hfalse := best_eq_none_iff.mp hl a (List.mem_of_getElem? hj)
          exact absurd (ha.symm.trans hfalse) Bool.true_eq_false_eq_False
      | some d =>
        rw [hl] at h
        obtain ⟨i, hi, hd, hall⟩ := ih hl
        by_cases hdc : key d ≤ key c
        · have hcb : c = b := (if_pos hdc).symm.trans h
          refine ⟨0, by rw [hcb, List.getElem?_cons_zero], hcb ▸ hc, ?_⟩
          intro j a hj ha
          refine Or.inr ⟨?_, Nat.zero_le j⟩
          rw [← hcb]
          cases j with
          | zero => exact (Option.some.inj hj) ▸ le_refl (key c)
          | succ j =>
            rcases hall j a hj ha with hlt | ⟨hle, -⟩
            · exact hlt.le.trans hdc
            · exact hle.trans hdc
        · have hdb : d = b := (if_neg hdc).symm.trans h
          rw [hdb] at hi hd hall hdc
          refine ⟨i + 1, hi, hd, ?_⟩
          intro j a hj ha
          cases j with
          | zero =>
            have hac : c = a := Option.some.inj hj
            exact Or.inl (hac ▸ not_le.mp hdc)
          | succ j =>
            rcases hall j a hj ha with hlt | ⟨hle, hij⟩
            · exact Or.inl hlt
            · exact Or.inr ⟨hle, Nat.succ_le_succ hij⟩
    · rw [if_neg hc] at h
      obtain ⟨i, hi, hb, hall⟩ := ih h
      refine ⟨i + 1, hi, hb, ?_⟩
      intro j a hj ha
      cases j with
      | zero =>
        have hac : c = a := Option.some.inj hj
        exact absurd (hac ▸ ha) hc
      | succ j =>
        rcases hall j a hj ha with hlt | ⟨hle, hij⟩
        · exact Or.inl hlt
        · exact Or.inr ⟨hle, Nat.succ_le_succ hij⟩

end EnvoyGo.FirstBest

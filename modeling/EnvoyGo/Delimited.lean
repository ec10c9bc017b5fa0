import Mathlib.Data.List.Basic
import Mathlib.Data.Nat.Notation

/-!
Texts from which their parts can be read back: parts between separators, blocks of one length, and
numbers in digits.  Nothing here is about a particular program.
-/

namespace EnvoyGo.Delimited

section Parts

variable {α β : Type} [DecidableEq α] {c : α}

theorem intercalate_inj {ls ms : List (List α)} (hls : ∀ l ∈ ls, c ∉ l) (hms : ∀ m ∈ ms, c ∉ m)
    (hl : ls ≠ []) (hm : ms ≠ []) (h : [c].intercalate ls = [c].intercalate ms) : ls = ms := by
  rw [← List.splitOn_intercalate c hls hl, h, List.splitOn_intercalate c hms hm]

omit [DecidableEq α] in
theorem flatMap_concat (c : α) (ls : List (List α)) :
    ls.flatMap (fun l => l ++ [c]) = [c].intercalate (ls ++ [[]]) := by
  induction ls with
  | nil => rfl
  | cons l ls ih =>
    have hne : ls ++ [[]] ≠ [] := List.append_ne_nil_of_right_ne_nil _ (List.cons_ne_nil _ _)
    rw [List.flatMap_cons, ih, List.cons_append, List.intercalate_cons_of_ne_nil hne]

theorem flatMap_concat_inj {ls ms : List (List α)} (hls : ∀ l ∈ ls, c ∉ l) (hms : ∀ m ∈ ms, c ∉ m)
    (h : ls.flatMap (fun l => l ++ [c]) = ms.flatMap (fun m => m ++ [c])) : ls = ms := by
  have hfree : ∀ ns : List (List α), (∀ n ∈ ns, c ∉ n) → ∀ n ∈ ns ++ [[]], c ∉ n := by
    intro ns hns n hn
    rcases List.mem_append.mp hn with hn | hn
    · exact hns n hn
    · rw [List.mem_singleton.mp hn]
      exact List.not_mem_nil
  rw [flatMap_concat, flatMap_concat] at h
  have hparts := intercalate_inj (hfree ls hls) (hfree ms hms)
    (List.append_ne_nil_of_right_ne_nil _ (List.cons_ne_nil _ _))
    (List.append_ne_nil_of_right_ne_nil _ (List.cons_ne_nil _ _)) h
  exact List.append_cancel_right hparts

omit [DecidableEq α] in
theorem flatMap_inj {f : β → List α} {k : ℕ} (hk : 0 < k) (hlen : ∀ x, (f x).length = k)
    (hf : ∀ x y, f x = f y → x = y) {xs ys : List β} (h : xs.flatMap f = ys.flatMap f) :
    xs = ys := by
  have hnil : ∀ (z : β) (zs : List β), (z :: zs).flatMap f ≠ [] := by
    intro z zs heq
    have hzero := congrArg List.length heq
    rw [List.flatMap_cons, List.length_append, hlen, List.length_nil] at hzero
    omega
  induction xs generalizing ys with
  | nil =>
    cases ys with
    | nil => rfl
    | cons y ys => exact absurd h.symm (hnil y ys)
  | cons x xs ih =>
    cases ys with
    | nil => exact absurd h (hnil x xs)
    | cons y ys =>
      rw [List.flatMap_cons, List.flatMap_cons] at h
      obtain ⟨hhead, htail⟩ := List.append_inj h ((hlen x).trans (hlen y).symm)
      rw [hf x y hhead, ih htail]

end Parts

section Digits

variable {b n : ℕ}

theorem digitChar_inj {m n : ℕ} (hm : m < 16) (hn : n < 16) (h : m.digitChar = n.digitChar) :
    m = n := by
  have hall : ∀ m < 16, ∀ n < 16, m.digitChar = n.digitChar → m = n := by decide
  exact hall m hm n hn h

theorem toDigits_ne_singleton (hb : 1 < b) (hn : b ≤ n) (c : Char) : Nat.toDigits b n ≠ [c] := by
  intro h
  have hlen := congrArg List.length h
  have hpos := Nat.length_toDigits_pos (b := b) (n := n / b)
  rw [Nat.toDigits_of_base_le hb hn, List.length_append, List.length_singleton,
    List.length_singleton] at hlen
  omega

theorem toDigits_inj (hb : 1 < b) (hle : b ≤ 16) {m : ℕ} (h : Nat.toDigits b m = Nat.toDigits b n) :
    m = n := by
  have hlast : ∀ k, k % b < 16 := by
    intro k
    have hmod := Nat.mod_lt k (Nat.lt_trans Nat.zero_lt_one hb)
    omega
  induction m using Nat.strongRecOn generalizing n with
  | ind m ih =>
    by_cases hm : m < b
    · by_cases hn : n < b
      · rw [Nat.toDigits_of_lt_base hm, Nat.toDigits_of_lt_base hn] at h
        exact digitChar_inj (by omega) (by omega) (List.cons.inj h).1
      · rw [Nat.toDigits_of_lt_base hm] at h
        exact absurd h.symm (toDigits_ne_singleton hb (Nat.le_of_not_lt hn) _)
    · have hm := Nat.le_of_not_lt hm
      by_cases hn : n < b
      · rw [Nat.toDigits_of_lt_base hn] at h
        exact absurd h (toDigits_ne_singleton hb hm _)
      · have hn := Nat.le_of_not_lt hn
        rw [Nat.toDigits_of_base_le hb hm, Nat.toDigits_of_base_le hb hn] at h
        obtain ⟨hrest, hdigit⟩ := List.append_inj' h rfl
        have hmod := digitChar_inj (hlast m) (hlast n) (List.cons.inj hdigit).1
        have hdiv := ih (m / b) (Nat.div_lt_self (by omega) hb) hrest
        rw [← Nat.div_add_mod m b, ← Nat.div_add_mod n b, hdiv, hmod]

theorem notMem_toDigits (hb : 1 < b) (hle : b ≤ 16) {c : Char}
    (hc : ∀ d < 16, c ≠ Nat.digitChar d) : c ∉ Nat.toDigits b n := by
  induction n using Nat.strongRecOn with
  | ind n ih =>
    by_cases hn : n < b
    · rw [Nat.toDigits_of_lt_base hn]
      exact fun hmem => hc n (by omega) (List.mem_singleton.mp hmem)
    · rw [Nat.toDigits_of_base_le hb (Nat.le_of_not_lt hn)]
      have hmod := Nat.mod_lt n (Nat.lt_trans Nat.zero_lt_one hb)
      intro hmem
      rcases List.mem_append.mp hmem with hrest | hlast
      · exact ih (n / b) (Nat.div_lt_self (by omega) hb) hrest
      · exact hc (n % b) (by omega) (List.mem_singleton.mp hlast)

end Digits

end EnvoyGo.Delimited

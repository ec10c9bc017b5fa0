import EnvoyGo.Balancers
import Mathlib.Data.List.Basic

/-!
A walk over the slots of a table to the first owner that will do.  A slot without owner stands for
an index out of range.
-/

namespace EnvoyGo.TableWalk

open Balancers (around)

variable {α : Type}

inductive Found (α : Type)
  | owner (a : α)
  | exhausted
  | outOfRange
  deriving DecidableEq

def walk (owner : ℕ → Option α) (p : α → Bool) : List ℕ → Found α
  | [] => .exhausted
  | c :: cs =>
    match owner c with
    | none => .outOfRange
    | some a => if p a then .owner a else walk owner p cs

variable {owner : ℕ → Option α} {p q : α → Bool} {cs : List ℕ} {a : α}

theorem walk_eq_of_imp (hwalk : walk owner p cs = .owner a) (hq : q a = true)
    (himp : ∀ c b, owner c = some b → q b = true → p b = true) : walk owner q cs = .owner a := by
  induction cs with
  | nil => cases hwalk
  | cons c cs ih =>
    rw [walk] at hwalk ⊢
    cases hc : owner c with
    | none =>
      rw [hc] at hwalk
      cases hwalk
    | some b =>
      simp only [hc] at hwalk ⊢
      by_cases hb : p b = true
      · rw [if_pos hb] at hwalk
        cases hwalk
        rw [if_pos hq]
      · rw [if_neg hb] at hwalk
        rw [if_neg (fun hqb => hb (himp c b hc hqb))]
        exact ih hwalk

theorem walk_of_first {c : ℕ} (hc : owner c = some a) (ha : p a = true) (cs : List ℕ) :
    walk owner p (c :: cs) = .owner a := by
  rw [walk, hc]
  exact if_pos ha

theorem exists_of_walk (hwalk : walk owner p cs = .owner a) :
    ∃ c ∈ cs, owner c = some a ∧ p a = true := by
  induction cs with
  | nil => cases hwalk
  | cons c cs ih =>
    rw [walk] at hwalk
    cases hc : owner c with
    | none =>
      rw [hc] at hwalk
      cases hwalk
    | some b =>
      simp only [hc] at hwalk
      split_ifs at hwalk with hb
      · cases hwalk
        exact ⟨c, List.mem_cons_self, hc, hb⟩
      · obtain ⟨c', hmem, hfound⟩ := ih hwalk
        exact ⟨c', List.mem_cons_of_mem _ hmem, hfound⟩

theorem walk_total (howned : ∀ c ∈ cs, ∃ b, owner c = some b) :
    walk owner p cs ≠ .outOfRange ∧
      ((∃ c ∈ cs, ∃ b, owner c = some b ∧ p b = true) → ∃ b, walk owner p cs = .owner b) := by
  induction cs with
  | nil =>
    refine ⟨(fun h => by cases h), ?_⟩
    rintro ⟨c, hmem, -⟩
    cases hmem
  | cons c cs ih =>
    obtain ⟨hrange, hfound⟩ := ih (fun c' hc' => howned c' (List.mem_cons_of_mem _ hc'))
    obtain ⟨b, hb⟩ := howned c List.mem_cons_self
    by_cases hp : p b = true
    · rw [walk_of_first hb hp]
      exact ⟨(fun h => by cases h), fun _ => ⟨b, rfl⟩⟩
    · have hnext : walk owner p (c :: cs) = walk owner p cs := by
        rw [walk, hb]
        exact if_neg hp
      rw [hnext]
      refine ⟨hrange, ?_⟩
      rintro ⟨c', hmem, b', hb', hp'⟩
      obtain rfl | hmem := List.mem_cons.mp hmem
      · rw [hb] at hb'
        cases hb'
        exact absurd hp' hp
      · exact hfound ⟨c', hmem, b', hb', hp'⟩

variable {n start : ℕ}

theorem around_eq_cons (hstart : start < n) : ∃ cs, around n start = start :: cs := by
  obtain ⟨m, rfl⟩ : ∃ m, n = m + 1 := ⟨n - 1, by omega⟩
  rw [around, List.range_succ_eq_map, List.map_cons, Nat.add_zero, Nat.mod_eq_of_lt hstart]
  exact ⟨_, rfl⟩

theorem mem_around (hn : 0 < n) {c : ℕ} : c ∈ around n start ↔ c < n := by
  rw [around, List.mem_map]
  constructor
  · rintro ⟨k, -, rfl⟩
    exact Nat.mod_lt _ hn
  · intro hc
    refine ⟨(n - start % n + c) % n, List.mem_range.mpr (Nat.mod_lt _ hn), ?_⟩
    have hcancel : start % n + (n - start % n + c) = c + n := by
      have hs := Nat.mod_lt start hn
      omega
    rw [Nat.add_mod_mod, ← Nat.mod_add_mod, hcancel, Nat.add_mod_right, Nat.mod_eq_of_lt hc]

end EnvoyGo.TableWalk

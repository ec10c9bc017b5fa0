import Mathlib.Logic.Function.Basic

/-!
Locks and the threads that hold them, where the phase of a thread says whether it holds a lock.
Nothing here is about a particular program.
-/

namespace EnvoyGo.Mutexes

variable {T P : Type}

def Guards (holds : P → Bool) (owner : Option T) (phase : T → P) : Prop :=
  ∀ t, holds (phase t) = true ↔ owner = some t

variable [DecidableEq T] {holds : P → Bool} {owner : Option T} {phase : T → P} {t : T} {q : P}

theorem Guards.keep (h : Guards holds owner phase) (hq : holds q = holds (phase t)) :
    Guards holds owner (Function.update phase t q) := by
  intro u
  by_cases hu : u = t
  · rw [hu, Function.update_self, hq]
    exact h t
  · rw [Function.update_of_ne hu]
    exact h u

theorem Guards.acquire (h : Guards holds owner phase) (hfree : owner = none)
    (hq : holds q = true) : Guards holds (some t) (Function.update phase t q) := by
  intro u
  by_cases hu : u = t
  · rw [hu, Function.update_self]
    exact iff_of_true hq rfl
  · rw [Function.update_of_ne hu, h u, hfree]
    exact iff_of_false (fun heq => by cases heq) fun heq => hu (Option.some.inj heq).symm

theorem Guards.release (h : Guards holds owner phase) (ht : holds (phase t) = true)
    (hq : holds q = false) : Guards holds none (Function.update phase t q) := by
  intro u
  by_cases hu : u = t
  · rw [hu, Function.update_self, hq]
    exact iff_of_false (fun heq => by cases heq) fun heq => by cases heq
  · rw [Function.update_of_ne hu, h u, (h t).mp ht]
    exact iff_of_false (fun heq => hu (Option.some.inj heq).symm) fun heq => by cases heq

omit [DecidableEq T] in
theorem Guards.exclusive (h : Guards holds owner phase) {u : T} (ht : holds (phase t) = true)
    (hu : holds (phase u) = true) : t = u := by
  have heq := (h t).mp ht
  rw [(h u).mp hu] at heq
  exact (Option.some.inj heq).symm

end EnvoyGo.Mutexes

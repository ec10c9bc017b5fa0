import EnvoyGo.Runs
import Mathlib.Data.Nat.Init

/-!
Endless runs of a deterministic machine under a schedule, and what fairness of the schedule brings
about.  Nothing here is about a particular machine.
-/

namespace EnvoyGo.FairRuns

variable {S E : Type} (step : S → E → S) (s : S) (sched : ℕ → E)

/-- The state after the first `t` events of the schedule. -/
def trace : ℕ → S
  | 0 => s
  | t + 1 => step (trace t) (sched t)

def WeaklyFair (enabled : S → Prop) (e : E) : Prop :=
  ∀ t, (∀ t', t ≤ t' → enabled (trace step s sched t')) → ∃ t', t ≤ t' ∧ sched t' = e

variable {step s sched}

theorem invariant_of_trace {inv : S → Prop} (hstep : ∀ s e, inv s → inv (step s e)) {t : ℕ}
    (hs : inv (trace step s sched t)) {t' : ℕ} (ht : t ≤ t') : inv (trace step s sched t') := by
  induction t', ht using Nat.le_induction with
  | base => exact hs
  | succ t' _ ih => exact hstep _ _ ih

theorem eventually_of_fair {p q enabled : S → Prop} {e : E}
    (hstay : ∀ s e', p s → p (step s e') ∨ q (step s e')) (henabled : ∀ s, p s → enabled s)
    (heffect : ∀ s, p s → q (step s e)) (hfair : WeaklyFair step s sched enabled e) {t : ℕ}
    (hp : p (trace step s sched t)) : ∃ t', t ≤ t' ∧ q (trace step s sched t') := by
  refine Classical.byContradiction fun hnone => ?_
  have hnever : ∀ t', t ≤ t' → ¬q (trace step s sched t') := fun t' ht hq => hnone ⟨t', ht, hq⟩
  have halways : ∀ t', t ≤ t' → p (trace step s sched t') := by
    intro t' ht
    induction t', ht using Nat.le_induction with
    | base => exact hp
    | succ t' ht ih => exact (hstay _ (sched t') ih).resolve_right (hnever (t' + 1) (by omega))
  obtain ⟨t', ht, he⟩ := hfair t fun t' ht => henabled _ (halways t' ht)
  have hq := heffect _ (halways t' ht)
  rw [← he] at hq
  exact hnever (t' + 1) (by omega) hq

end EnvoyGo.FairRuns

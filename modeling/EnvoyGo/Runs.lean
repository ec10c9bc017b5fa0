import Mathlib.Logic.Basic

/-!
Runs of a deterministic machine over a list of events, with a condition on the single steps.
Nothing here is about a particular machine.
-/

namespace EnvoyGo.Runs

variable {S E : Type}

/-- Every step of the run, taken in the state it starts from, meets `ok`. -/
def StepsMeet (step : S → E → S) (ok : S → E → Prop) : S → List E → Prop
  | _, [] => True
  | s, e :: es => ok s e ∧ StepsMeet step ok (step s e) es

instance decidableStepsMeet (step : S → E → S) (ok : S → E → Prop)
    [∀ s e, Decidable (ok s e)] : ∀ s es, Decidable (StepsMeet step ok s es)
  | _, [] => isTrue trivial
  | s, e :: es =>
    have := decidableStepsMeet step ok (step s e) es
    inferInstanceAs (Decidable (ok s e ∧ StepsMeet step ok (step s e) es))

theorem invariant_of_steps {step : S → E → S} {ok : S → E → Prop} {inv : S → Prop}
    (hstep : ∀ s e, ok s e → inv s → inv (step s e)) (es : List E) (s : S) (hs : inv s)
    (hes : StepsMeet step ok s es) : inv (es.foldl step s) := by
  induction es generalizing s with
  | nil => exact hs
  | cons e es ih =>
    obtain ⟨he, hrest⟩ := hes
    exact ih (step s e) (hstep s e he hs) hrest

theorem invariant_of_run {step : S → E → S} {inv : S → Prop}
    (hstep : ∀ s e, inv s → inv (step s e)) (es : List E) (s : S) (hs : inv s) :
    inv (es.foldl step s) := by
  induction es generalizing s with
  | nil => exact hs
  | cons e es ih => exact ih (step s e) (hstep s e hs)

theorem stepsMeet_append (step : S → E → S) (ok : S → E → Prop) {s : S} (es fs : List E) :
    StepsMeet step ok s (es ++ fs) ↔
      StepsMeet step ok s es ∧ StepsMeet step ok (es.foldl step s) fs := by
  induction es generalizing s with
  | nil => exact (iff_of_eq (true_and _)).symm
  | cons e es ih => exact (and_congr_right fun _ => ih).trans and_assoc.symm

theorem stepsMeet_iff_forall {step : S → E → S} {ok : S → E → Prop} {s : S} {es : List E} :
    StepsMeet step ok s es ↔
      ∀ earlier e later, es = earlier ++ e :: later → ok (earlier.foldl step s) e := by
  constructor
  · intro h earlier e later heq
    rw [heq] at h
    exact ((stepsMeet_append step ok earlier (e :: later)).mp h).2.1
  · intro h
    induction es generalizing s with
    | nil => trivial
    | cons e es ih =>
      refine ⟨h [] e es rfl, ih ?_⟩
      intro earlier e' later heq
      refine h (e :: earlier) e' later ?_
      rw [heq]
      rfl

theorem stepsMeet_iff {step : S → E → S} {p q : S → E → Prop} {inv : S → Prop}
    (hstep : ∀ s e, inv s → inv (step s e)) (hiff : ∀ s e, inv s → (p s e ↔ q s e))
    (es : List E) (s : S) (hs : inv s) : StepsMeet step p s es ↔ StepsMeet step q s es := by
  induction es generalizing s with
  | nil => exact Iff.rfl
  | cons e es ih => exact and_congr (hiff s e hs) (ih (step s e) (hstep s e hs))

theorem throughout_iff_stepsMeet {step : S → E → S} {ok : S → E → Prop} {inv : S → Prop}
    (hstep : ∀ s e, inv s → (inv (step s e) ↔ ok s e)) (es : List E) (s : S) (hs : inv s) :
    (∀ pre, pre <+: es → inv (pre.foldl step s)) ↔ StepsMeet step ok s es := by
  induction es generalizing s with
  | nil =>
    refine iff_of_true ?_ trivial
    intro pre hpre
    rw [List.prefix_nil.mp hpre]
    exact hs
  | cons e es ih =>
    constructor
    · intro h
      have hfirst : inv (step s e) := h [e] (List.cons_prefix_cons.mpr ⟨rfl, List.nil_prefix⟩)
      refine ⟨(hstep s e hs).mp hfirst, (ih _ hfirst).mp ?_⟩
      intro pre hpre
      exact h (e :: pre) (List.cons_prefix_cons.mpr ⟨rfl, hpre⟩)
    · rintro ⟨he, hrest⟩ pre hpre
      have hfirst := (hstep s e hs).mpr he
      cases pre with
      | nil => exact hs
      | cons e' pre =>
        obtain ⟨rfl, htail⟩ := List.cons_prefix_cons.mp hpre
        exact (ih _ hfirst).mpr hrest pre htail

section Watch

variable {α : Type} (step : S → E → S) (obs : S → E → List α)

/-- The machine next to what an observer has noted of its steps. -/
def watch (p : S × List α) (e : E) : S × List α := (step p.1 e, p.2 ++ obs p.1 e)

theorem foldl_watch_fst (es : List E) (p : S × List α) :
    (es.foldl (watch step obs) p).1 = es.foldl step p.1 := by
  induction es generalizing p with
  | nil => rfl
  | cons e es ih => exact ih (watch step obs p e)

theorem stepsMeet_watch {step obs} {ok : S → E → Prop} (es : List E) {p : S × List α}
    (h : StepsMeet step ok p.1 es) :
    StepsMeet (watch step obs) (fun q e => ok q.1 e) p es := by
  induction es generalizing p with
  | nil => trivial
  | cons e es ih => exact ⟨h.1, ih h.2⟩

end Watch

end EnvoyGo.Runs

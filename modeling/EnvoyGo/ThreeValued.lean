import EnvoyGo.RuleTree

/-!
Trees of `and`, `or` and `not` over leaves that may not be known yet.  A verdict that is out
stands, whatever the open leaves turn out to be.
-/

namespace EnvoyGo

inductive Value where
  | undetermined
  | isTrue
  | isFalse
  deriving DecidableEq

namespace Value

def ofBool (b : Bool) : Value := if b then .isTrue else .isFalse

def Keeps (v w : Value) : Prop := v ≠ .undetermined → w = v

theorem Keeps.refl (v : Value) : v.Keeps v := fun _ => rfl

theorem undetermined_keeps (w : Value) : undetermined.Keeps w := fun h => (h rfl).elim

end Value

namespace RuleTree

variable {L : Type}

@[elab_as_elim]
theorem children_induction {P : RuleTree L → Prop} (leaf : ∀ l, P (.leaf l))
    (all : ∀ ts, (∀ t ∈ ts, P t) → P (.all ts)) (some : ∀ ts, (∀ t ∈ ts, P t) → P (.some ts))
    (neg : ∀ t, P t → P (.neg t)) (t : RuleTree L) : P t :=
  @RuleTree.rec L P (fun ts => ∀ t ∈ ts, P t) leaf all some neg
    (fun _ ht => (List.not_mem_nil ht).elim)
    (fun _ _ ht hts u hu => (List.mem_cons.mp hu).elim (fun heq => heq ▸ ht) (hts u)) t

mutual

/-- The verdict of a tree.  One child that is false decides a conjunction and one that is true a
disjunction, also behind children that are open. -/
def verdict (f : L → Value) : RuleTree L → Value
  | .leaf l => f l
  | .all children => verdictScan f .isFalse .isTrue false children
  | .some children => verdictScan f .isTrue .isFalse false children
  | .neg child =>
    match verdict f child with
    | .isTrue => .isFalse
    | .isFalse => .isTrue
    | .undetermined => .undetermined

def verdictScan (f : L → Value) (decisive otherwise : Value) (sawUndetermined : Bool) :
    List (RuleTree L) → Value
  | [] => if sawUndetermined then .undetermined else otherwise
  | t :: ts =>
    if verdict f t = decisive then decisive
    else verdictScan f decisive otherwise (sawUndetermined || verdict f t = .undetermined) ts

end

section Keeps

variable {f g : L → Value} {decisive otherwise : Value}

theorem verdictScan_saw (f : L → Value) (decisive otherwise : Value) (ts : List (RuleTree L)) :
    verdictScan f decisive otherwise true ts = decisive ∨
      verdictScan f decisive otherwise true ts = .undetermined := by
  induction ts with
  | nil =>
    rw [verdictScan]
    exact .inr rfl
  | cons t ts ih =>
    rw [verdictScan, Bool.true_or]
    split_ifs
    · exact .inl rfl
    · exact ih

theorem verdictScan_keeps (hdec : decisive ≠ .undetermined) {ts : List (RuleTree L)}
    (hts : ∀ t ∈ ts, (verdict f t).Keeps (verdict g t)) {saw saw' : Bool}
    (hsaw : saw' = true → saw = true) :
    (verdictScan f decisive otherwise saw ts).Keeps
      (verdictScan g decisive otherwise saw' ts) := by
  induction ts generalizing saw saw' with
  | nil =>
    rw [verdictScan, verdictScan]
    cases saw with
    | true => exact Value.undetermined_keeps _
    | false =>
      have hclosed : saw' = false := Bool.eq_false_iff.mpr fun h => by cases hsaw h
      rw [hclosed]
      exact Value.Keeps.refl _
  | cons t ts ih =>
    have hrest := fun u hu => hts u (List.mem_cons_of_mem t hu)
    have ht := hts t List.mem_cons_self
    rw [verdictScan, verdictScan]
    by_cases hopen : verdict f t = .undetermined
    · rw [hopen, if_neg (Ne.symm hdec), decide_eq_true rfl, Bool.or_true]
      by_cases hgt : verdict g t = decisive
      · -- decided now: before, the scan had decided alike or was open
        rw [if_pos hgt]
        intro hout
        exact ((verdictScan_saw f decisive otherwise ts).resolve_right hout).symm
      · rw [if_neg hgt]
        exact ih hrest fun _ => rfl
    · rw [ht hopen]
      split_ifs
      · exact Value.Keeps.refl _
      · rw [decide_eq_false hopen, Bool.or_false, Bool.or_false]
        exact ih hrest hsaw

theorem verdict_keeps (h : ∀ l, (f l).Keeps (g l)) (t : RuleTree L) :
    (verdict f t).Keeps (verdict g t) := by
  induction t using children_induction with
  | leaf l =>
    rw [verdict, verdict]
    exact h l
  | all ts ih =>
    rw [verdict, verdict]
    exact verdictScan_keeps (by decide) ih id
  | some ts ih =>
    rw [verdict, verdict]
    exact verdictScan_keeps (by decide) ih id
  | neg t ih =>
    rw [verdict, verdict]
    by_cases hopen : verdict f t = .undetermined
    · rw [hopen]
      exact Value.undetermined_keeps _
    · rw [ih hopen]
      exact Value.Keeps.refl _

end Keeps

section Known

variable {p : L → Bool} {ts : List (RuleTree L)}

theorem verdictScan_all
    (hts : ∀ t ∈ ts, verdict (fun l => .ofBool (p l)) t = .ofBool (eval p t)) :
    verdictScan (fun l => .ofBool (p l)) .isFalse .isTrue false ts = .ofBool (evalAll p ts) := by
  induction ts with
  | nil =>
    rw [verdictScan, evalAll]
    rfl
  | cons t ts ih =>
    rw [verdictScan, evalAll, hts t List.mem_cons_self]
    cases eval p t with
    | false => rfl
    | true => exact ih fun u hu => hts u (List.mem_cons_of_mem t hu)

theorem verdictScan_some
    (hts : ∀ t ∈ ts, verdict (fun l => .ofBool (p l)) t = .ofBool (eval p t)) :
    verdictScan (fun l => .ofBool (p l)) .isTrue .isFalse false ts = .ofBool (evalSome p ts) := by
  induction ts with
  | nil =>
    rw [verdictScan, evalSome]
    rfl
  | cons t ts ih =>
    rw [verdictScan, evalSome, hts t List.mem_cons_self]
    cases eval p t with
    | true => rfl
    | false => exact ih fun u hu => hts u (List.mem_cons_of_mem t hu)

theorem verdict_ofBool (p : L → Bool) (t : RuleTree L) :
    verdict (fun l => .ofBool (p l)) t = .ofBool (eval p t) := by
  induction t using children_induction with
  | leaf l => rw [verdict, eval]
  | all ts ih => rw [verdict, eval, verdictScan_all ih]
  | some ts ih => rw [verdict, eval, verdictScan_some ih]
  | neg t ih =>
    rw [verdict, eval, ih]
    cases eval p t <;> rfl

end Known

end RuleTree

end EnvoyGo

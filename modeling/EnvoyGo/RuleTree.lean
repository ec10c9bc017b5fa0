import Mathlib.Data.List.Basic

/-!
Trees of `and`, `or` and `not` over arbitrary leaves: a short-circuit evaluator, what a tree
means over a leaf predicate, and a builder that compiles the leaves and can fail.
-/

namespace EnvoyGo

inductive RuleTree (L : Type)
  | leaf (l : L)
  | all (children : List (RuleTree L))
  | some (children : List (RuleTree L))
  | neg (child : RuleTree L)

namespace RuleTree

variable {L E : Type}

mutual

def eval (f : L → Bool) : RuleTree L → Bool
  | .leaf l => f l
  | .all children => evalAll f children
  | .some children => evalSome f children
  | .neg child => !eval f child

def evalAll (f : L → Bool) : List (RuleTree L) → Bool
  | [] => true
  | t :: ts => if eval f t then evalAll f ts else false

def evalSome (f : L → Bool) : List (RuleTree L) → Bool
  | [] => false
  | t :: ts => if eval f t then true else evalSome f ts

end

mutual

/-- What a tree says about a leaf predicate. -/
def Holds (P : L → Prop) : RuleTree L → Prop
  | .leaf l => P l
  | .all children => HoldsAll P children
  | .some children => HoldsSome P children
  | .neg child => ¬Holds P child

def HoldsAll (P : L → Prop) : List (RuleTree L) → Prop
  | [] => True
  | t :: ts => Holds P t ∧ HoldsAll P ts

def HoldsSome (P : L → Prop) : List (RuleTree L) → Prop
  | [] => False
  | t :: ts => Holds P t ∨ HoldsSome P ts

end

theorem holdsSome_iff (P : L → Prop) (ts : List (RuleTree L)) :
    HoldsSome P ts ↔ ∃ t ∈ ts, Holds P t := by
  induction ts with
  | nil => simp [HoldsSome]
  | cons t ts ih => simp [HoldsSome, ih]

theorem evalSome_eq_any (f : L → Bool) (ts : List (RuleTree L)) :
    evalSome f ts = ts.any (eval f) := by
  induction ts with
  | nil => rw [evalSome, List.any_nil]
  | cons t ts ih =>
    rw [evalSome, ih, List.any_cons]
    cases eval f t <;> rfl

mutual

def build (tag : String) (leafBuild : L → Except String E) :
    RuleTree L → Except String (RuleTree E)
  | .leaf l => (leafBuild l).map .leaf
  | .all children => (buildList tag leafBuild 0 children).map .all
  | .some children => (buildList tag leafBuild 0 children).map .some
  | .neg child => (build tag leafBuild child).map .neg

def buildList (tag : String) (leafBuild : L → Except String E) (i : Nat) :
    List (RuleTree L) → Except String (List (RuleTree E))
  | [] => .ok []
  | t :: ts =>
    match build tag leafBuild t with
    | .error err => .error (tag ++ "[" ++ Nat.repr i ++ "]: " ++ err)
    | .ok e => (buildList tag leafBuild (i + 1) ts).map (fun es => e :: es)

end

theorem map_eq_ok {ε α β : Type} {g : α → β} {x : Except ε α} {b : β}
    (h : x.map g = .ok b) : ∃ a, x = .ok a ∧ g a = b := by
  cases x with
  | error err => cases h
  | ok a => exact ⟨a, rfl, Except.ok.inj h⟩

section Correctness

variable (tag : String) (leafBuild : L → Except String E) (f : E → Bool)

def LeafHolds (l : L) : Prop := ∃ e, leafBuild l = .ok e ∧ f e = true

theorem leafHolds_iff (l : L) (e : E) (h : leafBuild l = .ok e) :
    LeafHolds leafBuild f l ↔ f e = true := by
  constructor
  · rintro ⟨e', he', hf⟩
    obtain rfl : e = e' := Except.ok.inj (h.symm.trans he')
    exact hf
  · intro hf
    exact ⟨e, h, hf⟩

mutual

theorem build_eval_iff : ∀ (t : RuleTree L) (e : RuleTree E), build tag leafBuild t = .ok e →
    (eval f e = true ↔ Holds (LeafHolds leafBuild f) t)
  | .leaf l, e, h => by
    rw [build] at h
    obtain ⟨e', hl, rfl⟩ := map_eq_ok h
    rw [eval, Holds]
    exact (leafHolds_iff leafBuild f l e' hl).symm
  | .all children, e, h => by
    rw [build] at h
    obtain ⟨es, hes, rfl⟩ := map_eq_ok h
    rw [eval, Holds]
    exact (buildList_eval_iff 0 children es hes).1
  | .some children, e, h => by
    rw [build] at h
    obtain ⟨es, hes, rfl⟩ := map_eq_ok h
    rw [eval, Holds]
    exact (buildList_eval_iff 0 children es hes).2
  | .neg child, e, h => by
    rw [build] at h
    obtain ⟨e', hchild, rfl⟩ := map_eq_ok h
    rw [eval, Holds, ← build_eval_iff child e' hchild, Bool.not_eq_true', Bool.not_eq_true]

theorem buildList_eval_iff : ∀ (i : Nat) (ts : List (RuleTree L)) (es : List (RuleTree E)),
    buildList tag leafBuild i ts = .ok es →
    (evalAll f es = true ↔ HoldsAll (LeafHolds leafBuild f) ts) ∧
    (evalSome f es = true ↔ HoldsSome (LeafHolds leafBuild f) ts)
  | _, [], es, h => by
    rw [buildList] at h
    obtain rfl := Except.ok.inj h
    simp [evalAll, evalSome, HoldsAll, HoldsSome]
  | i, t :: ts, es, h => by
    rw [buildList] at h
    cases ht : build tag leafBuild t with
    | error err =>
      rw [ht] at h
      cases h
    | ok e =>
      rw [ht] at h
      obtain ⟨rest, hrest, rfl⟩ := map_eq_ok h
      have hhead := build_eval_iff t e ht
      have htail := buildList_eval_iff (i + 1) ts rest hrest
      rw [evalAll, evalSome, HoldsAll, HoldsSome, ← hhead, ← htail.1, ← htail.2]
      cases eval f e <;> simp

end

theorem any_buildList_iff (i : Nat) (ts : List (RuleTree L)) (es : List (RuleTree E))
    (h : buildList tag leafBuild i ts = .ok es) :
    es.any (eval f) = true ↔ ∃ t ∈ ts, Holds (LeafHolds leafBuild f) t := by
  rw [← evalSome_eq_any, (buildList_eval_iff tag leafBuild f i ts es h).2, holdsSome_iff]

end Correctness

end RuleTree

end EnvoyGo

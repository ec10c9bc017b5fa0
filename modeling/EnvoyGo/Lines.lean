import Mathlib.Data.List.Basic

/-!
Streams of terminated lines over an arbitrary alphabet: what a reader of a byte stream has as
whole lines, and what is left of an unterminated last one.
-/

namespace EnvoyGo.Lines

variable {α : Type} [DecidableEq α] (nl : α)

/-- The terminated lines of `p`, without their terminators, and the text after the last one. -/
def split : List α → List (List α) × List α
  | [] => ([], [])
  | x :: xs =>
    if x = nl then ([] :: (split xs).1, (split xs).2)
    else
      match (split xs).1 with
      | [] => ([], x :: (split xs).2)
      | l :: ls => ((x :: l) :: ls, (split xs).2)

def lines (p : List α) : List (List α) := (split nl p).1

def rest (p : List α) : List α := (split nl p).2

/-- Nothing but whole lines. -/
def Whole (p : List α) : Prop := rest nl p = []

instance (p : List α) : Decidable (Whole nl p) := inferInstanceAs (Decidable (rest nl p = []))

@[simp] theorem lines_nil : lines nl [] = [] := rfl

@[simp] theorem rest_nil : rest nl [] = [] := rfl

theorem whole_nil : Whole nl ([] : List α) := rfl

theorem lines_cons_self (p : List α) : lines nl (nl :: p) = [] :: lines nl p := by
  simp only [lines, split, if_pos]

theorem rest_cons_self (p : List α) : rest nl (nl :: p) = rest nl p := by
  simp only [rest, split, if_pos]

theorem split_cons_of_ne {x : α} (hx : x ≠ nl) (p : List α) :
    (lines nl p = [] ∧ lines nl (x :: p) = [] ∧ rest nl (x :: p) = x :: rest nl p) ∨
      ∃ l ls, lines nl p = l :: ls ∧ lines nl (x :: p) = (x :: l) :: ls ∧
        rest nl (x :: p) = rest nl p := by
  simp only [lines, rest, split, if_neg hx]
  cases (split nl p).1 with
  | nil => exact Or.inl ⟨rfl, rfl, rfl⟩
  | cons l ls => exact Or.inr ⟨l, ls, rfl, rfl, rfl⟩

theorem split_append {p : List α} (hp : Whole nl p) (q : List α) :
    lines nl (p ++ q) = lines nl p ++ lines nl q ∧ rest nl (p ++ q) = rest nl q := by
  induction p with
  | nil => exact ⟨rfl, rfl⟩
  | cons x p ih =>
    by_cases hx : x = nl
    · subst hx
      have hp' : Whole x p := by
        rw [Whole, rest_cons_self] at hp
        exact hp
      obtain ⟨hl, hr⟩ := ih hp'
      rw [List.cons_append, lines_cons_self, lines_cons_self, rest_cons_self, hl]
      exact ⟨rfl, hr⟩
    · obtain ⟨-, -, hr⟩ | ⟨l, ls, hp0, hl, hr⟩ := split_cons_of_ne nl hx p
      · rw [Whole, hr] at hp
        exact absurd hp (List.cons_ne_nil _ _)
      · rw [Whole, hr] at hp
        obtain ⟨hql, hqr⟩ := ih hp
        rw [hp0] at hql
        obtain ⟨hnil, -, -⟩ | ⟨l', ls', hp1, hl', hr'⟩ := split_cons_of_ne nl hx (p ++ q)
        · rw [hql] at hnil
          exact absurd hnil (List.cons_ne_nil _ _)
        · rw [hql] at hp1
          obtain ⟨rfl, rfl⟩ := List.cons.inj hp1
          rw [List.cons_append, hl', hl, hr', hqr]
          exact ⟨rfl, rfl⟩

theorem lines_append {p : List α} (hp : Whole nl p) (q : List α) :
    lines nl (p ++ q) = lines nl p ++ lines nl q := (split_append nl hp q).1

theorem rest_append {p : List α} (hp : Whole nl p) (q : List α) :
    rest nl (p ++ q) = rest nl q := (split_append nl hp q).2

theorem whole_append {p q : List α} (hp : Whole nl p) (hq : Whole nl q) : Whole nl (p ++ q) :=
  (rest_append nl hp q).trans hq

theorem split_concat (p : List α) :
    lines nl (p ++ [nl]) = lines nl p ++ [rest nl p] ∧ rest nl (p ++ [nl]) = [] := by
  induction p with
  | nil => exact ⟨lines_cons_self nl [], rest_cons_self nl []⟩
  | cons x p ih =>
    obtain ⟨ihl, ihr⟩ := ih
    rw [List.cons_append]
    by_cases hx : x = nl
    · subst hx
      rw [lines_cons_self, lines_cons_self, rest_cons_self, rest_cons_self, ihl]
      exact ⟨rfl, ihr⟩
    · obtain ⟨hnil, -, -⟩ | ⟨l, ls, hp, hl, hr⟩ := split_cons_of_ne nl hx (p ++ [nl])
      · rw [ihl] at hnil
        exact absurd hnil (List.append_ne_nil_of_right_ne_nil _ (List.cons_ne_nil _ _))
      · rw [hl, hr, ihr]
        rw [ihl] at hp
        obtain ⟨hp0, hl0, hr0⟩ | ⟨k, ks, hp0, hl0, hr0⟩ := split_cons_of_ne nl hx p
        · rw [hp0] at hp
          obtain ⟨rfl, rfl⟩ := List.cons.inj hp
          rw [hl0, hr0]
          exact ⟨rfl, rfl⟩
        · rw [hp0] at hp
          obtain ⟨rfl, rfl⟩ := List.cons.inj hp
          rw [hl0, hr0]
          exact ⟨rfl, rfl⟩

theorem whole_concat (p : List α) : Whole nl (p ++ [nl]) := (split_concat nl p).2

theorem whole_take_succ {p : List α} {k : ℕ} (h : p[k]? = some nl) :
    Whole nl (p.take (k + 1)) := by
  rw [List.take_add_one, h]
  exact whole_concat nl (p.take k)

theorem split_of_notMem {p : List α} (hp : nl ∉ p) : lines nl p = [] ∧ rest nl p = p := by
  induction p with
  | nil => exact ⟨rfl, rfl⟩
  | cons x p ih =>
    obtain ⟨hx, hp⟩ := not_or.mp (mt List.mem_cons.mpr hp)
    obtain ⟨ihl, ihr⟩ := ih hp
    obtain ⟨-, hl, hr⟩ | ⟨l, ls, hne, -, -⟩ := split_cons_of_ne nl (Ne.symm hx) p
    · exact ⟨hl, by rw [hr, ihr]⟩
    · rw [ihl] at hne
      cases hne

theorem lines_concat_of_notMem {l : List α} (hl : nl ∉ l) : lines nl (l ++ [nl]) = [l] := by
  obtain ⟨hnone, hrest⟩ := split_of_notMem nl hl
  rw [(split_concat nl l).1, hnone, hrest, List.nil_append]

theorem lines_append_of_notMem {p q : List α} (hp : Whole nl p) (hq : nl ∉ q) :
    lines nl (p ++ q) = lines nl p := by
  rw [lines_append nl hp, (split_of_notMem nl hq).1, List.append_nil]

section Cut

variable {p : List α} {k : ℕ}

theorem lines_take_append_drop (hk : Whole nl (p.take k)) :
    lines nl (p.take k) ++ lines nl (p.drop k) = lines nl p := by
  rw [← lines_append nl hk, List.take_append_drop]

theorem whole_drop (hp : Whole nl p) (hk : Whole nl (p.take k)) : Whole nl (p.drop k) := by
  rw [Whole, ← rest_append nl hk, List.take_append_drop]
  exact hp

end Cut

end EnvoyGo.Lines

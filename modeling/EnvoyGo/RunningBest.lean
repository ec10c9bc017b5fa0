import Mathlib.Data.List.Perm.Basic
import Mathlib.Order.Basic
import Mathlib.Order.Defs.LinearOrder
import Mathlib.Order.Lattice

/-!
A scan that keeps the best element so far and gives up at the first tie with it, against the
element that is greater than all the others.  Nothing here is about what is compared.
-/

namespace EnvoyGo.RunningBest

variable {α κ : Type} [LinearOrder κ]

/-- One member is above all the others; a list with the same key twice at its top has none. -/
def Greatest (key : α → κ) (l : List α) (m : α) : Prop :=
  ∃ rest, l.Perm (m :: rest) ∧ ∀ x ∈ rest, key x < key m

def Tied (key : α → κ) (l : List α) : Prop := ¬ ∃ m, Greatest key l m

def scan (key : α → κ) : α → List α → Option α
  | best, [] => some best
  | best, c :: cs =>
    if key best < key c then scan key c cs
    else if key c < key best then scan key best cs
    else none

variable {l : List α} {m : α}

theorem Greatest.perm {key : α → κ} {l' : List α} (h : Greatest key l m) (hp : l.Perm l') :
    Greatest key l' m := by
  obtain ⟨rest, hrest, hlt⟩ := h
  exact ⟨rest, hp.symm.trans hrest, hlt⟩

theorem tied_perm {key : α → κ} {l' : List α} (hp : l.Perm l') : Tied key l ↔ Tied key l' := by
  unfold Tied
  apply not_congr
  constructor
  · rintro ⟨m, hm⟩
    exact ⟨m, hm.perm hp⟩
  · rintro ⟨m, hm⟩
    exact ⟨m, hm.perm hp.symm⟩

theorem Greatest.mem {key : α → κ} (h : Greatest key l m) : m ∈ l := by
  obtain ⟨rest, hrest, -⟩ := h
  exact hrest.mem_iff.mpr List.mem_cons_self

theorem Greatest.le {key : α → κ} {x : α} (h : Greatest key l m) (hx : x ∈ l) : key x ≤ key m := by
  obtain ⟨rest, hrest, hlt⟩ := h
  rcases List.mem_cons.mp (hrest.mem_iff.mp hx) with rfl | hmem
  · exact le_refl _
  · exact (hlt x hmem).le

theorem Greatest.unique {key : α → κ} {m' : α} (h : Greatest key l m) (h' : Greatest key l m') :
    m = m' := by
  have hle := h'.le h.mem
  obtain ⟨rest, hrest, hlt⟩ := h
  rcases List.mem_cons.mp (hrest.mem_iff.mp h'.mem) with heq | hmem
  · exact heq.symm
  · exact absurd hle (not_le_of_gt (hlt m' hmem))

theorem greatest_singleton (key : α → κ) (m : α) : Greatest key [m] m :=
  ⟨[], List.Perm.refl _, fun _ hx => absurd hx List.not_mem_nil⟩

variable {key : α → κ}

theorem Greatest.beaten {c : α} (h : Greatest key l m) (hlt : key m < key c) :
    Greatest key (l ++ [c]) c := by
  refine ⟨l, List.perm_append_singleton c l, ?_⟩
  intro x hx
  exact lt_of_le_of_lt (h.le hx) hlt

theorem Greatest.stays {c : α} (h : Greatest key l m) (hlt : key c < key m) :
    Greatest key (l ++ [c]) m := by
  obtain ⟨rest, hrest, hall⟩ := h
  refine ⟨rest ++ [c], hrest.append_right [c], ?_⟩
  intro x hx
  rcases List.mem_append.mp hx with hx | hx
  · exact hall x hx
  · rw [List.mem_singleton.mp hx]
    exact hlt

theorem Greatest.tied {c : α} (h : Greatest key l m) (heq : key c = key m) :
    Tied key (l ++ [c]) := by
  rintro ⟨m', rest, hrest, hlt⟩
  have hperm : (l ++ [c]).Perm (c :: l) := List.perm_append_singleton c l
  have hcons : (c :: l).Perm (m' :: rest) := hperm.symm.trans hrest
  have hle : key c ≤ key m' := by
    rcases List.mem_cons.mp (hcons.mem_iff.mp List.mem_cons_self) with rfl | hmem
    · exact le_refl _
    · exact (hlt c hmem).le
  rcases List.mem_cons.mp (hcons.symm.mem_iff.mp List.mem_cons_self) with rfl | hmem
  · -- the other end of the tie is left in the rest
    have hl : l.Perm rest := (List.perm_cons m').mp hcons
    have hm := hlt m (hl.mem_iff.mp h.mem)
    rw [heq] at hm
    exact lt_irrefl _ hm
  · have hm' := h.le hmem
    rw [← heq] at hm'
    have hkey : key c = key m' := le_antisymm hle hm'
    rcases List.mem_cons.mp (hcons.mem_iff.mp List.mem_cons_self) with rfl | hc
    · have hl : l.Perm rest := (List.perm_cons c).mp hcons
      have hself := hlt c (hl.mem_iff.mp hmem)
      exact lt_irrefl _ hself
    · have hself := hlt c hc
      rw [hkey] at hself
      exact lt_irrefl _ hself

theorem scan_some {cs : List α} {r : α} (h : Greatest key l m) (hscan : scan key m cs = some r) :
    Greatest key (l ++ cs) r := by
  induction cs generalizing l m with
  | nil =>
    cases hscan
    rw [List.append_nil]
    exact h
  | cons c cs ih =>
    unfold scan at hscan
    have hsplit : l ++ c :: cs = (l ++ [c]) ++ cs := by simp
    rw [hsplit]
    split_ifs at hscan with hup hdown
    · exact ih (h.beaten hup) hscan
    · exact ih (h.stays hdown) hscan

theorem scan_none_iff {cs : List α} (h : Greatest key l m) :
    scan key m cs = none ↔ ∃ p, p <+: cs ∧ Tied key (l ++ p) := by
  induction cs generalizing l m with
  | nil =>
    constructor
    · intro hnone
      cases hnone
    · rintro ⟨p, hp, htied⟩
      rw [List.prefix_nil.mp hp, List.append_nil] at htied
      exact absurd ⟨m, h⟩ htied
  | cons c cs ih =>
    have hsplit (p : List α) : l ++ c :: p = (l ++ [c]) ++ p := by simp
    -- a part with no greatest member goes past the first member
    have hshift (hone : ∃ m', Greatest key (l ++ [c]) m') :
        (∃ p, p <+: c :: cs ∧ Tied key (l ++ p)) ↔
          ∃ p, p <+: cs ∧ Tied key ((l ++ [c]) ++ p) := by
      constructor
      · rintro ⟨p, hp, htied⟩
        cases p with
        | nil =>
          rw [List.append_nil] at htied
          exact absurd ⟨m, h⟩ htied
        | cons x p =>
          obtain ⟨rfl, hp'⟩ := List.cons_prefix_cons.mp hp
          rw [hsplit] at htied
          exact ⟨p, hp', htied⟩
      · rintro ⟨p, hp, htied⟩
        refine ⟨c :: p, List.cons_prefix_cons.mpr ⟨rfl, hp⟩, ?_⟩
        rw [hsplit]
        exact htied
    unfold scan
    split_ifs with hup hdown
    · have hc := h.beaten hup
      rw [ih hc, hshift ⟨c, hc⟩]
    · have hm := h.stays hdown
      rw [ih hm, hshift ⟨m, hm⟩]
    · have heq : key c = key m := le_antisymm (not_lt.mp hup) (not_lt.mp hdown)
      have hhead : [c] <+: c :: cs := List.cons_prefix_cons.mpr ⟨rfl, List.nil_prefix⟩
      exact iff_of_true rfl ⟨[c], hhead, h.tied heq⟩

theorem exists_greatest (hne : l ≠ []) (hkeys : l.Pairwise (fun x y => key x ≠ key y)) :
    ∃ m, Greatest key l m := by
  induction l with
  | nil => exact absurd rfl hne
  | cons c l ih =>
    obtain ⟨hc, hrest⟩ := List.pairwise_cons.mp hkeys
    by_cases hl : l = []
    · rw [hl]
      exact ⟨c, greatest_singleton key c⟩
    · obtain ⟨m, hm⟩ := ih hl hrest
      have hperm : (l ++ [c]).Perm (c :: l) := List.perm_append_singleton c l
      rcases lt_or_gt_of_ne (hc m hm.mem) with hlt | hgt
      · exact ⟨m, (hm.stays hlt).perm hperm⟩
      · exact ⟨c, (hm.beaten hgt).perm hperm⟩

theorem exists_tie_in_front (hkeys : ¬ l.Pairwise (fun x y => key x ≠ key y)) :
    ∃ a b rest, l.Perm (a :: b :: rest) ∧ key a = key b := by
  induction l with
  | nil => exact absurd List.Pairwise.nil hkeys
  | cons c l ih =>
    by_cases hc : ∀ x ∈ l, key c ≠ key x
    · have hrest : ¬ l.Pairwise (fun x y => key x ≠ key y) :=
        fun h => hkeys (List.pairwise_cons.mpr ⟨hc, h⟩)
      obtain ⟨a, b, rest, hperm, heq⟩ := ih hrest
      refine ⟨a, b, c :: rest, ?_, heq⟩
      have hmove : (c :: a :: b :: rest).Perm (a :: b :: c :: rest) :=
        (List.Perm.swap a c (b :: rest)).trans ((List.Perm.swap b c rest).cons a)
      exact (hperm.cons c).trans hmove
    · push Not at hc
      obtain ⟨x, hx, heq⟩ := hc
      obtain ⟨before, after, rfl⟩ := List.append_of_mem hx
      exact ⟨c, x, before ++ after, List.perm_middle.cons c, heq⟩

end EnvoyGo.RunningBest

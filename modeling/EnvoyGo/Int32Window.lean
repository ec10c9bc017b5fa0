import Mathlib.Tactic.Linarith

/-!
A counter kept in 32 bits, next to the number it stands for.  Additions wrap; a reservation takes
no more than there is.  Nothing here is about a particular protocol.
-/

namespace EnvoyGo

def wrap32 (x : ℤ) : ℤ := (x + 2^31) % 2^32 - 2^31

def maxInt32 : ℤ := 2^31 - 1

theorem wrap32_of_range {x : ℤ} (hlo : -2^31 ≤ x) (hhi : x ≤ maxInt32) : wrap32 x = x := by
  unfold wrap32
  unfold maxInt32 at hhi
  omega

theorem wrap32_le {x : ℤ} (hlo : -2^31 ≤ x) : wrap32 x ≤ x := by
  unfold wrap32
  omega

theorem wrap32_range (x : ℤ) : -2^31 ≤ wrap32 x ∧ wrap32 x ≤ maxInt32 := by
  unfold wrap32 maxInt32
  omega

/-- `n` is the counter; `exact` is what it would be without a width, and no operation reads it. -/
structure Window where
  n : ℤ
  exact : ℤ
  deriving DecidableEq

namespace Window

def new (initial : ℤ) : Window := { n := wrap32 initial, exact := initial }

def replenish (w : Window) (delta : ℤ) : Window :=
  { n := wrap32 (w.n + delta), exact := w.exact + delta }

def fits (w : Window) (delta : ℤ) : Bool :=
  -2^31 ≤ w.n + delta && w.n + delta ≤ maxInt32

def adjust (w : Window) (delta : ℤ) : Option Window :=
  if w.fits delta then some { n := w.n + delta, exact := w.exact + delta } else none

def offer (w : Window) (max : ℤ) : ℤ := if max > w.n then w.n else max

def take (w : Window) (taken : ℤ) : Window :=
  { n := wrap32 (w.n - taken), exact := w.exact - taken }

/-- The counter says what it stands for. -/
def Exact (w : Window) : Prop := w.n = w.exact

def InRange (w : Window) : Prop := -2^31 ≤ w.n ∧ w.n ≤ maxInt32

theorem fits_iff (w : Window) (delta : ℤ) :
    w.fits delta = true ↔ -2^31 ≤ w.n + delta ∧ w.n + delta ≤ maxInt32 := by
  simp only [fits, Bool.and_eq_true, decide_eq_true_eq]

theorem offer_le (w : Window) (max : ℤ) : w.offer max ≤ w.n := by
  unfold offer
  split_ifs <;> omega

theorem offer_le_max (w : Window) (max : ℤ) : w.offer max ≤ max := by
  unfold offer
  split_ifs <;> omega

theorem offer_pos (w : Window) (max : ℤ) (hn : 0 < w.n) (hmax : 0 < max) : 0 < w.offer max := by
  unfold offer
  split_ifs <;> omega

theorem take_n (w : Window) (taken : ℤ) (hrange : w.InRange) (hpos : 0 ≤ taken)
    (hle : taken ≤ w.n) : (w.take taken).n = w.n - taken := by
  have hhi := hrange.2
  exact wrap32_of_range (by omega) (by omega)

theorem replenish_n (w : Window) (delta : ℤ) (hlo : -2^31 ≤ w.n + delta)
    (hhi : w.n + delta ≤ maxInt32) : (w.replenish delta).n = w.n + delta :=
  wrap32_of_range hlo hhi

theorem replenish_le (w : Window) (delta : ℤ) (hlo : -2^31 ≤ w.n + delta) :
    (w.replenish delta).n ≤ w.n + delta :=
  wrap32_le hlo

theorem replenish_inRange (w : Window) (delta : ℤ) : (w.replenish delta).InRange :=
  wrap32_range _

theorem take_inRange (w : Window) (taken : ℤ) : (w.take taken).InRange := wrap32_range _

theorem new_inRange (initial : ℤ) : (new initial).InRange := wrap32_range _

theorem take_exact {w : Window} (h : w.Exact) (taken : ℤ) (hrange : w.InRange) (hpos : 0 ≤ taken)
    (hle : taken ≤ w.n) : (w.take taken).Exact := by
  rw [Exact, take_n w taken hrange hpos hle, h]
  rfl

theorem replenish_exact {w : Window} (h : w.Exact) (delta : ℤ) (hlo : -2^31 ≤ w.n + delta)
    (hhi : w.n + delta ≤ maxInt32) : (w.replenish delta).Exact := by
  rw [Exact, replenish_n w delta hlo hhi, h]
  rfl

end Window

end EnvoyGo

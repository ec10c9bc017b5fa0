import EnvoyGo.Int32Window

/-!
One credit window with everything that passes through it: what writers hold of it, what was spent,
what was granted.  Nothing here is about a particular protocol.
-/

namespace EnvoyGo

/-- `held` is taken and neither spent nor given back; `due` is granted but not added yet;
`granted` is all the credit there ever was. -/
structure CreditAccount where
  window : Window
  held : ℤ
  spent : ℤ
  due : ℤ
  granted : ℤ

/-- What can happen to an account.  `adjust` moves the window and the grant together, `regrant` the
grant alone. -/
inductive CreditChange
  | reserve (taken : ℤ)
  | giveBack (part : ℤ)
  | spend (part : ℤ)
  | add
  | accept (delta : ℤ)
  | adjust (delta : ℤ)
  | regrant (delta : ℤ)

namespace CreditAccount

variable {a : CreditAccount} {c : CreditChange}

def apply (a : CreditAccount) : CreditChange → CreditAccount
  | .reserve taken => { a with window := a.window.take taken, held := a.held + taken }
  | .giveBack part => { a with window := a.window.replenish part, held := a.held - part }
  | .spend part => { a with held := a.held - part, spent := a.spent + part }
  | .add => { a with window := a.window.replenish a.due, due := 0 }
  | .accept delta => { a with due := a.due + delta, granted := a.granted + delta }
  | .adjust delta =>
    { a with
      window := ⟨a.window.n + delta, a.window.exact + delta⟩
      granted := a.granted + delta }
  | .regrant delta => { a with granted := a.granted + delta }

def Enabled (a : CreditAccount) : CreditChange → Prop
  | .reserve taken => 0 < taken ∧ taken ≤ a.window.n
  | .giveBack part => 0 ≤ part ∧ part ≤ a.held
  | .spend part => 0 ≤ part ∧ part ≤ a.held
  | .add => True
  | .accept delta => 0 ≤ delta
  | .adjust delta => a.window.fits delta = true
  | .regrant _ => True

def Internal : CreditChange → Prop
  | .accept _ => False
  | .adjust _ => False
  | .regrant _ => False
  | _ => True

structure Solvent (a : CreditAccount) : Prop where
  range : a.window.InRange
  due_nonneg : 0 ≤ a.due
  held_nonneg : 0 ≤ a.held
  covered : a.window.n + a.due + a.held + a.spent ≤ a.granted
  backed : 0 < a.held → a.held + a.spent ≤ a.granted

def KeepsSolvent (a : CreditAccount) : CreditChange → Prop
  | .adjust delta => delta < 0 → a.held = 0 ∨ 0 ≤ a.window.n + delta
  | .regrant delta => 0 ≤ delta
  | _ => True

theorem Solvent.apply (h : Solvent a) (he : a.Enabled c) (hok : a.KeepsSolvent c) :
    Solvent (a.apply c) := by
  obtain ⟨hrange, hdue, hheld, hcov, hback⟩ := h
  cases c with
  | reserve taken =>
    obtain ⟨hpos, hle⟩ := he
    have hn := Window.take_n a.window taken hrange hpos.le hle
    refine ⟨a.window.take_inRange taken, hdue, ?_, ?_, ?_⟩
    · change 0 ≤ a.held + taken
      omega
    · change (a.window.take taken).n + a.due + (a.held + taken) + a.spent ≤ a.granted
      omega
    · intro _
      change a.held + taken + a.spent ≤ a.granted
      omega
  | giveBack part =>
    obtain ⟨hpos, hle⟩ := he
    have hlo := hrange.1
    have hn := Window.replenish_le a.window part (by omega)
    refine ⟨a.window.replenish_inRange part, hdue, ?_, ?_, ?_⟩
    · change 0 ≤ a.held - part
      omega
    · change (a.window.replenish part).n + a.due + (a.held - part) + a.spent ≤ a.granted
      omega
    · intro hsome
      change 0 < a.held - part at hsome
      change a.held - part + a.spent ≤ a.granted
      have := hback (by omega)
      omega
  | spend part =>
    obtain ⟨hpos, hle⟩ := he
    refine ⟨hrange, hdue, ?_, ?_, ?_⟩
    · change 0 ≤ a.held - part
      omega
    · change a.window.n + a.due + (a.held - part) + (a.spent + part) ≤ a.granted
      omega
    · intro hsome
      change 0 < a.held - part at hsome
      change a.held - part + (a.spent + part) ≤ a.granted
      have := hback (by omega)
      omega
  | add =>
    have hlo := hrange.1
    have hn := Window.replenish_le a.window a.due (by omega)
    refine ⟨a.window.replenish_inRange a.due, le_rfl, hheld, ?_, hback⟩
    change (a.window.replenish a.due).n + 0 + a.held + a.spent ≤ a.granted
    omega
  | accept delta =>
    change 0 ≤ delta at he
    refine ⟨hrange, ?_, hheld, ?_, ?_⟩
    · change 0 ≤ a.due + delta
      omega
    · change a.window.n + (a.due + delta) + a.held + a.spent ≤ a.granted + delta
      omega
    · intro hsome
      change a.held + a.spent ≤ a.granted + delta
      have := hback hsome
      omega
  | adjust delta =>
    have hfits := (Window.fits_iff _ _).mp he
    change delta < 0 → a.held = 0 ∨ 0 ≤ a.window.n + delta at hok
    refine ⟨hfits, hdue, hheld, ?_, ?_⟩
    · change a.window.n + delta + a.due + a.held + a.spent ≤ a.granted + delta
      omega
    · intro hsome
      change 0 < a.held at hsome
      change a.held + a.spent ≤ a.granted + delta
      have := hback hsome
      by_cases hneg : delta < 0
      · have := hok hneg
        omega
      · omega
  | regrant delta =>
    change 0 ≤ delta at hok
    refine ⟨hrange, hdue, hheld, ?_, ?_⟩
    · change a.window.n + a.due + a.held + a.spent ≤ a.granted + delta
      omega
    · intro hsome
      change a.held + a.spent ≤ a.granted + delta
      have := hback hsome
      omega

theorem Solvent.spend_le (h : Solvent a) {part : ℤ} (hpos : 0 < part) (hle : part ≤ a.held) :
    a.spent + part ≤ a.granted := by
  have := h.backed (by omega)
  omega

theorem Internal.keepsSolvent (h : Internal c) (a : CreditAccount) : a.KeepsSolvent c := by
  cases c with
  | accept delta => exact h.elim
  | adjust delta => exact h.elim
  | regrant delta => exact h.elim
  | _ => trivial

/-- The counter is exact, and stays in range even when everything held comes back. -/
structure Faithful (a : CreditAccount) : Prop where
  range : a.window.InRange
  exact : a.window.Exact
  due_nonneg : 0 ≤ a.due
  held_nonneg : 0 ≤ a.held
  room : a.window.n + a.due + a.held ≤ maxInt32

def KeepsFaithful (a : CreditAccount) : CreditChange → Prop
  | .accept delta => a.window.n + a.due + a.held + delta ≤ maxInt32
  | .adjust delta => a.window.n + a.due + a.held + delta ≤ maxInt32
  | _ => True

theorem Faithful.apply (h : Faithful a) (he : a.Enabled c) (hok : a.KeepsFaithful c) :
    Faithful (a.apply c) := by
  obtain ⟨hrange, hexact, hdue, hheld, hroom⟩ := h
  have hlo := hrange.1
  cases c with
  | reserve taken =>
    obtain ⟨hpos, hle⟩ := he
    have hn := Window.take_n a.window taken hrange hpos.le hle
    refine ⟨a.window.take_inRange taken, Window.take_exact hexact taken hrange hpos.le hle, hdue,
      ?_, ?_⟩
    · change 0 ≤ a.held + taken
      omega
    · change (a.window.take taken).n + a.due + (a.held + taken) ≤ maxInt32
      omega
  | giveBack part =>
    obtain ⟨hpos, hle⟩ := he
    have hn := Window.replenish_n a.window part (by omega) (by omega)
    refine ⟨a.window.replenish_inRange part,
      Window.replenish_exact hexact part (by omega) (by omega), hdue, ?_, ?_⟩
    · change 0 ≤ a.held - part
      omega
    · change (a.window.replenish part).n + a.due + (a.held - part) ≤ maxInt32
      omega
  | spend part =>
    obtain ⟨hpos, hle⟩ := he
    refine ⟨hrange, hexact, hdue, ?_, ?_⟩
    · change 0 ≤ a.held - part
      omega
    · change a.window.n + a.due + (a.held - part) ≤ maxInt32
      omega
  | add =>
    have hn := Window.replenish_n a.window a.due (by omega) (by omega)
    refine ⟨a.window.replenish_inRange a.due,
      Window.replenish_exact hexact a.due (by omega) (by omega), le_rfl, hheld, ?_⟩
    change (a.window.replenish a.due).n + 0 + a.held ≤ maxInt32
    omega
  | accept delta =>
    change 0 ≤ delta at he
    change a.window.n + a.due + a.held + delta ≤ maxInt32 at hok
    refine ⟨hrange, hexact, ?_, hheld, ?_⟩
    · change 0 ≤ a.due + delta
      omega
    · change a.window.n + (a.due + delta) + a.held ≤ maxInt32
      omega
  | adjust delta =>
    have hfits := (Window.fits_iff _ _).mp he
    change a.window.n + a.due + a.held + delta ≤ maxInt32 at hok
    refine ⟨hfits, ?_, hdue, hheld, ?_⟩
    · change a.window.n + delta = a.window.exact + delta
      rw [hexact]
    · change a.window.n + delta + a.due + a.held ≤ maxInt32
      omega
  | regrant delta => exact ⟨hrange, hexact, hdue, hheld, hroom⟩

theorem Internal.keepsFaithful (h : Internal c) (a : CreditAccount) : a.KeepsFaithful c := by
  cases c with
  | accept delta => exact h.elim
  | adjust delta => exact h.elim
  | _ => trivial

def Moves (a b : CreditAccount) : Prop :=
  b = a ∨ ∃ c, a.Enabled c ∧ Internal c ∧ b = a.apply c

theorem Moves.refl (a : CreditAccount) : Moves a a := .inl rfl

variable {b : CreditAccount} {x : ℤ}

theorem Moves.of_change (he : a.Enabled c) (hi : Internal c) (hb : b = a.apply c) : Moves a b :=
  .inr ⟨c, he, hi, hb⟩

theorem Moves.keep {w : Window} (hw : w = a.window) (hx : x = 0) :
    Moves a { a with window := w, held := a.held + x } := by
  left
  rw [hw, hx, add_zero]

theorem Moves.reserve {taken : ℤ} {w : Window} (hpos : 0 < taken) (hle : taken ≤ a.window.n)
    (hw : w = a.window.take taken) (hx : x = taken) :
    Moves a { a with window := w, held := a.held + x } := by
  refine .of_change (c := .reserve taken) ⟨hpos, hle⟩ trivial ?_
  rw [hw, hx]
  rfl

theorem Moves.giveBack {part : ℤ} {w : Window} (hpos : 0 ≤ part) (hle : part ≤ a.held)
    (hw : w = a.window.replenish part) (hx : x = -part) :
    Moves a { a with window := w, held := a.held + x } := by
  refine .of_change (c := .giveBack part) ⟨hpos, hle⟩ trivial ?_
  rw [hw, hx]
  rfl

theorem Moves.spend {part : ℤ} (hpos : 0 ≤ part) (hle : part ≤ a.held) (hx : x = -part) :
    Moves a { a with held := a.held + x, spent := a.spent + part } := by
  refine .of_change (c := .spend part) ⟨hpos, hle⟩ trivial ?_
  rw [hx]
  rfl

theorem Solvent.moves (h : Solvent a) (hm : Moves a b) : Solvent b := by
  rcases hm with rfl | ⟨c, he, hi, rfl⟩
  · exact h
  · exact h.apply he (hi.keepsSolvent a)

theorem Faithful.moves (h : Faithful a) (hm : Moves a b) : Faithful b := by
  rcases hm with rfl | ⟨c, he, hi, rfl⟩
  · exact h
  · exact h.apply he (hi.keepsFaithful a)

theorem Solvent.moves_spent (h : Solvent a) (hm : Moves a b) :
    b.spent = a.spent ∨ b.spent ≤ b.granted := by
  rcases hm with rfl | ⟨c, he, hi, rfl⟩
  · exact .inl rfl
  · cases c with
    | spend part =>
      obtain ⟨hpos, hle⟩ := he
      rcases hpos.lt_or_eq with hlt | heq
      · exact .inr (h.spend_le hlt hle)
      · left
        change a.spent + part = a.spent
        omega
    | _ => exact .inl rfl

end CreditAccount

end EnvoyGo

import EnvoyGo.Runs
import Mathlib.Algebra.Order.Group.Int
import Mathlib.Logic.Function.Basic
import Mathlib.Tactic.SplitIfs
import Mathlib.Algebra.Group.Nat.Defs

/-!
How long an ejection lasts.  The flag of a host and its deadline are two atomics: `tryEject` writes
them in turn, and every availability check reads them in turn and clears the flag of an ejection
that is over.  Calls interleave at each atomic access and each reading of the clock.
-/

namespace EnvoyGo.EjectionTime

open Runs

/-- A `tryEject` call: it has found the host not ejected, has set the flag, has read the clock at
`t`, or has returned, with its clock reading if it ejected. -/
inductive Ejector
  | idle
  | loaded
  | won
  | timed (t : Int)
  | returned (t : Option Int)
  deriving DecidableEq

/-- An `isEjected` or `available` call.  `owed` is bookkeeping of the model: the times until which
the ejections made before the call were to last. -/
inductive Check
  | idle
  | started (owed : List Int)
  | flagged (owed : List Int)
  | timed (owed : List Int) (c : Int)
  | passed (owed : List Int) (c : Int)
  | unhealthy
  | ejected (owed : List Int) (c : Int)
  | notEjected (owed : List Int) (c : Int)
  deriving DecidableEq

/-- One host, the clock and the calls on it.  `promises` is bookkeeping of the model: `t +
base_ejection_time` for every ejection made at `t`. -/
structure Host where
  healthy : Bool := true
  ejected : Bool := false
  unejectAtNanos : Int := 0
  now : Int
  ejectors : Nat → Ejector := fun _ => .idle
  checks : Nat → Check := fun _ => .idle
  promises : List Int := []

namespace Host

def setEjector (s : Host) (i : Nat) (p : Ejector) : Host :=
  { s with ejectors := Function.update s.ejectors i p }

def setCheck (s : Host) (j : Nat) (p : Check) : Host :=
  { s with checks := Function.update s.checks j p }

end Host

inductive Event
  | advance (d : Nat)
  | setHealthy (b : Bool)
  | eject (i : Nat)
  | declined (i : Nat)
  | check (j : Nat) (available : Bool)
  deriving DecidableEq

/-- The next access of a `tryEject` call: the load, the compare-and-swap, the clock, the store. -/
def ejectStep (base : Int) (s : Host) (i : Nat) : Host :=
  match s.ejectors i with
  | .idle => s.setEjector i (if s.ejected then .returned none else .loaded)
  | .loaded =>
    if s.ejected then s.setEjector i (.returned none)
    else { s with ejected := true }.setEjector i .won
  | .won => s.setEjector i (.timed s.now)
  | .timed t =>
    { s with unejectAtNanos := (t + base).bmod (2 ^ 64)
             promises := s.promises ++ [t + base] }.setEjector i (.returned (some t))
  | .returned _ => s

/-- The next access of an availability check: `healthy` (of `available` only), the flag, the clock,
the deadline, the compare-and-swap. -/
def checkStep (s : Host) (j : Nat) (available : Bool) : Host :=
  match s.checks j with
  | .idle => s.setCheck j (if available && !s.healthy then .unhealthy else .started s.promises)
  | .started owed => s.setCheck j (if s.ejected then .flagged owed else .notEjected owed s.now)
  | .flagged owed => s.setCheck j (.timed owed s.now)
  | .timed owed c =>
    s.setCheck j (if s.unejectAtNanos ≤ c then .passed owed c else .ejected owed c)
  | .passed owed c => { s with ejected := false }.setCheck j (.notEjected owed c)
  | _ => s

/-- The enforce roll or the cap may end a `tryEject` between its load and its compare-and-swap. -/
def step (base : Int) (s : Host) : Event → Host
  | .advance d => { s with now := s.now + d }
  | .setHealthy b => { s with healthy := b }
  | .eject i => ejectStep base s i
  | .declined i =>
    match s.ejectors i with
    | .loaded => s.setEjector i (.returned none)
    | _ => s
  | .check j available => checkStep s j available

/-- No check reports the host as not ejected at a clock value before the end of an ejection that was
made before the check. -/
def Lasting (s : Host) : Prop :=
  ∀ j owed c, s.checks j = .notEjected owed c → ∀ p ∈ owed, p ≤ c

def Ejector.inWindow : Ejector → Bool
  | .won | .timed _ => true
  | _ => false

def Check.isPassed : Check → Bool
  | .passed _ _ => true
  | _ => false

/-- No check finds the deadline passed while a `tryEject` stands between flag and deadline; no flag
is set while a check stands between the two; and the deadline fits a signed 64-bit integer. -/
def Undisturbed (base : Int) (s : Host) : Event → Prop
  | .eject i =>
    match s.ejectors i with
    | .loaded => s.ejected = false → ∀ j, (s.checks j).isPassed = false
    | .timed t => -2 ^ 63 ≤ t + base ∧ t + base < 2 ^ 63
    | _ => True
  | .check j _ =>
    match s.checks j with
    | .timed _ c => s.unejectAtNanos ≤ c → ∀ i, (s.ejectors i).inWindow = false
    | _ => True
  | _ => True

def Check.owed : Check → List Int
  | .started owed | .flagged owed | .timed owed _ | .passed owed _ | .ejected owed _
  | .notEjected owed _ => owed
  | .idle | .unhealthy => []

/-- At most one call stands between flag and deadline, and no check is about to clear the flag then;
the deadline covers every promise made. -/
structure Inv (base : Int) (s : Host) : Prop where
  kept : ∀ p ∈ s.promises, p ≤ s.now ∨ s.ejected = true
  covered : ∀ p ∈ s.promises, p ≤ s.unejectAtNanos
  horizon : ∀ p ∈ s.promises, p ≤ s.now + base
  window : ∀ i, (s.ejectors i).inWindow = true → s.ejected = true
  unique : ∀ i j, (s.ejectors i).inWindow = true → (s.ejectors j).inWindow = true → i = j
  exclusive : ∀ i j, (s.ejectors i).inWindow = true → (s.checks j).isPassed = false
  timed : ∀ i t, s.ejectors i = .timed t → t ≤ s.now ∧ ∀ p ∈ s.promises, p ≤ t + base
  reading : ∀ j owed c, s.checks j = .timed owed c → c ≤ s.now
  passed : ∀ j owed c, s.checks j = .passed owed c → s.unejectAtNanos ≤ c ∧ c ≤ s.now
  owed : ∀ j, ∀ p ∈ (s.checks j).owed, p ∈ s.promises
  lasting : Lasting s

namespace Inv

variable {base : Int} {s : Host}

section

variable (h : Inv base s)

include h

theorem setCheck (j : Nat) (p : Check)
    (hexcl : p.isPassed = true → ∀ i, (s.ejectors i).inWindow = false)
    (hread : ∀ owed c, p = .timed owed c → c ≤ s.now)
    (hpass : ∀ owed c, p = .passed owed c → s.unejectAtNanos ≤ c ∧ c ≤ s.now)
    (howed : ∀ q ∈ p.owed, q ∈ s.promises)
    (hlast : ∀ owed c, p = .notEjected owed c → ∀ q ∈ owed, q ≤ c) : Inv base (s.setCheck j p) := by
  refine ⟨h.kept, h.covered, h.horizon, h.window, h.unique, ?_, h.timed, ?_, ?_, ?_, ?_⟩
  · intro i k hi
    simp only [Host.setCheck, Function.update_apply]
    split_ifs
    · rw [Bool.eq_false_iff]
      intro hp
      have hout := hexcl hp i
      exact absurd (hi.symm.trans hout) (by simp)
    · exact h.exclusive i k hi
  · intro k owed c hk
    simp only [Host.setCheck, Function.update_apply] at hk
    split_ifs at hk
    · exact hread owed c hk
    · exact h.reading k owed c hk
  · intro k owed c hk
    simp only [Host.setCheck, Function.update_apply] at hk
    split_ifs at hk
    · exact hpass owed c hk
    · exact h.passed k owed c hk
  · intro k q hq
    simp only [Host.setCheck, Function.update_apply] at hq
    split_ifs at hq
    · exact howed q hq
    · exact h.owed k q hq
  · intro k owed c hk
    simp only [Host.setCheck, Function.update_apply] at hk
    split_ifs at hk
    · exact hlast owed c hk
    · exact h.lasting k owed c hk

theorem setCheck_quiet (j : Nat) (p : Check) (hp : p.isPassed = false)
    (hread : ∀ owed c, p = .timed owed c → c ≤ s.now) (howed : ∀ q ∈ p.owed, q ∈ s.promises)
    (hrep : ∀ owed c, p ≠ .notEjected owed c) : Inv base (s.setCheck j p) := by
  refine h.setCheck j p ?_ hread ?_ howed ?_
  · intro hpass
    rw [hp] at hpass
    cases hpass
  · rintro owed c rfl
    cases hp
  · intro owed c he
    exact absurd he (hrep owed c)

theorem setEjector_out (i : Nat) (p : Ejector) (hp : p.inWindow = false) :
    Inv base (s.setEjector i p) := by
  have hin : ∀ k, ((s.setEjector i p).ejectors k).inWindow = true →
      (s.ejectors k).inWindow = true := by
    intro k hk
    simp only [Host.setEjector, Function.update_apply] at hk
    split_ifs at hk
    · rw [hp] at hk
      cases hk
    · exact hk
  refine ⟨h.kept, h.covered, h.horizon, fun k hk => h.window k (hin k hk),
    fun k l hk hl => h.unique k l (hin k hk) (hin l hl),
    fun k l hk => h.exclusive k l (hin k hk), ?_, h.reading, h.passed, h.owed, h.lasting⟩
  intro k t hk
  simp only [Host.setEjector, Function.update_apply] at hk
  split_ifs at hk
  · rw [hk] at hp
    cases hp
  · exact h.timed k t hk

theorem win (i : Nat) (hflag : s.ejected = false) (hclear : ∀ j, (s.checks j).isPassed = false) :
    Inv base ({ s with ejected := true }.setEjector i .won) := by
  have hnone : ∀ k, (s.ejectors k).inWindow = false := by
    intro k
    rw [Bool.eq_false_iff]
    intro hk
    have hset := h.window k hk
    rw [hflag] at hset
    cases hset
  have honly : ∀ k, (({ s with ejected := true }.setEjector i .won).ejectors k).inWindow = true →
      k = i := by
    intro k hk
    simp only [Host.setEjector, Function.update_apply] at hk
    split_ifs at hk with hki
    · exact hki
    · rw [hnone k] at hk
      cases hk
  refine ⟨fun _ _ => .inr rfl, h.covered, h.horizon, fun _ _ => rfl,
    fun k l hk hl => (honly k hk).trans (honly l hl).symm, fun _ j _ => hclear j, ?_, h.reading,
    h.passed, h.owed, h.lasting⟩
  intro k t hk
  simp only [Host.setEjector, Function.update_apply] at hk
  split_ifs at hk
  exact h.timed k t hk

theorem readClock {i : Nat} (hi : s.ejectors i = .won) :
    Inv base (s.setEjector i (.timed s.now)) := by
  have hin : ∀ k, ((s.setEjector i (.timed s.now)).ejectors k).inWindow = true →
      (s.ejectors k).inWindow = true := by
    intro k hk
    simp only [Host.setEjector, Function.update_apply] at hk
    split_ifs at hk with hki
    · rw [hki, hi]
      rfl
    · exact hk
  refine ⟨h.kept, h.covered, h.horizon, fun k hk => h.window k (hin k hk),
    fun k l hk hl => h.unique k l (hin k hk) (hin l hl),
    fun k l hk => h.exclusive k l (hin k hk), ?_, h.reading, h.passed, h.owed, h.lasting⟩
  intro k t hk
  simp only [Host.setEjector, Function.update_apply] at hk
  split_ifs at hk
  · obtain rfl := Ejector.timed.inj hk
    exact ⟨le_rfl, h.horizon⟩
  · exact h.timed k t hk

theorem store {i : Nat} {t : Int} (hi : s.ejectors i = .timed t)
    (hfit : -2 ^ 63 ≤ t + base ∧ t + base < 2 ^ 63) :
    Inv base ({ s with unejectAtNanos := (t + base).bmod (2 ^ 64)
                       promises := s.promises ++ [t + base] }.setEjector i
      (.returned (some t))) := by
  have hwrap : (t + base).bmod (2 ^ 64) = t + base := by
    apply Int.bmod_eq_of_le <;> omega
  have hwin : (s.ejectors i).inWindow = true := by rw [hi]; rfl
  obtain ⟨hle, hprev⟩ := h.timed i t hi
  have hnone : ∀ k, (({ s with unejectAtNanos := (t + base).bmod (2 ^ 64)
                               promises := s.promises ++ [t + base] }.setEjector i
      (.returned (some t))).ejectors k).inWindow = false := by
    intro k
    simp only [Host.setEjector, Function.update_apply]
    split_ifs with hki
    · rfl
    · rw [Bool.eq_false_iff]
      exact fun hk => hki (h.unique k i hk hwin)
  refine ⟨fun _ _ => .inr (h.window i hwin), ?_, ?_, ?_, ?_, ?_, ?_, h.reading, ?_, ?_,
    h.lasting⟩
  · intro p hp
    change p ≤ (t + base).bmod (2 ^ 64)
    rw [hwrap]
    rcases List.mem_append.mp hp with hp | hp
    · exact hprev p hp
    · exact (List.mem_singleton.mp hp).le
  · intro p hp
    rcases List.mem_append.mp hp with hp | hp
    · exact h.horizon p hp
    · rw [List.mem_singleton.mp hp]
      exact Int.add_le_add_right hle base
  · intro k hk
    rw [hnone k] at hk
    cases hk
  · intro k l hk
    rw [hnone k] at hk
    cases hk
  · intro k l hk
    rw [hnone k] at hk
    cases hk
  · intro k u hk
    have hout := hnone k
    rw [hk] at hout
    cases hout
  · intro j owed c hj
    have hj' : s.checks j = .passed owed c := hj
    have hout := h.exclusive i j hwin
    rw [hj'] at hout
    cases hout
  · intro j p hp
    exact List.mem_append_left _ (h.owed j p hp)

theorem advance (d : Nat) : Inv base { s with now := s.now + d } where
  kept := by
    intro p hp
    rcases h.kept p hp with hle | hflag
    · exact .inl (hle.trans (by dsimp only; omega))
    · exact .inr hflag
  covered := h.covered
  horizon := by
    intro p hp
    have hle := h.horizon p hp
    dsimp only
    omega
  window := h.window
  unique := h.unique
  exclusive := h.exclusive
  timed := by
    intro i t hi
    obtain ⟨hle, hprev⟩ := h.timed i t hi
    exact ⟨by dsimp only; omega, hprev⟩
  reading := by
    intro j owed c hj
    have hle := h.reading j owed c hj
    dsimp only
    omega
  passed := by
    intro j owed c hj
    obtain ⟨hdl, hle⟩ := h.passed j owed c hj
    exact ⟨hdl, by dsimp only; omega⟩
  owed := h.owed
  lasting := h.lasting

theorem clear {j : Nat} {owed : List Int} {c : Int} (hj : s.checks j = .passed owed c) :
    Inv base ({ s with ejected := false }.setCheck j (.notEjected owed c)) := by
  obtain ⟨hdl, hle⟩ := h.passed j owed c hj
  have hcleared : Inv base { s with ejected := false } := by
    refine ⟨?_, h.covered, h.horizon, ?_, h.unique, h.exclusive, h.timed, h.reading, h.passed,
      h.owed, h.lasting⟩
    · intro p hp
      exact .inl ((h.covered p hp).trans (hdl.trans hle))
    · intro i hi
      have hout := h.exclusive i j hi
      rw [hj] at hout
      cases hout
  have howed : ∀ p ∈ owed, p ∈ s.promises := by
    intro p hp
    apply h.owed j
    rw [hj]
    exact hp
  refine hcleared.setCheck j _ (fun hp => by cases hp) (fun _ _ he => by cases he)
    (fun _ _ he => by cases he) howed ?_
  intro owed' c' he
  obtain ⟨rfl, rfl⟩ := Check.notEjected.inj he
  exact fun p hp => (h.covered p (howed p hp)).trans hdl

theorem ejectStep {i : Nat} (hok : Undisturbed base s (.eject i)) :
    Inv base (ejectStep base s i) := by
  unfold EjectionTime.ejectStep
  cases hi : s.ejectors i with
  | idle =>
    apply h.setEjector_out
    split_ifs <;> rfl
  | loaded =>
    simp only [Undisturbed, hi] at hok
    dsimp only
    split_ifs with hflag
    · exact h.setEjector_out i _ rfl
    · have hfalse : s.ejected = false := by simpa using hflag
      exact h.win i hfalse (hok hfalse)
  | won => exact h.readClock hi
  | timed t =>
    simp only [Undisturbed, hi] at hok
    exact h.store hi hok
  | returned t => exact h

theorem checkStep {j : Nat} {available : Bool} (hok : Undisturbed base s (.check j available)) :
    Inv base (checkStep s j available) := by
  have howed : ∀ p ∈ (s.checks j).owed, p ∈ s.promises := h.owed j
  unfold EjectionTime.checkStep
  cases hj : s.checks j with
  | idle =>
    dsimp only
    split_ifs
    · exact h.setCheck_quiet j _ rfl (fun _ _ he => by cases he) (fun _ hp => by cases hp)
        (fun _ _ he => by cases he)
    · exact h.setCheck_quiet j _ rfl (fun _ _ he => by cases he) (fun _ hp => hp)
        (fun _ _ he => by cases he)
  | started owed =>
    rw [hj] at howed
    dsimp only
    split_ifs with hflag
    · exact h.setCheck_quiet j _ rfl (fun _ _ he => by cases he) howed
        (fun _ _ he => by cases he)
    · refine h.setCheck j _ (fun hp => by cases hp) (fun _ _ he => by cases he)
        (fun _ _ he => by cases he) howed ?_
      intro owed' c' he
      obtain ⟨rfl, rfl⟩ := Check.notEjected.inj he
      exact fun p hp => (h.kept p (howed p hp)).resolve_right hflag
  | flagged owed =>
    rw [hj] at howed
    refine h.setCheck_quiet j _ rfl ?_ howed (fun _ _ he => by cases he)
    intro owed' c he
    obtain ⟨rfl, rfl⟩ := Check.timed.inj he
    exact le_rfl
  | timed owed c =>
    rw [hj] at howed
    simp only [Undisturbed, hj] at hok
    dsimp only
    split_ifs with hpast
    · refine h.setCheck j _ (fun _ => hok hpast) (fun _ _ he => by cases he) ?_ howed
        (fun _ _ he => by cases he)
      intro owed' c' he
      obtain ⟨rfl, rfl⟩ := Check.passed.inj he
      exact ⟨hpast, h.reading j owed c hj⟩
    · exact h.setCheck_quiet j _ rfl (fun _ _ he => by cases he) howed
        (fun _ _ he => by cases he)
  | passed owed c => exact h.clear hj
  | unhealthy => exact h
  | ejected owed c => exact h
  | notEjected owed c => exact h

theorem step {e : Event} (hok : Undisturbed base s e) : Inv base (step base s e) := by
  cases e with
  | advance d => exact h.advance d
  | setHealthy b =>
    exact ⟨h.kept, h.covered, h.horizon, h.window, h.unique, h.exclusive, h.timed, h.reading,
      h.passed, h.owed, h.lasting⟩
  | eject i => exact h.ejectStep hok
  | declined i =>
    simp only [EjectionTime.step]
    split
    · exact h.setEjector_out i _ rfl
    · exact h
  | check j available => exact h.checkStep hok

end

theorem initial (base now : Int) : Inv base { now := now } where
  kept := fun p hp => by cases hp
  covered := fun p hp => by cases hp
  horizon := fun p hp => by cases hp
  window := fun i hi => by cases hi
  unique := fun i j hi => by cases hi
  exclusive := fun i j hi => by cases hi
  timed := fun i t hi => by cases hi
  reading := fun j owed c hj => by cases hj
  passed := fun j owed c hj => by cases hj
  owed := fun j p hp => by cases hp
  lasting := fun j owed c hj => by cases hj

end Inv

/-- In every undisturbed run an ejection lasts its full time: no check that begins after it reports
the host as not ejected before `t + base_ejection_time`. -/
theorem lasting_of_undisturbed (base now : Int) (es : List Event)
    (hes : StepsMeet (step base) (Undisturbed base) { now := now } es) :
    ∀ pre, pre <+: es → Lasting (pre.foldl (step base) { now := now }) := by
  rintro pre ⟨rest, rfl⟩
  have hpre := ((stepsMeet_append (step base) (Undisturbed base) pre rest).mp hes).1
  have hstep : ∀ s e, Undisturbed base s e → Inv base s → Inv base (step base s e) :=
    fun s e hok h => h.step hok
  exact (invariant_of_steps hstep pre _ (Inv.initial base now) hpre).lasting

/-- An ejection at 100 for ten units, and a check right after it. -/
def ejectedAt100 : List Event :=
  [.eject 0, .eject 0, .eject 0, .eject 0, .check 0 true, .check 0 true, .check 0 true,
    .check 0 true]

theorem lasting_ejectedAt100 : Lasting (ejectedAt100.foldl (step 10) { now := 100 }) := by
  refine lasting_of_undisturbed 10 100 ejectedAt100 ⟨trivial, fun _ _ => rfl, trivial, ?_, trivial,
    trivial, trivial, ?_, trivial⟩ _ List.prefix_rfl
  · exact ⟨by decide, by decide⟩
  · exact fun hpast => absurd hpast (by decide +kernel)

/-- A scan between the flag and the deadline of an ejection finds the old deadline. -/
def scanInWindow : List Event :=
  [.eject 0, .eject 0, .check 0 false, .check 0 false, .check 0 false, .check 0 false,
    .check 0 false, .eject 0, .eject 0, .check 1 false, .check 1 false]

/-- A check right after an ejection. -/
def checkAtOnce : List Event :=
  [.eject 0, .eject 0, .eject 0, .eject 0, .check 1 false, .check 1 false, .check 1 false,
    .check 1 false, .check 1 false]

/-- The scan un-ejects the host before its deadline is stored; and a base time that overflows the
deadline ejects for no time at all. -/
theorem not_lasting : ¬ Lasting (scanInWindow.foldl (step 10) { now := 100 }) ∧
    ¬ Lasting (checkAtOnce.foldl (step (2 ^ 63 - 1)) { now := 100 }) := by
  refine ⟨?_, ?_⟩
  · intro h
    have hearly := h 1 [110] 100 (by decide +kernel) 110 List.mem_cons_self
    omega
  · intro h
    have hearly := h 1 [2 ^ 63 + 99] 100 (by decide +kernel) (2 ^ 63 + 99) List.mem_cons_self
    omega

end EnvoyGo.EjectionTime

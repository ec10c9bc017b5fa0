import EnvoyGo.Runs
import Mathlib.Data.Finset.Card
import Mathlib.Data.Int.Basic
import Mathlib.Tactic.Linarith

/-!
The drain manager: requests counted in flight, and a channel closed when the count is down to zero
after `Drain`.  One event is one atomic step of a `Drain`, an `Inc` or a `Dec` call; an event that
cannot happen changes nothing.
-/

namespace EnvoyGo.Drain

open Runs

/-- Where a request stands.  `sawZero` is in `Dec`, between the decrement that gave 0 and the load
of the state; `closing` is past that load, on its way to `closeOnce`. -/
inductive RequestPhase
  | idle
  | counted
  | sawZero
  | closing
  | finished
  deriving DecidableEq

/-- Where a `Drain` call stands: before its body, at the store of the state, at the load of the
count, on its way to `closeOnce`, past its return. -/
inductive DrainPhase
  | idle
  | storing
  | loading
  | closing
  | finished
  deriving DecidableEq

/-- A `sync.Once` whose body takes several steps. -/
inductive Once
  | idle
  | running
  | ended
  deriving DecidableEq

/-- `closes` counts how often the channel was closed.  `early` is history: the requests in flight
when the body of `Drain` began. -/
structure Manager where
  draining : Bool := false
  inflight : ℤ := 0
  closes : ℕ := 0
  once : Once := .idle
  closeOnce : Bool := false
  request : ℕ → RequestPhase := fun _ => .idle
  drain : ℕ → DrainPhase := fun _ => .idle
  early : ℕ → Bool := fun _ => false

namespace Manager

def setRequest (m : Manager) (r : ℕ) (p : RequestPhase) : Manager :=
  { m with request := Function.update m.request r p }

def setDrain (m : Manager) (d : ℕ) (p : DrainPhase) : Manager :=
  { m with drain := Function.update m.drain d p }

def closeDone (m : Manager) : Manager :=
  if m.closeOnce then m else { m with closeOnce := true, closes := m.closes + 1 }

def inc (m : Manager) (r : ℕ) : Manager :=
  if m.request r = .idle then { m.setRequest r .counted with inflight := m.inflight + 1 } else m

def decAdd (m : Manager) (r : ℕ) : Manager :=
  if m.request r = .counted then
    { m.setRequest r (if m.inflight - 1 = 0 then .sawZero else .finished) with
      inflight := m.inflight - 1 }
  else m

def decLoad (m : Manager) (r : ℕ) : Manager :=
  if m.request r = .sawZero then
    m.setRequest r (if m.draining then .closing else .finished)
  else m

def decClose (m : Manager) (r : ℕ) : Manager :=
  if m.request r = .closing then m.closeDone.setRequest r .finished else m

def drainEnter (m : Manager) (d : ℕ) : Manager :=
  if m.drain d = .idle then
    match m.once with
    | .idle =>
      { m.setDrain d .storing with
        once := .running
        early := fun r => decide (m.request r = .counted) }
    | .running => m
    | .ended => m.setDrain d .finished
  else m

def drainStore (m : Manager) (d : ℕ) : Manager :=
  if m.drain d = .storing then { m.setDrain d .loading with draining := true } else m

def drainLoad (m : Manager) (d : ℕ) : Manager :=
  if m.drain d = .loading then
    if m.inflight = 0 then m.setDrain d .closing
    else { m.setDrain d .finished with once := .ended }
  else m

def drainClose (m : Manager) (d : ℕ) : Manager :=
  if m.drain d = .closing then { m.closeDone.setDrain d .finished with once := .ended } else m

end Manager

inductive Event
  | inc (r : ℕ)
  | decAdd (r : ℕ)
  | decLoad (r : ℕ)
  | decClose (r : ℕ)
  | drainEnter (d : ℕ)
  | drainStore (d : ℕ)
  | drainLoad (d : ℕ)
  | drainClose (d : ℕ)
  deriving DecidableEq

def step (m : Manager) : Event → Manager
  | .inc r => m.inc r
  | .decAdd r => m.decAdd r
  | .decLoad r => m.decLoad r
  | .decClose r => m.decClose r
  | .drainEnter d => m.drainEnter d
  | .drainStore d => m.drainStore d
  | .drainLoad d => m.drainLoad d
  | .drainClose d => m.drainClose d

/-- The manager after a run from `New`. -/
def run (es : List Event) : Manager := es.foldl step {}

/-- No `Dec` and no `Drain` is between two of its steps. -/
def Manager.AtRest (m : Manager) : Prop :=
  (∀ r, m.request r ≠ .sawZero ∧ m.request r ≠ .closing) ∧
    ∀ d, m.drain d = .idle ∨ m.drain d = .finished

/-- When the body of `Drain` begins, nothing is in flight or no `Dec` has still to act on a zero it
saw. -/
def Calm (m : Manager) : Event → Prop
  | .drainEnter _ => m.once = .idle → m.inflight = 0 ∨ ∀ r, m.request r ≠ .sawZero
  | _ => True

inductive Move (m : Manager) : Event → Manager → Prop
  | still (e : Event) : Move m e m
  | counted (r : ℕ) (h : m.request r = .idle) :
      Move m (.inc r) { m.setRequest r .counted with inflight := m.inflight + 1 }
  | zeroed (r : ℕ) (h : m.request r = .counted) (hzero : m.inflight - 1 = 0) :
      Move m (.decAdd r) { m.setRequest r .sawZero with inflight := m.inflight - 1 }
  | lowered (r : ℕ) (h : m.request r = .counted) (hmore : m.inflight - 1 ≠ 0) :
      Move m (.decAdd r) { m.setRequest r .finished with inflight := m.inflight - 1 }
  | loaded (r : ℕ) (h : m.request r = .sawZero) (hdraining : m.draining = true) :
      Move m (.decLoad r) (m.setRequest r .closing)
  | passed (r : ℕ) (h : m.request r = .sawZero) (hlive : m.draining = false) :
      Move m (.decLoad r) (m.setRequest r .finished)
  | closed (r : ℕ) (h : m.request r = .closing) :
      Move m (.decClose r) (m.closeDone.setRequest r .finished)
  | began (d : ℕ) (h : m.drain d = .idle) (honce : m.once = .idle) :
      Move m (.drainEnter d) { m.setDrain d .storing with
        once := .running
        early := fun r => decide (m.request r = .counted) }
  | repeated (d : ℕ) (h : m.drain d = .idle) (honce : m.once = .ended) :
      Move m (.drainEnter d) (m.setDrain d .finished)
  | stored (d : ℕ) (h : m.drain d = .storing) :
      Move m (.drainStore d) { m.setDrain d .loading with draining := true }
  | empty (d : ℕ) (h : m.drain d = .loading) (hzero : m.inflight = 0) :
      Move m (.drainLoad d) (m.setDrain d .closing)
  | busy (d : ℕ) (h : m.drain d = .loading) (hmore : m.inflight ≠ 0) :
      Move m (.drainLoad d) { m.setDrain d .finished with once := .ended }
  | released (d : ℕ) (h : m.drain d = .closing) :
      Move m (.drainClose d) { m.closeDone.setDrain d .finished with once := .ended }

theorem step_move (m : Manager) (e : Event) : Move m e (step m e) := by
  cases e with
  | inc r =>
    simp only [step, Manager.inc]
    split_ifs with h
    · exact .counted r h
    · exact .still _
  | decAdd r =>
    simp only [step, Manager.decAdd]
    split_ifs with h hzero
    · exact .zeroed r h hzero
    · exact .lowered r h hzero
    · exact .still _
  | decLoad r =>
    simp only [step, Manager.decLoad]
    split_ifs with h hdraining
    · exact .loaded r h hdraining
    · exact .passed r h (by simpa using hdraining)
    · exact .still _
  | decClose r =>
    simp only [step, Manager.decClose]
    split_ifs with h
    · exact .closed r h
    · exact .still _
  | drainEnter d =>
    simp only [step, Manager.drainEnter]
    split_ifs with h
    · cases honce : m.once with
      | idle => exact .began d h honce
      | running => exact .still _
      | ended => exact .repeated d h honce
    · exact .still _
  | drainStore d =>
    simp only [step, Manager.drainStore]
    split_ifs with h
    · exact .stored d h
    · exact .still _
  | drainLoad d =>
    simp only [step, Manager.drainLoad]
    split_ifs with h hzero
    · exact .empty d h hzero
    · exact .busy d h hzero
    · exact .still _
  | drainClose d =>
    simp only [step, Manager.drainClose]
    split_ifs with h
    · exact .released d h
    · exact .still _

def Manager.Counts (m : Manager) : Prop :=
  ∃ live : Finset ℕ, (∀ r, m.request r = .counted ↔ r ∈ live) ∧ m.inflight = live.card

inductive Drains (once : Once) (draining : Bool) (drain : ℕ → DrainPhase) : Prop
  | idle (honce : once = .idle) (hlive : draining = false) (hall : ∀ d, drain d = .idle)
  | running (d : ℕ) (honce : once = .running)
      (hbody : drain d = .storing ∧ draining = false ∨
        (drain d = .loading ∨ drain d = .closing) ∧ draining = true)
      (hothers : ∀ j, j ≠ d → drain j = .idle)
  | ended (d : ℕ) (honce : once = .ended) (hdraining : draining = true)
      (hfinished : drain d = .finished) (hall : ∀ j, drain j = .idle ∨ drain j = .finished)

/-- What holds in every run.  `due` is the promise to close: someone who will look is on the way. -/
structure Manager.Kept (m : Manager) : Prop where
  counts : m.Counts
  drains : Drains m.once m.draining m.drain
  closes : m.closes = if m.closeOnce then 1 else 0
  closing : ∀ r, m.request r = .closing → m.draining = true
  closed : m.closeOnce = true → m.draining = true
  due : m.draining = true → m.closeOnce = false → m.inflight ≠ 0 ∨
    (∃ r, m.request r = .sawZero ∨ m.request r = .closing) ∨
      ∃ d, m.drain d = .loading ∨ m.drain d = .closing
  early : ∀ r, m.early r = true → m.request r ≠ .idle

variable {m : Manager} {d r : ℕ} {p : RequestPhase}

theorem Manager.Counts.insert (h : m.Counts) (hr : m.request r = .idle) :
    Manager.Counts { m.setRequest r .counted with inflight := m.inflight + 1 } := by
  obtain ⟨live, hlive, hcard⟩ := h
  have hnot : r ∉ live := by
    rw [← hlive, hr]
    decide
  refine ⟨Insert.insert r live, ?_, ?_⟩
  · intro j
    change Function.update m.request r .counted j = .counted ↔ _
    by_cases hj : j = r
    · subst hj
      simp only [Function.update_self, Finset.mem_insert_self]
    · rw [Function.update_of_ne hj, hlive, Finset.mem_insert, or_iff_right hj]
  · change m.inflight + 1 = _
    rw [Finset.card_insert_of_notMem hnot, hcard]
    rfl

theorem Manager.Counts.erase (h : m.Counts) (hr : m.request r = .counted) (hp : p ≠ .counted) :
    Manager.Counts { m.setRequest r p with inflight := m.inflight - 1 } := by
  obtain ⟨live, hlive, hcard⟩ := h
  have hmem : r ∈ live := (hlive r).mp hr
  refine ⟨live.erase r, ?_, ?_⟩
  · intro j
    change Function.update m.request r p j = .counted ↔ _
    by_cases hj : j = r
    · subst hj
      rw [Function.update_self]
      simp only [hp, Finset.notMem_erase]
    · rw [Function.update_of_ne hj, hlive, Finset.mem_erase, and_iff_right hj]
  · change m.inflight - 1 = _
    have hpos : 0 < live.card := Finset.card_pos.mpr ⟨r, hmem⟩
    rw [Finset.card_erase_of_mem hmem, hcard]
    omega

theorem Manager.Counts.move (h : m.Counts) (hr : m.request r ≠ .counted) (hp : p ≠ .counted) :
    (m.setRequest r p).Counts := by
  obtain ⟨live, hlive, hcard⟩ := h
  refine ⟨live, ?_, hcard⟩
  intro j
  change Function.update m.request r p j = .counted ↔ _
  by_cases hj : j = r
  · subst hj
    rw [Function.update_self, ← hlive]
    simp only [hp, hr]
  · rw [Function.update_of_ne hj, hlive]

theorem Manager.Counts.pos (h : m.Counts) (hr : m.request r = .counted) : 0 < m.inflight := by
  obtain ⟨live, hlive, hcard⟩ := h
  have hpos : 0 < live.card := Finset.card_pos.mpr ⟨r, (hlive r).mp hr⟩
  omega

theorem Manager.Counts.nonneg (h : m.Counts) : 0 ≤ m.inflight := by
  obtain ⟨live, -, hcard⟩ := h
  omega

theorem counts_closeDone (h : m.Counts) : m.closeDone.Counts := by
  unfold Manager.closeDone
  split_ifs
  · exact h
  · exact h

theorem counts_move {m' : Manager} {e : Event} (h : m.Counts) (hm : Move m e m') : m'.Counts := by
  cases hm with
  | still => exact h
  | counted r hr => exact h.insert hr
  | zeroed r hr hzero => exact h.erase hr (by decide)
  | lowered r hr hmore => exact h.erase hr (by decide)
  | loaded r hr hdraining => exact h.move (by rw [hr]; decide) (by decide)
  | passed r hr hlive => exact h.move (by rw [hr]; decide) (by decide)
  | closed r hr =>
    have hr' : m.closeDone.request r = .closing := by
      unfold Manager.closeDone
      split_ifs
      · exact hr
      · exact hr
    exact (counts_closeDone h).move (by rw [hr']; decide) (by decide)
  | released d hd => exact counts_closeDone h
  | _ => exact h

theorem Manager.Kept.setRequest (h : m.Kept) {n : ℤ}
    (hcounts : Manager.Counts { m.setRequest r p with inflight := n }) (hp : p ≠ .idle)
    (hclosing : p = .closing → m.draining = true)
    (hdue : m.draining = true → m.closeOnce = false → n ≠ 0 ∨ p = .sawZero ∨ p = .closing) :
    Manager.Kept { m.setRequest r p with inflight := n } := by
  refine ⟨hcounts, h.drains, h.closes, ?_, h.closed, ?_, ?_⟩
  · intro j hj
    change Function.update m.request r p j = .closing at hj
    by_cases hjr : j = r
    · subst hjr
      rw [Function.update_self] at hj
      exact hclosing hj
    · rw [Function.update_of_ne hjr] at hj
      exact h.closing j hj
  · intro hdraining hopen
    change n ≠ 0 ∨ (∃ j, Function.update m.request r p j = .sawZero ∨
      Function.update m.request r p j = .closing) ∨ _
    rcases hdue hdraining hopen with hn | hsee
    · exact .inl hn
    · refine .inr (.inl ⟨r, ?_⟩)
      rw [Function.update_self]
      exact hsee
  · intro j hj
    change Function.update m.request r p j ≠ .idle
    by_cases hjr : j = r
    · subst hjr
      rw [Function.update_self]
      exact hp
    · rw [Function.update_of_ne hjr]
      exact h.early j hj

theorem Manager.Kept.closeDone (h : m.Kept) (hdraining : m.draining = true) :
    m.closeDone.Kept ∧ m.closeDone.closeOnce = true := by
  unfold Manager.closeDone
  split_ifs with honce
  · exact ⟨h, honce⟩
  · refine ⟨⟨h.counts, h.drains, ?_, h.closing, fun _ => hdraining, ?_, h.early⟩, rfl⟩
    · have hcloses := h.closes
      rw [if_neg honce] at hcloses
      change m.closes + 1 = 1
      rw [hcloses]
    · intro _ hopen
      cases hopen

theorem Drains.others {once : Once} {draining : Bool} {drain : ℕ → DrainPhase}
    (h : Drains once draining drain) (hidle : drain d ≠ .idle) (hfinished : drain d ≠ .finished) :
    once = .running ∧ (drain d ≠ .storing → draining = true) ∧
      ∀ j, j ≠ d → drain j = .idle := by
  cases h with
  | idle honce hlive hall => exact absurd (hall d) hidle
  | running k honce hbody hothers =>
    have hdk : d = k := by
      by_contra hne
      exact hidle (hothers d hne)
    subst hdk
    refine ⟨honce, ?_, hothers⟩
    intro hpast
    rcases hbody with ⟨hst, -⟩ | ⟨-, hdraining⟩
    · exact absurd hst hpast
    · exact hdraining
  | ended k honce hdraining hf hall =>
    rcases hall d with hd | hd
    · exact absurd hd hidle
    · exact absurd hd hfinished

theorem Drains.start {once : Once} {draining : Bool} {drain : ℕ → DrainPhase}
    (h : Drains once draining drain) (honce : once = .idle) :
    draining = false ∧ ∀ d, drain d = .idle := by
  cases h with
  | idle _ hlive hall => exact ⟨hlive, hall⟩
  | running k hrun => cases honce.symm.trans hrun
  | ended k hend => cases honce.symm.trans hend

theorem Drains.ofRunning {draining : Bool} {drain : ℕ → DrainPhase} {p : DrainPhase}
    (hbody : p = .storing ∧ draining = false ∨ (p = .loading ∨ p = .closing) ∧ draining = true)
    (hothers : ∀ j, j ≠ d → drain j = .idle) :
    Drains .running draining (Function.update drain d p) := by
  refine .running d rfl ?_ ?_
  · rw [Function.update_self]
    exact hbody
  · intro j hj
    rw [Function.update_of_ne hj]
    exact hothers j hj

theorem Drains.ofEnded {drain : ℕ → DrainPhase}
    (hothers : ∀ j, j ≠ d → drain j = .idle ∨ drain j = .finished) :
    Drains .ended true (Function.update drain d .finished) := by
  refine .ended d rfl rfl (Function.update_self ..) ?_
  intro j
  by_cases hj : j = d
  · subst hj
    rw [Function.update_self]
    exact .inr rfl
  · rw [Function.update_of_ne hj]
    exact hothers j hj

theorem kept_move {m' : Manager} {e : Event} (h : m.Kept) (hm : Move m e m') : m'.Kept := by
  have hcounts := counts_move h.counts hm
  have hnonneg := h.counts.nonneg
  cases hm with
  | still => exact h
  | counted r hr =>
    refine h.setRequest hcounts (by decide) (fun hp => by cases hp) ?_
    intro _ _
    left
    omega
  | zeroed r hr hzero =>
    refine h.setRequest hcounts (by decide) (fun hp => by cases hp) ?_
    exact fun _ _ => .inr (.inl rfl)
  | lowered r hr hmore =>
    refine h.setRequest hcounts (by decide) (fun hp => by cases hp) ?_
    exact fun _ _ => .inl hmore
  | loaded r hr hdraining =>
    exact h.setRequest hcounts (by decide) (fun _ => hdraining) (fun _ _ => .inr (.inr rfl))
  | passed r hr hlive =>
    refine h.setRequest hcounts (by decide) (fun hp => by cases hp) ?_
    intro hdraining
    rw [hlive] at hdraining
    cases hdraining
  | closed r hr =>
    obtain ⟨hkept, honce⟩ := h.closeDone (h.closing r hr)
    refine hkept.setRequest hcounts (by decide) (fun hp => by cases hp) ?_
    intro _ hopen
    rw [honce] at hopen
    cases hopen
  | began d hd honce =>
    obtain ⟨hlive, hall⟩ := h.drains.start honce
    refine ⟨hcounts, ?_, h.closes, h.closing, h.closed, ?_, ?_⟩
    · exact .ofRunning (.inl ⟨rfl, hlive⟩) (fun j _ => hall j)
    · intro hdraining
      cases hlive.symm.trans hdraining
    · intro r hr
      have hcounted : m.request r = .counted := of_decide_eq_true hr
      change m.request r ≠ .idle
      rw [hcounted]
      decide
  | repeated d hd honce =>
    have hend : m.draining = true ∧ ∀ j, m.drain j = .idle ∨ m.drain j = .finished := by
      cases h.drains with
      | idle hidle => cases honce.symm.trans hidle
      | running k hrun => cases honce.symm.trans hrun
      | ended k _ hdraining _ hall => exact ⟨hdraining, hall⟩
    obtain ⟨hdraining, hall⟩ := hend
    refine ⟨hcounts, ?_, h.closes, h.closing, h.closed, ?_, h.early⟩
    · have hdrains := Drains.ofEnded (d := d) (fun j _ => hall j)
      rw [← honce, ← hdraining] at hdrains
      exact hdrains
    · intro _ hopen
      rcases h.due hdraining hopen with hn | hr | ⟨j, hj⟩
      · exact .inl hn
      · exact .inr (.inl hr)
      · rcases hall j with hall | hall
        · rw [hall] at hj
          simp at hj
        · rw [hall] at hj
          simp at hj
  | stored d hd =>
    obtain ⟨honce, -, hothers⟩ :=
      h.drains.others (d := d) (by rw [hd]; decide) (by rw [hd]; decide)
    refine ⟨hcounts, ?_, h.closes, fun _ _ => rfl, fun _ => rfl, ?_, h.early⟩
    · have hdrains := Drains.ofRunning (p := .loading) (.inr ⟨.inl rfl, rfl⟩) hothers
      rw [← honce] at hdrains
      exact hdrains
    · intro _ _
      exact .inr (.inr ⟨d, .inl (Function.update_self ..)⟩)
  | empty d hd hzero =>
    obtain ⟨honce, hpast, hothers⟩ :=
      h.drains.others (d := d) (by rw [hd]; decide) (by rw [hd]; decide)
    have hdraining := hpast (by rw [hd]; decide)
    refine ⟨hcounts, ?_, h.closes, h.closing, h.closed, ?_, h.early⟩
    · have hdrains := Drains.ofRunning (p := .closing) (.inr ⟨.inr rfl, rfl⟩) hothers
      rw [← honce, ← hdraining] at hdrains
      exact hdrains
    · intro _ _
      exact .inr (.inr ⟨d, .inr (Function.update_self ..)⟩)
  | busy d hd hmore =>
    obtain ⟨-, hpast, hothers⟩ :=
      h.drains.others (d := d) (by rw [hd]; decide) (by rw [hd]; decide)
    have hdraining := hpast (by rw [hd]; decide)
    refine ⟨hcounts, ?_, h.closes, h.closing, h.closed, fun _ _ => .inl hmore, h.early⟩
    have hdrains := Drains.ofEnded (fun j hj => .inl (hothers j hj))
    rw [← hdraining] at hdrains
    exact hdrains
  | released d hd =>
    obtain ⟨-, hpast, hothers⟩ :=
      h.drains.others (d := d) (by rw [hd]; decide) (by rw [hd]; decide)
    have hdraining := hpast (by rw [hd]; decide)
    obtain ⟨hkept, hclosed⟩ := h.closeDone hdraining
    have hdrain : m.closeDone.drain = m.drain ∧ m.closeDone.draining = m.draining := by
      unfold Manager.closeDone
      split_ifs
      · exact ⟨rfl, rfl⟩
      · exact ⟨rfl, rfl⟩
    refine ⟨hcounts, ?_, hkept.closes, hkept.closing, hkept.closed, ?_, hkept.early⟩
    · have hdrains := Drains.ofEnded (fun j hj => .inl (hothers j hj))
      rw [← hdraining, ← hdrain.1, ← hdrain.2] at hdrains
      exact hdrains
    · intro _ hopen
      cases hclosed.symm.trans hopen

/-- While a request of before `Drain` is in flight, nothing is closed and no one is on the way to
close. -/
def Manager.Spared (m : Manager) : Prop :=
  ∀ r, m.early r = true → m.request r = .counted →
    m.closeOnce = false ∧ (∀ j, m.request j ≠ .sawZero ∧ m.request j ≠ .closing) ∧
      ∀ d, m.drain d ≠ .closing

theorem Manager.Spared.setRequest (h : m.Spared) {j : ℕ} {n : ℤ}
    (hp : p = .counted → m.early j = false)
    (hzero : p = .sawZero ∨ p = .closing → ∀ r, r ≠ j → m.request r ≠ .counted) :
    Manager.Spared { m.setRequest j p with inflight := n } := by
  intro r hearly hr
  change m.early r = true at hearly
  change Function.update m.request j p r = .counted at hr
  by_cases hrj : r = j
  · subst hrj
    rw [Function.update_self] at hr
    rw [hp hr] at hearly
    cases hearly
  · rw [Function.update_of_ne hrj] at hr
    obtain ⟨hopen, hnone, hdrain⟩ := h r hearly hr
    refine ⟨hopen, ?_, hdrain⟩
    intro i
    change Function.update m.request j p i ≠ .sawZero ∧ Function.update m.request j p i ≠ .closing
    by_cases hij : i = j
    · subst hij
      rw [Function.update_self]
      constructor
      · exact fun hz => hzero (.inl hz) r hrj hr
      · exact fun hz => hzero (.inr hz) r hrj hr
    · rw [Function.update_of_ne hij]
      exact hnone i

theorem Manager.Counts.idle (h : m.Counts) (hzero : m.inflight = 0) (r : ℕ) :
    m.request r ≠ .counted := by
  intro hr
  have hpos := h.pos hr
  omega

theorem Manager.Spared.none (h : m.Spared)
    (hlook : (∃ j, m.request j = .sawZero ∨ m.request j = .closing) ∨ ∃ d, m.drain d = .closing)
    (r : ℕ) (hearly : m.early r = true) : m.request r ≠ .counted := by
  intro hr
  obtain ⟨-, hnone, hdrain⟩ := h r hearly hr
  rcases hlook with ⟨j, hj | hj⟩ | ⟨d, hd⟩
  · exact (hnone j).1 hj
  · exact (hnone j).2 hj
  · exact hdrain d hd

theorem closeDone_same (m : Manager) :
    m.closeDone.early = m.early ∧ m.closeDone.request = m.request := by
  unfold Manager.closeDone
  split_ifs
  · exact ⟨rfl, rfl⟩
  · exact ⟨rfl, rfl⟩

theorem drain_ne_closing {drain : ℕ → DrainPhase} (h : ∀ d, drain d ≠ .closing) {p : DrainPhase}
    (hp : p ≠ .closing) (j : ℕ) : Function.update drain d p j ≠ .closing := by
  by_cases hj : j = d
  · subst hj
    rw [Function.update_self]
    exact hp
  · rw [Function.update_of_ne hj]
    exact h j

theorem spared_move {m' : Manager} {e : Event} (hk : m.Kept) (hok : Calm m e) (h : m.Spared)
    (hm : Move m e m') : m'.Spared := by
  have hcounts := counts_move hk.counts hm
  cases hm with
  | still => exact h
  | counted r hr =>
    refine h.setRequest ?_ (fun hp => by simp at hp)
    intro _
    by_contra hearly
    exact hk.early r (by simpa using hearly) hr
  | zeroed r hr hzero =>
    refine h.setRequest (fun hp => by cases hp) ?_
    intro _ j hj
    have hnot := hcounts.idle hzero j
    change Function.update m.request r .sawZero j ≠ .counted at hnot
    rw [Function.update_of_ne hj] at hnot
    exact hnot
  | lowered r hr hmore => exact h.setRequest (fun hp => by cases hp) (fun hp => by simp at hp)
  | loaded r hr hdraining =>
    intro j hearly hj
    change m.early j = true at hearly
    change Function.update m.request r .closing j = .counted at hj
    have hjr : j ≠ r := by
      rintro rfl
      rw [Function.update_self] at hj
      cases hj
    rw [Function.update_of_ne hjr] at hj
    exact absurd hj (h.none (.inl ⟨r, .inl hr⟩) j hearly)
  | passed r hr hlive => exact h.setRequest (fun hp => by cases hp) (fun hp => by simp at hp)
  | closed r hr =>
    intro j hearly hj
    obtain ⟨hsame, hrequest⟩ := closeDone_same m
    change m.closeDone.early j = true at hearly
    change Function.update m.closeDone.request r .finished j = .counted at hj
    have hjr : j ≠ r := by
      rintro rfl
      rw [Function.update_self] at hj
      cases hj
    rw [Function.update_of_ne hjr, hrequest] at hj
    rw [hsame] at hearly
    exact absurd hj (h.none (.inl ⟨r, .inr hr⟩) j hearly)
  | began d hd honce =>
    obtain ⟨hlive, hall⟩ := hk.drains.start honce
    intro r _ hr
    have hpos := hk.counts.pos hr
    refine ⟨?_, ?_, ?_⟩
    · change m.closeOnce = false
      by_contra hclosed
      cases hlive.symm.trans (hk.closed (by simpa using hclosed))
    · intro j
      constructor
      · rcases hok honce with hzero | hnone
        · omega
        · exact hnone j
      · intro hj
        cases hlive.symm.trans (hk.closing j hj)
    · exact drain_ne_closing (fun j => by rw [hall j]; decide) (by decide)
  | repeated d hd honce =>
    intro r hearly hr
    obtain ⟨hopen, hnone, hdrain⟩ := h r hearly hr
    exact ⟨hopen, hnone, drain_ne_closing hdrain (by decide)⟩
  | stored d hd =>
    intro r hearly hr
    obtain ⟨hopen, hnone, hdrain⟩ := h r hearly hr
    exact ⟨hopen, hnone, drain_ne_closing hdrain (by decide)⟩
  | empty d hd hzero =>
    intro r _ hr
    exact absurd hr (hk.counts.idle hzero r)
  | busy d hd hmore =>
    intro r hearly hr
    obtain ⟨hopen, hnone, hdrain⟩ := h r hearly hr
    exact ⟨hopen, hnone, drain_ne_closing hdrain (by decide)⟩
  | released d hd =>
    intro r hearly hr
    obtain ⟨hsame, hrequest⟩ := closeDone_same m
    change m.closeDone.early r = true at hearly
    change m.closeDone.request r = .counted at hr
    rw [hrequest] at hr
    rw [hsame] at hearly
    exact absurd hr (h.none (.inr ⟨d, hd⟩) r hearly)

theorem kept_new : Manager.Kept {} := by
  refine ⟨⟨∅, ?_, rfl⟩, .idle rfl rfl (fun _ => rfl), rfl, ?_, ?_, ?_, ?_⟩
  · intro r
    exact ⟨fun hr => (by cases hr), fun hr => absurd hr (Finset.notMem_empty r)⟩
  · exact fun r hr => by cases hr
  · exact fun hclosed => by cases hclosed
  · exact fun hdraining => by cases hdraining
  · exact fun r hr => by cases hr

theorem spared_new : Manager.Spared {} := fun r hr => by cases hr

/-- The done channel is closed at most once, only after a `Drain` began, and is closed once a
`Drain` has returned and the calls are at rest with nothing in flight.  A request counted before
`Drain` began is not in flight once it is closed, if no stale zero was on the way then. -/
theorem drain_completes (es : List Event) :
    (run es).closes ≤ 1 ∧
      (0 < (run es).closes → ∃ d, (run es).drain d ≠ .idle) ∧
      ((run es).AtRest → (∃ d, (run es).drain d = .finished) → (run es).inflight = 0 →
        (run es).closes = 1) ∧
      (StepsMeet step Calm {} es → 0 < (run es).closes →
        ∀ r, (run es).early r = true → (run es).request r ≠ .counted) := by
  have hkept : (run es).Kept :=
    invariant_of_run (fun m e h => kept_move h (step_move m e)) es _ kept_new
  have hcloses := hkept.closes
  refine ⟨?_, ?_, ?_, ?_⟩
  · rw [hcloses]
    split_ifs
    · exact le_refl 1
    · exact Nat.zero_le 1
  · intro hpos
    have hclosed : (run es).closeOnce = true := by
      by_contra hopen
      rw [if_neg hopen] at hcloses
      omega
    have hdraining := hkept.closed hclosed
    cases hkept.drains with
    | idle _ hlive _ => cases hlive.symm.trans hdraining
    | running d _ hbody _ =>
      refine ⟨d, ?_⟩
      rcases hbody with ⟨hd, -⟩ | ⟨hd | hd, -⟩
      · rw [hd]; decide
      · rw [hd]; decide
      · rw [hd]; decide
    | ended d _ _ hd _ => exact ⟨d, by rw [hd]; decide⟩
  · rintro ⟨hrequests, hdrains⟩ ⟨d, hd⟩ hzero
    have hdraining : (run es).draining = true := by
      cases hkept.drains with
      | idle _ _ hall => cases (hall d).symm.trans hd
      | running k _ hbody _ =>
        rcases hbody with ⟨hst, -⟩ | ⟨-, hdraining⟩
        · rcases hdrains k with hk | hk
          · cases hst.symm.trans hk
          · cases hst.symm.trans hk
        · exact hdraining
      | ended _ _ hdraining _ _ => exact hdraining
    have hclosed : (run es).closeOnce = true := by
      by_contra hopen
      rcases hkept.due hdraining (by simpa using hopen) with hn | ⟨r, hr⟩ | ⟨k, hk⟩
      · exact hn hzero
      · rcases hr with hr | hr
        · exact (hrequests r).1 hr
        · exact (hrequests r).2 hr
      · rcases hdrains k with hidle | hdone
        · rw [hidle] at hk
          simp at hk
        · rw [hdone] at hk
          simp at hk
    rw [hcloses, if_pos hclosed]
  · intro hes hpos r hearly hr
    have hstep : ∀ (m : Manager) (e : Event), Calm m e → m.Kept ∧ m.Spared →
        (step m e).Kept ∧ (step m e).Spared := by
      intro m e hok h
      exact ⟨kept_move h.1 (step_move m e), spared_move h.1 hok h.2 (step_move m e)⟩
    have hspared : (run es).Spared :=
      (invariant_of_steps hstep es _ ⟨kept_new, spared_new⟩ hes).2
    have hopen := (hspared r hearly hr).1
    rw [hopen] at hcloses
    simp at hcloses
    omega

/-- A request in flight at `Drain` that ends after it. -/
def drained : List Event :=
  [.inc 0, .drainEnter 0, .drainStore 0, .drainLoad 0, .decAdd 0, .decLoad 0, .decClose 0]

theorem drain_completes_drained :
    StepsMeet step Calm {} drained ∧ 0 < (run drained).closes ∧
      ∀ r, (run drained).early r = true → (run drained).request r ≠ .counted := by
  have hmeets : StepsMeet step Calm {} drained := by
    refine ⟨trivial, ?_, trivial, trivial, trivial, trivial, trivial, trivial⟩
    intro _
    right
    intro r
    change Function.update (fun _ => RequestPhase.idle) 0 .counted r ≠ .sawZero
    by_cases hr : r = 0
    · subst hr
      decide
    · rw [Function.update_of_ne hr]
      decide
  have hclosed : 0 < (run drained).closes := by decide
  exact ⟨hmeets, hclosed, (drain_completes drained).2.2.2 hmeets hclosed⟩

/-- The zero that request 0 saw before `Drain` closes the channel while request 1, counted before
`Drain` began, is in flight. -/
theorem not_drain_spares_early :
    ¬ ∀ es, 0 < (run es).closes →
      ∀ r, (run es).early r = true → (run es).request r ≠ .counted := by
  intro h
  exact h [.inc 0, .decAdd 0, .inc 1, .drainEnter 0, .drainStore 0, .drainLoad 0, .decLoad 0,
    .decClose 0] (by decide) 1 (by decide) (by decide)

end EnvoyGo.Drain

import Mathlib.Tactic.Ring
import EnvoyGo.H2PoolSlots

/-!
Connect-time coalescing: acquirers of one endpoint that come while connections to it are dialed
share them, so that no more connections are dialed than their streams need.
-/

namespace EnvoyGo.H2Pool

open Tally Cluster Runs

/-- What happens when acquirers of one endpoint come and no dial fails, nobody cancels, nothing is
released and the peer neither drains nor tears down. -/
def coalescing (a : String) : Event → Bool
  | .pick .acquireH2Stream b => b = a
  | .acquireH2Stream _ | .dialSucceeds _ | .poolConnecting _ | .attachReady _ => true
  | _ => false

def isPick : Event → Bool
  | .pick _ _ => true
  | _ => false

def Dialed (s : Cluster) (i : CallId) : Prop :=
  (s.calls i).phase = .connecting ∨ (s.conns i).opened = true

instance (s : Cluster) (i : CallId) : Decidable (Dialed s i) := inferInstanceAs (Decidable (_ ∨ _))

/-- The connections dialed in total. -/
def dials (s : Cluster) : ℤ := tally s.next fun i => if Dialed s i then 1 else 0

def taken (s : Cluster) : ℤ := tally s.next fun i => if (s.calls i).phase = .picked then 0 else 1

def Phase.distance : Phase → ℤ
  | .picked => 3
  | .connecting => 2
  | .shaking => 1
  | .attached _ => 1
  | _ => 0

def distance (s : Cluster) : ℤ := tally s.next fun i => (s.calls i).phase.distance

/-- No acquirer, dial or attached waiter can go on. -/
def AtRest (a : String) (s : Cluster) : Prop :=
  ∀ e, coalescing a e = true → isPick e = false → step s e = s

def Phase.placed : Phase → Bool
  | .picked | .connecting | .shaking | .attached _ | .riding _ => true
  | _ => false

/-- The acquirers share connections of `C` streams: once all have taken a place, as many are dialed
as they need; no acquirer is refused or queued; every step brings one nearer to its stream, and
when nothing is left to do every acquirer has one on a pooled connection. -/
structure Coalesced (a : String) (C : ℕ) (s : Cluster) : Prop where
  served : ∀ i < s.next, (s.calls i).phase.placed = true
  dialed : (∀ i < s.next, (s.calls i).phase ≠ .picked) →
    dials s = ((s.next + C - 1) / C : ℕ)
  progress : ∀ e, coalescing a e = true → isPick e = false →
    step s e = s ∨ distance (step s e) < distance s
  obtained : AtRest a s → ∀ i < s.next, ∃ k ∈ s.h2Pool a, (s.calls i).phase = .riding k

def Packed (C : ℕ) (s : Cluster) : Prop :=
  ((∀ k, Dialed s k → s.view.slots k = C) ∧ taken s = dials s * C) ∨
  ∃ k, Dialed s k ∧ 0 < s.view.slots k ∧ s.view.slots k < C ∧
    (∀ j, Dialed s j → j ≠ k → s.view.slots j = C) ∧
    taken s = (dials s - 1) * C + s.view.slots k

/-- What holds while at most `K` acquirers come.  Whoever has a connection rides it, and it stays
in the pool. -/
structure Packing (a : String) (K C : ℕ) (s : Cluster) : Prop where
  slotInv : SlotInv s
  cap : s.h2MaxConcurrentStreams = C
  le : s.next ≤ K
  own : ∀ i < s.next, (s.calls i).api = .acquireH2Stream ∧ (s.calls i).addr = a
  placed : ∀ i < s.next, (s.calls i).phase.placed = true
  live : ∀ k, s.live k = true
  settled : ∀ k, (s.cns k).ready ≠ none → (s.cns k).ready = some .established ∧
    (s.calls k).phase = .riding k ∧ k ∈ s.h2Pool a
  opened : ∀ i, (s.conns i).opened = true ↔
    (s.calls i).phase = .shaking ∨ (s.calls i).phase = .riding i
  permits : ∀ p, s.pool = some p → p.activeConns = dials s ∧
    (((K + C - 1) / C : ℕ) : ℤ) ≤ p.maxConnections
  packed : Packed C s

namespace Packing

variable {a : String} {K C : ℕ} {s : Cluster}

variable (h : Packing a K C s)

include h

theorem shape : Shape s.view := h.slotInv.accounted.toShape

theorem fresh {i : CallId} (hi : s.next ≤ i) : (s.calls i).phase = .idle :=
  h.shape.fresh i hi

theorem lt_next {i : CallId} (hi : (s.calls i).phase ≠ .idle) : i < s.next := by
  by_contra hge
  exact hi (h.fresh (not_lt.mp hge))

theorem placed_or_idle (i : CallId) :
    (s.calls i).phase = .idle ∨ (s.calls i).phase.placed = true := by
  by_cases hi : i < s.next
  · exact .inr (h.placed i hi)
  · exact .inl (h.fresh (not_lt.mp hi))

theorem h2Waiters_nil (b : String) : s.h2Waiters b = [] := by
  apply List.eq_nil_iff_forall_not_mem.mpr
  intro i hi
  have hq : (s.calls i).phase = .queued := ((h.shape.mem_waiters b i).mp hi).1
  have hp := h.placed_or_idle i
  rw [hq] at hp
  rcases hp with hp | hp
  · cases hp
  · cases hp

theorem of_riding {i k : CallId} (hi : (s.calls i).phase = .riding k) :
    (s.calls k).phase = .riding k ∧ k ∈ s.h2Pool a := by
  have hready : (s.cns k).ready = some .established := h.shape.riding i k (.inl hi)
  exact (h.settled k (by rw [hready]; simp)).2

theorem dialed_of_pooled {k : CallId} (hk : k ∈ s.h2Pool a) :
    Dialed s k ∧ (s.calls k).phase = .riding k := by
  have hready : (s.cns k).ready = some .established := (h.shape.pooled a k hk).2
  have hride := (h.settled k (by rw [hready]; simp)).2.1
  exact ⟨.inr ((h.opened k).mpr (.inr hride)), hride⟩

theorem dialed_of_connecting {k : CallId} (hk : k ∈ s.h2Connecting a) :
    Dialed s k ∧ (s.calls k).phase.initiates = true := by
  have hinit : (s.calls k).phase.initiates = true := ((h.shape.mem_connecting a k).mp hk).1
  refine ⟨?_, hinit⟩
  have hp := h.placed_or_idle k
  cases hphase : (s.calls k).phase with
  | connecting => exact .inl hphase
  | shaking => exact .inr ((h.opened k).mpr (.inl hphase))
  | dialFailed =>
    rw [hphase] at hp
    rcases hp with hp | hp <;> cases hp
  | _ =>
    rw [hphase] at hinit
    cases hinit

theorem dialed_cases {k : CallId} (hk : Dialed s k) : k ∈ s.h2Connecting a ∨ k ∈ s.h2Pool a := by
  have hmem : (s.calls k).phase.initiates = true → k ∈ s.h2Connecting a := by
    intro hinit
    have hlt : k < s.next := h.lt_next (by intro hidle; rw [hidle] at hinit; cases hinit)
    exact (h.shape.mem_connecting a k).mpr ⟨hinit, (h.own k hlt).2⟩
  rcases hk with hk | hk
  · exact .inl (hmem (by rw [hk]; rfl))
  · rcases (h.opened k).mp hk with hs | hr
    · exact .inl (hmem (by rw [hs]; rfl))
    · exact .inr (h.of_riding hr).2

theorem lt_of_dialed {k : CallId} (hk : Dialed s k) : k < s.next := by
  apply h.lt_next
  intro hidle
  rcases hk with hk | hk
  · rw [hidle] at hk
    cases hk
  · rcases (h.opened k).mp hk with hs | hs
    · rw [hidle] at hs
      cases hs
    · rw [hidle] at hs
      cases hs

theorem full_of_no_hit (hhit : s.findStreamHitLocked a = none)
    (hcn : s.findConnectingHitLocked a = none) {k : CallId} (hk : Dialed s k) :
    s.view.slots k = C := by
  have hcap : s.view.cap = C := h.cap
  rcases h.dialed_cases hk with hmem | hmem
  · have hcount := h.slotInv.accounted.promised a k hmem
    have hge : ¬ (s.cns k).promised < s.h2MaxConcurrentStreams := by
      simpa using List.find?_eq_none.mp hcn k hmem
    rw [h.cap] at hge
    have hpr : s.view.promised k = (s.cns k).promised := rfl
    omega
  · have hcount := h.slotInv.accounted.inFlight a k hmem
    have hge : ¬ (s.pcs k).inFlight < s.h2MaxConcurrentStreams := by
      have hnone := List.find?_eq_none.mp hhit k hmem
      simpa [h.live k] using hnone
    rw [h.cap] at hge
    have hpr : s.view.inFlight k = (s.pcs k).inFlight := rfl
    omega

end Packing

structure Moves (s t : Cluster) (i : CallId) : Prop where
  next : t.next = s.next
  cap : t.h2MaxConcurrentStreams = s.h2MaxConcurrentStreams
  own : ∀ j, (t.calls j).api = (s.calls j).api ∧ (t.calls j).addr = (s.calls j).addr
  phase : ∀ j, j ≠ i → (t.calls j).phase = (s.calls j).phase
  opened : ∀ j, j ≠ i → (t.conns j).opened = (s.conns j).opened
  live : ∀ k, t.live k = s.live k

namespace Moves

variable {s t : Cluster} {i : CallId}

theorem dialed (m : Moves s t i) {j : CallId} (hj : j ≠ i) : Dialed t j ↔ Dialed s j := by
  unfold Dialed
  rw [m.phase j hj, m.opened j hj]

theorem slots (m : Moves s t i) (hi : i < s.next) (k : CallId) :
    t.view.slots k =
      s.view.slots k + (holds i (t.calls i).phase k - holds i (s.calls i).phase k) := by
  have hrest : ∀ j, j ≠ i → holds j (t.calls j).phase k = holds j (s.calls j).phase k := by
    intro j hj
    rw [m.phase j hj]
  have hmove := tally_replace hi hrest
  change tally t.next _ = _
  rw [m.next]
  exact hmove

theorem taken_eq (m : Moves s t i) (hi : i < s.next) :
    taken t = taken s + ((if (t.calls i).phase = .picked then 0 else 1) -
      (if (s.calls i).phase = .picked then 0 else 1)) := by
  have hrest : ∀ j, j ≠ i → (if (t.calls j).phase = .picked then (0 : ℤ) else 1) =
      if (s.calls j).phase = .picked then 0 else 1 := by
    intro j hj
    rw [m.phase j hj]
  have hmove := tally_replace hi hrest
  unfold taken
  rw [m.next]
  exact hmove

theorem dials_eq (m : Moves s t i) (hi : i < s.next) :
    dials t = dials s + ((if Dialed t i then 1 else 0) - (if Dialed s i then 1 else 0)) := by
  have hrest : ∀ j, j ≠ i →
      (if Dialed t j then (1 : ℤ) else 0) = if Dialed s j then 1 else 0 := by
    intro j hj
    simp only [m.dialed hj]
  have hmove := tally_replace hi hrest
  unfold dials
  rw [m.next]
  exact hmove

theorem distance_eq (m : Moves s t i) (hi : i < s.next) :
    distance t = distance s + ((t.calls i).phase.distance - (s.calls i).phase.distance) := by
  have hrest : ∀ j, j ≠ i → (t.calls j).phase.distance = (s.calls j).phase.distance := by
    intro j hj
    rw [m.phase j hj]
  have hmove := tally_replace hi hrest
  unfold distance
  rw [m.next]
  exact hmove

theorem of_same (i : CallId) (hnext : t.next = s.next)
    (hcap : t.h2MaxConcurrentStreams = s.h2MaxConcurrentStreams) (hcalls : t.calls = s.calls)
    (hconns : t.conns = s.conns) : Moves s t i where
  next := hnext
  cap := hcap
  own := by
    intro j
    rw [hcalls]
    exact ⟨rfl, rfl⟩
  phase := by
    intro j _
    rw [hcalls]
  opened := by
    intro j _
    rw [hconns]
  live := by
    intro k
    rw [Cluster.live, Cluster.live, hconns]

theorem trans {u : Cluster} (m : Moves s t i) (n : Moves t u i) :
    Moves s u i where
  next := n.next.trans m.next
  cap := n.cap.trans m.cap
  own j := ⟨(n.own j).1.trans (m.own j).1, (n.own j).2.trans (m.own j).2⟩
  phase j hj := (n.phase j hj).trans (m.phase j hj)
  opened j hj := (n.opened j hj).trans (m.opened j hj)
  live k := (n.live k).trans (m.live k)

theorem setConn (m : Moves s t i) {c : Conn}
    (hclosed : c.closed = (t.conns i).closed) (hgone : c.goneAway = (t.conns i).goneAway) :
    Moves s (t.setConn i c) i where
  next := m.next
  cap := m.cap
  own := m.own
  phase := m.phase
  opened := by
    intro j hj
    rw [← m.opened j hj]
    simp only [Cluster.setConn, Function.update_of_ne hj]
  live := by
    intro k
    rw [← m.live k]
    unfold Cluster.live
    simp only [Cluster.setConn, Function.update_apply]
    split_ifs with hk
    · rw [hk, hclosed, hgone]
    · rfl

theorem setCall (m : Moves s t i) {c : Call}
    (hapi : c.api = (t.calls i).api) (haddr : c.addr = (t.calls i).addr) :
    Moves s (t.setCall i c) i where
  next := m.next
  cap := m.cap
  own := by
    intro j
    rw [← (m.own j).1, ← (m.own j).2]
    simp only [Cluster.setCall, Function.update_apply]
    split_ifs with hj
    · subst hj
      exact ⟨hapi, haddr⟩
    · exact ⟨rfl, rfl⟩
  phase := by
    intro j hj
    rw [← m.phase j hj]
    simp only [Cluster.setCall, Function.update_of_ne hj]
  opened := m.opened
  live := m.live

theorem setPhase (m : Moves s t i) (p : Phase) :
    Moves s (t.setPhase i p) i :=
  m.setCall rfl rfl

theorem refl (s : Cluster) (i : CallId) : Moves s s i := .of_same i rfl rfl rfl rfl

theorem register (s : Cluster) (i : CallId) : Moves s (s.register i) i := by
  apply setPhase
  exact .of_same i rfl rfl rfl rfl

end Moves

namespace Packing

variable {a : String} {K C : ℕ} {s t : Cluster} {i : CallId}

section

variable (h : Packing a K C s)

include h

theorem moves (m : Moves s t i) (hinv : SlotInv t) (hplaced : (t.calls i).phase.placed = true)
    (hsettled : ∀ k, (t.cns k).ready ≠ none → (t.cns k).ready = some .established ∧
      (t.calls k).phase = .riding k ∧ k ∈ t.h2Pool a) (hopened : (t.conns i).opened = true ↔
      (t.calls i).phase = .shaking ∨ (t.calls i).phase = .riding i)
    (hpermits : ∀ p, t.pool = some p → p.activeConns = dials t ∧
      (((K + C - 1) / C : ℕ) : ℤ) ≤ p.maxConnections) (hpacked : Packed C t) : Packing a K C t where
  slotInv := hinv
  cap := m.cap.trans h.cap
  le := m.next.trans_le h.le
  own := by
    intro j hj
    rw [(m.own j).1, (m.own j).2]
    exact h.own j (m.next ▸ hj)
  placed := by
    intro j hj
    by_cases hji : j = i
    · rw [hji]
      exact hplaced
    · rw [m.phase j hji]
      exact h.placed j (m.next ▸ hj)
  live := fun k => (m.live k).trans (h.live k)
  settled := hsettled
  opened := by
    intro j
    by_cases hji : j = i
    · rw [hji]
      exact hopened
    · rw [m.phase j hji, m.opened j hji]
      exact h.opened j
  permits := hpermits
  packed := hpacked

theorem shift (m : Moves s t i) (hi : i < s.next) (hinv : SlotInv t)
    (hplaced : (t.calls i).phase.placed = true)
    (hsettled : ∀ k, (t.cns k).ready ≠ none → (t.cns k).ready = some .established ∧
      (t.calls k).phase = .riding k ∧ k ∈ t.h2Pool a) (hopened : (t.conns i).opened = true ↔
      (t.calls i).phase = .shaking ∨ (t.calls i).phase = .riding i) (hpool : t.pool = s.pool)
    (hslot : slotOf i (t.calls i).phase = slotOf i (s.calls i).phase)
    (hpicked : (s.calls i).phase ≠ .picked ∧ (t.calls i).phase ≠ .picked)
    (hdialed : Dialed t i ↔ Dialed s i) : Packing a K C t := by
  have hslots : ∀ k, t.view.slots k = s.view.slots k := by
    intro k
    rw [m.slots hi, holds, holds, hslot]
    omega
  have htaken : taken t = taken s := by
    rw [m.taken_eq hi, if_neg hpicked.1, if_neg hpicked.2]
    omega
  have hall : ∀ j, Dialed t j ↔ Dialed s j := by
    intro j
    by_cases hji : j = i
    · rw [hji]
      exact hdialed
    · exact m.dialed hji
  have hdials : dials t = dials s := by
    rw [m.dials_eq hi]
    simp only [hdialed]
    omega
  apply h.moves m hinv hplaced hsettled hopened
  · intro p hp
    rw [hdials]
    exact h.permits p (hpool ▸ hp)
  · simpa only [Packed, hslots, htaken, hall, hdials] using h.packed

theorem slots_of_picked (hi : (s.calls i).phase = .picked) : s.view.slots i = 0 := by
  have hzero : ∀ j < s.next, holds j (s.calls j).phase i = 0 := by
    intro j _
    apply if_neg
    intro hslot
    have hearly : (s.calls i).phase.early = false := h.shape.slot_not_early hslot
    rw [hi] at hearly
    cases hearly
  calc
    s.view.slots i = tally s.next (fun _ => 0) := tally_congr hzero
    _ = 0 := Finset.sum_const_zero

theorem not_dialed_of_picked (hi : (s.calls i).phase = .picked) : ¬ Dialed s i := by
  rintro (hc | ho)
  · rw [hi] at hc
    cases hc
  · rcases (h.opened i).mp ho with hs | hs
    · rw [hi] at hs
      cases hs
    · rw [hi] at hs
      cases hs

theorem packed_of_room {k : CallId} (hk : Dialed s k) (hroom : s.view.slots k < C) :
    0 < s.view.slots k ∧ (∀ j, Dialed s j → j ≠ k → s.view.slots j = C) ∧
      taken s = (dials s - 1) * C + s.view.slots k := by
  obtain ⟨hfull, -⟩ | ⟨m, -, hpos, -, hrest, htaken⟩ := h.packed
  · have hk' := hfull k hk
    omega
  · have hkm : k = m := by
      by_contra hne
      have hk' := hrest k hk hne
      omega
    subst hkm
    exact ⟨hpos, hrest, htaken⟩

theorem join (m : Moves s t i) (hinv : SlotInv t) (hi : (s.calls i).phase = .picked) {k : CallId}
    (hk : Dialed s k) (hroom : s.view.slots k < C)
    (hphase : (t.calls i).phase = .attached k ∨ (t.calls i).phase = .riding k)
    (hready : ∀ j, (t.cns j).ready = (s.cns j).ready) (hh2 : t.h2Pool = s.h2Pool)
    (hopen : (t.conns i).opened = (s.conns i).opened) (hpool : t.pool = s.pool) :
    Packing a K C t := by
  have hlt : i < s.next := h.lt_next (by rw [hi]; simp)
  have hnot := h.not_dialed_of_picked hi
  have hki : k ≠ i := by
    rintro rfl
    exact hnot hk
  have hclosed : (t.conns i).opened ≠ true := by
    rw [hopen]
    exact fun ho => hnot (.inr ho)
  have hnott : ¬ Dialed t i := by
    rintro (hc | ho)
    · rcases hphase with hp | hp <;> rw [hp] at hc <;> cases hc
    · exact hclosed ho
  have hdials : dials t = dials s := by
    rw [m.dials_eq hlt, if_neg hnot, if_neg hnott]
    omega
  have htaken : taken t = taken s + 1 := by
    have hne : (t.calls i).phase ≠ .picked := by
      rcases hphase with hp | hp <;> rw [hp] <;> simp
    rw [m.taken_eq hlt, if_neg hne, if_pos hi]
    omega
  have hholds : ∀ j, holds i (t.calls i).phase j = if j = k then 1 else 0 := by
    intro j
    apply holds_of_slotOf
    rcases hphase with hp | hp <;> rw [hp] <;> rfl
  have hzero : ∀ j, holds i (s.calls i).phase j = 0 := by
    intro j
    rw [hi]
    exact holds_of_slotOf_none rfl j
  have hslots : ∀ j, t.view.slots j = s.view.slots j + if j = k then 1 else 0 := by
    intro j
    rw [m.slots hlt, hholds, hzero]
    omega
  have hall : ∀ j, Dialed t j ↔ Dialed s j := by
    intro j
    by_cases hji : j = i
    · subst hji
      exact iff_of_false hnott hnot
    · exact m.dialed hji
  obtain ⟨hpos, hrest, hcount⟩ := h.packed_of_room hk hroom
  have hslotk : t.view.slots k = s.view.slots k + 1 := by
    rw [hslots, if_pos rfl]
  have hslotj : ∀ j, Dialed t j → j ≠ k → t.view.slots j = C := by
    intro j hj hjk
    rw [hslots, if_neg hjk, hrest j ((hall j).mp hj) hjk]
    omega
  apply h.moves m hinv
  · rcases hphase with hp | hp <;> rw [hp] <;> rfl
  · intro j hj
    rw [hready j] at hj ⊢
    obtain ⟨hest, hride, hmem⟩ := h.settled j hj
    have hji : j ≠ i := by
      rintro rfl
      rw [hi] at hride
      cases hride
    rw [m.phase j hji, hh2]
    exact ⟨hest, hride, hmem⟩
  · refine iff_of_false hclosed ?_
    rintro (hp' | hp')
    · rcases hphase with hp | hp <;> rw [hp] at hp' <;> cases hp'
    · rcases hphase with hp | hp
      · rw [hp] at hp'
        cases hp'
      · rw [hp] at hp'
        exact hki (Phase.riding.inj hp')
  · intro p hp
    rw [hdials]
    exact h.permits p (hpool ▸ hp)
  · by_cases hfull : s.view.slots k + 1 = C
    · left
      refine ⟨?_, ?_⟩
      · intro j hj
        by_cases hjk : j = k
        · rw [hjk, hslotk, hfull]
        · exact hslotj j hj hjk
      · rw [htaken, hdials, hcount, ← hfull]
        ring
    · right
      refine ⟨k, (hall k).mpr hk, by omega, by omega, hslotj, ?_⟩
      rw [htaken, hdials, hcount, hslotk]
      ring

theorem initiate (hC : 0 < C) (m : Moves s t i) (hinv : SlotInv t)
    (hi : (s.calls i).phase = .picked) (hfull : ∀ k, Dialed s k → s.view.slots k = C)
    (hphase : (t.calls i).phase = .connecting)
    (hready : ∀ j, (t.cns j).ready = none ∨ (t.cns j).ready = (s.cns j).ready)
    (hh2 : t.h2Pool = s.h2Pool) (hopen : (t.conns i).opened = (s.conns i).opened)
    (hpool : ∀ p, t.pool = some p → ∃ q, s.pool = some q ∧
      p.activeConns = q.activeConns + 1 ∧ p.maxConnections = q.maxConnections) :
    Packing a K C t := by
  have hlt : i < s.next := h.lt_next (by rw [hi]; simp)
  have hnot := h.not_dialed_of_picked hi
  have hdialed : Dialed t i := .inl hphase
  have hdials : dials t = dials s + 1 := by
    rw [m.dials_eq hlt, if_neg hnot, if_pos hdialed]
    omega
  have htaken : taken t = taken s + 1 := by
    rw [m.taken_eq hlt, if_neg (by rw [hphase]; simp), if_pos hi]
    omega
  have hslots : ∀ j, t.view.slots j = s.view.slots j + if j = i then 1 else 0 := by
    intro j
    rw [m.slots hlt, hphase, hi, holds_of_slotOf (k := i) rfl, holds_of_slotOf_none rfl]
    omega
  have hcount : taken s = dials s * C := by
    obtain ⟨-, hcount⟩ | ⟨k, hk, -, hroom, -⟩ := h.packed
    · exact hcount
    · have hk' := hfull k hk
      omega
  have hsloti : t.view.slots i = 1 := by
    rw [hslots, if_pos rfl, h.slots_of_picked hi]
    rfl
  have hslotj : ∀ j, Dialed t j → j ≠ i → t.view.slots j = C := by
    intro j hj hji
    rw [hslots, if_neg hji, hfull j ((m.dialed hji).mp hj)]
    omega
  apply h.moves m hinv
  · rw [hphase]
    rfl
  · intro j hj
    have hsame : (t.cns j).ready = (s.cns j).ready := (hready j).resolve_left hj
    rw [hsame] at hj ⊢
    obtain ⟨hest, hride, hmem⟩ := h.settled j hj
    have hji : j ≠ i := by
      rintro rfl
      rw [hi] at hride
      cases hride
    rw [m.phase j hji, hh2]
    exact ⟨hest, hride, hmem⟩
  · rw [hopen, hphase]
    exact iff_of_false (fun ho => hnot (.inr ho)) (by simp)
  · intro p hp
    obtain ⟨q, hq, hactive, hmax⟩ := hpool p hp
    obtain ⟨hold, hle⟩ := h.permits q hq
    rw [hactive, hmax, hdials, hold]
    exact ⟨rfl, hle⟩
  · by_cases hone : C = 1
    · left
      refine ⟨?_, ?_⟩
      · intro j hj
        by_cases hji : j = i
        · rw [hji, hsloti, hone]
          rfl
        · exact hslotj j hj hji
      · rw [htaken, hdials, hcount, hone]
        push_cast
        ring
    · right
      refine ⟨i, hdialed, by omega, by omega, hslotj, ?_⟩
      rw [htaken, hdials, hcount, hsloti]
      ring

theorem permit_free (hC : 0 < C) (hi : (s.calls i).phase = .picked)
    (hfull : ∀ k, Dialed s k → s.view.slots k = C) {p : ConnPool} (hp : s.pool = some p) :
    p.activeConns < p.maxConnections := by
  have hlt : i < s.next := h.lt_next (by rw [hi]; simp)
  obtain ⟨hactive, hmax⟩ := h.permits p hp
  have hcount : taken s = dials s * C := by
    obtain ⟨-, hcount⟩ | ⟨k, hk, -, hroom, -⟩ := h.packed
    · exact hcount
    · have hk' := hfull k hk
      omega
  have hlast : taken s < s.next := by
    have hsplit : tally s.next (fun j => if (s.calls j).phase = .picked then (1 : ℤ) else 0) +
        taken s = s.next := by
      rw [taken, ← tally_add]
      have hone : ∀ j < s.next, ((if (s.calls j).phase = .picked then (1 : ℤ) else 0) +
          if (s.calls j).phase = .picked then 0 else 1) = 1 := by
        intro j _
        split_ifs <;> rfl
      rw [tally_congr hone, tally, Finset.sum_const, Finset.card_range]
      simp
    have hpos := le_tally (n := s.next)
      (w := fun j => if (s.calls j).phase = .picked then (1 : ℤ) else 0)
      (fun j => by split_ifs <;> simp) hlt
    rw [if_pos hi] at hpos
    omega
  have hK : dials s * C < K := by
    have hle : (s.next : ℤ) ≤ K := by exact_mod_cast h.le
    omega
  rw [hactive]
  refine lt_of_lt_of_le ?_ hmax
  have hnonneg : 0 ≤ dials s := tally_nonneg _ (fun j => by split_ifs <;> simp)
  obtain ⟨d, hd⟩ := Int.eq_ofNat_of_zero_le hnonneg
  rw [hd] at hK ⊢
  have hK' : d * C < K := by exact_mod_cast hK
  have hlt' : d < (K + C - 1) / C := by
    rw [Nat.lt_iff_add_one_le, Nat.le_div_iff_mul_le hC]
    rw [Nat.add_mul]
    omega
  exact_mod_cast hlt'

end

theorem pick (h : Packing a K C s) (hnext : s.next < K) :
    Packing a K C (step s (.pick .acquireH2Stream a)) := by
  have hinv := h.slotInv.step (.pick .acquireH2Stream a)
  have hidle : (s.calls s.next).phase = .idle := h.fresh le_rfl
  have hunopened : (s.conns s.next).opened ≠ true := by
    intro ho
    rcases (h.opened s.next).mp ho with hs | hs
    · rw [hidle] at hs
      cases hs
    · rw [hidle] at hs
      cases hs
  have hcalls : ∀ j, (step s (.pick .acquireH2Stream a)).calls j =
      if j = s.next then { api := .acquireH2Stream, addr := a, phase := .picked }
      else s.calls j := by
    intro j
    simp only [step, setCall, Function.update_apply]
  have hold : ∀ j < s.next, (step s (.pick .acquireH2Stream a)).calls j = s.calls j := by
    intro j hj
    rw [hcalls, if_neg (ne_of_lt hj)]
  have hnew : (step s (.pick .acquireH2Stream a)).calls s.next =
      { api := .acquireH2Stream, addr := a, phase := .picked } := by
    rw [hcalls, if_pos rfl]
  have hdialed : ∀ j, Dialed (step s (.pick .acquireH2Stream a)) j ↔ Dialed s j := by
    intro j
    unfold Dialed
    rw [hcalls]
    split_ifs with hj
    · subst hj
      rw [hidle]
      exact or_congr_left (iff_of_false (by simp) (by simp))
    · rfl
  have hdials : dials (step s (.pick .acquireH2Stream a)) = dials s := by
    have hsame : dials (step s (.pick .acquireH2Stream a)) =
        tally (s.next + 1) fun j => if Dialed s j then 1 else 0 := by
      apply tally_congr
      intro j _
      simp only [hdialed]
    have hnot : ¬ Dialed s s.next := fun hd => (h.lt_of_dialed hd).false
    rw [hsame, tally_succ, if_neg hnot]
    exact add_zero _
  have htaken : taken (step s (.pick .acquireH2Stream a)) = taken s := by
    change tally (s.next + 1) _ = _
    rw [tally_succ, hnew, if_pos rfl, add_zero]
    apply tally_congr
    intro j hj
    rw [hold j hj]
  have hslots : ∀ k, (step s (.pick .acquireH2Stream a)).view.slots k = s.view.slots k := by
    intro k
    have hlast : holds s.next ((step s (.pick .acquireH2Stream a)).calls s.next).phase k = 0 := by
      rw [hnew]
      exact holds_of_slotOf_none rfl k
    change tally (s.next + 1) (fun j =>
      holds j ((step s (.pick .acquireH2Stream a)).calls j).phase k) = _
    rw [tally_succ, hlast, add_zero]
    apply tally_congr
    intro j hj
    rw [hold j hj]
    rfl
  refine ⟨hinv, h.cap, hnext, ?_, ?_, h.live, ?_, ?_, ?_, ?_⟩
  · intro j hlt
    rw [hcalls]
    split_ifs with hj
    · exact ⟨rfl, rfl⟩
    · exact h.own j (lt_of_le_of_ne (Nat.le_of_lt_succ hlt) hj)
  · intro j hlt
    rw [hcalls]
    split_ifs with hj
    · rfl
    · exact h.placed j (lt_of_le_of_ne (Nat.le_of_lt_succ hlt) hj)
  · intro k hk
    obtain ⟨hest, hride, hmem⟩ := h.settled k hk
    have hlt : k < s.next := h.lt_next (by rw [hride]; simp)
    rw [hold k hlt]
    exact ⟨hest, hride, hmem⟩
  · intro j
    rw [hcalls]
    split_ifs with hj
    · subst hj
      exact iff_of_false hunopened (by simp)
    · exact h.opened j
  · intro p hp
    rw [hdials]
    exact h.permits p hp
  · simpa only [Packed, hslots, htaken, hdialed, hdials] using h.packed

theorem acquireHit (h : Packing a K C s) (hi : (s.calls i).phase = .picked) {k : CallId}
    (hk : s.findStreamHitLocked a = some k)
    (hmove : Moves s ((((s.addInFlight k 1).addStreamsActive 1).setPhase i
      (.riding k)).lbRelease i) i)
    (hinv : SlotInv ((((s.addInFlight k 1).addStreamsActive 1).setPhase i
      (.riding k)).lbRelease i)) :
    Packing a K C ((((s.addInFlight k 1).addStreamsActive 1).setPhase i
      (.riding k)).lbRelease i) := by
  obtain ⟨hmem, -, hroom⟩ := mem_of_findStreamHitLocked hk
  have hslots : s.view.inFlight k = s.view.slots k := (h.slotInv.accounted.inFlight a k hmem).1
  have hlt : s.view.slots k < C := by
    rw [← hslots, ← h.cap]
    exact hroom
  refine h.join hmove hinv hi (h.dialed_of_pooled hmem).1 hlt ?_
    (fun _ => rfl) rfl rfl rfl
  right
  simp only [lbRelease, setPhase, setCall, Function.update_self]

theorem acquireAttach (h : Packing a K C s) (hi : (s.calls i).phase = .picked) {k : CallId}
    (hk : s.findConnectingHitLocked a = some k)
    (hmove : Moves s ((((s.addPromised k 1).addStreamsActive 1).setPhase i
      (.attached k)).lbRelease i) i)
    (hinv : SlotInv ((((s.addPromised k 1).addStreamsActive 1).setPhase i
      (.attached k)).lbRelease i)) :
    Packing a K C ((((s.addPromised k 1).addStreamsActive 1).setPhase i
      (.attached k)).lbRelease i) := by
  have hmem : k ∈ s.h2Connecting a := List.mem_of_find?_eq_some hk
  have hroom : (s.cns k).promised < s.h2MaxConcurrentStreams := by
    simpa using List.find?_some hk
  have hslots : s.view.promised k = s.view.slots k := (h.slotInv.accounted.promised a k hmem).1
  have hlt : s.view.slots k < C := by
    rw [← hslots, ← h.cap]
    exact hroom
  refine h.join hmove hinv hi (h.dialed_of_connecting hmem).1 hlt ?_ ?_
    rfl rfl rfl
  · left
    simp only [lbRelease, setPhase, setCall, Function.update_self]
  · intro j
    simp only [lbRelease, setPhase, setCall, addStreamsActive, addPromised, setConnecting,
      Function.update_apply]
    split_ifs with hj
    · rw [hj]
    · rfl

theorem ready_register (s : Cluster) (i j : CallId) :
    ((s.register i).cns j).ready = none ∨ ((s.register i).cns j).ready = (s.cns j).ready := by
  simp only [register, setPhase, setCall, addStreamsActive, setConnecting, setH2Connecting,
    Function.update_apply]
  split_ifs with hj
  · exact .inl rfl
  · exact .inr rfl

theorem phase_register (s : Cluster) (i : CallId) :
    ((s.register i).calls i).phase = .connecting := by
  simp only [register, setPhase, setCall, Function.update_self]

theorem acquire_cases (h : Packing a K C s) (hC : 0 < C) (hi : (s.calls i).phase = .picked) :
    (∃ k, s.findStreamHitLocked a = some k ∧ acquireH2Stream s i =
      (((s.addInFlight k 1).addStreamsActive 1).setPhase i (.riding k)).lbRelease i) ∨
    (∃ k, s.findConnectingHitLocked a = some k ∧ acquireH2Stream s i =
      (((s.addPromised k 1).addStreamsActive 1).setPhase i (.attached k)).lbRelease i) ∨
    ∃ s', (∀ k, Dialed s k → s.view.slots k = C) ∧ s.tryAcquireConnSlot i = some s' ∧
      acquireH2Stream s i = s'.register i := by
  have hlt : i < s.next := h.lt_next (by rw [hi]; simp)
  have haddr : (s.calls i).addr = a := (h.own i hlt).2
  unfold acquireH2Stream
  rw [haddr]
  dsimp only
  cases hhit : s.findStreamHitLocked a with
  | some k => exact .inl ⟨k, rfl, rfl⟩
  | none =>
    cases hcn : s.findConnectingHitLocked a with
    | some k => exact .inr (.inl ⟨k, rfl, rfl⟩)
    | none =>
      have hfull : ∀ k, Dialed s k → s.view.slots k = C := fun k hk =>
        h.full_of_no_hit hhit hcn hk
      obtain ⟨-, he⟩ | ⟨p, -, -, he⟩ | ⟨p, hpool, hle, -⟩ := tryAcquireConnSlot_cases s i
      · rw [he]
        exact .inr (.inr ⟨_, hfull, rfl, rfl⟩)
      · rw [he]
        exact .inr (.inr ⟨_, hfull, rfl, rfl⟩)
      · have hfree := h.permit_free hC hi hfull hpool
        omega

theorem moves_tryAcquire {s' : Cluster} (hs' : s.tryAcquireConnSlot i = some s') :
    Moves s s' i := by
  obtain ⟨-, he⟩ | ⟨p, -, -, he⟩ | ⟨p, -, -, he⟩ := tryAcquireConnSlot_cases s i
  · rw [he] at hs'
    obtain rfl := Option.some.inj hs'
    exact .refl s i
  · rw [he] at hs'
    obtain rfl := Option.some.inj hs'
    have hmove : Moves s (s.setPool { p with activeConns := p.activeConns + 1 }) i :=
      .of_same i rfl rfl rfl rfl
    exact hmove.setCall rfl rfl
  · rw [he] at hs'
    cases hs'

variable (h : Packing a K C s)

include h

theorem moves_acquire (hC : 0 < C) (hi : (s.calls i).phase = .picked) :
    Moves s (acquireH2Stream s i) i ∧
      ((acquireH2Stream s i).calls i).phase.distance < Phase.picked.distance := by
  obtain ⟨k, -, he⟩ | ⟨k, -, he⟩ | ⟨s', -, hs', he⟩ := h.acquire_cases hC hi
  · rw [he]
    refine ⟨?_, ?_⟩
    · apply Moves.setCall
      · apply Moves.setPhase
        exact .of_same i rfl rfl rfl rfl
      · rfl
      · rfl
    · simp only [lbRelease, setPhase, setCall, Function.update_self, Phase.distance]
      omega
  · rw [he]
    refine ⟨?_, ?_⟩
    · apply Moves.setCall
      · apply Moves.setPhase
        exact .of_same i rfl rfl rfl rfl
      · rfl
      · rfl
    · simp only [lbRelease, setPhase, setCall, Function.update_self, Phase.distance]
      omega
  · rw [he]
    refine ⟨(moves_tryAcquire hs').trans (Moves.register s' i), ?_⟩
    rw [phase_register]
    decide

theorem acquire (hC : 0 < C) (hi : (s.calls i).phase = .picked) :
    Packing a K C (acquireH2Stream s i) := by
  have hinv : SlotInv (acquireH2Stream s i) := h.slotInv.acquireH2Stream hi
  have hmove := (h.moves_acquire hC hi).1
  obtain ⟨k, hk, he⟩ | ⟨k, hk, he⟩ | ⟨s', hfull, hs', he⟩ := h.acquire_cases hC hi
  · rw [he] at hinv hmove ⊢
    exact h.acquireHit hi hk hmove hinv
  · rw [he] at hinv hmove ⊢
    exact h.acquireAttach hi hk hmove hinv
  · rw [he] at hinv hmove ⊢
    obtain ⟨hpool, hr⟩ | ⟨p, hpool, -, hr⟩ | ⟨p, -, -, hr⟩ := tryAcquireConnSlot_cases s i
    · rw [hr] at hs'
      obtain rfl := Option.some.inj hs'
      refine h.initiate hC hmove hinv hi hfull (phase_register s i) (ready_register s i) rfl rfl ?_
      intro p hp
      have hp' : s.pool = some p := hp
      rw [hpool] at hp'
      cases hp'
    · rw [hr] at hs'
      obtain rfl := Option.some.inj hs'
      refine h.initiate hC hmove hinv hi hfull (phase_register _ i) (ready_register _ i) rfl rfl ?_
      intro q hq
      have hq' : some { p with activeConns := p.activeConns + 1 } = some q := hq
      obtain rfl := Option.some.inj hq'
      exact ⟨p, hpool, rfl, rfl⟩
    · rw [hr] at hs'
      cases hs'

theorem dialSucceeds (i : CallId) : Packing a K C (step s (.dialSucceeds i)) := by
  have hinv := h.slotInv.step (.dialSucceeds i)
  cases hphase : (s.calls i).phase with
  | dialing =>
    have hp := h.placed_or_idle i
    rw [hphase] at hp
    rcases hp with hp | hp <;> cases hp
  | connecting =>
    have hlt : i < s.next := h.lt_next (by rw [hphase]; simp)
    simp only [step, hphase] at hinv ⊢
    have hmove := ((Moves.refl s i).setConn (c := { s.conns i with opened := true }) rfl
      rfl).setPhase .shaking
    have hnew : (((s.setConn i { s.conns i with opened := true }).setPhase i
        .shaking).calls i).phase = .shaking := by
      simp only [setPhase, setCall, Function.update_self]
    have hopen : (((s.setConn i { s.conns i with opened := true }).setPhase i
        .shaking).conns i).opened = true := by
      simp only [setPhase, setCall, setConn, Function.update_self]
    refine h.shift hmove hlt hinv ?_ ?_ ?_ rfl ?_ ?_ ?_
    · rw [hnew]
      rfl
    · intro k hk
      obtain ⟨hest, hride, hmem⟩ := h.settled k hk
      have hki : k ≠ i := by
        rintro rfl
        rw [hphase] at hride
        cases hride
      rw [hmove.phase k hki]
      exact ⟨hest, hride, hmem⟩
    · rw [hnew]
      exact iff_of_true hopen (.inl rfl)
    · rw [hnew, hphase]
      rfl
    · rw [hnew, hphase]
      exact ⟨by simp, by simp⟩
    · exact iff_of_true (.inr hopen) (.inl hphase)
  | _ => simpa only [step, hphase] using h

theorem poolConnecting_eq (hi : i < s.next) : poolConnecting s i =
    (((((s.removeConnectingLocked a i).setPooled i
      { inFlight := (s.cns i).promised }).setH2Pool a (s.h2Pool a ++ [i])).setConn i
      { s.conns i with watcher := .running }).setConnecting i
      { s.cns i with ready := some .established }).setPhase i (.riding i) := by
  have haddr : (s.calls i).addr = a := (h.own i hi).2
  have hnone := h.h2Waiters_nil a
  unfold H2Pool.poolConnecting
  dsimp only
  rw [haddr, h2PromoteLocked]
  simp only [setPhase, setCall, setConnecting, setConn, setH2Pool, setPooled,
    removeConnectingLocked, setH2Connecting, hnone]

theorem moves_poolConnecting (hi : i < s.next) : Moves s (H2Pool.poolConnecting s i) i := by
  have hfiled : Moves s (((s.removeConnectingLocked a i).setPooled i
      { inFlight := (s.cns i).promised }).setH2Pool a (s.h2Pool a ++ [i])) i :=
    .of_same i rfl rfl rfl rfl
  have hwatched := hfiled.setConn (c := { s.conns i with watcher := .running }) rfl rfl
  rw [h.poolConnecting_eq hi]
  apply Moves.setPhase
  exact hwatched.trans (.of_same i rfl rfl rfl rfl)

theorem poolConnecting (i : CallId) : Packing a K C (step s (.poolConnecting i)) := by
  have hinv := h.slotInv.step (.poolConnecting i)
  simp only [step] at hinv ⊢
  split_ifs at hinv ⊢ with hphase
  · have hlt : i < s.next := h.lt_next (by rw [hphase]; simp)
    have hopened : (s.conns i).opened = true := (h.opened i).mpr (.inl hphase)
    rw [h.poolConnecting_eq hlt] at hinv ⊢
    have hmove := h.moves_poolConnecting hlt
    rw [h.poolConnecting_eq hlt] at hmove
    generalize ht : (((((s.removeConnectingLocked a i).setPooled i
      { inFlight := (s.cns i).promised }).setH2Pool a (s.h2Pool a ++ [i])).setConn i
      { s.conns i with watcher := .running }).setConnecting i
      { s.cns i with ready := some .established }).setPhase i (.riding i) = t at hinv hmove ⊢
    have hnew : (t.calls i).phase = .riding i := by
      simp only [← ht, setPhase, setCall, Function.update_self]
    have hopen : (t.conns i).opened = true := by
      simp only [← ht, setPhase, setCall, setConnecting, setConn, Function.update_self, hopened]
    have hready : ∀ k, (t.cns k).ready =
        if k = i then some .established else (s.cns k).ready := by
      intro k
      simp only [← ht, setPhase, setCall, setConnecting, Function.update_apply]
      split_ifs
      · rfl
      · rfl
    have hpool : t.h2Pool a = s.h2Pool a ++ [i] := by
      simp only [← ht, setPhase, setCall, setConnecting, setConn, setH2Pool, Function.update_self]
    refine h.shift hmove hlt hinv ?_ ?_ ?_ (by rw [← ht]; rfl) ?_ ?_ ?_
    · rw [hnew]
      rfl
    · intro k hk
      rw [hready] at hk ⊢
      split_ifs at hk ⊢ with hki
      · rw [hki, hnew, hpool]
        exact ⟨rfl, rfl, List.mem_append_right _ List.mem_cons_self⟩
      · obtain ⟨hest, hride, hmem⟩ := h.settled k hk
        rw [hmove.phase k hki, hpool]
        exact ⟨hest, hride, List.mem_append_left _ hmem⟩
    · rw [hnew]
      exact iff_of_true hopen (.inr rfl)
    · rw [hnew, hphase]
      rfl
    · rw [hnew, hphase]
      exact ⟨by simp, by simp⟩
    · exact iff_of_true (.inr hopen) (.inr hopened)
  · exact h

theorem attachReady (i : CallId) : Packing a K C (step s (.attachReady i)) := by
  have hinv := h.slotInv.step (.attachReady i)
  cases hphase : (s.calls i).phase with
  | attached k =>
    have hlt : i < s.next := h.lt_next (by rw [hphase]; simp)
    cases hready : (s.cns k).ready with
    | none => simpa only [step, hphase, hready] using h
    | some out =>
      obtain ⟨hest, hride, hmem⟩ := h.settled k (by rw [hready]; simp)
      rw [hready] at hest
      obtain rfl := Option.some.inj hest
      have haddr : (s.calls i).addr = a := (h.own i hlt).2
      have hki : k ≠ i := by
        rintro rfl
        rw [hphase] at hride
        cases hride
      simp only [step, hphase, hready, attachAfterReady, haddr, if_pos hmem] at hinv ⊢
      have hmove := (Moves.refl s i).setPhase (.riding k)
      have hnew : ((s.setPhase i (.riding k)).calls i).phase = .riding k := by
        simp only [setPhase, setCall, Function.update_self]
      have hclosed : (s.conns i).opened ≠ true := by
        intro ho
        rcases (h.opened i).mp ho with hs | hs
        · rw [hphase] at hs
          cases hs
        · rw [hphase] at hs
          cases hs
      have hfresh : ¬ Dialed (s.setPhase i (.riding k)) i := by
        rintro (hc | ho)
        · rw [hnew] at hc
          cases hc
        · exact hclosed ho
      have hold : ¬ Dialed s i := by
        rintro (hc | ho)
        · rw [hphase] at hc
          cases hc
        · exact hclosed ho
      refine h.shift hmove hlt hinv ?_ ?_ ?_ rfl ?_ ?_ ?_
      · rw [hnew]
        rfl
      · intro j hj
        obtain ⟨hest, hride, hmem⟩ := h.settled j hj
        have hji : j ≠ i := by
          rintro rfl
          rw [hphase] at hride
          cases hride
        rw [hmove.phase j hji]
        exact ⟨hest, hride, hmem⟩
      · rw [hnew]
        refine iff_of_false hclosed ?_
        rintro (hs | hs)
        · cases hs
        · exact hki (Phase.riding.inj hs)
      · rw [hnew, hphase]
        rfl
      · rw [hnew, hphase]
        exact ⟨by simp, by simp⟩
      · exact iff_of_false hfresh hold
  | _ => simpa only [step, hphase] using h

theorem step (hC : 0 < C) {e : Event} (he : coalescing a e = true)
    (hroom : isPick e = true → s.next < K) : Packing a K C (step s e) := by
  cases e with
  | pick api b =>
    cases api with
    | acquireH2Stream =>
      have hb : b = a := by simpa [coalescing] using he
      rw [hb]
      exact h.pick (hroom rfl)
    | _ => cases he
  | acquireH2Stream i =>
    simp only [H2Pool.step]
    split_ifs with hi
    · exact h.acquire hC hi.2
    · exact h
  | dialSucceeds i => exact h.dialSucceeds i
  | poolConnecting i => exact h.poolConnecting i
  | attachReady i => exact h.attachReady i
  | _ => cases he

end Packing

def Advances (s t : Cluster) : Prop :=
  ∃ i < s.next, Moves s t i ∧ (t.calls i).phase.distance < (s.calls i).phase.distance

theorem Advances.distance_lt {s t : Cluster} (h : Advances s t) : distance t < distance s := by
  obtain ⟨i, hi, hmove, hlt⟩ := h
  rw [hmove.distance_eq hi]
  omega

theorem Advances.ne {s t : Cluster} (h : Advances s t) : t ≠ s := by
  rintro rfl
  exact lt_irrefl _ h.distance_lt

namespace Packing

variable {a : String} {K C : ℕ} {s : Cluster} {i : CallId}

section

variable (h : Packing a K C s)

include h

theorem advances_acquire (hC : 0 < C) (hi : (s.calls i).phase = .picked) :
    Advances s (H2Pool.step s (.acquireH2Stream i)) := by
  have hlt : i < s.next := h.lt_next (by rw [hi]; simp)
  have hstep : H2Pool.step s (.acquireH2Stream i) = acquireH2Stream s i :=
    if_pos ⟨(h.own i hlt).1, hi⟩
  obtain ⟨hmove, hnear⟩ := h.moves_acquire hC hi
  rw [hstep]
  refine ⟨i, hlt, hmove, ?_⟩
  rw [hi]
  exact hnear

theorem advances_dial (hi : (s.calls i).phase = .connecting) :
    Advances s (H2Pool.step s (.dialSucceeds i)) := by
  have hlt : i < s.next := h.lt_next (by rw [hi]; simp)
  have hmove := ((Moves.refl s i).setConn (c := { s.conns i with opened := true }) rfl
    rfl).setPhase .shaking
  refine ⟨i, hlt, ?_, ?_⟩
  · simpa only [H2Pool.step, hi] using hmove
  · simp only [H2Pool.step, hi, setPhase, setCall, Function.update_self]
    decide

theorem advances_pool (hi : (s.calls i).phase = .shaking) :
    Advances s (H2Pool.step s (.poolConnecting i)) := by
  have hlt : i < s.next := h.lt_next (by rw [hi]; simp)
  have hstep : H2Pool.step s (.poolConnecting i) = H2Pool.poolConnecting s i := if_pos hi
  rw [hstep]
  refine ⟨i, hlt, h.moves_poolConnecting hlt, ?_⟩
  rw [h.poolConnecting_eq hlt, hi]
  simp only [setPhase, setCall, Function.update_self, Phase.distance]
  omega

theorem advances_attached {k : CallId} (hi : (s.calls i).phase = .attached k)
    (hk : (s.cns k).ready ≠ none) : Advances s (H2Pool.step s (.attachReady i)) := by
  have hlt : i < s.next := h.lt_next (by rw [hi]; simp)
  obtain ⟨hest, -, hmem⟩ := h.settled k hk
  have haddr : (s.calls i).addr = a := (h.own i hlt).2
  have hstep : H2Pool.step s (.attachReady i) = s.setPhase i (.riding k) := by
    simp only [H2Pool.step, hi, hest, attachAfterReady, haddr, if_pos hmem]
  rw [hstep]
  refine ⟨i, hlt, (Moves.refl s i).setPhase _, ?_⟩
  rw [hi]
  simp only [setPhase, setCall, Function.update_self, Phase.distance]
  omega

theorem advance (hC : 0 < C) {e : Event} (he : coalescing a e = true) (hpick : isPick e = false) :
    H2Pool.step s e = s ∨ Advances s (H2Pool.step s e) := by
  cases e with
  | pick api b => cases hpick
  | acquireH2Stream i =>
    by_cases hi : (s.calls i).api = .acquireH2Stream ∧ (s.calls i).phase = .picked
    · exact .inr (h.advances_acquire hC hi.2)
    · exact .inl (if_neg hi)
  | dialSucceeds i =>
    cases hphase : (s.calls i).phase with
    | connecting => exact .inr (h.advances_dial hphase)
    | dialing =>
      have hp := h.placed_or_idle i
      rw [hphase] at hp
      rcases hp with hp | hp <;> cases hp
    | _ => exact .inl (by simp only [H2Pool.step, hphase])
  | poolConnecting i =>
    by_cases hi : (s.calls i).phase = .shaking
    · exact .inr (h.advances_pool hi)
    · exact .inl (if_neg hi)
  | attachReady i =>
    cases hphase : (s.calls i).phase with
    | attached k =>
      by_cases hk : (s.cns k).ready = none
      · exact .inl (by simp only [H2Pool.step, hphase, hk])
      · exact .inr (h.advances_attached hphase hk)
    | _ => exact .inl (by simp only [H2Pool.step, hphase])
  | _ => cases he

theorem riding_of_atRest (hC : 0 < C) (hrest : AtRest a s) (hi : i < s.next) :
    ∃ k ∈ s.h2Pool a, (s.calls i).phase = .riding k := by
  have hplaced := h.placed i hi
  have hinit : ∀ k, (s.calls k).phase.initiates = true → False := by
    intro k hk
    have hp := h.placed_or_idle k
    cases hphase : (s.calls k).phase with
    | connecting => exact (h.advances_dial hphase).ne (hrest _ rfl rfl)
    | shaking => exact (h.advances_pool hphase).ne (hrest _ rfl rfl)
    | dialFailed =>
      rw [hphase] at hp
      rcases hp with hp | hp <;> cases hp
    | _ =>
      rw [hphase] at hk
      cases hk
  cases hphase : (s.calls i).phase with
  | picked => exact absurd (hrest _ rfl rfl) (h.advances_acquire hC hphase).ne
  | connecting => exact (hinit i (by rw [hphase]; rfl)).elim
  | shaking => exact (hinit i (by rw [hphase]; rfl)).elim
  | attached k =>
    rcases h.shape.attached i k hphase with hk | hk
    · exact (hinit k hk).elim
    · exact absurd (hrest _ rfl rfl) (h.advances_attached hphase hk).ne
  | riding k => exact ⟨k, (h.of_riding hphase).2, rfl⟩
  | _ =>
    rw [hphase] at hplaced
    cases hplaced

theorem dials_of_taken (hC : 0 < C) (hall : ∀ i < s.next, (s.calls i).phase ≠ .picked) :
    dials s = ((s.next + C - 1) / C : ℕ) := by
  have htaken : taken s = s.next := by
    have hone : ∀ i < s.next, (if (s.calls i).phase = .picked then (0 : ℤ) else 1) = 1 :=
      fun i hi => if_neg (hall i hi)
    rw [taken, tally_congr hone, tally, Finset.sum_const, Finset.card_range]
    simp
  have hnonneg : 0 ≤ dials s := tally_nonneg _ (fun j => by split_ifs <;> simp)
  obtain ⟨d, hd⟩ := Int.eq_ofNat_of_zero_le hnonneg
  rw [hd]
  congr 1
  symm
  obtain ⟨-, hcount⟩ | ⟨k, -, hpos, hlt, -, hcount⟩ := h.packed
  · have hnext : s.next = d * C := by
      rw [htaken, hd] at hcount
      exact_mod_cast hcount
    have hup : (d + 1) * C = d * C + C := Nat.succ_mul d C
    rw [hnext]
    apply Nat.div_eq_of_lt_le
    · omega
    · omega
  · obtain ⟨r, hr⟩ := Int.eq_ofNat_of_zero_le hpos.le
    rw [hr] at hpos hlt hcount
    have hr0 : 0 < r := by exact_mod_cast hpos
    have hrC : r < C := by exact_mod_cast hlt
    rw [htaken, hd] at hcount
    -- one connection is not full, so at least one has been dialed
    obtain ⟨e, rfl⟩ : ∃ e, d = e + 1 := by
      apply Nat.exists_eq_add_one_of_ne_zero
      rintro rfl
      have hneg : (s.next : ℤ) = r - C := by
        rw [hcount]
        push_cast
        ring
      omega
    have hnext : s.next = e * C + r := by
      have hcast : ((e + 1 : ℕ) : ℤ) - 1 = e := by omega
      rw [hcast] at hcount
      exact_mod_cast hcount
    have hone : (e + 1) * C = e * C + C := Nat.succ_mul e C
    have htwo : (e + 1 + 1) * C = (e + 1) * C + C := Nat.succ_mul (e + 1) C
    rw [hnext]
    apply Nat.div_eq_of_lt_le
    · omega
    · omega

theorem coalesced (hC : 0 < C) : Coalesced a C s where
  served := h.placed
  dialed := h.dials_of_taken hC
  progress := by
    intro e he hpick
    rcases h.advance hC he hpick with hsame | hadv
    · exact .inl hsame
    · exact .inr hadv.distance_lt
  obtained := fun hrest _ hi => h.riding_of_atRest hC hrest hi

theorem next_step (hC : 0 < C) {e : Event} (he : coalescing a e = true) :
    (H2Pool.step s e).next = s.next + if isPick e then 1 else 0 := by
  cases hpick : isPick e with
  | true =>
    cases e with
    | pick api b => rfl
    | _ => cases hpick
  | false =>
    rcases h.advance hC he hpick with hsame | ⟨i, -, hmove, -⟩
    · rw [hsame]
      rfl
    · exact hmove.next

end

theorem foldl (hC : 0 < C) (es : List Event) (hes : ∀ e ∈ es, coalescing a e = true) :
    ∀ s, Packing a K C s → s.next + es.countP isPick ≤ K →
      Packing a K C (es.foldl H2Pool.step s) ∧
        (es.foldl H2Pool.step s).next = s.next + es.countP isPick := by
  induction es with
  | nil => exact fun s h _ => ⟨h, rfl⟩
  | cons e es ih =>
    intro s h hK
    have he := hes e List.mem_cons_self
    rw [List.countP_cons, Nat.add_comm (es.countP isPick)] at hK
    have hroom : isPick e = true → s.next < K := by
      intro hpick
      rw [if_pos hpick] at hK
      exact lt_of_lt_of_le (Nat.lt_add_of_pos_right (by omega)) hK
    have hstep := h.step hC he hroom
    have hnext := h.next_step hC he
    have hrest := ih (fun f hf => hes f (List.mem_cons_of_mem e hf)) (H2Pool.step s e) hstep
      (by rw [hnext, Nat.add_assoc]; exact hK)
    refine ⟨hrest.1, ?_⟩
    rw [List.foldl_cons, hrest.2, hnext, List.countP_cons, Nat.add_comm (es.countP isPick),
      Nat.add_assoc]

end Packing

theorem Packing.initial {cfg : ClusterConfig} {C K : ℕ} (hC : 0 < C)
    (hcap : cfg.maxConcurrentStreams = some C) (a : String)
    (hpermits : ∀ t, cfg.circuitBreakers = some t →
      (K + C - 1) / C ≤ t.maxConnections.getD 1024) : Packing a K C (newCluster cfg) where
  slotInv := SlotInv.initial cfg
  cap := by
    simp only [newCluster, extractH2MaxConcurrentStreams, hcap, if_pos hC]
  le := Nat.zero_le K
  own := fun i hi => absurd hi (Nat.not_lt_zero i)
  placed := fun i hi => absurd hi (Nat.not_lt_zero i)
  live := fun _ => rfl
  settled := fun _ hk => absurd rfl hk
  opened := by
    intro i
    exact iff_of_false (by simp [newCluster]) (by simp [newCluster])
  permits := by
    intro p hp
    obtain ⟨t, ht, rfl⟩ := Option.map_eq_some_iff.mp hp
    exact ⟨rfl, Int.ofNat_le.mpr (hpermits t ht)⟩
  packed := by
    refine .inl ⟨?_, (zero_mul (C : ℤ)).symm⟩
    rintro k (hk | hk) <;> cases hk

/-- `K` acquirers of one endpoint share its connections, in every interleaving with the dials.  As
many connections are dialed as their streams need, nobody is refused or has to queue, and each
goes on to its stream. -/
theorem coalesced_run (cfg : ClusterConfig) (K C : ℕ) (hC : 0 < C)
    (hcap : cfg.maxConcurrentStreams = some C) (a : String) (es : List Event)
    (hes : ∀ e ∈ es, coalescing a e = true) (hK : es.countP isPick = K)
    (hpermits : ∀ t, cfg.circuitBreakers = some t →
      (K + C - 1) / C ≤ t.maxConnections.getD 1024) :
    (run cfg es).next = K ∧ Coalesced a C (run cfg es) := by
  have hinit : Packing a K C (newCluster cfg) := .initial hC hcap a hpermits
  have hbound : (newCluster cfg).next + es.countP isPick ≤ K := by
    rw [hK]
    exact (Nat.zero_add K).le
  obtain ⟨hpack, hnext⟩ := Packing.foldl hC es hes (newCluster cfg) hinit hbound
  refine ⟨?_, hpack.coalesced hC⟩
  rw [hK] at hnext
  exact hnext.trans (Nat.zero_add K)

/-- Three acquirers of two-stream connections: the first dials, the second attaches while it
connects, and the third dials the second connection. -/
theorem coalesced_three : dials (run
      { maxConcurrentStreams := some 2, circuitBreakers := some { maxConnections := some 2 } }
      [.pick .acquireH2Stream "e", .acquireH2Stream 0, .pick .acquireH2Stream "e",
        .acquireH2Stream 1, .dialSucceeds 0, .poolConnecting 0, .pick .acquireH2Stream "e",
        .acquireH2Stream 2]) = 2 := by
  have h := coalesced_run
    { maxConcurrentStreams := some 2, circuitBreakers := some { maxConnections := some 2 } } 3 2
    (by decide) rfl "e"
    [.pick .acquireH2Stream "e", .acquireH2Stream 0, .pick .acquireH2Stream "e",
      .acquireH2Stream 1, .dialSucceeds 0, .poolConnecting 0, .pick .acquireH2Stream "e",
      .acquireH2Stream 2] (by decide) (by decide) (by
        intro t ht
        obtain rfl := Option.some.inj ht
        decide)
  obtain ⟨hnext, hco⟩ := h
  have hall : ∀ i < 3, ((run
      { maxConcurrentStreams := some 2, circuitBreakers := some { maxConnections := some 2 } }
      [.pick .acquireH2Stream "e", .acquireH2Stream 0, .pick .acquireH2Stream "e",
        .acquireH2Stream 1, .dialSucceeds 0, .poolConnecting 0, .pick .acquireH2Stream "e",
        .acquireH2Stream 2]).calls i).phase ≠ .picked := by decide
  rw [hco.dialed (by rw [hnext]; exact hall), hnext]
  rfl

end EnvoyGo.H2Pool

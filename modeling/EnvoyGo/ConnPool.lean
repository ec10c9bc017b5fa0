import EnvoyGo.Runs
import EnvoyGo.Tally

/-!
The connection budget of a cluster, `internal/cluster/connpool.go`.  Permits are taken under the
mutex or pended for; a released permit goes to the head waiter over its channel without passing
through the count.  One event is one critical section, one channel operation, or the choice a
`select` makes.
-/

namespace EnvoyGo.ConnBudget

open Runs Tally

/-- Where a call stands.  `waiting` is in the `select`, `cancelling` past its `ctx.Done()` branch,
`draining` at `<-ch` after it found itself dequeued, `givingBack` before the `releaseConn` of that
branch.  `sending w` is in `releaseConn` between the unlock and the send to `w`; `gaveBack` says
that the release is the one of a cancelled call.  `failed` returned an error or `false`. -/
inductive Phase
  | idle
  | waiting
  | cancelling
  | draining
  | givingBack
  | holding
  | sending (w : ℕ) (gaveBack : Bool)
  | failed
  | released
  deriving DecidableEq

/-- The pool, its calls by number, and the token on each call's channel (buffered, capacity 1).
`handed` is history: the waiters that were handed a permit, in order. -/
structure ConnPool where
  maxConnections : ℤ
  maxPendingRequests : ℤ
  activeConns : ℤ := 0
  waiters : List ℕ := []
  cxOpen : ℤ := 0
  rqPendingOpen : ℤ := 0
  upstreamRqPendingActive : ℤ := 0
  upstreamCxOverflow : ℕ := 0
  upstreamRqPendingTotal : ℕ := 0
  upstreamRqPendingOverflow : ℕ := 0
  next : ℕ := 0
  phase : ℕ → Phase := fun _ => .idle
  chan : ℕ → Bool := fun _ => false
  handed : List ℕ := []

namespace ConnPool

variable (p : ConnPool)

def setPhase (i : ℕ) (ph : Phase) : ConnPool := { p with phase := Function.update p.phase i ph }

def setChan (i : ℕ) (b : Bool) : ConnPool := { p with chan := Function.update p.chan i b }

def takePermit (i : ℕ) : ConnPool :=
  { p.setPhase i .holding with
    activeConns := p.activeConns + 1
    cxOpen := if p.maxConnections ≤ p.activeConns + 1 then 1 else p.cxOpen }

def atCap : ConnPool := { p with cxOpen := 1, upstreamCxOverflow := p.upstreamCxOverflow + 1 }

def acquireConnOrPend (i : ℕ) : ConnPool :=
  if p.activeConns < p.maxConnections then p.takePermit i
  else if p.maxPendingRequests ≤ (p.waiters.length : ℤ) then
    { p.atCap.setPhase i .failed with
      upstreamRqPendingOverflow := p.upstreamRqPendingOverflow + 1 }
  else
    { p.atCap.setPhase i .waiting with
      waiters := p.waiters ++ [i]
      upstreamRqPendingActive := p.upstreamRqPendingActive + 1
      upstreamRqPendingTotal := p.upstreamRqPendingTotal + 1
      rqPendingOpen :=
        if p.maxPendingRequests ≤ ((p.waiters ++ [i]).length : ℤ) then 1 else p.rqPendingOpen }

def tryAcquireConnSlot (i : ℕ) : ConnPool :=
  if p.activeConns < p.maxConnections then p.takePermit i else p.atCap.setPhase i .failed

def dequeue (ws : List ℕ) : ConnPool :=
  { p with
    waiters := ws
    upstreamRqPendingActive := p.upstreamRqPendingActive - 1
    rqPendingOpen := if (ws.length : ℤ) < p.maxPendingRequests then 0 else p.rqPendingOpen }

def releaseConn (i : ℕ) (gaveBack : Bool) : ConnPool :=
  match p.waiters with
  | w :: ws => { (p.dequeue ws).setPhase i (.sending w gaveBack) with handed := p.handed ++ [w] }
  | [] =>
    { p.setPhase i (if gaveBack then .failed else .released) with
      activeConns := p.activeConns - 1
      cxOpen := if p.activeConns - 1 < p.maxConnections then 0 else p.cxOpen }

/-- The critical section of the `ctx.Done()` branch. -/
def removeWaiterLocked (i : ℕ) : ConnPool :=
  if i ∈ p.waiters then (p.dequeue (p.waiters.erase i)).setPhase i .failed
  else p.setPhase i .draining

end ConnPool

inductive Event
  | acquireConnOrPend
  | tryAcquireConnSlot
  | receive (i : ℕ)
  | ctxDone (i : ℕ)
  | removeWaiter (i : ℕ)
  | drain (i : ℕ)
  | giveBack (i : ℕ)
  | releaseConn (i : ℕ)
  | send (i : ℕ)
  deriving DecidableEq

/-- A step that is not enabled leaves the pool alone.  A new call takes the next number. -/
def step (p : ConnPool) : Event → ConnPool
  | .acquireConnOrPend => { p with next := p.next + 1 }.acquireConnOrPend p.next
  | .tryAcquireConnSlot => { p with next := p.next + 1 }.tryAcquireConnSlot p.next
  | .receive i =>
    if p.phase i = .waiting ∧ p.chan i = true then (p.setChan i false).setPhase i .holding else p
  | .ctxDone i => if p.phase i = .waiting then p.setPhase i .cancelling else p
  | .removeWaiter i => if p.phase i = .cancelling then p.removeWaiterLocked i else p
  | .drain i =>
    if p.phase i = .draining ∧ p.chan i = true then (p.setChan i false).setPhase i .givingBack
    else p
  | .giveBack i => if p.phase i = .givingBack then p.releaseConn i true else p
  | .releaseConn i => if p.phase i = .holding then p.releaseConn i false else p
  | .send i =>
    match p.phase i with
    | .sending w gaveBack =>
      (p.setChan w true).setPhase i (if gaveBack then .failed else .released)
    | _ => p

def run (maxConnections maxPendingRequests : ℤ) (es : List Event) : ConnPool :=
  es.foldl step { maxConnections := maxConnections, maxPendingRequests := maxPendingRequests }

def Phase.holds : Phase → Bool
  | .holding | .givingBack => true
  | _ => false

def Phase.awaits : Phase → Bool
  | .waiting | .cancelling | .draining => true
  | _ => false

@[simp] theorem Phase.awaits_sending (w : ℕ) (back : Bool) :
    (Phase.sending w back).awaits = false := rfl

theorem Phase.awaits_of_holds {ph : Phase} (h : ph.holds = true) : ph.awaits = false := by
  cases ph with
  | holding => rfl
  | givingBack => rfl
  | _ => cases h

namespace ConnPool

variable (p : ConnPool)

def HandedOff (i : ℕ) : Prop := (p.phase i).awaits = true ∧ i ∉ p.waiters

instance (i : ℕ) : Decidable (p.HandedOff i) := inferInstanceAs (Decidable (_ ∧ _))

/-- The permits held by callers. -/
def heldPermits : ℤ := tally p.next fun i => if (p.phase i).holds then 1 else 0

def handedOffPermits : ℤ := tally p.next fun i => if p.HandedOff i then 1 else 0

end ConnPool

/-- The count, the cap, the queue and its gauge.  Calls are numbered in the order they come, so the
waiters handed a permit and those still queued are in the order they came. -/
structure Counts (p : ConnPool) : Prop where
  nonneg : 0 ≤ p.activeConns
  le_max : p.activeConns ≤ max p.maxConnections 0
  accounted : p.activeConns = p.heldPermits + p.handedOffPermits
  full_of_waiters : p.waiters ≠ [] → p.maxConnections ≤ p.activeConns
  fifo : (p.handed ++ p.waiters).Pairwise (· < ·)
  handed_lt : ∀ i ∈ p.handed, i < p.next
  gauge : p.upstreamRqPendingActive = p.waiters.length

/-- A permit in transit is on its waiter's channel or in the hands of the one call that sends it;
nothing else is. -/
structure Transit (p : ConnPool) : Prop where
  fresh : ∀ i, p.next ≤ i → p.phase i = .idle
  nodup : p.waiters.Nodup
  queued : ∀ i ∈ p.waiters, p.phase i = .waiting ∨ p.phase i = .cancelling
  of_chan : ∀ i, p.chan i = true → p.HandedOff i
  of_sending : ∀ r i back, p.phase r = .sending i back → p.HandedOff i ∧ p.chan i = false
  one_sender : ∀ r r' i back back', p.phase r = .sending i back → p.phase r' = .sending i back' →
    r = r'
  in_transit : ∀ i, p.HandedOff i →
    p.chan i = true ∨ ∃ r back, p.phase r = .sending i back

/-- The budget is kept: the counts are right, a permit handed off is on the waiter's channel or
about to be sent there, and a call that failed is neither queued nor owed a permit. -/
structure Budgeted (p : ConnPool) : Prop extends Counts p where
  in_transit : ∀ i, p.HandedOff i →
    p.chan i = true ∨ ∃ r back, p.phase r = .sending i back
  failed_free : ∀ i, p.phase i = .failed → i ∉ p.waiters ∧ p.chan i = false ∧
    ∀ r back, p.phase r ≠ .sending i back

namespace Transit

variable {p : ConnPool}

variable {i : ℕ} {ph : Phase}

theorem notMem (h : Transit p) (hi : (p.phase i).awaits = false) : i ∉ p.waiters := by
  intro hmem
  rcases h.queued i hmem with hw | hw
  · rw [hw] at hi
    cases hi
  · rw [hw] at hi
    cases hi

theorem free (h : Transit p) (hi : (p.phase i).awaits = false) :
    p.chan i = false ∧ ∀ r back, p.phase r ≠ .sending i back := by
  have hout : ¬ p.HandedOff i := by
    rintro ⟨haw, -⟩
    rw [hi] at haw
    cases haw
  refine ⟨?_, ?_⟩
  · exact Bool.eq_false_iff.mpr fun hc => hout (h.of_chan i hc)
  · exact fun r back hr => hout (h.of_sending r i back hr).1

theorem free_of_mem (h : Transit p) (hi : i ∈ p.waiters) :
    p.chan i = false ∧ ∀ r back, p.phase r ≠ .sending i back := by
  have hout : ¬ p.HandedOff i := fun hoff => hoff.2 hi
  refine ⟨?_, ?_⟩
  · exact Bool.eq_false_iff.mpr fun hc => hout (h.of_chan i hc)
  · exact fun r back hr => hout (h.of_sending r i back hr).1

theorem budgeted (h : Transit p) (hc : Counts p) : Budgeted p where
  toCounts := hc
  in_transit := h.in_transit
  failed_free i hi := by
    have haw : (p.phase i).awaits = false := by rw [hi]; rfl
    exact ⟨h.notMem haw, h.free haw⟩

theorem setPhase (h : Transit p) {n : ℕ} (hn : p.next ≤ n) (hi : i < n)
    (haw : ph.awaits = (p.phase i).awaits)
    (hmem : i ∈ p.waiters → ph = .waiting ∨ ph = .cancelling)
    (hold : ∀ w back, p.phase i ≠ .sending w back) (hnew : ∀ w back, ph ≠ .sending w back) :
    Transit ({ p with next := n }.setPhase i ph) := by
  have hoff : ∀ j, ({ p with next := n }.setPhase i ph).HandedOff j ↔ p.HandedOff j := by
    intro j
    by_cases hj : j = i
    · subst hj
      simp [ConnPool.HandedOff, ConnPool.setPhase, haw]
    · simp [ConnPool.HandedOff, ConnPool.setPhase, hj]
  have hsend : ∀ r j back, ({ p with next := n }.setPhase i ph).phase r = .sending j back ↔
      p.phase r = .sending j back := by
    intro r j back
    by_cases hr : r = i
    · subst hr
      simp [ConnPool.setPhase, hold, hnew]
    · simp [ConnPool.setPhase, hr]
  refine ⟨?_, h.nodup, ?_, ?_, ?_, ?_, ?_⟩
  · intro j hj
    have hne : j ≠ i := by
      change n ≤ j at hj
      omega
    have hold' := h.fresh j (le_trans hn hj)
    simpa [ConnPool.setPhase, hne] using hold'
  · intro j hj
    by_cases hji : j = i
    · subst hji
      simpa [ConnPool.setPhase] using hmem hj
    · simpa [ConnPool.setPhase, hji] using h.queued j hj
  · intro j hj
    exact (hoff j).mpr (h.of_chan j hj)
  · intro r j back hr
    rw [hsend] at hr
    exact ⟨(hoff j).mpr (h.of_sending r j back hr).1, (h.of_sending r j back hr).2⟩
  · intro r r' j back back' hr hr'
    rw [hsend] at hr hr'
    exact h.one_sender r r' j back back' hr hr'
  · intro j hj
    rcases h.in_transit j ((hoff j).mp hj) with hc | ⟨r, back, hr⟩
    · exact Or.inl hc
    · exact Or.inr ⟨r, back, (hsend r j back).mpr hr⟩

theorem congr {q : ConnPool} (h : Transit p) (hnext : q.next = p.next)
    (hw : q.waiters = p.waiters) (hp : q.phase = p.phase) (hc : q.chan = p.chan) : Transit q := by
  have hoff : ∀ i, q.HandedOff i ↔ p.HandedOff i := by
    intro i
    simp only [ConnPool.HandedOff, hp, hw]
  refine ⟨?_, ?_, ?_, ?_, ?_, ?_, ?_⟩
  · simpa only [hnext, hp] using h.fresh
  · simpa only [hw] using h.nodup
  · simpa only [hw, hp] using h.queued
  · simpa only [hc, hoff] using h.of_chan
  · simpa only [hp, hc, hoff] using h.of_sending
  · simpa only [hp] using h.one_sender
  · simpa only [hp, hc, hoff] using h.in_transit

theorem of_free {q : ConnPool} (h : Transit p) (hfresh : ∀ j, q.next ≤ j → q.phase j = .idle)
    (hnodup : q.waiters.Nodup)
    (hqueued : ∀ j ∈ q.waiters, q.phase j = .waiting ∨ q.phase j = .cancelling)
    (hsend : ∀ r j back, q.phase r = .sending j back ↔ p.phase r = .sending j back)
    (hoff : ∀ j, j ≠ i → (q.HandedOff j ↔ p.HandedOff j))
    (hchan : ∀ j, j ≠ i → q.chan j = p.chan j) (hi : ¬ q.HandedOff i) (hic : q.chan i = false)
    (his : ∀ r back, p.phase r ≠ .sending i back) : Transit q := by
  refine ⟨hfresh, hnodup, hqueued, ?_, ?_, ?_, ?_⟩
  · intro j hj
    have hji : j ≠ i := by
      rintro rfl
      exact absurd hj (by rw [hic]; decide)
    rw [hchan j hji] at hj
    exact (hoff j hji).mpr (h.of_chan j hj)
  · intro r j back hr
    have hr' := (hsend r j back).mp hr
    have hji : j ≠ i := by
      rintro rfl
      exact his r back hr'
    have hs := h.of_sending r j back hr'
    exact ⟨(hoff j hji).mpr hs.1, (hchan j hji).trans hs.2⟩
  · intro r r' j back back' hr hr'
    exact h.one_sender r r' j back back' ((hsend r j back).mp hr) ((hsend r' j back').mp hr')
  · intro j hj
    have hji : j ≠ i := by
      rintro rfl
      exact hi hj
    rcases h.in_transit j ((hoff j hji).mp hj) with hc | ⟨r, back, hr⟩
    · exact Or.inl ((hchan j hji).trans hc)
    · exact Or.inr ⟨r, back, (hsend r j back).mpr hr⟩

theorem sending_update (hold : ∀ w back, p.phase i ≠ .sending w back)
    (hnew : ∀ w back, ph ≠ .sending w back) (r j : ℕ) (back : Bool) :
    Function.update p.phase i ph r = .sending j back ↔ p.phase r = .sending j back := by
  by_cases hr : r = i
  · subst hr
    simp [hold, hnew]
  · simp [hr]

theorem enqueue (h : Transit p) :
    Transit { { p with next := p.next + 1 }.setPhase p.next .waiting with
      waiters := p.waiters ++ [p.next] } := by
  have hidle : p.phase p.next = .idle := h.fresh _ le_rfl
  have hout : p.next ∉ p.waiters := h.notMem (by rw [hidle]; rfl)
  obtain ⟨hchan, hsend⟩ := h.free (i := p.next) (by rw [hidle]; rfl)
  have hold : ∀ w back, p.phase p.next ≠ .sending w back := by
    intro w back
    rw [hidle]
    exact Phase.noConfusion
  refine h.of_free (i := p.next) ?_ ?_ ?_ (sending_update hold fun _ _ => Phase.noConfusion)
    ?_ (fun _ _ => rfl) ?_ hchan hsend
  · intro j hj
    change p.next + 1 ≤ j at hj
    have hjn : j ≠ p.next := by omega
    simpa [ConnPool.setPhase, hjn] using h.fresh j (by omega)
  · exact List.nodup_append_comm.mp (List.nodup_cons.mpr ⟨hout, h.nodup⟩)
  · intro j hj
    by_cases hjn : j = p.next
    · subst hjn
      exact Or.inl (by simp [ConnPool.setPhase])
    · have hmem : j ∈ p.waiters := by simpa [hjn] using hj
      simpa [ConnPool.setPhase, hjn] using h.queued j hmem
  · intro j hj
    simp [ConnPool.HandedOff, ConnPool.setPhase, hj]
  · simp [ConnPool.HandedOff]

theorem receive (h : Transit p) (hc : p.chan i = true) (haw : ph.awaits = false)
    (hns : ∀ w back, ph ≠ .sending w back) : Transit ((p.setChan i false).setPhase i ph) := by
  obtain ⟨hiaw, hiout⟩ := h.of_chan i hc
  have hold : ∀ w back, p.phase i ≠ .sending w back := by
    intro w back hp
    rw [hp] at hiaw
    cases hiaw
  refine h.of_free (i := i) ?_ h.nodup ?_ (sending_update hold hns) ?_ ?_ ?_ ?_ ?_
  · intro j hj
    have hidle : p.phase j = .idle := h.fresh j hj
    have hji : j ≠ i := by
      rintro rfl
      rw [hidle] at hiaw
      cases hiaw
    simpa [ConnPool.setPhase, ConnPool.setChan, hji] using hidle
  · intro j hj
    have hji : j ≠ i := by
      rintro rfl
      exact hiout hj
    simpa [ConnPool.setPhase, ConnPool.setChan, hji] using h.queued j hj
  · intro j hj
    simp [ConnPool.HandedOff, ConnPool.setPhase, ConnPool.setChan, hj]
  · intro j hj
    simp [ConnPool.setPhase, ConnPool.setChan, hj]
  · simp [ConnPool.HandedOff, ConnPool.setPhase, haw]
  · simp [ConnPool.setPhase, ConnPool.setChan]
  · intro r back hr
    exact absurd hc (by rw [(h.of_sending r i back hr).2]; decide)

theorem leave (h : Transit p) (hi : i ∈ p.waiters) :
    Transit ({ p with waiters := p.waiters.erase i }.setPhase i .failed) := by
  obtain ⟨hchan, hsend⟩ := h.free_of_mem hi
  have hold : ∀ w back, p.phase i ≠ .sending w back := by
    intro w back hp
    rcases h.queued i hi with hw | hw
    · rw [hp] at hw
      cases hw
    · rw [hp] at hw
      cases hw
  refine h.of_free (i := i) ?_ (h.nodup.erase i) ?_
    (sending_update hold fun _ _ => Phase.noConfusion) ?_ (fun _ _ => rfl) ?_ hchan hsend
  · intro j hj
    have hidle : p.phase j = .idle := h.fresh j hj
    have hji : j ≠ i := by
      rintro rfl
      exact h.notMem (i := j) (by rw [hidle]; rfl) hi
    simpa [ConnPool.setPhase, hji] using hidle
  · intro j hj
    have hj' := h.nodup.mem_erase_iff.mp hj
    simpa [ConnPool.setPhase, hj'.1] using h.queued j hj'.2
  · intro j hj
    simp [ConnPool.HandedOff, ConnPool.setPhase, hj, List.mem_erase_of_ne hj]
  · simp [ConnPool.HandedOff, ConnPool.setPhase, Phase.awaits]

theorem handOff (h : Transit p) {w : ℕ} {ws : List ℕ} (hw : p.waiters = w :: ws)
    (hi : (p.phase i).holds = true) (back : Bool) :
    Transit ({ p with waiters := ws }.setPhase i (.sending w back)) := by
  have hwmem : w ∈ p.waiters := by rw [hw]; exact List.mem_cons_self
  obtain ⟨hwchan, hwsend⟩ := h.free_of_mem hwmem
  have hwq := h.queued w hwmem
  obtain ⟨hwout, hnodup⟩ := List.nodup_cons.mp (hw ▸ h.nodup)
  have hiout : i ∉ p.waiters := h.notMem (Phase.awaits_of_holds hi)
  have hiw : w ≠ i := by
    rintro rfl
    exact hiout hwmem
  have hwoff : ({ p with waiters := ws }.setPhase i (.sending w back)).HandedOff w := by
    refine ⟨?_, hwout⟩
    rcases hwq with hq | hq
    · simp [ConnPool.setPhase, hiw, hq, Phase.awaits]
    · simp [ConnPool.setPhase, hiw, hq, Phase.awaits]
  have hoff : ∀ j, j ≠ w → (({ p with waiters := ws }.setPhase i (.sending w back)).HandedOff j ↔
      p.HandedOff j) := by
    intro j hj
    by_cases hji : j = i
    · subst hji
      simp [ConnPool.HandedOff, ConnPool.setPhase, Phase.awaits_of_holds hi]
    · simp [ConnPool.HandedOff, ConnPool.setPhase, hji, hw, hj]
  have hsend : ∀ r j b, r ≠ i → (Function.update p.phase i (.sending w back) r = .sending j b ↔
      p.phase r = .sending j b) := by
    intro r j b hr
    simp [hr]
  have hold : ∀ j b, p.phase i ≠ .sending j b := by
    intro j b hp
    rw [hp] at hi
    cases hi
  refine ⟨?_, hnodup, ?_, ?_, ?_, ?_, ?_⟩
  · intro j hj
    have hidle : p.phase j = .idle := h.fresh j hj
    have hji : j ≠ i := by
      rintro rfl
      rw [hidle] at hi
      cases hi
    simpa [ConnPool.setPhase, hji] using hidle
  · intro j hj
    have hjmem : j ∈ p.waiters := by rw [hw]; exact List.mem_cons_of_mem w hj
    have hji : j ≠ i := by
      rintro rfl
      exact hiout hjmem
    simpa [ConnPool.setPhase, hji] using h.queued j hjmem
  · intro j hj
    have hjw : j ≠ w := by
      rintro rfl
      exact absurd hj (by simp [ConnPool.setPhase, hwchan])
    exact (hoff j hjw).mpr (h.of_chan j hj)
  · intro r j b hr
    by_cases hri : r = i
    · subst hri
      have hjw : w = j := by
        have hr' : Phase.sending w back = .sending j b := by simpa [ConnPool.setPhase] using hr
        exact (Phase.sending.inj hr').1
      subst hjw
      exact ⟨hwoff, hwchan⟩
    · have hr' := (hsend r j b hri).mp hr
      have hjw : j ≠ w := by
        rintro rfl
        exact hwsend r b hr'
      exact ⟨(hoff j hjw).mpr (h.of_sending r j b hr').1, (h.of_sending r j b hr').2⟩
  · -- only the releasing call sends to `w`, and the others sent before
    have hto : ∀ r j b, ({ p with waiters := ws }.setPhase i (.sending w back)).phase r =
        .sending j b → (r = i ↔ j = w) := by
      intro r j b hr
      by_cases hri : r = i
      · subst hri
        have hr' : Phase.sending w back = .sending j b := by simpa [ConnPool.setPhase] using hr
        exact iff_of_true rfl (Phase.sending.inj hr').1.symm
      · have hr' := (hsend r j b hri).mp hr
        refine iff_of_false hri ?_
        rintro rfl
        exact hwsend r b hr'
    intro r r' j b b' hr hr'
    by_cases hjw : j = w
    · exact ((hto r j b hr).mpr hjw).trans ((hto r' j b' hr').mpr hjw).symm
    · have hri : r ≠ i := fun he => hjw ((hto r j b hr).mp he)
      have hri' : r' ≠ i := fun he => hjw ((hto r' j b' hr').mp he)
      exact h.one_sender r r' j b b' ((hsend r j b hri).mp hr) ((hsend r' j b' hri').mp hr')
  · intro j hj
    by_cases hjw : j = w
    · subst hjw
      exact Or.inr ⟨i, back, by simp [ConnPool.setPhase]⟩
    · rcases h.in_transit j ((hoff j hjw).mp hj) with hc | ⟨r, b, hr⟩
      · exact Or.inl hc
      · have hri : r ≠ i := by
          rintro rfl
          exact hold j b hr
        exact Or.inr ⟨r, b, (hsend r j b hri).mpr hr⟩

theorem send (h : Transit p) {w : ℕ} {back : Bool} (hi : p.phase i = .sending w back)
    (haw : ph.awaits = false) (hns : ∀ w back, ph ≠ .sending w back) :
    Transit ((p.setChan w true).setPhase i ph) := by
  obtain ⟨hwoff, -⟩ := h.of_sending i w back hi
  have hoff : ∀ j, ((p.setChan w true).setPhase i ph).HandedOff j ↔ p.HandedOff j := by
    intro j
    by_cases hji : j = i
    · subst hji
      simp [ConnPool.HandedOff, ConnPool.setPhase, haw, hi]
    · simp [ConnPool.HandedOff, ConnPool.setPhase, ConnPool.setChan, hji]
  have hsend : ∀ r j b, ((p.setChan w true).setPhase i ph).phase r = .sending j b →
      p.phase r = .sending j b ∧ r ≠ i := by
    intro r j b hr
    have hri : r ≠ i := by
      rintro rfl
      exact hns j b (by simpa [ConnPool.setPhase] using hr)
    exact ⟨by simpa [ConnPool.setPhase, ConnPool.setChan, hri] using hr, hri⟩
  refine ⟨?_, h.nodup, ?_, ?_, ?_, ?_, ?_⟩
  · intro j hj
    have hold : p.phase j = .idle := h.fresh j hj
    have hji : j ≠ i := by
      rintro rfl
      rw [hold] at hi
      cases hi
    simpa [ConnPool.setPhase, ConnPool.setChan, hji] using hold
  · intro j hj
    have hji : j ≠ i := by
      rintro rfl
      exact h.notMem (i := j) (by rw [hi]; rfl) hj
    simpa [ConnPool.setPhase, ConnPool.setChan, hji] using h.queued j hj
  · intro j hj
    by_cases hjw : j = w
    · subst hjw
      exact (hoff j).mpr hwoff
    · have hj' : p.chan j = true := by simpa [ConnPool.setPhase, ConnPool.setChan, hjw] using hj
      exact (hoff j).mpr (h.of_chan j hj')
  · intro r j b hr
    obtain ⟨hr', hri⟩ := hsend r j b hr
    have hs := h.of_sending r j b hr'
    have hjw : j ≠ w := by
      rintro rfl
      exact hri (h.one_sender r i j b back hr' hi)
    refine ⟨(hoff j).mpr hs.1, ?_⟩
    simpa [ConnPool.setPhase, ConnPool.setChan, hjw] using hs.2
  · intro r r' j b b' hr hr'
    exact h.one_sender r r' j b b' (hsend r j b hr).1 (hsend r' j b' hr').1
  · intro j hj
    by_cases hjw : j = w
    · subst hjw
      exact Or.inl (by simp [ConnPool.setPhase, ConnPool.setChan])
    · rcases h.in_transit j ((hoff j).mp hj) with hc | ⟨r, b, hr⟩
      · exact Or.inl (by simpa [ConnPool.setPhase, ConnPool.setChan, hjw] using hc)
      · have hri : r ≠ i := by
          rintro rfl
          rw [hi] at hr
          exact hjw (Phase.sending.inj hr).1.symm
        exact Or.inr ⟨r, b, by simpa [ConnPool.setPhase, ConnPool.setChan, hri] using hr⟩

end Transit

namespace ConnPool

def permits (p : ConnPool) (i : ℕ) : ℤ :=
  (if (p.phase i).holds then 1 else 0) + (if p.HandedOff i then 1 else 0)

theorem permits_nonneg (p : ConnPool) (i : ℕ) : 0 ≤ p.permits i := by
  unfold permits
  split_ifs <;> decide

theorem tally_permits (p : ConnPool) :
    tally p.next p.permits = p.heldPermits + p.handedOffPermits :=
  tally_add p.next _ _

theorem permits_of_holds {p : ConnPool} {i : ℕ} (h : (p.phase i).holds = true) :
    p.permits i = 1 := by
  simp [permits, HandedOff, h, Phase.awaits_of_holds h]

theorem permits_of_handedOff {p : ConnPool} {i : ℕ} (h : p.HandedOff i) : p.permits i = 1 := by
  have hh : (p.phase i).holds = false := by
    cases hp : (p.phase i).holds
    · rfl
    · exact absurd h.1 (by rw [Phase.awaits_of_holds hp]; decide)
  simp [permits, h, hh]

theorem permits_eq_zero {p : ConnPool} {i : ℕ} (hh : (p.phase i).holds = false)
    (hoff : ¬ p.HandedOff i) : p.permits i = 0 := by
  simp [permits, hh, hoff]

theorem permits_congr {p q : ConnPool} {i : ℕ} (hp : q.phase i = p.phase i)
    (hw : i ∈ q.waiters ↔ i ∈ p.waiters) : q.permits i = p.permits i := by
  have hoff : q.HandedOff i ↔ p.HandedOff i := by
    unfold HandedOff
    rw [hp, hw]
  unfold permits
  rw [hp, if_congr hoff rfl rfl]

end ConnPool

namespace Counts

variable {p q : ConnPool}

theorem of_permits (h : Counts p) (hactive : q.activeConns = p.activeConns)
    (hmax : q.maxConnections = p.maxConnections) (hnext : q.next = p.next)
    (hpermits : ∀ i, q.permits i = p.permits i) (hfull : q.waiters ≠ [] → p.waiters ≠ [])
    (hfifo : (q.handed ++ q.waiters).Pairwise (· < ·)) (hhanded : ∀ i ∈ q.handed, i < q.next)
    (hgauge : q.upstreamRqPendingActive = q.waiters.length) : Counts q where
  nonneg := by rw [hactive]; exact h.nonneg
  le_max := by rw [hactive, hmax]; exact h.le_max
  accounted := by
    rw [hactive, h.accounted, ← q.tally_permits, ← p.tally_permits, hnext]
    exact tally_congr fun i _ => (hpermits i).symm
  full_of_waiters hw := by rw [hactive, hmax]; exact h.full_of_waiters (hfull hw)
  fifo := hfifo
  handed_lt := hhanded
  gauge := hgauge

theorem of_new (h : Counts p) (d : ℤ) (hactive : q.activeConns = p.activeConns + d)
    (hnext : q.next = p.next + 1) (hold : ∀ i < p.next, q.permits i = p.permits i)
    (hnew : q.permits p.next = d) (hmax : q.activeConns ≤ max q.maxConnections 0)
    (hfull : q.waiters ≠ [] → q.maxConnections ≤ q.activeConns)
    (hfifo : (q.handed ++ q.waiters).Pairwise (· < ·)) (hhanded : ∀ i ∈ q.handed, i < q.next)
    (hgauge : q.upstreamRqPendingActive = q.waiters.length) : Counts q where
  nonneg := by
    have hd := q.permits_nonneg p.next
    have hp := h.nonneg
    omega
  le_max := hmax
  accounted := by
    rw [← q.tally_permits, hnext, tally_succ, hnew, tally_congr hold, p.tally_permits, hactive,
      h.accounted]
  full_of_waiters := hfull
  fifo := hfifo
  handed_lt := hhanded
  gauge := hgauge

end Counts

structure Kept (p : ConnPool) : Prop where
  transit : Transit p
  counts : Counts p

namespace Kept

variable {p : ConnPool}

theorem fresh_out (h : Kept p) : p.next ∉ p.waiters :=
  h.transit.notMem (by rw [h.transit.fresh _ le_rfl]; rfl)

variable {i : ℕ} {ph : Phase}

variable (h : Kept p)

include h

theorem lt_of_ne_idle (hi : p.phase i ≠ .idle) : i < p.next := by
  by_contra hge
  exact hi (h.transit.fresh i (not_lt.mp hge))

theorem lt_of_mem (hi : i ∈ p.waiters) : i < p.next := by
  apply h.lt_of_ne_idle
  intro hidle
  exact h.transit.notMem (i := i) (by rw [hidle]; rfl) hi

theorem transit_new (haw : ph.awaits = false) (hns : ∀ w back, ph ≠ .sending w back) :
    Transit ({ p with next := p.next + 1 }.setPhase p.next ph) := by
  have hidle : p.phase p.next = .idle := h.transit.fresh _ le_rfl
  refine h.transit.setPhase (Nat.le_succ _) (Nat.lt_succ_self _) ?_ ?_ ?_ hns
  · rw [haw, hidle]
    rfl
  · intro hmem
    exact absurd hmem h.fresh_out
  · intro w back
    rw [hidle]
    exact Phase.noConfusion

theorem takePermit (hlt : p.activeConns < p.maxConnections) :
    Kept ({ p with next := p.next + 1 }.takePermit p.next) := by
  have hnone : p.waiters = [] := by
    by_contra hw
    exact absurd (h.counts.full_of_waiters hw) (by omega)
  refine ⟨(h.transit_new rfl fun _ _ => Phase.noConfusion).congr rfl rfl rfl rfl, ?_⟩
  refine h.counts.of_new 1 rfl rfl ?_ ?_ ?_ ?_ h.counts.fifo ?_ h.counts.gauge
  · intro i hi
    exact ConnPool.permits_congr (by simp [ConnPool.takePermit, ConnPool.setPhase, hi.ne]) Iff.rfl
  · exact ConnPool.permits_of_holds (by simp [ConnPool.takePermit, ConnPool.setPhase, Phase.holds])
  · change p.activeConns + 1 ≤ max p.maxConnections 0
    omega
  · intro hw
    exact absurd hnone hw
  · exact fun i hi => Nat.lt_succ_of_lt (h.counts.handed_lt i hi)

theorem refuse {q : ConnPool} (hq : q.phase = Function.update p.phase p.next .failed)
    (hnext : q.next = p.next + 1) (hw : q.waiters = p.waiters) (hchan : q.chan = p.chan)
    (hactive : q.activeConns = p.activeConns) (hmax : q.maxConnections = p.maxConnections)
    (hh : q.handed = p.handed) (hg : q.upstreamRqPendingActive = p.upstreamRqPendingActive) :
    Kept q := by
  refine ⟨?_, ?_⟩
  · have hfailed : Transit ({ p with next := p.next + 1 }.setPhase p.next .failed) :=
      h.transit_new rfl fun _ _ => Phase.noConfusion
    exact hfailed.congr hnext hw hq hchan
  · refine h.counts.of_new 0 ?_ hnext ?_ ?_ ?_ ?_ ?_ ?_ ?_
    · rw [hactive, add_zero]
    · intro i hi
      refine ConnPool.permits_congr ?_ (by rw [hw])
      rw [hq, Function.update_of_ne hi.ne]
    · refine ConnPool.permits_eq_zero ?_ ?_
      · rw [hq, Function.update_self]
        rfl
      · rintro ⟨haw, -⟩
        rw [hq, Function.update_self] at haw
        cases haw
    · rw [hactive, hmax]
      exact h.counts.le_max
    · rw [hw, hactive, hmax]
      exact h.counts.full_of_waiters
    · rw [hh, hw]
      exact h.counts.fifo
    · rw [hh, hnext]
      exact fun i hi => Nat.lt_succ_of_lt (h.counts.handed_lt i hi)
    · rw [hg, hw]
      exact h.counts.gauge

theorem tryAcquireConnSlot : Kept ({ p with next := p.next + 1 }.tryAcquireConnSlot p.next) := by
  unfold ConnPool.tryAcquireConnSlot
  split_ifs with hlt
  · exact h.takePermit hlt
  · exact h.refuse rfl rfl rfl rfl rfl rfl rfl rfl

theorem pend {q : ConnPool} (hcap : p.maxConnections ≤ p.activeConns)
    (hq : q.phase = Function.update p.phase p.next .waiting) (hnext : q.next = p.next + 1)
    (hw : q.waiters = p.waiters ++ [p.next]) (hchan : q.chan = p.chan)
    (hactive : q.activeConns = p.activeConns) (hmax : q.maxConnections = p.maxConnections)
    (hh : q.handed = p.handed) (hg : q.upstreamRqPendingActive = p.upstreamRqPendingActive + 1) :
    Kept q := by
  refine ⟨h.transit.enqueue.congr hnext hw hq hchan, ?_⟩
  refine h.counts.of_new 0 ?_ hnext ?_ ?_ ?_ ?_ ?_ ?_ ?_
  · rw [hactive, add_zero]
  · intro i hi
    refine ConnPool.permits_congr ?_ ?_
    · rw [hq, Function.update_of_ne hi.ne]
    · rw [hw, List.mem_append, List.mem_singleton, or_iff_left hi.ne]
  · refine ConnPool.permits_eq_zero ?_ ?_
    · rw [hq, Function.update_self]
      rfl
    · intro hoff
      exact hoff.2 (by rw [hw]; exact List.mem_append_right _ (List.mem_singleton_self _))
  · rw [hactive, hmax]
    exact h.counts.le_max
  · intro _
    rwa [hactive, hmax]
  · -- the new waiter came after everyone handed a permit and everyone queued
    rw [hh, hw, ← List.append_assoc]
    refine List.pairwise_append.mpr ⟨h.counts.fifo, List.pairwise_singleton _ _, ?_⟩
    intro i hi j hj
    rw [List.mem_singleton.mp hj]
    rcases List.mem_append.mp hi with hi | hi
    · exact h.counts.handed_lt i hi
    · exact h.lt_of_mem hi
  · rw [hh, hnext]
    exact fun i hi => Nat.lt_succ_of_lt (h.counts.handed_lt i hi)
  · rw [hg, hw, h.counts.gauge, List.length_append, List.length_singleton]
    push_cast
    rfl

theorem acquireConnOrPend : Kept ({ p with next := p.next + 1 }.acquireConnOrPend p.next) := by
  unfold ConnPool.acquireConnOrPend
  split
  · next hlt => exact h.takePermit hlt
  · next hlt =>
      split
      · exact h.refuse rfl rfl rfl rfl rfl rfl rfl rfl
      · exact h.pend (not_lt.mp hlt) rfl rfl rfl rfl rfl rfl rfl rfl

theorem receive (hc : p.chan i = true) (hph : ph.holds = true) :
    Kept ((p.setChan i false).setPhase i ph) := by
  have hns : ∀ w back, ph ≠ .sending w back := by
    rintro w back rfl
    cases hph
  refine ⟨h.transit.receive hc (Phase.awaits_of_holds hph) hns, ?_⟩
  refine h.counts.of_permits rfl rfl rfl ?_ id h.counts.fifo h.counts.handed_lt
    h.counts.gauge
  intro j
  by_cases hj : j = i
  · subst hj
    rw [ConnPool.permits_of_handedOff (h.transit.of_chan j hc)]
    exact ConnPool.permits_of_holds (by simpa [ConnPool.setPhase] using hph)
  · exact ConnPool.permits_congr (by simp [ConnPool.setPhase, ConnPool.setChan, hj]) Iff.rfl

theorem awaiting (hi : (p.phase i).awaits = true) (hph : ph.awaits = true)
    (hmem : i ∈ p.waiters → ph = .waiting ∨ ph = .cancelling) : Kept (p.setPhase i ph) := by
  have hlt : i < p.next := h.lt_of_ne_idle (by intro hp; rw [hp] at hi; cases hi)
  have hns : ∀ {x : Phase}, x.awaits = true → ∀ w back, x ≠ .sending w back := by
    rintro x hx w back rfl
    cases hx
  refine ⟨h.transit.setPhase le_rfl hlt (hph.trans hi.symm) hmem (hns hi) (hns hph), ?_⟩
  refine h.counts.of_permits rfl rfl rfl ?_ id h.counts.fifo h.counts.handed_lt
    h.counts.gauge
  intro j
  by_cases hj : j = i
  · subst hj
    have hhold : ∀ {x : Phase}, x.awaits = true → x.holds = false := by
      intro x hx
      cases hp : x.holds
      · rfl
      · rw [Phase.awaits_of_holds hp] at hx
        cases hx
    simp [ConnPool.permits, ConnPool.HandedOff, ConnPool.setPhase, hph, hi, hhold hi, hhold hph]
  · exact ConnPool.permits_congr (by simp [ConnPool.setPhase, hj]) Iff.rfl

theorem removeWaiterLocked (hi : p.phase i = .cancelling) : Kept (p.removeWaiterLocked i) := by
  unfold ConnPool.removeWaiterLocked
  split_ifs with hmem
  · refine ⟨(h.transit.leave hmem).congr rfl rfl rfl rfl, ?_⟩
    refine h.counts.of_permits rfl rfl rfl ?_ ?_ ?_ h.counts.handed_lt ?_
    · intro j
      by_cases hj : j = i
      · subst hj
        rw [ConnPool.permits_eq_zero (p := p) (by rw [hi]; rfl) fun hoff => hoff.2 hmem]
        refine ConnPool.permits_eq_zero ?_ ?_
        · simp [ConnPool.dequeue, ConnPool.setPhase, Phase.holds]
        · simp [ConnPool.dequeue, ConnPool.setPhase, ConnPool.HandedOff, Phase.awaits]
      · refine ConnPool.permits_congr ?_ ?_
        · simp [ConnPool.dequeue, ConnPool.setPhase, hj]
        · exact List.mem_erase_of_ne hj
    · intro _
      exact List.ne_nil_of_mem hmem
    · exact h.counts.fifo.sublist ((List.Sublist.refl _).append List.erase_sublist)
    · have hg := h.counts.gauge
      have hlen := List.length_erase_of_mem hmem
      have hpos := List.length_pos_of_mem hmem
      change p.upstreamRqPendingActive - 1 = ((p.waiters.erase i).length : ℤ)
      rw [hg, hlen]
      omega
  · exact h.awaiting (by rw [hi]; rfl) rfl fun hm => absurd hm hmem

theorem releaseLast (hi : (p.phase i).holds = true) (hnone : p.waiters = [])
    (haw : ph.awaits = false) (hh : ph.holds = false) (hns : ∀ w back, ph ≠ .sending w back)
    (cxOpen : ℤ) :
    Kept { p.setPhase i ph with activeConns := p.activeConns - 1, cxOpen := cxOpen } := by
  have hlt : i < p.next := h.lt_of_ne_idle (by intro hp; rw [hp] at hi; cases hi)
  have hold : ∀ w back, p.phase i ≠ .sending w back := by
    intro w back hp
    rw [hp] at hi
    cases hi
  have haw' : ph.awaits = (p.phase i).awaits := haw.trans (Phase.awaits_of_holds hi).symm
  have hmem : i ∈ p.waiters → ph = .waiting ∨ ph = .cancelling := by
    rw [hnone]
    exact fun hm => absurd hm List.not_mem_nil
  have hpermit : p.permits i = 1 := ConnPool.permits_of_holds hi
  have hcount := p.tally_permits
  have hle := le_tally p.permits_nonneg hlt
  have hacc := h.counts.accounted
  have hmax := h.counts.le_max
  refine ⟨(h.transit.setPhase le_rfl hlt haw' hmem hold hns).congr rfl rfl rfl rfl, ?_⟩
  refine ⟨?_, ?_, ?_, ?_, h.counts.fifo, h.counts.handed_lt, h.counts.gauge⟩
  · change 0 ≤ p.activeConns - 1
    omega
  · change p.activeConns - 1 ≤ max p.maxConnections 0
    omega
  · have hzero : ({ p.setPhase i ph with
        activeConns := p.activeConns - 1, cxOpen := cxOpen } : ConnPool).permits i = 0 := by
      refine ConnPool.permits_eq_zero ?_ ?_
      · simpa [ConnPool.setPhase] using hh
      · simp [ConnPool.HandedOff, ConnPool.setPhase, haw]
    have hmove := tally_replace (w := p.permits) (v := ({ p.setPhase i ph with
        activeConns := p.activeConns - 1, cxOpen := cxOpen } : ConnPool).permits) hlt
      fun j hj => ConnPool.permits_congr (by simp [ConnPool.setPhase, hj]) Iff.rfl
    rw [← ConnPool.tally_permits]
    change p.activeConns - 1 = tally p.next _
    rw [hmove, hzero, hpermit]
    omega
  · intro hw
    exact absurd hnone hw

theorem releaseHand {w : ℕ} {ws : List ℕ} (hi : (p.phase i).holds = true)
    (hw : p.waiters = w :: ws) (back : Bool) :
    Kept { (p.dequeue ws).setPhase i (.sending w back) with handed := p.handed ++ [w] } := by
  have hwmem : w ∈ p.waiters := by rw [hw]; exact List.mem_cons_self
  have hiout : i ∉ p.waiters := h.transit.notMem (Phase.awaits_of_holds hi)
  have hiw : w ≠ i := by
    rintro rfl
    exact hiout hwmem
  have hwaits : (p.phase w).awaits = true := by
    rcases h.transit.queued w hwmem with hq | hq
    · rw [hq]
      rfl
    · rw [hq]
      rfl
  have hilt : i < p.next := h.lt_of_ne_idle (by intro hp; rw [hp] at hi; cases hi)
  have hwlt : w < p.next := h.lt_of_mem hwmem
  obtain ⟨hwout, -⟩ := List.nodup_cons.mp (hw ▸ h.transit.nodup)
  -- first the waiter is owed the permit, then the holder is without it
  let mid : ConnPool := { p with waiters := ws }
  have hmid : tally p.next mid.permits = tally p.next p.permits + 1 := by
    have hnew : mid.permits w = 1 := ConnPool.permits_of_handedOff ⟨hwaits, hwout⟩
    have hold : p.permits w = 0 := by
      refine ConnPool.permits_eq_zero ?_ fun hoff => hoff.2 hwmem
      cases hh : (p.phase w).holds
      · rfl
      · rw [Phase.awaits_of_holds hh] at hwaits
        cases hwaits
    have hrest : ∀ j, j ≠ w → mid.permits j = p.permits j := by
      intro j hj
      refine ConnPool.permits_congr rfl ?_
      rw [hw, List.mem_cons, or_iff_right hj]
    rw [tally_replace hwlt hrest, hnew, hold, sub_zero]
  have hlast : ∀ q : ConnPool, q.phase = Function.update p.phase i (.sending w back) →
      q.waiters = ws → tally p.next q.permits = tally p.next mid.permits - 1 := by
    intro q hq hqw
    have hnew : q.permits i = 0 := by
      refine ConnPool.permits_eq_zero ?_ ?_
      · rw [hq, Function.update_self]
        rfl
      · rintro ⟨haw, -⟩
        rw [hq, Function.update_self] at haw
        cases haw
    have hold : mid.permits i = 1 := ConnPool.permits_of_holds hi
    have hrest : ∀ j, j ≠ i → q.permits j = mid.permits j := by
      intro j hj
      refine ConnPool.permits_congr ?_ (by rw [hqw])
      rw [hq, Function.update_of_ne hj]
    rw [tally_replace hilt hrest, hnew, hold]
    omega
  refine ⟨(h.transit.handOff hw hi back).congr rfl rfl rfl rfl, ?_⟩
  refine ⟨h.counts.nonneg, h.counts.le_max, ?_, ?_, ?_, ?_, ?_⟩
  · rw [← ConnPool.tally_permits]
    change p.activeConns = tally p.next _
    rw [hlast _ rfl rfl, hmid, p.tally_permits, h.counts.accounted]
    omega
  · intro _
    exact h.counts.full_of_waiters (List.ne_nil_of_mem hwmem)
  · change (p.handed ++ [w] ++ ws).Pairwise (· < ·)
    rw [List.append_assoc, List.singleton_append, ← hw]
    exact h.counts.fifo
  · intro j hj
    rcases List.mem_append.mp hj with hj | hj
    · exact h.counts.handed_lt j hj
    · exact List.mem_singleton.mp hj ▸ hwlt
  · have hg := h.counts.gauge
    change p.upstreamRqPendingActive - 1 = (ws.length : ℤ)
    rw [hg, hw, List.length_cons]
    omega

theorem releaseConn (hi : (p.phase i).holds = true) (gaveBack : Bool) :
    Kept (p.releaseConn i gaveBack) := by
  unfold ConnPool.releaseConn
  split
  · next w ws hw => exact h.releaseHand hi hw gaveBack
  · next hw =>
      refine h.releaseLast hi hw ?_ ?_ ?_ _
      · cases gaveBack <;> rfl
      · cases gaveBack <;> rfl
      · intro w back
        cases gaveBack <;> exact Phase.noConfusion

theorem send {w : ℕ} {back : Bool} (hi : p.phase i = .sending w back) (haw : ph.awaits = false)
    (hh : ph.holds = false) (hns : ∀ w back, ph ≠ .sending w back) :
    Kept ((p.setChan w true).setPhase i ph) := by
  refine ⟨h.transit.send hi haw hns, ?_⟩
  refine h.counts.of_permits rfl rfl rfl ?_ id h.counts.fifo h.counts.handed_lt
    h.counts.gauge
  intro j
  by_cases hj : j = i
  · subst hj
    rw [ConnPool.permits_eq_zero (p := p) (by rw [hi]; rfl) (by
      rintro ⟨hold, -⟩
      rw [hi] at hold
      cases hold)]
    refine ConnPool.permits_eq_zero ?_ ?_
    · simpa [ConnPool.setPhase] using hh
    · simp [ConnPool.HandedOff, ConnPool.setPhase, haw]
  · exact ConnPool.permits_congr (by simp [ConnPool.setPhase, ConnPool.setChan, hj]) Iff.rfl

protected theorem step (e : Event) : Kept (step p e) := by
  cases e with
  | acquireConnOrPend => exact h.acquireConnOrPend
  | tryAcquireConnSlot => exact h.tryAcquireConnSlot
  | receive i =>
    simp only [step]
    split
    · next hi => exact h.receive hi.2 rfl
    · exact h
  | ctxDone i =>
    simp only [step]
    split
    · next hi => exact h.awaiting (by rw [hi]; rfl) rfl fun _ => Or.inr rfl
    · exact h
  | removeWaiter i =>
    simp only [step]
    split
    · next hi => exact h.removeWaiterLocked hi
    · exact h
  | drain i =>
    simp only [step]
    split
    · next hi => exact h.receive hi.2 rfl
    · exact h
  | giveBack i =>
    simp only [step]
    split
    · next hi => exact h.releaseConn (by rw [hi]; rfl) true
    · exact h
  | releaseConn i =>
    simp only [step]
    split
    · next hi => exact h.releaseConn (by rw [hi]; rfl) false
    · exact h
  | send i =>
    simp only [step]
    split
    · next w gaveBack hi =>
        refine h.send hi ?_ ?_ ?_
        · cases gaveBack <;> rfl
        · cases gaveBack <;> rfl
        · intro w back
          cases gaveBack <;> exact Phase.noConfusion
    · exact h

end Kept

theorem kept_new (maxConnections maxPendingRequests : ℤ) :
    Kept { maxConnections := maxConnections, maxPendingRequests := maxPendingRequests } where
  transit := by
    refine ⟨fun _ _ => rfl, List.nodup_nil, ?_, ?_, ?_, ?_, ?_⟩
    · intro i hi
      exact absurd hi List.not_mem_nil
    · intro i hi
      cases hi
    · intro r i back hr
      cases hr
    · intro r r' i back back' hr
      cases hr
    · rintro i ⟨haw, -⟩
      cases haw
  counts := by
    refine ⟨le_rfl, le_max_right _ _, rfl, fun hw => absurd rfl hw, List.Pairwise.nil, ?_, rfl⟩
    exact fun i hi => absurd hi List.not_mem_nil

/-- Whatever the calls of a pool do in whatever order, the budget is kept: the count is within the
cap and tells the permits held and handed off, waiters stand only at the cap and get permits in
the order they came, a failed call holds none, and the gauge is the length of the queue. -/
theorem budget_kept (maxConnections maxPendingRequests : ℤ) (es : List Event) :
    Budgeted (run maxConnections maxPendingRequests es) := by
  have hstep : ∀ p e, Kept p → Kept (step p e) := fun p e h => h.step e
  have h := invariant_of_run hstep es _ (kept_new maxConnections maxPendingRequests)
  exact h.transit.budgeted h.counts

end EnvoyGo.ConnBudget

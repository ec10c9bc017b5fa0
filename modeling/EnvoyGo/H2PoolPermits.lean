import EnvoyGo.H2PoolSlots

/-!
Permits and load-balancer releases: what each call has reserved, given back and released,
whatever becomes of its dial and of its connection.
-/

namespace EnvoyGo.H2Pool

open Tally Cluster

/-- Before a permit, with a permit and no connection, with a connection whose handshake is
under way, and after. -/
inductive Stage
  | start
  | permit
  | made
  | ended
  deriving DecidableEq

def Phase.stage : Phase → Stage
  | .idle => .start
  | .picked => .start
  | .missed => .start
  | .pending => .start
  | .queued => .start
  | .granted (some _) => .start
  | .raced => .start
  | .handed => .permit
  | .dialing => .permit
  | .granted none => .permit
  | .connecting => .permit
  | .shaking => .made
  | .dialFailed => .ended
  | .attached _ => .ended
  | .riding _ => .ended
  | .returned => .ended

def unit (p : Option ConnPool) : Nat := if p.isSome then 1 else 0

/-- What a call has done once it owes nothing but its open connection. -/
structure Settled (u : Nat) (c : Call) (k : Conn) : Prop where
  opened : k.opened = true → c.permits = u ∧ c.lbReleases = k.once.toNat ∧
    c.permitsBack = u * k.once.toNat
  none : k.opened = false → c.lbReleases = 1 ∧ c.permitsBack = c.permits ∧ c.permits ≤ u

structure CallOk (u : Nat) (c : Call) (k : Conn) : Prop where
  once : k.once = true → k.opened = true
  start : c.phase.stage = .start →
    c.lbReleases = 0 ∧ c.permits = 0 ∧ c.permitsBack = 0 ∧ k.opened = false
  permit : c.phase.stage = .permit →
    c.lbReleases = 0 ∧ c.permits = u ∧ c.permitsBack = 0 ∧ k.opened = false
  made : c.phase.stage = .made → k.opened = true
  ended : c.phase.stage = .made ∨ c.phase.stage = .ended → Settled u c k

/-- Permits reserved and not given back by the first `n` calls. -/
def heldPermits (n : CallId) (calls : CallId → Call) : Int :=
  tally n (fun i => (calls i).permits - (calls i).permitsBack)

structure Ledger (s : Cluster) : Prop where
  ok : ∀ i, CallOk (unit s.pool) (s.calls i) (s.conns i)
  held : ∀ p, s.pool = some p → p.activeConns = heldPermits s.next s.calls

variable {u : Nat} {c : Call} {i : CallId}

theorem CallOk.ended_of_opened {k : Conn} (h : CallOk u c k) (hk : k.opened = true) :
    c.phase.stage = .made ∨ c.phase.stage = .ended := by
  cases hs : c.phase.stage with
  | start =>
    have := (h.start hs).2.2.2
    rw [hk] at this
    cases this
  | permit =>
    have := (h.permit hs).2.2.2
    rw [hk] at this
    cases this
  | made => exact .inl rfl
  | ended => exact .inr rfl

theorem CallOk.of_settled {k : Conn}
    (hp : c.phase.stage = .made ∧ k.opened = true ∨ c.phase.stage = .ended)
    (ho : k.once = true → k.opened = true) (h : Settled u c k) : CallOk u c k where
  once := ho
  start hs := by rcases hp with ⟨hp, -⟩ | hp <;> rw [hp] at hs <;> cases hs
  permit hs := by rcases hp with ⟨hp, -⟩ | hp <;> rw [hp] at hs <;> cases hs
  made hs := by
    rcases hp with ⟨-, hk⟩ | hp
    · exact hk
    · rw [hp] at hs
      cases hs
  ended _ := h

theorem CallOk.of_permit {k : Conn} (hp : c.phase.stage = .permit)
    (ho : k.once = true → k.opened = true)
    (h : c.lbReleases = 0 ∧ c.permits = u ∧ c.permitsBack = 0 ∧ k.opened = false) :
    CallOk u c k where
  once := ho
  start hs := by rw [hp] at hs; cases hs
  permit _ := h
  made hs := by rw [hp] at hs; cases hs
  ended hs := by rcases hs with hs | hs <;> rw [hp] at hs <;> cases hs

theorem heldPermits_update {n : CallId} (hi : i < n) (calls : CallId → Call) (c : Call) :
    heldPermits n (Function.update calls i c) = heldPermits n calls +
      ((c.permits - c.permitsBack : Int) - ((calls i).permits - (calls i).permitsBack)) := by
  have hrest : ∀ j, j ≠ i → ((Function.update calls i c j).permits -
      (Function.update calls i c j).permitsBack : Int) =
        (calls j).permits - (calls j).permitsBack := by
    intro j hj
    rw [Function.update_of_ne hj]
  have := tally_replace hi hrest
  rw [Function.update_self] at this
  exact this

theorem heldPermits_of_same {n : CallId} (calls : CallId → Call) (c : Call)
    (hc : c.permits = (calls i).permits) (hb : c.permitsBack = (calls i).permitsBack) :
    heldPermits n (Function.update calls i c) = heldPermits n calls := by
  apply tally_congr
  intro j _
  rcases eq_or_ne j i with rfl | hj
  · rw [Function.update_self, hc, hb]
  · rw [Function.update_of_ne hj]

theorem callOk_update {calls : CallId → Call} {conns : CallId → Conn}
    (h : ∀ j, CallOk u (calls j) (conns j)) (hc : CallOk u c (conns i)) (j : CallId) :
    CallOk u (Function.update calls i c j) (conns j) := by
  rcases eq_or_ne j i with rfl | hj
  · rw [Function.update_self]
    exact hc
  · rw [Function.update_of_ne hj]
    exact h j

theorem setPhase_lbRelease (s : Cluster) (i : CallId) (p : Phase) :
    (s.setPhase i p).lbRelease i =
      s.setCall i { s.calls i with phase := p, lbReleases := (s.calls i).lbReleases + 1 } := by
  simp only [Cluster.lbRelease, Cluster.setPhase, Cluster.setCall, Function.update_self,
    Function.update_idem]

namespace Ledger

variable {s : Cluster}

variable {i : CallId} {p : Phase}

theorem setPhase (h : Ledger s) (hp : p.stage = (s.calls i).phase.stage) :
    Ledger (s.setPhase i p) where
  ok := by
    apply callOk_update h.ok
    have hi := h.ok i
    refine ⟨hi.once, fun hs => ?_, fun hs => ?_, fun hs => ?_, fun hs => ?_⟩
    · exact hi.start (hp.symm.trans hs)
    · exact hi.permit (hp.symm.trans hs)
    · exact hi.made (hp.symm.trans hs)
    · exact { hi.ended (hs.imp hp.symm.trans hp.symm.trans) with }
  held := by
    intro q hq
    rw [h.held q hq]
    symm
    apply heldPermits_of_same <;> rfl

theorem finish (h : Ledger s) (hold : (s.calls i).phase.stage = .made) (hp : p.stage = .ended) :
    Ledger (s.setPhase i p) where
  ok := by
    apply callOk_update h.ok
    exact CallOk.of_settled (.inr hp) (h.ok i).once { (h.ok i).ended (.inl hold) with }
  held := by
    intro q hq
    rw [h.held q hq]
    symm
    apply heldPermits_of_same <;> rfl

theorem leave (h : Ledger s) (hold : (s.calls i).phase.stage = .start) (hp : p.stage = .ended) :
    Ledger ((s.setPhase i p).lbRelease i) := by
  obtain ⟨hlb, hperm, hback, hopen⟩ := (h.ok i).start hold
  rw [setPhase_lbRelease]
  constructor
  · apply callOk_update h.ok
    apply CallOk.of_settled (.inr hp) (h.ok i).once
    refine ⟨fun hk => ?_, fun _ => ⟨?_, ?_, ?_⟩⟩
    · rw [hopen] at hk
      cases hk
    · simp only [hlb]
    · simp only [hback, hperm]
    · simp only [hperm, Nat.zero_le]
  · intro q hq
    rw [h.held q hq]
    symm
    apply heldPermits_of_same <;> rfl

theorem reserve (h : Ledger s) {s' : Cluster} (hi : i < s.next)
    (hold : (s.calls i).phase.stage = .start) (hp : p.stage = .permit)
    (hs : s.tryAcquireConnSlot i = some s') : Ledger (s'.setPhase i p) := by
  obtain ⟨hlb, hperm, hback, hopen⟩ := (h.ok i).start hold
  obtain ⟨hpool, he⟩ | ⟨q, hpool, -, he⟩ | ⟨q, -, -, he⟩ := tryAcquireConnSlot_cases s i
  · rw [he] at hs
    obtain rfl := Option.some.inj hs
    have hu : unit s.pool = 0 := by rw [hpool]; rfl
    constructor
    · apply callOk_update h.ok
      exact CallOk.of_permit hp (h.ok i).once ⟨hlb, hperm.trans hu.symm, hback, hopen⟩
    · intro q hq
      have hq' : s.pool = some q := hq
      rw [hpool] at hq'
      cases hq'
  · rw [he] at hs
    obtain rfl := Option.some.inj hs
    have hu : unit s.pool = 1 := by rw [hpool]; rfl
    simp only [Cluster.setPhase, Cluster.countPermit, Cluster.setCall, Cluster.setPool,
      Function.update_self, Function.update_idem]
    have hok : ∀ j, CallOk 1 (s.calls j) (s.conns j) := by
      intro j
      rw [← hu]
      exact h.ok j
    constructor
    · apply callOk_update hok
      refine CallOk.of_permit hp (h.ok i).once ⟨hlb, ?_, hback, hopen⟩
      simp only [hperm]
    · rintro _ ⟨⟩
      simp only
      rw [heldPermits_update hi, h.held q hpool]
      simp only [hperm, hback]
      omega
  · rw [he] at hs
    exact absurd hs (by simp)

theorem releaseConn {p : ConnPool} (hpool : s.pool = some p)
    (hok : ∀ j, CallOk (unit s.pool) (s.calls j) (s.conns j))
    (hheld : p.activeConns = heldPermits s.next s.calls + 1)
    (hw : ∀ w ∈ p.waiters, (s.calls w).phase = .pending ∧ w < s.next) : Ledger s.releaseConn := by
  have hu : unit s.pool = 1 := by rw [hpool]; rfl
  rw [hu] at hok
  obtain ⟨hp, -⟩ | ⟨q, hq, hnil, he⟩ | ⟨q, w, ws, hq, hcons, he⟩ := releaseConn_cases s
  · rw [hpool] at hp
    cases hp
  · rw [hpool] at hq
    obtain rfl := Option.some.inj hq
    rw [he]
    refine ⟨hok, ?_⟩
    rintro _ ⟨⟩
    change p.activeConns - 1 = heldPermits s.next s.calls
    omega
  · rw [hpool] at hq
    obtain rfl := Option.some.inj hq
    obtain ⟨hphase, hlt⟩ := hw w (by rw [hcons]; exact List.mem_cons_self)
    obtain ⟨hlb, hperm, hback, hopen⟩ := (hok w).start (by rw [hphase]; rfl)
    rw [he]
    simp only [Cluster.setPhase, Cluster.countPermit, Cluster.setCall, Cluster.setPool,
      Function.update_self, Function.update_idem]
    constructor
    · apply callOk_update hok
      refine CallOk.of_permit rfl (hok w).once ⟨hlb, ?_, hback, hopen⟩
      simp only [hperm]
    · rintro _ ⟨⟩
      simp only
      rw [heldPermits_update hlt, hheld]
      simp only [hperm, hback]
      omega

theorem releaseConnSlot (hs : SlotInv s) (hlt : i < s.next)
    (hok : ∀ j, j ≠ i → CallOk (unit s.pool) (s.calls j) (s.conns j)) (hi : CallOk (unit s.pool)
      { s.calls i with permitsBack := (s.calls i).permitsBack + unit s.pool } (s.conns i))
    (hheld : ∀ p, s.pool = some p → p.activeConns = heldPermits s.next s.calls) :
    Ledger (s.releaseConnSlot i) := by
  unfold Cluster.releaseConnSlot
  split
  · rename_i hpool
    have hu : unit s.pool = 0 := by rw [hpool]; rfl
    refine ⟨fun j => ?_, hheld⟩
    rcases eq_or_ne j i with rfl | hj
    · rw [hu] at hi ⊢
      exact hi
    · exact hok j hj
  · rename_i p hpool
    have hu : unit s.pool = 1 := by rw [hpool]; rfl
    rw [hu] at hi
    have hpool' : (s.countPermitBack i).pool = some p := hpool
    apply releaseConn hpool'
    · intro j
      rcases eq_or_ne j i with rfl | hj
      · simp only [countPermitBack, Cluster.setCall, Function.update_self, hu]
        exact hi
      · simp only [countPermitBack, Cluster.setCall, Function.update_of_ne hj]
        exact hok j hj
    · simp only [countPermitBack, Cluster.setCall]
      rw [heldPermits_update hlt, hheld p hpool]
      simp only
      omega
    · intro w hw
      have hview : (s.countPermitBack i).view = s.view := view_countPermitBack s i
      have hmem : w ∈ s.view.waiters := by simpa only [view, budgetWaiters, hpool] using hw
      have hpend := (hs.accounted.mem_pending w).mp hmem
      have hw' : (s.countPermitBack i).view.phase w = .pending := by rw [hview]; exact hpend
      exact ⟨hw', hs.accounted.not_idle_lt (by rw [hpend]; simp)⟩

theorem abandon (h : Ledger s) (hs : SlotInv ((s.setPhase i p).lbRelease i)) (hlt : i < s.next)
    (hold : (s.calls i).phase.stage = .permit) (hp : p.stage = .ended) :
    Ledger (((s.setPhase i p).lbRelease i).releaseConnSlot i) := by
  obtain ⟨hlb, hperm, hback, hopen⟩ := (h.ok i).permit hold
  rw [setPhase_lbRelease] at hs ⊢
  apply releaseConnSlot hs hlt
  · intro j hj
    simp only [Cluster.setCall, Function.update_of_ne hj]
    exact h.ok j
  · simp only [Cluster.setCall, Function.update_self]
    apply CallOk.of_settled (.inr hp) (h.ok i).once
    refine ⟨fun hk => ?_, fun _ => ⟨?_, ?_, ?_⟩⟩
    · rw [hopen] at hk
      cases hk
    · simp only [hlb]
    · simp only [hback, hperm, Nat.zero_add]
    · exact hperm.le
  · intro q hq
    rw [h.held q hq]
    symm
    apply heldPermits_of_same <;> rfl

theorem closeConn (h : Ledger s) (hs : SlotInv s) {k : CallId}
    (hk : (s.conns k).opened = true) : Ledger (s.closeConn k) := by
  unfold Cluster.closeConn
  split_ifs with honce
  · exact h
  · have hover := (h.ok k).ended_of_opened hk
    obtain ⟨hperm, hlb, hback⟩ := ((h.ok k).ended hover).opened hk
    have hlt : k < s.next := by
      apply hs.accounted.not_idle_lt
      intro hidle
      have hidle' : (s.calls k).phase = .idle := hidle
      rw [hidle'] at hover
      rcases hover with hover | hover <;> cases hover
    have honce' : (s.conns k).once = false := by simpa using honce
    rw [honce'] at hlb hback
    have hs' : SlotInv ((s.setConn k { s.conns k with once := true }).lbRelease k) :=
      (hs.setConn k _).of_view (view_lbRelease _ k)
    apply releaseConnSlot hs' hlt
    · intro j hj
      simp only [Cluster.lbRelease, Cluster.setCall, Cluster.setConn, Function.update_of_ne hj]
      exact h.ok j
    · simp only [Cluster.lbRelease, Cluster.setCall, Cluster.setConn, Function.update_self]
      refine CallOk.of_settled (hover.imp_left (⟨·, hk⟩)) (fun _ => hk)
        ⟨fun _ => ⟨hperm, ?_, ?_⟩, fun hne => ?_⟩
      · simp only [hlb]
        rfl
      · simp only [hback]
        simp
      · rw [show (s.conns k).opened = false from hne] at hk
        cases hk
    · intro q hq
      rw [h.held q hq]
      symm
      apply heldPermits_of_same <;> rfl

theorem opens (h : Ledger s) (hold : (s.calls i).phase.stage = .permit)
    (hp : p.stage = .made ∨ p.stage = .ended) :
    Ledger ((s.setConn i { s.conns i with opened := true }).setPhase i p) := by
  obtain ⟨hlb, hperm, hback, hopen⟩ := (h.ok i).permit hold
  have honce : (s.conns i).once = false := by
    by_contra hne
    rw [(h.ok i).once (by simpa using hne)] at hopen
    cases hopen
  constructor
  · intro j
    rcases eq_or_ne j i with rfl | hj
    · simp only [Cluster.setPhase, Cluster.setCall, Cluster.setConn, Function.update_self]
      apply CallOk.of_settled (hp.imp_left (⟨·, rfl⟩)) (fun _ => rfl)
      refine ⟨fun _ => ⟨hperm, ?_, ?_⟩, fun hne => by cases hne⟩
      · simp only [honce, hlb]
        rfl
      · simp only [honce, hback]
        rfl
    · simp only [Cluster.setPhase, Cluster.setCall, Cluster.setConn, Function.update_of_ne hj]
      exact h.ok j
  · intro q hq
    rw [h.held q hq]
    symm
    apply heldPermits_of_same <;> rfl

theorem setConn (h : Ledger s) {k : CallId} {c : Conn}
    (hc : c.opened = (s.conns k).opened ∧ c.once = (s.conns k).once) : Ledger (s.setConn k c) := by
  refine ⟨?_, h.held⟩
  intro j
  rcases eq_or_ne j k with rfl | hj
  · simp only [Cluster.setConn, Function.update_self]
    have hj := h.ok j
    refine ⟨?_, ?_, ?_, ?_, ?_⟩
    · rw [hc.1, hc.2]
      exact hj.once
    · rw [hc.1]
      exact hj.start
    · rw [hc.1]
      exact hj.permit
    · rw [hc.1]
      exact hj.made
    · intro hs
      refine ⟨?_, ?_⟩ <;> rw [hc.1]
      · rw [hc.2]
        exact (hj.ended hs).opened
      · exact (hj.ended hs).none
  · simp only [Cluster.setConn, Function.update_of_ne hj]
    exact h.ok j

theorem setPool (h : Ledger s) {p q : ConnPool} (hp : s.pool = some p)
    (hq : q.activeConns = p.activeConns) : Ledger (s.setPool q) where
  ok := by
    have hu : unit s.pool = unit (some q) := by rw [hp]; rfl
    intro j
    exact hu ▸ h.ok j
  held := by
    rintro _ ⟨⟩
    rw [hq]
    exact h.held p hp

theorem promote (h : Ledger s) (hs : SlotInv s) (a : String) : Ledger (s.h2PromoteLocked a) := by
  obtain ⟨-, he⟩ | ⟨w, q, k, hw, -, he⟩ | ⟨w, q, s', hw, -, hs', he⟩ | ⟨w, q, -, -, -, he⟩ :=
    h2PromoteLocked_cases s a
  · rw [he]
    exact h
  · have hq : (s.calls w).phase = .queued :=
      ((hs.accounted.mem_waiters a w).mp (by
        change w ∈ s.h2Waiters a
        rw [hw]
        exact List.mem_cons_self)).1
    have hmoved : Ledger (((s.addInFlight k 1).addStreamsActive 1).setH2Waiters a q) :=
      ⟨h.ok, h.held⟩
    rw [he]
    apply hmoved.setPhase
    change _ = (s.calls w).phase.stage
    rw [hq]
    rfl
  · have hq : (s.calls w).phase = .queued :=
      ((hs.accounted.mem_waiters a w).mp (by
        change w ∈ s.h2Waiters a
        rw [hw]
        exact List.mem_cons_self)).1
    have hlt : w < s.next := hs.accounted.not_idle_lt (by
      change (s.calls w).phase ≠ .idle
      rw [hq]
      simp)
    have hres : Ledger (s'.setPhase w (.granted none)) :=
      h.reserve hlt (by rw [hq]; rfl) rfl hs'
    rw [he]
    exact ⟨hres.ok, hres.held⟩
  · rw [he]
    exact h

end Ledger

structure Booked (s : Cluster) : Prop where
  slots : SlotInv s
  ledger : Ledger s
  opened : ∀ k, s.view.ready k = some .established → (s.conns k).opened = true

namespace Booked

variable {s : Cluster}

variable {i k : CallId}

theorem phase_lt (h : Booked s) (hi : (s.calls i).phase ≠ .idle) : i < s.next :=
  h.slots.accounted.not_idle_lt hi

theorem of_same {t : Cluster} (h : Booked s) (hs : SlotInv t) (hl : Ledger t)
    (hr : t.view.ready = s.view.ready) (hc : t.conns = s.conns) : Booked t where
  slots := hs
  ledger := hl
  opened := by
    rw [hr, hc]
    exact h.opened

variable (h : Booked s)

include h

theorem promote (a : String) : Booked (s.h2PromoteLocked a) :=
  h.of_same (h.slots.promote a) (h.ledger.promote h.slots a) (ready_h2PromoteLocked s a)
    (conns_h2PromoteLocked s a)

theorem opened_update {t : Cluster} {c : Conn} (hr : t.view.ready = s.view.ready)
    (hc : t.conns = Function.update s.conns k c) (hk : c.opened = (s.conns k).opened) (j : CallId)
    (hj : t.view.ready j = some .established) : (t.conns j).opened = true := by
  rw [hr] at hj
  rw [hc, Function.update_apply]
  split_ifs with hjk
  · rw [hk, ← hjk]
    exact h.opened j hj
  · exact h.opened j hj

theorem closeConn (hk : (s.conns k).opened = true) : Booked (s.closeConn k) where
  slots := h.slots.closeConn k
  ledger := h.ledger.closeConn h.slots hk
  opened := h.opened_update (ready_closeConn s k) (conns_closeConn s k) rfl

theorem evict (a : String) (hk : (s.conns k).opened = true) : Booked (s.evictH2ConnLocked a k) where
  slots := h.slots.evict a k
  ledger := by
    have hout : SlotInv (s.setH2Pool a ((s.h2Pool a).erase k)) :=
      ⟨h.slots.accounted.evict a k, h.slots.cap_pos⟩
    have hl : Ledger (s.setH2Pool a ((s.h2Pool a).erase k)) := ⟨h.ledger.ok, h.ledger.held⟩
    have hl' := hl.setConn (k := k) (c := { s.conns k with closed := true }) ⟨rfl, rfl⟩
    apply hl'.closeConn (hout.setConn k _)
    simp only [Cluster.setConn, Cluster.setH2Pool, Function.update_self]
    exact hk
  opened := h.opened_update (ready_evictH2ConnLocked s a k) (conns_evictH2ConnLocked s a k) rfl

theorem pooled_opened {a : String} (hk : k ∈ s.h2Pool a) : (s.conns k).opened = true :=
  h.opened k (h.slots.accounted.pooled a k hk).2

theorem leave {p : Phase} {t : Cluster} (ht : SlotInv ((t.setPhase i p).lbRelease i))
    (hl : Ledger t) (hold : (t.calls i).phase.stage = .start) (hp : p.stage = .ended)
    (hr : t.view.ready = s.view.ready) (hc : t.conns = s.conns) :
    Booked ((t.setPhase i p).lbRelease i) := by
  refine h.of_same ht (hl.leave hold hp) ?_ hc
  rw [view_lbRelease, view_setPhase]
  exact hr

theorem abandon {p : Phase} (hs : SlotInv ((s.setPhase i p).lbRelease i))
    (hi : (s.calls i).phase ≠ .idle) (hold : (s.calls i).phase.stage = .permit)
    (hp : p.stage = .ended) : Booked (((s.setPhase i p).lbRelease i).releaseConnSlot i) := by
  apply h.of_same (hs.of_wake (view_releaseConnSlot _ i))
    (h.ledger.abandon hs (h.phase_lt hi) hold hp)
  · rw [view_releaseConnSlot, ready_wake, view_lbRelease, view_setPhase]
    rfl
  · rw [conns_releaseConnSlot]
    rfl

theorem register {s' : Cluster} (hs : SlotInv (s'.register i))
    (hl : Ledger (s'.setPhase i .connecting)) (hv : s'.view = s.view) (hc : s'.conns = s.conns) :
    Booked (s'.register i) where
  slots := hs
  ledger := ⟨hl.ok, hl.held⟩
  opened := by
    intro k hk
    have hconns : (s'.register i).conns = s.conns := hc
    rw [hconns]
    simp only [Cluster.register, view_setPhase, view_addStreamsActive, view_setConnecting,
      view_setH2Connecting, View.setPhase, View.addStreamsActive, View.setConnecting,
      View.setH2Connecting, Function.update_apply, hv] at hk
    split_ifs at hk with hki
    exact h.opened k hk

theorem acquireH2Stream (hi : (s.calls i).phase = .picked) : Booked (acquireH2Stream s i) := by
  have hs := h.slots.acquireH2Stream hi
  have hlt := h.phase_lt (i := i) (by rw [hi]; simp)
  have hstage : (s.calls i).phase.stage = .start := by rw [hi]; rfl
  obtain ⟨k, -, he⟩ | ⟨k, -, -, he⟩ | ⟨s', -, hs', he⟩ | ⟨-, he⟩ | ⟨p, -, -, -, he⟩ :=
    acquireH2Stream_cases s i <;> rw [he] at hs ⊢
  · have hl : Ledger ((s.addInFlight k 1).addStreamsActive 1) := ⟨h.ledger.ok, h.ledger.held⟩
    exact h.leave hs hl hstage rfl (by simp [View.addStreamsActive, View.addInFlight]) rfl
  · have hl : Ledger ((s.addPromised k 1).addStreamsActive 1) := ⟨h.ledger.ok, h.ledger.held⟩
    exact h.leave hs hl hstage rfl (by simp [View.addStreamsActive, View.addPromised]) rfl
  · have hv := view_tryAcquireConnSlot hs'
    have hl := h.ledger.reserve (p := .connecting) hlt hstage rfl hs'
    exact h.register hs hl hv (conns_tryAcquireConnSlot hs')
  · exact h.leave hs h.ledger hstage rfl rfl rfl
  · have hl : Ledger (s.setH2Waiters (s.calls i).addr (s.h2Waiters (s.calls i).addr ++ [i])) :=
      ⟨h.ledger.ok, h.ledger.held⟩
    refine h.of_same hs (hl.setPhase ?_) (by simp [View.setPhase, View.setH2Waiters]) rfl
    exact hstage.symm

theorem receiveGrant {cc : Option CallId} (hi : (s.calls i).phase = .granted cc) :
    Booked (receiveGrant s i cc) := by
  have hs := h.slots.receiveGrant hi
  cases cc with
  | none =>
    have hl : Ledger (s.setPhase i .connecting) := h.ledger.setPhase (by rw [hi]; rfl)
    exact h.register hs hl rfl rfl
  | some k =>
    have hstage : (s.calls i).phase.stage = .start := by rw [hi]; rfl
    simp only [H2Pool.receiveGrant] at hs ⊢
    split_ifs at hs ⊢
    · exact h.leave hs h.ledger hstage rfl rfl rfl
    · exact h.of_same hs (h.ledger.setPhase hstage.symm) (by simp [View.setPhase]) rfl

theorem undoRaced (hi : (s.calls i).phase = .raced) : Booked (undoRaced s i) := by
  apply promote
  have hs : SlotInv ((s.addStreamsActive (-1)).giveUp i) := by
    refine ⟨?_, ?_⟩ <;> rw [view_giveUp, view_addStreamsActive]
    · exact h.slots.accounted.undoRaced hi
    · exact h.slots.cap_pos
  have hl : Ledger (s.addStreamsActive (-1)) := ⟨h.ledger.ok, h.ledger.held⟩
  have hstage : (s.calls i).phase.stage = .start := by rw [hi]; rfl
  exact h.leave hs hl hstage rfl rfl rfl

theorem giveBackGrant {cc : Option CallId} (hi : (s.calls i).phase = .granted cc) :
    Booked (giveBackGrant s i cc) := by
  cases cc with
  | none =>
    apply promote
    have hi' : s.view.phase i = .granted none := hi
    have hs := h.slots.giveUp (i := i) (by simp [hi']) (by simp [hi', Phase.early, Phase.queue])
    exact h.abandon hs (by rw [hi]; simp) (by rw [hi]; rfl) rfl
  | some k =>
    have hready := h.slots.accounted.riding i k (.inr hi)
    have hstage : (s.calls i).phase.stage = .start := by rw [hi]; rfl
    apply promote
    split_ifs with hk
    · have hs : SlotInv (((s.addInFlight k (-1)).addStreamsActive (-1)).giveUp i) := by
        refine ⟨?_, ?_⟩ <;> rw [view_giveUp, view_addStreamsActive, view_addInFlight]
        · exact h.slots.accounted.dropSlot (.inr hi)
        · exact h.slots.cap_pos
      have hl : Ledger ((s.addInFlight k (-1)).addStreamsActive (-1)) :=
        ⟨h.ledger.ok, h.ledger.held⟩
      exact h.leave hs hl hstage rfl (by simp [View.addStreamsActive, View.addInFlight]) rfl
    · have hs : SlotInv ((s.addStreamsActive (-1)).giveUp i) := by
        refine ⟨?_, ?_⟩ <;> rw [view_giveUp, view_addStreamsActive]
        · exact h.slots.accounted.dropOrphan (.inr hi) hready hk
        · exact h.slots.cap_pos
      have hl : Ledger (s.addStreamsActive (-1)) := ⟨h.ledger.ok, h.ledger.held⟩
      exact h.leave hs hl hstage rfl rfl rfl

theorem removeH2WaiterLocked (hi : (s.calls i).phase = .queued) :
    Booked (removeH2WaiterLocked s i) := by
  have hs := h.slots.removeH2WaiterLocked hi
  have hl : Ledger (s.setH2Waiters (s.calls i).addr ((s.h2Waiters (s.calls i).addr).erase i)) :=
    ⟨h.ledger.ok, h.ledger.held⟩
  have hstage : (s.calls i).phase.stage = .start := by rw [hi]; rfl
  exact h.leave hs hl hstage rfl rfl rfl

theorem attachAfterReady {out : DialOutcome} (hi : (s.calls i).phase = .attached k)
    (hready : (s.cns k).ready = some out) : Booked (attachAfterReady s i k out) := by
  have hs := h.slots.attachAfterReady hi hready
  have hstage : (s.calls i).phase.stage = .ended := by rw [hi]; rfl
  cases out with
  | failed =>
    exact h.of_same hs (h.ledger.setPhase hstage.symm)
      (by simp [H2Pool.attachAfterReady, View.setPhase]) rfl
  | established =>
    simp only [H2Pool.attachAfterReady] at hs ⊢
    split_ifs at hs ⊢
    · exact h.of_same hs (h.ledger.setPhase hstage.symm) (by simp [View.setPhase]) rfl
    · have hl : Ledger (s.addStreamsActive (-1)) := ⟨h.ledger.ok, h.ledger.held⟩
      exact h.of_same hs (hl.setPhase hstage.symm)
        (by simp [View.setPhase, View.addStreamsActive]) rfl

theorem awaitAttachCancelled (hi : (s.calls i).phase = .attached k)
    (hready : (s.cns k).ready = none) : Booked (awaitAttachCancelled s i k) := by
  have hs := h.slots.awaitAttachCancelled hi hready
  have hstage : (s.calls i).phase.stage = .ended := by rw [hi]; rfl
  have hl : Ledger ((s.addPromised k (-1)).addStreamsActive (-1)) := ⟨h.ledger.ok, h.ledger.held⟩
  exact h.of_same hs (hl.setPhase hstage.symm)
    (by simp [H2Pool.awaitAttachCancelled, View.setPhase, View.addStreamsActive,
      View.addPromised]) rfl

theorem failConnecting (hi : (s.calls i).phase = .dialFailed) : Booked (failConnecting s i) := by
  apply promote
  constructor
  case slots =>
    refine ⟨?_, ?_⟩ <;> simp only [removeConnectingLocked, view_setPhase, view_addStreamsActive,
      view_setConnecting, view_setH2Connecting]
    · exact h.slots.accounted.fail hi
    · exact h.slots.cap_pos
  case ledger =>
    have hl : Ledger (s.setPhase i .returned) := h.ledger.setPhase (by rw [hi]; rfl)
    exact ⟨hl.ok, hl.held⟩
  case opened =>
    intro k hk
    simp only [removeConnectingLocked, view_setPhase, view_addStreamsActive, view_setConnecting,
      view_setH2Connecting, View.setPhase, View.addStreamsActive, View.setConnecting,
      View.setH2Connecting, Function.update_apply] at hk
    split_ifs at hk with hki
    · cases hk
    · exact h.opened k hk

theorem poolConnecting (hi : (s.calls i).phase = .shaking) : Booked (poolConnecting s i) := by
  have hmade : (s.calls i).phase.stage = .made := by rw [hi]; rfl
  have hopen : (s.conns i).opened = true := (h.ledger.ok i).made hmade
  apply promote
  constructor
  case slots =>
    refine ⟨?_, ?_⟩ <;> simp only [removeConnectingLocked, view_setPhase, view_setConnecting,
      view_setConn, view_setH2Pool, view_setPooled, view_setH2Connecting]
    · exact h.slots.accounted.pool hi
    · exact h.slots.cap_pos
  case ledger =>
    have hl : Ledger (s.setPhase i (.riding i)) := h.ledger.finish hmade rfl
    have hl' := hl.setConn (k := i) (c := { s.conns i with watcher := .running }) ⟨rfl, rfl⟩
    exact ⟨hl'.ok, hl'.held⟩
  case opened =>
    intro k hk
    simp only [removeConnectingLocked, view_setPhase, view_setConnecting, view_setConn,
      view_setH2Pool, view_setPooled, view_setH2Connecting, View.setPhase, View.setConnecting,
      View.setH2Pool, View.setPooled, View.setH2Connecting, Function.update_apply] at hk
    simp only [removeConnectingLocked, Cluster.setPhase, Cluster.setCall, Cluster.setConnecting,
      Cluster.setConn, Cluster.setH2Pool, Cluster.setPooled, Cluster.setH2Connecting,
      Function.update_apply]
    split_ifs at hk ⊢ with hki
    · exact hopen
    · exact h.opened k hk

theorem releaseStream (hi : (s.calls i).phase = .riding k) : Booked (releaseStream s i k) := by
  have hopen : (s.conns k).opened = true := h.opened k (h.slots.accounted.riding i k (.inl hi))
  have hdrop : Booked (((s.addInFlight k (-1)).addStreamsActive (-1)).setPhase i .returned) := by
    have hl : Ledger ((s.addInFlight k (-1)).addStreamsActive (-1)) :=
      ⟨h.ledger.ok, h.ledger.held⟩
    apply h.of_same
    · refine ⟨?_, ?_⟩ <;> simp only [view_setPhase, view_addStreamsActive, view_addInFlight]
      · exact h.slots.accounted.dropSlot (.inl hi)
      · exact h.slots.cap_pos
    · apply hl.setPhase
      change _ = (s.calls i).phase.stage
      rw [hi]
      rfl
    · simp [View.setPhase, View.addStreamsActive, View.addInFlight]
    · rfl
  have hprom := hdrop.promote (s.calls i).addr
  simp only [H2Pool.releaseStream]
  split_ifs
  · apply promote
    apply hprom.evict
    rw [conns_h2PromoteLocked]
    exact hopen
  · exact hprom

theorem setConn {c : Conn} (hc : c.opened = (s.conns k).opened ∧ c.once = (s.conns k).once) :
    Booked (s.setConn k c) where
  slots := h.slots.setConn k c
  ledger := h.ledger.setConn hc
  opened := h.opened_update rfl rfl hc.1

theorem watchGoneAway (k : CallId) : Booked (watchGoneAway s k) := by
  have hexit := h.setConn (k := k) (c := { s.conns k with watcher := .exited }) ⟨rfl, rfl⟩
  simp only [H2Pool.watchGoneAway]
  split_ifs with hk
  · exact (hexit.evict _ (hexit.pooled_opened hk.1)).promote _
  · exact hexit

theorem acquireConnSlot (hi : (s.calls i).phase = .picked ∨ (s.calls i).phase = .missed) :
    Booked (acquireConnSlot s i) := by
  have hs := h.slots.acquireConnSlot hi
  have hstage : (s.calls i).phase.stage = .start := by rcases hi with hi | hi <;> rw [hi] <;> rfl
  have hlt := h.phase_lt (i := i) (by rcases hi with hi | hi <;> rw [hi] <;> simp)
  obtain ⟨s', hs', he⟩ | he | ⟨p, hp, he⟩ := acquireConnSlot_cases s i <;> rw [he] at hs ⊢
  · refine h.of_same hs (h.ledger.reserve hlt hstage rfl hs') ?_ ?_
    · rw [view_setPhase, view_tryAcquireConnSlot hs']
      rfl
    · change s'.conns = s.conns
      exact conns_tryAcquireConnSlot hs'
  · exact h.leave hs h.ledger hstage rfl rfl rfl
  · have hl : Ledger (s.setPool { p with waiters := p.waiters ++ [i] }) := h.ledger.setPool hp rfl
    exact h.of_same hs (hl.setPhase hstage.symm) (by rw [view_setPhase, view_setPool]; rfl) rfl

theorem removeWaiterLocked (hi : (s.calls i).phase = .pending) :
    Booked (removeWaiterLocked s i) := by
  have hs := h.slots.removeWaiterLocked hi
  have hstage : (s.calls i).phase.stage = .start := by rw [hi]; rfl
  unfold H2Pool.removeWaiterLocked at hs ⊢
  split at hs
  · exact h
  · rename_i p hp
    have hl : Ledger (s.setPool { p with waiters := p.waiters.erase i }) :=
      h.ledger.setPool hp rfl
    exact h.leave hs hl hstage rfl rfl rfl

theorem popIdleH1 (hi : (s.calls i).phase = .picked) : Booked (popIdleH1 s i) := by
  have hs := h.slots.popIdleH1 hi
  have hstage : (s.calls i).phase.stage = .start := by rw [hi]; rfl
  simp only [H2Pool.popIdleH1] at hs ⊢
  split at hs
  · have hl : Ledger (s.setH1Pool (s.calls i).addr (s.h1Pool (s.calls i).addr).dropLast) :=
      ⟨h.ledger.ok, h.ledger.held⟩
    exact h.leave hs hl hstage rfl rfl rfl
  · exact h.of_same hs (h.ledger.setPhase hstage.symm) (by simp [View.setPhase]) rfl

theorem putIdleH1 (hk : (s.conns k).opened = true) (hasWaiter : Bool) :
    Booked (putIdleH1 s k hasWaiter) := by
  simp only [H2Pool.putIdleH1]
  split_ifs
  · exact h.closeConn hk
  · exact h.closeConn hk
  · exact h.of_same (h.slots.of_view (view_setH1Pool s _ _)) ⟨h.ledger.ok, h.ledger.held⟩ rfl rfl

theorem opens {p : Phase}
    (hs : SlotInv ((s.setConn i { s.conns i with opened := true }).setPhase i p))
    (hold : (s.calls i).phase.stage = .permit) (hp : p.stage = .made ∨ p.stage = .ended) :
    Booked ((s.setConn i { s.conns i with opened := true }).setPhase i p) where
  slots := hs
  ledger := h.ledger.opens hold hp
  opened := by
    intro k hk
    simp only [Cluster.setPhase, Cluster.setCall, Cluster.setConn, Function.update_apply]
    split_ifs with hki
    · rfl
    · rw [view_setPhase] at hk
      exact h.opened k hk

theorem handshakeFails (hi : (s.calls i).phase = .shaking) :
    Booked ((s.setPhase i .dialFailed).closeConn i) := by
  have hmade : (s.calls i).phase.stage = .made := by rw [hi]; rfl
  have hi' : s.view.phase i = .shaking := hi
  have hmove : Booked (s.setPhase i .dialFailed) :=
    h.of_same (h.slots.redial (by rw [hi']; rfl) rfl) (h.ledger.finish hmade rfl)
      (by simp [View.setPhase]) rfl
  exact hmove.closeConn ((h.ledger.ok i).made hmade)

theorem pick (api : API) (a : String) : Booked (step s (.pick api a)) := by
  have hidle : (s.calls s.next).phase = .idle := h.slots.accounted.fresh s.next le_rfl
  obtain ⟨hlb, hperm, hback, hopen⟩ := (h.ledger.ok s.next).start (by rw [hidle]; rfl)
  constructor
  case slots => exact h.slots.step (.pick api a)
  case ledger =>
    constructor
    · apply callOk_update h.ledger.ok
      refine ⟨(h.ledger.ok s.next).once, fun _ => ⟨rfl, rfl, rfl, hopen⟩, ?_, ?_, ?_⟩ <;>
        simp [Phase.stage]
    · intro p hp
      have hrest : ∀ j < s.next, (((step s (.pick api a)).calls j).permits -
          ((step s (.pick api a)).calls j).permitsBack : Int) =
            (s.calls j).permits - (s.calls j).permitsBack := by
        intro j hj
        simp only [step, Cluster.setCall, Function.update_of_ne (ne_of_lt hj)]
      have hsum : heldPermits (s.next + 1) (step s (.pick api a)).calls =
          heldPermits s.next s.calls := by
        rw [heldPermits, tally_succ, tally_congr hrest]
        simp [step, Cluster.setCall, heldPermits]
      exact (h.ledger.held p hp).trans hsum.symm
  case opened =>
    intro k hk
    exact h.opened k hk

theorem giveUp_releaseConnSlot {i : CallId}
    (hi : (s.calls i).phase = .handed ∨ (s.calls i).phase = .dialing) :
    Booked ((s.giveUp i).releaseConnSlot i) := by
  have hs := h.slots.giveUp_of_permit hi
  rcases hi with hi | hi
  · exact h.abandon hs (by rw [hi]; simp) (by rw [hi]; rfl) rfl
  · exact h.abandon hs (by rw [hi]; simp) (by rw [hi]; rfl) rfl

theorem step (e : Event) : Booked (step s e) := by
  refine step_induct h fun t hf => ?_
  cases hf with
  | pick api a => exact h.pick api a
  | popIdleH1 _ hi => exact h.popIdleH1 hi
  | acquireConnSlot hi => exact h.acquireConnSlot (hi.imp_left And.right)
  | @receivePermit i hi =>
    have hs := h.slots.step (.receivePermit i)
    simp only [H2Pool.step, if_pos hi] at hs
    exact h.of_same hs (h.ledger.setPhase (by rw [hi]; rfl)) (by simp [View.setPhase]) rfl
  | cancelPending hi => exact h.removeWaiterLocked hi
  | cancelHanded hi => exact h.giveUp_releaseConnSlot (.inl hi)
  | dialFails hi => exact h.giveUp_releaseConnSlot (.inr hi)
  | @entryFails i hi =>
    have hi' : s.view.phase i = .connecting := hi
    have hs := (h.slots.redial (i := i) (p := .dialFailed) (by rw [hi']; rfl) rfl).of_view
      (view_lbRelease _ i)
    exact h.abandon hs (by rw [hi]; simp) (by rw [hi]; rfl) rfl
  | dialSucceeds hi => exact h.opens (h.slots.dialSucceeds hi _) (by rw [hi]; rfl) (.inr rfl)
  | entrySucceeds hi => exact h.opens (h.slots.entrySucceeds hi _) (by rw [hi]; rfl) (.inl rfl)
  | handshakeFails hi => exact h.handshakeFails hi
  | acquireH2Stream _ hi => exact h.acquireH2Stream hi
  | receiveGrant hi => exact h.receiveGrant hi
  | undoRaced hi => exact h.undoRaced hi
  | cancelQueued hi => exact h.removeH2WaiterLocked hi
  | cancelGranted hi => exact h.giveBackGrant hi
  | attachReady hi hout => exact h.attachAfterReady hi hout
  | attachCancelled hi hready => exact h.awaitAttachCancelled hi hready
  | failConnecting hi => exact h.failConnecting hi
  | poolConnecting hi => exact h.poolConnecting hi
  | release hi => exact h.releaseStream hi
  | evictOnError hk => exact (h.evict _ (h.pooled_opened hk)).promote _
  | goAway _ => exact h.setConn ⟨rfl, rfl⟩
  | teardown _ => exact h.setConn ⟨rfl, rfl⟩
  | watchGoneAway _ => exact h.watchGoneAway _
  | watchDone _ => exact h.setConn ⟨rfl, rfl⟩
  | close hk => exact h.closeConn hk.1
  | putIdleH1 hk => exact h.putIdleH1 hk.1 _

end Booked

theorem Booked.initial (cfg : ClusterConfig) : Booked (newCluster cfg) where
  slots := SlotInv.initial cfg
  ledger :=
    { ok := by
        intro i
        refine ⟨?_, ?_, ?_, ?_, ?_⟩ <;> simp [newCluster, Phase.stage]
      held := by
        intro p hp
        cases hcb : cfg.circuitBreakers with
        | none => simp [newCluster, hcb] at hp
        | some t =>
          simp only [newCluster, hcb, Option.map_some, Option.some.injEq] at hp
          subst hp
          rfl }
  opened := by intro k hk; cases hk

theorem Booked.run (cfg : ClusterConfig) (es : List Event) : Booked (run cfg es) := by
  have hstep : ∀ (s : Cluster) (e : Event), Booked s → Booked (H2Pool.step s e) :=
    fun s e h => h.step e
  exact Runs.invariant_of_run hstep es (newCluster cfg) (Booked.initial cfg)

def Phase.hasReturned : Phase → Bool
  | .riding _ => true
  | .returned => true
  | _ => false

/-- What is released for call `i`: never twice, all of it once the call has returned without a
connection of its own or that connection is closed, and nothing while it is open. -/
structure Conserved (s : Cluster) (i : CallId) : Prop where
  release_once : (s.calls i).lbReleases ≤ 1
  permit_once : (s.calls i).permits ≤ 1 ∧ (s.calls i).permitsBack ≤ (s.calls i).permits
  no_connection : (s.calls i).phase.hasReturned = true → (s.conns i).opened = false →
    (s.calls i).lbReleases = 1 ∧ (s.calls i).permitsBack = (s.calls i).permits
  closed : (s.conns i).opened = true → (s.conns i).once = true →
    (s.calls i).lbReleases = 1 ∧ (s.calls i).permitsBack = (s.calls i).permits
  open_ : (s.conns i).opened = true → (s.conns i).once = false →
    (s.calls i).lbReleases = 0 ∧ (s.calls i).permitsBack = 0

theorem unit_le_one (p : Option ConnPool) : unit p ≤ 1 := by
  unfold unit
  split_ifs <;> omega

theorem Settled.conserved {s : Cluster} (h : Settled (unit s.pool) (s.calls i) (s.conns i)) :
    Conserved s i := by
  have hu := unit_le_one s.pool
  cases hopen : (s.conns i).opened with
  | true =>
    obtain ⟨hperm, hlb, hback⟩ := h.opened hopen
    cases honce : (s.conns i).once <;> rw [honce] at hlb hback <;>
      simp only [Bool.toNat_true, Bool.toNat_false, Nat.mul_one, Nat.mul_zero] at hlb hback
    · refine ⟨by omega, by omega, fun _ hk => ?_, fun _ ho => ?_, fun _ _ => ⟨hlb, hback⟩⟩
      · rw [hopen] at hk
        cases hk
      · rw [honce] at ho
        cases ho
    · refine ⟨by omega, by omega, fun _ hk => ?_, fun _ _ => ⟨hlb, by omega⟩, fun _ ho => ?_⟩
      · rw [hopen] at hk
        cases hk
      · rw [honce] at ho
        cases ho
  | false =>
    obtain ⟨hlb, hback, hperm⟩ := h.none hopen
    refine ⟨by omega, by omega, fun _ _ => ⟨hlb, hback⟩, fun hk => ?_, fun hk => ?_⟩
    · rw [hopen] at hk
      cases hk
    · rw [hopen] at hk
      cases hk

theorem CallOk.conserved {s : Cluster} (h : CallOk (unit s.pool) (s.calls i) (s.conns i)) :
    Conserved s i := by
  have hu := unit_le_one s.pool
  cases hs : (s.calls i).phase.stage with
  | start =>
    obtain ⟨hlb, hperm, hback, hopen⟩ := h.start hs
    refine ⟨by omega, by omega, fun hret => ?_, fun hk => ?_, fun hk => ?_⟩
    · cases hp : (s.calls i).phase <;> rw [hp] at hret hs <;> cases hret <;> cases hs
    · rw [hopen] at hk
      cases hk
    · rw [hopen] at hk
      cases hk
  | permit =>
    obtain ⟨hlb, hperm, hback, hopen⟩ := h.permit hs
    refine ⟨by omega, by omega, fun hret => ?_, fun hk => ?_, fun hk => ?_⟩
    · cases hp : (s.calls i).phase <;> rw [hp] at hret hs <;> cases hret <;> cases hs
    · rw [hopen] at hk
      cases hk
    · rw [hopen] at hk
      cases hk
  | made => exact (h.ended (.inl hs)).conserved
  | ended => exact (h.ended (.inr hs)).conserved

/-- For every interleaving of `Dial`, `AcquireH1` and `AcquireH2Stream`, whatever becomes of
dials and connections, and the budget counts the permits that are out. -/
theorem run_conserved (cfg : ClusterConfig) (es : List Event) :
    (∀ i, Conserved (run cfg es) i) ∧
    ∀ p, (run cfg es).pool = some p →
      p.activeConns = heldPermits (run cfg es).next (run cfg es).calls := by
  have h := (Booked.run cfg es).ledger
  exact ⟨fun i => (h.ok i).conserved, h.held⟩

end EnvoyGo.H2Pool

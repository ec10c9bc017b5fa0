import EnvoyGo.H2PoolDrain

/-!
Who owns the permits that are out: a call on its way to a dial, a connecting entry, or an
open connection that somebody still uses or watches.
-/

namespace EnvoyGo.H2Pool

open Cluster

def Phase.classic : Phase → Bool
  | .missed => true
  | .pending => true
  | .handed => true
  | .dialing => true
  | _ => false

structure Attended (s : Cluster) : Prop where
  watched : ∀ k, (s.conns k).watcher ≠ .unborn → (s.conns k).once = false →
    k ∈ s.h2Pool (s.calls k).addr
  unwatched : ∀ k, (s.conns k).opened = true → (s.conns k).once = false →
    (s.conns k).watcher = .unborn →
      k ∈ s.h2Connecting (s.calls k).addr ∨ (s.calls k).api ≠ .acquireH2Stream
  classic_live : ∀ k, (s.calls k).api ≠ .acquireH2Stream → (s.conns k).once = false →
    s.live k = true
  unopened_live : ∀ k, (s.conns k).opened = false → s.live k = true
  classic : ∀ i, (s.calls i).phase.classic = true → (s.calls i).api ≠ .acquireH2Stream
  waiting : ∀ i ∈ s.budgetWaiters, (s.calls i).api ≠ .acquireH2Stream
  failed : ∀ i, (s.calls i).phase = .dialFailed → (s.conns i).opened = true →
    (s.conns i).once = true

namespace Attended

variable {s : Cluster}

variable {i k : CallId}

theorem setCall (h : Attended s) {c : Call} (ha : c.addr = (s.calls i).addr)
    (hapi : c.api = (s.calls i).api) (hp : c.phase.classic = true → c.api ≠ .acquireH2Stream)
    (hf : c.phase = .dialFailed → (s.conns i).opened = true → (s.conns i).once = true) :
    Attended (s.setCall i c) := by
  have haddr : ∀ k, ((s.setCall i c).calls k).addr = (s.calls k).addr := by
    intro k
    simp only [Cluster.setCall, Function.update_apply]
    split_ifs with hk
    · rw [ha, hk]
    · rfl
  have hsame : ∀ k, ((s.setCall i c).calls k).api = (s.calls k).api := by
    intro k
    simp only [Cluster.setCall, Function.update_apply]
    split_ifs with hk
    · rw [hapi, hk]
    · rfl
  constructor
  · intro k hw ho
    rw [haddr]
    exact h.watched k hw ho
  · intro k hk ho hw
    rw [haddr, hsame]
    exact h.unwatched k hk ho hw
  · intro k hk ho
    rw [hsame] at hk
    exact h.classic_live k hk ho
  · exact h.unopened_live
  · intro k hk
    simp only [Cluster.setCall, Function.update_apply] at hk ⊢
    split_ifs at hk ⊢ with hki
    · exact hp hk
    · exact h.classic k hk
  · intro k hk
    rw [hsame]
    exact h.waiting k hk
  · intro k hk ho
    simp only [Cluster.setCall, Function.update_apply] at hk
    split_ifs at hk with hki
    · rw [hki] at ho ⊢
      exact hf hk ho
    · exact h.failed k hk ho

theorem setPhase (h : Attended s) {p : Phase} (hp : p.classic = false) (hf : p ≠ .dialFailed) :
    Attended (s.setPhase i p) := by
  refine h.setCall rfl rfl (fun hc => ?_) (fun hc => absurd hc hf)
  have hp' : p.classic = true := hc
  rw [hp] at hp'
  cases hp'

theorem of_same {t : Cluster} (h : Attended s) (hpool : t.h2Pool = s.h2Pool)
    (hconn : t.h2Connecting = s.h2Connecting) (hcalls : t.calls = s.calls)
    (hc : t.conns = s.conns) (hw : ∀ i ∈ t.budgetWaiters, i ∈ s.budgetWaiters) :
    Attended t where
  watched := by rw [hpool, hcalls, hc]; exact h.watched
  unwatched := by rw [hconn, hcalls, hc]; exact h.unwatched
  classic_live k := by rw [live_of_conns hc, hcalls, hc]; exact h.classic_live k
  unopened_live k := by rw [live_of_conns hc, hc]; exact h.unopened_live k
  classic := by rw [hcalls]; exact h.classic
  waiting i hi := by rw [hcalls]; exact h.waiting i (hw i hi)
  failed := by rw [hcalls, hc]; exact h.failed

section

variable (h : Attended s)

include h

theorem lbRelease (i : CallId) : Attended (s.lbRelease i) :=
  h.setCall rfl rfl (h.classic i) (h.failed i)

theorem countPermit (i : CallId) : Attended (s.countPermit i) :=
  h.setCall rfl rfl (h.classic i) (h.failed i)

theorem countPermitBack (i : CallId) : Attended (s.countPermitBack i) :=
  h.setCall rfl rfl (h.classic i) (h.failed i)

theorem giveUp (i : CallId) : Attended (s.giveUp i) :=
  (h.setPhase rfl (by simp)).lbRelease i

theorem setPool {p q : ConnPool} (hp : s.pool = some p) (hq : ∀ i ∈ q.waiters, i ∈ p.waiters) :
    Attended (s.setPool q) := by
  refine h.of_same rfl rfl rfl rfl (fun i hi => ?_)
  simp only [budgetWaiters, Cluster.setPool] at hi
  simp only [budgetWaiters, hp]
  exact hq i hi

theorem tryAcquireConnSlot {s' : Cluster} (hs' : s.tryAcquireConnSlot i = some s') :
    Attended s' := by
  obtain ⟨-, he⟩ | ⟨p, hp, -, he⟩ | ⟨p, -, -, he⟩ := tryAcquireConnSlot_cases s i <;>
    rw [he] at hs'
  · obtain rfl := Option.some.inj hs'
    exact h
  · obtain rfl := Option.some.inj hs'
    have hset : Attended (s.setPool { p with activeConns := p.activeConns + 1 }) :=
      h.setPool hp (fun _ hj => hj)
    exact hset.countPermit i
  · cases hs'

theorem releaseConn : Attended s.releaseConn := by
  obtain ⟨-, he⟩ | ⟨p, hp, hw, he⟩ | ⟨p, w, ws, hp, hw, he⟩ := releaseConn_cases s <;> rw [he]
  · exact h
  · exact h.setPool hp (fun _ hj => hj)
  · have hset : Attended (s.setPool { p with waiters := ws }) := by
      apply h.setPool hp
      intro i hi
      rw [hw]
      exact List.mem_cons_of_mem w hi
    -- the head waiter came from `Dial` or `AcquireH1`
    have hmem : w ∈ s.budgetWaiters := by
      simp only [budgetWaiters, hp, hw]
      exact List.mem_cons_self
    refine (hset.countPermit w).setCall rfl rfl (fun _ => ?_) (fun hc => by cases hc)
    simp only [Cluster.countPermit, Cluster.setCall, Function.update_self]
    exact h.waiting w hmem

theorem releaseConnSlot (i : CallId) : Attended (s.releaseConnSlot i) := by
  unfold Cluster.releaseConnSlot
  split
  · exact h
  · exact (h.countPermitBack i).releaseConn

theorem promote (a : String) : Attended (s.h2PromoteLocked a) := by
  obtain ⟨-, he⟩ | ⟨w, q, k, -, -, he⟩ | ⟨w, q, s', -, -, hs', he⟩ | ⟨w, q, -, -, -, he⟩ :=
    h2PromoteLocked_cases s a <;> rw [he]
  · exact h
  · have hq : Attended (((s.addInFlight k 1).addStreamsActive 1).setH2Waiters a q) :=
      h.of_same rfl rfl rfl rfl (fun _ hi => hi)
    exact hq.setPhase rfl (by simp)
  · have hs := h.tryAcquireConnSlot hs'
    have hq : Attended (s'.setH2Waiters a q) := hs.of_same rfl rfl rfl rfl (fun _ hi => hi)
    exact hq.setPhase rfl (by simp)
  · exact h

theorem retire {a : String} {c : Conn} {l : List CallId}
    (hl : l = s.h2Pool a ∨ l = (s.h2Pool a).erase k) (ho : c.once = true)
    (hc : c.opened = (s.conns k).opened) (hk : (s.conns k).opened = true) :
    Attended ((s.setH2Pool a l).setConn k c) := by
  have hself : ∀ j, ((s.setH2Pool a l).setConn k c).conns j =
      if j = k then c else s.conns j := fun j => Function.update_apply s.conns k c j
  constructor
  · intro j hw hj
    rw [hself] at hw hj
    split_ifs at hw hj with hjk
    · rw [ho] at hj
      cases hj
    · have hm := h.watched j hw hj
      simp only [setConn, setH2Pool, Function.update_apply]
      split_ifs with ha
      · rw [ha] at hm
        rcases hl with rfl | rfl
        · exact hm
        · exact (List.mem_erase_of_ne hjk).mpr hm
      · exact hm
  · intro j hopen hj hw
    rw [hself] at hopen hj hw
    split_ifs at hopen hj hw with hjk
    · rw [ho] at hj
      cases hj
    · exact h.unwatched j hopen hj hw
  · intro j hapi hj
    rw [hself] at hj
    rw [live, hself]
    split_ifs at hj ⊢ with hjk
    · rw [ho] at hj
      cases hj
    · exact h.classic_live j hapi hj
  · intro j hopen
    rw [hself] at hopen
    rw [live, hself]
    split_ifs at hopen ⊢ with hjk
    · rw [hc, hk] at hopen
      cases hopen
    · exact h.unopened_live j hopen
  · exact h.classic
  · exact h.waiting
  · intro j hp hopen
    rw [hself] at hopen ⊢
    split_ifs at hopen ⊢ with hjk
    · exact ho
    · exact h.failed j hp hopen

theorem closeConn (hk : (s.conns k).opened = true) : Attended (s.closeConn k) := by
  unfold Cluster.closeConn
  split_ifs with ho
  · exact h
  · have hr := h.retire (a := "") (c := { s.conns k with once := true }) (.inl rfl) rfl rfl hk
    have hpool : s.setH2Pool "" (s.h2Pool "") = s := by
      simp only [setH2Pool, Function.update_eq_self]
    rw [hpool] at hr
    exact (hr.lbRelease k).releaseConnSlot k

theorem evict (a : String) (hk : (s.conns k).opened = true) :
    Attended (s.evictH2ConnLocked a k) := by
  simp only [evictH2ConnLocked, closeClientConn, Cluster.closeConn, setConn, setH2Pool,
    Function.update_self, Function.update_idem]
  split_ifs with ho
  · exact h.retire (.inr rfl) ho rfl hk
  · have hr := h.retire (a := a) (c := { s.conns k with closed := true, once := true })
      (.inr rfl) rfl rfl hk
    exact (hr.lbRelease k).releaseConnSlot k

theorem setConn {c : Conn} (ho : c.opened = (s.conns k).opened) (hn : c.once = (s.conns k).once)
    (hw : c.watcher = .unborn ↔ (s.conns k).watcher = .unborn)
    (hl : (!c.closed && !c.goneAway) = s.live k ∨
      (s.conns k).opened = true ∧ (s.calls k).api = .acquireH2Stream) :
    Attended (s.setConn k c) := by
  have hself : ∀ j, (s.setConn k c).conns j = if j = k then c else s.conns j :=
    fun j => Function.update_apply s.conns k c j
  constructor
  · intro j hwj hj
    rw [hself] at hwj hj
    split_ifs at hwj hj with hjk
    · rw [hjk]
      exact h.watched k (fun hu => hwj (hw.mpr hu)) (hn ▸ hj)
    · exact h.watched j hwj hj
  · intro j hopen hj hwj
    rw [hself] at hopen hj hwj
    split_ifs at hopen hj hwj with hjk
    · rw [hjk]
      exact h.unwatched k (ho ▸ hopen) (hn ▸ hj) (hw.mp hwj)
    · exact h.unwatched j hopen hj hwj
  · intro j hapi hj
    rw [hself] at hj
    rw [live, hself]
    split_ifs at hj ⊢ with hjk
    · rw [hjk] at hapi
      rcases hl with hl | hl
      · rw [hl]
        exact h.classic_live k hapi (hn ▸ hj)
      · exact absurd hl.2 hapi
    · exact h.classic_live j hapi hj
  · intro j hopen
    rw [hself] at hopen
    rw [live, hself]
    split_ifs at hopen ⊢ with hjk
    · rcases hl with hl | hl
      · rw [hl]
        exact h.unopened_live k (ho ▸ hopen)
      · rw [ho, hl.1] at hopen
        cases hopen
    · exact h.unopened_live j hopen
  · exact h.classic
  · exact h.waiting
  · intro j hp hopen
    rw [hself] at hopen ⊢
    split_ifs at hopen ⊢ with hjk
    · rw [hjk] at hp
      rw [hn]
      exact h.failed k hp (ho ▸ hopen)
    · exact h.failed j hp hopen

theorem open_ {p : Phase} (hp : p.classic = false) (hf : p ≠ .dialFailed)
    (hw : (s.conns k).watcher = .unborn) (hl : s.live k = true)
    (hk : k ∈ s.h2Connecting (s.calls k).addr ∨ (s.calls k).api ≠ .acquireH2Stream)
    (hd : (s.calls k).phase ≠ .dialFailed) :
    Attended ((s.setConn k { s.conns k with opened := true }).setPhase k p) := by
  apply setPhase _ hp hf
  have hself : ∀ j, (s.setConn k { s.conns k with opened := true }).conns j =
      if j = k then { s.conns k with opened := true } else s.conns j :=
    fun j => Function.update_apply s.conns k _ j
  constructor
  · intro j hwj hj
    rw [hself] at hwj hj
    split_ifs at hwj hj with hjk
    · exact absurd hw hwj
    · exact h.watched j hwj hj
  · intro j hopen hj hwj
    rw [hself] at hopen hj hwj
    split_ifs at hopen hj hwj with hjk
    · rw [hjk]
      exact hk
    · exact h.unwatched j hopen hj hwj
  · intro j hapi hj
    rw [hself] at hj
    rw [live, hself]
    split_ifs at hj ⊢ with hjk
    · exact hl
    · exact h.classic_live j hapi hj
  · intro j hopen
    rw [hself] at hopen
    rw [live, hself]
    split_ifs at hopen ⊢ with hjk
    exact h.unopened_live j hopen
  · exact h.classic
  · exact h.waiting
  · intro j hpj hopen
    rw [hself] at hopen ⊢
    split_ifs at hopen ⊢ with hjk
    · rw [hjk] at hpj
      exact absurd hpj hd
    · exact h.failed j hpj hopen

theorem unborn (hb : Booked s)
    (hi : (s.calls i).phase.early = true ∨ (s.calls i).phase.initiates = true)
    (ho : (s.conns i).opened = false) : (s.conns i).watcher = .unborn := by
  have honce : (s.conns i).once = false := by
    cases hc : (s.conns i).once with
    | false => rfl
    | true =>
      have := (hb.ledger.ok i).once hc
      rw [ho] at this
      cases this
  by_contra hw
  have hready := (hb.slots.accounted.pooled _ i (h.watched i hw honce)).2
  obtain ⟨hinit, hearly⟩ := hb.slots.accounted.ready i (by rw [hready]; simp)
  rcases hi with hi | hi
  · have hi' : (s.view.phase i).early = true := hi
    rw [hearly] at hi'
    cases hi'
  · have hi' : (s.view.phase i).initiates = true := hi
    rw [hinit] at hi'
    cases hi'

theorem pick (hb : Booked s) (api : API) (a : String) : Attended (H2Pool.step s (.pick api a)) := by
  have hidle : (s.calls s.next).phase = .idle := hb.slots.accounted.fresh s.next le_rfl
  obtain ⟨-, -, -, hopen⟩ := (hb.ledger.ok s.next).start (by rw [hidle]; rfl)
  have hunborn := h.unborn hb (.inl (by rw [hidle]; rfl)) hopen
  have hself : ∀ j, (H2Pool.step s (.pick api a)).calls j =
      if j = s.next then { api := api, addr := a, phase := .picked } else s.calls j :=
    fun j => Function.update_apply s.calls s.next _ j
  constructor
  · intro j hw ho
    rw [hself]
    split_ifs with hj
    · rw [hj] at hw
      exact absurd hunborn hw
    · exact h.watched j hw ho
  · intro j hj ho hw
    rw [hself]
    split_ifs with hjn
    · rw [hjn] at hj
      have hj' : (s.conns s.next).opened = true := hj
      rw [hopen] at hj'
      cases hj'
    · exact h.unwatched j hj ho hw
  · intro j hapi ho
    rw [hself] at hapi
    split_ifs at hapi with hj
    · rw [hj]
      exact h.unopened_live s.next hopen
    · exact h.classic_live j hapi ho
  · exact h.unopened_live
  · intro j hj
    rw [hself] at hj ⊢
    split_ifs at hj ⊢ with hjn
    · cases hj
    · exact h.classic j hj
  · intro j hj
    have hpend : (s.calls j).phase = .pending :=
      (hb.slots.accounted.toShape.mem_pending j).mp hj
    rw [hself, if_neg]
    · exact h.waiting j hj
    · rintro rfl
      rw [hidle] at hpend
      cases hpend
  · intro j hj ho
    rw [hself] at hj
    split_ifs at hj with hjn
    exact h.failed j hj ho

theorem register (i : CallId) : Attended (s.register i) := by
  apply setPhase _ rfl (by simp)
  constructor
  · exact h.watched
  · intro k hk ho hw
    refine (h.unwatched k hk ho hw).imp_left (fun hmem => ?_)
    simp only [addStreamsActive, setConnecting, setH2Connecting, Function.update_apply]
    split_ifs with ha
    · rw [ha] at hmem
      exact List.mem_append_left _ hmem
    · exact hmem
  · exact h.classic_live
  · exact h.unopened_live
  · exact h.classic
  · exact h.waiting
  · exact h.failed

theorem failConnecting (hi : (s.calls i).phase = .dialFailed) : Attended (failConnecting s i) := by
  apply promote
  apply setPhase _ rfl (by simp)
  constructor
  · exact h.watched
  · intro k hk ho hw
    have hki : k ≠ i := by
      rintro rfl
      have := h.failed k hi hk
      rw [show (s.conns k).once = false from ho] at this
      cases this
    refine (h.unwatched k hk ho hw).imp_left (fun hmem => ?_)
    simp only [addStreamsActive, setConnecting, removeConnectingLocked, setH2Connecting,
      Function.update_apply]
    split_ifs with ha
    · rw [ha] at hmem
      exact (List.mem_erase_of_ne hki).mpr hmem
    · exact hmem
  · exact h.classic_live
  · exact h.unopened_live
  · exact h.classic
  · exact h.waiting
  · exact h.failed

theorem poolConnecting (i : CallId) : Attended (poolConnecting s i) := by
  apply promote
  apply setPhase _ rfl (by simp)
  have hself : ∀ (t : Cluster) (j : CallId),
      (t.setConn i { s.conns i with watcher := .running }).conns j =
        if j = i then { s.conns i with watcher := .running } else t.conns j :=
    fun t j => Function.update_apply t.conns i _ j
  constructor
  · intro j hw ho
    simp only [setConnecting, hself] at hw ho
    simp only [setConnecting, Cluster.setConn, setH2Pool, setPooled, removeConnectingLocked,
      setH2Connecting, Function.update_apply]
    rcases eq_or_ne j i with rfl | hji
    · rw [if_pos rfl]
      exact List.mem_append_right _ List.mem_cons_self
    · rw [if_neg hji] at hw ho
      have hmem := h.watched j hw ho
      split_ifs with ha
      · rw [ha] at hmem
        exact List.mem_append_left _ hmem
      · exact hmem
  · intro j hj ho hw
    simp only [setConnecting, hself] at hj ho hw
    split_ifs at hj ho hw with hji
    refine (h.unwatched j hj ho hw).imp_left (fun hmem => ?_)
    simp only [setConnecting, Cluster.setConn, setH2Pool, setPooled, removeConnectingLocked,
      setH2Connecting, Function.update_apply]
    split_ifs with ha
    · rw [ha] at hmem
      exact (List.mem_erase_of_ne hji).mpr hmem
    · exact hmem
  · intro j hapi ho
    simp only [setConnecting, hself] at ho
    simp only [live, setConnecting, hself]
    split_ifs at ho ⊢ with hji
    · rw [← hji]
      exact h.classic_live j hapi (hji ▸ ho)
    · exact h.classic_live j hapi ho
  · intro j ho
    simp only [setConnecting, hself] at ho
    simp only [live, setConnecting, hself]
    split_ifs at ho ⊢ with hji
    · exact h.unopened_live i ho
    · exact h.unopened_live j ho
  · exact h.classic
  · exact h.waiting
  · intro j hj ho
    simp only [setConnecting, hself] at ho ⊢
    split_ifs at ho ⊢ with hji
    · exact h.failed i (hji ▸ hj) ho
    · exact h.failed j hj ho

theorem acquireH2Stream (i : CallId) : Attended (acquireH2Stream s i) := by
  obtain ⟨k, -, he⟩ | ⟨k, -, -, he⟩ | ⟨s', -, hs', he⟩ | ⟨-, he⟩ | ⟨p, -, -, -, he⟩ :=
    acquireH2Stream_cases s i <;> rw [he]
  · have ht : Attended ((s.addInFlight k 1).addStreamsActive 1) :=
      h.of_same rfl rfl rfl rfl (fun _ hj => hj)
    exact (ht.setPhase rfl (by simp)).lbRelease i
  · have ht : Attended ((s.addPromised k 1).addStreamsActive 1) :=
      h.of_same rfl rfl rfl rfl (fun _ hj => hj)
    exact (ht.setPhase rfl (by simp)).lbRelease i
  · exact (h.tryAcquireConnSlot hs').register i
  · exact h.giveUp i
  · have ht : Attended (s.setH2Waiters (s.calls i).addr (s.h2Waiters (s.calls i).addr ++ [i])) :=
      h.of_same rfl rfl rfl rfl (fun _ hj => hj)
    exact ht.setPhase rfl (by simp)

theorem acquireConnSlot (hi : (s.calls i).api ≠ .acquireH2Stream) :
    Attended (acquireConnSlot s i) := by
  obtain ⟨s', hs', he⟩ | he | ⟨p, hp, he⟩ := acquireConnSlot_cases s i <;> rw [he]
  · have hapi : (s'.calls i).api ≠ .acquireH2Stream := by
      obtain ⟨-, he'⟩ | ⟨p, -, -, he'⟩ | ⟨p, -, -, he'⟩ := tryAcquireConnSlot_cases s i <;>
        rw [he'] at hs'
      · obtain rfl := Option.some.inj hs'
        exact hi
      · obtain rfl := Option.some.inj hs'
        simp only [Cluster.countPermit, Cluster.setCall, Function.update_self]
        exact hi
      · cases hs'
    exact (h.tryAcquireConnSlot hs').setCall rfl rfl (fun _ => hapi) (fun hc => by cases hc)
  · exact h.giveUp i
  · have ht : Attended (s.setPool { p with waiters := p.waiters ++ [i] }) := by
      constructor
      · exact h.watched
      · exact h.unwatched
      · exact h.classic_live
      · exact h.unopened_live
      · exact h.classic
      · intro j hj
        rcases List.mem_append.mp hj with hj | hj
        · exact h.waiting j (by simp only [budgetWaiters, hp]; exact hj)
        · rw [List.mem_singleton.mp hj]
          exact hi
      · exact h.failed
    exact ht.setCall rfl rfl (fun _ => hi) (fun hc => by cases hc)

theorem receiveGrant (i : CallId) (cc : Option CallId) : Attended (receiveGrant s i cc) := by
  cases cc with
  | none => exact h.register i
  | some k =>
    simp only [H2Pool.receiveGrant]
    split_ifs
    · exact (h.setPhase rfl (by simp)).lbRelease i
    · exact h.setPhase rfl (by simp)

theorem giveBackGrant (i : CallId) (cc : Option CallId) : Attended (giveBackGrant s i cc) := by
  cases cc with
  | none => exact ((h.giveUp i).releaseConnSlot i).promote _
  | some k =>
    apply promote
    apply giveUp
    split_ifs
    · exact h.of_same rfl rfl rfl rfl (fun _ hj => hj)
    · exact h.of_same rfl rfl rfl rfl (fun _ hj => hj)

theorem attachAfterReady (i k : CallId) (out : DialOutcome) :
    Attended (attachAfterReady s i k out) := by
  cases out with
  | failed => exact h.setPhase rfl (by simp)
  | established =>
    simp only [H2Pool.attachAfterReady]
    split_ifs
    · exact h.setPhase rfl (by simp)
    · have ht : Attended (s.addStreamsActive (-1)) :=
        h.of_same rfl rfl rfl rfl (fun _ hj => hj)
      exact ht.setPhase rfl (by simp)

theorem handshakeFails (hb : Booked s) (hi : (s.calls i).phase = .shaking) :
    Attended ((s.setPhase i .dialFailed).closeConn i) := by
  have hopen : (s.conns i).opened = true := (hb.ledger.ok i).made (by rw [hi]; rfl)
  unfold Cluster.closeConn
  split_ifs with ho
  · exact h.setCall rfl rfl (fun hc => by cases hc) (fun _ _ => ho)
  · have hr := h.retire (a := "") (c := { s.conns i with once := true }) (.inl rfl) rfl rfl hopen
    have hpool : s.setH2Pool "" (s.h2Pool "") = s := by
      simp only [setH2Pool, Function.update_eq_self]
    rw [hpool] at hr
    have hf : Attended ((s.setConn i { s.conns i with once := true }).setPhase i .dialFailed) := by
      refine hr.setCall rfl rfl (fun hc => by cases hc) (fun _ _ => ?_)
      simp only [Cluster.setConn, Function.update_self]
    exact (hf.lbRelease i).releaseConnSlot i

theorem releaseStream (hb : Booked s) (hi : (s.calls i).phase = .riding k) :
    Attended (releaseStream s i k) := by
  have hopen : (s.conns k).opened = true := hb.opened k (hb.slots.accounted.riding i k (.inl hi))
  have hdrop : Attended ((s.addInFlight k (-1)).addStreamsActive (-1)) :=
    h.of_same rfl rfl rfl rfl (fun _ hj => hj)
  have hprom := (hdrop.setPhase (i := i) (p := .returned) rfl (by simp)).promote (s.calls i).addr
  simp only [H2Pool.releaseStream]
  split_ifs
  · apply promote
    apply hprom.evict
    rw [conns_h2PromoteLocked]
    exact hopen
  · exact hprom

theorem watchGoneAway (hb : Booked s) (hk : (s.conns k).watcher = .running) :
    Attended (watchGoneAway s k) := by
  have hset : Attended (s.setConn k { s.conns k with watcher := .exited }) := by
    refine h.setConn rfl rfl ?_ (.inl rfl)
    rw [hk]
    simp
  simp only [H2Pool.watchGoneAway]
  split_ifs with hcond
  · apply promote
    apply hset.evict
    simp only [Cluster.setConn, Function.update_self]
    exact hb.pooled_opened hcond.1
  · exact hset

theorem step (hb : Booked s) (e : Event) : Attended (H2Pool.step s e) := by
  refine step_induct h fun t hf => ?_
  cases hf with
  | pick api a => exact h.pick hb api a
  | @popIdleH1 i hapi _ =>
    simp only [popIdleH1]
    split
    · have ht : Attended (s.setH1Pool (s.calls i).addr (s.h1Pool (s.calls i).addr).dropLast) :=
        h.of_same rfl rfl rfl rfl (fun _ hj => hj)
      exact ht.giveUp i
    · refine h.setCall rfl rfl (fun _ => ?_) (fun hc => by cases hc)
      change (s.calls i).api ≠ _
      rw [hapi]
      simp
  | @acquireConnSlot i hi =>
    apply h.acquireConnSlot
    rcases hi with hi | hi
    · rw [hi.1]
      simp
    · exact h.classic i (by rw [hi]; rfl)
  | receivePermit hi =>
    exact h.setCall rfl rfl (fun _ => h.classic _ (by rw [hi]; rfl)) (fun hc => by cases hc)
  | @cancelPending i _ =>
    simp only [removeWaiterLocked]
    split
    · exact h
    · rename_i p hp
      have ht : Attended (s.setPool { p with waiters := p.waiters.erase i }) :=
        h.setPool hp (fun _ hj => List.mem_of_mem_erase hj)
      exact ht.giveUp i
  | cancelHanded _ => exact (h.giveUp _).releaseConnSlot _
  | dialFails _ => exact (h.giveUp _).releaseConnSlot _
  | @entryFails i hi =>
    obtain ⟨-, -, -, hopen⟩ := (hb.ledger.ok i).permit (by rw [hi]; rfl)
    apply releaseConnSlot
    apply lbRelease
    refine h.setCall rfl rfl (fun hc => by cases hc) (fun _ ho => ?_)
    rw [hopen] at ho
    cases ho
  | @dialSucceeds i hi =>
    obtain ⟨-, -, -, hopen⟩ := (hb.ledger.ok i).permit (by rw [hi]; rfl)
    have hw := h.unborn hb (.inl (by rw [hi]; rfl)) hopen
    have hapi := h.classic i (by rw [hi]; rfl)
    exact h.open_ rfl (by simp) hw (h.unopened_live i hopen) (.inr hapi) (by rw [hi]; simp)
  | @entrySucceeds i hi =>
    obtain ⟨-, -, -, hopen⟩ := (hb.ledger.ok i).permit (by rw [hi]; rfl)
    have hw := h.unborn hb (.inr (by rw [hi]; rfl)) hopen
    have hphase : s.view.phase i = .connecting := hi
    have hmem : i ∈ s.view.h2Connecting (s.view.addr i) :=
      (hb.slots.accounted.toShape.mem_connecting _ i).mpr ⟨by rw [hphase]; rfl, rfl⟩
    exact h.open_ rfl (by simp) hw (h.unopened_live i hopen) (.inl hmem) (by rw [hi]; simp)
  | handshakeFails hi => exact h.handshakeFails hb hi
  | acquireH2Stream _ _ => exact h.acquireH2Stream _
  | receiveGrant _ => exact h.receiveGrant _ _
  | @undoRaced i _ =>
    have ht : Attended (s.addStreamsActive (-1)) :=
      h.of_same rfl rfl rfl rfl (fun _ hj => hj)
    exact (ht.giveUp i).promote _
  | @cancelQueued i _ =>
    have ht : Attended (s.setH2Waiters (s.calls i).addr
        ((s.h2Waiters (s.calls i).addr).erase i)) :=
      h.of_same rfl rfl rfl rfl (fun _ hj => hj)
    exact ht.giveUp i
  | cancelGranted _ => exact h.giveBackGrant _ _
  | attachReady _ _ => exact h.attachAfterReady _ _ _
  | @attachCancelled i k _ _ =>
    have ht : Attended ((s.addPromised k (-1)).addStreamsActive (-1)) :=
      h.of_same rfl rfl rfl rfl (fun _ hj => hj)
    exact ht.setPhase rfl (by simp)
  | failConnecting hi => exact h.failConnecting hi
  | poolConnecting _ => exact h.poolConnecting _
  | release hi => exact h.releaseStream hb hi
  | evictOnError hk => exact (h.evict _ (hb.pooled_opened hk)).promote _
  | goAway hk => exact h.setConn rfl rfl Iff.rfl (.inr hk)
  | teardown hk => exact h.setConn rfl rfl Iff.rfl (.inr hk)
  | watchGoneAway hk => exact h.watchGoneAway hb hk.1
  | watchDone hk =>
    refine h.setConn rfl rfl ?_ (.inl rfl)
    rw [hk.1]
    simp
  | close hk => exact h.closeConn hk.1
  | putIdleH1 hk =>
    simp only [putIdleH1]
    split_ifs
    · exact h.closeConn hk.1
    · exact h.closeConn hk.1
    · exact h.of_same rfl rfl rfl rfl (fun _ hj => hj)

end

theorem initial (cfg : ClusterConfig) : Attended (newCluster cfg) where
  watched := by intro k hk; exact absurd rfl hk
  unwatched := by intro k hk; cases hk
  classic_live := by intro k _ _; rfl
  unopened_live := by intro k _; rfl
  classic := by intro k hk; cases hk
  waiting := by intro k _ hk; cases hk
  failed := by intro k hk; cases hk

end Attended

/-- A reserved permit on its way to a dial, a connecting entry, or an open connection that is
live, busy or still watched. -/
def Owns (s : Cluster) (i : CallId) : Prop :=
  (s.calls i).phase = .handed ∨ (s.calls i).phase = .dialing ∨
  (s.calls i).phase = .granted none ∨
  (s.calls i).phase = .connecting ∨ (s.calls i).phase = .shaking ∨
  (s.conns i).opened = true ∧ (s.conns i).once = false ∧
    (s.live i = true ∨ (s.pcs i).inFlight ≠ 0 ∨ (s.conns i).watcher = .running)

/-- The budget counts the permits that are out, and each of them has an owner. -/
def PermitsOwned (s : Cluster) : Prop :=
  (∀ p, s.pool = some p → p.activeConns = heldPermits s.next s.calls) ∧
  ∀ i, (s.calls i).permitsBack < (s.calls i).permits → Owns s i

theorem Attended.owns_of_open {s : Cluster} (h : Attended s) (hb : Booked s) (hd : Drained s)
    {k : CallId} (ho : (s.conns k).opened = true) (hn : (s.conns k).once = false) :
    Owns s k := by
  have hopen : ∀ hkept : s.live k = true ∨ (s.pcs k).inFlight ≠ 0 ∨
      (s.conns k).watcher = .running, Owns s k :=
    fun hkept => .inr (.inr (.inr (.inr (.inr ⟨ho, hn, hkept⟩))))
  cases hw : (s.conns k).watcher with
  | running => exact hopen (.inr (.inr hw))
  | exited =>
    have hmem := h.watched k (by rw [hw]; simp) hn
    exact hopen (.inr (.inl (hd.busy _ k hmem hw)))
  | unborn =>
    rcases h.unwatched k ho hn hw with hmem | hapi
    · have hinit := (hb.slots.accounted.toShape.mem_connecting _ k).mp hmem
      have hphase : (s.calls k).phase.initiates = true := hinit.1
      unfold Owns
      cases hp : (s.calls k).phase <;> rw [hp] at hphase <;> cases hphase
      · simp
      · simp
      · have := h.failed k hp ho
        rw [hn] at this
        cases this
    · exact hopen (.inl (h.classic_live k hapi hn))

theorem Phase.of_stage_permit {p : Phase} (h : p.stage = .permit) :
    p = .handed ∨ p = .dialing ∨ p = .granted none ∨ p = .connecting := by
  rcases p with _ | _ | _ | _ | _ | _ | _ | ⟨_ | _⟩ | _ | _ | _ | _ | _ | _ | _ <;>
    simp_all [Phase.stage]

theorem Phase.of_stage_made {p : Phase} (h : p.stage = .made) : p = .shaking := by
  rcases p with _ | _ | _ | _ | _ | _ | _ | ⟨_ | _⟩ | _ | _ | _ | _ | _ | _ | _ <;>
    simp_all [Phase.stage]

theorem Attended.permitsOwned {s : Cluster} (h : Attended s) (hb : Booked s) (hd : Drained s) :
    PermitsOwned s := by
  refine ⟨hb.ledger.held, fun i hi => ?_⟩
  have hok := hb.ledger.ok i
  cases hs : (s.calls i).phase.stage with
  | start =>
    obtain ⟨-, hperm, -, -⟩ := hok.start hs
    omega
  | permit =>
    unfold Owns
    rcases Phase.of_stage_permit hs with hp | hp | hp | hp <;> rw [hp] <;> simp
  | made =>
    unfold Owns
    rw [Phase.of_stage_made hs]
    simp
  | ended =>
    have hset := hok.ended (.inr hs)
    cases ho : (s.conns i).opened with
    | false =>
      obtain ⟨-, hback, -⟩ := hset.none ho
      omega
    | true =>
      obtain ⟨hperm, -, hback⟩ := hset.opened ho
      cases hn : (s.conns i).once with
      | false => exact h.owns_of_open hb hd ho hn
      | true =>
        rw [hn] at hback
        simp only [Bool.toNat_true, Nat.mul_one] at hback
        omega

/-- In every interleaving in which the last slot of a dead connection is dropped on a path that
evicts, a connection whose watcher has returned is not pooled dead and idle, and every permit
that is out has an owner. -/
theorem run_no_dead_idle (cfg : ClusterConfig) (es : List Event)
    (hes : Runs.StepsMeet step evictsDead (newCluster cfg) es) :
    NoDeadIdle (run cfg es) ∧ PermitsOwned (run cfg es) := by
  have hstep : ∀ (s : Cluster) (e : Event), evictsDead s e →
      Booked s ∧ Drained s ∧ Attended s →
        Booked (step s e) ∧ Drained (step s e) ∧ Attended (step s e) := by
    rintro s e hok ⟨hb, hd, ha⟩
    exact ⟨hb.step e, hd.step hb.slots e hok, ha.step hb e⟩
  obtain ⟨hb, hd, ha⟩ : Booked (run cfg es) ∧ Drained (run cfg es) ∧ Attended (run cfg es) :=
    Runs.invariant_of_steps hstep es (newCluster cfg)
      ⟨Booked.initial cfg, Drained.initial cfg, Attended.initial cfg⟩ hes
  exact ⟨hd.noDeadIdle, ha.permitsOwned hb hd⟩

/-- One connection at a time. -/
def budgetOfOne : ClusterConfig where
  circuitBreakers := some { maxConnections := some 1 }

/-- The peer closes a connection under its stream: the watcher returns while the stream is in
flight, and the release evicts. -/
theorem run_no_dead_idle_busy_teardown :
    NoDeadIdle (run budgetOfOne
      [.pick .acquireH2Stream "a", .acquireH2Stream 0, .dialSucceeds 0, .poolConnecting 0,
        .teardown 0, .watchDone 0, .release 0]) ∧
    PermitsOwned (run budgetOfOne
      [.pick .acquireH2Stream "a", .acquireH2Stream 0, .dialSucceeds 0, .poolConnecting 0,
        .teardown 0, .watchDone 0, .release 0]) := by
  apply run_no_dead_idle
  refine ⟨trivial, trivial, trivial, trivial, trivial, ?_, trivial, trivial⟩
  intro _ _ _
  decide

/-- The peer closes an idle connection: the watcher sees the teardown and returns, and the dead
connection stays in the pool with the only permit. -/
theorem idle_teardown_keeps_permit :
    ¬ NoDeadIdle (run budgetOfOne
      [.pick .acquireH2Stream "a", .acquireH2Stream 0, .dialSucceeds 0, .poolConnecting 0,
        .release 0, .teardown 0, .watchDone 0]) ∧
    ¬ PermitsOwned (run budgetOfOne
      [.pick .acquireH2Stream "a", .acquireH2Stream 0, .dialSucceeds 0, .poolConnecting 0,
        .release 0, .teardown 0, .watchDone 0]) := by
  constructor
  · intro h
    have hkept := h "a" 0 (by decide) (by decide)
    revert hkept
    decide
  · intro h
    have howner := h.2 0 (by decide)
    unfold Owns at howner
    revert howner
    decide

end EnvoyGo.H2Pool

import EnvoyGo.H2PoolPermits

/-!
Dead connections in the pool: closed or draining, idle, and with nobody left to evict them.
-/

namespace EnvoyGo.H2Pool

open Cluster

/-- No pooled connection whose watcher has returned is dead and idle. -/
def NoDeadIdle (s : Cluster) : Prop :=
  ∀ a, ∀ k ∈ s.h2Pool a, (s.conns k).watcher = .exited →
    s.live k = true ∨ (s.pcs k).inFlight ≠ 0

/-- The last slot of a dead connection is dropped, or its watcher returns, on a path that
evicts: the watcher does not see the teardown of an idle connection, and a cancelled waiter
does not give back the last slot of a connection whose watcher has returned. -/
def evictsDead (s : Cluster) : Event → Prop
  | .watchDone k => (s.conns k).watcher = .running → (s.conns k).closed = true →
      k ∈ s.h2Pool (s.calls k).addr → (s.pcs k).inFlight ≠ 0
  | .cancelQueued i => ∀ k, (s.calls i).phase = .granted (some k) →
      (s.conns k).watcher = .exited → k ∈ s.h2Pool (s.calls i).addr → (s.pcs k).inFlight ≠ 1
  | _ => True

structure Drained (s : Cluster) : Prop where
  dead : ∀ k, (s.conns k).watcher = .exited → s.live k = false
  busy : ∀ a, ∀ k ∈ s.h2Pool a, (s.conns k).watcher = .exited → (s.pcs k).inFlight ≠ 0

namespace Drained

variable {s : Cluster}

theorem noDeadIdle (h : Drained s) : NoDeadIdle s :=
  fun a k hk hw => .inr (h.busy a k hk hw)

theorem of_frame {t : Cluster} (h : Drained s) (hp : ∀ a k, k ∈ t.h2Pool a → k ∈ s.h2Pool a)
    (hw : ∀ k, (t.conns k).watcher = .exited → (s.conns k).watcher = .exited)
    (hl : ∀ k, s.live k = false → t.live k = false)
    (hf : ∀ k, s.live k = false → (t.pcs k).inFlight = (s.pcs k).inFlight) : Drained t where
  dead k hk := hl k (h.dead k (hw k hk))
  busy a k hk hwk := by
    rw [hf k (h.dead k (hw k hwk))]
    exact h.busy a k (hp a k hk) (hw k hwk)

theorem of_calls {t : Cluster} (h : Drained s) (hp : t.view.h2Pool = s.view.h2Pool)
    (hf : t.view.inFlight = s.view.inFlight) (hc : t.conns = s.conns) : Drained t := by
  apply h.of_frame
  · intro a k hk
    have he : t.h2Pool a = s.h2Pool a := congrFun hp a
    rw [he] at hk
    exact hk
  · intro k hk
    rw [hc] at hk
    exact hk
  · intro k hk
    rw [live_of_conns hc]
    exact hk
  · intro k _
    exact congrFun hf k

theorem of_view {t : Cluster} (h : Drained s) (hv : t.view = s.view) (hc : t.conns = s.conns) :
    Drained t :=
  h.of_calls (by rw [hv]) (by rw [hv]) hc

theorem releaseConnSlot (h : Drained s) (i : CallId) : Drained (s.releaseConnSlot i) := by
  apply h.of_calls _ _ (conns_releaseConnSlot s i)
  · rw [view_releaseConnSlot, h2Pool_wake]
  · rw [view_releaseConnSlot, inFlight_wake]

theorem setPhase (h : Drained s) (i : CallId) (p : Phase) : Drained (s.setPhase i p) :=
  h.of_calls (by rw [view_setPhase]; rfl) (by rw [view_setPhase]; rfl) rfl

theorem giveUp (h : Drained s) (i : CallId) : Drained (s.giveUp i) :=
  h.of_calls (by rw [view_giveUp]; rfl) (by rw [view_giveUp]; rfl) rfl

theorem promote (h : Drained s) (a : String) : Drained (s.h2PromoteLocked a) := by
  apply h.of_frame
  · intro b k hk
    rw [h2Pool_h2PromoteLocked] at hk
    exact hk
  · intro k hk
    rw [conns_h2PromoteLocked] at hk
    exact hk
  · intro k hk
    rw [live_of_conns (conns_h2PromoteLocked s a)]
    exact hk
  · intro k hk
    exact inFlight_h2PromoteLocked_of_dead s a hk

theorem mem_erase_h2Pool {s : Cluster} {a b : String} {j k : CallId}
    (hj : j ∈ Function.update s.h2Pool a ((s.h2Pool a).erase k) b) : j ∈ s.h2Pool b := by
  rw [Function.update_apply] at hj
  split_ifs at hj with hb
  · rw [hb]
    exact List.mem_of_mem_erase hj
  · exact hj

theorem live_evictH2ConnLocked (s : Cluster) (a : String) (k j : CallId)
    (hj : s.live j = false) : (s.evictH2ConnLocked a k).live j = false := by
  rw [live, conns_evictH2ConnLocked, Function.update_apply]
  split_ifs with hjk
  · rfl
  · exact hj

theorem watcher_evictH2ConnLocked (s : Cluster) (a : String) (k j : CallId) :
    ((s.evictH2ConnLocked a k).conns j).watcher = (s.conns j).watcher := by
  rw [conns_evictH2ConnLocked, Function.update_apply]
  split_ifs with hjk
  · rw [hjk]
  · rfl

theorem evict (h : Drained s) (a : String) (k : CallId) : Drained (s.evictH2ConnLocked a k) := by
  apply h.of_frame
  · intro b j hj
    rw [h2Pool_evictH2ConnLocked] at hj
    exact mem_erase_h2Pool hj
  · intro j hj
    rw [watcher_evictH2ConnLocked] at hj
    exact hj
  · exact live_evictH2ConnLocked s a k
  · intro j _
    exact inFlight_evictH2ConnLocked s a k j

theorem setConn (h : Drained s) {k : CallId} {c : Conn}
    (hw : c.watcher = (s.conns k).watcher)
    (hl : s.live k = false → (!c.closed && !c.goneAway) = false) : Drained (s.setConn k c) := by
  apply h.of_frame
  · exact fun a j hj => hj
  · intro j hj
    simp only [Cluster.setConn, Function.update_apply] at hj
    split_ifs at hj with hjk
    · rw [hjk, ← hw]
      exact hj
    · exact hj
  · intro j hj
    simp only [live, Cluster.setConn, Function.update_apply]
    split_ifs with hjk
    · exact hl (hjk ▸ hj)
    · exact hj
  · exact fun _ _ => rfl

theorem closeConn (h : Drained s) (k : CallId) : Drained (s.closeConn k) := by
  apply h.of_frame
  · intro a j hj
    rw [h2Pool_closeConn] at hj
    exact hj
  · intro j hj
    rw [conns_closeConn, Function.update_apply] at hj
    split_ifs at hj with hjk
    · rw [hjk]
      exact hj
    · exact hj
  · intro j hj
    rw [live, conns_closeConn, Function.update_apply]
    split_ifs with hjk
    · rw [hjk] at hj
      exact hj
    · exact hj
  · intro j _
    exact inFlight_closeConn s k j

theorem not_mem_evicted (hs : SlotInv s) {k : CallId} {a b : String}
    (ha : (s.calls k).addr = a) : k ∉ (s.evictH2ConnLocked a k).h2Pool b := by
  rw [h2Pool_evictH2ConnLocked, Function.update_apply]
  split_ifs with hb
  · have hnd : (s.h2Pool a).Nodup := hs.accounted.pooled_nodup a
    rw [hnd.mem_erase_iff]
    exact fun h => h.1 rfl
  · intro hk
    exact hb ((hs.accounted.pooled b k hk).1.symm.trans ha)

theorem evict_or_busy (hs : SlotInv s) {k : CallId} {a : String} (ha : (s.calls k).addr = a)
    (hdead : ∀ j, (s.conns j).watcher = .exited → s.live j = false)
    (hbusy : ∀ b, ∀ j ∈ s.h2Pool b, j ≠ k → (s.conns j).watcher = .exited →
      (s.pcs j).inFlight ≠ 0) : Drained ((s.evictH2ConnLocked a k).h2PromoteLocked a) := by
  apply promote
  constructor
  · intro j hj
    rw [watcher_evictH2ConnLocked] at hj
    exact live_evictH2ConnLocked s a k j (hdead j hj)
  · intro b j hj hw
    have hjk : j ≠ k := by
      rintro rfl
      exact not_mem_evicted hs ha hj
    rw [h2Pool_evictH2ConnLocked] at hj
    rw [watcher_evictH2ConnLocked] at hw
    rw [inFlight_evictH2ConnLocked]
    exact hbusy b j (mem_erase_h2Pool hj) hjk hw

theorem releaseStream (h : Drained s) (hs : SlotInv s) {i k : CallId}
    (hi : (s.calls i).phase = .riding k) : Drained (releaseStream s i k) := by
  have haddr : (s.calls k).addr = (s.calls i).addr :=
    hs.accounted.slot_addr i k (by change slotOf i (s.calls i).phase = _; rw [hi]; rfl)
  -- the slot is dropped and the next waiter promoted; only the count of `k` may differ
  have hdrop : SlotInv (((s.addInFlight k (-1)).addStreamsActive (-1)).setPhase i .returned) := by
    refine ⟨?_, ?_⟩ <;> simp only [view_setPhase, view_addStreamsActive, view_addInFlight]
    · exact hs.accounted.dropSlot (.inl hi)
    · exact hs.cap_pos
  have hconns : ((((s.addInFlight k (-1)).addStreamsActive (-1)).setPhase i
      .returned).h2PromoteLocked (s.calls i).addr).conns = s.conns := by
    rw [conns_h2PromoteLocked]
    rfl
  have hpool : ((((s.addInFlight k (-1)).addStreamsActive (-1)).setPhase i
      .returned).h2PromoteLocked (s.calls i).addr).h2Pool = s.h2Pool := by
    rw [h2Pool_h2PromoteLocked]
    rfl
  have hcount : ∀ j, j ≠ k → s.live j = false →
      (((((s.addInFlight k (-1)).addStreamsActive (-1)).setPhase i .returned).h2PromoteLocked
        (s.calls i).addr).pcs j).inFlight = (s.pcs j).inFlight := by
    intro j hj hl
    rw [inFlight_h2PromoteLocked_of_dead _ _ (by exact hl)]
    simp only [Cluster.setPhase, setCall, addStreamsActive, addInFlight, setPooled,
      Function.update_of_ne hj]
  have hprom := hdrop.promote (s.calls i).addr
  have hcall : (((((s.addInFlight k (-1)).addStreamsActive (-1)).setPhase i
      .returned).h2PromoteLocked (s.calls i).addr).view.addr k) = (s.calls i).addr := by
    rw [addr_h2PromoteLocked, view_setPhase]
    exact haddr
  simp only [H2Pool.releaseStream]
  generalize (((s.addInFlight k (-1)).addStreamsActive (-1)).setPhase i
    .returned).h2PromoteLocked (s.calls i).addr = t at *
  split_ifs with hcond
  · apply evict_or_busy hprom hcall
    · intro j hj
      rw [hconns] at hj
      rw [live_of_conns hconns]
      exact h.dead j hj
    · intro b j hj hjk hw
      rw [hpool] at hj
      rw [hconns] at hw
      rw [hcount j hjk (h.dead j hw)]
      exact h.busy b j hj hw
  · constructor
    · intro j hj
      rw [hconns] at hj
      rw [live_of_conns hconns]
      exact h.dead j hj
    · intro b j hj hw
      rw [hpool] at hj
      rw [hconns] at hw
      rcases eq_or_ne j k with rfl | hjk
      · intro hzero
        apply hcond
        rw [live_of_conns hconns, h.dead j hw, hzero]
        rfl
      · rw [hcount j hjk (h.dead j hw)]
        exact h.busy b j hj hw

theorem giveBackGrant (h : Drained s) {i : CallId} {cc : Option CallId}
    (hi : (s.calls i).phase = .granted cc) (hok : evictsDead s (.cancelQueued i)) :
    Drained (giveBackGrant s i cc) := by
  cases cc with
  | none =>
    apply promote
    exact (h.giveUp i).releaseConnSlot i
  | some k =>
    apply promote
    split_ifs with hk
    · constructor
      · exact h.dead
      · intro a j hj hw
        simp only [Cluster.giveUp, lbRelease, Cluster.setPhase, setCall, addStreamsActive,
          addInFlight, setPooled, Function.update_apply]
        split_ifs with hjk
        · have := hok k hi (hjk ▸ hw) hk
          change (s.pcs k).inFlight + -1 ≠ 0
          omega
        · exact h.busy a j hj hw
    · exact h.of_calls rfl rfl rfl

theorem watchGoneAway (h : Drained s) (hs : SlotInv s) {k : CallId}
    (hk : (s.conns k).goneAway = true) : Drained (watchGoneAway s k) := by
  have hdead : ∀ j,
      ((s.setConn k { s.conns k with watcher := .exited }).conns j).watcher = .exited →
      (s.setConn k { s.conns k with watcher := .exited }).live j = false := by
    intro j hj
    simp only [live, Cluster.setConn, Function.update_apply] at hj ⊢
    split_ifs at hj ⊢ with hjk
    · simp [hk]
    · exact h.dead j hj
  have hbusy : ∀ b, ∀ j ∈ s.h2Pool b, j ≠ k →
      ((s.setConn k { s.conns k with watcher := .exited }).conns j).watcher = .exited →
        (s.pcs j).inFlight ≠ 0 := by
    intro b j hj hjk hw
    simp only [Cluster.setConn, Function.update_of_ne hjk] at hw
    exact h.busy b j hj hw
  simp only [H2Pool.watchGoneAway]
  split_ifs with hcond
  · exact evict_or_busy (hs.setConn k _) rfl hdead hbusy
  · constructor
    · exact hdead
    · intro b j hj hw
      rcases eq_or_ne j k with rfl | hjk
      · intro hzero
        apply hcond
        refine ⟨?_, hzero⟩
        have haddr : (s.calls j).addr = b := (hs.accounted.pooled b j hj).1
        rw [haddr]
        exact hj
      · exact hbusy b j hj hjk hw

theorem watchDone (h : Drained s) (hs : SlotInv s) {k : CallId}
    (hrun : (s.conns k).watcher = .running) (hk : (s.conns k).closed = true)
    (hok : evictsDead s (.watchDone k)) :
    Drained (s.setConn k { s.conns k with watcher := .exited }) := by
  constructor
  · intro j hj
    simp only [live, Cluster.setConn, Function.update_apply] at hj ⊢
    split_ifs at hj ⊢ with hjk
    · simp [hk]
    · exact h.dead j hj
  · intro b j hj hw
    rcases eq_or_ne j k with rfl | hjk
    · have haddr : (s.calls j).addr = b := (hs.accounted.pooled b j hj).1
      exact hok hrun hk (haddr ▸ hj)
    · simp only [Cluster.setConn, Function.update_of_ne hjk] at hw
      exact h.busy b j hj hw

theorem poolConnecting (h : Drained s) (i : CallId) : Drained (poolConnecting s i) := by
  apply promote
  constructor
  · intro j hj
    simp only [removeConnectingLocked, Cluster.setPhase, setCall, setConnecting, Cluster.setConn,
      setH2Pool, setPooled, setH2Connecting, Function.update_apply] at hj
    split_ifs at hj with hji
    simp only [live, removeConnectingLocked, Cluster.setPhase, setCall, setConnecting,
      Cluster.setConn, setH2Pool, setPooled, setH2Connecting, Function.update_of_ne hji]
    exact h.dead j hj
  · intro a j hj hw
    simp only [removeConnectingLocked, Cluster.setPhase, setCall, setConnecting, Cluster.setConn,
      setH2Pool, setPooled, setH2Connecting, Function.update_apply] at hj hw ⊢
    split_ifs at hw with hji
    rw [if_neg hji]
    split_ifs at hj with ha
    · rcases List.mem_append.mp hj with hj | hj
      · exact h.busy _ j hj hw
      · exact absurd (List.mem_singleton.mp hj) hji
    · exact h.busy a j hj hw

theorem acquireH2Stream (h : Drained s) (i : CallId) : Drained (acquireH2Stream s i) := by
  obtain ⟨k, hk, he⟩ | ⟨k, -, -, he⟩ | ⟨s', -, hs', he⟩ | ⟨-, he⟩ | ⟨p, -, -, -, he⟩ :=
    acquireH2Stream_cases s i <;> rw [he]
  · obtain ⟨-, hlive, -⟩ := mem_of_findStreamHitLocked hk
    apply h.of_frame
    · exact fun a j hj => hj
    · exact fun j hj => hj
    · exact fun j hj => hj
    · intro j hj
      have hjk : j ≠ k := by
        rintro rfl
        rw [hlive] at hj
        cases hj
      simp only [lbRelease, Cluster.setPhase, setCall, addStreamsActive, addInFlight, setPooled,
        Function.update_of_ne hjk]
  · exact h.of_calls rfl rfl rfl
  · have hs : Drained s' :=
      h.of_view (view_tryAcquireConnSlot hs') (conns_tryAcquireConnSlot hs')
    exact hs.of_calls rfl rfl rfl
  · exact h.giveUp i
  · exact h.of_calls rfl rfl rfl

theorem step (h : Drained s) (hs : SlotInv s) (e : Event) (hok : evictsDead s e) :
    Drained (step s e) := by
  refine step_induct h fun t hf => ?_
  cases hf with
  | pick api a => exact h.of_calls rfl rfl rfl
  | popIdleH1 _ _ =>
    simp only [popIdleH1]
    split
    · exact h.of_calls rfl rfl rfl
    · exact h.setPhase _ _
  | @acquireConnSlot i _ =>
    obtain ⟨s', hs', he⟩ | he | ⟨p, hp, he⟩ := acquireConnSlot_cases s i <;> rw [he]
    · have hd : Drained s' :=
        h.of_view (view_tryAcquireConnSlot hs') (conns_tryAcquireConnSlot hs')
      exact hd.setPhase i _
    · exact h.giveUp i
    · exact h.of_calls rfl rfl rfl
  | receivePermit _ => exact h.setPhase _ _
  | cancelPending _ =>
    simp only [removeWaiterLocked]
    split
    · exact h
    · exact h.of_calls rfl rfl rfl
  | cancelHanded _ => exact (h.giveUp _).releaseConnSlot _
  | dialFails _ => exact (h.giveUp _).releaseConnSlot _
  | entryFails _ =>
    apply releaseConnSlot
    exact h.of_calls rfl rfl rfl
  | @dialSucceeds i _ | @entrySucceeds i _ =>
    have hopen : Drained (s.setConn i { s.conns i with opened := true }) :=
      h.setConn rfl (fun hl => hl)
    exact hopen.setPhase i _
  | handshakeFails _ => exact (h.setPhase _ _).closeConn _
  | acquireH2Stream _ _ => exact h.acquireH2Stream _
  | @receiveGrant i cc _ =>
    cases cc with
    | none => exact h.of_calls rfl rfl rfl
    | some k =>
      simp only [receiveGrant]
      split_ifs
      · exact h.of_calls rfl rfl rfl
      · exact h.setPhase i _
  | undoRaced _ =>
    apply promote
    exact h.of_calls rfl rfl rfl
  | cancelQueued _ => exact h.of_calls rfl rfl rfl
  | cancelGranted hi => exact h.giveBackGrant hi hok
  | @attachReady i k out _ _ =>
    cases out with
    | failed => exact h.setPhase i _
    | established =>
      simp only [attachAfterReady]
      split_ifs
      · exact h.setPhase i _
      · exact h.of_calls rfl rfl rfl
  | attachCancelled _ _ => exact h.of_calls rfl rfl rfl
  | failConnecting _ =>
    apply promote
    exact h.of_calls rfl rfl rfl
  | poolConnecting _ => exact h.poolConnecting _
  | release hi => exact h.releaseStream hs hi
  | evictOnError _ => exact (h.evict _ _).promote _
  | goAway _ => exact h.setConn rfl (fun _ => by simp)
  | teardown _ => exact h.setConn rfl (fun _ => by simp)
  | watchGoneAway hk => exact h.watchGoneAway hs hk.2
  | watchDone hk => exact h.watchDone hs hk.1 hk.2 hok
  | close _ => exact h.closeConn _
  | putIdleH1 _ =>
    simp only [putIdleH1]
    split_ifs
    · exact h.closeConn _
    · exact h.closeConn _
    · exact h.of_calls rfl rfl rfl

theorem initial (cfg : ClusterConfig) : Drained (newCluster cfg) where
  dead := by intro k hk; cases hk
  busy := by intro a k hk; cases hk

end Drained

end EnvoyGo.H2Pool

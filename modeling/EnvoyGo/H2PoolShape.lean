import EnvoyGo.H2PoolView
import EnvoyGo.KeyedQueue

/-!
How the queues, the phases of the calls and the connecting entries fit together, in every
state of the pool.
-/

namespace EnvoyGo.H2Pool

open KeyedQueue

def Phase.initiates : Phase → Bool
  | .connecting => true
  | .shaking => true
  | .dialFailed => true
  | _ => false

/-- The call may still become an initiator, or is not about HTTP/2. -/
def Phase.early : Phase → Bool
  | .idle => true
  | .picked => true
  | .missed => true
  | .pending => true
  | .handed => true
  | .dialing => true
  | .queued => true
  | .granted none => true
  | _ => false

def slotOf (i : CallId) : Phase → Option CallId
  | .granted cc => cc
  | .connecting => some i
  | .shaking => some i
  | .dialFailed => some i
  | .attached k => some k
  | .riding k => some k
  | _ => none

inductive Queue
  | h2Waiters
  | h2Connecting
  | waiters
  deriving DecidableEq

def Phase.queue : Phase → Option Queue
  | .queued => some .h2Waiters
  | .connecting => some .h2Connecting
  | .shaking => some .h2Connecting
  | .dialFailed => some .h2Connecting
  | .pending => some .waiters
  | _ => none

def Phase.filed {κ : Type} (q : Queue) (a : κ) (p : Phase) : Option κ :=
  if p.queue = some q then some a else none

namespace View

def queuedAt (v : View) (i : CallId) : Option String := (v.phase i).filed .h2Waiters (v.addr i)

def initiatesAt (v : View) (i : CallId) : Option String :=
  (v.phase i).filed .h2Connecting (v.addr i)

def pendingAt (v : View) (i : CallId) : Option Unit := (v.phase i).filed .waiters ()

end View

/-- What a call may refer to: an entry or a connection of its own endpoint that has been made,
and for a stream in use or granted one that was established. -/
structure Refs (v : View) : Prop where
  pooled : ∀ a k, k ∈ v.h2Pool a → v.addr k = a ∧ v.ready k = some .established
  ready : ∀ k, v.ready k ≠ none → (v.phase k).initiates = false ∧ (v.phase k).early = false
  slot_addr : ∀ i k, slotOf i (v.phase i) = some k → v.addr k = v.addr i
  attached : ∀ i k, v.phase i = .attached k → (v.phase k).initiates = true ∨ v.ready k ≠ none
  riding : ∀ i k, v.phase i = .riding k ∨ v.phase i = .granted (some k) →
    v.ready k = some .established
  fresh : ∀ i, v.next ≤ i → v.phase i = .idle

structure Shape (v : View) : Prop extends Refs v where
  waiters : Indexed v.h2Waiters v.queuedAt
  connecting : Indexed v.h2Connecting v.initiatesAt
  pending : Indexed (fun _ => v.waiters) v.pendingAt
  pooled_nodup : ∀ a, (v.h2Pool a).Nodup

variable {v : View}

theorem early_of_initiates {p : Phase} (h : p.initiates = true) : p.early = false := by
  cases p <;> simp_all [Phase.initiates, Phase.early]

theorem slotOf_of_initiates {p : Phase} (i : CallId) (h : p.initiates = true) :
    slotOf i p = some i := by
  cases p <;> simp_all [Phase.initiates, slotOf]

theorem slotOf_cases {i k : CallId} {p : Phase} (h : slotOf i p = some k) :
    p.initiates = true ∧ k = i ∨ p = .attached k ∨ p = .riding k ∨ p = .granted (some k) := by
  cases p <;> simp_all [slotOf, Phase.initiates]

namespace Refs

theorem slot_not_early (h : Refs v) {i k : CallId} (hs : slotOf i (v.phase i) = some k) :
    (v.phase k).early = false := by
  rcases slotOf_cases hs with ⟨hi, rfl⟩ | hi | hi | hi
  · exact early_of_initiates hi
  · rcases h.attached i k hi with hk | hk
    · exact early_of_initiates hk
    · exact (h.ready k hk).2
  · exact (h.ready k (by rw [h.riding i k (.inl hi)]; simp)).2
  · exact (h.ready k (by rw [h.riding i k (.inr hi)]; simp)).2

theorem not_idle_lt (h : Refs v) {i : CallId} (hi : v.phase i ≠ .idle) : i < v.next := by
  by_contra hn
  exact hi (h.fresh i (not_lt.mp hn))

theorem setPhase (h : Refs v) (i : CallId) (p : Phase) (hidle : v.phase i ≠ .idle)
    (hinit : (v.phase i).initiates = true → p.initiates = true)
    (hmade : (v.phase i).initiates = false → (v.phase i).early = false →
      p.initiates = false ∧ p.early = false)
    (haddr : ∀ k, slotOf i p = some k → v.addr k = v.addr i)
    (hatt : ∀ k, p = .attached k → (v.phase k).initiates = true ∨ v.ready k ≠ none)
    (hride : ∀ k, p = .riding k ∨ p = .granted (some k) → v.ready k = some .established) :
    Refs (v.setPhase i p) := by
  have hlt := h.not_idle_lt hidle
  refine ⟨h.pooled, ?_, ?_, ?_, ?_, ?_⟩ <;> simp only [View.setPhase, Function.update_apply]
  · intro k hk
    split_ifs with hki
    · subst hki
      exact hmade (h.ready k hk).1 (h.ready k hk).2
    · exact h.ready k hk
  · intro j k hs
    split_ifs at hs with hji
    · subst hji
      exact haddr k hs
    · exact h.slot_addr j k hs
  · intro j k hj
    have hk : (v.phase k).initiates = true ∨ v.ready k ≠ none := by
      split_ifs at hj with hji
      · exact hatt k hj
      · exact h.attached j k hj
    split_ifs with hki
    · subst hki
      exact hk.imp_left hinit
    · exact hk
  · intro j k hj
    split_ifs at hj with hji
    · exact hride k hj
    · exact h.riding j k hj
  · intro j hj
    rw [if_neg (ne_of_gt (lt_of_lt_of_le hlt hj))]
    exact h.fresh j hj

theorem leave (h : Refs v) (i : CallId) (p : Phase) (hidle : v.phase i ≠ .idle)
    (hold : (v.phase i).initiates = false) (hp : slotOf i p = none)
    (hearly : p.early = true → (v.phase i).early = true) : Refs (v.setPhase i p) := by
  have hnew : p.initiates = false := by
    by_contra hne
    rw [slotOf_of_initiates i (by simpa using hne)] at hp
    cases hp
  apply h.setPhase i p hidle
  · intro hi
    rw [hold] at hi
    cases hi
  · intro _ he
    refine ⟨hnew, ?_⟩
    by_contra hne
    have := hearly (by simpa using hne)
    rw [he] at this
    cases this
  · intro k hk
    rw [hp] at hk
    cases hk
  · rintro k rfl
    cases hp
  · rintro k (rfl | rfl) <;> cases hp

theorem settle (h : Refs v) (i : CallId) (p : Phase) (out : DialOutcome) (n : Int)
    (hinit : (v.phase i).initiates = true)
    (hp : p = .returned ∨ p = .riding i ∧ out = .established) :
    Refs ((v.setConnecting i { ready := some out, promised := n }).setPhase i p) := by
  have hlt : i < v.next := h.not_idle_lt (by rintro hi; rw [hi] at hinit; cases hinit)
  -- nobody rides or was granted a connection that is still being dialled
  have hunready : v.ready i = none := by
    by_contra hne
    have := (h.ready i hne).1
    rw [hinit] at this
    cases this
  have hpost : p.initiates = false ∧ p.early = false := by
    rcases hp with rfl | ⟨rfl, -⟩ <;> exact ⟨rfl, rfl⟩
  refine ⟨?_, ?_, ?_, ?_, ?_, ?_⟩ <;>
    simp only [View.setPhase, View.setConnecting, Function.update_apply]
  · intro a k hk
    obtain ⟨ha, hr⟩ := h.pooled a k hk
    have hki : k ≠ i := by
      rintro rfl
      rw [hunready] at hr
      cases hr
    rw [if_neg hki]
    exact ⟨ha, hr⟩
  · intro k hk
    split_ifs at hk ⊢ with hki
    · exact hpost
    · exact h.ready k hk
  · intro j k hs
    split_ifs at hs with hji
    · subst hji
      rcases hp with rfl | ⟨rfl, -⟩
      · cases hs
      · obtain rfl := Option.some.inj hs
        rfl
    · exact h.slot_addr j k hs
  · intro j k hj
    rcases eq_or_ne k i with rfl | hki
    · exact .inr (by simp)
    · rw [if_neg hki, if_neg hki]
      split_ifs at hj with hji
      · rcases hp with rfl | ⟨rfl, -⟩ <;> cases hj
      · exact h.attached j k hj
  · intro j k hj
    split_ifs at hj with hji
    · rcases hp with rfl | ⟨rfl, rfl⟩
      · rcases hj with hj | hj <;> cases hj
      · rcases hj with hj | hj
        · obtain rfl := Phase.riding.inj hj
          rw [if_pos rfl]
        · cases hj
    · have hk := h.riding j k hj
      have hki : k ≠ i := by
        rintro rfl
        rw [hunready] at hk
        cases hk
      rw [if_neg hki]
      exact hk
  · intro j hj
    rw [if_neg (ne_of_gt (lt_of_lt_of_le hlt hj))]
    exact h.fresh j hj

end Refs

section Keys

variable (v : View) (i : CallId) (p : Phase)

theorem queuedAt_setPhase : (v.setPhase i p).queuedAt =
    Function.update v.queuedAt i (p.filed .h2Waiters (v.addr i)) :=
  funext (fun j => Function.apply_update (fun k => Phase.filed .h2Waiters (v.addr k)) v.phase i p j)

theorem initiatesAt_setPhase : (v.setPhase i p).initiatesAt =
    Function.update v.initiatesAt i (p.filed .h2Connecting (v.addr i)) :=
  funext (fun j =>
    Function.apply_update (fun k => Phase.filed .h2Connecting (v.addr k)) v.phase i p j)

theorem pendingAt_setPhase : (v.setPhase i p).pendingAt =
    Function.update v.pendingAt i (p.filed .waiters ()) :=
  funext (fun j => Function.apply_update (fun _ => Phase.filed .waiters ()) v.phase i p j)

end Keys

theorem filed_congr {κ : Type} {p r : Phase} (h : p.queue = r.queue) (q : Queue) (a : κ) :
    p.filed q a = r.filed q a := by
  rw [Phase.filed, Phase.filed, h]

namespace Shape

variable (h : Shape v)

include h

theorem mem_waiters (a : String) (i : CallId) :
    i ∈ v.h2Waiters a ↔ v.phase i = .queued ∧ v.addr i = a := by
  rw [h.waiters.mem_iff, View.queuedAt]
  cases hp : v.phase i <;> simp [Phase.filed, Phase.queue]

theorem mem_connecting (a : String) (k : CallId) :
    k ∈ v.h2Connecting a ↔ (v.phase k).initiates = true ∧ v.addr k = a := by
  rw [h.connecting.mem_iff, View.initiatesAt]
  cases hp : v.phase k <;> simp [Phase.filed, Phase.queue, Phase.initiates]

theorem mem_pending (i : CallId) : i ∈ v.waiters ↔ v.phase i = .pending := by
  rw [h.pending.mem_iff () i, View.pendingAt]
  cases hp : v.phase i <;> simp [Phase.filed, Phase.queue]

theorem setPhase (i : CallId) (p : Phase) (hr : Refs (v.setPhase i p))
    (hq : p.queue = (v.phase i).queue) : Shape (v.setPhase i p) where
  toRefs := hr
  waiters := by
    rw [queuedAt_setPhase]
    exact h.waiters.keep (filed_congr hq _ _)
  connecting := by
    rw [initiatesAt_setPhase]
    exact h.connecting.keep (filed_congr hq _ _)
  pending := by
    rw [pendingAt_setPhase]
    exact h.pending.keep (filed_congr hq _ _)
  pooled_nodup := h.pooled_nodup

theorem setH2Waiters (i : CallId) (p : Phase) (a : String) (l : List CallId)
    (hr : Refs (v.setPhase i p)) (hl : Indexed (Function.update v.h2Waiters a l)
      (Function.update v.queuedAt i (p.filed .h2Waiters (v.addr i))))
    (hc : p.filed .h2Connecting (v.addr i) = v.initiatesAt i)
    (hp : p.filed .waiters () = v.pendingAt i) : Shape ((v.setH2Waiters a l).setPhase i p) where
  toRefs := { hr with }
  waiters := by
    rw [queuedAt_setPhase]
    exact hl
  connecting := by
    rw [initiatesAt_setPhase]
    exact h.connecting.keep hc
  pending := by
    rw [pendingAt_setPhase]
    exact h.pending.keep hp
  pooled_nodup := h.pooled_nodup

theorem setWaiters (i : CallId) (p : Phase) (l : List CallId) (hr : Refs (v.setPhase i p))
    (hl : Indexed (Function.update (fun _ => v.waiters) () l)
      (Function.update v.pendingAt i (p.filed .waiters ())))
    (hw : p.filed .h2Waiters (v.addr i) = v.queuedAt i)
    (hc : p.filed .h2Connecting (v.addr i) = v.initiatesAt i) :
    Shape ({ v with waiters := l }.setPhase i p) where
  toRefs := { hr with }
  waiters := by
    rw [queuedAt_setPhase]
    exact h.waiters.keep hw
  connecting := by
    rw [initiatesAt_setPhase]
    exact h.connecting.keep hc
  pending := by
    rw [pendingAt_setPhase]
    have he : Function.update (fun _ : Unit => v.waiters) () l = fun _ => l :=
      funext (fun _ => Function.update_self _ _ _)
    rw [he] at hl
    exact hl
  pooled_nodup := h.pooled_nodup

theorem wake : Shape v.wake := by
  unfold View.wake
  split
  · exact h
  · rename_i w ws hw
    have hpend : v.phase w = .pending :=
      (h.mem_pending w).mp (by rw [hw]; exact List.mem_cons_self)
    apply h.setWaiters w .handed ws
    · exact h.toRefs.leave w .handed (by simp [hpend]) (by simp [hpend, Phase.initiates]) rfl
        (by simp [hpend, Phase.early])
    · exact h.pending.pop hw
    · simp [View.queuedAt, hpend, Phase.filed, Phase.queue]
    · simp [View.initiatesAt, hpend, Phase.filed, Phase.queue]

theorem pend (i : CallId) (hi : v.phase i = .picked ∨ v.phase i = .missed) :
    Shape ({ v with waiters := v.waiters ++ [i] }.setPhase i .pending) := by
  apply h.setWaiters i .pending
  · apply h.toRefs.leave i .pending <;> rcases hi with hi | hi <;>
      simp [hi, Phase.initiates, Phase.early, slotOf]
  · apply h.pending.push
    rcases hi with hi | hi <;> simp [View.pendingAt, hi, Phase.filed, Phase.queue]
  · rcases hi with hi | hi <;> simp [View.queuedAt, hi, Phase.filed, Phase.queue]
  · rcases hi with hi | hi <;> simp [View.initiatesAt, hi, Phase.filed, Phase.queue]

theorem unpend (i : CallId) (hi : v.phase i = .pending) :
    Shape ({ v with waiters := v.waiters.erase i }.setPhase i .returned) := by
  apply h.setWaiters i .returned
  · apply h.toRefs.leave i .returned <;> simp [hi, Phase.initiates, Phase.early, slotOf]
  · exact h.pending.drop (by simp [View.pendingAt, hi, Phase.filed, Phase.queue])
  · simp [View.queuedAt, hi, Phase.filed, Phase.queue]
  · simp [View.initiatesAt, hi, Phase.filed, Phase.queue]

theorem enqueue (i : CallId) (hi : v.phase i = .picked) :
    Shape ((v.setH2Waiters (v.addr i) (v.h2Waiters (v.addr i) ++ [i])).setPhase i .queued) := by
  apply h.setH2Waiters i .queued
  · apply h.toRefs.leave i .queued <;> simp [hi, Phase.initiates, Phase.early, slotOf]
  · exact h.waiters.push (by simp [View.queuedAt, hi, Phase.filed, Phase.queue])
  · simp [View.initiatesAt, hi, Phase.filed, Phase.queue]
  · simp [View.pendingAt, hi, Phase.filed, Phase.queue]

theorem dequeue (i : CallId) (hi : v.phase i = .queued) :
    Shape ((v.setH2Waiters (v.addr i) ((v.h2Waiters (v.addr i)).erase i)).setPhase i
      .returned) := by
  apply h.setH2Waiters i .returned
  · apply h.toRefs.leave i .returned <;> simp [hi, Phase.initiates, Phase.early, slotOf]
  · exact h.waiters.drop (by simp [View.queuedAt, hi, Phase.filed, Phase.queue])
  · simp [View.initiatesAt, hi, Phase.filed, Phase.queue]
  · simp [View.pendingAt, hi, Phase.filed, Phase.queue]

theorem grant {a : String} {w : CallId} {q : List CallId} (hw : v.h2Waiters a = w :: q)
    (cc : Option CallId) (hcc : ∀ k, cc = some k → k ∈ v.h2Pool a) :
    Shape ((v.setH2Waiters a q).setPhase w (.granted cc)) := by
  obtain ⟨hi, ha⟩ := (h.mem_waiters a w).mp (by rw [hw]; exact List.mem_cons_self)
  apply h.setH2Waiters w (.granted cc)
  · apply h.toRefs.setPhase w (.granted cc)
    · simp [hi]
    · simp [hi, Phase.initiates]
    · simp [hi, Phase.early]
    · intro k hk
      rw [(h.pooled a k (hcc k hk)).1, ha]
    · simp
    · rintro k (hk | hk)
      · cases hk
      · exact (h.pooled a k (hcc k (Phase.granted.inj hk))).2
  · exact h.waiters.pop hw
  · simp [View.initiatesAt, hi, Phase.filed, Phase.queue]
  · simp [View.pendingAt, hi, Phase.filed, Phase.queue]

theorem register (i : CallId) (hi : v.phase i = .picked ∨ v.phase i = .granted none) :
    Shape (((v.setH2Connecting (v.addr i) (v.h2Connecting (v.addr i) ++ [i])).setConnecting i
      { promised := 1 }).setPhase i .connecting) := by
  have hunready : v.ready i = none := by
    by_contra hne
    have := (h.ready i hne).2
    rcases hi with hi | hi <;> simp [hi, Phase.early] at this
  have hsame : Function.update v.ready i none = v.ready := by
    rw [← hunready, Function.update_eq_self]
  have hr : Refs { v.setPhase i .connecting with ready := Function.update v.ready i none } := by
    rw [hsame]
    apply h.toRefs.setPhase i .connecting <;> rcases hi with hi | hi <;>
      simp [hi, Phase.initiates, Phase.early, slotOf]
  constructor
  case toRefs => exact { hr with }
  case waiters =>
    rw [queuedAt_setPhase]
    apply h.waiters.keep
    rcases hi with hi | hi <;> simp [View.queuedAt, hi, Phase.filed, Phase.queue]
  case connecting =>
    rw [initiatesAt_setPhase]
    apply h.connecting.push
    rcases hi with hi | hi <;> simp [View.initiatesAt, hi, Phase.filed, Phase.queue]
  case pending =>
    rw [pendingAt_setPhase]
    apply h.pending.keep
    rcases hi with hi | hi <;> simp [View.pendingAt, hi, Phase.filed, Phase.queue]
  case pooled_nodup => exact h.pooled_nodup

theorem settle (i : CallId) (p : Phase) (out : DialOutcome) (n : Int)
    (hi : v.phase i = .dialFailed ∨ v.phase i = .shaking)
    (hp : p = .returned ∨ p = .riding i ∧ out = .established) :
    Shape (((v.setH2Connecting (v.addr i) ((v.h2Connecting (v.addr i)).erase i)).setConnecting i
      { ready := some out, promised := n }).setPhase i p) := by
  have hinit : (v.phase i).initiates = true := by
    rcases hi with hi | hi <;> simp [hi, Phase.initiates]
  have hq : (v.phase i).queue = some .h2Connecting := by
    rcases hi with hi | hi <;> simp [hi, Phase.queue]
  have hpq : p.queue = none := by
    rcases hp with rfl | ⟨rfl, -⟩ <;> rfl
  constructor
  case toRefs => exact { h.toRefs.settle i p out n hinit hp with }
  case waiters =>
    rw [queuedAt_setPhase]
    apply h.waiters.keep
    simp [View.queuedAt, Phase.filed, hq, hpq]
  case connecting =>
    rw [initiatesAt_setPhase]
    have hnone : p.filed .h2Connecting (v.addr i) = none := by simp [Phase.filed, hpq]
    change Indexed _ (Function.update v.initiatesAt i (p.filed .h2Connecting (v.addr i)))
    rw [hnone]
    exact h.connecting.drop (by simp [View.initiatesAt, Phase.filed, hq])
  case pending =>
    rw [pendingAt_setPhase]
    apply h.pending.keep
    simp [View.pendingAt, Phase.filed, hq, hpq]
  case pooled_nodup => exact h.pooled_nodup

theorem addPooled (k : CallId) (hk : v.ready k = some .established)
    (hout : k ∉ v.h2Pool (v.addr k)) :
    Shape (v.setH2Pool (v.addr k) (v.h2Pool (v.addr k) ++ [k])) :=
  { h with
    pooled := by
      intro a j hj
      simp only [View.setH2Pool, Function.update_apply] at hj
      split_ifs at hj with ha
      · subst ha
        rcases List.mem_append.mp hj with hj | hj
        · exact h.pooled _ j hj
        · obtain rfl := List.mem_singleton.mp hj
          exact ⟨rfl, hk⟩
      · exact h.pooled a j hj
    pooled_nodup := by
      intro a
      simp only [View.setH2Pool, Function.update_apply]
      split_ifs with ha
      · exact List.nodup_append_comm.mp (List.nodup_cons.mpr ⟨hout, h.pooled_nodup _⟩)
      · exact h.pooled_nodup a }

theorem evict (a : String) (k : CallId) : Shape (v.setH2Pool a ((v.h2Pool a).erase k)) :=
  { h with
    pooled := by
      intro b j hj
      simp only [View.setH2Pool, Function.update_apply] at hj
      split_ifs at hj with hb
      · subst hb
        exact h.pooled b j (List.mem_of_mem_erase hj)
      · exact h.pooled b j hj
    pooled_nodup := by
      intro b
      simp only [View.setH2Pool, Function.update_apply]
      split_ifs with hb
      · exact (h.pooled_nodup a).erase k
      · exact h.pooled_nodup b }

theorem pick (a : String) :
    Shape { v with next := v.next + 1
                   phase := Function.update v.phase v.next .picked
                   addr := Function.update v.addr v.next a } := by
  have hidle : v.phase v.next = .idle := h.fresh v.next le_rfl
  have hmade : ∀ k, (v.phase k).early = false → k ≠ v.next := by
    rintro k hk rfl
    rw [hidle] at hk
    cases hk
  have hkey : ∀ {κ : Type} {x y : κ} (q : Queue) (i : CallId), (i ≠ v.next → x = y) →
      (Function.update v.phase v.next .picked i).filed q x = (v.phase i).filed q y := by
    intro κ x y q i hxy
    rcases eq_or_ne i v.next with rfl | hi
    · simp [hidle, Phase.filed, Phase.queue]
    · rw [Function.update_of_ne hi, hxy hi]
  constructor
  case toRefs =>
    refine ⟨?_, ?_, ?_, ?_, ?_, ?_⟩ <;> simp only [Function.update_apply]
    · intro b k hk
      obtain ⟨hb, hr⟩ := h.pooled b k hk
      rw [if_neg (hmade k (h.ready k (by rw [hr]; simp)).2)]
      exact ⟨hb, hr⟩
    · intro k hk
      rw [if_neg (hmade k (h.ready k hk).2)]
      exact h.ready k hk
    · intro i k hs
      split_ifs at hs with hi
      · cases hs
      · rw [if_neg (hmade k (h.slot_not_early hs)), if_neg hi]
        exact h.slot_addr i k hs
    · intro i k hi
      split_ifs at hi with hin
      have hk : slotOf i (v.phase i) = some k := by rw [hi]; rfl
      rw [if_neg (hmade k (h.slot_not_early hk))]
      exact h.attached i k hi
    · intro i k hi
      split_ifs at hi with hin
      · rcases hi with hi | hi <;> cases hi
      · exact h.riding i k hi
    · intro i hi
      rw [if_neg (ne_of_gt (Nat.lt_of_succ_le hi))]
      exact h.fresh i (Nat.le_of_succ_le hi)
  case waiters => exact h.waiters.congr (fun i => hkey .h2Waiters i (Function.update_of_ne · _ _))
  case connecting =>
    exact h.connecting.congr (fun i => hkey .h2Connecting i (Function.update_of_ne · _ _))
  case pending => exact h.pending.congr (fun i => hkey .waiters i (fun _ => rfl))
  case pooled_nodup => exact h.pooled_nodup

end Shape

end EnvoyGo.H2Pool

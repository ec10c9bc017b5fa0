import EnvoyGo.H2PoolShape

/-!
Stream slots: the in-flight counts, the promised counts and the `http2.streams_active` gauge
against the slots that calls hold.
-/

namespace EnvoyGo.H2Pool

open Tally Cluster

def holds (i : CallId) (p : Phase) (k : CallId) : Int := if slotOf i p = some k then 1 else 0

/-- 1 when the slot of call `i`, in phase `p`, is outstanding: returned to a caller and not yet
released, promised on a connecting entry or on the connection it became, or granted and not
yet taken up or undone.  A failed dial ends the slots promised on its entry. -/
def outstandingIn (ready : CallId → Option DialOutcome) : Phase → Int
  | .riding _ => 1
  | .connecting => 1
  | .shaking => 1
  | .dialFailed => 1
  | .attached k => if ready k = some .failed then 0 else 1
  | .granted (some _) => 1
  | .raced => 1
  | _ => 0

namespace View

variable (v : View)

def slots (k : CallId) : Int := tally v.next (fun i => holds i (v.phase i) k)

def outstanding : Int := tally v.next (fun i => outstandingIn v.ready (v.phase i))

end View

structure Count (v : View) (c : Int) : Prop where
  inFlight : ∀ a k, k ∈ v.h2Pool a → v.inFlight k = v.slots k ∧ v.inFlight k ≤ c
  promised : ∀ a k, k ∈ v.h2Connecting a → v.promised k = v.slots k ∧ v.promised k ≤ c
  streamsActive : v.streamsActive = v.outstanding

theorem holds_nonneg (i : CallId) (p : Phase) (k : CallId) : 0 ≤ holds i p k := by
  unfold holds
  split_ifs <;> simp

theorem slots_nonneg (v : View) (k : CallId) : 0 ≤ v.slots k :=
  tally_nonneg _ (fun i => holds_nonneg i _ k)

section Moves

variable {v : View} {i : CallId}

theorem slots_setPhase (hi : i < v.next) (p : Phase) (k : CallId) :
    (v.setPhase i p).slots k = v.slots k + (holds i p k - holds i (v.phase i) k) := by
  have hrest : ∀ j, j ≠ i →
      holds j ((v.setPhase i p).phase j) k = holds j (v.phase j) k := by
    intro j hj
    simp only [View.setPhase, Function.update_of_ne hj]
  have hself : (v.setPhase i p).phase i = p := Function.update_self _ _ _
  have := tally_replace hi hrest
  rw [hself] at this
  exact this

theorem outstanding_setPhase (hi : i < v.next) (p : Phase) :
    (v.setPhase i p).outstanding =
      v.outstanding + (outstandingIn v.ready p - outstandingIn v.ready (v.phase i)) := by
  have hrest : ∀ j, j ≠ i →
      outstandingIn v.ready ((v.setPhase i p).phase j) = outstandingIn v.ready (v.phase j) := by
    intro j hj
    simp only [View.setPhase, Function.update_of_ne hj]
  have hself : (v.setPhase i p).phase i = p := Function.update_self _ _ _
  have := tally_replace hi hrest
  rw [hself] at this
  exact this

end Moves

namespace Count

variable {v : View} {c : Int}

theorem move (h : Count v c) {i : CallId} (hi : i < v.next) (p : Phase) (n : Int)
    (f g : CallId → Int)
    (hf : ∀ a k, k ∈ v.h2Pool a →
      f k = v.inFlight k + (holds i p k - holds i (v.phase i) k) ∧ f k ≤ c)
    (hg : ∀ a k, k ∈ v.h2Connecting a →
      g k = v.promised k + (holds i p k - holds i (v.phase i) k) ∧ g k ≤ c)
    (hn : n = v.streamsActive + (outstandingIn v.ready p - outstandingIn v.ready (v.phase i))) :
    Count ({ v with streamsActive := n, promised := g, inFlight := f }.setPhase i p) c := by
  have hslots : ∀ k, ({ v with streamsActive := n, promised := g, inFlight := f }.setPhase i
      p).slots k = v.slots k + (holds i p k - holds i (v.phase i) k) :=
    fun k => slots_setPhase hi p k
  have hout : ({ v with streamsActive := n, promised := g, inFlight := f }.setPhase i
      p).outstanding = v.outstanding +
        (outstandingIn v.ready p - outstandingIn v.ready (v.phase i)) :=
    outstanding_setPhase hi p
  refine ⟨?_, ?_, ?_⟩
  · intro a k hk
    obtain ⟨hfk, hle⟩ := hf a k hk
    have hold := (h.inFlight a k hk).1
    refine ⟨?_, hle⟩
    rw [hslots]
    change f k = _
    omega
  · intro a k hk
    obtain ⟨hgk, hle⟩ := hg a k hk
    have hold := (h.promised a k hk).1
    refine ⟨?_, hle⟩
    rw [hslots]
    change g k = _
    omega
  · rw [hout]
    change n = _
    rw [hn, h.streamsActive]

theorem leave (h : Count v c) {i : CallId} (hi : i < v.next) (p : Phase)
    (hs : ∀ k, holds i p k = holds i (v.phase i) k)
    (ho : outstandingIn v.ready p = outstandingIn v.ready (v.phase i)) :
    Count (v.setPhase i p) c := by
  apply h.move hi p v.streamsActive v.inFlight v.promised
  · intro a k hk
    have hk' := h.inFlight a k hk
    rw [hs k]
    omega
  · intro a k hk
    have hk' := h.promised a k hk
    rw [hs k]
    omega
  · rw [ho]
    omega

theorem evict (h : Count v c) (a : String) (k : CallId) :
    Count (v.setH2Pool a ((v.h2Pool a).erase k)) c where
  inFlight := by
    intro b j hj
    simp only [View.setH2Pool, Function.update_apply] at hj
    split_ifs at hj with hb
    · exact h.inFlight a j (List.mem_of_mem_erase hj)
    · exact h.inFlight b j hj
  promised := h.promised
  streamsActive := h.streamsActive

end Count

structure Accounted (v : View) (c : Int) : Prop extends Shape v, Count v c

theorem holds_of_slotOf_none {i : CallId} {p : Phase} (h : slotOf i p = none) (k : CallId) :
    holds i p k = 0 := by
  simp [holds, h]

theorem holds_of_slotOf {i k : CallId} {p : Phase} (h : slotOf i p = some k) (j : CallId) :
    holds i p j = if j = k then 1 else 0 := by
  simp [holds, h, eq_comm]

theorem outstandingIn_of_early {p : Phase} (h : p.early = true)
    (ready : CallId → Option DialOutcome) : outstandingIn ready p = 0 := by
  rcases p with _ | _ | _ | _ | _ | _ | _ | ⟨_ | _⟩ | _ | _ | _ | _ | _ | _ | _ <;>
    simp_all [Phase.early, outstandingIn]

theorem slotOf_of_early {p : Phase} (h : p.early = true) (i : CallId) : slotOf i p = none := by
  rcases p with _ | _ | _ | _ | _ | _ | _ | ⟨_ | _⟩ | _ | _ | _ | _ | _ | _ | _ <;>
    simp_all [Phase.early, slotOf]

namespace Accounted

variable {v : View} {c : Int}

variable {i k : CallId} {a : String} {p : Phase}

section

variable (h : Accounted v c)

include h

theorem quiet {v' : View} (hv : Shape v') (hidle : v.phase i ≠ .idle) (p : Phase)
    (hs : slotOf i p = slotOf i (v.phase i))
    (ho : outstandingIn v.ready p = outstandingIn v.ready (v.phase i))
    (hv' : v' = { v.setPhase i p with h2Waiters := v'.h2Waiters, waiters := v'.waiters }) :
    Accounted v' c := by
  have hc := h.toCount.leave (h.not_idle_lt hidle) p (fun k => by simp only [holds, hs]) ho
  refine ⟨hv, ?_⟩
  rw [hv']
  exact { hc with }

theorem wake : Accounted v.wake c := by
  have hshape := h.toShape.wake
  unfold View.wake at hshape ⊢
  split
  · exact h
  · rename_i w ws hw
    have hpend : v.phase w = .pending :=
      (h.mem_pending w).mp (by rw [hw]; exact List.mem_cons_self)
    rw [hw] at hshape
    exact h.quiet hshape (i := w) (by simp [hpend]) .handed (by simp [hpend, slotOf])
      (by simp [hpend, outstandingIn]) rfl

theorem pend (hi : v.phase i = .picked ∨ v.phase i = .missed) :
    Accounted ({ v with waiters := v.waiters ++ [i] }.setPhase i .pending) c := by
  apply h.quiet (h.toShape.pend i hi) _ .pending _ _ rfl <;> rcases hi with hi | hi <;>
    simp [hi, slotOf, outstandingIn]

theorem unpend (hi : v.phase i = .pending) :
    Accounted ({ v with waiters := v.waiters.erase i }.setPhase i .returned) c := by
  apply h.quiet (h.toShape.unpend i hi) _ .returned _ _ rfl <;> simp [hi, slotOf, outstandingIn]

theorem enqueue (hi : v.phase i = .picked) :
    Accounted ((v.setH2Waiters (v.addr i) (v.h2Waiters (v.addr i) ++ [i])).setPhase i
      .queued) c := by
  apply h.quiet (h.toShape.enqueue i hi) _ .queued _ _ rfl <;> simp [hi, slotOf, outstandingIn]

theorem dequeue (hi : v.phase i = .queued) :
    Accounted ((v.setH2Waiters (v.addr i) ((v.h2Waiters (v.addr i)).erase i)).setPhase i
      .returned) c := by
  apply h.quiet (h.toShape.dequeue i hi) _ .returned _ _ rfl <;> simp [hi, slotOf, outstandingIn]

theorem grantDial {w : CallId} {q : List CallId} (hw : v.h2Waiters a = w :: q) :
    Accounted ((v.setH2Waiters a q).setPhase w (.granted none)) c := by
  obtain ⟨hi, -⟩ := (h.mem_waiters a w).mp (by rw [hw]; exact List.mem_cons_self)
  apply h.quiet (h.toShape.grant hw none (by simp)) _ (.granted none) _ _ rfl <;>
    simp [hi, slotOf, outstandingIn]

theorem setPhase (hidle : v.phase i ≠ .idle) (hr : Refs (v.setPhase i p))
    (hq : p.queue = (v.phase i).queue) (hs : slotOf i p = slotOf i (v.phase i))
    (ho : outstandingIn v.ready p = outstandingIn v.ready (v.phase i)) :
    Accounted (v.setPhase i p) c :=
  h.quiet (h.toShape.setPhase i p hr hq) hidle p hs ho rfl

theorem unlisted (hidle : v.phase i ≠ .idle)
    (hold : (v.phase i).early = true ∧ (v.phase i).queue = none)
    (hnew : (p.early = true ∨ p = .returned) ∧ p.queue = none) : Accounted (v.setPhase i p) c := by
  have hslot : slotOf i p = none := by
    rcases hnew.1 with hp | rfl
    · exact slotOf_of_early hp i
    · rfl
  have hout : outstandingIn v.ready p = 0 := by
    rcases hnew.1 with hp | rfl
    · exact outstandingIn_of_early hp _
    · rfl
  have hinit : (v.phase i).initiates = false := by
    by_contra hne
    have := early_of_initiates (by simpa using hne)
    rw [hold.1] at this
    cases this
  apply h.setPhase hidle (h.toRefs.leave i p hidle hinit hslot (fun _ => hold.1))
  · rw [hold.2, hnew.2]
  · rw [hslot, slotOf_of_early hold.1]
  · rw [hout, outstandingIn_of_early hold.1]

theorem redial (hold : (v.phase i).initiates = true) (hnew : p.initiates = true) :
    Accounted (v.setPhase i p) c := by
  have hidle : v.phase i ≠ .idle := by
    intro hi
    rw [hi] at hold
    cases hold
  have hq : ∀ {q : Phase}, q.initiates = true →
      q.queue = some .h2Connecting ∧ outstandingIn v.ready q = 1 := by
    intro q hq
    cases q <;> simp_all [Phase.initiates, Phase.queue, outstandingIn]
  apply h.setPhase hidle
  · apply h.toRefs.setPhase i p hidle (fun _ => hnew)
    · intro hne
      rw [hold] at hne
      cases hne
    · intro k hk
      rw [slotOf_of_initiates i hnew] at hk
      obtain rfl := Option.some.inj hk
      rfl
    · rintro k rfl
      cases hnew
    · rintro k (rfl | rfl) <;> cases hnew
  · rw [(hq hold).1, (hq hnew).1]
  · rw [slotOf_of_initiates i hold, slotOf_of_initiates i hnew]
  · rw [(hq hold).2, (hq hnew).2]

theorem not_connecting (hk : v.ready k ≠ none) (a : String) : k ∉ v.h2Connecting a := by
  intro hmem
  have hinit := ((h.mem_connecting a k).mp hmem).1
  rw [(h.ready k hk).1] at hinit
  cases hinit

theorem takeSlot {v' : View} (hv : Shape v') (hk : k ∈ v.h2Pool a) (hlt : v.inFlight k < c)
    (hidle : v.phase i ≠ .idle) (hold : slotOf i (v.phase i) = none)
    (hout : outstandingIn v.ready (v.phase i) = 0) (hp : slotOf i p = some k)
    (hone : outstandingIn v.ready p = 1)
    (hv' : v' = { ((v.addInFlight k 1).addStreamsActive 1).setPhase i p with
      h2Waiters := v'.h2Waiters }) : Accounted v' c := by
  have hready := (h.pooled a k hk).2
  have hc : Count (((v.addInFlight k 1).addStreamsActive 1).setPhase i p) c := by
    apply h.toCount.move (h.not_idle_lt hidle) p (v.streamsActive + 1)
      (Function.update v.inFlight k (v.inFlight k + 1)) v.promised
    · intro b j hj
      have hj' := h.inFlight b j hj
      rw [holds_of_slotOf hp, holds_of_slotOf_none hold, Function.update_apply]
      split_ifs with hjk
      · subst hjk
        omega
      · omega
    · intro b j hj
      have hj' := h.promised b j hj
      have hjk : j ≠ k := by
        rintro rfl
        exact h.not_connecting (by simp [hready]) b hj
      rw [holds_of_slotOf hp, holds_of_slotOf_none hold, if_neg hjk]
      omega
    · rw [hone, hout]
      omega
  refine ⟨hv, ?_⟩
  rw [hv']
  exact { hc with }

theorem ride (hi : v.phase i = .picked) (hk : k ∈ v.h2Pool (v.addr i)) (hlt : v.inFlight k < c) :
    Accounted (((v.addInFlight k 1).addStreamsActive 1).setPhase i (.riding k)) c := by
  obtain ⟨haddr, hready⟩ := h.pooled _ k hk
  have hr : Refs (v.setPhase i (.riding k)) := by
    apply h.toRefs.setPhase i (.riding k) <;>
      simp [hi, Phase.initiates, Phase.early, slotOf, haddr, hready]
  have hmove := h.toShape.setPhase i (.riding k) hr (by simp [hi, Phase.queue])
  have hshape : Shape (((v.addInFlight k 1).addStreamsActive 1).setPhase i (.riding k)) :=
    { hmove with }
  apply h.takeSlot hshape hk hlt _ _ _ _ _ rfl <;> simp [hi, slotOf, outstandingIn]

theorem grantStream {w : CallId} {q : List CallId} (hw : v.h2Waiters a = w :: q)
    (hk : k ∈ v.h2Pool a) (hlt : v.inFlight k < c) :
    Accounted ((((v.addInFlight k 1).addStreamsActive 1).setH2Waiters a q).setPhase w
      (.granted (some k))) c := by
  obtain ⟨hi, -⟩ := (h.mem_waiters a w).mp (by rw [hw]; exact List.mem_cons_self)
  have hgrant := h.toShape.grant hw (some k) (by rintro j ⟨⟩; exact hk)
  have hshape : Shape ((((v.addInFlight k 1).addStreamsActive 1).setH2Waiters a q).setPhase w
      (.granted (some k))) := { hgrant with }
  apply h.takeSlot hshape hk hlt _ _ _ _ _ rfl <;> simp [hi, slotOf, outstandingIn]

theorem attach (hi : v.phase i = .picked) (hk : k ∈ v.h2Connecting (v.addr i))
    (hlt : v.promised k < c) :
    Accounted (((v.addPromised k 1).addStreamsActive 1).setPhase i (.attached k)) c := by
  obtain ⟨hinit, haddr⟩ := (h.mem_connecting _ k).mp hk
  have hunready : v.ready k = none := by
    by_contra hne
    exact h.not_connecting hne _ hk
  have hr : Refs (v.setPhase i (.attached k)) := by
    apply h.toRefs.setPhase i (.attached k)
    · simp [hi]
    · simp [hi, Phase.initiates]
    · simp [hi, Phase.early]
    · simp [slotOf, haddr]
    · rintro j ⟨⟩
      exact .inl hinit
    · simp
  have hshape : Shape (v.setPhase i (.attached k)) :=
    h.toShape.setPhase i (.attached k) hr (by simp [hi, Phase.queue])
  have hslot : slotOf i (.attached k) = some k := rfl
  have hnone : slotOf i (v.phase i) = none := by simp [hi, slotOf]
  refine ⟨{ hshape with }, ?_⟩
  apply h.toCount.move (h.not_idle_lt (by simp [hi])) (.attached k) (v.streamsActive + 1)
    v.inFlight (Function.update v.promised k (v.promised k + 1))
  · intro b j hj
    have hj' := h.inFlight b j hj
    have hjk : j ≠ k := by
      rintro rfl
      rw [(h.pooled b j hj).2] at hunready
      cases hunready
    rw [holds_of_slotOf hslot, holds_of_slotOf_none hnone, if_neg hjk]
    omega
  · intro b j hj
    have hj' := h.promised b j hj
    rw [holds_of_slotOf hslot, holds_of_slotOf_none hnone, Function.update_apply]
    split_ifs with hjk
    · subst hjk
      omega
    · omega
  · simp [outstandingIn, hunready, hi]

theorem unslot (n : Int) (f : CallId → Int)
    (hi : v.phase i = .attached k ∨ v.phase i = .riding k ∨ v.phase i = .granted (some k))
    (hready : v.ready k ≠ none) (hp : p = .returned ∨ p = .raced)
    (hf : ∀ a j, j ∈ v.h2Pool a → f j = v.inFlight j - if j = k then 1 else 0)
    (hn : n = v.streamsActive + (outstandingIn v.ready p - outstandingIn v.ready (v.phase i))) :
    Accounted ({ v with streamsActive := n, inFlight := f }.setPhase i p) c := by
  have hold : slotOf i (v.phase i) = some k := by
    rcases hi with hi | hi | hi <;> rw [hi] <;> rfl
  have hnew : slotOf i p = none := by rcases hp with rfl | rfl <;> rfl
  have hidle : v.phase i ≠ .idle := by rcases hi with hi | hi | hi <;> simp [hi]
  have hr : Refs (v.setPhase i p) := by
    apply h.toRefs.leave i p hidle _ hnew
    · rcases hp with rfl | rfl <;> simp [Phase.early]
    · rcases hi with hi | hi | hi <;> simp [hi, Phase.initiates]
  have hshape : Shape (v.setPhase i p) := by
    apply h.toShape.setPhase i p hr
    rcases hi with hi | hi | hi <;> rcases hp with rfl | rfl <;> simp [hi, Phase.queue]
  refine ⟨{ hshape with }, h.toCount.move (h.not_idle_lt hidle) p n f v.promised ?_ ?_ hn⟩
  · intro a j hj
    have hj' := h.inFlight a j hj
    have hfj := hf a j hj
    rw [holds_of_slotOf_none hnew, holds_of_slotOf hold]
    split_ifs at hfj ⊢ with hjk <;> omega
  · intro a j hj
    have hj' := h.promised a j hj
    have hjk : j ≠ k := by
      rintro rfl
      exact h.not_connecting hready a hj
    rw [holds_of_slotOf_none hnew, holds_of_slotOf hold, if_neg hjk]
    omega

theorem dropSlot (hi : v.phase i = .riding k ∨ v.phase i = .granted (some k)) :
    Accounted (((v.addInFlight k (-1)).addStreamsActive (-1)).setPhase i .returned) c := by
  have hready := h.riding i k hi
  apply h.unslot (v.streamsActive + -1) _ (.inr hi) (by simp [hready]) (.inl rfl)
  · intro a j _
    simp only [View.addInFlight, Function.update_apply]
    split_ifs with hjk
    · rw [hjk]
      rfl
    · omega
  · rcases hi with hi | hi <;> simp [hi, outstandingIn]

theorem not_pooled (hs : slotOf i (v.phase i) = some k) (hk : k ∉ v.h2Pool (v.addr i))
    {j : CallId} (hj : j ∈ v.h2Pool a) : j ≠ k := by
  rintro rfl
  apply hk
  rw [← h.slot_addr i j hs, (h.pooled a j hj).1]
  exact hj

theorem dropOrphan (hi : v.phase i = .attached k ∨ v.phase i = .granted (some k))
    (hready : v.ready k = some .established) (hk : k ∉ v.h2Pool (v.addr i)) :
    Accounted ((v.addStreamsActive (-1)).setPhase i .returned) c := by
  have hs : slotOf i (v.phase i) = some k := by rcases hi with hi | hi <;> rw [hi] <;> rfl
  apply h.unslot (v.streamsActive + -1) v.inFlight (hi.imp_right .inr) (by simp [hready])
    (.inl rfl)
  · intro a j hj
    rw [if_neg (h.not_pooled hs hk hj)]
    omega
  · rcases hi with hi | hi <;> simp [hi, outstandingIn, hready]

theorem race (hi : v.phase i = .granted (some k)) (hk : k ∉ v.h2Pool (v.addr i)) :
    Accounted (v.setPhase i .raced) c := by
  have hs : slotOf i (v.phase i) = some k := by rw [hi]; rfl
  apply h.unslot v.streamsActive v.inFlight (.inr (.inr hi))
    (by simp [h.riding i k (.inr hi)]) (.inr rfl)
  · intro a j hj
    rw [if_neg (h.not_pooled hs hk hj)]
    omega
  · simp [hi, outstandingIn]

theorem attachFailed (hi : v.phase i = .attached k) (hready : v.ready k = some .failed) :
    Accounted (v.setPhase i .returned) c := by
  apply h.unslot v.streamsActive v.inFlight (.inl hi) (by simp [hready]) (.inl rfl)
  · intro a j hj
    have hjk : j ≠ k := by
      rintro rfl
      rw [(h.pooled a j hj).2] at hready
      cases hready
    rw [if_neg hjk]
    omega
  · simp [hi, outstandingIn, hready]

theorem undoRaced (hi : v.phase i = .raced) :
    Accounted ((v.addStreamsActive (-1)).setPhase i .returned) c := by
  have hr : Refs (v.setPhase i .returned) := by
    apply h.toRefs.leave i .returned <;> simp [hi, Phase.initiates, Phase.early, slotOf]
  have hshape := h.toShape.setPhase i .returned hr (by simp [hi, Phase.queue])
  have hs : ∀ k, holds i .returned k = holds i (v.phase i) k := by simp [hi, holds, slotOf]
  refine ⟨{ hshape with }, h.toCount.move (h.not_idle_lt (by simp [hi])) .returned
    (v.streamsActive + -1) v.inFlight v.promised ?_ ?_ ?_⟩
  · intro a j hj
    have hj' := h.inFlight a j hj
    rw [hs]
    omega
  · intro a j hj
    have hj' := h.promised a j hj
    rw [hs]
    omega
  · simp [hi, outstandingIn]

theorem takeUp (hi : v.phase i = .attached k ∨ v.phase i = .granted (some k))
    (hready : v.ready k = some .established) : Accounted (v.setPhase i (.riding k)) c := by
  have hs : slotOf i (v.phase i) = some k := by rcases hi with hi | hi <;> rw [hi] <;> rfl
  have hidle : v.phase i ≠ .idle := by rcases hi with hi | hi <;> simp [hi]
  apply h.setPhase hidle
  · apply h.toRefs.setPhase i (.riding k) hidle
    · rcases hi with hi | hi <;> simp [hi, Phase.initiates]
    · simp [Phase.initiates, Phase.early]
    · rintro j ⟨⟩
      exact h.slot_addr i k hs
    · simp
    · simp [hready]
  · rcases hi with hi | hi <;> simp [hi, Phase.queue]
  · rw [hs]
    rfl
  · rcases hi with hi | hi <;> simp [hi, outstandingIn, hready]

theorem cancelAttach (hi : v.phase i = .attached k) (hready : v.ready k = none) :
    Accounted (((v.addPromised k (-1)).addStreamsActive (-1)).setPhase i .returned) c := by
  have hr : Refs (v.setPhase i .returned) := by
    apply h.toRefs.leave i .returned <;> simp [hi, Phase.initiates, Phase.early, slotOf]
  have hshape := h.toShape.setPhase i .returned hr (by simp [hi, Phase.queue])
  have hold : slotOf i (v.phase i) = some k := by rw [hi]; rfl
  have hnew : slotOf i .returned = none := rfl
  refine ⟨{ hshape with }, h.toCount.move (h.not_idle_lt (by simp [hi])) .returned
    (v.streamsActive + -1) v.inFlight (Function.update v.promised k (v.promised k + -1)) ?_ ?_ ?_⟩
  · intro a j hj
    have hj' := h.inFlight a j hj
    have hjk : j ≠ k := by
      rintro rfl
      rw [(h.pooled a j hj).2] at hready
      cases hready
    rw [holds_of_slotOf_none hnew, holds_of_slotOf hold, if_neg hjk]
    omega
  · intro a j hj
    have hj' := h.promised a j hj
    rw [holds_of_slotOf_none hnew, holds_of_slotOf hold, Function.update_apply]
    split_ifs with hjk
    · subst hjk
      omega
    · omega
  · simp [hi, outstandingIn, hready]

theorem register (hc : 0 < c) (hi : v.phase i = .picked ∨ v.phase i = .granted none) :
    Accounted ((((v.setH2Connecting (v.addr i) (v.h2Connecting (v.addr i) ++ [i])).setConnecting i
      { promised := 1 }).addStreamsActive 1).setPhase i .connecting) c := by
  have hearly : (v.phase i).early = true := by rcases hi with hi | hi <;> simp [hi, Phase.early]
  have hlt : i < v.next := h.not_idle_lt (by rcases hi with hi | hi <;> simp [hi])
  have hold : slotOf i (v.phase i) = none := slotOf_of_early hearly i
  have hnew : slotOf i .connecting = some i := rfl
  -- nobody refers to a call that has made nothing yet
  have hnobody : v.slots i = 0 := by
    have hz : ∀ j < v.next, holds j (v.phase j) i = 0 := by
      intro j _
      rw [holds, if_neg]
      intro hj
      rw [h.slot_not_early hj] at hearly
      cases hearly
    rw [View.slots, tally_congr hz]
    exact Finset.sum_const_zero
  have hslots : ∀ k, (v.setPhase i .connecting).slots k = v.slots k + if k = i then 1 else 0 := by
    intro k
    rw [slots_setPhase hlt, holds_of_slotOf_none hold, holds_of_slotOf hnew, sub_zero]
  have hunready : v.ready i = none := by
    by_contra hne
    have := (h.ready i hne).2
    rw [hearly] at this
    cases this
  have hsame : Function.update v.ready i none = v.ready := by
    rw [← hunready, Function.update_eq_self]
  have hshape := h.toShape.register i hi
  refine ⟨{ hshape with }, ?_, ?_, ?_⟩
  · intro a k hk
    have hki : k ≠ i := by
      rintro rfl
      rw [(h.pooled a k hk).2] at hunready
      cases hunready
    have hk' := h.inFlight a k hk
    have hs := hslots k
    rw [if_neg hki, add_zero] at hs
    exact ⟨hk'.1.trans hs.symm, hk'.2⟩
  · intro a k hk
    have hs := hslots k
    rcases eq_or_ne k i with rfl | hki
    · rw [if_pos rfl, hnobody] at hs
      refine ⟨?_, ?_⟩
      · exact (Function.update_self k (1 : Int) v.promised).trans hs.symm
      · exact (Function.update_self k (1 : Int) v.promised).le.trans hc
    · rw [if_neg hki, add_zero] at hs
      have hmem : k ∈ v.h2Connecting a := by
        have := (hshape.mem_connecting a k).mp hk
        rw [h.mem_connecting]
        simpa [View.setPhase, View.setConnecting, View.setH2Connecting,
          Function.update_of_ne hki] using this
      have hk' := h.promised a k hmem
      have hp : Function.update v.promised i 1 k = v.promised k := Function.update_of_ne hki _ _
      exact ⟨(hp.trans hk'.1).trans hs.symm, hp.le.trans hk'.2⟩
  · have hout := outstanding_setPhase hlt .connecting
    rw [outstandingIn_of_early hearly] at hout
    have he : (((v.setH2Connecting (v.addr i) (v.h2Connecting (v.addr i) ++ [i])).setConnecting i
        { promised := 1 }).addStreamsActive 1).setPhase i .connecting =
        { (((v.setH2Connecting (v.addr i) (v.h2Connecting (v.addr i) ++ [i])).setConnecting i
          { promised := 1 }).addStreamsActive 1).setPhase i .connecting with
          ready := Function.update v.ready i none } := rfl
    rw [he, hsame]
    change v.streamsActive + 1 = (v.setPhase i .connecting).outstanding
    rw [hout, h.streamsActive]
    rfl

theorem initiator (hi : (v.phase i).initiates = true) :
    v.ready i = none ∧ v.promised i = v.slots i ∧ v.promised i ≤ c ∧ i < v.next := by
  have hmem : i ∈ v.h2Connecting (v.addr i) := (h.mem_connecting _ i).mpr ⟨hi, rfl⟩
  refine ⟨?_, (h.promised _ i hmem).1, (h.promised _ i hmem).2, ?_⟩
  · by_contra hne
    exact h.not_connecting hne _ hmem
  · apply h.not_idle_lt
    intro hidle
    rw [hidle] at hi
    cases hi

theorem mem_erase_connecting {b : String}
    (hk : k ∈ Function.update v.h2Connecting b ((v.h2Connecting b).erase i) a) (hb : v.addr i = b) :
    k ≠ i ∧ k ∈ v.h2Connecting a := by
  rw [Function.update_apply] at hk
  split_ifs at hk with hab
  · rw [(h.connecting.nodup b).mem_erase_iff] at hk
    exact ⟨hk.1, hab ▸ hk.2⟩
  · refine ⟨?_, hk⟩
    rintro rfl
    exact hab (((h.mem_connecting a k).mp hk).2.symm.trans hb)

end

theorem outstandingIn_failed {ready : CallId → Option DialOutcome} {j : CallId}
    (hi : ready i = none) (hj : j ≠ i) (hp : ¬ (p = .riding i ∨ p = .granted (some i))) :
    outstandingIn (Function.update ready i (some .failed)) p =
      outstandingIn ready p - holds j p i := by
  cases p with
  | attached k =>
    rcases eq_or_ne k i with rfl | hk
    · simp [outstandingIn, holds, slotOf, hi]
    · simp [outstandingIn, holds, slotOf, hk]
  | granted cc =>
    cases cc with
    | none => simp [outstandingIn, holds, slotOf]
    | some k =>
      have hk : k ≠ i := by
        rintro rfl
        exact hp (.inr rfl)
      simp [outstandingIn, holds, slotOf, hk]
  | riding k =>
    have hk : k ≠ i := by
      rintro rfl
      exact hp (.inl rfl)
    simp [outstandingIn, holds, slotOf, hk]
  | _ => simp [outstandingIn, holds, slotOf, hj]

theorem fail (h : Accounted v c) (hi : v.phase i = .dialFailed) :
    Accounted ((((v.setH2Connecting (v.addr i) ((v.h2Connecting (v.addr i)).erase i)).setConnecting
      i { ready := some .failed, promised := v.promised i }).addStreamsActive
      (-(v.promised i))).setPhase i .returned) c := by
  obtain ⟨hunready, hpromised, -, hlt⟩ := h.initiator (i := i) (by rw [hi]; rfl)
  have hshape := h.toShape.settle i .returned .failed (v.promised i) (.inl hi) (.inl rfl)
  have hslots : ∀ k, k ≠ i → (v.setPhase i .returned).slots k = v.slots k := by
    intro k hk
    rw [slots_setPhase hlt, hi]
    simp [holds, slotOf, Ne.symm hk]
  refine ⟨{ hshape with }, ?_, ?_, ?_⟩
  · intro a k hk
    have hki : k ≠ i := by
      rintro rfl
      rw [(h.pooled a k hk).2] at hunready
      cases hunready
    have hk' := h.inFlight a k hk
    exact ⟨hk'.1.trans (hslots k hki).symm, hk'.2⟩
  · intro a k hk
    obtain ⟨hki, hmem⟩ := h.mem_erase_connecting hk rfl
    have hk' := h.promised a k hmem
    have hp : Function.update v.promised i (v.promised i) k = v.promised k :=
      Function.update_of_ne hki _ _
    exact ⟨(hp.trans hk'.1).trans (hslots k hki).symm, hp.le.trans hk'.2⟩
  · -- call by call: a slot on the entry is lost, every other stays
    have hpoint : ∀ j < v.next,
        outstandingIn (Function.update v.ready i (some .failed))
            (Function.update v.phase i .returned j) =
          outstandingIn v.ready (v.phase j) - holds j (v.phase j) i := by
      intro j _
      rcases eq_or_ne j i with rfl | hji
      · rw [Function.update_self, hi]
        simp [outstandingIn, holds, slotOf]
      · rw [Function.update_of_ne hji]
        apply outstandingIn_failed hunready hji
        intro hride
        rw [h.riding j i hride] at hunready
        cases hunready
    have hout := tally_congr hpoint
    rw [tally_sub] at hout
    calc v.streamsActive + -(v.promised i)
        = v.outstanding - v.slots i := by rw [hpromised, h.streamsActive, sub_eq_add_neg]
      _ = _ := hout.symm

theorem pool (h : Accounted v c) (hi : v.phase i = .shaking) :
    Accounted (((((v.setH2Connecting (v.addr i) ((v.h2Connecting (v.addr i)).erase i)).setPooled i
      { inFlight := v.promised i }).setH2Pool (v.addr i) (v.h2Pool (v.addr i) ++ [i])).setConnecting
      i { ready := some .established, promised := v.promised i }).setPhase i (.riding i)) c := by
  obtain ⟨hunready, hpromised, hle, hlt⟩ := h.initiator (i := i) (by rw [hi]; rfl)
  have hnew : ∀ a, i ∉ v.h2Pool a := by
    intro a hmem
    rw [(h.pooled a i hmem).2] at hunready
    cases hunready
  have hsettle := h.toShape.settle i (.riding i) .established (v.promised i) (.inr hi)
    (.inr ⟨rfl, rfl⟩)
  have hshape := hsettle.addPooled i (Function.update_self _ _ _) (hnew _)
  have hslots : ∀ k, (v.setPhase i (.riding i)).slots k = v.slots k := by
    intro k
    rw [slots_setPhase hlt, hi]
    simp [holds, slotOf]
  refine ⟨{ hshape with }, ?_, ?_, ?_⟩
  · intro a k hk
    rcases eq_or_ne k i with rfl | hki
    · have hf : Function.update v.inFlight k (v.promised k) k = v.promised k :=
        Function.update_self _ _ _
      exact ⟨(hf.trans hpromised).trans (hslots k).symm, hf.le.trans hle⟩
    · have hmem : k ∈ v.h2Pool a := by
        simp only [View.setPhase, View.setConnecting, View.setH2Pool, View.setPooled,
          View.setH2Connecting, Function.update_apply] at hk
        split_ifs at hk with ha
        · rcases List.mem_append.mp hk with hk | hk
          · rwa [ha]
          · exact absurd (List.mem_singleton.mp hk) hki
        · exact hk
      have hk' := h.inFlight a k hmem
      have hf : Function.update v.inFlight i (v.promised i) k = v.inFlight k :=
        Function.update_of_ne hki _ _
      exact ⟨(hf.trans hk'.1).trans (hslots k).symm, hf.le.trans hk'.2⟩
  · intro a k hk
    obtain ⟨hki, hmem⟩ := h.mem_erase_connecting hk rfl
    have hk' := h.promised a k hmem
    have hp : Function.update v.promised i (v.promised i) k = v.promised k :=
      Function.update_of_ne hki _ _
    exact ⟨(hp.trans hk'.1).trans (hslots k).symm, hp.le.trans hk'.2⟩
  · have hpoint : ∀ j < v.next,
        outstandingIn (Function.update v.ready i (some .established))
          (Function.update v.phase i (.riding i) j) = outstandingIn v.ready (v.phase j) := by
      intro j _
      rcases eq_or_ne j i with rfl | hji
      · rw [Function.update_self, hi]
        rfl
      · rw [Function.update_of_ne hji]
        cases v.phase j with
        | attached k =>
          rcases eq_or_ne k i with rfl | hk
          · simp [outstandingIn, hunready]
          · simp [outstandingIn, hk]
        | granted cc => cases cc <;> rfl
        | _ => rfl
    exact h.streamsActive.trans (tally_congr hpoint).symm

theorem pick (h : Accounted v c) (a : String) :
    Accounted { v with next := v.next + 1
                       phase := Function.update v.phase v.next .picked
                       addr := Function.update v.addr v.next a } c := by
  have hidle : v.phase v.next = .idle := h.fresh v.next le_rfl
  have hphase : ∀ j < v.next, Function.update v.phase v.next .picked j = v.phase j :=
    fun j hj => Function.update_of_ne (ne_of_lt hj) _ _
  have hslots : ∀ k, tally (v.next + 1)
      (fun j => holds j (Function.update v.phase v.next .picked j) k) = v.slots k := by
    intro k
    rw [tally_succ, Function.update_self, tally_congr (fun j hj => by rw [hphase j hj])]
    simp [View.slots, holds, slotOf]
  have hout : tally (v.next + 1)
      (fun j => outstandingIn v.ready (Function.update v.phase v.next .picked j)) =
        v.outstanding := by
    rw [tally_succ, Function.update_self, tally_congr (fun j hj => by rw [hphase j hj])]
    simp [View.outstanding, outstandingIn]
  refine ⟨h.toShape.pick a, ?_, ?_, ?_⟩
  · intro b k hk
    exact ⟨(h.inFlight b k hk).1.trans (hslots k).symm, (h.inFlight b k hk).2⟩
  · intro b k hk
    exact ⟨(h.promised b k hk).1.trans (hslots k).symm, (h.promised b k hk).2⟩
  · exact h.streamsActive.trans hout.symm

theorem evict (h : Accounted v c) (a : String) (k : CallId) :
    Accounted (v.setH2Pool a ((v.h2Pool a).erase k)) c :=
  ⟨h.toShape.evict a k, h.toCount.evict a k⟩

end Accounted

structure SlotInv (s : Cluster) : Prop where
  accounted : Accounted s.view s.view.cap
  cap_pos : 0 < s.view.cap

theorem cap_wake (v : View) : v.wake.cap = v.cap := by
  unfold View.wake
  split <;> rfl

theorem mem_of_findStreamHitLocked {s : Cluster} {a : String} {k : CallId}
    (h : s.findStreamHitLocked a = some k) :
    k ∈ s.h2Pool a ∧ s.live k = true ∧ (s.pcs k).inFlight < s.h2MaxConcurrentStreams := by
  have hp := List.find?_some h
  simp only [Bool.and_eq_true, decide_eq_true_eq] at hp
  exact ⟨List.mem_of_find?_eq_some h, hp⟩

namespace SlotInv

variable {s : Cluster}

theorem of_view {t : Cluster} (h : SlotInv s) (ht : t.view = s.view) : SlotInv t := by
  refine ⟨?_, ?_⟩ <;> rw [ht]
  · exact h.accounted
  · exact h.cap_pos

theorem of_wake {t : Cluster} (h : SlotInv s) (ht : t.view = s.view.wake) : SlotInv t := by
  refine ⟨?_, ?_⟩ <;> rw [ht, cap_wake]
  · exact h.accounted.wake
  · exact h.cap_pos

theorem closeConn (h : SlotInv s) (k : CallId) : SlotInv (s.closeConn k) := by
  have hv := view_closeConn s k
  split_ifs at hv
  · exact h.of_view hv
  · exact h.of_wake hv

theorem promote (h : SlotInv s) (a : String) : SlotInv (s.h2PromoteLocked a) := by
  obtain ⟨-, he⟩ | ⟨w, q, k, hw, hk, he⟩ | ⟨w, q, s', hw, -, hs', he⟩ | ⟨w, q, -, -, -, he⟩ :=
    h2PromoteLocked_cases s a
  · rw [he]
    exact h
  · obtain ⟨hmem, -, hlt⟩ := mem_of_findStreamHitLocked hk
    rw [he]
    refine ⟨?_, h.cap_pos⟩
    simp only [view_setPhase, view_setH2Waiters, view_addStreamsActive, view_addInFlight]
    exact h.accounted.grantStream hw hmem hlt
  · rw [he]
    have hv := view_tryAcquireConnSlot hs'
    refine ⟨?_, ?_⟩ <;> simp only [view_setPhase, view_setH2Waiters, hv]
    · exact h.accounted.grantDial hw
    · exact h.cap_pos
  · rw [he]
    exact h

theorem evict (h : SlotInv s) (a : String) (k : CallId) : SlotInv (s.evictH2ConnLocked a k) := by
  have hout : SlotInv (s.setH2Pool a ((s.h2Pool a).erase k)) :=
    ⟨h.accounted.evict a k, h.cap_pos⟩
  have hv := view_closeClientConn (s.setH2Pool a ((s.h2Pool a).erase k)) k
  split_ifs at hv
  · exact hout.of_view hv
  · exact hout.of_wake hv

variable {i : CallId}

variable (h : SlotInv s)

include h

theorem register (hi : s.view.phase i = .picked ∨ s.view.phase i = .granted none) :
    SlotInv (s.register i) := by
  refine ⟨?_, ?_⟩ <;>
    simp only [Cluster.register, view_setPhase, view_addStreamsActive, view_setConnecting,
      view_setH2Connecting]
  · exact h.accounted.register h.cap_pos hi
  · exact h.cap_pos

theorem giveUp (hidle : s.view.phase i ≠ .idle)
    (hold : (s.view.phase i).early = true ∧ (s.view.phase i).queue = none) :
    SlotInv (s.giveUp i) := by
  refine ⟨?_, ?_⟩ <;> rw [view_giveUp]
  · exact h.accounted.unlisted hidle hold ⟨.inr rfl, rfl⟩
  · exact h.cap_pos

theorem acquireH2Stream (hi : s.view.phase i = .picked) : SlotInv (acquireH2Stream s i) := by
  obtain ⟨k, hk, he⟩ | ⟨k, -, hk, he⟩ | ⟨s', -, hs', he⟩ | ⟨-, he⟩ | ⟨p, -, -, -, he⟩ :=
    acquireH2Stream_cases s i <;> rw [he]
  · obtain ⟨hmem, -, hlt⟩ := mem_of_findStreamHitLocked hk
    refine ⟨?_, ?_⟩ <;>
      simp only [view_lbRelease, view_setPhase, view_addStreamsActive, view_addInFlight]
    · exact h.accounted.ride hi hmem hlt
    · exact h.cap_pos
  · have hlt : (s.cns k).promised < s.h2MaxConcurrentStreams := by simpa using List.find?_some hk
    refine ⟨?_, ?_⟩ <;>
      simp only [view_lbRelease, view_setPhase, view_addStreamsActive, view_addPromised]
    · exact h.accounted.attach hi (List.mem_of_find?_eq_some hk) hlt
    · exact h.cap_pos
  · have hv := view_tryAcquireConnSlot hs'
    exact (h.of_view hv).register (by rw [hv]; exact .inl hi)
  · exact h.giveUp (by simp [hi]) (by simp [hi, Phase.early, Phase.queue])
  · refine ⟨?_, ?_⟩ <;> rw [view_setPhase, view_setH2Waiters]
    · exact h.accounted.enqueue hi
    · exact h.cap_pos

theorem receiveGrant {cc : Option CallId} (hi : s.view.phase i = .granted cc) :
    SlotInv (receiveGrant s i cc) := by
  cases cc with
  | none => exact h.register (.inr hi)
  | some k =>
    have hready := h.accounted.riding i k (.inr hi)
    simp only [H2Pool.receiveGrant]
    split_ifs with hk
    · refine ⟨?_, ?_⟩ <;> rw [view_lbRelease, view_setPhase]
      · exact h.accounted.takeUp (.inr hi) hready
      · exact h.cap_pos
    · refine ⟨?_, ?_⟩ <;> rw [view_setPhase]
      · exact h.accounted.race hi hk
      · exact h.cap_pos

theorem undoRaced (hi : s.view.phase i = .raced) : SlotInv (undoRaced s i) := by
  apply promote
  refine ⟨?_, ?_⟩ <;> rw [view_giveUp, view_addStreamsActive]
  · exact h.accounted.undoRaced hi
  · exact h.cap_pos

theorem giveBackGrant {cc : Option CallId} (hi : s.view.phase i = .granted cc) :
    SlotInv (giveBackGrant s i cc) := by
  cases cc with
  | none =>
    apply promote
    have hup := h.giveUp (i := i) (by simp [hi]) (by simp [hi, Phase.early, Phase.queue])
    exact hup.of_wake (view_releaseConnSlot _ i)
  | some k =>
    have hready := h.accounted.riding i k (.inr hi)
    apply promote
    split_ifs with hk
    · refine ⟨?_, ?_⟩ <;> rw [view_giveUp, view_addStreamsActive, view_addInFlight]
      · exact h.accounted.dropSlot (.inr hi)
      · exact h.cap_pos
    · refine ⟨?_, ?_⟩ <;> rw [view_giveUp, view_addStreamsActive]
      · exact h.accounted.dropOrphan (.inr hi) hready hk
      · exact h.cap_pos

theorem removeH2WaiterLocked (hi : s.view.phase i = .queued) :
    SlotInv (removeH2WaiterLocked s i) := by
  refine ⟨?_, ?_⟩ <;> simp only [H2Pool.removeH2WaiterLocked, view_giveUp, view_setH2Waiters]
  · exact h.accounted.dequeue hi
  · exact h.cap_pos

theorem attachAfterReady {k : CallId} {out : DialOutcome} (hi : s.view.phase i = .attached k)
    (hready : s.view.ready k = some out) : SlotInv (attachAfterReady s i k out) := by
  cases out with
  | failed =>
    refine ⟨?_, ?_⟩ <;> simp only [H2Pool.attachAfterReady, view_setPhase]
    · exact h.accounted.attachFailed hi hready
    · exact h.cap_pos
  | established =>
    simp only [H2Pool.attachAfterReady]
    split_ifs with hk
    · refine ⟨?_, ?_⟩ <;> rw [view_setPhase]
      · exact h.accounted.takeUp (.inl hi) hready
      · exact h.cap_pos
    · refine ⟨?_, ?_⟩ <;> rw [view_setPhase, view_addStreamsActive]
      · exact h.accounted.dropOrphan (.inl hi) hready hk
      · exact h.cap_pos

theorem awaitAttachCancelled {k : CallId} (hi : s.view.phase i = .attached k)
    (hready : s.view.ready k = none) : SlotInv (awaitAttachCancelled s i k) := by
  refine ⟨?_, ?_⟩ <;>
    simp only [H2Pool.awaitAttachCancelled, view_setPhase, view_addStreamsActive, view_addPromised]
  · exact h.accounted.cancelAttach hi hready
  · exact h.cap_pos

theorem failConnecting (hi : s.view.phase i = .dialFailed) : SlotInv (failConnecting s i) := by
  apply promote
  refine ⟨?_, ?_⟩ <;> simp only [removeConnectingLocked, view_setPhase, view_addStreamsActive,
    view_setConnecting, view_setH2Connecting]
  · exact h.accounted.fail hi
  · exact h.cap_pos

theorem poolConnecting (hi : s.view.phase i = .shaking) : SlotInv (poolConnecting s i) := by
  apply promote
  refine ⟨?_, ?_⟩ <;> simp only [removeConnectingLocked, view_setPhase, view_setConnecting,
    view_setConn, view_setH2Pool, view_setPooled, view_setH2Connecting]
  · exact h.accounted.pool hi
  · exact h.cap_pos

theorem releaseStream {k : CallId} (hi : s.view.phase i = .riding k) :
    SlotInv (releaseStream s i k) := by
  have hdrop : SlotInv (((s.addInFlight k (-1)).addStreamsActive (-1)).setPhase i .returned) := by
    refine ⟨?_, ?_⟩ <;> simp only [view_setPhase, view_addStreamsActive, view_addInFlight]
    · exact h.accounted.dropSlot (.inl hi)
    · exact h.cap_pos
  have hprom := hdrop.promote (s.calls i).addr
  simp only [H2Pool.releaseStream]
  split_ifs
  · exact (hprom.evict _ k).promote _
  · exact hprom

theorem setConn (k : CallId) (c : Conn) : SlotInv (s.setConn k c) :=
  h.of_view (view_setConn s k c)

theorem watchGoneAway (k : CallId) : SlotInv (watchGoneAway s k) := by
  have hexit := h.setConn k { s.conns k with watcher := .exited }
  simp only [H2Pool.watchGoneAway]
  split_ifs
  · exact (hexit.evict _ k).promote _
  · exact hexit

theorem acquireConnSlot (hi : s.view.phase i = .picked ∨ s.view.phase i = .missed) :
    SlotInv (acquireConnSlot s i) := by
  have hearly : (s.view.phase i).early = true ∧ (s.view.phase i).queue = none := by
    rcases hi with hi | hi <;> rw [hi] <;> exact ⟨rfl, rfl⟩
  have hidle : s.view.phase i ≠ .idle := by rcases hi with hi | hi <;> simp [hi]
  obtain ⟨s', hs', he⟩ | he | ⟨p, hp, he⟩ := acquireConnSlot_cases s i <;> rw [he]
  · have hv := view_tryAcquireConnSlot hs'
    refine ⟨?_, ?_⟩ <;> rw [view_setPhase, hv]
    · exact h.accounted.unlisted hidle hearly ⟨.inl rfl, rfl⟩
    · exact h.cap_pos
  · exact h.giveUp hidle hearly
  · have hw : s.view.waiters = p.waiters := by simp only [view, budgetWaiters, hp]
    refine ⟨?_, ?_⟩ <;> rw [view_setPhase, view_setPool]
    · rw [← hw]
      exact h.accounted.pend hi
    · exact h.cap_pos

theorem removeWaiterLocked (hi : s.view.phase i = .pending) : SlotInv (removeWaiterLocked s i) := by
  unfold H2Pool.removeWaiterLocked
  split
  · exact h
  · rename_i p hp
    have hw : s.view.waiters = p.waiters := by simp only [view, budgetWaiters, hp]
    refine ⟨?_, ?_⟩ <;> rw [view_giveUp, view_setPool]
    · rw [← hw]
      exact h.accounted.unpend hi
    · exact h.cap_pos

theorem popIdleH1 (hi : s.view.phase i = .picked) : SlotInv (popIdleH1 s i) := by
  simp only [H2Pool.popIdleH1]
  split
  · exact (h.of_view (view_setH1Pool s _ _)).giveUp (by simp [hi])
      (by simp [hi, Phase.early, Phase.queue])
  · refine ⟨?_, ?_⟩ <;> rw [view_setPhase]
    · exact h.accounted.unlisted (by simp [hi]) (by simp [hi, Phase.early, Phase.queue])
        ⟨.inl rfl, rfl⟩
    · exact h.cap_pos

theorem putIdleH1 (k : CallId) (hasWaiter : Bool) : SlotInv (putIdleH1 s k hasWaiter) := by
  simp only [H2Pool.putIdleH1]
  split_ifs
  · exact h.closeConn k
  · exact h.closeConn k
  · exact h.of_view (view_setH1Pool s _ _)

theorem redial {p : Phase} (hold : (s.view.phase i).initiates = true) (hnew : p.initiates = true) :
    SlotInv (s.setPhase i p) := by
  refine ⟨?_, ?_⟩ <;> rw [view_setPhase]
  · exact h.accounted.redial hold hnew
  · exact h.cap_pos

theorem dialSucceeds (hi : (s.calls i).phase = .dialing) (c : Conn) :
    SlotInv ((s.setConn i c).setPhase i .returned) := by
  have hi' : s.view.phase i = .dialing := hi
  refine ⟨?_, ?_⟩ <;> rw [view_setPhase, view_setConn]
  · exact h.accounted.unlisted (by simp [hi']) (by simp [hi', Phase.early, Phase.queue])
      ⟨.inr rfl, rfl⟩
  · exact h.cap_pos

theorem entrySucceeds (hi : (s.calls i).phase = .connecting) (c : Conn) :
    SlotInv ((s.setConn i c).setPhase i .shaking) := by
  have hi' : s.view.phase i = .connecting := hi
  exact (h.setConn i _).redial (by rw [view_setConn, hi']; rfl) rfl

theorem giveUp_of_permit (hi : (s.calls i).phase = .handed ∨ (s.calls i).phase = .dialing) :
    SlotInv (s.giveUp i) := by
  have hearly : s.view.phase i ≠ .idle ∧
      (s.view.phase i).early = true ∧ (s.view.phase i).queue = none := by
    change (s.calls i).phase ≠ .idle ∧ (s.calls i).phase.early = true ∧
      (s.calls i).phase.queue = none
    rcases hi with hi | hi <;> rw [hi] <;> simp [Phase.early, Phase.queue]
  exact h.giveUp hearly.1 hearly.2

theorem step (e : Event) : SlotInv (step s e) := by
  refine step_induct h fun t hf => ?_
  cases hf with
  | pick api a =>
    have hv : (H2Pool.step s (.pick api a)).view =
        { s.view with next := s.next + 1
                      phase := Function.update s.view.phase s.next .picked
                      addr := Function.update s.view.addr s.next a } := by
      simp only [H2Pool.step, view, setCall, budgetWaiters, field_update Call.phase,
        field_update Call.addr]
    refine ⟨?_, ?_⟩ <;> rw [hv]
    · exact h.accounted.pick a
    · exact h.cap_pos
  | popIdleH1 _ hi => exact h.popIdleH1 hi
  | acquireConnSlot hi => exact h.acquireConnSlot (hi.imp_left And.right)
  | @receivePermit i hi =>
    refine ⟨?_, ?_⟩ <;> rw [view_setPhase]
    · have hi' : s.view.phase i = .handed := hi
      exact h.accounted.unlisted (by simp [hi']) (by simp [hi', Phase.early, Phase.queue])
        ⟨.inl rfl, rfl⟩
    · exact h.cap_pos
  | cancelPending hi => exact h.removeWaiterLocked hi
  | cancelHanded hi => exact (h.giveUp_of_permit (.inl hi)).of_wake (view_releaseConnSlot _ _)
  | dialFails hi => exact (h.giveUp_of_permit (.inr hi)).of_wake (view_releaseConnSlot _ _)
  | @entryFails i hi =>
    have hi' : s.view.phase i = .connecting := hi
    have hfail := h.redial (p := .dialFailed) (by rw [hi']; rfl) rfl
    apply hfail.of_wake
    rw [view_releaseConnSlot, view_lbRelease]
  | dialSucceeds hi => exact h.dialSucceeds hi _
  | entrySucceeds hi => exact h.entrySucceeds hi _
  | @handshakeFails i hi =>
    have hi' : s.view.phase i = .shaking := hi
    exact (h.redial (by rw [hi']; rfl) rfl).closeConn i
  | acquireH2Stream _ hi => exact h.acquireH2Stream hi
  | receiveGrant hi => exact h.receiveGrant hi
  | undoRaced hi => exact h.undoRaced hi
  | cancelQueued hi => exact h.removeH2WaiterLocked hi
  | cancelGranted hi => exact h.giveBackGrant hi
  | attachReady hi hout => exact h.attachAfterReady hi hout
  | attachCancelled hi hready => exact h.awaitAttachCancelled hi hready
  | failConnecting hi => exact h.failConnecting hi
  | poolConnecting hi => exact h.poolConnecting hi
  | release hi => exact h.releaseStream hi
  | evictOnError hk => exact (h.evict _ _).promote _
  | goAway _ => exact h.setConn _ _
  | teardown _ => exact h.setConn _ _
  | watchGoneAway _ => exact h.watchGoneAway _
  | watchDone _ => exact h.setConn _ _
  | close _ => exact h.closeConn _
  | putIdleH1 _ => exact h.putIdleH1 _ _

end SlotInv

theorem extractH2MaxConcurrentStreams_pos (v : Option Nat) :
    0 < extractH2MaxConcurrentStreams v := by
  unfold extractH2MaxConcurrentStreams h2DefaultMaxConcurrentStreams
  split
  · split_ifs <;> omega
  · decide

theorem SlotInv.initial (cfg : ClusterConfig) : SlotInv (newCluster cfg) where
  accounted :=
    { pooled := by intro a k hk; cases hk
      ready := by intro k hk; exact absurd rfl hk
      slot_addr := by intro i k hk; cases hk
      attached := by intro i k hk; cases hk
      riding := by rintro i k (hk | hk) <;> cases hk
      fresh := by intro i _; rfl
      waiters := ⟨by intro a i; simp [newCluster, view, View.queuedAt, Phase.filed, Phase.queue],
        fun _ => List.nodup_nil⟩
      connecting := ⟨by
        intro a i; simp [newCluster, view, View.initiatesAt, Phase.filed, Phase.queue],
        fun _ => List.nodup_nil⟩
      pending := by
        cases hcb : cfg.circuitBreakers <;> constructor <;>
          simp [newCluster, newConnPool, view, budgetWaiters, View.pendingAt, Phase.filed,
            Phase.queue, hcb]
      pooled_nodup := fun _ => List.nodup_nil
      inFlight := by intro a k hk; cases hk
      promised := by intro a k hk; cases hk
      streamsActive := rfl }
  cap_pos := extractH2MaxConcurrentStreams_pos _

theorem SlotInv.run (cfg : ClusterConfig) (es : List Event) : SlotInv (run cfg es) := by
  have hstep : ∀ (s : Cluster) (e : Event), SlotInv s → SlotInv (H2Pool.step s e) :=
    fun s e h => h.step e
  exact Runs.invariant_of_run hstep es (newCluster cfg) (SlotInv.initial cfg)

/-- Every pooled connection and every connecting entry stays within the cap, and the gauge
counts the outstanding slots, in every interleaving. -/
theorem run_slots_accounted (cfg : ClusterConfig) (es : List Event) :
    (∀ a, ∀ k ∈ (run cfg es).h2Pool a, 0 ≤ ((run cfg es).pcs k).inFlight ∧
      ((run cfg es).pcs k).inFlight ≤ (run cfg es).h2MaxConcurrentStreams) ∧
    (∀ a, ∀ k ∈ (run cfg es).h2Connecting a, 0 ≤ ((run cfg es).cns k).promised ∧
      ((run cfg es).cns k).promised ≤ (run cfg es).h2MaxConcurrentStreams) ∧
    (run cfg es).streamsActive = (run cfg es).view.outstanding := by
  have h := (SlotInv.run cfg es).accounted
  refine ⟨?_, ?_, h.streamsActive⟩
  · intro a k hk
    obtain ⟨he, hle⟩ := h.inFlight a k hk
    exact ⟨(slots_nonneg _ k).trans_eq he.symm, hle⟩
  · intro a k hk
    obtain ⟨he, hle⟩ := h.promised a k hk
    exact ⟨(slots_nonneg _ k).trans_eq he.symm, hle⟩

/-- A request stands in the queue of its phase and of its endpoint, once, and nowhere else; one that
has a stream has it on an established connection to its own endpoint. -/
theorem run_requests_filed (cfg : ClusterConfig) (es : List Event) :
    (∀ a i, i ∈ (run cfg es).h2Waiters a ↔
      ((run cfg es).calls i).phase = .queued ∧ ((run cfg es).calls i).addr = a) ∧
    (∀ a, ((run cfg es).h2Waiters a).Nodup) ∧
    (∀ i, i ∈ (run cfg es).budgetWaiters ↔ ((run cfg es).calls i).phase = .pending) ∧
    (run cfg es).budgetWaiters.Nodup ∧
    (∀ i k, ((run cfg es).calls i).phase = .riding k →
      ((run cfg es).calls k).addr = ((run cfg es).calls i).addr ∧
        ((run cfg es).cns k).ready = some .established) := by
  have h := (SlotInv.run cfg es).accounted.toShape
  have hfiled {κ : Type} (q : Queue) (a b : κ) (p : Phase) :
      p.filed q a = some b ↔ p.queue = some q ∧ a = b := by
    unfold Phase.filed
    split_ifs with hq <;> simp [hq]
  refine ⟨?_, h.waiters.nodup, ?_, h.pending.nodup (), ?_⟩
  · intro a i
    refine ((h.waiters.mem_iff a i).trans (hfiled _ _ _ _)).trans (and_congr_left fun _ => ?_)
    show ((run cfg es).calls i).phase.queue = _ ↔ _
    cases ((run cfg es).calls i).phase <;> simp [Phase.queue]
  · intro i
    refine ((h.pending.mem_iff () i).trans (hfiled _ _ _ _)).trans ?_
    show ((run cfg es).calls i).phase.queue = _ ∧ () = () ↔ _
    cases ((run cfg es).calls i).phase <;> simp [Phase.queue]
  · intro i k hride
    have hslot : slotOf i ((run cfg es).calls i).phase = some k := by rw [hride]; rfl
    exact ⟨h.slot_addr i k hslot, h.riding i k (.inl hride)⟩

end EnvoyGo.H2Pool

import EnvoyGo.WasmTickInv

/-!
Every step around the tick goroutines keeps the invariant.
-/

namespace EnvoyGo.WasmTick

open Mutexes

variable {H C : Type} [DecidableEq H] [DecidableEq C] {s s' : State H C} {t : Thread H C}

theorem Inv.go (h : Inv s) {p q : Phase} {d m : Option (Thread H C)} (ht : s.phase t = p)
    (hd : Guards Phase.holdsDispatch d (Function.update s.phase t q))
    (hm : Guards Phase.holdsTick m (Function.update s.phase t q)) (hshut : ShutOk s q)
    (hsweep : SweepOk s t q)
    (hready : ∀ g, q = .ready g → latest s.log = some g) (hp : p ≠ .idle) (hq : q ≠ .idle)
    (htoken : q.token = p.token) (hrunner : q.runner = p.runner)
    (hjoin : p.pastJoin = true → q.pastJoin = true) :
    Inv ({ s with dispatchMu := d, tickMu := m }.moved t q) := by
  have hkind := h.kind t
  rw [ht] at hkind
  refine h.move (hkind.keep hp htoken) hd hm (.inl ⟨rfl, .inl ?_⟩) hshut hsweep hready
    (fun g _ => ?_) fun hpj => .inr (hjoin ?_)
  · rw [ht]
    exact hrunner
  · rw [ht]
    exact iff_of_false hq hp
  · rw [← ht]
    exact hpj

def Phase.plain (p : Phase) : Bool :=
  !p.pastStore && !p.pastStop && !p.pastJoin &&
    match p with
    | .idle => false
    | .ready _ => false
    | _ => true

theorem Inv.goPlain (h : Inv s) {p q : Phase} {d m : Option (Thread H C)} (ht : s.phase t = p)
    (hd : Guards Phase.holdsDispatch d (Function.update s.phase t q))
    (hm : Guards Phase.holdsTick m (Function.update s.phase t q)) (hq : q.plain = true)
    (hp : p ≠ .idle) (hpast : p.pastJoin = false) (htoken : q.token = p.token)
    (hrunner : q.runner = p.runner) :
    Inv ({ s with dispatchMu := d, tickMu := m }.moved t q) := by
  unfold Phase.plain at hq
  simp only [Bool.and_eq_true, Bool.not_eq_true'] at hq
  obtain ⟨⟨⟨hstore, hstop⟩, hjoin⟩, hkind⟩ := hq
  have hspawns := Phase.spawns_of_not_pastStop hstop
  have hswept := Phase.swept_of_not_pastStop hstop
  refine h.go ht hd hm (ShutOk.of_false hstore hstop hjoin) (SweepOk.of_false hspawns hswept)
    (fun g hg => ?_) hp (fun hidle => ?_) htoken hrunner fun hlate => ?_
  · rw [hg] at hkind
    cases hkind
  · rw [hidle] at hkind
    cases hkind
  · rw [hpast] at hlate
    cases hlate

section Locks

variable (h : Inv s) {p q : Phase} (ht : s.phase t = p)

include h ht in
theorem Inv.keepDispatch (hq : q.holdsDispatch = p.holdsDispatch) :
    Guards Phase.holdsDispatch s.dispatchMu (Function.update s.phase t q) :=
  h.dispatchMu.keep (by rw [ht]; exact hq)

include h ht in
theorem Inv.keepTick (hq : q.holdsTick = p.holdsTick) :
    Guards Phase.holdsTick s.tickMu (Function.update s.phase t q) :=
  h.tickMu.keep (by rw [ht]; exact hq)

include h ht in
theorem Inv.dropDispatch (hp : p.holdsDispatch = true) (hq : q.holdsDispatch = false) :
    Guards Phase.holdsDispatch none (Function.update s.phase t q) :=
  h.dispatchMu.release (by rw [ht]; exact hp) hq

include h ht in
theorem Inv.dropTick (hp : p.holdsTick = true) (hq : q.holdsTick = false) :
    Guards Phase.holdsTick none (Function.update s.phase t q) :=
  h.tickMu.release (by rw [ht]; exact hp) hq

end Locks

section Guest

variable {stop : Option ℕ} {period : ℤ}

theorem Inv.leave (h : Inv s) (ht : s.phase t = .guest stop .running) :
    Inv (s.unlockDispatch t (State.back stop)) := by
  have hkind := h.kind t
  rw [ht] at hkind
  cases stop with
  | some g =>
    exact h.goPlain ht (h.dropDispatch ht rfl rfl) (h.keepTick ht rfl) rfl (by simp) rfl rfl rfl
  | none =>
    refine h.move (o := s.once) (KindOk.idle _ _) (h.dropDispatch ht rfl rfl) (h.keepTick ht rfl)
      (.inl ⟨rfl, .inl ?_⟩) (ShutOk.of_false rfl rfl rfl) (SweepOk.of_false rfl rfl)
      (fun g hg => by cases hg) (fun g hg => ?_) fun hp => ?_
    · rw [ht]
      rfl
    · rcases hkind.2 g hg with hidle | htoken
      · cases hidle
      · cases htoken
    · rw [ht] at hp
      cases hp

section Arm

variable (h : Inv s) {call : Guest} (ht : s.phase t = .guest stop call)
  (hlock : call = .arming period ∨ call = .spawning period)

include h ht hlock

omit [DecidableEq H] [DecidableEq C] in
theorem Inv.noStop : s.tickStop = none := by
  have hshut := h.shut t
  rw [ht] at hshut
  rcases hlock with rfl | rfl
  · exact hshut.2.1 rfl
  · exact hshut.2.1 rfl

theorem Inv.unlockTick : Inv (s.unlockTick t stop) := by
  rcases hlock with rfl | rfl
  · exact h.goPlain ht (h.keepDispatch ht rfl) (h.dropTick ht rfl rfl) rfl (by simp) rfl rfl rfl
  · exact h.goPlain ht (h.keepDispatch ht rfl) (h.dropTick ht rfl rfl) rfl (by simp) rfl rfl rfl

end Arm

theorem Inv.advanceArming (h : Inv s) (ht : s.phase t = .guest stop (.arming period))
    (hstep : s.advance t = some s') : Inv s' := by
  have hnone := h.noStop ht (.inl rfl)
  unfold State.advance at hstep
  rw [ht] at hstep
  dsimp only at hstep
  split_ifs at hstep with hor
  · cases hstep
    exact (h.unlockTick ht (.inl rfl)).disarm (Function.update_self _ _ _) hnone
  · cases hstep
    obtain ⟨-, hopen⟩ := not_or.mp hor
    refine h.go ht (h.keepDispatch ht rfl) (h.keepTick ht rfl)
      ⟨(fun hp => by cases hp), fun _ => hnone, (fun hp => by cases hp)⟩
      ⟨fun _ => ⟨?_, fun u => ?_⟩, (fun hp => by cases hp)⟩ (fun g hg => by cases hg)
      (by simp) (by simp) rfl rfl (fun hp => by cases hp)
    · rw [← Bool.not_eq_true]
      exact fun hdone => hopen (h.finished hdone).1
    · rw [← Bool.not_eq_true]
      exact fun hswept => hopen ((h.shut u).1 (Phase.pastStore_of_swept hswept))

theorem Inv.advanceSpawning (h : Inv s) (ht : s.phase t = .guest stop (.spawning period))
    (hstep : s.advance t = some s') : Inv s' := by
  have hnone := h.noStop ht (.inr rfl)
  obtain ⟨hdone, hswept⟩ := h.sweep t (by rw [ht]; rfl)
  unfold State.advance at hstep
  rw [ht] at hstep
  cases hstep
  refine (h.unlockTick ht (.inr rfl)).spawn (Function.update_self _ _ _) hnone rfl hdone ?_ period
  exact forall_update (R := fun _ p => p.swept = false) rfl hswept

theorem Inv.advanceGuest (h : Inv s) {call : Guest} (ht : s.phase t = .guest stop call)
    (hstep : s.advance t = some s') : Inv s' := by
  cases call with
  | running =>
    unfold State.advance at hstep
    rw [ht] at hstep
    cases hstep
    exact h.leave ht
  | wantTick period =>
    unfold State.advance at hstep
    rw [ht] at hstep
    dsimp only at hstep
    split_ifs at hstep with hfree
    cases hstep
    exact h.goPlain ht (h.keepDispatch ht rfl) (h.tickMu.acquire hfree rfl) rfl (by simp)
      rfl rfl rfl
  | superseding period =>
    unfold State.advance at hstep
    rw [ht] at hstep
    cases hstep
    have hclosed := h.closeStop
    have ht' : s.closeStop.phase t = .guest stop (.superseding period) := by
      rw [closeStop_phase]
      exact ht
    refine hclosed.go ht' (hclosed.keepDispatch ht' rfl) (hclosed.keepTick ht' rfl) ?_
      (SweepOk.of_false rfl rfl) (fun g hg => by cases hg) (by simp) (by simp) rfl rfl
      (fun hp => by cases hp)
    exact ⟨(fun hp => by cases hp), fun _ => closeStop_tickStop s, (fun hp => by cases hp)⟩
  | arming period => exact h.advanceArming ht hstep
  | spawning period => exact h.advanceSpawning ht hstep

end Guest

section Tick

variable {g : ℕ}

theorem Inv.advanceSelecting (h : Inv s) (ht : s.phase t = .selecting g)
    (hstep : s.advance t = some s') : Inv s' := by
  unfold State.advance at hstep
  rw [ht] at hstep
  dsimp only at hstep
  split_ifs at hstep
  cases hstep
  exact h.exit ht

theorem Inv.advanceFired (h : Inv s) (ht : s.phase t = .fired g)
    (hstep : s.advance t = some s') : Inv s' := by
  unfold State.advance at hstep
  rw [ht] at hstep
  cases hstep
  split_ifs
  · exact h.goPlain ht (h.keepDispatch ht rfl) (h.keepTick ht rfl) rfl (by simp) rfl rfl rfl
  · exact h.goPlain ht (h.keepDispatch ht rfl) (h.keepTick ht rfl) rfl (by simp) rfl rfl rfl

theorem Inv.advanceWantLock (h : Inv s) (ht : s.phase t = .wantLock g)
    (hstep : s.advance t = some s') : Inv s' := by
  unfold State.advance at hstep
  rw [ht] at hstep
  dsimp only at hstep
  split_ifs at hstep with hfree
  cases hstep
  exact h.goPlain ht (h.dispatchMu.acquire hfree rfl) (h.keepTick ht rfl) rfl (by simp) rfl rfl rfl

theorem Inv.advanceLocked (h : Inv s) (ht : s.phase t = .locked g)
    (hstep : s.advance t = some s') : Inv s' := by
  unfold State.advance at hstep
  rw [ht] at hstep
  dsimp only at hstep
  split_ifs at hstep
  · cases hstep
    exact h.goPlain ht (h.dropDispatch ht rfl rfl) (h.keepTick ht rfl) rfl (by simp) rfl rfl rfl
  · cases hstep
    exact h.goPlain ht (h.keepDispatch ht rfl) (h.keepTick ht rfl) rfl (by simp) rfl rfl rfl

theorem Inv.advanceWantCompare (h : Inv s) (ht : s.phase t = .wantCompare g)
    (hstep : s.advance t = some s') : Inv s' := by
  unfold State.advance at hstep
  rw [ht] at hstep
  dsimp only at hstep
  split_ifs at hstep with hfree
  cases hstep
  exact h.goPlain ht (h.keepDispatch ht rfl) (h.tickMu.acquire hfree rfl) rfl (by simp) rfl rfl rfl

theorem Inv.advanceComparing (h : Inv s) (ht : s.phase t = .comparing g)
    (hstep : s.advance t = some s') : Inv s' := by
  unfold State.advance at hstep
  rw [ht] at hstep
  dsimp only at hstep
  split_ifs at hstep with hcurrent
  · cases hstep
    refine h.go ht (h.keepDispatch ht rfl) (h.dropTick ht rfl rfl) (ShutOk.of_false rfl rfl rfl)
      (SweepOk.of_false rfl rfl) (fun g' hg => ?_) (by simp) (by simp) rfl rfl
      (fun hp => by cases hp)
    rw [← Phase.ready.inj hg]
    exact (h.stops.current g hcurrent).2
  · cases hstep
    exact h.goPlain ht (h.dropDispatch ht rfl rfl) (h.dropTick ht rfl rfl) rfl (by simp) rfl rfl rfl

theorem Inv.advanceReady (h : Inv s) (ht : s.phase t = .ready g)
    (hstep : s.advance t = some s') : Inv s' := by
  unfold State.advance at hstep
  rw [ht] at hstep
  cases hstep
  have hmarked : Inv { s with log := .tick g :: s.log } := by
    refine h.mark rfl (fun _ heq => by cases heq) (fun g' heq => ?_) (fun heq => by cases heq)
    rw [← Mark.tick.inj heq]
    exact ⟨h.ready t g ht, h.not_joined (t := t) (by rw [ht]; rfl)⟩
  exact hmarked.goPlain ht (hmarked.keepDispatch ht rfl) (hmarked.keepTick ht rfl) rfl (by simp) rfl
    rfl rfl

end Tick

section Close

theorem Inv.advanceCalled (h : Inv s) (ht : s.phase t = .called)
    (hstep : s.advance t = some s') : Inv s' := by
  have hkind := h.kind t
  rw [ht] at hkind
  have hother : ∀ g, t ≠ .tick g := by
    intro g hg
    rcases hkind.2 g hg with hidle | htoken
    · cases hidle
    · cases htoken
  have hpast : (s.phase t).pastJoin = false := by rw [ht]; rfl
  unfold State.advance at hstep
  rw [ht] at hstep
  dsimp only at hstep
  split_ifs at hstep with hdone hfree
  · cases hstep
    refine h.move (o := s.once) (KindOk.idle _ _) (h.keepDispatch ht rfl) (h.keepTick ht rfl)
      (.inl ⟨rfl, .inl ?_⟩) (ShutOk.of_false rfl rfl rfl) (SweepOk.of_false rfl rfl)
      (fun g hg => by cases hg) (fun g hg => absurd hg (hother g)) fun hp => ?_
    · rw [ht]
      rfl
    · rw [hpast] at hp
      cases hp
  · cases hstep
    refine h.move (o := some t) (hkind.keep (by simp) rfl) (h.keepDispatch ht rfl)
      (h.keepTick ht rfl) (.inr ⟨hfree, rfl, rfl⟩) (ShutOk.of_false rfl rfl rfl)
      (SweepOk.of_false rfl rfl) (fun g hg => by cases hg)
      (fun g hg => absurd hg (hother g)) fun hp => ?_
    rw [hpast] at hp
    cases hp

theorem Inv.advanceStoring (h : Inv s) (ht : s.phase t = .storing)
    (hstep : s.advance t = some s') : Inv s' := by
  unfold State.advance at hstep
  rw [ht] at hstep
  cases hstep
  have hclosed := h.setClosed
  refine hclosed.go ht (hclosed.keepDispatch ht rfl) (hclosed.keepTick ht rfl) ?_
    (SweepOk.of_false rfl rfl) (fun g hg => by cases hg) (by simp) (by simp) rfl rfl
    (fun hp => by cases hp)
  exact ⟨fun _ => rfl, (fun hp => by cases hp), (fun hp => by cases hp)⟩

theorem Inv.advanceWantStop (h : Inv s) (ht : s.phase t = .wantStop)
    (hstep : s.advance t = some s') : Inv s' := by
  have hshut := h.shut t
  rw [ht] at hshut
  unfold State.advance at hstep
  rw [ht] at hstep
  dsimp only at hstep
  split_ifs at hstep with hfree
  cases hstep
  refine h.go ht (h.keepDispatch ht rfl) (h.tickMu.acquire hfree rfl) ?_
    (SweepOk.of_false rfl rfl) (fun g hg => by cases hg) (by simp) (by simp) rfl rfl
    (fun hp => by cases hp)
  exact ⟨fun _ => hshut.1 rfl, (fun hp => by cases hp), (fun hp => by cases hp)⟩

theorem Inv.advanceStopping (h : Inv s) (ht : s.phase t = .stopping)
    (hstep : s.advance t = some s') : Inv s' := by
  have hclosed := h.closeStop.setPeriod 0
  have ht' : ({ s.closeStop with tickPeriod := 0 } : State H C).phase t = .stopping := by
    change s.closeStop.phase t = _
    rw [closeStop_phase]
    exact ht
  have hshut := hclosed.shut t
  rw [ht'] at hshut
  unfold State.advance at hstep
  rw [ht] at hstep
  cases hstep
  refine hclosed.go ht' (hclosed.keepDispatch ht' rfl) (hclosed.dropTick ht' rfl rfl) ?_
    ⟨(fun hp => by cases hp), fun _ => .inr fun u => ?_⟩ (fun g hg => by cases hg) (by simp)
    (by simp) rfl rfl (fun hp => by cases hp)
  · exact ⟨fun _ => hshut.1 rfl, fun _ => closeStop_tickStop s, (fun hp => by cases hp)⟩
  · -- A thread that is about to start a goroutine has the lock.
    rw [← Bool.not_eq_true]
    intro hu
    have heq := hclosed.tickMu.exclusive (t := t) (by rw [ht']; rfl) (Phase.holdsTick_of_spawns hu)
    rw [← heq, ht'] at hu
    cases hu

theorem Inv.advanceJoining (h : Inv s) (ht : s.phase t = .joining)
    (hstep : s.advance t = some s') : Inv s' := by
  have hshut := h.shut t
  rw [ht] at hshut
  unfold State.advance at hstep
  rw [ht] at hstep
  dsimp only at hstep
  split_ifs at hstep with hzero
  cases hstep
  have hmoved : Inv (s.moved t .wantClear) := by
    refine h.go ht (h.keepDispatch ht rfl) (h.keepTick ht rfl) ?_
      ⟨(fun hp => by cases hp), fun _ => .inl (by rw [ht]; rfl)⟩ (fun g hg => by cases hg)
      (by simp) (by simp) rfl rfl (fun hp => by cases hp)
    exact ⟨fun _ => hshut.1 rfl, fun _ => hshut.2.1 rfl, fun _ => hzero⟩
  refine hmoved.mark (m := .joined) rfl (fun _ heq => by cases heq) (fun _ heq => by cases heq)
    fun _ => .inr ⟨t, ?_⟩
  change (Function.update s.phase t .wantClear t).pastJoin = true
  rw [Function.update_self]
  rfl

theorem Inv.advanceWantClear (h : Inv s) (ht : s.phase t = .wantClear)
    (hstep : s.advance t = some s') : Inv s' := by
  have hshut := h.shut t
  rw [ht] at hshut
  unfold State.advance at hstep
  rw [ht] at hstep
  dsimp only at hstep
  split_ifs at hstep with hfree
  cases hstep
  exact h.go ht (h.dispatchMu.acquire hfree rfl) (h.keepTick ht rfl) hshut
    ⟨(fun hp => by cases hp), fun _ => .inl (by rw [ht]; rfl)⟩ (fun g hg => by cases hg)
    (by simp) (by simp) rfl rfl (fun hp => hp)

theorem Inv.advanceClearing (h : Inv s) (ht : s.phase t = .clearing)
    (hstep : s.advance t = some s') : Inv s' := by
  have hkind := h.kind t
  rw [ht] at hkind
  unfold State.advance at hstep
  rw [ht] at hstep
  cases hstep
  have hdone := h.setDone ht
  refine hdone.move (o := s.once) (KindOk.idle _ _) (hdone.dropDispatch ht rfl rfl)
    (hdone.keepTick ht rfl) (.inl ⟨rfl, .inr ⟨rfl, rfl⟩⟩) (ShutOk.of_false rfl rfl rfl)
    (SweepOk.of_false rfl rfl) (fun g hg => by cases hg) (fun g hg => ?_) fun _ => .inl rfl
  rcases hkind.2 g hg with hidle | htoken
  · cases hidle
  · cases htoken

end Close

theorem Inv.advance (h : Inv s) (hstep : s.advance t = some s') : Inv s' := by
  cases ht : s.phase t with
  | idle =>
    unfold State.advance at hstep
    rw [ht] at hstep
    cases hstep
  | wantDispatch =>
    unfold State.advance at hstep
    rw [ht] at hstep
    dsimp only at hstep
    split_ifs at hstep with hfree
    cases hstep
    exact h.goPlain ht (h.dispatchMu.acquire hfree rfl) (h.keepTick ht rfl) rfl (by simp)
      rfl rfl rfl
  | guest stop call => exact h.advanceGuest ht hstep
  | selecting g => exact h.advanceSelecting ht hstep
  | fired g => exact h.advanceFired ht hstep
  | wantLock g => exact h.advanceWantLock ht hstep
  | locked g => exact h.advanceLocked ht hstep
  | wantCompare g => exact h.advanceWantCompare ht hstep
  | comparing g => exact h.advanceComparing ht hstep
  | ready g => exact h.advanceReady ht hstep
  | called => exact h.advanceCalled ht hstep
  | storing => exact h.advanceStoring ht hstep
  | wantStop => exact h.advanceWantStop ht hstep
  | stopping => exact h.advanceStopping ht hstep
  | joining => exact h.advanceJoining ht hstep
  | wantClear => exact h.advanceWantClear ht hstep
  | clearing => exact h.advanceClearing ht hstep

theorem Inv.start (h : Inv s) {q : Phase} (ht : s.phase t = .idle) (htick : ∀ g, t ≠ .tick g)
    (htoken : q.token = none) (hd : q.holdsDispatch = false) (hm : q.holdsTick = false)
    (hrunner : q.runner = false) (hshut : ShutOk s q) (hsweep : SweepOk s t q)
    (hready : ∀ g, q ≠ .ready g) :
    Inv (s.moved t q) := by
  refine h.move (o := s.once) ⟨fun g hg => ?_, fun g hg => absurd hg (htick g)⟩
    (h.keepDispatch ht hd) (h.keepTick ht hm) (.inl ⟨rfl, .inl ?_⟩) hshut hsweep
    (fun g hg => absurd hg (hready g)) (fun g hg => absurd hg (htick g)) fun hp => ?_
  · rw [htoken] at hg
    cases hg
  · rw [ht]
    exact hrunner
  · rw [ht] at hp
    cases hp

theorem Inv.next (h : Inv s) {e : Event H C} (hstep : s.next e = some s') : Inv s' := by
  cases e with
  | advance t => exact h.advance hstep
  | enter f =>
    simp only [State.next] at hstep
    split_ifs at hstep with hidle
    cases hstep
    exact h.start hidle (fun _ heq => by cases heq) rfl rfl rfl rfl (ShutOk.of_false rfl rfl rfl)
      (SweepOk.of_false rfl rfl) fun _ heq => by cases heq
  | setTickPeriod t period =>
    simp only [State.next] at hstep
    split at hstep
    · next stop ht =>
      cases hstep
      exact h.goPlain ht (h.keepDispatch ht rfl) (h.keepTick ht rfl) rfl (by simp) rfl rfl rfl
    · cases hstep
  | timerFires g =>
    simp only [State.next] at hstep
    split_ifs at hstep with ht
    cases hstep
    exact h.goPlain ht (h.keepDispatch ht rfl) (h.keepTick ht rfl) rfl (by simp) rfl rfl rfl
  | close c =>
    simp only [State.next] at hstep
    split_ifs at hstep with hidle
    cases hstep
    exact h.start hidle (fun _ heq => by cases heq) rfl rfl rfl rfl (ShutOk.of_false rfl rfl rfl)
      (SweepOk.of_false rfl rfl) fun _ heq => by cases heq

theorem inv_of_reachable (h : Reachable s) : Inv s := by
  induction h with
  | init => exact Inv.init
  | step e _ hstep ih => exact ih.next hstep

end EnvoyGo.WasmTick

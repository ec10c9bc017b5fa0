import EnvoyGo.WasmPause

/-!
What holds along every run of a side: the ledger of the flag, the signals owed and the token, the
generations of the watchdogs, and where the resumes are aimed.
-/

namespace EnvoyGo.WasmPause

open Runs

/-- What the dispatch has done about a pause of this turn: nothing to come, nothing yet, a flag
stored, or the stream is over. -/
inductive Stage
  | out
  | fresh
  | parking
  | ended
  | disarming
  deriving DecidableEq

def Phase.stage : Phase → Stage
  | .idle => .out
  | .calling _ | .returned _ | .begun | .bumped _ | .checking => .fresh
  | .stored _ | .armed | .parked => .parking
  | .aborted | .over => .ended
  | .clearing | .cleared => .disarming

def Resume.owes (r : Resume) (t : ℕ) : Prop := r = .swapped t ∨ r = .bumped t ∨ r = .stopped t

def Side.owes (s : Side) : Caller → ℕ → Prop
  | .guest c, t => (s.resume c).owes t
  | .watchdog w, t => s.dog w = .swapped t

section

variable (stage : Stage) (paused token : Bool) (turn owner : ℕ) (winner : ℕ → Option Caller)
  (releases : ℕ → ℕ) (owes : Caller → ℕ → Prop)

structure Ledger : Prop where
  calm : stage ≠ .disarming
  up : paused = true →
    (stage = .parking ∨ stage = .ended) ∧ owner = turn ∧ winner turn = none
  sent : token = true → (stage = .parking ∨ stage = .ended) ∧ releases turn = 1
  fresh : stage = .fresh → winner turn = none
  parking : stage = .parking → paused = true ∨ winner turn ≠ none
  told : stage = .parking → releases turn = 1 → token = true
  future : ∀ t, turn < t → winner t = none
  unwon : ∀ t, winner t = none → releases t = 0
  once : ∀ t, releases t ≤ 1
  owed : ∀ who t, owes who t → winner t = some who ∧ releases t = 0 ∧ t = turn ∧
    (stage = .parking ∨ stage = .ended)
  paid : ∀ who t, winner t = some who → releases t = 1 ∨ owes who t

end

section

variable {stage : Stage} {paused token : Bool} {turn owner : ℕ} {winner : ℕ → Option Caller}
  {releases : ℕ → ℕ} {owes owes' : Caller → ℕ → Prop}

theorem Ledger.entered (h : Ledger .out paused token turn owner winner releases owes) :
    Ledger .fresh paused token (turn + 1) owner winner releases owes := by
  have hpaused : paused ≠ true := fun hup => by simpa using (h.up hup).1
  have htoken : token ≠ true := fun hsent => by simpa using (h.sent hsent).1
  refine ⟨by decide, fun hup => absurd hup hpaused, fun hsent => absurd hsent htoken, ?_,
    (fun hs => by cases hs), (fun hs => by cases hs), ?_, h.unwon, h.once, ?_, h.paid⟩
  · exact fun _ => h.future _ (Nat.lt_succ_self turn)
  · exact fun t ht => h.future t (by omega)
  · intro who t howes
    simpa using (h.owed who t howes).2.2.2

theorem Ledger.left (h : Ledger .fresh paused token turn owner winner releases owes) :
    Ledger .out paused token turn owner winner releases owes := by
  have hpaused : paused ≠ true := fun hup => by simpa using (h.up hup).1
  have htoken : token ≠ true := fun hsent => by simpa using (h.sent hsent).1
  refine ⟨by decide, fun hup => absurd hup hpaused, fun hsent => absurd hsent htoken,
    (fun hs => by cases hs), (fun hs => by cases hs), (fun hs => by cases hs), h.future, h.unwon,
    h.once, ?_, h.paid⟩
  intro who t howes
  simpa using (h.owed who t howes).2.2.2

theorem Ledger.stored (h : Ledger .fresh paused token turn owner winner releases owes) :
    Ledger .parking true token turn turn winner releases owes := by
  have hnone := h.fresh rfl
  have hzero := h.unwon turn hnone
  refine ⟨by decide, fun _ => ⟨.inl rfl, rfl, hnone⟩, ?_, (fun hs => by cases hs),
    fun _ => .inl rfl, ?_, h.future, h.unwon, h.once, ?_, h.paid⟩
  · intro hsent
    simpa using (h.sent hsent).1
  · intro _ hone
    omega
  · intro who t howes
    simpa using (h.owed who t howes).2.2.2

theorem Ledger.unparked (h : Ledger .parking paused true turn owner winner releases owes) :
    Ledger .out paused false turn owner winner releases owes := by
  have hone := (h.sent rfl).2
  refine ⟨by decide, ?_, (fun hsent => by cases hsent), (fun hs => by cases hs),
    (fun hs => by cases hs), (fun hs => by cases hs), h.future, h.unwon, h.once, ?_, h.paid⟩
  · intro hup
    have hzero := h.unwon turn (h.up hup).2.2
    omega
  · intro who t howes
    obtain ⟨-, hzero, rfl, -⟩ := h.owed who t howes
    omega

theorem Ledger.ended (h : Ledger stage paused token turn owner winner releases owes) :
    Ledger .ended paused token turn owner winner releases owes := by
  refine ⟨by decide, fun hup => ⟨.inr rfl, (h.up hup).2⟩, fun hsent => ⟨.inr rfl, (h.sent hsent).2⟩,
    (fun hs => by cases hs), (fun hs => by cases hs), (fun hs => by cases hs), h.future, h.unwon,
    h.once, ?_, h.paid⟩
  intro who t howes
  obtain ⟨hwon, hzero, hturn, -⟩ := h.owed who t howes
  exact ⟨hwon, hzero, hturn, .inr rfl⟩

theorem Ledger.taken {who : Caller} (h : Ledger stage paused token turn owner winner releases owes)
    (hup : paused = true)
    (howes : ∀ w t, owes' w t ↔ owes w t ∨ w = who ∧ t = owner) :
    Ledger stage false token turn owner (Function.update winner owner (some who)) releases
      owes' := by
  obtain ⟨hheld, rfl, hnone⟩ := h.up hup
  have hzero := h.unwon owner hnone
  refine ⟨h.calm, (fun hp => by cases hp), h.sent, ?_, ?_, h.told, ?_, ?_, h.once, ?_, ?_⟩
  · rintro rfl
    simp at hheld
  · intro _
    rw [Function.update_self]
    exact .inr (Option.some_ne_none who)
  · intro t ht
    rw [Function.update_of_ne (by omega)]
    exact h.future t ht
  · intro t ht
    by_cases hto : t = owner
    · rw [hto, hzero]
    · rw [Function.update_of_ne hto] at ht
      exact h.unwon t ht
  · intro w t hw
    rcases (howes w t).mp hw with hold | ⟨rfl, rfl⟩
    · -- no one else owes for this pause, since its flag was up
      obtain ⟨hwon, -, rfl, -⟩ := h.owed w t hold
      rw [hnone] at hwon
      cases hwon
    · exact ⟨Function.update_self .., hzero, rfl, hheld⟩
  · intro w t hw
    by_cases hto : t = owner
    · subst hto
      rw [Function.update_self] at hw
      exact .inr ((howes w t).mpr (.inr ⟨(Option.some.inj hw).symm, rfl⟩))
    · rw [Function.update_of_ne hto] at hw
      rcases h.paid w t hw with hone | hold
      · exact .inl hone
      · exact .inr ((howes w t).mpr (.inl hold))

theorem Ledger.signalled {who : Caller} {pause : ℕ}
    (h : Ledger stage paused token turn owner winner releases owes) (hwho : owes who pause)
    (howes : ∀ w t, owes' w t ↔ owes w t ∧ w ≠ who) :
    Ledger stage paused true turn owner winner
      (Function.update releases pause (releases pause + 1)) owes' := by
  obtain ⟨hwon, hzero, rfl, hheld⟩ := h.owed who pause hwho
  refine ⟨h.calm, h.up, ?_, h.fresh, h.parking, fun _ _ => rfl, h.future, ?_, ?_, ?_, ?_⟩
  · intro _
    rw [Function.update_self, hzero]
    exact ⟨hheld, rfl⟩
  · intro t ht
    have hne : t ≠ pause := by
      rintro rfl
      rw [hwon] at ht
      cases ht
    rw [Function.update_of_ne hne]
    exact h.unwon t ht
  · intro t
    by_cases hne : t = pause
    · subst hne
      exact Nat.le_of_eq (by rw [Function.update_self, hzero])
    · rw [Function.update_of_ne hne]
      exact h.once t
  · intro w t hw
    obtain ⟨hold, hother⟩ := (howes w t).mp hw
    obtain ⟨hwon', -, rfl, -⟩ := h.owed w t hold
    rw [hwon] at hwon'
    exact absurd (Option.some.inj hwon').symm hother
  · intro w t hw
    by_cases hne : t = pause
    · subst hne
      left
      rw [Function.update_self, hzero]
    · rw [Function.update_of_ne hne]
      rcases h.paid w t hw with hone | hold
      · exact .inl hone
      · exact absurd (h.owed w t hold).2.2.1 hne

end

def Side.Kept (s : Side) : Prop :=
  Ledger s.phase.stage s.paused s.token s.turn s.owner s.winner s.releases s.owes

theorem owes_setResume (s : Side) (c : ℕ) (q : Resume) (w : Caller) (t : ℕ) :
    (s.setResume c q).owes w t ↔ w = .guest c ∧ q.owes t ∨ w ≠ .guest c ∧ s.owes w t := by
  cases w with
  | guest j =>
    change (Function.update s.resume c q j).owes t ↔ _
    by_cases hj : j = c
    · subst hj
      simp
    · rw [Function.update_of_ne hj]
      simp [hj, Side.owes]
  | watchdog j => simp [Side.owes, Side.setResume]

theorem owes_setDog (s : Side) (j : ℕ) (q : Watchdog) (w : Caller) (t : ℕ) :
    (s.setDog j q).owes w t ↔
      w = .watchdog j ∧ q = .swapped t ∨ w ≠ .watchdog j ∧ s.owes w t := by
  cases w with
  | guest c => simp [Side.owes, Side.setDog]
  | watchdog i =>
    change Function.update s.dog j q i = .swapped t ↔ _
    by_cases hi : i = j
    · subst hi
      simp
    · rw [Function.update_of_ne hi]
      simp [hi, Side.owes]

variable {t : ℕ} {s s' : Side} {q : Watchdog} {e : Event}

theorem owes_taken {owes : Caller → ℕ → Prop} {who w : Caller} {owner : ℕ} {q : Prop}
    (hwho : ∀ t, ¬ owes who t) (hq : q ↔ t = owner) :
    w = who ∧ q ∨ w ≠ who ∧ owes w t ↔ owes w t ∨ w = who ∧ t = owner := by
  rw [hq]
  constructor
  · rintro (htook | ⟨-, hold⟩)
    · exact .inr htook
    · exact .inl hold
  · rintro (hold | htook)
    · refine .inr ⟨?_, hold⟩
      rintro rfl
      exact hwho t hold
    · exact .inl htook

theorem owes_signalled {owes : Caller → ℕ → Prop} {who w : Caller} {q : Prop} (hq : ¬ q) :
    w = who ∧ q ∨ w ≠ who ∧ owes w t ↔ owes w t ∧ w ≠ who := by
  constructor
  · rintro (⟨-, h⟩ | ⟨hother, hold⟩)
    · exact absurd h hq
    · exact ⟨hold, hother⟩
  · rintro ⟨hold, hother⟩
    exact .inr ⟨hother, hold⟩

theorem owes_setResume_same {c : ℕ} {q : Resume} (hq : ∀ t, q.owes t ↔ (s.resume c).owes t) :
    (s.setResume c q).owes = s.owes := by
  funext w t
  rw [eq_iff_iff, owes_setResume, hq]
  constructor
  · rintro (⟨rfl, howes⟩ | ⟨-, howes⟩)
    · exact howes
    · exact howes
  · intro howes
    by_cases hw : w = .guest c
    · subst hw
      exact .inl ⟨rfl, howes⟩
    · exact .inr ⟨hw, howes⟩

theorem owes_setDog_same {j : ℕ} (hq : ∀ t, q ≠ .swapped t) (hj : ∀ t, s.dog j ≠ .swapped t) :
    (s.setDog j q).owes = s.owes := by
  funext w t
  rw [eq_iff_iff, owes_setDog]
  constructor
  · rintro (⟨-, howes⟩ | ⟨-, howes⟩)
    · exact absurd howes (hq t)
    · exact howes
  · intro howes
    refine .inr ⟨?_, howes⟩
    rintro rfl
    exact hj t howes

theorem owes_stopDog (s : Side) (t : Option ℕ) : (s.stopDog t).owes = s.owes := by
  cases t with
  | none => rfl
  | some t =>
    simp only [Side.stopDog]
    split_ifs with hp
    · exact owes_setDog_same (fun _ => by simp) (fun _ => by simp [hp])
    · rfl

theorem stopDog_eq (s : Side) (t : Option ℕ) :
    ∃ dog, s.stopDog t = { s with dog := dog } := by
  cases t with
  | none => exact ⟨s.dog, rfl⟩
  | some t =>
    simp only [Side.stopDog]
    split_ifs
    · exact ⟨_, rfl⟩
    · exact ⟨s.dog, rfl⟩

def Phase.unarmed : Phase → Bool
  | .calling _ | .returned _ | .begun | .bumped _ | .stored _ | .checking => true
  | _ => false

/-- A watchdog of an earlier pause has a generation that is no longer current when the flag of a
pause is up. -/
structure Side.Dated (s : Side) : Prop where
  unborn : ∀ t, s.turn < t ∨ t = s.turn ∧ s.phase.unarmed = true → s.dog t = .absent
  dogs : ∀ t, s.dog t ≠ .absent → s.dogGen t ≤ s.gen
  bumped : ∀ g, s.phase = .bumped g → g ≤ s.gen ∧ ∀ t, s.dog t ≠ .absent → s.dogGen t < g
  stored : ∀ g, s.phase = .stored g → g ≤ s.gen
  up : s.paused = true → ∀ t, t ≠ s.turn → s.dog t ≠ .absent → s.dogGen t < s.gen

theorem kept_dispatch (h : s.Kept) {p : Phase} (hp : p.stage = s.phase.stage) :
    Ledger p.stage s.paused s.token s.turn s.owner s.winner s.releases s.owes := by
  rw [hp]
  exact h

theorem Side.Kept.down (h : s.Kept) (hs : s.phase.stage = .fresh) : s.paused = false := by
  by_contra hup
  have hheld := (h.up (by simpa using hup)).1
  rw [hs] at hheld
  simp at hheld

theorem kept_dog (h : s.Kept) (hq : ∀ p, q ≠ .swapped p) (ht : ∀ p, s.dog t ≠ .swapped p) :
    (s.setDog t q).Kept := by
  rw [Side.Kept, ← owes_setDog_same hq ht] at h
  exact h

theorem kept_move (h : s.Kept) (hd : s.Dated) (hm : Move s e s') : s'.Kept := by
  cases hm with
  | still => exact h
  | entered arm hp =>
    have hout : Ledger .out s.paused s.token s.turn s.owner s.winner s.releases s.owes :=
      kept_dispatch h (p := .idle) (by rw [hp])
    exact hout.entered
  | paused arm hp => exact kept_dispatch h (p := .returned arm) (by rw [hp]; rfl)
  | continued hp =>
    have hfresh : Ledger .fresh s.paused s.token s.turn s.owner s.winner s.releases s.owes :=
      kept_dispatch h (p := .begun) (by rw [hp]; rfl)
    exact hfresh.left
  | disarms hp => exact kept_dispatch h (p := .checking) (by rw [hp]; rfl)
  | begun arm hp => exact kept_dispatch h (p := .begun) (by rw [hp]; rfl)
  | skipped hp hup =>
    have hdown := h.down (by rw [hp]; rfl)
    rw [hdown] at hup
    cases hup
  | bumped hp => exact kept_dispatch h (p := .begun) (by rw [hp])
  | stored g hp =>
    have hfresh : Ledger .fresh s.paused s.token s.turn s.owner s.winner s.releases s.owes :=
      kept_dispatch h (p := .bumped g) (by rw [hp])
    exact hfresh.stored
  | armed g hp =>
    have hborn := hd.unborn s.turn (.inr ⟨rfl, by rw [hp]; rfl⟩)
    have howes : (s.setDog s.turn .pending).owes = s.owes :=
      owes_setDog_same (fun _ => by simp) (fun _ => by simp [hborn])
    have hkept := kept_dispatch h (p := .armed) (by rw [hp]; rfl)
    rw [← howes] at hkept
    exact hkept
  | parked hp =>
    have hkept := kept_dispatch h (p := .parked) (by rw [hp]; rfl)
    obtain ⟨dog, hdog⟩ := stopDog_eq s s.timer
    rw [← owes_stopDog s s.timer] at hkept
    rw [hdog] at hkept ⊢
    exact hkept
  | clear hp hdown =>
    have hfresh : Ledger .fresh s.paused s.token s.turn s.owner s.winner s.releases s.owes :=
      kept_dispatch h (p := .checking) (by rw [hp])
    exact hfresh.left
  | clearing hp hup =>
    have hdown := h.down (by rw [hp]; rfl)
    rw [hdown] at hup
    cases hup
  | cleared hp => exact absurd (by rw [hp]; rfl) h.calm
  | disarmed hp => exact absurd (by rw [hp]; rfl) h.calm
  | unparked hp htoken =>
    have hpark : Ledger .parking s.paused s.token s.turn s.owner s.winner s.releases s.owes :=
      kept_dispatch h (p := .parked) (by rw [hp])
    rw [htoken] at hpark
    exact hpark.unparked
  | aborted hp => exact Ledger.ended h
  | destroyed hp =>
    have hkept := Ledger.ended h
    rw [← owes_stopDog s s.timer] at hkept
    obtain ⟨dog, hdog⟩ := stopDog_eq s s.timer
    rw [Side.takeTimer]
    rw [hdog] at hkept ⊢
    exact hkept
  | issued c hc =>
    have howes : (s.setResume c .issued).owes = s.owes :=
      owes_setResume_same (fun _ => by simp [hc, Resume.owes])
    rw [Side.Kept, ← howes] at h
    exact h
  | swapped c hc hup =>
    refine Ledger.taken h hup (fun w t => ?_)
    rw [owes_setResume]
    exact owes_taken (fun t ho => by simp [Side.owes, Resume.owes, Side.take, hc] at ho)
      (by simp [Resume.owes, Side.setResume, Side.take, eq_comm])
  | lost c hc hdown =>
    have howes : (s.setResume c .finished).owes = s.owes :=
      owes_setResume_same (fun _ => by simp [hc, Resume.owes])
    rw [Side.Kept, ← howes] at h
    exact h
  | resumeBumped c t hc =>
    have howes : (s.setResume c (.bumped t)).owes = s.owes :=
      owes_setResume_same (fun _ => by simp [hc, Resume.owes])
    rw [Side.Kept, ← howes] at h
    exact h
  | resumeStopped c t hc =>
    have hkept := h
    rw [Side.Kept, ← owes_stopDog s s.timer] at hkept
    have howes : ((s.stopDog s.timer).setResume c (.stopped t)).owes =
        (s.stopDog s.timer).owes := by
      refine owes_setResume_same (fun _ => ?_)
      obtain ⟨dog, hdog⟩ := stopDog_eq s s.timer
      rw [hdog]
      simp [hc, Resume.owes]
    rw [← howes] at hkept
    obtain ⟨dog, hdog⟩ := stopDog_eq s s.timer
    rw [Side.takeTimer]
    rw [hdog] at hkept ⊢
    exact hkept
  | resumed c t hc =>
    have howes : s.owes (.guest c) t := .inr (.inr hc)
    refine Ledger.signalled h howes (fun w j => ?_)
    rw [owes_setResume]
    exact owes_signalled (by simp [Resume.owes])
  | expired t ht => exact kept_dog h (by simp) (by simp [ht])
  | passed t ht hgen => exact kept_dog h (by simp) (by simp [ht])
  | superseded t ht hgen => exact kept_dog h (by simp) (by simp [ht])
  | bit t ht hup =>
    refine Ledger.taken h hup (fun w j => ?_)
    rw [owes_setDog]
    exact owes_taken (fun j ho => by simp [Side.owes, Side.take, ht] at ho)
      (by simp [Side.setDog, Side.take, eq_comm])
  | beaten t ht hdown => exact kept_dog h (by simp) (by simp [ht])
  | forced t p ht =>
    have howes : s.owes (.watchdog t) p := ht
    refine Ledger.signalled h howes (fun w j => ?_)
    rw [owes_setDog]
    exact owes_signalled (by simp)

theorem Side.Dated.mono (h : s.Dated) (hturn : s'.turn = s.turn)
    (hunarmed : s'.phase.unarmed = true → s.phase.unarmed = true)
    (hbumped : ∀ g, s'.phase = .bumped g → s.phase = .bumped g)
    (hstored : ∀ g, s'.phase = .stored g → s.phase = .stored g) (hgen : s.gen ≤ s'.gen)
    (hdogGen : s'.dogGen = s.dogGen) (hdog : ∀ t, s'.dog t ≠ .absent → s.dog t ≠ .absent)
    (hup : s'.paused = true → s.paused = true) : s'.Dated := by
  refine ⟨?_, ?_, ?_, ?_, ?_⟩
  · intro t ht
    by_contra hborn
    refine hdog t hborn (h.unborn t ?_)
    rw [hturn] at ht
    rcases ht with hlater | ⟨rfl, hp⟩
    · exact .inl hlater
    · exact .inr ⟨rfl, hunarmed hp⟩
  · intro t ht
    have hle := h.dogs t (hdog t ht)
    rw [hdogGen]
    omega
  · intro g hg
    obtain ⟨hle, hlt⟩ := h.bumped g (hbumped g hg)
    refine ⟨by omega, fun t ht => ?_⟩
    rw [hdogGen]
    exact hlt t (hdog t ht)
  · intro g hg
    have hle := h.stored g (hstored g hg)
    omega
  · intro hp t ht hborn
    have hlt := h.up (hup hp) t (by rw [← hturn]; exact ht) (hdog t hborn)
    rw [hdogGen]
    omega

theorem dog_setDog (ht : s.dog t ≠ .absent) (j : ℕ) (hj : (s.setDog t q).dog j ≠ .absent) :
    s.dog j ≠ .absent := by
  by_cases hjt : j = t
  · rw [hjt]
    exact ht
  · have hsame : (s.setDog t q).dog j = s.dog j := Function.update_of_ne hjt ..
    rw [← hsame]
    exact hj

theorem dog_stopDog (t : Option ℕ) (j : ℕ) (hj : (s.stopDog t).dog j ≠ .absent) :
    s.dog j ≠ .absent := by
  cases t with
  | none => exact hj
  | some t =>
    simp only [Side.stopDog] at hj
    split_ifs at hj with hp
    · exact dog_setDog (by rw [hp]; decide) j hj
    · exact hj

theorem dated_dog (h : s.Dated) (ht : s.dog t ≠ .absent) : (s.setDog t q).Dated :=
  h.mono rfl id (fun _ => id) (fun _ => id) (Nat.le_refl _) rfl (dog_setDog ht) id

theorem dated_dispatch (h : s.Dated) {p : Phase}
    (hunarmed : p.unarmed = true → s.phase.unarmed = true)
    (hp : ∀ g, p ≠ .bumped g ∧ p ≠ .stored g) : Side.Dated { s with phase := p } :=
  h.mono rfl hunarmed (fun g hg => absurd hg (hp g).1) (fun g hg => absurd hg (hp g).2)
    (Nat.le_refl _) rfl (fun _ => id) id

theorem dated_stop (h : s.Dated) (t : Option ℕ) : (s.stopDog t).Dated := by
  have hdogs := dog_stopDog (s := s) t
  obtain ⟨dog, hdog⟩ := stopDog_eq s t
  rw [hdog] at hdogs ⊢
  exact h.mono rfl id (fun _ => id) (fun _ => id) (Nat.le_refl _) rfl hdogs id

theorem dated_move (hk : s.Kept) (h : s.Dated) (hm : Move s e s') : s'.Dated := by
  cases hm with
  | still => exact h
  | entered arm hp =>
    have hdown : s.paused = true → False := by
      intro hup
      have hheld := (hk.up hup).1
      rw [hp] at hheld
      simp [Phase.stage] at hheld
    refine ⟨?_, h.dogs, (fun _ hg => by cases hg), (fun _ hg => by cases hg),
      fun hup => (hdown hup).elim⟩
    intro t ht
    apply h.unborn t
    left
    change s.turn + 1 < t ∨ t = s.turn + 1 ∧ _ at ht
    omega
  | paused arm hp => exact dated_dispatch h (fun _ => by rw [hp]; rfl) (by simp)
  | continued hp => exact dated_dispatch h (by simp [Phase.unarmed]) (by simp)
  | disarms hp => exact dated_dispatch h (fun _ => by rw [hp]; rfl) (by simp)
  | begun arm hp => exact dated_dispatch h (fun _ => by rw [hp]; rfl) (by simp)
  | skipped hp hup => exact dated_dispatch h (by simp [Phase.unarmed]) (by simp)
  | bumped hp =>
    refine ⟨?_, ?_, ?_, (fun _ hg => by cases hg), ?_⟩
    · intro t ht
      apply h.unborn t
      rw [hp]
      exact ht
    · intro t ht
      exact Nat.le_succ_of_le (h.dogs t ht)
    · intro g hg
      cases hg
      exact ⟨Nat.le_refl _, fun t ht => Nat.lt_succ_of_le (h.dogs t ht)⟩
    · intro hup t hne ht
      exact Nat.lt_succ_of_le (h.dogs t ht)
  | stored g hp =>
    obtain ⟨hle, hlt⟩ := h.bumped g hp
    refine ⟨?_, h.dogs, (fun _ hg => by cases hg), ?_, ?_⟩
    · intro t ht
      apply h.unborn t
      rw [hp]
      exact ht
    · intro g' hg
      cases hg
      exact hle
    · intro _ t _ ht
      exact Nat.lt_of_lt_of_le (hlt t ht) hle
  | armed g hp =>
    have hle := h.stored g hp
    refine ⟨?_, ?_, (fun _ hg => by cases hg), (fun _ hg => by cases hg), ?_⟩
    · rintro t (ht | ⟨-, hu⟩)
      · change Function.update s.dog s.turn .pending t = .absent
        rw [Function.update_of_ne (by change s.turn < t at ht; omega)]
        exact h.unborn t (.inl ht)
      · cases hu
    · intro t ht
      change Function.update s.dog s.turn .pending t ≠ .absent at ht
      change Function.update s.dogGen s.turn g t ≤ s.gen
      by_cases hne : t = s.turn
      · rw [hne, Function.update_self]
        exact hle
      · rw [Function.update_of_ne hne] at ht ⊢
        exact h.dogs t ht
    · intro hup t hne ht
      change t ≠ s.turn at hne
      change Function.update s.dog s.turn .pending t ≠ .absent at ht
      change Function.update s.dogGen s.turn g t < s.gen
      rw [Function.update_of_ne hne] at ht ⊢
      exact h.up hup t hne ht
  | parked hp =>
    have hstop := dated_dispatch (dated_stop h s.timer) (p := .parked) (by simp [Phase.unarmed])
      (by simp)
    exact ⟨hstop.unborn, hstop.dogs, hstop.bumped, hstop.stored, hstop.up⟩
  | clear hp hdown => exact dated_dispatch h (by simp [Phase.unarmed]) (by simp)
  | clearing hp hup => exact dated_dispatch h (by simp [Phase.unarmed]) (by simp)
  | cleared hp => exact absurd (by rw [hp]; rfl) hk.calm
  | disarmed hp => exact absurd (by rw [hp]; rfl) hk.calm
  | unparked hp htoken =>
    have hidle := dated_dispatch h (p := .idle) (by simp [Phase.unarmed]) (by simp)
    exact ⟨hidle.unborn, hidle.dogs, hidle.bumped, hidle.stored, hidle.up⟩
  | aborted hp => exact dated_dispatch h (by simp [Phase.unarmed]) (by simp)
  | destroyed hp =>
    obtain ⟨dog, hdog⟩ := stopDog_eq s s.timer
    have hstop := dated_dispatch (dated_stop h s.timer) (p := .over) (by simp [Phase.unarmed])
      (by simp)
    rw [Side.takeTimer]
    rw [hdog] at hstop ⊢
    exact hstop.mono rfl id (fun _ => id) (fun _ => id) (Nat.le_succ _) rfl (fun _ => id) id
  | issued c hc =>
    exact h.mono rfl id (fun _ => id) (fun _ => id) (Nat.le_refl _) rfl (fun _ => id) id
  | swapped c hc hup =>
    exact h.mono rfl id (fun _ => id) (fun _ => id) (Nat.le_refl _) rfl (fun _ => id)
      (fun _ => hup)
  | lost c hc hdown =>
    exact h.mono rfl id (fun _ => id) (fun _ => id) (Nat.le_refl _) rfl (fun _ => id) id
  | resumeBumped c t hc =>
    exact h.mono rfl id (fun _ => id) (fun _ => id) (Nat.le_succ _) rfl (fun _ => id) id
  | resumeStopped c t hc =>
    have hstop := dated_stop h s.timer
    exact ⟨hstop.unborn, hstop.dogs, hstop.bumped, hstop.stored, hstop.up⟩
  | resumed c t hc =>
    exact h.mono rfl id (fun _ => id) (fun _ => id) (Nat.le_refl _) rfl (fun _ => id) id
  | expired t ht => exact dated_dog h (by rw [ht]; decide)
  | passed t ht hgen => exact dated_dog h (by rw [ht]; decide)
  | superseded t ht hgen => exact dated_dog h (by rw [ht]; decide)
  | bit t ht hup =>
    exact h.mono rfl id (fun _ => id) (fun _ => id) (Nat.le_refl _) rfl
      (dog_setDog (s := s) (by rw [ht]; decide)) (fun _ => hup)
  | beaten t ht hdown => exact dated_dog h (by rw [ht]; decide)
  | forced t p ht =>
    exact h.mono rfl id (fun _ => id) (fun _ => id) (Nat.le_refl _) rfl
      (dog_setDog (s := s) (by rw [ht]; simp)) id

/-- A resume issued after the return of a pausing callback finds the flag still to be stored, or the
pause taken, or its flag up. -/
def Side.Aimed (s : Side) : Prop :=
  ∀ c t, s.target c = some t →
    s.winner t ≠ none ∨
      s.resume c = .issued ∧
        (s.phase.gap = true ∧ t = s.turn ∨ s.paused = true ∧ s.owner = t)

theorem Side.Aimed.dispatch (h : s.Aimed) {p : Phase} (hgap : s.phase.gap = true → p.gap = true) :
    Side.Aimed { s with phase := p } := by
  intro c t ht
  rcases h c t ht with hwon | ⟨hissued, ⟨hg, hturn⟩ | hup⟩
  · exact .inl hwon
  · exact .inr ⟨hissued, .inl ⟨hgap hg, hturn⟩⟩
  · exact .inr ⟨hissued, .inr hup⟩

theorem Side.Aimed.moved (h : s.Aimed) {c : ℕ} {q : Resume}
    (hwon : ∀ t, s.target c = some t → s.winner t ≠ none) : (s.setResume c q).Aimed := by
  intro j t ht
  by_cases hj : j = c
  · exact .inl (hwon t (by rw [← hj]; exact ht))
  · have hsame : (s.setResume c q).resume j = s.resume j := Function.update_of_ne hj ..
    rw [hsame]
    exact h j t ht

theorem Side.Aimed.past (h : s.Aimed) {c : ℕ} (hc : s.resume c ≠ .issued) (t : ℕ)
    (ht : s.target c = some t) : s.winner t ≠ none := by
  rcases h c t ht with hwon | ⟨hissued, -⟩
  · exact hwon
  · exact absurd hissued hc

theorem Side.Aimed.taken (h : s.Aimed) (who : Caller) (hheld : s.phase.gap = false) :
    (s.take who).Aimed := by
  intro c t ht
  have hset : (s.take who).winner = Function.update s.winner s.owner (some who) := rfl
  rw [hset]
  left
  by_cases hto : t = s.owner
  · rw [hto, Function.update_self]
    exact Option.some_ne_none who
  · rw [Function.update_of_ne hto]
    rcases h c t ht with hwon | ⟨-, ⟨hg, -⟩ | ⟨-, howner⟩⟩
    · exact hwon
    · rw [hheld] at hg
      cases hg
    · exact absurd howner.symm hto

theorem Side.Kept.not_gap (h : s.Kept) (hup : s.paused = true) : s.phase.gap = false := by
  have hheld := (h.up hup).1
  cases hp : s.phase with
  | returned arm => rw [hp] at hheld; simp [Phase.stage] at hheld
  | begun => rw [hp] at hheld; simp [Phase.stage] at hheld
  | bumped g => rw [hp] at hheld; simp [Phase.stage] at hheld
  | _ => rfl

theorem Side.Kept.aim (h : s.Kept) (hp : s.phase.gap = true ∨ s.phase.parking = true) :
    s.phase.gap = true ∨ s.paused = true ∨ s.winner s.turn ≠ none := by
  rcases hp with hgap | hparking
  · exact .inl hgap
  · right
    apply h.parking
    cases hp : s.phase with
    | stored g => rfl
    | armed => rfl
    | parked => rfl
    | _ =>
      rw [hp] at hparking
      cases hparking

theorem aimed_move (hk : s.Kept) (h : s.Aimed)
    (hsettled : ∀ c, e = .resumeSwap c → s.target c = some s.turn → s.phase.gap = false)
    (hm : Move s e s') : s'.Aimed := by
  cases hm with
  | still => exact h
  | entered arm hp =>
    intro c t ht
    rcases h c t ht with hwon | ⟨hissued, ⟨hg, -⟩ | hup⟩
    · exact .inl hwon
    · rw [hp] at hg
      cases hg
    · exact .inr ⟨hissued, .inr hup⟩
  | paused arm hp => exact h.dispatch (fun _ => rfl)
  | continued hp => exact h.dispatch (by simp [hp, Phase.gap])
  | disarms hp => exact h.dispatch (by simp [hp, Phase.gap])
  | begun arm hp => exact h.dispatch (fun _ => rfl)
  | skipped hp hup =>
    have hgap := hk.not_gap hup
    rw [hp] at hgap
    cases hgap
  | bumped hp => exact h.dispatch (p := .bumped (s.gen + 1)) (fun _ => rfl)
  | stored g hp =>
    intro c t ht
    rcases h c t ht with hwon | ⟨hissued, ⟨-, hturn⟩ | ⟨hup, -⟩⟩
    · exact .inl hwon
    · exact .inr ⟨hissued, .inr ⟨rfl, hturn.symm⟩⟩
    · have hgap := hk.not_gap hup
      rw [hp] at hgap
      cases hgap
  | armed g hp => exact h.dispatch (p := .armed) (by simp [hp, Phase.gap])
  | parked hp =>
    obtain ⟨dog, hdog⟩ := stopDog_eq s s.timer
    rw [hdog]
    exact h.dispatch (p := .parked) (by simp [hp, Phase.gap])
  | clear hp hdown => exact h.dispatch (by simp [hp, Phase.gap])
  | clearing hp hup => exact h.dispatch (by simp [hp, Phase.gap])
  | cleared hp => exact absurd (by rw [hp]; rfl) hk.calm
  | disarmed hp => exact absurd (by rw [hp]; rfl) hk.calm
  | unparked hp htoken => exact h.dispatch (p := .idle) (by simp [hp, Phase.gap])
  | aborted hp => exact h.dispatch (by simp [hp, Phase.gap])
  | destroyed hp =>
    obtain ⟨dog, hdog⟩ := stopDog_eq s s.timer
    rw [Side.takeTimer, hdog]
    refine h.dispatch (p := .over) ?_
    rcases hp with hp | hp
    · simp [hp, Phase.gap]
    · simp [hp, Phase.gap]
  | issued c hc =>
    intro j t ht
    by_cases hj : j = c
    · subst hj
      change Function.update s.target j _ j = some t at ht
      rw [Function.update_self] at ht
      split_ifs at ht with hset
      have hturn : s.turn = t := Option.some.inj ht
      subst hturn
      rcases hk.aim (by simpa using hset) with hgap | hup | hwon
      · exact .inr ⟨Function.update_self .., .inl ⟨hgap, rfl⟩⟩
      · exact .inr ⟨Function.update_self .., .inr ⟨hup, (hk.up hup).2.1⟩⟩
      · exact .inl hwon
    · have htarget : s.target j = some t := by
        rw [← ht]
        exact (Function.update_of_ne hj ..).symm
      have hsame : (s.setResume c .issued).resume j = s.resume j := Function.update_of_ne hj ..
      have hbefore := h j t htarget
      rw [← hsame] at hbefore
      exact hbefore
  | swapped c hc hup =>
    have htaken := h.taken (.guest c) (hk.not_gap hup)
    refine htaken.moved (fun t ht => ?_)
    rcases htaken c t ht with hwon | ⟨-, ⟨hg, -⟩ | ⟨hup', -⟩⟩
    · exact hwon
    · cases hg.symm.trans (hk.not_gap hup)
    · cases hup'
  | lost c hc hdown =>
    refine h.moved (fun t ht => ?_)
    rcases h c t ht with hwon | ⟨-, ⟨hg, hturn⟩ | ⟨hup, -⟩⟩
    · exact hwon
    · subst hturn
      cases hg.symm.trans (hsettled c rfl ht)
    · cases hup.symm.trans hdown
  | resumeBumped c t hc =>
    exact h.moved (q := .bumped t) (h.past (by rw [hc]; simp))
  | resumeStopped c t hc =>
    obtain ⟨dog, hdog⟩ := stopDog_eq s s.timer
    rw [Side.takeTimer, hdog]
    exact h.moved (q := .stopped t) (h.past (by rw [hc]; simp))
  | resumed c t hc => exact h.moved (q := .finished) (h.past (by rw [hc]; simp))
  | bit t ht hup => exact h.taken (.watchdog t) (hk.not_gap hup)
  | _ => exact h

def Side.Own (s : Side) : Prop := ∀ t w, s.winner t = some (.watchdog w) → w = t

theorem own_take (h : s.Own) {who : Caller} (hwho : ∀ w, who = .watchdog w → w = s.owner) :
    (s.take who).Own := by
  intro t w hw
  change Function.update s.winner s.owner (some who) t = _ at hw
  by_cases hto : t = s.owner
  · rw [hto, Function.update_self] at hw
    rw [hto]
    exact hwho w (Option.some.inj hw)
  · rw [Function.update_of_ne hto] at hw
    exact h t w hw

theorem own_move (hk : s.Kept) (hd : s.Dated) (h : s.Own)
    (hcurrent : ∀ t, e = .dogSwap t → s.dog t = .checked → s.paused = true → s.gen = s.dogGen t)
    (hm : Move s e s') : s'.Own := by
  cases hm with
  | swapped c hc hup => exact own_take h (fun w hw => by cases hw)
  | bit t ht hup =>
    refine own_take h (fun w hw => ?_)
    cases hw
    -- a watchdog of another pause would have an older generation
    by_contra hne
    have hgen := hcurrent t rfl ht hup
    have hlt := hd.up hup t (by rw [← (hk.up hup).2.1]; exact hne) (by rw [ht]; decide)
    omega
  | parked hp =>
    obtain ⟨dog, hdog⟩ := stopDog_eq s s.timer
    rw [hdog]
    exact h
  | disarmed hp => exact absurd (by rw [hp]; rfl) hk.calm
  | destroyed hp =>
    obtain ⟨dog, hdog⟩ := stopDog_eq s s.timer
    rw [Side.takeTimer, hdog]
    exact h
  | resumeStopped c t hc =>
    obtain ⟨dog, hdog⟩ := stopDog_eq s s.timer
    rw [Side.takeTimer, hdog]
    exact h
  | _ => exact h

theorem kept_new : Side.Kept {} := by
  refine ⟨by decide, (fun hup => by cases hup), (fun hs => by cases hs), (fun hs => by cases hs),
    (fun hs => by cases hs), (fun hs => by cases hs), fun _ _ => rfl, fun _ _ => rfl,
    fun _ => Nat.zero_le 1, ?_, (fun _ _ hw => by cases hw)⟩
  intro who t howes
  cases who with
  | guest c => simp [Side.owes, Resume.owes] at howes
  | watchdog w => cases howes

theorem dated_new : Side.Dated {} := by
  refine ⟨fun _ _ => rfl, ?_, (fun _ hg => by cases hg), (fun _ hg => by cases hg),
    (fun hup => by cases hup)⟩
  intro t ht
  exact absurd rfl ht

theorem step_sides {P : Side → Prop} {f : Filter} {e : Direction × Event} (h : ∀ d, P (f d))
    (hstep : P ((f e.1).step e.2)) (d : Direction) : P (step f e d) := by
  by_cases hd : d = e.1
  · subst hd
    rw [step, Function.update_self]
    exact hstep
  · rw [step, Function.update_of_ne hd]
    exact h d

def Sound (f : Filter) : Prop := ∀ d, (f d).Kept ∧ (f d).Dated

theorem sound_step (f : Filter) (e : Direction × Event) (h : Sound f) : Sound (step f e) := by
  refine step_sides (P := fun s => s.Kept ∧ s.Dated) h ?_
  obtain ⟨hk, hd⟩ := h e.1
  have hm := step_move (f e.1) e.2
  exact ⟨kept_move hk hd hm, dated_move hk hd hm⟩

theorem aimed_step (f : Filter) (e : Direction × Event) (hok : Settled f e)
    (h : Sound f ∧ ∀ d, (f d).Aimed) : Sound (step f e) ∧ ∀ d, (step f e d).Aimed := by
  refine ⟨sound_step f e h.1, step_sides h.2 ?_⟩
  refine aimed_move (h.1 e.1).1 (h.2 e.1) ?_ (step_move (f e.1) e.2)
  rintro c hc
  obtain ⟨d, e⟩ := e
  subst hc
  exact hok

theorem own_step (f : Filter) (e : Direction × Event) (hok : Current f e)
    (h : Sound f ∧ ∀ d, (f d).Own) : Sound (step f e) ∧ ∀ d, (step f e d).Own := by
  refine ⟨sound_step f e h.1, step_sides h.2 ?_⟩
  refine own_move (h.1 e.1).1 (h.1 e.1).2 (h.2 e.1) ?_ (step_move (f e.1) e.2)
  rintro t ht
  obtain ⟨d, e⟩ := e
  subst ht
  exact hok

theorem Side.Kept.released (h : s.Kept) (hrest : s.AtRest) (hwon : s.winner t ≠ none) :
    s.releases t = 1 := by
  cases hw : s.winner t with
  | none => exact absurd hw hwon
  | some who =>
    rcases h.paid who t hw with hone | howes
    · exact hone
    · cases who with
      | guest c =>
        obtain ⟨hswapped, hbumped, hstopped⟩ := hrest.1 c t
        rcases howes with howes | howes | howes
        · exact absurd howes hswapped
        · exact absurd howes hbumped
        · exact absurd howes hstopped
      | watchdog w => exact absurd howes (hrest.2 w t)

/-- On each side: a pause gets one `ContinueDecoding` at most, and one that got it finds the token
in its park.  A resume issued after the pausing callback returned has released its pause when the
calls are at rest, if none swaps before the flag is stored; and a watchdog releases its own pause
only, if its generation is still current when it swaps. -/
theorem pause_resume (es : List (Direction × Event)) (d : Direction) :
    (∀ t, (run es d).releases t ≤ 1) ∧
      ((run es d).phase = .parked → (run es d).releases (run es d).turn = 1 →
        (run es d).token = true) ∧
      (StepsMeet step Settled (fun _ => {}) es → (run es d).AtRest →
        ∀ c t, (run es d).target c = some t → (run es d).resume c = .finished →
          (run es d).releases t = 1) ∧
      (StepsMeet step Current (fun _ => {}) es →
        ∀ t w, (run es d).winner t = some (.watchdog w) → w = t) := by
  have hsound : Sound (run es) :=
    invariant_of_run sound_step es _ (fun _ => ⟨kept_new, dated_new⟩)
  obtain ⟨hkept, -⟩ := hsound d
  refine ⟨hkept.once, ?_, ?_, ?_⟩
  · intro hp
    exact hkept.told (by rw [hp]; rfl)
  · intro hes hrest c t ht hc
    have haimed : (run es d).Aimed :=
      (invariant_of_steps aimed_step es _
        ⟨fun _ => ⟨kept_new, dated_new⟩, (fun _ _ _ ht => by cases ht)⟩ hes).2 d
    exact hkept.released hrest (haimed.past (by rw [hc]; simp) t ht)
  · intro hes
    exact (invariant_of_steps own_step es _
      ⟨fun _ => ⟨kept_new, dated_new⟩, (fun _ _ _ hw => by cases hw)⟩ hes).2 d

def pausing : List Event :=
  [.enter .plain, .ret true, .advance, .advance, .advance, .advance, .advance]

def resuming (c : ℕ) : List Event :=
  [.issue c, .resumeSwap c, .resumeBump c, .resumeStop c, .resumeSignal c, .unpark]

def forcing (t : ℕ) : List Event := [.expire t, .dogCheck t, .dogSwap t, .dogSignal t]

/-- The guest resumes the first pause, and the watchdog of the second one ends that. -/
def resumedThenForced : List (Direction × Event) :=
  (pausing ++ resuming 0 ++ pausing ++ forcing 2).map (Prod.mk .decode)

theorem resume_resumedThenForced :
    (run resumedThenForced .decode).resume = Function.update (fun _ => .idle) 0 .finished := by
  have hrun : (run resumedThenForced .decode).resume =
      Function.update (Function.update (Function.update (Function.update (Function.update
        (fun _ => .idle) 0 .issued) 0 (.swapped 1)) 0 (.bumped 1)) 0 (.stopped 1)) 0 .finished :=
    rfl
  rw [hrun]
  simp only [Function.update_idem]

theorem dog_resumedThenForced :
    (run resumedThenForced .decode).dog =
      Function.update (Function.update (fun _ => .absent) 1 .finished) 2 .finished := by
  have hrun : (run resumedThenForced .decode).dog =
      Function.update (Function.update (Function.update (Function.update (Function.update
        (Function.update (Function.update (fun _ => .absent) 1 .pending) 1 .finished)
          2 .pending) 2 .entered) 2 .checked) 2 (.swapped 2)) 2 .finished := rfl
  rw [hrun]
  simp only [Function.update_idem]

theorem pause_resume_resumedThenForced :
    StepsMeet step Settled (fun _ => {}) resumedThenForced ∧
      StepsMeet step Current (fun _ => {}) resumedThenForced ∧
      (run resumedThenForced .decode).AtRest ∧
      (run resumedThenForced .decode).releases 1 = 1 ∧
      ∀ t w, (run resumedThenForced .decode).winner t = some (.watchdog w) → w = t := by
  have hsettled : StepsMeet step Settled (fun _ => {}) resumedThenForced := by
    refine ⟨trivial, trivial, trivial, trivial, trivial, trivial, trivial, trivial,
      fun _ => rfl, trivial, trivial, trivial, trivial, trivial, trivial, trivial, trivial, trivial,
      trivial, trivial, trivial, trivial, trivial, trivial, trivial⟩
  have hcurrent : StepsMeet step Current (fun _ => {}) resumedThenForced := by
    refine ⟨trivial, trivial, trivial, trivial, trivial, trivial, trivial, trivial,
      trivial, trivial, trivial, trivial, trivial, trivial, trivial, trivial, trivial, trivial,
      trivial, trivial, trivial, trivial, fun _ _ => rfl, trivial, trivial⟩
  have hrest : (run resumedThenForced .decode).AtRest := by
    rw [Side.AtRest, resume_resumedThenForced, dog_resumedThenForced]
    refine ⟨fun c t => ?_, fun w t => ?_⟩
    · simp only [Function.update_apply]
      split_ifs
      · simp
      · simp
    · simp only [Function.update_apply]
      split_ifs
      · simp
      · simp
      · simp
  obtain ⟨-, -, hreleased, hown⟩ := pause_resume resumedThenForced .decode
  exact ⟨hsettled, hcurrent, hrest, hreleased hsettled hrest 0 1 rfl rfl, hown hcurrent⟩

/-- A resume between the return of the callback and the store of the flag is lost, and a watchdog
of the first pause that passed its check before the guest resumed that releases the second. -/
theorem not_pause_resume :
    ¬ (∀ (es : List (Direction × Event)) (d : Direction), (run es d).AtRest →
        ∀ c t, (run es d).target c = some t → (run es d).resume c = .finished →
          (run es d).releases t = 1) ∧
      ¬ ∀ (es : List (Direction × Event)) (d : Direction) (t w : ℕ),
        (run es d).winner t = some (.watchdog w) → w = t := by
  refine ⟨fun h => ?_, fun h => ?_⟩
  · have hlost := h ([Event.enter .plain, .ret true, .issue 0, .resumeSwap 0, .advance, .advance,
      .advance, .advance, .advance].map (Prod.mk .decode)) .decode
      ⟨fun c t => ?_, fun w t => ?_⟩ 0 1 rfl rfl
    · cases hlost
    · change Function.update (Function.update (fun _ => Resume.idle) 0 .issued) 0 .finished c ≠ _ ∧
        Function.update (Function.update (fun _ => Resume.idle) 0 .issued) 0 .finished c ≠ _ ∧
        Function.update (Function.update (fun _ => Resume.idle) 0 .issued) 0 .finished c ≠ _
      simp only [Function.update_apply]
      split_ifs
      · simp
      · simp
    · change Function.update (fun _ => Watchdog.absent) 1 .pending w ≠ _
      simp only [Function.update_apply]
      split_ifs
      · simp
      · simp
  · have hstale := h ((pausing ++ [Event.expire 1, Event.dogCheck 1] ++ resuming 0 ++ pausing ++
      [Event.dogSwap 1, Event.dogSignal 1]).map (Prod.mk .decode)) .decode 2 1 rfl
    cases hstale

end EnvoyGo.WasmPause

import EnvoyGo.Outlier
import EnvoyGo.Runs
import EnvoyGo.Tally

/-!
The interval windows of the hosts under concurrent requests and sweeps.  A request adds to the total
and then to the successes; a sweep, run by the one goroutine of the detector, swaps the total of an
endpoint's host and then its successes.
-/

namespace EnvoyGo.OutlierWindow

open ClusterHealth Outlier Runs Tally

/-- A `record` call.  `counted` has added to the total of its host and has a success to add; `g` is
bookkeeping of the model: how often the total had been swapped before. -/
inductive Record
  | idle
  | counted (a : String) (g : Nat)
  | finished
  deriving DecidableEq

/-- The sweep: between two endpoints, or between the two swaps of a host with the total `t` in
hand.  `f` is bookkeeping of the model: the failed requests in that total. -/
inductive Sweeper
  | idle
  | taking (todo : List Endpoint) (rows : List HostWindow)
  | between (a : String) (t : UInt64) (f : Nat) (todo : List Endpoint) (rows : List HostWindow)

/-- The counters of the hosts and the calls on them.  `snapshot` holds the rows of all sweeps that
are over, `detected` the hosts that the failure_percentage detector has gone on to eject.  The last
three fields are bookkeeping of the model: total swaps of a host, failed requests in its current
total, and whether any request to it was ever recorded as failed. -/
structure Windows where
  intervalTotal : String → UInt64 := fun _ => 0
  intervalSuccess : String → UInt64 := fun _ => 0
  next : Nat := 0
  records : Nat → Record := fun _ => .idle
  sweeper : Sweeper := .idle
  snapshot : List HostWindow := []
  detected : List String := []
  swaps : String → Nat := fun _ => 0
  fails : String → Nat := fun _ => 0
  failed : String → Bool := fun _ => false

inductive Event
  | record (a : String) (success : Bool)
  | addSuccess (r : Nat)
  | sweep

def addTotal (s : Windows) (a : String) (success : Bool) : Windows :=
  let s := { s with intervalTotal := Function.update s.intervalTotal a (s.intervalTotal a + 1) }
  if success then
    { s with records := Function.update s.records s.next (.counted a (s.swaps a))
             next := s.next + 1 }
  else
    { s with records := Function.update s.records s.next .finished
             next := s.next + 1
             fails := Function.update s.fails a (s.fails a + 1)
             failed := Function.update s.failed a true }

/-- `intervalSuccess.Add(1)`. -/
def addSuccess (s : Windows) (r : Nat) (a : String) : Windows :=
  { s with intervalSuccess := Function.update s.intervalSuccess a (s.intervalSuccess a + 1)
           records := Function.update s.records r .finished }

def detect (cfg : OutlierConfig) (rows : List HostWindow) : List HostWindow :=
  if (eligible cfg.failurePctReqVolume rows).length < cfg.failurePctMinHosts then []
  else (eligible cfg.failurePctReqVolume rows).filter (failurePercentageReached cfg)

def swapTotal (s : Windows) (a : String) (todo : List Endpoint) (rows : List HostWindow) :
    Windows :=
  { s with sweeper := .between a (s.intervalTotal a) (s.fails a) todo rows
           intervalTotal := Function.update s.intervalTotal a 0
           swaps := Function.update s.swaps a (s.swaps a + 1)
           fails := Function.update s.fails a 0 }

def swapSuccess (s : Windows) (a : String) (t : UInt64) (todo : List Endpoint)
    (rows : List HostWindow) : Windows :=
  { s with sweeper := .taking todo (rows ++ [⟨a, t, s.intervalSuccess a⟩])
           intervalSuccess := Function.update s.intervalSuccess a 0 }

def finishSweep (cfg : OutlierConfig) (s : Windows) (rows : List HostWindow) : Windows :=
  { s with sweeper := .idle
           snapshot := s.snapshot ++ rows
           detected := s.detected ++ (detect cfg rows).map HostWindow.addr }

def sweepStep (cfg : OutlierConfig) (eps : List Endpoint) (s : Windows) : Windows :=
  match s.sweeper with
  | .idle => { s with sweeper := .taking eps [] }
  | .taking (ep :: todo) rows => swapTotal s ep.addr todo rows
  | .between a t _ todo rows => swapSuccess s a t todo rows
  | .taking [] rows => finishSweep cfg s rows

/-- A request to an unknown host is not recorded. -/
def step (cfg : OutlierConfig) (eps : List Endpoint) (s : Windows) : Event → Windows
  | .record a success => if a ∈ eps.map Endpoint.addr then addTotal s a success else s
  | .addSuccess r =>
    match s.records r with
    | .counted a _ => addSuccess s r a
    | _ => s
  | .sweep => sweepStep cfg eps s

/-- No row has more successes than requests, and no host without a failed request is ejected. -/
structure Sane (s : Windows) : Prop where
  rows : ∀ row ∈ s.snapshot, row.success ≤ row.total
  detected : ∀ a ∈ s.detected, s.failed a = true

def Sweeper.half : Sweeper → String → Option (UInt64 × Nat)
  | .between b t f _ _, a => if b = a then some (t, f) else none
  | _, _ => none

/-- No request straddles a sweep: a success is not added between the swaps of its host unless its
request was in the swapped total, and the successes are not swapped while a request in the swapped
total has its success to add.  And windows stay below `2 ^ 57` requests. -/
def NoneStraddles (s : Windows) : Event → Prop
  | .record a _ => (s.intervalTotal a).toNat + 1 < 2 ^ 57
  | .addSuccess r => ∀ a g, s.records r = .counted a g → s.sweeper.half a ≠ none → g < s.swaps a
  | .sweep => ∀ a, s.sweeper.half a ≠ none → ∀ r g, s.records r = .counted a g → g = s.swaps a

/-- The requests of a host and a swap count that have their success to add. -/
def pending (s : Windows) (a : String) (g : Nat) : ℤ :=
  tally s.next fun r => if s.records r = .counted a g then 1 else 0

structure RowOk (s : Windows) (row : HostWindow) : Prop where
  small : row.total.toNat < 2 ^ 57
  le : row.success ≤ row.total
  eq : row.success = row.total ∨ s.failed row.addr = true

def Sweeper.rows : Sweeper → List HostWindow
  | .idle => []
  | .taking _ rows => rows
  | .between _ _ _ _ rows => rows

structure Inv (s : Windows) : Prop where
  fresh : ∀ r, s.next ≤ r → s.records r = .idle
  current : ∀ r a g, s.records r = .counted a g →
    g = s.swaps a ∨ s.sweeper.half a ≠ none ∧ g + 1 = s.swaps a
  whole : ∀ a, s.sweeper.half a = none → ((s.intervalTotal a).toNat : ℤ) =
    (s.intervalSuccess a).toNat + pending s a (s.swaps a) + s.fails a
  split : ∀ a t f, s.sweeper.half a = some (t, f) → 0 < s.swaps a ∧ t.toNat < 2 ^ 57 ∧
    (t.toNat : ℤ) = (s.intervalSuccess a).toNat + pending s a (s.swaps a - 1) + f ∧
    ((s.intervalTotal a).toNat : ℤ) = pending s a (s.swaps a) + s.fails a ∧
    (0 < f → s.failed a = true)
  small : ∀ a, (s.intervalTotal a).toNat < 2 ^ 57
  fails : ∀ a, 0 < s.fails a → s.failed a = true
  taken : ∀ row ∈ s.sweeper.rows, RowOk s row
  sane : Sane s

theorem toNat_succ {n : UInt64} (h : n.toNat + 1 < 2 ^ 57) : (n + 1).toNat = n.toNat + 1 := by
  rw [UInt64.toNat_add]
  exact Nat.mod_eq_of_lt (h.trans (by decide))

theorem pending_eq_zero {s : Windows} {a : String} {g : Nat}
    (h : ∀ r, s.records r ≠ .counted a g) : pending s a g = 0 := by
  have hzero : pending s a g = tally s.next (fun _ => 0) :=
    tally_congr fun r _ => if_neg (h r)
  rw [hzero]
  exact Finset.sum_const_zero

theorem pending_push (s : Windows) (p : Record) (a : String) (g : Nat) :
    tally (s.next + 1) (fun r => if Function.update s.records s.next p r = .counted a g
      then 1 else 0) = pending s a g + if p = .counted a g then 1 else 0 := by
  rw [tally_succ, Function.update_self]
  refine congrArg (· + _) (tally_congr ?_)
  intro r hr
  rw [Function.update_of_ne (Nat.ne_of_lt hr)]

theorem pending_addSuccess {s : Windows} {r : Nat} {b : String} {k : Nat} (hr : r < s.next)
    (hrec : s.records r = .counted b k) (a : String) (g : Nat) :
    pending (addSuccess s r b) a g = pending s a g - if b = a ∧ k = g then 1 else 0 := by
  have hmove := tally_replace (n := s.next) (i := r)
    (w := fun i => if s.records i = .counted a g then 1 else 0)
    (v := fun i => if Function.update s.records r .finished i = .counted a g then 1 else 0) hr
    (fun j hj => by rw [Function.update_of_ne hj])
  refine hmove.trans ?_
  rw [Function.update_self, hrec]
  simp only [Record.counted.injEq, reduceCtorEq, if_false]
  rw [Int.zero_sub]
  exact Int.sub_eq_add_neg.symm

theorem one_le_pending {s : Windows} {r : Nat} {a : String} {g : Nat} (hr : r < s.next)
    (hrec : s.records r = .counted a g) : 1 ≤ pending s a g := by
  have hle := le_tally (n := s.next) (i := r)
    (w := fun i => if s.records i = .counted a g then 1 else 0)
    (fun i => by split_ifs <;> omega) hr
  rw [if_pos hrec] at hle
  exact hle

section AddTotal

variable {s : Windows} {a : String} {ok : Bool}

@[simp] theorem addTotal_sweeper : (addTotal s a ok).sweeper = s.sweeper := by cases ok <;> rfl

@[simp] theorem addTotal_swaps : (addTotal s a ok).swaps = s.swaps := by cases ok <;> rfl

@[simp] theorem addTotal_intervalSuccess :
    (addTotal s a ok).intervalSuccess = s.intervalSuccess := by cases ok <;> rfl

@[simp] theorem addTotal_snapshot : (addTotal s a ok).snapshot = s.snapshot := by
  cases ok <;> rfl

@[simp] theorem addTotal_detected : (addTotal s a ok).detected = s.detected := by
  cases ok <;> rfl

theorem toNat_addTotal (hsmall : (s.intervalTotal a).toNat + 1 < 2 ^ 57) (b : String) :
    ((addTotal s a ok).intervalTotal b).toNat =
      (s.intervalTotal b).toNat + if a = b then 1 else 0 := by
  have htotal : (addTotal s a ok).intervalTotal =
      Function.update s.intervalTotal a (s.intervalTotal a + 1) := by cases ok <;> rfl
  rw [htotal, Function.update_apply]
  by_cases hb : b = a
  · rw [if_pos hb, if_pos hb.symm, toNat_succ hsmall, hb]
  · rw [if_neg hb, if_neg (Ne.symm hb)]
    rfl

theorem pending_addTotal (b : String) (g : Nat) :
    pending (addTotal s a ok) b g =
      pending s b g + if ok = true ∧ a = b ∧ s.swaps a = g then 1 else 0 := by
  cases ok with
  | true =>
    have hpush := pending_push s (.counted a (s.swaps a)) b g
    refine hpush.trans (congrArg _ (if_congr ?_ rfl rfl))
    rw [Record.counted.injEq]
    exact (and_iff_right rfl).symm
  | false =>
    have hpush := pending_push s .finished b g
    refine hpush.trans (congrArg _ (if_congr ?_ rfl rfl))
    exact iff_of_false (fun he => by cases he) (fun hc => by cases hc.1)

theorem fails_addTotal (b : String) :
    (addTotal s a ok).fails b = s.fails b + if ok = false ∧ a = b then 1 else 0 := by
  cases ok with
  | true =>
    rw [if_neg (fun hc => by cases hc.1)]
    rfl
  | false =>
    refine (Function.update_apply _ _ _ _).trans ?_
    by_cases hb : b = a
    · rw [if_pos hb, if_pos ⟨rfl, hb.symm⟩, hb]
    · rw [if_neg hb, if_neg (fun hc => hb hc.2.symm)]
      rfl

theorem failed_addTotal {b : String} (h : s.failed b = true) :
    (addTotal s a ok).failed b = true := by
  cases ok with
  | true => exact h
  | false =>
    refine (Function.update_apply _ _ _ _).trans ?_
    split_ifs
    · rfl
    · exact h

theorem failed_addTotal_self (hok : ok = false) : (addTotal s a ok).failed a = true := by
  subst hok
  exact Function.update_self a true s.failed

theorem records_addTotal {r : Nat} {b : String} {g : Nat}
    (hrec : (addTotal s a ok).records r = .counted b g) :
    s.records r = .counted b g ∨ a = b ∧ s.swaps a = g := by
  have hnew : ∀ p, Function.update s.records s.next p r = .counted b g →
      s.records r = .counted b g ∨ p = .counted b g := by
    intro p hp
    rw [Function.update_apply] at hp
    split_ifs at hp
    · exact .inr hp
    · exact .inl hp
  cases ok with
  | true => exact (hnew _ hrec).imp_right Record.counted.inj
  | false => exact (hnew _ hrec).imp_right (fun he => by cases he)

theorem fresh_addTotal (h : ∀ r, s.next ≤ r → s.records r = .idle) (r : Nat)
    (hr : (addTotal s a ok).next ≤ r) : (addTotal s a ok).records r = .idle := by
  have hle : s.next + 1 ≤ r := by
    cases ok <;> exact hr
  have hold : ∀ p, Function.update s.records s.next p r = .idle := fun p =>
    (Function.update_of_ne (Nat.ne_of_gt hle) p s.records).trans (h r (Nat.le_of_succ_le hle))
  cases ok <;> exact hold _

end AddTotal

theorem not_failurePercentageReached {cfg : OutlierConfig} {row : HostWindow}
    (hpos : 0 < cfg.failurePctThreshold) (hmax : cfg.failurePctThreshold ≤ 100)
    (htotal : row.total ≠ 0) (hsmall : row.total.toNat < 2 ^ 57)
    (heq : row.success = row.total) : failurePercentageReached cfg row = false := by
  have hp : 0 < cfg.failurePctThreshold.toNat := UInt64.lt_iff_toNat_lt.mp hpos
  have hm : cfg.failurePctThreshold.toNat ≤ 100 := UInt64.le_iff_toNat_le.mp hmax
  have ht : 0 < row.total.toNat := by
    rw [Nat.pos_iff_ne_zero]
    exact fun hzero => htotal (UInt64.toNat_inj.mp hzero)
  have hfits : cfg.failurePctThreshold.toNat * row.total.toNat < 2 ^ 64 := by
    calc cfg.failurePctThreshold.toNat * row.total.toNat
        ≤ 100 * row.total.toNat := Nat.mul_le_mul_right _ hm
      _ < 2 ^ 64 := by omega
  have hprod : (cfg.failurePctThreshold * row.total).toNat =
      cfg.failurePctThreshold.toNat * row.total.toNat := by
    rw [UInt64.toNat_mul]
    exact Nat.mod_eq_of_lt hfits
  unfold failurePercentageReached
  rw [decide_eq_false_iff_not, heq, UInt64.sub_self, UInt64.zero_mul, UInt64.le_iff_toNat_le,
    hprod]
  exact Nat.not_le.mpr (Nat.mul_pos hp ht)

theorem failed_of_detect {cfg : OutlierConfig} {s : Windows} {rows : List HostWindow}
    (hpos : 0 < cfg.failurePctThreshold) (hmax : cfg.failurePctThreshold ≤ 100)
    (hrows : ∀ row ∈ rows, RowOk s row) {row : HostWindow} (hrow : row ∈ detect cfg rows) :
    s.failed row.addr = true := by
  unfold detect at hrow
  split_ifs at hrow
  · cases hrow
  · obtain ⟨hel, hreached⟩ := List.mem_filter.mp hrow
    obtain ⟨hmem, hvolume⟩ := List.mem_filter.mp hel
    have htotal : row.total ≠ 0 := by
      simp only [Bool.and_eq_true, bne_iff_ne] at hvolume
      exact hvolume.1
    have hok := hrows row hmem
    rcases hok.eq with heq | hfailed
    · rw [not_failurePercentageReached hpos hmax htotal hok.small heq] at hreached
      cases hreached
    · exact hfailed

namespace Inv

variable {s : Windows} {a : String}

theorem lt_next (h : Inv s) {r : Nat} {g : Nat} (hrec : s.records r = .counted a g) :
    r < s.next := by
  by_contra hge
  rw [h.fresh r (Nat.le_of_not_lt hge)] at hrec
  cases hrec

theorem addTotal (h : Inv s) (hsmall : (s.intervalTotal a).toNat + 1 < 2 ^ 57) (ok : Bool) :
    Inv (addTotal s a ok) := by
  have hcount : ∀ b, ((OutlierWindow.addTotal s a ok).intervalTotal b).toNat +
      pending s b (s.swaps b) + s.fails b = (s.intervalTotal b).toNat +
      pending (OutlierWindow.addTotal s a ok) b (s.swaps b) +
      (OutlierWindow.addTotal s a ok).fails b := by
    intro b
    rw [toNat_addTotal hsmall, pending_addTotal, fails_addTotal]
    by_cases hb : a = b
    · subst hb
      cases ok <;> simp <;> omega
    · simp [hb]
  refine ⟨?_, ?_, ?_, ?_, ?_, ?_, ?_, ?_, ?_⟩
  · exact fresh_addTotal h.fresh
  · intro r b g hrec
    rw [addTotal_swaps, addTotal_sweeper]
    rcases records_addTotal hrec with hold | ⟨rfl, rfl⟩
    · exact h.current r b g hold
    · exact .inl rfl
  · intro b hb
    rw [addTotal_sweeper] at hb
    have hwhole := h.whole b hb
    have hb' := hcount b
    rw [addTotal_swaps, addTotal_intervalSuccess]
    omega
  · intro b t f hb
    rw [addTotal_sweeper] at hb
    obtain ⟨hpos, hlt, htaken, hnew, hfail⟩ := h.split b t f hb
    have hb' := hcount b
    have hold : pending (OutlierWindow.addTotal s a ok) b (s.swaps b - 1) =
        pending s b (s.swaps b - 1) := by
      rw [pending_addTotal, if_neg, add_zero]
      rintro ⟨-, rfl, hs⟩
      omega
    rw [addTotal_swaps, addTotal_intervalSuccess, hold]
    exact ⟨hpos, hlt, htaken, by omega, fun hf => failed_addTotal (hfail hf)⟩
  · intro b
    have hb := h.small b
    rw [toNat_addTotal hsmall]
    split_ifs with hab
    · rw [← hab]
      exact hsmall
    · exact hb
  · intro b hb
    rw [fails_addTotal] at hb
    by_cases hnew : ok = false ∧ a = b
    · exact hnew.2 ▸ failed_addTotal_self hnew.1
    · rw [if_neg hnew] at hb
      exact failed_addTotal (h.fails b hb)
  · intro row hrow
    rw [addTotal_sweeper] at hrow
    obtain ⟨hlt, hle, heq⟩ := h.taken row hrow
    exact ⟨hlt, hle, heq.imp_right failed_addTotal⟩
  · intro row hrow
    rw [addTotal_snapshot] at hrow
    exact h.sane.rows row hrow
  · intro b hb
    rw [addTotal_detected] at hb
    exact failed_addTotal (h.sane.detected b hb)

section

variable (h : Inv s) {r g : Nat} (hrec : s.records r = .counted a g)

include h hrec

theorem eq_of_whole (hhalf : s.sweeper.half a = none) : g = s.swaps a :=
  (h.current r a g hrec).resolve_right fun hc => hc.1 hhalf

theorem eq_of_split (hg : s.sweeper.half a ≠ none → g < s.swaps a) {tf : UInt64 × Nat}
    (hhalf : s.sweeper.half a = some tf) : g + 1 = s.swaps a := by
  have hlt : g < s.swaps a := hg (hhalf ▸ Option.some_ne_none tf)
  rcases h.current r a g hrec with hcur | ⟨-, hcur⟩
  · exact absurd hcur (Nat.ne_of_lt hlt)
  · exact hcur

theorem success_lt (hg : s.sweeper.half a ≠ none → g < s.swaps a) :
    (s.intervalSuccess a).toNat + 1 < 2 ^ 57 := by
  have hpend := one_le_pending (h.lt_next hrec) hrec
  cases hhalf : s.sweeper.half a with
  | none =>
    rw [h.eq_of_whole hrec hhalf] at hpend
    have hwhole := h.whole a hhalf
    have hsmall := h.small a
    omega
  | some tf =>
    obtain ⟨hpos, hlt, htaken, -, -⟩ := h.split a tf.1 tf.2 hhalf
    rw [Nat.eq_sub_of_add_eq (h.eq_of_split hrec hg hhalf)] at hpend
    omega

theorem addSuccess (hg : s.sweeper.half a ≠ none → g < s.swaps a) : Inv (addSuccess s r a) := by
  have hr := h.lt_next hrec
  have hsucc : ∀ b, ((OutlierWindow.addSuccess s r a).intervalSuccess b).toNat =
      (s.intervalSuccess b).toNat + if a = b then 1 else 0 := by
    intro b
    refine (congrArg UInt64.toNat (Function.update_apply _ _ _ _)).trans ?_
    by_cases hb : b = a
    · rw [if_pos hb, if_pos hb.symm, hb, toNat_succ (h.success_lt hrec hg)]
    · rw [if_neg hb, if_neg (Ne.symm hb)]
      rfl
  have hpend := pending_addSuccess hr hrec
  have hrecs : ∀ i b k, (OutlierWindow.addSuccess s r a).records i = .counted b k →
      s.records i = .counted b k := by
    intro i b k hi
    have hup : Function.update s.records r .finished i = .counted b k := hi
    rw [Function.update_apply] at hup
    split_ifs at hup
    exact hup
  refine ⟨?_, fun i b k hi => h.current i b k (hrecs i b k hi), ?_, ?_, h.small, h.fails, ?_,
    ⟨h.sane.rows, h.sane.detected⟩⟩
  · intro i hi
    refine (Function.update_of_ne ?_ _ _).trans (h.fresh i hi)
    exact Nat.ne_of_gt (Nat.lt_of_lt_of_le hr hi)
  · intro b hb
    have hwhole := h.whole b hb
    rw [hsucc, hpend]
    by_cases hab : a = b
    · subst hab
      rw [if_pos rfl, if_pos ⟨rfl, h.eq_of_whole hrec hb⟩]
      change ((s.intervalTotal a).toNat : ℤ) =
        ((s.intervalSuccess a).toNat + 1 : ℕ) + (pending s a (s.swaps a) - 1) + s.fails a
      omega
    · rw [if_neg hab, if_neg (fun hc => hab hc.1)]
      change ((s.intervalTotal b).toNat : ℤ) =
        ((s.intervalSuccess b).toNat + 0 : ℕ) + (pending s b (s.swaps b) - 0) + s.fails b
      omega
  · intro b t f hb
    obtain ⟨hpos, hlt, htaken, hnew, hfail⟩ := h.split b t f hb
    refine ⟨hpos, hlt, ?_, ?_, hfail⟩
    · rw [hsucc, hpend]
      change (t.toNat : ℤ) = ((s.intervalSuccess b).toNat + (if a = b then 1 else 0) : ℕ) +
        (pending s b (s.swaps b - 1) - if a = b ∧ g = s.swaps b - 1 then 1 else 0) + f
      by_cases hab : a = b
      · subst hab
        have hold : g + 1 = s.swaps a := h.eq_of_split hrec hg hb
        rw [if_pos rfl, if_pos ⟨rfl, Nat.eq_sub_of_add_eq hold⟩]
        omega
      · rw [if_neg hab, if_neg (fun hc => hab hc.1)]
        omega
    · rw [hpend]
      change ((s.intervalTotal b).toNat : ℤ) =
        (pending s b (s.swaps b) - if a = b ∧ g = s.swaps b then 1 else 0) + s.fails b
      rw [if_neg, sub_zero]
      · exact hnew
      · rintro ⟨rfl, hcur⟩
        have hold : g + 1 = s.swaps a := h.eq_of_split hrec hg hb
        omega
  · intro row hrow
    obtain ⟨hlt, hle, heq⟩ := h.taken row hrow
    exact ⟨hlt, hle, heq⟩

end

theorem startSweep (h : Inv s) (hidle : s.sweeper = .idle) (eps : List Endpoint) :
    Inv { s with sweeper := .taking eps [] } := by
  have hhalf : ∀ b, s.sweeper.half b = none := by
    intro b
    rw [hidle]
    rfl
  refine ⟨h.fresh, ?_, fun b _ => h.whole b (hhalf b), ?_, h.small, h.fails, ?_,
    ⟨h.sane.rows, h.sane.detected⟩⟩
  · intro r b g hrec
    exact .inl (h.eq_of_whole hrec (hhalf b))
  · intro b t f hb
    cases hb
  · intro row hrow
    cases hrow

theorem swapTotal (h : Inv s) {ep : Endpoint} {todo : List Endpoint} {rows : List HostWindow}
    (hat : s.sweeper = .taking (ep :: todo) rows) :
    Inv (swapTotal s a todo rows) := by
  have hhalf : ∀ b, s.sweeper.half b = none := by
    intro b
    rw [hat]
    rfl
  have hnext : ∀ b, (OutlierWindow.swapTotal s a todo rows).sweeper.half b =
      if a = b then some (s.intervalTotal a, s.fails a) else none := fun _ => rfl
  have hswaps : ∀ b, (OutlierWindow.swapTotal s a todo rows).swaps b =
      if b = a then s.swaps a + 1 else s.swaps b := fun _ => Function.update_apply _ _ _ _
  have htotal : ∀ b, (OutlierWindow.swapTotal s a todo rows).intervalTotal b =
      if b = a then 0 else s.intervalTotal b := fun _ => Function.update_apply _ _ _ _
  have hfails : ∀ b, (OutlierWindow.swapTotal s a todo rows).fails b =
      if b = a then 0 else s.fails b := fun _ => Function.update_apply _ _ _ _
  refine ⟨h.fresh, ?_, ?_, ?_, ?_, ?_, ?_, ⟨h.sane.rows, h.sane.detected⟩⟩
  · intro r b g hrec
    have hcur : g = s.swaps b := h.eq_of_whole hrec (hhalf b)
    rw [hnext, hswaps]
    by_cases hb : b = a
    · rw [if_pos hb, if_pos hb.symm, hcur, hb]
      exact .inr ⟨Option.some_ne_none _, rfl⟩
    · rw [if_neg hb]
      exact .inl hcur
  · intro b hb
    rw [hnext] at hb
    have hne : b ≠ a := by
      rintro rfl
      rw [if_pos rfl] at hb
      cases hb
    rw [htotal, hswaps, hfails, if_neg hne, if_neg hne, if_neg hne]
    exact h.whole b (hhalf b)
  · intro b t f hb
    rw [hnext] at hb
    by_cases hab : a = b
    · subst hab
      rw [if_pos rfl] at hb
      obtain ⟨rfl, rfl⟩ := Prod.mk.inj (Option.some.inj hb)
      rw [hswaps, htotal, hfails, if_pos rfl, if_pos rfl, if_pos rfl]
      have hempty : pending (OutlierWindow.swapTotal s a todo rows) a (s.swaps a + 1) = 0 := by
        apply pending_eq_zero
        intro r hrec
        have hcur : s.swaps a + 1 = s.swaps a := h.eq_of_whole hrec (hhalf a)
        omega
      refine ⟨Nat.succ_pos _, h.small a, h.whole a (hhalf a), ?_, h.fails a⟩
      rw [hempty]
      rfl
    · rw [if_neg hab] at hb
      cases hb
  · intro b
    rw [htotal]
    split_ifs
    · decide
    · exact h.small b
  · intro b hb
    rw [hfails] at hb
    split_ifs at hb
    · cases hb
    · exact h.fails b hb
  · intro row hrow
    have hold : row ∈ s.sweeper.rows := by
      rw [hat]
      exact hrow
    obtain ⟨hlt, hle, heq⟩ := h.taken row hold
    exact ⟨hlt, hle, heq⟩

theorem swapSuccess (h : Inv s) {t : UInt64} {f : Nat} {todo : List Endpoint}
    {rows : List HostWindow} (hbetween : s.sweeper = .between a t f todo rows)
    (hnone : ∀ r g, s.records r = .counted a g → g = s.swaps a) :
    Inv (swapSuccess s a t todo rows) := by
  have hhalf : ∀ b, s.sweeper.half b = if a = b then some (t, f) else none := by
    intro b
    rw [hbetween]
    rfl
  have hself : s.sweeper.half a = some (t, f) := (hhalf a).trans (if_pos rfl)
  have hother : ∀ b, a ≠ b → s.sweeper.half b = none := fun b hb => (hhalf b).trans (if_neg hb)
  have hsucc : ∀ b, (OutlierWindow.swapSuccess s a t todo rows).intervalSuccess b =
      if b = a then 0 else s.intervalSuccess b := fun _ => Function.update_apply _ _ _ _
  obtain ⟨hpos, hlt, htaken, hnew, hfail⟩ := h.split a t f hself
  have hempty : pending s a (s.swaps a - 1) = 0 := by
    apply pending_eq_zero
    intro r hrec
    have hcur := hnone r _ hrec
    omega
  rw [hempty] at htaken
  refine ⟨h.fresh, ?_, ?_, fun b t f hb => (by cases hb), h.small, h.fails, ?_,
    ⟨h.sane.rows, h.sane.detected⟩⟩
  · intro r b g hrec
    by_cases hab : a = b
    · subst hab
      exact .inl (hnone r g hrec)
    · exact .inl (h.eq_of_whole hrec (hother b hab))
  · intro b _
    rw [hsucc]
    by_cases hab : b = a
    · subst hab
      rw [if_pos rfl]
      refine hnew.trans ?_
      exact (congrArg (· + _) (zero_add _)).symm
    · rw [if_neg hab]
      exact h.whole b (hother b (Ne.symm hab))
  · intro row hrow
    rcases List.mem_append.mp hrow with hold | hrow
    · have hmem : row ∈ s.sweeper.rows := by
        rw [hbetween]
        exact hold
      obtain ⟨hsmall, hle, heq⟩ := h.taken row hmem
      exact ⟨hsmall, hle, heq⟩
    · rw [List.mem_singleton.mp hrow]
      refine ⟨hlt, UInt64.le_iff_toNat_le.mpr (by dsimp only; omega), ?_⟩
      rcases Nat.eq_zero_or_pos f with hzero | hf
      · exact .inl (UInt64.toNat_inj.mp (by dsimp only; omega))
      · exact .inr (hfail hf)

theorem finishSweep {cfg : OutlierConfig} (h : Inv s) (hpos : 0 < cfg.failurePctThreshold)
    (hmax : cfg.failurePctThreshold ≤ 100) {rows : List HostWindow}
    (hat : s.sweeper = .taking [] rows) : Inv (finishSweep cfg s rows) := by
  have hhalf : ∀ b, s.sweeper.half b = none := by
    intro b
    rw [hat]
    rfl
  have hrows : ∀ row ∈ rows, RowOk s row := by
    intro row hrow
    apply h.taken
    rw [hat]
    exact hrow
  refine ⟨h.fresh, ?_, fun b _ => h.whole b (hhalf b), fun b t f hb => (by cases hb), h.small,
    h.fails, fun row hrow => (by cases hrow), ?_, ?_⟩
  · intro r b g hrec
    exact .inl (h.eq_of_whole hrec (hhalf b))
  · intro row hrow
    rcases List.mem_append.mp hrow with hrow | hrow
    · exact h.sane.rows row hrow
    · exact (hrows row hrow).le
  · intro b hb
    rcases List.mem_append.mp hb with hb | hb
    · exact h.sane.detected b hb
    · obtain ⟨row, hrow, rfl⟩ := List.mem_map.mp hb
      exact failed_of_detect hpos hmax hrows hrow

theorem step {cfg : OutlierConfig} {eps : List Endpoint} {e : Event} (h : Inv s)
    (hpos : 0 < cfg.failurePctThreshold) (hmax : cfg.failurePctThreshold ≤ 100)
    (hok : NoneStraddles s e) : Inv (step cfg eps s e) := by
  cases e with
  | record a success =>
    simp only [OutlierWindow.step]
    split_ifs
    · exact h.addTotal hok success
    · exact h
  | addSuccess r =>
    simp only [OutlierWindow.step]
    split
    · next a g hrec => exact h.addSuccess hrec (hok a g hrec)
    · exact h
  | sweep =>
    simp only [OutlierWindow.step, sweepStep]
    cases hsw : s.sweeper with
    | idle => exact h.startSweep hsw eps
    | taking todo rows =>
      cases todo with
      | nil => exact h.finishSweep hpos hmax hsw
      | cons ep todo => exact h.swapTotal hsw
    | between a t f todo rows =>
      refine h.swapSuccess hsw (hok a ?_)
      rw [hsw]
      exact fun hc => by simp [Sweeper.half] at hc

theorem initial : Inv {} where
  fresh := fun _ _ => rfl
  current := fun r a g hrec => by cases hrec
  whole := fun a _ => (by
    rw [pending_eq_zero (fun r hrec => by cases hrec)]
    rfl)
  split := fun a t f hb => by cases hb
  small := fun a => (by decide : (0 : UInt64).toNat < 2 ^ 57)
  fails := fun a hf => absurd hf (Nat.lt_irrefl 0)
  taken := fun row hrow => by cases hrow
  sane := ⟨fun row hrow => (by cases hrow), fun a ha => by cases ha⟩

end Inv

/-- In every run in which no request straddles a sweep the windows stay sane. -/
theorem sane_of_noneStraddles (cfg : OutlierConfig) (eps : List Endpoint) (es : List Event)
    (hpos : 0 < cfg.failurePctThreshold) (hmax : cfg.failurePctThreshold ≤ 100)
    (hes : StepsMeet (step cfg eps) NoneStraddles {} es) :
    ∀ pre, pre <+: es → Sane (pre.foldl (step cfg eps) {}) := by
  rintro pre ⟨rest, rfl⟩
  have hpre := ((stepsMeet_append (step cfg eps) NoneStraddles pre rest).mp hes).1
  have hstep : ∀ s e, NoneStraddles s e → Inv s → Inv (step cfg eps s e) :=
    fun s e hok h => h.step hpos hmax hok
  exact (invariant_of_steps hstep pre _ Inv.initial hpre).sane

/-- One request makes a window count. -/
def oneRequest (threshold : UInt64) : OutlierConfig :=
  { failurePctThreshold := threshold, failurePctMinHosts := 1, failurePctReqVolume := 1 }

def oneHost : List Endpoint := [⟨"10.0.0.1:80"⟩]

/-- A success and a failure, and a sweep over them. -/
def settled : List Event :=
  [.record "10.0.0.1:80" true, .addSuccess 0, .record "10.0.0.1:80" false, .sweep, .sweep, .sweep,
    .sweep]

theorem sane_settled : Sane (settled.foldl (step (oneRequest 50) oneHost) {}) := by
  refine sane_of_noneStraddles (oneRequest 50) oneHost settled (by decide) (by decide)
    ⟨?_, ?_, ?_, ?_, ?_, ?_, ?_, trivial⟩ _ List.prefix_rfl
  · change _ < _
    decide +kernel
  · exact fun a g _ hhalf => absurd rfl hhalf
  · change _ < _
    decide +kernel
  · exact fun a hhalf => absurd rfl hhalf
  · exact fun a hhalf => absurd rfl hhalf
  · intro a _ r g hrec
    rcases r with _ | _ | r
    · cases hrec
    · cases hrec
    · cases hrec
  · exact fun a hhalf => absurd rfl hhalf

/-- A sweep between the two counters of a request that succeeds, and a second sweep after it. -/
def straddling : List Event :=
  [.record "10.0.0.1:80" true, .sweep, .sweep, .sweep, .sweep, .addSuccess 0, .sweep, .sweep,
    .sweep, .sweep]

/-- The first sweep ejects the host without a failed request, and a row of the second has more
successes than requests; and with a threshold of zero no request has to straddle a sweep. -/
theorem not_sane :
    (¬ ∀ row ∈ (straddling.foldl (step (oneRequest 85) oneHost) {}).snapshot,
        row.success ≤ row.total) ∧
    (¬ ∀ a ∈ (straddling.foldl (step (oneRequest 85) oneHost) {}).detected,
        (straddling.foldl (step (oneRequest 85) oneHost) {}).failed a = true) ∧
    ¬ Sane (([.record "10.0.0.1:80" true, .addSuccess 0, .sweep, .sweep, .sweep, .sweep] :
      List Event).foldl (step (oneRequest 0) oneHost) {}) := by
  refine ⟨?_, ?_, ?_⟩
  · decide +kernel
  · decide +kernel
  · intro h
    exact absurd h.detected (by decide +kernel)

end EnvoyGo.OutlierWindow

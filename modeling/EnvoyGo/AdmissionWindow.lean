import EnvoyGo.RetryExecutor
import Mathlib.Algebra.Group.Int.Defs
import Mathlib.Algebra.GroupWithZero.Nat
import Mathlib.Data.List.Forall2

/-!
The sliding window of the admission control filter: buckets of a second, appended at the back and
expired at the front, with running totals.
-/

namespace EnvoyGo.AdmissionControl

open Router (Duration minInt64 maxInt64)

def second : ℤ := 1000000000

def timeSub (t u : ℤ) : ℤ := max minInt64 (min maxInt64 (t - u))

def defaultSamplingWindowSec : ℤ := 30

/-- `sampling_window` in whole seconds; `Milliseconds` and the division truncate. -/
def samplingWindow : Option Duration → ℤ
  | some sw => (sw.ns.tdiv 1000000).tdiv 1000 * second
  | none => defaultSamplingWindowSec * second

structure Bucket where
  ts : ℤ
  requests : ℕ := 0
  successes : ℕ := 0
  deriving DecidableEq

structure Totals where
  requests : ℕ := 0
  successes : ℕ := 0
  deriving DecidableEq

structure Controller where
  samplingWindow : ℤ
  buckets : List Bucket := []
  global : Totals := {}
  deriving DecidableEq

def Totals.expire (g : Totals) (old : Bucket) : Option Totals :=
  if old.requests ≤ g.requests ∧ old.successes ≤ g.successes then
    some ⟨g.requests - old.requests, g.successes - old.successes⟩
  else none

def purge (samplingWindow now : ℤ) : List Bucket → Totals → Option (List Bucket × Totals)
  | [], g => some ([], g)
  | b :: bs, g =>
    if timeSub now b.ts ≤ samplingWindow then some (b :: bs, g)
    else (g.expire b).bind (purge samplingWindow now bs)

namespace Controller

def purgeStaleLocked (c : Controller) (now : ℤ) : Option Controller :=
  (purge c.samplingWindow now c.buckets c.global).map fun r =>
    { c with buckets := r.1, global := r.2 }

def maybeRolloverLocked (c : Controller) (now : ℤ) : Controller :=
  match c.buckets.getLast? with
  | none => c
  | some newest =>
    if timeSub now newest.ts ≥ 1 * second then { c with buckets := c.buckets ++ [⟨now, 0, 0⟩] }
    else c

/-- The increments of `recordRequest`, of the back bucket and of the totals. -/
def count (c : Controller) (back : Bucket) (success : Bool) : Controller :=
  { c with
    buckets := c.buckets.dropLast ++
      [{ back with
          requests := back.requests + 1
          successes := if success then back.successes + 1 else back.successes }]
    global :=
      { requests := c.global.requests + 1
        successes := if success then c.global.successes + 1 else c.global.successes } }

def recordRequest (c : Controller) (now : ℤ) (success : Bool) : Option Controller :=
  (c.purgeStaleLocked now).map fun c =>
    let c := c.maybeRolloverLocked now
    match c.buckets.getLast? with
    | none => { c with buckets := [⟨now, 0, 0⟩] }.count ⟨now, 0, 0⟩ success
    | some back => c.count back success

def requestCounts (c : Controller) (now : ℤ) : Option (Controller × ℕ × ℕ) :=
  (c.purgeStaleLocked now).map fun c => (c, c.global.requests, c.global.successes)

def averageRpsLocked (wholeSeconds : ℤ → ℤ) (c : Controller) (now : ℤ) : ℕ :=
  match c.buckets.head? with
  | none => 0
  | some oldest =>
    let ageSecs := max 0 (wholeSeconds (timeSub now oldest.ts))
    let denomSecs := max (wholeSeconds c.samplingWindow) ageSecs
    if denomSecs = 0 then 0 else c.global.requests / denomSecs.toNat % 2^32

def windowSnapshot (wholeSeconds : ℤ → ℤ) (c : Controller) (now : ℤ) :
    Option (Controller × ℕ × ℕ × ℕ) :=
  (c.purgeStaleLocked now).map fun c =>
    (c, c.global.requests, c.global.successes, c.averageRpsLocked wholeSeconds now)

end Controller

inductive Call where
  | recordRequest (success : Bool)
  | requestCounts
  | windowSnapshot
  deriving DecidableEq

/-- A call and the reading of its clock. -/
structure Timed where
  call : Call
  now : ℤ
  deriving DecidableEq

def Controller.step (wholeSeconds : ℤ → ℤ) (c : Controller) (t : Timed) : Option Controller :=
  match t.call with
  | .recordRequest success => c.recordRequest t.now success
  | .requestCounts => (c.requestCounts t.now).map Prod.fst
  | .windowSnapshot => (c.windowSnapshot wholeSeconds t.now).map Prod.fst

def Controller.run (wholeSeconds : ℤ → ℤ) (c : Controller) : List Timed → Option Controller
  | [] => some c
  | t :: ts => (c.step wholeSeconds t).bind fun c => Controller.run wholeSeconds c ts

structure Request where
  time : ℤ
  success : Bool
  deriving DecidableEq

def recorded (t : Timed) : List Request :=
  match t.call with
  | .recordRequest success => [⟨t.now, success⟩]
  | _ => []

def history (ts : List Timed) : List Request := ts.flatMap recorded

/-- The counts at a time are those of the later part of the history, which has every request of age
at most the window less a second and none that is older than the window. -/
structure Counted (window now : ℤ) (requests : List Request) (n s : ℕ)
    (older newer : List Request) : Prop where
  split : requests = older ++ newer
  total : n = newer.length
  successes : s = newer.countP (·.success)
  recent : ∀ r ∈ newer, now - r.time ≤ window
  stale : ∀ r ∈ older, window - second < now - r.time

def bucketRequests (bs : List Bucket) : ℕ := (bs.map Bucket.requests).sum

def bucketSuccesses (bs : List Bucket) : ℕ := (bs.map Bucket.successes).sum

/-- What holds of a controller after the calls. -/
structure Sound (wholeSeconds : ℤ → ℤ) (ts : List Timed) (c : Controller) : Prop where
  requests_eq : c.global.requests = bucketRequests c.buckets
  successes_eq : c.global.successes = bucketSuccesses c.buckets
  successes_le : c.global.successes ≤ c.global.requests
  counts : ∀ now, (∀ t ∈ ts, t.now ≤ now) → ∃ c' n s older newer,
    c.requestCounts now = some (c', n, s) ∧
      Counted c.samplingWindow now (history ts) n s older newer
  snapshot : ∀ now, (∀ t ∈ ts, t.now ≤ now) → ∃ c' n s rps older newer,
    c.windowSnapshot wholeSeconds now = some (c', n, s, rps) ∧
      Counted c.samplingWindow now (history ts) n s older newer

theorem samplingWindow_lt (sw : Option Duration) : samplingWindow sw < maxInt64 := by
  cases sw with
  | none => decide
  | some sw =>
    have hrange := sw.range
    unfold maxInt64 minInt64 at hrange
    change (sw.ns.tdiv 1000000).tdiv 1000 * 1000000000 < 2^63 - 1
    rcases le_total 0 sw.ns with hns | hns
    · rw [Int.tdiv_eq_ediv_of_nonneg hns, Int.tdiv_eq_ediv_of_nonneg (by omega)]
      omega
    · obtain ⟨n, hn⟩ : ∃ n : ℕ, sw.ns = -(n : ℤ) := ⟨sw.ns.natAbs, by omega⟩
      rw [hn, Int.neg_tdiv, Int.neg_tdiv, Int.tdiv_eq_ediv_of_nonneg (Int.natCast_nonneg _),
        Int.tdiv_eq_ediv_of_nonneg (by omega)]
      omega

theorem timeSub_le_iff {window now ts : ℤ} (hwindow : window < maxInt64) (hts : ts ≤ now) :
    timeSub now ts ≤ window ↔ now - ts ≤ window := by
  unfold timeSub minInt64
  unfold maxInt64 at hwindow ⊢
  omega

theorem second_le_timeSub_iff {now ts : ℤ} (hts : ts ≤ now) :
    timeSub now ts ≥ 1 * second ↔ ts + second ≤ now := by
  unfold timeSub minInt64 maxInt64 second
  omega

/-- The bucket counts these requests, which came within a second of its start. -/
structure Fits (b : Bucket) (seg : List Request) : Prop where
  requests : b.requests = seg.length
  successes : b.successes = seg.countP (·.success)
  within : ∀ r ∈ seg, b.ts ≤ r.time ∧ r.time < b.ts + second

def sums (bs : List Bucket) : Totals := ⟨bucketRequests bs, bucketSuccesses bs⟩

structure Tracks (c : Controller) (requests : List Request) (now : ℤ) (older : List Request)
    (segs : List (List Request)) : Prop where
  split : requests = older ++ segs.flatten
  filled : List.Forall₂ Fits c.buckets segs
  sorted : c.buckets.Pairwise (fun a b => a.ts ≤ b.ts)
  reached : ∀ b ∈ c.buckets, b.ts ≤ now
  totals : c.global = sums c.buckets
  stale : ∀ r ∈ older, c.samplingWindow - second < now - r.time

variable {window now : ℤ}

theorem expire_sums (b : Bucket) (bs : List Bucket) :
    (sums (b :: bs)).expire b = some (sums bs) := by
  simp only [Totals.expire, sums, bucketRequests, bucketSuccesses, List.map_cons, List.sum_cons,
    Nat.le_add_right, and_self, if_true, Nat.add_sub_cancel_left]

theorem purge_spec (hwindow : window < maxInt64) {bs : List Bucket} {segs : List (List Request)}
    (hfilled : List.Forall₂ Fits bs segs) (hsorted : bs.Pairwise (fun a b => a.ts ≤ b.ts))
    (hreached : ∀ b ∈ bs, b.ts ≤ now) :
    ∃ gone gone' bs' segs', bs = gone ++ bs' ∧ segs = gone' ++ segs' ∧
      purge window now bs (sums bs) = some (bs', sums bs') ∧ List.Forall₂ Fits bs' segs' ∧
      (∀ b ∈ bs', now - b.ts ≤ window) ∧
      ∀ r ∈ gone'.flatten, window - second < now - r.time := by
  induction hfilled with
  | nil =>
    exact ⟨[], [], [], [], rfl, rfl, rfl, .nil, fun b hb => (List.not_mem_nil hb).elim,
      fun r hr => (List.not_mem_nil hr).elim⟩
  | @cons b seg bs segs hfits hrest ih =>
    obtain ⟨hnewer, hsorted⟩ := List.pairwise_cons.mp hsorted
    have hb := hreached b List.mem_cons_self
    rw [purge]
    by_cases hage : now - b.ts ≤ window
    · -- the rest are no older
      rw [if_pos ((timeSub_le_iff hwindow hb).mpr hage)]
      refine ⟨[], [], b :: bs, seg :: segs, rfl, rfl, rfl, .cons hfits hrest, ?_,
        fun r hr => (List.not_mem_nil hr).elim⟩
      intro b' hb'
      rcases List.mem_cons.mp hb' with rfl | hb'
      · exact hage
      · have := hnewer b' hb'
        omega
    · rw [if_neg fun h => hage ((timeSub_le_iff hwindow hb).mp h), expire_sums, Option.bind_some]
      obtain ⟨gone, gone', bs', segs', rfl, rfl, hpurge, hfilled, hfresh, hstale⟩ :=
        ih hsorted fun b' hb' => hreached b' (List.mem_cons_of_mem b hb')
      refine ⟨b :: gone, seg :: gone', bs', segs', rfl, rfl, hpurge, hfilled, hfresh, ?_⟩
      intro r hr
      rw [List.flatten_cons] at hr
      rcases List.mem_append.mp hr with hr | hr
      · have := hfits.within r hr
        omega
      · exact hstale r hr

section Tracks

variable {c : Controller} {requests older : List Request} {segs : List (List Request)}

theorem Tracks.later (h : Tracks c requests now older segs) {now' : ℤ} (hle : now ≤ now') :
    Tracks c requests now' older segs where
  split := h.split
  filled := h.filled
  sorted := h.sorted
  reached b hb := (h.reached b hb).trans hle
  totals := h.totals
  stale r hr := by
    have := h.stale r hr
    omega

theorem Tracks.purgeStale (h : Tracks c requests now older segs)
    (hwindow : c.samplingWindow < maxInt64) :
    ∃ c' older' segs', c.purgeStaleLocked now = some c' ∧
      c'.samplingWindow = c.samplingWindow ∧ Tracks c' requests now older' segs' ∧
      ∀ b ∈ c'.buckets, now - b.ts ≤ c.samplingWindow := by
  obtain ⟨gone, gone', bs', segs', hbs, hsegs, hpurge, hfilled, hfresh, hstale⟩ :=
    purge_spec hwindow h.filled h.sorted h.reached
  refine ⟨{ c with buckets := bs', global := sums bs' }, older ++ gone'.flatten, segs', ?_, rfl,
    ⟨?_, hfilled, ?_, ?_, rfl, ?_⟩, hfresh⟩
  · rw [Controller.purgeStaleLocked, h.totals, hpurge]
    rfl
  · rw [h.split, hsegs, List.flatten_append, List.append_assoc]
  · exact (List.pairwise_append.mp (hbs ▸ h.sorted)).2.1
  · exact fun b hb => h.reached b (hbs ▸ List.mem_append_right gone hb)
  · intro r hr
    rcases List.mem_append.mp hr with hr | hr
    · exact h.stale r hr
    · exact hstale r hr

theorem Tracks.open (h : Tracks c requests now older segs) :
    Tracks { c with buckets := c.buckets ++ [⟨now, 0, 0⟩] } requests now older (segs ++ [[]]) where
  split := by rw [List.flatten_append, List.flatten_singleton, List.append_nil, h.split]
  filled := List.rel_append h.filled
    (.cons ⟨rfl, rfl, fun r hr => (List.not_mem_nil hr).elim⟩ .nil)
  sorted := List.pairwise_append.mpr ⟨h.sorted, List.pairwise_singleton _ _, fun a ha b hb => by
    rw [List.mem_singleton.mp hb]
    exact h.reached a ha⟩
  reached b hb := by
    rcases List.mem_append.mp hb with hb | hb
    · exact h.reached b hb
    · rw [List.mem_singleton.mp hb]
  totals := by
    rw [h.totals]
    simp only [sums, bucketRequests, bucketSuccesses, List.map_append, List.sum_append,
      List.map_cons, List.map_nil, List.sum_cons, List.sum_nil, Nat.add_zero]
  stale := h.stale

theorem countP_bump (seg : List Request) (success : Bool) :
    (seg ++ [(⟨now, success⟩ : Request)]).countP (·.success) =
      if success then seg.countP (·.success) + 1 else seg.countP (·.success) := by
  rw [List.countP_append, List.countP_singleton]
  cases success <;> rfl

theorem exists_of_forall₂_concat {front : List Bucket} {back : Bucket}
    {segs : List (List Request)} (h : List.Forall₂ Fits (front ++ [back]) segs) :
    ∃ segs₁ seg, List.Forall₂ Fits front segs₁ ∧ Fits back seg ∧ segs = segs₁ ++ [seg] := by
  induction front generalizing segs with
  | nil =>
    obtain ⟨seg, rest, hseg, hrest, rfl⟩ := List.forall₂_cons_left_iff.mp h
    obtain rfl := List.forall₂_nil_left_iff.mp hrest
    exact ⟨[], seg, .nil, hseg, rfl⟩
  | cons b front ih =>
    obtain ⟨seg, rest, hseg, hrest, rfl⟩ := List.forall₂_cons_left_iff.mp h
    obtain ⟨segs₁, last, hfront, hlast, rfl⟩ := ih hrest
    exact ⟨seg :: segs₁, last, .cons hseg hfront, hlast, rfl⟩

theorem Tracks.count {front : List Bucket} {back : Bucket}
    (h : Tracks c requests now older segs) (hbuckets : c.buckets = front ++ [back])
    (hback : now < back.ts + second) (success : Bool) :
    ∃ segs', Tracks (c.count back success) (requests ++ [⟨now, success⟩]) now older segs' := by
  obtain ⟨segs₁, seg, hfront, hseg, rfl⟩ := exists_of_forall₂_concat (hbuckets ▸ h.filled)
  obtain ⟨hsorted, -, hcross⟩ := List.pairwise_append.mp (hbuckets ▸ h.sorted)
  have hmem {b : Bucket} (hb : b ∈ front) : b ∈ c.buckets :=
    hbuckets ▸ List.mem_append_left _ hb
  have hbackReached := h.reached back (hbuckets ▸ List.mem_append_right _ List.mem_cons_self)
  have hfield : (c.count back success).buckets = front ++ [{ back with
      requests := back.requests + 1
      successes := if success then back.successes + 1 else back.successes }] := by
    rw [Controller.count, hbuckets, List.dropLast_concat]
  refine ⟨segs₁ ++ [seg ++ [⟨now, success⟩]], ?_, ?_, ?_, ?_, ?_, h.stale⟩
  · rw [h.split, List.flatten_append, List.flatten_append, List.flatten_singleton,
      List.flatten_singleton, List.append_assoc, List.append_assoc]
  · rw [hfield]
    refine List.rel_append hfront (.cons ⟨?_, ?_, ?_⟩ .nil)
    · rw [List.length_append, List.length_singleton, hseg.requests]
    · rw [countP_bump, hseg.successes]
    · intro r hr
      rcases List.mem_append.mp hr with hr | hr
      · exact hseg.within r hr
      · rw [List.mem_singleton.mp hr]
        exact ⟨hbackReached, hback⟩
  · rw [hfield]
    refine List.pairwise_append.mpr ⟨hsorted, List.pairwise_singleton _ _, fun a ha b hb => ?_⟩
    rw [List.mem_singleton.mp hb]
    exact hcross a ha back List.mem_cons_self
  · rw [hfield]
    intro b hb
    rcases List.mem_append.mp hb with hb | hb
    · exact h.reached b (hmem hb)
    · rw [List.mem_singleton.mp hb]
      exact hbackReached
  · have hglobal := h.totals
    rw [hfield]
    rw [hbuckets] at hglobal
    simp only [Controller.count, hglobal, sums, bucketRequests, bucketSuccesses, List.map_append,
      List.sum_append, List.map_cons, List.map_nil, List.sum_cons, List.sum_nil]
    cases success <;>
      simp only [Totals.mk.injEq, if_true, if_false, Bool.false_eq_true, and_true] <;> omega

theorem Tracks.rollover (h : Tracks c requests now older segs) :
    ∃ segs', Tracks (c.maybeRolloverLocked now) requests now older segs' ∧
      ∀ front back, (c.maybeRolloverLocked now).buckets = front ++ [back] →
        now < back.ts + second := by
  rcases List.eq_nil_or_concat' c.buckets with hnil | ⟨init, newest, hconcat⟩
  · have heq : c.maybeRolloverLocked now = c := by
      rw [Controller.maybeRolloverLocked, hnil]
      rfl
    rw [heq]
    refine ⟨segs, h, fun front back hbuckets => ?_⟩
    rw [hnil] at hbuckets
    exact (List.append_ne_nil_of_right_ne_nil front (List.cons_ne_nil back []) hbuckets.symm).elim
  · have hlast : c.buckets.getLast? = some newest := by
      rw [hconcat, List.getLast?_concat]
    have hts := h.reached newest (hconcat ▸ List.mem_append_right _ List.mem_cons_self)
    rw [Controller.maybeRolloverLocked, hlast]
    dsimp only
    split_ifs with hage
    · refine ⟨segs ++ [[]], h.open, fun front back hbuckets => ?_⟩
      obtain ⟨-, hback⟩ := List.append_inj' hbuckets rfl
      rw [← List.singleton_injective hback]
      exact lt_add_of_pos_right now (by decide)
    · refine ⟨segs, h, fun front back hbuckets => ?_⟩
      rw [hconcat] at hbuckets
      obtain ⟨-, hback⟩ := List.append_inj' hbuckets rfl
      rw [← List.singleton_injective hback]
      exact not_le.mp fun hle => hage ((second_le_timeSub_iff hts).mpr hle)

theorem Tracks.record (h : Tracks c requests now older segs)
    (hwindow : c.samplingWindow < maxInt64) (success : Bool) :
    ∃ c' older' segs', c.recordRequest now success = some c' ∧
      c'.samplingWindow = c.samplingWindow ∧
      Tracks c' (requests ++ [⟨now, success⟩]) now older' segs' := by
  obtain ⟨c₁, older₁, segs₁, hpurge, hsame, htracks, -⟩ := h.purgeStale hwindow
  obtain ⟨segs₂, hrolled, hback⟩ := htracks.rollover
  have hsame' : (c₁.maybeRolloverLocked now).samplingWindow = c.samplingWindow := by
    rw [← hsame, Controller.maybeRolloverLocked]
    split
    · rfl
    · split_ifs <;> rfl
  rcases List.eq_nil_or_concat' (c₁.maybeRolloverLocked now).buckets with hnil | ⟨init, back, hcat⟩
  · have hopened : ({ c₁.maybeRolloverLocked now with buckets :=
        (c₁.maybeRolloverLocked now).buckets ++ [⟨now, 0, 0⟩] } : Controller).buckets =
          [] ++ [⟨now, 0, 0⟩] := by
      rw [hnil]
    obtain ⟨segs₃, hcounted⟩ := hrolled.open.count hopened
      (lt_add_of_pos_right now (by decide)) success
    refine ⟨_, older₁, segs₃, ?_, ?_, hcounted⟩
    · rw [Controller.recordRequest, hpurge, Option.map_some]
      dsimp only
      rw [hnil]
      rfl
    · exact hsame'
  · obtain ⟨segs₃, hcounted⟩ := hrolled.count hcat (hback init back hcat) success
    refine ⟨_, older₁, segs₃, ?_, ?_, hcounted⟩
    · rw [Controller.recordRequest, hpurge, Option.map_some]
      dsimp only
      rw [hcat, List.getLast?_concat]
    · exact hsame'

theorem sums_of_filled {bs : List Bucket} (h : List.Forall₂ Fits bs segs) :
    bucketRequests bs = segs.flatten.length ∧
      bucketSuccesses bs = segs.flatten.countP (·.success) := by
  induction h with
  | nil => exact ⟨rfl, rfl⟩
  | @cons b seg bs segs hfits hrest ih =>
    obtain ⟨hlen, hcount⟩ := ih
    rw [List.flatten_cons, List.length_append, List.countP_append, ← hlen, ← hcount,
      ← hfits.requests, ← hfits.successes]
    exact ⟨List.sum_cons, List.sum_cons⟩

theorem exists_bucket_of_mem {bs : List Bucket} (h : List.Forall₂ Fits bs segs) {r : Request}
    (hr : r ∈ segs.flatten) : ∃ b ∈ bs, b.ts ≤ r.time := by
  induction h with
  | nil => exact (List.not_mem_nil hr).elim
  | @cons b seg bs segs hfits hrest ih =>
    rw [List.flatten_cons] at hr
    rcases List.mem_append.mp hr with hr | hr
    · exact ⟨b, List.mem_cons_self, (hfits.within r hr).1⟩
    · obtain ⟨b', hb', hts⟩ := ih hr
      exact ⟨b', List.mem_cons_of_mem b hb', hts⟩

theorem Tracks.counted (h : Tracks c requests now older segs)
    (hfresh : ∀ b ∈ c.buckets, now - b.ts ≤ c.samplingWindow) :
    Counted c.samplingWindow now requests c.global.requests c.global.successes older
      segs.flatten where
  split := h.split
  total := by rw [h.totals, sums, (sums_of_filled h.filled).1]
  successes := by rw [h.totals, sums, (sums_of_filled h.filled).2]
  recent r hr := by
    obtain ⟨b, hb, hts⟩ := exists_bucket_of_mem h.filled hr
    have := hfresh b hb
    omega
  stale := h.stale

variable (wholeSeconds : ℤ → ℤ)

theorem Tracks.step {t : Timed} (h : Tracks c requests t.now older segs)
    (hwindow : c.samplingWindow < maxInt64) :
    ∃ c' older' segs', c.step wholeSeconds t = some c' ∧
      c'.samplingWindow = c.samplingWindow ∧
      Tracks c' (requests ++ recorded t) t.now older' segs' := by
  obtain ⟨call, now⟩ := t
  obtain ⟨c', older', segs', hpurge, hsame, htracks, -⟩ := h.purgeStale hwindow
  cases call with
  | recordRequest success => exact h.record hwindow success
  | requestCounts =>
    refine ⟨c', older', segs', ?_, hsame, (List.append_nil requests).symm ▸ htracks⟩
    rw [Controller.step, Controller.requestCounts, hpurge]
    rfl
  | windowSnapshot =>
    refine ⟨c', older', segs', ?_, hsame, (List.append_nil requests).symm ▸ htracks⟩
    rw [Controller.step, Controller.windowSnapshot, hpurge]
    rfl

theorem Tracks.run {ts : List Timed} {start : ℤ} (h : Tracks c requests start older segs)
    (hwindow : c.samplingWindow < maxInt64) (hsorted : (ts.map Timed.now).Pairwise (· ≤ ·))
    (hstart : ∀ t ∈ ts, start ≤ t.now) :
    ∃ c' last older' segs', c.run wholeSeconds ts = some c' ∧
      c'.samplingWindow = c.samplingWindow ∧
      (∀ now, start ≤ now → (∀ t ∈ ts, t.now ≤ now) → last ≤ now) ∧
      Tracks c' (requests ++ history ts) last older' segs' := by
  induction ts generalizing c requests start older segs with
  | nil => exact ⟨c, start, older, segs, rfl, rfl, fun now hnow _ => hnow,
      (List.append_nil requests).symm ▸ h⟩
  | cons t ts ih =>
    obtain ⟨hhead, htail⟩ := List.pairwise_cons.mp hsorted
    obtain ⟨c₁, older₁, segs₁, hstep, hsame, htracks⟩ :=
      (h.later (hstart t List.mem_cons_self)).step wholeSeconds hwindow
    obtain ⟨c', last, older', segs', hrun, hsame', hlast, htracks'⟩ :=
      ih htracks (hsame ▸ hwindow) htail fun u hu => hhead u.now (List.mem_map_of_mem hu)
    refine ⟨c', last, older', segs', ?_, hsame'.trans hsame, ?_, ?_⟩
    · rw [Controller.run, hstep]
      exact hrun
    · intro now _ hall
      exact hlast now (hall t List.mem_cons_self) fun u hu => hall u (List.mem_cons_of_mem t hu)
    · rw [List.append_assoc] at htracks'
      exact htracks'

theorem tracks_empty (window now : ℤ) : Tracks { samplingWindow := window } [] now [] [] where
  split := rfl
  filled := .nil
  sorted := .nil
  reached _ hb := (List.not_mem_nil hb).elim
  totals := rfl
  stale _ hr := (List.not_mem_nil hr).elim

theorem sound_of_tracks {ts : List Timed} {last : ℤ} (h : Tracks c (history ts) last older segs)
    (hwindow : c.samplingWindow < maxInt64)
    (hlater : ∀ now, (∀ t ∈ ts, t.now ≤ now) → Tracks c (history ts) now older segs) :
    Sound wholeSeconds ts c where
  requests_eq := by rw [h.totals, sums]
  successes_eq := by rw [h.totals, sums]
  successes_le := by
    rw [h.totals, sums, (sums_of_filled h.filled).1, (sums_of_filled h.filled).2]
    exact List.countP_le_length
  counts := by
    intro now hnow
    obtain ⟨c', older', segs', hpurge, hsame, htracks, hfresh⟩ :=
      (hlater now hnow).purgeStale hwindow
    refine ⟨c', _, _, older', segs'.flatten, ?_, hsame ▸ htracks.counted (hsame ▸ hfresh)⟩
    rw [Controller.requestCounts, hpurge]
    rfl
  snapshot := by
    intro now hnow
    obtain ⟨c', older', segs', hpurge, hsame, htracks, hfresh⟩ :=
      (hlater now hnow).purgeStale hwindow
    refine ⟨c', _, _, c'.averageRpsLocked wholeSeconds now, older', segs'.flatten, ?_,
      hsame ▸ htracks.counted (hsame ▸ hfresh)⟩
    rw [Controller.windowSnapshot, hpurge]
    rfl

end Tracks

/-- Every sequence of calls with a clock that does not go back runs to its end, and leaves totals
that the next reading at any later time turns into the counts of the window. -/
theorem run_sound (wholeSeconds : ℤ → ℤ) (sw : Option Duration) {ts : List Timed}
    (hsorted : (ts.map Timed.now).Pairwise (· ≤ ·)) :
    ∃ c, Controller.run wholeSeconds { samplingWindow := samplingWindow sw } ts = some c ∧
      c.samplingWindow = samplingWindow sw ∧ Sound wholeSeconds ts c := by
  have hwindow := samplingWindow_lt sw
  cases ts with
  | nil =>
    exact ⟨_, rfl, rfl, sound_of_tracks wholeSeconds (tracks_empty _ 0) hwindow
      fun now _ => tracks_empty _ now⟩
  | cons t ts =>
    have hstart : ∀ u ∈ t :: ts, t.now ≤ u.now := by
      intro u hu
      rcases List.mem_cons.mp hu with rfl | hu
      · exact le_rfl
      · exact (List.pairwise_cons.mp hsorted).1 u.now (List.mem_map_of_mem hu)
    obtain ⟨c, last, older, segs, hrun, hsame, hlast, htracks⟩ :=
      (tracks_empty (samplingWindow sw) t.now).run wholeSeconds hwindow hsorted hstart
    exact ⟨c, hrun, hsame, sound_of_tracks wholeSeconds htracks (hsame ▸ hwindow) fun now hnow =>
      htracks.later (hlast now (hnow t List.mem_cons_self) hnow)⟩

/-- Two requests in one second and one in the next, with a window of two seconds. -/
theorem run_sound_three : ∃ c, Controller.run (fun d => d / second)
      { samplingWindow := samplingWindow (some ⟨2999999999, by decide⟩) }
      [⟨.recordRequest true, 0⟩, ⟨.recordRequest false, 400000000⟩, ⟨.requestCounts, 999999999⟩,
        ⟨.recordRequest true, 1000000000⟩, ⟨.windowSnapshot, 2000000001⟩] = some c ∧
    c.samplingWindow = samplingWindow (some ⟨2999999999, by decide⟩) ∧
    Sound (fun d => d / second)
      [⟨.recordRequest true, 0⟩, ⟨.recordRequest false, 400000000⟩, ⟨.requestCounts, 999999999⟩,
        ⟨.recordRequest true, 1000000000⟩, ⟨.windowSnapshot, 2000000001⟩] c :=
  run_sound (fun d => d / second) _ (by decide +kernel)

end EnvoyGo.AdmissionControl

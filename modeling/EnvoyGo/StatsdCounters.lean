import EnvoyGo.StatsdTCP
import Mathlib.Algebra.BigOperators.Group.List.Basic

/-!
What the lines of the statsd sink say about one counter: the deltas that were generated, and the
deltas a reader takes from the lines it has.
-/

namespace EnvoyGo.StatsdTCP

open EnvoyGo.Stats EnvoyGo.Lines EnvoyGo.Runs EnvoyGo.Text

section Conversion

theorem roundFloat64_eq_self {n : ℕ} (hn : n < 2^53) : roundFloat64 n = n := by
  have hlog : n.log2 + 1 - 53 = 0 := by
    by_cases hz : n = 0
    · subst hz
      decide
    · have := (Nat.log2_lt hz).mpr hn
      omega
  have hq : n / 2^0 = n := by omega
  have hcond : 2*(n % 2^0) < 2^0 := by omega
  simp only [roundFloat64, Int.natAbs_natCast, hlog, if_pos (Or.inl hcond), hq]
  rw [Nat.pow_zero, Nat.mul_one]
  have hsign := Int.sign_mul_natAbs (n : ℤ)
  rwa [Int.natAbs_natCast] at hsign

variable (c : Conversions)

theorem uint64_round {v : UInt64} (hv : v.toNat < 2^53) :
    c.uint64 (roundFloat64 v.toNat) = v := by
  rw [roundFloat64_eq_self hv]
  have hexact := c.uint64_exact v.toNat (by omega) (by omega)
  exact UInt64.toNat_inj.mp (by exact_mod_cast hexact)

theorem int64_round_sub {v last : UInt64} (hle : last ≤ v) (hv : v.toNat < 2^53) :
    (c.int64 (roundFloat64 (v - last).toNat)).toInt = (v.toNat : ℤ) - last.toNat := by
  have hsub : (v - last).toNat = v.toNat - last.toNat := UInt64.toNat_sub_of_le v last hle
  have hle' : last.toNat ≤ v.toNat := UInt64.le_iff_toNat_le.mp hle
  rw [hsub, roundFloat64_eq_self (by omega), c.int64_exact _ (by omega) (by omega)]
  omega

end Conversion

def counterIn (name : Name) (ms : List Metric) : Option UInt64 :=
  ms.findSome? (fun m =>
    match m.value with
    | .counter v => if m.name = name then some v else none
    | .gauge _ => none)

/-- The values of the counter's lines among `xs`. -/
def deltas (name : Name) (xs : List Sample) : List ℤ :=
  (xs.filter (fun x => x.name = name ∧ x.type = .counter)).map (fun x => x.value.toInt)

theorem deltas_append (name : Name) (xs ys : List Sample) :
    deltas name (xs ++ ys) = deltas name xs ++ deltas name ys := by
  rw [deltas, List.filter_append, List.map_append, deltas, deltas]

theorem samples_cons (c : Conversions) (fam : MetricFamily) (batch : List MetricFamily) :
    samples c (fam :: batch) =
      fam.metric.map (fun v => ⟨fam.name, fam.type, c.int64 v⟩) ++ samples c batch :=
  List.flatMap_cons

theorem counterIn_eq_none {name : Name} {ms : List Metric} (h : name ∉ ms.map Metric.name) :
    counterIn name ms = none := by
  apply List.findSome?_eq_none_iff.mpr
  intro m hm
  cases m.value with
  | gauge v => rfl
  | counter v =>
    have hne : m.name ≠ name := fun heq => h (List.mem_map.mpr ⟨m, hm, heq⟩)
    exact if_neg hne

theorem apply_counter (c : Conversions) (name : Name) (ms : List Metric)
    (hms : (ms.map Metric.name).Nodup) (last : DeltaState) :
    (counterIn name ms = none →
      (apply c last (ms.map familyOf)).1 name = last name ∧
        deltas name (samples c (apply c last (ms.map familyOf)).2) = []) ∧
    (∀ v, counterIn name ms = some v →
      (apply c last (ms.map familyOf)).1 name = c.uint64 (roundFloat64 v.toNat) ∧
        deltas name (samples c (apply c last (ms.map familyOf)).2) =
          [(c.int64 (roundFloat64
            (c.uint64 (roundFloat64 v.toNat) - last name).toNat)).toInt]) := by
  induction ms generalizing last with
  | nil => exact ⟨fun _ => ⟨rfl, rfl⟩, (fun v hv => by cases hv)⟩
  | cons m ms ih =>
    rw [List.map_cons, List.nodup_cons] at hms
    obtain ⟨hfresh, hms⟩ := hms
    obtain ⟨n, value⟩ := m
    cases value with
    | gauge g =>
      -- a gauge is passed on and says nothing about a counter
      have hdel : deltas name (samples c (apply c last
          ((⟨n, .gauge g⟩ :: ms : List Metric).map familyOf)).2) =
            deltas name (samples c (apply c last (ms.map familyOf)).2) := by
        show deltas name (samples c (_ :: _)) = _
        rw [samples_cons, deltas_append]
        have hnone : ∀ vs : List ℤ, deltas name (vs.map (fun v =>
            (⟨n, MetricType.gauge, c.int64 v⟩ : Sample))) = [] := by
          intro vs
          rw [deltas, List.map_eq_nil_iff, List.filter_eq_nil_iff]
          intro x hx
          obtain ⟨v, -, rfl⟩ := List.mem_map.mp hx
          simp
        exact congrArg (· ++ _) (hnone [roundFloat64 g.toInt])
      rw [hdel]
      exact ih hms last
    | counter u =>
      let cur := c.uint64 (roundFloat64 u.toNat)
      have hdel : deltas name (samples c (apply c last
          ((⟨n, .counter u⟩ :: ms : List Metric).map familyOf)).2) =
            deltas name [⟨n, .counter, c.int64 (roundFloat64 (cur - last n).toNat)⟩] ++
              deltas name (samples c
                (apply c (Function.update last n cur) (ms.map familyOf)).2) := by
        show deltas name (samples c (_ :: _)) = _
        rw [samples_cons, deltas_append]
        rfl
      have hlast : (apply c last ((⟨n, .counter u⟩ :: ms : List Metric).map familyOf)).1 =
          (apply c (Function.update last n cur) (ms.map familyOf)).1 := rfl
      rw [hdel, hlast]
      obtain ⟨ihnone, ihsome⟩ := ih hms (Function.update last n cur)
      by_cases hn : n = name
      · subst hn
        obtain ⟨htail, hnil⟩ := ihnone (counterIn_eq_none hfresh)
        have hin : counterIn n (⟨n, .counter u⟩ :: ms) = some u := by
          simp [counterIn]
        rw [hin, htail, hnil, Function.update_self]
        refine ⟨(fun h => by cases h), ?_⟩
        intro v hv
        obtain rfl := Option.some.inj hv
        refine ⟨rfl, ?_⟩
        simp [deltas, cur]
      · have hin : counterIn name (⟨n, .counter u⟩ :: ms) = counterIn name ms := by
          simp [counterIn, hn]
        have hhead : deltas name
            [⟨n, .counter, c.int64 (roundFloat64 (cur - last n).toNat)⟩] = [] := by
          simp [deltas, hn]
        rw [hin, hhead, List.nil_append]
        rw [Function.update_of_ne (Ne.symm hn)] at ihnone ihsome
        exact ⟨ihnone, ihsome⟩

def Event.counter? (name : Name) : Event → Option UInt64
  | .flush reg _ => counterIn name reg.metrics
  | .close => none

def counterValues (name : Name) (es : List Event) : List UInt64 :=
  es.filterMap (Event.counter? name)

/-- A counter only grows, and stays below `2^53`. -/
structure Monotone (name : Name) (es : List Event) : Prop where
  rises : (counterValues name es).Pairwise (· ≤ ·)
  below : ∀ v ∈ counterValues name es, v.toNat < 2^53

/-- The counter's value in the last processed batch that holds it. -/
def lastValue (name : Name) (es : List Event) : UInt64 :=
  ((counterValues name es).getLast?).getD 0

theorem counterValues_concat (name : Name) (es : List Event) (e : Event) :
    counterValues name (es ++ [e]) = counterValues name es ++ (e.counter? name).toList := by
  rw [counterValues, List.filterMap_append, counterValues]
  cases h : e.counter? name with
  | none => simp [h]
  | some v => simp [h]

theorem Monotone.init {name : Name} {es : List Event} {e : Event}
    (h : Monotone name (es ++ [e])) : Monotone name es := by
  obtain ⟨hrises, hbelow⟩ := h
  rw [counterValues_concat] at hrises hbelow
  exact ⟨(List.pairwise_append.mp hrises).1, fun v hv => hbelow v (List.mem_append_left _ hv)⟩

theorem Monotone.lastValue_le {name : Name} {es : List Event} {e : Event} {v : UInt64}
    (h : Monotone name (es ++ [e])) (hv : e.counter? name = some v) : lastValue name es ≤ v := by
  obtain ⟨hrises, -⟩ := h
  rw [counterValues_concat, hv] at hrises
  rw [lastValue]
  cases hlast : (counterValues name es).getLast? with
  | none => exact UInt64.zero_le
  | some u =>
    have hu : u ∈ counterValues name es := List.mem_of_getLast? hlast
    exact (List.pairwise_append.mp hrises).2.2 u hu v (List.mem_singleton.mpr rfl)

namespace Sink

theorem step_flush_generated (c : Conversions) (pre : List Char) {s : Sink} (h : s.Aligned)
    (reg : Registry) (o : Outcome) :
    (s.step c pre (.flush reg o)).generated =
        s.generated ++ samples c (apply c s.last (snapshot reg)).2 ∧
      (s.step c pre (.flush reg o)).last = (apply c s.last (snapshot reg)).1 := by
  have hsend := delivers_send (h.generate c pre (snapshot reg)).trim.1 o
  exact ⟨hsend.generated, hsend.last⟩

theorem sum_deltas_run (c : Conversions) (pre : List Char) (name : Name) (es : List Event)
    (h : Monotone name es) :
    (deltas name (run c pre es).generated).sum = (lastValue name es).toNat ∧
      (run c pre es).last name = lastValue name es := by
  induction es using List.reverseRecOn with
  | nil => exact ⟨rfl, rfl⟩
  | append_singleton es e ih =>
    obtain ⟨ihsum, ihlast⟩ := ih h.init
    have hrun : run c pre (es ++ [e]) = (run c pre es).step c pre e := List.foldl_append ..
    rw [hrun]
    cases e with
    | close =>
      have hsame : lastValue name (es ++ [.close]) = lastValue name es := by
        rw [lastValue, counterValues_concat, Event.counter?, Option.toList_none,
          List.append_nil, lastValue]
      rw [hsame]
      exact ⟨ihsum, ihlast⟩
    | flush reg o =>
      obtain ⟨hgen, hlast⟩ :=
        step_flush_generated c pre (balanced_run c pre es).aligned reg o
      rw [hgen, hlast, deltas_append, List.sum_append]
      obtain ⟨hnone, hsome⟩ := apply_counter c name reg.metrics reg.unique (run c pre es).last
      cases hv : counterIn name reg.metrics with
      | none =>
        obtain ⟨hkeep, hnil⟩ := hnone hv
        have hsame : lastValue name (es ++ [.flush reg o]) = lastValue name es := by
          rw [lastValue, counterValues_concat, Event.counter?, hv, Option.toList_none,
            List.append_nil, lastValue]
        rw [hsame, snapshot, hkeep, hnil, List.sum_nil]
        exact ⟨by omega, ihlast⟩
      | some v =>
        obtain ⟨hcur, hdelta⟩ := hsome v hv
        have hnew : lastValue name (es ++ [.flush reg o]) = v := by
          rw [lastValue, counterValues_concat, Event.counter?, hv, Option.toList_some,
            List.getLast?_concat, Option.getD_some]
        have hbelow : v.toNat < 2^53 := by
          apply h.below
          rw [counterValues_concat, Event.counter?, hv]
          exact List.mem_append_right _ (List.mem_singleton.mpr rfl)
        have hle : lastValue name es ≤ v := h.lastValue_le hv
        rw [hnew, snapshot, hcur, hdelta, uint64_round c hbelow, ihlast,
          int64_round_sub c hle hbelow, List.sum_singleton, ihsum]
        exact ⟨by omega, rfl⟩

end Sink

section Text

/-- The delta that a line reports for the counter, if it is one of its lines. -/
def lineDelta (pre : List Char) (name : Name) (line : List Char) : Option ℤ :=
  let key := pre ++ '.' :: name.chars ++ [':']
  if key.isPrefixOf line then
    match cut '|' (line.drop key.length) with
    | some (digits, ['c']) => Text.parseInt64 (String.ofList digits)
    | _ => none
  else none

theorem notMem_formatInt (n : ℤ) {c : Char} (hd : c.isDigit = false) (hc : c ≠ '-') :
    c ∉ formatInt n := by
  intro hmem
  rcases mem_formatInt hmem with h | h
  · rw [hd] at h
    cases h
  · exact hc h

theorem key_isPrefixOf_iff (pre rest : List Char) (m n : Name) :
    (pre ++ '.' :: n.chars ++ [':']).isPrefixOf (pre ++ '.' :: m.chars ++ ':' :: rest) = true ↔
      m = n := by
  rw [List.isPrefixOf_iff_prefix]
  constructor
  · rintro ⟨t, ht⟩
    rw [List.append_assoc, List.append_assoc, List.append_assoc] at ht
    have hcons : '.' :: (n.chars ++ ':' :: t) = '.' :: (m.chars ++ ':' :: rest) :=
      List.append_cancel_left ht
    have hcut := congrArg (cut ':') (List.cons.inj hcons).2
    rw [cut_append_cons ':' _ _ (n.notMem rfl), cut_append_cons ':' _ _ (m.notMem rfl)] at hcut
    exact Name.ext_chars (congrArg Prod.fst (Option.some.inj hcut)).symm
  · rintro rfl
    refine ⟨rest, ?_⟩
    rw [List.append_assoc (pre ++ _), List.singleton_append]

theorem lineDelta_line (pre : List Char) (name : Name) (x : Sample) :
    lineDelta pre name (x.line pre) =
      if x.name = name ∧ x.type = .counter then some x.value.toInt else none := by
  have hline : x.line pre = pre ++ '.' :: x.name.chars ++ ':' ::
      (formatInt x.value.toInt ++ suffix x.type) := by
    rw [Sample.line, List.append_assoc (pre ++ _), List.cons_append]
  rw [lineDelta, hline]
  by_cases hname : x.name = name
  · have hkey := (key_isPrefixOf_iff pre (formatInt x.value.toInt ++ suffix x.type)
      x.name name).mpr hname
    rw [if_pos hkey, ← hname]
    have hdrop : (pre ++ '.' :: x.name.chars ++ ':' ::
        (formatInt x.value.toInt ++ suffix x.type)).drop
          (pre ++ '.' :: x.name.chars ++ [':']).length =
        formatInt x.value.toInt ++ suffix x.type := by
      rw [List.append_cons (pre ++ _) ':' (formatInt _ ++ _)]
      exact List.drop_left
    have hbar : '|' ∉ formatInt x.value.toInt := notMem_formatInt _ rfl (by decide)
    rw [hdrop]
    cases htype : x.type with
    | counter =>
      have hboth : x.name = x.name ∧ MetricType.counter = .counter := ⟨rfl, rfl⟩
      rw [suffix, cut_append_cons '|' _ _ hbar, if_pos hboth]
      exact parseInt64_formatInt _ x.value.le_toInt x.value.toInt_lt
    | gauge =>
      rw [suffix, cut_append_cons '|' _ _ hbar]
      have hneither : ¬(x.name = x.name ∧ MetricType.gauge = .counter) :=
        fun h => by cases h.2
      exact (if_neg hneither).symm
  · have hkey := mt (key_isPrefixOf_iff pre (formatInt x.value.toInt ++ suffix x.type)
      x.name name).mp hname
    rw [if_neg hkey, if_neg (fun h => hname h.1)]

theorem filterMap_lineDelta (pre : List Char) (name : Name) (xs : List Sample) :
    (xs.map (Sample.line pre)).filterMap (lineDelta pre name) = deltas name xs := by
  induction xs with
  | nil => rfl
  | cons x xs ih =>
    rw [List.map_cons, List.filterMap_cons, lineDelta_line, ih, deltas, deltas, List.filter_cons]
    by_cases hx : x.name = name ∧ x.type = .counter
    · rw [if_pos hx, if_pos (decide_eq_true hx), List.map_cons]
    · rw [if_neg hx, if_neg (fun h => hx (of_decide_eq_true h))]

theorem Sample.newline_notMem_line {pre : List Char} (hpre : '\n' ∉ pre) (x : Sample) :
    '\n' ∉ x.line pre := by
  have hsuffix : '\n' ∉ suffix x.type := by
    cases x.type with
    | counter => decide
    | gauge => decide
  have hname : '\n' ∉ x.name.chars := x.name.notMem rfl
  have hvalue : '\n' ∉ formatInt x.value.toInt := notMem_formatInt _ rfl (by decide)
  simp [Sample.line, hpre, hname, hvalue, hsuffix]

theorem lines_emit {pre : List Char} (hpre : '\n' ∉ pre) (xs : List Sample) :
    lines '\n' (emit pre xs) = xs.map (Sample.line pre) := by
  induction xs with
  | nil => rfl
  | cons x xs ih =>
    have hone := lines_concat_of_notMem '\n' (x.newline_notMem_line hpre)
    rw [emit, List.flatMap_cons, lines_append '\n' (whole_concat '\n' _), hone, List.map_cons,
      List.singleton_append]
    exact congrArg _ ih

end Text

/-- What the sink has generated is received, pending or was dropped as the oldest of a full
backlog; without an overflow none is dropped, and the deltas of a counter in the lines received
and pending add up to its last value. -/
theorem sink_conserves (c : Conversions) (pre : List Char) (es : List Event) :
    (Whole '\n' (Sink.run c pre es).pending ∧
      (Sink.run c pre es).pending.length ≤ maxPendingBytes) ∧
    (∃ left : List (Bool × List Char),
      (Sink.run c pre es).received = (left.filter Prod.fst).map Prod.snd ∧
      left.map Prod.snd ++ lines '\n' (Sink.run c pre es).pending =
        (Sink.run c pre es).generatedLines pre) ∧
    (∀ name, Monotone name es →
      (deltas name (Sink.run c pre es).generated).sum = (lastValue name es).toNat) ∧
    (StepsMeet (Sink.step c pre) (Sink.Fits c pre) {} es →
      (Sink.run c pre es).received ++ lines '\n' (Sink.run c pre es).pending =
        (Sink.run c pre es).generatedLines pre ∧
      ('\n' ∉ pre → ∀ name, Monotone name es →
        (((Sink.run c pre es).received ++ lines '\n' (Sink.run c pre es).pending).filterMap
          (lineDelta pre name)).sum = (lastValue name es).toNat)) := by
  have hbalanced : (Sink.run c pre es).Balanced pre := Sink.balanced_run c pre es
  have hsum : ∀ name, Monotone name es →
      (deltas name (Sink.run c pre es).generated).sum = (lastValue name es).toNat :=
    fun name hname => (Sink.sum_deltas_run c pre name es hname).1
  refine ⟨⟨hbalanced.aligned.pending, hbalanced.capped⟩, hbalanced.left, hsum, ?_⟩
  intro hfits
  have hsettled : (Sink.run c pre es).Settled pre := Sink.settled_run c pre es hfits
  refine ⟨hsettled, ?_⟩
  intro hpre name hname
  rw [hsettled, Sink.generatedLines, lines_emit hpre, filterMap_lineDelta]
  exact hsum name hname

section Resend

/-- The conversions of a machine that takes an out-of-range value modulo the type's size. -/
def wrapping : Conversions where
  uint64 z := UInt64.ofNat z.toNat
  int64 z := Int64.ofInt z
  uint64_exact z h0 h := by
    have hz : z.toNat < 2^64 := by omega
    have hmod := UInt64.toNat_ofNat_of_lt' hz
    omega
  int64_exact z h0 h := Int64.toInt_ofInt_of_le h0 h

def hits : Name := ⟨['h'], by decide⟩

def hitsAre (v : UInt64) : Registry := ⟨[⟨hits, .counter v⟩], true, List.nodup_singleton _⟩

def resend : List Event :=
  [.flush (hitsAre 5) ⟨true, false, false, some 3, false⟩,
   .flush (hitsAre 7) ⟨true, false, false, none, false⟩]

theorem sink_conserves_resend :
    (Sink.run wrapping ['e'] resend).received = ["e.h:5|c".toList, "e.h:2|c".toList] ∧
      lastValue hits resend = 7 ∧
      (((Sink.run wrapping ['e'] resend).received ++
        lines '\n' (Sink.run wrapping ['e'] resend).pending).filterMap
          (lineDelta ['e'] hits)).sum = (lastValue hits resend).toNat := by
  have hvalues : counterValues hits resend = [5, 7] := by decide +kernel
  have hrises : ([5, 7] : List UInt64).Pairwise (· ≤ ·) :=
    List.pairwise_pair.mpr (by decide +kernel)
  have hbelow : ∀ v ∈ ([5, 7] : List UInt64), v.toNat < 2^53 :=
    List.forall_mem_cons.mpr ⟨by decide +kernel, List.forall_mem_singleton.mpr (by decide +kernel)⟩
  have hmono : Monotone hits resend := by
    constructor
    · rw [hvalues]
      exact hrises
    · rw [hvalues]
      exact hbelow
  have hfits : StepsMeet (Sink.step wrapping ['e']) (Sink.Fits wrapping ['e']) {} resend := by
    decide +kernel
  exact ⟨by decide +kernel, by decide +kernel,
    ((sink_conserves wrapping ['e'] resend).2.2.2 hfits).2 (by decide) hits hmono⟩

end Resend

end EnvoyGo.StatsdTCP

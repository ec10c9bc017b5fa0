import EnvoyGo.GoText
import EnvoyGo.Lines
import EnvoyGo.Runs
import EnvoyGo.StatsRegistry
import Mathlib.Data.List.Induction

/-!
The statsd sink over TCP, `internal/statssink/statsd_tcp.go`, with the delta state of `delta.go`
and the line format of `udp.go`.  The writer goroutine owns the pending bytes; each connection
is followed by the bytes its peer has received.
-/

namespace EnvoyGo.StatsdTCP

open EnvoyGo.Stats EnvoyGo.Lines EnvoyGo.Runs EnvoyGo.Text

/-- `float64(z)`: the nearest integer of 53 significant bits, ties to the even one.  A value in a
batch was converted from an integer, so the integer it equals stands for it. -/
def roundFloat64 (z : ℤ) : ℤ :=
  let m := z.natAbs
  let u := 2^(m.log2 + 1 - 53)
  let q := m / u
  let q' := if 2*(m % u) < u ∨ (2*(m % u) = u ∧ q % 2 = 0) then q else q + 1
  z.sign * (q' * u : ℕ)

/-- The conversions of a float64 back to an integer type.  The language leaves the result open
where the type does not hold the value. -/
structure Conversions where
  uint64 : ℤ → UInt64
  int64 : ℤ → Int64
  uint64_exact : ∀ z, 0 ≤ z → z < 2^64 → ((uint64 z).toNat : ℤ) = z
  int64_exact : ∀ z, -2^63 ≤ z → z < 2^63 → (int64 z).toInt = z

structure MetricFamily where
  name : Name
  type : MetricType
  metric : List ℤ
deriving DecidableEq

def familyOf (m : Metric) : MetricFamily :=
  match m.value with
  | .counter v => ⟨m.name, .counter, [roundFloat64 v.toNat]⟩
  | .gauge v => ⟨m.name, .gauge, [roundFloat64 v.toInt]⟩

def snapshot (reg : Registry) : List MetricFamily := reg.metrics.map familyOf

abbrev DeltaState := Name → UInt64

def applyMetrics (c : Conversions) : UInt64 → List ℤ → UInt64 × List ℤ
  | last, [] => (last, [])
  | last, v :: vs =>
    let cur := c.uint64 v
    let out := applyMetrics c cur vs
    (out.1, roundFloat64 (cur - last).toNat :: out.2)

/-- `deltaState.apply`: counters become the increase since the last batch, which is latched. -/
def apply (c : Conversions) : DeltaState → List MetricFamily → DeltaState × List MetricFamily
  | last, [] => (last, [])
  | last, fam :: fams =>
    match fam.type with
    | .gauge =>
      let out := apply c last fams
      (out.1, fam :: out.2)
    | .counter =>
      let ms := applyMetrics c (last fam.name) fam.metric
      let out := apply c (Function.update last fam.name ms.1) fams
      (out.1, { fam with metric := ms.2 } :: out.2)

structure Sample where
  name : Name
  type : MetricType
  value : Int64
deriving DecidableEq

def suffix : MetricType → List Char
  | .counter => ['|', 'c']
  | .gauge => ['|', 'g']

def Sample.line (pre : List Char) (x : Sample) : List Char :=
  pre ++ '.' :: x.name.chars ++ ':' :: formatInt x.value.toInt ++ suffix x.type

def samples (c : Conversions) (batch : List MetricFamily) : List Sample :=
  batch.flatMap (fun fam => fam.metric.map (fun v => ⟨fam.name, fam.type, c.int64 v⟩))

def emit (pre : List Char) (xs : List Sample) : List Char :=
  xs.flatMap (fun x => x.line pre ++ ['\n'])

def maxPendingBytes : ℕ := 2^20

def dropOldestLines (p : List Char) (capBytes : ℕ) : List Char :=
  if p.length ≤ capBytes then p
  else
    let off := p.length - capBytes
    if p[off - 1]? = some '\n' then p.drop off
    else
      match (p.drop off).findIdx? (· == '\n') with
      | none => []
      | some idx => p.drop (off + idx + 1)

/-- `bytes.LastIndexByte(p, c)`. -/
def lastIndexByte (p : List Char) (b : Char) : ℤ :=
  match p.reverse.findIdx? (· == b) with
  | none => -1
  | some i => p.length - 1 - i

/-- The writer and what left it: a connection is the bytes its peer has, `past` holds the
connections that are gone, oldest first, and `generated` every line ever emitted. -/
structure Sink where
  last : DeltaState := fun _ => 0
  pending : List Char := []
  conn : Option (List Char) := none
  closed : Bool := false
  past : List (List Char) := []
  generated : List Sample := []

/-- What the network and a concurrent `Close` do during one flush.  `wrote` is the error of the
write, with the number of bytes written before it. -/
structure Outcome where
  dialed : Bool
  closedAtDial : Bool := false
  closedAtWrite : Bool := false
  wrote : Option ℕ := none
  closedInWrite : Bool := false

inductive Event
  | flush (reg : Registry) (o : Outcome)
  | close

namespace Sink

def markClosedAndCloseConn (s : Sink) : Sink :=
  { s with closed := true, conn := none, past := s.past ++ s.conn.toList }

def generate (c : Conversions) (pre : List Char) (s : Sink) (batch : List MetricFamily) : Sink :=
  let out := apply c s.last batch
  let xs := samples c out.2
  { s with last := out.1, pending := s.pending ++ emit pre xs, generated := s.generated ++ xs }

def trim (s : Sink) : Sink :=
  { s with pending := dropOldestLines s.pending maxPendingBytes }

/-- `conn.Write(s.pending)` on the connection `w` and what the writer makes of its result. -/
def write (s : Sink) (w : List Char) : Option ℕ → Sink
  | none => { s with conn := some (w ++ s.pending), pending := [] }
  | some n =>
    let keep := (lastIndexByte (s.pending.take n) '\n' + 1).toNat
    { s with conn := none, past := s.past ++ [w ++ s.pending.take n],
             pending := s.pending.drop keep }

def attempt (s : Sink) (o : Outcome) : Sink :=
  match s.conn with
  | none => s
  | some w =>
    if o.closedInWrite then (s.write w o.wrote).markClosedAndCloseConn
    else s.write w o.wrote

def deliver (s : Sink) (o : Outcome) : Sink :=
  if o.closedAtWrite then s.markClosedAndCloseConn.attempt o else s.attempt o

/-- The flush once the pending bytes are in place. -/
def send (s : Sink) (o : Outcome) : Sink :=
  if s.pending = [] then s
  else
    match s.conn with
    | some _ => s.deliver o
    | none =>
      if o.dialed then
        if o.closedAtDial then s.markClosedAndCloseConn
        else if s.closed then s
        else { s with conn := some [] }.deliver o
      else s

def flush (c : Conversions) (pre : List Char) (s : Sink) (batch : List MetricFamily)
    (o : Outcome) : Sink :=
  (s.generate c pre batch).trim.send o

def step (c : Conversions) (pre : List Char) (s : Sink) : Event → Sink
  | .flush reg o => s.flush c pre (snapshot reg) o
  | .close => s.markClosedAndCloseConn

def run (c : Conversions) (pre : List Char) (es : List Event) : Sink := es.foldl (step c pre) {}

/-- The whole lines the peers have read, over all connections. -/
def received (s : Sink) : List (List Char) := (s.past ++ s.conn.toList).flatMap (lines '\n')

/-- The lines generated so far, as a reader of the stream counts them. -/
def generatedLines (pre : List Char) (s : Sink) : List (List Char) :=
  lines '\n' (emit pre s.generated)

end Sink

section Bytes

theorem emit_append (pre : List Char) (xs ys : List Sample) :
    emit pre (xs ++ ys) = emit pre xs ++ emit pre ys := List.flatMap_append

theorem whole_emit (pre : List Char) (xs : List Sample) : Whole '\n' (emit pre xs) := by
  induction xs with
  | nil => exact whole_nil '\n'
  | cons x xs ih =>
    rw [emit, List.flatMap_cons]
    exact whole_append '\n' (whole_concat '\n' (x.line pre)) ih

theorem dropOldestLines_eq_drop {p : List Char} (hp : Whole '\n' p) (capBytes : ℕ) :
    ∃ k, dropOldestLines p capBytes = p.drop k ∧ Whole '\n' (p.take k) ∧
      p.length - capBytes ≤ k := by
  rw [dropOldestLines]
  by_cases hlen : p.length ≤ capBytes
  · rw [if_pos hlen]
    exact ⟨0, rfl, whole_nil '\n', by omega⟩
  rw [if_neg hlen]
  dsimp only
  by_cases hat : p[p.length - capBytes - 1]? = some '\n'
  · rw [if_pos hat]
    have hk : p.length - capBytes - 1 + 1 = p.length - capBytes := by omega
    have hwhole := whole_take_succ '\n' hat
    rw [hk] at hwhole
    exact ⟨p.length - capBytes, rfl, hwhole, Nat.le_refl _⟩
  rw [if_neg hat]
  cases hidx : (p.drop (p.length - capBytes)).findIdx? (· == '\n') with
  | none =>
    refine ⟨p.length, (List.drop_length).symm, ?_, Nat.sub_le _ _⟩
    rw [List.take_length]
    exact hp
  | some idx =>
    refine ⟨p.length - capBytes + idx + 1, rfl, ?_, by omega⟩
    obtain ⟨hlt, hnl, -⟩ := List.findIdx?_eq_some_iff_getElem.mp hidx
    apply whole_take_succ
    rw [← List.getElem?_drop, List.getElem?_eq_getElem hlt]
    exact congrArg some (beq_iff_eq.mp hnl)

theorem lastIndexByte_concat_self (q : List Char) (b : Char) :
    lastIndexByte (q ++ [b]) b = q.length := by
  have hfind : (q ++ [b]).reverse.findIdx? (· == b) = some 0 := by
    rw [List.reverse_append, List.reverse_singleton, List.singleton_append, List.findIdx?_cons,
      beq_self_eq_true, if_pos rfl]
  rw [lastIndexByte, hfind, List.length_append, List.length_singleton]
  simp

theorem lastIndexByte_concat_of_ne (q : List Char) {x b : Char} (hx : x ≠ b) :
    lastIndexByte (q ++ [x]) b = lastIndexByte q b := by
  have hfind : (q ++ [x]).reverse.findIdx? (· == b) =
      (q.reverse.findIdx? (· == b)).map (· + 1) := by
    rw [List.reverse_append, List.reverse_singleton, List.singleton_append, List.findIdx?_cons,
      beq_false_of_ne hx, if_neg Bool.false_ne_true]
  rw [lastIndexByte, lastIndexByte, hfind, List.length_append, List.length_singleton]
  cases q.reverse.findIdx? (· == b) with
  | none => rfl
  | some i =>
    show ((q.length + 1 : ℕ) : ℤ) - 1 - ((i + 1 : ℕ) : ℤ) = (q.length : ℤ) - 1 - (i : ℤ)
    omega

theorem lastIndexByte_spec (q : List Char) :
    (lastIndexByte q '\n' + 1).toNat ≤ q.length ∧
      Whole '\n' (q.take (lastIndexByte q '\n' + 1).toNat) ∧
      '\n' ∉ q.drop (lastIndexByte q '\n' + 1).toNat := by
  induction q using List.reverseRecOn with
  | nil => exact ⟨Nat.le_refl 0, whole_nil '\n', List.not_mem_nil⟩
  | append_singleton q x ih =>
    by_cases hx : x = '\n'
    · subst hx
      have hk : (lastIndexByte (q ++ ['\n']) '\n' + 1).toNat = (q ++ ['\n']).length := by
        rw [lastIndexByte_concat_self, List.length_append, List.length_singleton]
        omega
      rw [hk, List.take_length, List.drop_length]
      exact ⟨Nat.le_refl _, whole_concat '\n' q, List.not_mem_nil⟩
    · rw [lastIndexByte_concat_of_ne q hx]
      obtain ⟨hle, hwhole, hnone⟩ := ih
      refine ⟨?_, ?_, ?_⟩
      · rw [List.length_append]
        omega
      · rw [List.take_append_of_le_length hle]
        exact hwhole
      · rw [List.drop_append_of_le_length hle, List.mem_append, List.mem_singleton]
        exact not_or.mpr ⟨hnone, Ne.symm hx⟩

theorem resume_spec (p : List Char) (n : ℕ) :
    lines '\n' (p.take n) =
        lines '\n' (p.take (lastIndexByte (p.take n) '\n' + 1).toNat) ∧
      Whole '\n' (p.take (lastIndexByte (p.take n) '\n' + 1).toNat) := by
  obtain ⟨hle, hwhole, hnone⟩ := lastIndexByte_spec (p.take n)
  have hn := hle.trans (List.length_take_le n p)
  rw [List.take_take, Nat.min_eq_left hn] at hwhole
  refine ⟨?_, hwhole⟩
  have happ := List.take_append_drop (lastIndexByte (p.take n) '\n' + 1).toNat (p.take n)
  rw [List.take_take, Nat.min_eq_left hn] at happ
  calc lines '\n' (p.take n)
      = lines '\n' (p.take (lastIndexByte (p.take n) '\n' + 1).toNat ++
          (p.take n).drop (lastIndexByte (p.take n) '\n' + 1).toNat) := by rw [happ]
    _ = lines '\n' (p.take (lastIndexByte (p.take n) '\n' + 1).toNat) :=
        lines_append_of_notMem '\n' hwhole hnone

end Bytes

namespace Sink

structure Aligned (s : Sink) : Prop where
  pending : Whole '\n' s.pending
  conn : ∀ w, s.conn = some w → Whole '\n' w

/-- From `s` to `s'` some of the oldest pending lines reached a peer, and nothing else went. -/
structure Delivers (s s' : Sink) : Prop where
  delivered : ∃ d, s'.received = s.received ++ d ∧
    lines '\n' s.pending = d ++ lines '\n' s'.pending
  aligned : s'.Aligned
  length_le : s'.pending.length ≤ s.pending.length
  generated : s'.generated = s.generated
  last : s'.last = s.last

variable {s : Sink}

theorem Delivers.rfl (h : s.Aligned) : Delivers s s :=
  ⟨⟨[], (List.append_nil _).symm, (List.nil_append _).symm⟩, h, Nat.le_refl _, Eq.refl _, Eq.refl _⟩

theorem Delivers.trans {t u : Sink} (h : Delivers s t) (h' : Delivers t u) : Delivers s u := by
  obtain ⟨d, hd, hp⟩ := h.delivered
  obtain ⟨d', hd', hp'⟩ := h'.delivered
  refine ⟨⟨d ++ d', ?_, ?_⟩, h'.aligned, h'.length_le.trans h.length_le,
    h'.generated.trans h.generated, h'.last.trans h.last⟩
  · rw [hd', hd, List.append_assoc]
  · rw [hp, hp', List.append_assoc]

theorem received_of_conn {w : List Char} (h : s.conn = some w) :
    s.received = s.past.flatMap (lines '\n') ++ lines '\n' w := by
  rw [received, h, Option.toList_some, List.flatMap_append, List.flatMap_singleton]

theorem delivers_markClosedAndCloseConn (h : s.Aligned) : Delivers s s.markClosedAndCloseConn := by
  refine ⟨⟨[], ?_, (List.nil_append _).symm⟩, ⟨h.pending, (fun w hw => by cases hw)⟩,
    Nat.le_refl _, Eq.refl _, Eq.refl _⟩
  rw [List.append_nil]
  show (s.past ++ s.conn.toList ++ []).flatMap (lines '\n') = s.received
  rw [List.append_nil]
  exact Eq.refl _

theorem delivers_dialed (h : s.Aligned) (hconn : s.conn = none) :
    Delivers s { s with conn := some [] } := by
  refine ⟨⟨[], ?_, (List.nil_append _).symm⟩, ⟨h.pending, ?_⟩, Nat.le_refl _, Eq.refl _, Eq.refl _⟩
  · rw [List.append_nil, received, received, hconn, Option.toList_some, List.flatMap_append,
      List.flatMap_singleton, lines_nil, List.append_nil, Option.toList_none, List.append_nil]
  · intro w hw
    obtain rfl := Option.some.inj hw
    exact whole_nil '\n'

theorem delivers_write (h : s.Aligned) {w : List Char} (hconn : s.conn = some w) (o : Option ℕ) :
    Delivers s (s.write w o) := by
  have hw := h.conn w hconn
  cases o with
  | none =>
    refine ⟨⟨lines '\n' s.pending, ?_, (List.append_nil _).symm⟩, ⟨whole_nil '\n', ?_⟩,
      Nat.zero_le _, Eq.refl _, Eq.refl _⟩
    · have hrec : (s.write w none).received =
          s.past.flatMap (lines '\n') ++ lines '\n' (w ++ s.pending) :=
        received_of_conn (Eq.refl _)
      rw [hrec, received_of_conn hconn, lines_append '\n' hw, List.append_assoc]
    · intro v hv
      obtain rfl := Option.some.inj hv
      exact whole_append '\n' hw h.pending
  | some n =>
    obtain ⟨hlines, hkeep⟩ := resume_spec s.pending n
    refine ⟨⟨lines '\n' (s.pending.take n), ?_, ?_⟩,
      ⟨whole_drop '\n' h.pending hkeep, (fun v hv => by cases hv)⟩, ?_, Eq.refl _, Eq.refl _⟩
    · have hrec : (s.write w (some n)).received =
          s.past.flatMap (lines '\n') ++ lines '\n' (w ++ s.pending.take n) := by
        show (s.past ++ [w ++ s.pending.take n] ++ []).flatMap (lines '\n') = _
        rw [List.append_nil, List.flatMap_append, List.flatMap_singleton]
      rw [hrec, received_of_conn hconn, lines_append '\n' hw, List.append_assoc]
    · rw [hlines]
      exact (lines_take_append_drop '\n' hkeep).symm
    · show (s.pending.drop _).length ≤ s.pending.length
      rw [List.length_drop]
      exact Nat.sub_le _ _

theorem delivers_attempt (h : s.Aligned) (o : Outcome) : Delivers s (s.attempt o) := by
  cases hconn : s.conn with
  | none =>
    have heq : s.attempt o = s := by simp only [attempt, hconn]
    rw [heq]
    exact .rfl h
  | some w =>
    have hwrite := delivers_write h hconn o.wrote
    simp only [attempt, hconn]
    by_cases hin : o.closedInWrite = true
    · rw [if_pos hin]
      exact hwrite.trans (delivers_markClosedAndCloseConn hwrite.aligned)
    · rw [if_neg hin]
      exact hwrite

theorem delivers_deliver (h : s.Aligned) (o : Outcome) : Delivers s (s.deliver o) := by
  rw [deliver]
  by_cases hat : o.closedAtWrite = true
  · rw [if_pos hat]
    have hmark := delivers_markClosedAndCloseConn h
    exact hmark.trans (delivers_attempt hmark.aligned o)
  · rw [if_neg hat]
    exact delivers_attempt h o

theorem delivers_send (h : s.Aligned) (o : Outcome) : Delivers s (s.send o) := by
  by_cases hnil : s.pending = []
  · rw [send, if_pos hnil]
    exact .rfl h
  cases hconn : s.conn with
  | some w =>
    simp only [send, if_neg hnil, hconn]
    exact delivers_deliver h o
  | none =>
    simp only [send, if_neg hnil, hconn]
    by_cases hdial : o.dialed = true
    · rw [if_pos hdial]
      by_cases hat : o.closedAtDial = true
      · rw [if_pos hat]
        exact delivers_markClosedAndCloseConn h
      rw [if_neg hat]
      by_cases hclosed : s.closed = true
      · rw [if_pos hclosed]
        exact .rfl h
      · rw [if_neg hclosed]
        have hdialed := delivers_dialed h hconn
        exact hdialed.trans (delivers_deliver hdialed.aligned o)
    · rw [if_neg hdial]
      exact .rfl h

/-- The step does not push the pending bytes over their cap. -/
def Fits (c : Conversions) (pre : List Char) (s : Sink) : Event → Prop
  | .flush reg _ => (s.generate c pre (snapshot reg)).pending.length ≤ maxPendingBytes
  | .close => True

instance (c : Conversions) (pre : List Char) (s : Sink) (e : Event) :
    Decidable (s.Fits c pre e) := by
  cases e <;> unfold Fits <;> infer_instance

theorem Aligned.generate (h : s.Aligned) (c : Conversions) (pre : List Char)
    (batch : List MetricFamily) : (s.generate c pre batch).Aligned :=
  ⟨whole_append '\n' h.pending (whole_emit pre _), h.conn⟩

theorem Aligned.trim (h : s.Aligned) :
    s.trim.Aligned ∧ s.trim.pending.length ≤ maxPendingBytes ∧
      ∃ dropped, lines '\n' s.pending = dropped ++ lines '\n' s.trim.pending ∧
        (s.pending.length ≤ maxPendingBytes → dropped = []) := by
  by_cases hlen : s.pending.length ≤ maxPendingBytes
  · have htrim : s.trim = s := by
      rw [Sink.trim, dropOldestLines, if_pos hlen]
    rw [htrim]
    exact ⟨h, hlen, [], (List.nil_append _).symm, fun _ => Eq.refl _⟩
  · obtain ⟨k, hk, hwhole, hle⟩ := dropOldestLines_eq_drop h.pending maxPendingBytes
    have htrim : s.trim.pending = s.pending.drop k := hk
    refine ⟨⟨?_, h.conn⟩, ?_, lines '\n' (s.pending.take k), ?_, fun hfit => absurd hfit hlen⟩
    · rw [htrim]
      exact whole_drop '\n' h.pending hwhole
    · rw [htrim, List.length_drop]
      omega
    · rw [htrim]
      exact (lines_take_append_drop '\n' hwhole).symm

/-- One step: of the pending and the new lines, in order, some are dropped, then some reach a
peer, and the others are pending. -/
structure Accounts (c : Conversions) (pre : List Char) (s : Sink) (e : Event) (s' : Sink) :
    Prop where
  aligned : s'.Aligned
  capped : s'.pending.length ≤ maxPendingBytes
  moved : ∃ fresh dropped delivered,
    s'.generatedLines pre = s.generatedLines pre ++ fresh ∧
    s'.received = s.received ++ delivered ∧
    lines '\n' s.pending ++ fresh = dropped ++ delivered ++ lines '\n' s'.pending ∧
    (s.Fits c pre e → dropped = [])

theorem accounts_flush (h : s.Aligned) (c : Conversions) (pre : List Char) (reg : Registry)
    (o : Outcome) : Accounts c pre s (.flush reg o) (s.flush c pre (snapshot reg) o) := by
  have hgen := h.generate c pre (snapshot reg)
  obtain ⟨htrim, hcap, dropped, hdropped, hfits⟩ := hgen.trim
  have hsend := delivers_send htrim o
  obtain ⟨delivered, hreceived, hlines⟩ := hsend.delivered
  let xs := samples c (apply c s.last (snapshot reg)).2
  refine ⟨hsend.aligned, hsend.length_le.trans hcap, lines '\n' (emit pre xs), dropped,
    delivered, ?_, hreceived, ?_, hfits⟩
  · have hgenerated : (s.flush c pre (snapshot reg) o).generated = s.generated ++ xs :=
      hsend.generated
    rw [generatedLines, hgenerated, emit_append]
    exact lines_append '\n' (whole_emit pre _) _
  · calc lines '\n' s.pending ++ lines '\n' (emit pre xs)
        = lines '\n' (s.generate c pre (snapshot reg)).pending :=
          (lines_append '\n' h.pending _).symm
      _ = dropped ++ lines '\n' (s.generate c pre (snapshot reg)).trim.pending := hdropped
      _ = dropped ++ delivered ++ lines '\n' (s.flush c pre (snapshot reg) o).pending := by
          rw [hlines, List.append_assoc]
          exact Eq.refl _

theorem accounts_step (h : s.Aligned) (hcap : s.pending.length ≤ maxPendingBytes)
    (c : Conversions) (pre : List Char) (e : Event) : Accounts c pre s e (s.step c pre e) := by
  cases e with
  | flush reg o => exact accounts_flush h c pre reg o
  | close =>
    have hmark := delivers_markClosedAndCloseConn h
    obtain ⟨delivered, hreceived, hlines⟩ := hmark.delivered
    refine ⟨hmark.aligned, hcap, [], [], delivered, (List.append_nil _).symm, hreceived, ?_,
      fun _ => Eq.refl _⟩
    rw [List.append_nil, List.nil_append]
    exact hlines

/-- The account of every state that a run reaches.  `left` lists the lines that are no longer
pending, oldest first, each with whether a peer has it. -/
structure Balanced (pre : List Char) (s : Sink) : Prop where
  aligned : s.Aligned
  capped : s.pending.length ≤ maxPendingBytes
  left : ∃ left : List (Bool × List Char),
    s.received = (left.filter Prod.fst).map Prod.snd ∧
    left.map Prod.snd ++ lines '\n' s.pending = s.generatedLines pre

/-- Nothing was dropped. -/
def Settled (pre : List Char) (s : Sink) : Prop :=
  s.received ++ lines '\n' s.pending = s.generatedLines pre

theorem balanced_init (pre : List Char) : Balanced pre {} :=
  ⟨⟨whole_nil '\n', (fun w hw => by cases hw)⟩, Nat.zero_le _, [], Eq.refl _, Eq.refl _⟩

theorem Balanced.step {pre : List Char} (h : s.Balanced pre) (c : Conversions) (e : Event) :
    (s.step c pre e).Balanced pre := by
  obtain ⟨haligned, hcapped, fresh, dropped, delivered, hgen, hrec, hlines, -⟩ :=
    accounts_step h.aligned h.capped c pre e
  obtain ⟨left, hleft, hsum⟩ := h.left
  have hdropped : (dropped.map (Prod.mk false)).filter Prod.fst = [] := by
    apply List.filter_eq_nil_iff.mpr
    intro x hx
    obtain ⟨l, -, rfl⟩ := List.mem_map.mp hx
    exact Bool.false_ne_true
  have hdelivered : (delivered.map (Prod.mk true)).filter Prod.fst =
      delivered.map (Prod.mk true) := by
    apply List.filter_eq_self.mpr
    intro x hx
    obtain ⟨l, -, rfl⟩ := List.mem_map.mp hx
    exact Eq.refl _
  have hsnd : ∀ (b : Bool) (ls : List (List Char)), (ls.map (Prod.mk b)).map Prod.snd = ls := by
    intro b ls
    rw [List.map_map]
    exact List.map_id ls
  refine ⟨haligned, hcapped,
    left ++ dropped.map (Prod.mk false) ++ delivered.map (Prod.mk true), ?_, ?_⟩
  · rw [List.filter_append, List.filter_append, hdropped, hdelivered, List.append_nil,
      List.map_append, hsnd, ← hleft]
    exact hrec
  · rw [List.map_append, List.map_append, hsnd, hsnd, List.append_assoc, List.append_assoc,
      ← List.append_assoc dropped, ← hlines, ← List.append_assoc, hsum, hgen]

theorem balanced_run (c : Conversions) (pre : List Char) (es : List Event) :
    (run c pre es).Balanced pre := by
  have hstep : ∀ s e, Balanced pre s → Balanced pre (step c pre s e) :=
    fun _ e hs => hs.step c e
  exact invariant_of_run hstep es _ (balanced_init pre)

theorem Settled.step {pre : List Char} (hb : s.Balanced pre) (h : s.Settled pre) (c : Conversions)
    (e : Event) (hfits : s.Fits c pre e) : (s.step c pre e).Settled pre := by
  obtain ⟨-, -, fresh, dropped, delivered, hgen, hrec, hlines, hdrop⟩ :=
    accounts_step hb.aligned hb.capped c pre e
  rw [hdrop hfits, List.nil_append] at hlines
  rw [Settled, hrec, hgen, List.append_assoc, ← hlines, ← List.append_assoc]
  exact congrArg (· ++ fresh) h

theorem settled_run (c : Conversions) (pre : List Char) (es : List Event)
    (hfits : StepsMeet (step c pre) (Fits c pre) {} es) : (run c pre es).Settled pre := by
  have hstep : ∀ s e, Fits c pre s e → Balanced pre s ∧ Settled pre s →
      Balanced pre (step c pre s e) ∧ Settled pre (step c pre s e) :=
    fun _ e he hs => ⟨hs.1.step c e, Settled.step hs.1 hs.2 c e he⟩
  exact (invariant_of_steps hstep es _ ⟨balanced_init pre, Eq.refl _⟩ hfits).2

end Sink

end EnvoyGo.StatsdTCP

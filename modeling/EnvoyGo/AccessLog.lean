import EnvoyGo.GoText
import EnvoyGo.Lines
import EnvoyGo.Runs

/-!
The access log, `internal/accesslog`: the default format of a record, and the file sink with its
bounded channel and its writer goroutine.
-/

namespace EnvoyGo.AccessLog

open Text

/-- `logEscaper`, byte by byte. -/
def escaped (c : Char) : List Char :=
  if c = '\\' then ['\\', '\\'] else if c = '"' then ['\\', '"']
  else if c = '\n' then ['\\', 'n'] else if c = '\r' then ['\\', 'r'] else [c]

def escape (s : List Char) : List Char :=
  if s.any (fun c => ['\\', '"', '\n', '\r'].contains c) then s.flatMap escaped else s

def orDash (s : List Char) : List Char := if s = [] then ['-'] else s

/-- The text of a time in the layout `2006-01-02T15:04:05.000Z`. -/
structure TimeText where
  text : List Char
  plain : text.all (fun c => c.isDigit || ['-', ':', '.', 'T', 'Z'].contains c) = true

/-- `Record` up to the captured headers, which the file format leaves out. -/
structure Record where
  startTime : TimeText
  method : List Char
  path : List Char
  protocol : List Char
  responseCode : ℤ
  bytesSent : ℤ
  duration : ℤ
  authority : List Char
  userAgent : List Char
  upstreamHost : List Char

def quote (s : List Char) : List Char := '"' :: s ++ ['"']

/-- `Default` up to the newline. -/
def Record.line (r : Record) : List Char :=
  '[' :: r.startTime.text ++ [']', ' '] ++
    quote (escape r.method ++ ' ' :: escape (orDash r.path) ++ ' ' :: escape r.protocol) ++
    (' ' :: formatInt r.responseCode ++ " - - ".toList ++ formatInt r.bytesSent ++ [' '] ++
      formatInt (r.duration.tdiv 1000000) ++ " - ".toList) ++
    quote ['-'] ++ [' '] ++ quote (escape (orDash r.userAgent)) ++ [' '] ++ quote ['-'] ++ [' '] ++
    quote (escape (orDash r.authority)) ++ [' '] ++ quote (escape (orDash r.upstreamHost))

inductive Mode
  | outside
  | inside (field : List Char)
  | afterBackslash (field : List Char)

def unescaped (c : Char) : Char := if c = 'n' then '\n' else if c = 'r' then '\r' else c

/-- The quoted fields of a line, as a reader of the format takes them. -/
def fields : Mode → List Char → List (List Char)
  | _, [] => []
  | .outside, c :: r => if c = '"' then fields (.inside []) r else fields .outside r
  | .inside f, c :: r =>
    if c = '"' then f :: fields .outside r
    else if c = '\\' then fields (.afterBackslash f) r
    else fields (.inside (f ++ [c])) r
  | .afterBackslash f, c :: r => fields (.inside (f ++ [unescaped c])) r

theorem escape_eq_flatMap (s : List Char) : escape s = s.flatMap escaped := by
  unfold escape
  split_ifs with h
  · rfl
  -- no byte to escape, so the replacer would copy the text
  · induction s with
    | nil => rfl
    | cons c s ih =>
      rw [List.any_cons, Bool.or_eq_true, not_or] at h
      have hplain : escaped c = [c] := by
        have hc := h.1
        simp only [List.contains_cons, List.contains_nil, Bool.or_eq_true, beq_iff_eq, not_or] at hc
        unfold escaped
        rw [if_neg hc.1, if_neg hc.2.1, if_neg hc.2.2.1, if_neg hc.2.2.2.1]
      rw [List.flatMap_cons, hplain, ← ih h.2]
      rfl

theorem newline_notMem_escape (s : List Char) : '\n' ∉ escape s := by
  rw [escape_eq_flatMap, List.mem_flatMap]
  rintro ⟨c, -, hc⟩
  unfold escaped at hc
  split_ifs at hc with h1 h2 h3 h4
  · simp at hc
  · simp at hc
  · simp at hc
  · simp at hc
  · exact h3 (List.mem_singleton.mp hc).symm

/-- One escaped byte is read as the byte. -/
theorem fields_escaped (f r : List Char) (c : Char) :
    fields (.inside f) (escaped c ++ r) = fields (.inside (f ++ [c])) r := by
  unfold escaped
  split_ifs with h1 h2 h3 h4
  · subst h1
    rfl
  · subst h2
    rfl
  · subst h3
    rfl
  · subst h4
    rfl
  · rw [List.singleton_append, fields, if_neg h2, if_neg h1]

theorem fields_escape (s f r : List Char) :
    fields (.inside f) (escape s ++ r) = fields (.inside (f ++ s)) r := by
  rw [escape_eq_flatMap]
  induction s generalizing f with
  | nil => rw [List.flatMap_nil, List.nil_append, List.append_nil]
  | cons c s ih =>
    rw [List.flatMap_cons, List.append_assoc, fields_escaped, ih, List.append_assoc,
      List.singleton_append]

theorem fields_outside {s : List Char} (hs : '"' ∉ s) (r : List Char) :
    fields .outside (s ++ r) = fields .outside r := by
  induction s with
  | nil => rfl
  | cons c s ih =>
    obtain ⟨hc, hs⟩ := not_or.mp (mt List.mem_cons.mpr hs)
    rw [List.cons_append, fields, if_neg (Ne.symm hc), ih hs]

theorem fields_quote (s r : List Char) :
    fields .outside (quote (escape s) ++ r) = s :: fields .outside r := by
  unfold quote
  rw [List.cons_append, List.cons_append, List.append_assoc, fields, if_pos rfl, fields_escape,
    List.nil_append, List.singleton_append, fields, if_pos rfl]

theorem notMem_formatInt {c : Char} (hdigit : c.isDigit = false) (hdash : c ≠ '-') (n : ℤ) :
    c ∉ formatInt n := by
  intro hc
  rcases mem_formatInt hc with h | h
  · rw [hdigit] at h
    cases h
  · exact hdash h

/-- The line as texts outside of quotes, each with the field behind it. -/
def Record.parts (r : Record) : List (List Char × List Char) :=
  [('[' :: r.startTime.text ++ [']', ' '], r.method ++ ' ' :: orDash r.path ++ ' ' :: r.protocol),
    (' ' :: formatInt r.responseCode ++ " - - ".toList ++ formatInt r.bytesSent ++ [' '] ++
      formatInt (r.duration.tdiv 1000000) ++ " - ".toList, ['-']),
    ([' '], orDash r.userAgent), ([' '], ['-']), ([' '], orDash r.authority),
    ([' '], orDash r.upstreamHost)]

theorem escape_append (s t : List Char) : escape (s ++ t) = escape s ++ escape t := by
  rw [escape_eq_flatMap, escape_eq_flatMap, escape_eq_flatMap, List.flatMap_append]

theorem line_eq_parts (r : Record) :
    r.line = r.parts.flatMap fun p => p.1 ++ quote (escape p.2) := by
  have hspace (s : List Char) : escape (' ' :: s) = ' ' :: escape s := escape_append [' '] s
  have hdash : escape ['-'] = ['-'] := rfl
  simp only [Record.line, Record.parts, List.flatMap_cons, List.flatMap_nil, escape_append, hspace,
    hdash, List.append_assoc, List.append_nil]

theorem notMem_gap {c : Char} (hc : c = '"' ∨ c = '\n') (r : Record) : ∀ p ∈ r.parts, c ∉ p.1 := by
  have htime : c ∉ r.startTime.text := by
    intro hmem
    have hplain := List.all_eq_true.mp r.startTime.plain c hmem
    rcases hc with rfl | rfl
    · cases hplain
    · cases hplain
  have hnum : ∀ n, c ∉ formatInt n := by
    rcases hc with rfl | rfl
    · exact notMem_formatInt rfl (by decide)
    · exact notMem_formatInt rfl (by decide)
  intro p hp
  simp only [Record.parts, List.mem_cons, List.not_mem_nil, or_false] at hp
  rcases hc with rfl | rfl <;> rcases hp with rfl | rfl | rfl | rfl | rfl | rfl <;>
    simp [htime, hnum]

theorem fields_line (r : Record) : fields .outside r.line = r.parts.map Prod.snd := by
  -- the reader skips a gap, and takes the quoted field behind it
  rw [line_eq_parts]
  have hgap := notMem_gap (.inl rfl) r
  generalize r.parts = ps at hgap ⊢
  induction ps with
  | nil => rfl
  | cons p ps ih =>
    rw [List.flatMap_cons, List.append_assoc, fields_outside (hgap p List.mem_cons_self),
      fields_quote, ih fun q hq => hgap q (List.mem_cons_of_mem p hq), List.map_cons]

theorem newline_notMem_line (r : Record) : '\n' ∉ r.line := by
  rw [line_eq_parts, List.mem_flatMap]
  rintro ⟨p, hp, hmem⟩
  rcases List.mem_append.mp hmem with h | h
  · exact notMem_gap (.inr rfl) r p hp h
  · unfold quote at h
    simp [newline_notMem_escape] at h

variable {R : Type}

/-- `AsyncFileSink`.  `taken` is the record that the writer has received and not written yet; a
write that failed has left some of the record's first bytes in the file.  Submitted and accepted
records are kept to compare with. -/
structure Sink (R : Type) where
  cap : ℕ
  ch : List R := []
  taken : Option R := none
  written : List (R × Option ℕ) := []
  dropped : ℕ := 0
  chClosed : Bool := false
  done : Bool := false
  fileClosed : Bool := false
  panicked : Bool := false
  submitted : List R := []
  accepted : List R := []

inductive Event (R : Type)
  | submit (r : R)
  | close
  | receive
  | write
  | writeFails (n : ℕ)
  | closeFile

/-- A full channel drops the new record. A send on a closed channel panics. -/
def Sink.submit (s : Sink R) (r : R) : Sink R :=
  if s.chClosed then { s with panicked := true }
  else if s.ch.length < s.cap then { s with
    ch := s.ch ++ [r], submitted := s.submitted ++ [r], accepted := s.accepted ++ [r] }
  else { s with dropped := s.dropped + 1, submitted := s.submitted ++ [r] }

/-- The head of the loop of `run`. -/
def Sink.receive (s : Sink R) : Sink R :=
  match s.taken, s.ch with
  | some _, _ => s
  | none, r :: ch => { s with taken := some r, ch := ch }
  | none, [] => if s.chClosed then { s with done := true } else s

def Sink.wrote (s : Sink R) (cut : Option ℕ) : Sink R :=
  match s.taken with
  | none => s
  | some r => { s with taken := none, written := s.written ++ [(r, cut)] }

def step (s : Sink R) : Event R → Sink R
  | .submit r => s.submit r
  | .close => { s with chClosed := true }
  | .receive => s.receive
  | .write => s.wrote none
  | .writeFails n => s.wrote (some n)
  | .closeFile => if s.done then { s with fileClosed := true } else s

def run (cap : ℕ) (es : List (Event R)) : Sink R := es.foldl step { cap := cap }

/-- What the file holds. -/
def Sink.file (formatter : R → List Char) (s : Sink R) : List Char :=
  s.written.flatMap fun p => p.2.elim (formatter p.1) fun n => (formatter p.1).take n

/-- Every accepted record is in the channel, with the writer, or behind a write, in this order, and
every other one is counted as dropped. -/
structure Sink.Kept (cap : ℕ) (s : Sink R) : Prop where
  room : s.cap = cap ∧ s.ch.length ≤ cap
  order : s.accepted = s.written.map Prod.fst ++ s.taken.toList ++ s.ch
  counted : s.submitted.length = s.accepted.length + s.dropped
  among : s.accepted.Sublist s.submitted
  drained : s.done = true → s.chClosed = true ∧ s.ch = [] ∧ s.taken = none
  last : s.fileClosed = true → s.done = true

variable {cap : ℕ} {s : Sink R}

theorem kept_submit (h : s.Kept cap) (r : R) : (s.submit r).Kept cap := by
  obtain ⟨⟨hcap, hroom⟩, horder, hcounted, hamong, hdrained, hlast⟩ := h
  unfold Sink.submit
  split_ifs with hclosed hlt
  · exact ⟨⟨hcap, hroom⟩, horder, hcounted, hamong, hdrained, hlast⟩
  · refine ⟨⟨hcap, ?_⟩, ?_, ?_, hamong.append (List.Sublist.refl _), ?_, hlast⟩
    · rw [List.length_append, List.length_singleton]
      omega
    · show s.accepted ++ [r] = s.written.map Prod.fst ++ s.taken.toList ++ (s.ch ++ [r])
      rw [horder, List.append_assoc _ s.ch]
    · simp only [List.length_append, List.length_singleton]
      omega
    -- the writer is done only after the close, and then the send would have panicked
    · exact fun hdone => absurd (hdrained hdone).1 hclosed
  · refine ⟨⟨hcap, hroom⟩, horder, ?_, hamong.trans (List.sublist_append_left _ _), hdrained, hlast⟩
    simp only [List.length_append, List.length_singleton]
    omega

theorem kept_receive (h : s.Kept cap) : s.receive.Kept cap := by
  obtain ⟨⟨hcap, hroom⟩, horder, hcounted, hamong, hdrained, hlast⟩ := h
  unfold Sink.receive
  split
  · exact ⟨⟨hcap, hroom⟩, horder, hcounted, hamong, hdrained, hlast⟩
  · rename_i r ch htaken hch
    rw [hch, List.length_cons] at hroom
    refine ⟨⟨hcap, (Nat.le_succ _).trans hroom⟩, ?_, hcounted, hamong, ?_, hlast⟩
    · rw [htaken, hch] at horder
      simpa using horder
    -- the goroutine has returned, so the channel was empty
    · intro hdone
      have hnil := (hdrained hdone).2.1
      rw [hch] at hnil
      cases hnil
  · rename_i htaken hch
    split_ifs with hclosed
    · exact ⟨⟨hcap, hroom⟩, horder, hcounted, hamong, fun _ => ⟨hclosed, hch, htaken⟩, fun _ => rfl⟩
    · exact ⟨⟨hcap, hroom⟩, horder, hcounted, hamong, hdrained, hlast⟩

theorem kept_wrote (h : s.Kept cap) (cut : Option ℕ) : (s.wrote cut).Kept cap := by
  obtain ⟨hroom, horder, hcounted, hamong, hdrained, hlast⟩ := h
  unfold Sink.wrote
  split
  · exact ⟨hroom, horder, hcounted, hamong, hdrained, hlast⟩
  · rename_i r htaken
    refine ⟨hroom, ?_, hcounted, hamong, ?_, hlast⟩
    · rw [htaken] at horder
      simpa using horder
    · intro hdone
      rw [htaken] at hdrained
      cases (hdrained hdone).2.2

theorem kept_step (e : Event R) (h : s.Kept cap) : (step s e).Kept cap := by
  cases e with
  | submit r => exact kept_submit h r
  | close =>
    exact ⟨h.room, h.order, h.counted, h.among, fun hd => ⟨rfl, (h.drained hd).2⟩, h.last⟩
  | receive => exact kept_receive h
  | write => exact kept_wrote h _
  | writeFails n => exact kept_wrote h _
  | closeFile =>
    unfold step
    split_ifs with hdone
    · exact ⟨h.room, h.order, h.counted, h.among, h.drained, fun _ => hdone⟩
    · exact h

theorem kept_run (cap : ℕ) (es : List (Event R)) : (run cap es).Kept cap :=
  Runs.invariant_of_run (fun _ e => kept_step e) es _
    ⟨⟨rfl, Nat.zero_le _⟩, rfl, rfl, List.Sublist.refl _, (fun h => by cases h), fun h => by cases h⟩

/-- `Default`. -/
def Record.format (r : Record) : List Char := r.line ++ ['\n']

theorem whole_step {e : Event R} (he : ∀ n, e ≠ .writeFails n)
    (h : ∀ p ∈ s.written, p.2 = none) : ∀ p ∈ (step s e).written, p.2 = none := by
  cases e with
  | submit r =>
    simp only [step, Sink.submit]
    split_ifs <;> exact h
  | close => exact h
  | receive =>
    simp only [step, Sink.receive]
    split
    · exact h
    · exact h
    · split_ifs <;> exact h
  | write =>
    simp only [step, Sink.wrote]
    split
    · exact h
    · exact List.forall_mem_append.mpr ⟨h, List.forall_mem_singleton.mpr rfl⟩
  | writeFails n => exact absurd rfl (he n)
  | closeFile =>
    simp only [step]
    split_ifs <;> exact h

theorem whole_run {es : List (Event R)} (hes : ∀ e ∈ es, ∀ n, e ≠ .writeFails n)
    (h : ∀ p ∈ s.written, p.2 = none) : ∀ p ∈ (es.foldl step s).written, p.2 = none := by
  induction es generalizing s with
  | nil => exact h
  | cons e es ih =>
    obtain ⟨he, hes⟩ := List.forall_mem_cons.mp hes
    exact ih hes (whole_step he h)

theorem lines_written {l : List (Record × Option ℕ)} (h : ∀ p ∈ l, p.2 = none) :
    Lines.Whole '\n' (l.flatMap fun p => p.2.elim p.1.format fun n => p.1.format.take n) ∧
      Lines.lines '\n' (l.flatMap fun p => p.2.elim p.1.format fun n => p.1.format.take n) =
        l.map fun p => p.1.line := by
  induction l with
  | nil => exact ⟨rfl, rfl⟩
  | cons p l ih =>
    obtain ⟨hp, hl⟩ := List.forall_mem_cons.mp h
    obtain ⟨hwhole, hlines⟩ := ih hl
    rw [List.flatMap_cons, hp, Option.elim_none]
    have hone : Lines.Whole '\n' p.1.format := Lines.whole_concat '\n' p.1.line
    refine ⟨Lines.whole_append '\n' hone hwhole, ?_⟩
    rw [Lines.lines_append '\n' hone, hlines, Record.format,
      Lines.lines_concat_of_notMem '\n' (newline_notMem_line p.1)]
    rfl

/-- A log file reads back: where no write fails, its lines are those of the records written, in
order, and the quoted fields of each line are the record's, whatever bytes they hold. -/
theorem log_reads_back (cap : ℕ) (es : List (Event Record))
    (hes : ∀ e ∈ es, ∀ n, e ≠ .writeFails n) :
    Lines.rest '\n' ((run cap es).file Record.format) = [] ∧
      (Lines.lines '\n' ((run cap es).file Record.format)).map (fields .outside) =
        (run cap es).written.map fun p => p.1.parts.map Prod.snd := by
  have hcuts : ∀ p ∈ (run cap es).written, p.2 = none :=
    whole_run hes fun p hp => absurd hp List.not_mem_nil
  obtain ⟨hwhole, hlines⟩ := lines_written hcuts
  refine ⟨hwhole, ?_⟩
  unfold Sink.file
  rw [hlines, List.map_map]
  refine List.map_congr_left ?_
  intro p _
  rw [Function.comp_apply, fields_line]

/-- A request whose header fields try to end the quoted field and the line. -/
def forged : Record where
  startTime := ⟨"2026-01-02T15:04:05.000Z".toList, rfl⟩
  method := "GET".toList
  path := "/a\"\n[".toList
  protocol := "HTTP/1.1".toList
  responseCode := 200
  bytesSent := 0
  duration := 1500000
  authority := []
  userAgent := "\\\"".toList
  upstreamHost := []

theorem log_reads_back_forged :
    (Lines.lines '\n' ((run 1 [.submit forged, .receive, .write]).file Record.format)).map
      (fields .outside) = [forged.parts.map Prod.snd] :=
  (log_reads_back 1 [.submit forged, .receive, .write] (by simp)).2

end EnvoyGo.AccessLog

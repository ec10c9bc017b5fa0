import EnvoyGo.H2ServerStreams

/-!
How many dispatches of one downstream connection are queued or running.  A peer that resets a
stream frees its place before the dispatch is over.
-/

namespace EnvoyGo.H2

open Runs

def Frame.reset? : Frame → Option ℕ
  | .rstStream id _ => some id
  | _ => none

namespace ServerConn

variable {δ : Type} {dec : BlockDecoder δ}

/-- The dispatches queued or running. -/
def unfinished (s : ServerConn δ) : List ℕ := s.pendingDispatch ++ s.running

/-- A peer's RST_STREAM comes only when the stream's dispatch is over, or was never queued. -/
def ResetsSettled (s : ServerConn δ) (e : Event) : Prop :=
  ∀ f ∈ e.frame?, s.Takes f → ∀ id ∈ f.reset?, id ∉ s.unfinished

instance (s : ServerConn δ) (e : Event) : Decidable (s.ResetsSettled e) :=
  inferInstanceAs (Decidable (∀ f ∈ e.frame?, s.Takes f → ∀ id ∈ f.reset?, id ∉ s.unfinished))

theorem covered_step {s : ServerConn δ} {e : Event} (hok : s.ResetsSettled e)
    (h : s.book.Covered) : (step dec s e).book.Covered := by
  rcases step_book dec s e with hsteps | ⟨id, code, rfl, hmem, hbook⟩
  · exact h.steps hsteps
  · by_cases htakes : s.Takes (.rstStream id code)
    · rw [hbook]
      exact h.remove (hok _ rfl htakes id rfl)
    · rcases step_frame_untaken dec htakes with hs | ⟨c, hs⟩ | ⟨c, hs⟩
      · rw [hs]
        exact h
      · rw [hs]
        exact h.steps (book_abort s c)
      · rw [hs]
        exact h

theorem covered_new (hpack : δ) (settings : ServerSettings) (clientS : ClientSettings) :
    (newServerConn hpack settings clientS).book.Covered := by
  refine ⟨kept_new hpack settings clientS, ?_, ?_⟩
  · rw [book_new]
    simp [AdmissionBook.unfinished]
  · rw [book_new]
    simp

theorem step_cap (s : ServerConn δ) (e : Event) : (step dec s e).book.cap = s.book.cap := by
  rcases step_book dec s e with hsteps | ⟨id, code, -, -, hbook⟩
  · exact AdmissionBook.steps_cap hsteps
  · rw [hbook]
    rfl

/-- While the peer resets only settled streams, no more dispatches are queued or running than the
advertised number of streams. -/
theorem unfinished_le_maxConcurrentStreams (dec : BlockDecoder δ) (hpack : δ)
    (settings : ServerSettings) (clientS : ClientSettings) (es : List Event)
    (hes : StepsMeet (step dec) ResetsSettled (newServerConn hpack settings clientS) es) :
    (run dec (newServerConn hpack settings clientS) es).unfinished.length ≤
      settings.maxConcurrentStreams := by
  have hstep : ∀ (s : ServerConn δ) (e : Event), s.ResetsSettled e →
      s.book.Covered ∧ s.book.cap = settings.maxConcurrentStreams →
      (step dec s e).book.Covered ∧ (step dec s e).book.cap = settings.maxConcurrentStreams := by
    intro s e hok h
    exact ⟨covered_step hok h.1, (step_cap s e).trans h.2⟩
  obtain ⟨hcov, hcap⟩ := invariant_of_steps hstep es _
    ⟨covered_new hpack settings clientS, rfl⟩ hes
  rw [← hcap]
  exact hcov.unfinished_le_cap

end ServerConn

/-- A decoder whose blocks hold no field. -/
def blankDecoder : BlockDecoder Unit := fun _ _ => some ([], ())

def rapidReset (id : ℕ) : List Event :=
  [.frame (.headers id [] true true none), .frame (.rstStream id .cancel)]

/-- The first `n` requests of a client, each reset at once. -/
def rapidResets : ℕ → List Event
  | 0 => []
  | n + 1 => rapidResets n ++ rapidReset (2 * n + 1)

namespace ServerConn

/-- The connection after `n` such requests: an empty map, and `n` dispatches in the queue. -/
structure Flooded (s : ServerConn Unit) (n : ℕ) : Prop where
  room : 0 < s.settings.maxConcurrentStreams
  streams : s.streams = ∅
  closed : ∀ id ∈ s.closedStreams, id < 2 * n + 1
  last : s.lastInID < 2 * n + 1
  done : s.doneCh = []
  goaway : s.peerGoaway = false
  accum : s.hdrAccum = none
  adding : s.adding = none
  stopped : s.stopped = none
  pending : s.pendingDispatch.length = n

theorem Flooded.rapidReset {s : ServerConn Unit} {n : ℕ} (h : s.Flooded n) :
    (run blankDecoder s (rapidReset (2 * n + 1))).Flooded (n + 1) := by
  let a : HeaderBlockAccumulator := ⟨2 * n + 1, [], true, none⟩
  have htakes : s.Takes (.headers (2 * n + 1) [] true true none) := by
    refine ⟨h.stopped, h.adding, ?_⟩
    simp [readError, parseError, checkFrameOrder, h.accum]
  have hlive : s.live = ∅ := by
    simp [live, h.streams]
  have hopens : s.Opens a := by
    refine ⟨by simp [hlive], ?_, by simp [h.done], h.goaway, by simp [a], h.last, by simp [a], ?_⟩
    · intro hmem
      exact absurd (h.closed _ hmem) (lt_irrefl _)
    · simp [hlive, h.room]
  have hopen : step blankDecoder s (.frame (.headers (2 * n + 1) [] true true none)) =
      s.drainDone.openStream (2 * n + 1) [] true := by
    have hdec : blankDecoder s.hpack a.buf = some ([], s.hpack) := rfl
    rw [step_frame_taken htakes]
    exact congrArg answer (onHeaderBlock_opens hopens s.hdrAccum hdec)
  let t := s.drainDone.openStream (2 * n + 1) [] true
  have hmap : t.streams = {2 * n + 1} := by
    simp [t, openStream, queueIf, queueDispatch, drainDone, h.streams]
  have htakes' : t.Takes (.rstStream (2 * n + 1) .cancel) := by
    refine ⟨h.stopped, h.adding, ?_⟩
    have hacc : t.hdrAccum = none := h.accum
    simp [readError, parseError, checkFrameOrder, hacc]
  obtain ⟨objects, hclose⟩ := closeStream_parts ({ t with
    streams := t.streams.erase (2 * n + 1)
    closedStreams := insert (2 * n + 1) t.closedStreams } : ServerConn Unit) (2 * n + 1)
  have hreset : step blankDecoder t (.frame (.rstStream (2 * n + 1) .cancel)) =
      { t with
        streams := t.streams.erase (2 * n + 1)
        closedStreams := insert (2 * n + 1) t.closedStreams
        stream := objects } := by
    rw [step_frame_taken htakes']
    simp only [dispatchFrame, onRSTStream, hmap, Finset.mem_singleton, if_true, answer]
    rw [← hmap, hclose]
  have hrun : run blankDecoder s (H2.rapidReset (2 * n + 1)) =
      step blankDecoder t (.frame (.rstStream (2 * n + 1) .cancel)) := by
    simp only [run, H2.rapidReset, List.foldl_cons, List.foldl_nil, hopen]
    rfl
  rw [hrun, hreset]
  refine ⟨h.room, ?_, ?_, ?_, rfl, h.goaway, h.accum, h.adding, h.stopped, ?_⟩
  · simp [hmap]
  · intro id hid
    simp only [Finset.mem_insert] at hid
    rcases hid with rfl | hid
    · omega
    · have hold : id ∈ s.closedStreams := by
        simpa [t, openStream, queueIf, queueDispatch, drainDone, setStream, h.done] using hid
      have := h.closed id hold
      omega
  · change 2 * n + 1 < _
    omega
  · change (s.pendingDispatch ++ [2 * n + 1]).length = n + 1
    rw [List.length_append, h.pending]
    rfl

theorem rapidResets_flooded (settings : ServerSettings) (hroom : 0 < settings.maxConcurrentStreams)
    (clientS : ClientSettings) (n : ℕ) :
    (run blankDecoder (newServerConn () settings clientS) (rapidResets n)).Flooded n := by
  induction n with
  | zero =>
    refine ⟨hroom, rfl, ?_, Nat.zero_lt_one, rfl, rfl, rfl, rfl, rfl, rfl⟩
    intro id hid
    cases hid
  | succ n ih =>
    rw [rapidResets, run, List.foldl_append]
    exact ih.rapidReset

/-- A hundred and one requests, each reset at once, on a connection that advertises a hundred. -/
theorem rapid_reset_exceeds :
    ¬ (run blankDecoder (newServerConn () {} {}) (rapidResets 101)).unfinished.length ≤
      ({} : ServerSettings).maxConcurrentStreams := by
  have hflood := rapidResets_flooded {} (by decide) {} 101
  rw [unfinished, List.length_append, hflood.pending]
  intro hle
  exact absurd (le_of_add_le_left hle) (by decide)

/-- A request answered and finished before its RST_STREAM. -/
def settledReset : List Event :=
  [.frame (.headers 1 [] true true none), .flush, .headers 1 true, .finish 1,
    .frame (.rstStream 1 .cancel), .frame (.headers 3 [] true true none)]

theorem settledReset_unfinished :
    StepsMeet (step blankDecoder) ResetsSettled (newServerConn () {} {}) settledReset ∧
      (run blankDecoder (newServerConn () {} {}) settledReset).unfinished.length ≤ 100 := by
  have hmeet : StepsMeet (step blankDecoder) ResetsSettled (newServerConn () {} {})
      settledReset := by
    decide
  exact ⟨hmeet, unfinished_le_maxConcurrentStreams blankDecoder () {} {} settledReset hmeet⟩

end ServerConn

end EnvoyGo.H2

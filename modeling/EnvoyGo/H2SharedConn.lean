import EnvoyGo.H2ClientAccounts
import EnvoyGo.H2LateFrames

/-!
A pooled upstream connection with the contexts around it.  `NewClientConn` derives the connection's
context from the one its dial was made with, which `dialAndPool` has from the request that found no
connection; each RoundTrip waits on the context of its own attempt.
-/

namespace EnvoyGo.H2

open Runs

/-- A context, by the names from itself up to the root.  The end of a context ends those that were
derived from it. -/
abbrev Ctx := List ℕ

/-- `ctxOf` is the context of the RoundTrip of a stream; `ended` are the contexts that were
canceled, ran out of time, or whose request is complete. -/
structure SharedConn (δ : Type) where
  conn : ClientConn δ
  dialCtx : Ctx
  ctxOf : ℕ → Ctx := fun _ => []
  ended : List Ctx := []

inductive SharedEvent
  | conn (e : ClientEvent)
  | request (ctx : Ctx) (len : ℕ)
  | endCtx (ctx : Ctx)
  deriving DecidableEq

namespace SharedConn

variable {δ : Type}

def new (hpack : δ) (serverS : ClientSettings) (dialCtx : Ctx) : SharedConn δ :=
  { conn := newClientConn hpack serverS, dialCtx := dialCtx }

def done (s : SharedConn δ) (ctx : Ctx) : Bool := s.ended.any (fun c => decide (c <:+ ctx))

def allows (s : SharedConn δ) : ClientEvent → Bool
  | .start _ => false
  | .cancel id => s.done (s.ctxOf id)
  | _ => true

def request (s : SharedConn δ) (ctx : Ctx) (len : ℕ) : SharedConn δ :=
  { s with
    conn := s.conn.start len
    ctxOf := Function.update s.ctxOf (s.conn.nextStreamID + 1) ctx }

def endCtx (s : SharedConn δ) (ctx : Ctx) : SharedConn δ :=
  { s with
    conn := { s.conn with closed := s.conn.closed || decide (ctx <:+ s.dialCtx) }
    ended := s.ended ++ [ctx] }

def step (dec : BlockDecoder δ) (s : SharedConn δ) : SharedEvent → SharedConn δ
  | .conn e => if s.allows e then { s with conn := ClientConn.step dec s.conn e } else s
  | .request ctx len => s.request ctx len
  | .endCtx ctx => s.endCtx ctx

def run (dec : BlockDecoder δ) (s : SharedConn δ) (es : List SharedEvent) : SharedConn δ :=
  es.foldl (step dec) s

def ClosedByItself (dec : BlockDecoder δ) (s : SharedConn δ) (es : List SharedEvent) : Prop :=
  ∃ earlier e later, es = earlier ++ .conn e :: later ∧ (e = .close ∨ e.frame? ≠ none) ∧
    (s.run dec earlier).conn.closed = false ∧
    (s.run dec (earlier ++ [.conn e])).conn.closed = true

structure Spares (id : ℕ) (s t : ClientConn δ) : Prop where
  closed : t.closed = s.closed
  others : ∀ j, j ≠ id → t.call j = s.call j ∧ t.stream j = s.stream j

/-- The end of a context leaves the connection as it is; a RoundTrip that gives up spares the
others; and one that fails does so for its own context, for its stream, or because the owner or a
frame has closed the connection. -/
structure Independent (dec : BlockDecoder δ) (s : SharedConn δ) (es : List SharedEvent) : Prop where
  ends : ∀ earlier ctx later, es = earlier ++ .endCtx ctx :: later →
    (s.run dec (earlier ++ [.endCtx ctx])).conn = (s.run dec earlier).conn
  returns : ∀ earlier id later, es = earlier ++ .conn (.cancel id) :: later →
    Spares id (s.run dec earlier).conn (s.run dec (earlier ++ [.conn (.cancel id)])).conn
  failures : ∀ earlier e later id exit, es = earlier ++ .conn e :: later →
    e.caller? = some id → (s.run dec (earlier ++ [.conn e])).conn.exits =
      (s.run dec earlier).conn.exits ++ [(id, exit)] →
    (exit = .canceledWaiting ∨ exit = .canceledBody →
      (s.run dec earlier).done ((s.run dec earlier).ctxOf id) = true) ∧
    (exit = .connClosed → ClosedByItself dec s earlier)

/-- The dialing context does not end while the connection is open. -/
def LivesOn (s : SharedConn δ) : SharedEvent → Prop
  | .endCtx ctx => ctx <:+ s.dialCtx → s.conn.closed = true
  | _ => True

instance (s : SharedConn δ) : ∀ e, Decidable (s.LivesOn e)
  | .endCtx ctx => inferInstanceAs (Decidable (ctx <:+ s.dialCtx → s.conn.closed = true))
  | .conn _ => isTrue trivial
  | .request _ _ => isTrue trivial

def acts (s : SharedConn δ) : SharedEvent → List ClientEvent
  | .conn e => if s.allows e then [e] else []
  | .request _ len => [.start len]
  | .endCtx _ => []

/-- The run as the connection sees it. -/
def connRun (dec : BlockDecoder δ) (s : SharedConn δ) : List SharedEvent → List ClientEvent
  | [] => []
  | e :: es => s.acts e ++ (s.step dec e).connRun dec es

/-- What the connection does is orderly. -/
def OrderlyOn (dec : BlockDecoder δ) (s : SharedConn δ) (e : SharedEvent) : Prop :=
  ∀ act ∈ s.acts e, s.conn.Orderly dec act

instance (dec : BlockDecoder δ) (s : SharedConn δ) (e : SharedEvent) :
    Decidable (s.OrderlyOn dec e) :=
  inferInstanceAs (Decidable (∀ act ∈ s.acts e, s.conn.Orderly dec act))

section Steps

variable {dec : BlockDecoder δ} {s : SharedConn δ} {e : SharedEvent} {es : List SharedEvent}

theorem run_concat (es : List SharedEvent) (e : SharedEvent) :
    s.run dec (es ++ [e]) = (s.run dec es).step dec e := by
  simp only [run, List.foldl_append, List.foldl_cons, List.foldl_nil]

theorem spares_cancel (c : ClientConn δ) (id : ℕ) : Spares id c (c.cancelCall id) := by
  have same : Spares id c c := ⟨rfl, fun _ _ => ⟨rfl, rfl⟩⟩
  unfold ClientConn.cancelCall
  split
  · split
    · exact ⟨rfl, fun j hj => ⟨Function.update_of_ne hj .., rfl⟩⟩
    · split
      · exact same
      · exact ⟨rfl, fun j hj => ⟨Function.update_of_ne hj .., Function.update_of_ne hj ..⟩⟩
    · exact same
  · exact ⟨rfl, fun j hj => ⟨Function.update_of_ne hj .., rfl⟩⟩
  · exact same

theorem endCtx_conn_iff (s : SharedConn δ) (ctx : Ctx) :
    (s.endCtx ctx).conn = s.conn ↔ s.LivesOn (.endCtx ctx) := by
  constructor
  · intro h hsuffix
    have hclosed := congrArg ClientConn.closed h
    change (s.conn.closed || decide (ctx <:+ s.dialCtx)) = s.conn.closed at hclosed
    rw [decide_eq_true hsuffix, Bool.or_true] at hclosed
    exact hclosed.symm
  · intro h
    have hclosed : (s.conn.closed || decide (ctx <:+ s.dialCtx)) = s.conn.closed := by
      by_cases hsuffix : ctx <:+ s.dialCtx
      · rw [h hsuffix]
        rfl
      · rw [decide_eq_false hsuffix, Bool.or_false]
    change { s.conn with closed := s.conn.closed || decide (ctx <:+ s.dialCtx) } = s.conn
    rw [hclosed]

theorem cause_of_exit (dec : BlockDecoder δ) {c : ClientConn δ} {e : ClientEvent} {id : ℕ}
    {exit : Exit} (he : e.caller? = some id)
    (h : (ClientConn.step dec c e).exits = c.exits ++ [(id, exit)]) :
    ClientConn.Cause c e id exit := by
  have hnone (hsame : (ClientConn.step dec c e).exits = c.exits) :
      ClientConn.Cause c e id exit := by
    rw [hsame] at h
    exact absurd (List.self_eq_append_right.mp h) (List.cons_ne_nil _ _)
  cases ClientConn.callMove_local dec c (ClientEvent.frame?_of_caller he) with
  | still hsame => exact hnone hsame.exits
  | advanced j call hlive hcall hstreams hnext hexits => exact hnone hexits
  | left j hcall hstreams hnext hexits => exact hnone hexits
  | opened call hcall hstream hstreams hnext hexits => exact hnone hexits
  | exited j exit' hlive hcause hcall hstreams hnext hexits =>
    have hpair := List.singleton_inj.mp (List.append_cancel_left (hexits.symm.trans h))
    obtain ⟨rfl, rfl⟩ := Prod.mk.inj hpair
    exact hcause

theorem closed_of_lost {c : ClientConn δ} {id : ℕ}
    (h : (c.loseConn id).exits = c.exits ++ [(id, .connClosed)]) : c.closed = true := by
  have hnone (hsame : (c.loseConn id).exits = c.exits) : c.closed = true := by
    rw [hsame] at h
    exact absurd (List.self_eq_append_right.mp h) (List.cons_ne_nil _ _)
  by_contra hopen
  refine hopen (hnone ?_)
  simp only [ClientConn.loseConn, hopen]
  split
  · rfl
  · rfl

theorem closedByItself (hopen : s.conn.closed = false) (hes : StepsMeet (step dec) LivesOn s es)
    (hclosed : (s.run dec es).conn.closed = true) : ClosedByItself dec s es := by
  induction es using List.reverseRecOn with
  | nil =>
    change s.conn.closed = true at hclosed
    rw [hopen] at hclosed
    cases hclosed
  | append_singleton es e ih =>
    obtain ⟨hbefore, hlast, -⟩ := (stepsMeet_append (step dec) LivesOn es [e]).mp hes
    change (s.run dec es).LivesOn e at hlast
    have hearlier (h : (s.run dec es).conn.closed = true) : ClosedByItself dec s (es ++ [e]) := by
      obtain ⟨earlier, act, later, heq, hkind, hfrom, hto⟩ := ih hbefore h
      refine ⟨earlier, act, later ++ [e], ?_, hkind, hfrom, hto⟩
      rw [heq, List.append_assoc]
      rfl
    cases hstill : (s.run dec es).conn.closed with
    | true => exact hearlier hstill
    | false =>
      rw [run_concat] at hclosed
      cases e with
      | endCtx ctx =>
        have hsame := (endCtx_conn_iff (s.run dec es) ctx).mpr hlast
        change ((s.run dec es).endCtx ctx).conn.closed = true at hclosed
        rw [hsame, hstill] at hclosed
        cases hclosed
      | request ctx len =>
        have hsame :=
          ClientConn.closed_of_local dec (s.run dec es).conn (e := .start len) nofun rfl
        change (ClientConn.step dec (s.run dec es).conn (.start len)).closed = true at hclosed
        rw [hsame, hstill] at hclosed
        cases hclosed
      | conn act =>
        refine ⟨es, act, [], rfl, ?_, hstill, ?_⟩
        · by_contra hlocal
          push Not at hlocal
          simp only [step] at hclosed
          split_ifs at hclosed
          · dsimp only at hclosed
            rw [ClientConn.closed_of_local dec _ hlocal.1 hlocal.2, hstill] at hclosed
            cases hclosed
          · rw [hstill] at hclosed
            cases hclosed
        · rw [run_concat]
          exact hclosed

theorem independent_of_livesOn (hopen : s.conn.closed = false)
    (hes : StepsMeet (step dec) LivesOn s es) : Independent dec s es := by
  constructor
  · intro earlier ctx later heq
    have hlives := stepsMeet_iff_forall.mp hes earlier _ later heq
    rw [run_concat]
    exact (endCtx_conn_iff _ ctx).mpr hlives
  · intro earlier id later heq
    rw [run_concat]
    simp only [step]
    split_ifs
    · exact spares_cancel _ id
    · exact ⟨rfl, fun _ _ => ⟨rfl, rfl⟩⟩
  · intro earlier e later id exit heq he hexits
    rw [run_concat] at hexits
    simp only [step] at hexits
    split_ifs at hexits with hallowed
    · have hcause := cause_of_exit dec he hexits
      constructor
      · rintro (rfl | rfl)
        · cases hcause with
          | waiting hcall => exact hallowed
        · cases hcause with
          | body hblocked => exact hallowed
      · rintro rfl
        rw [heq] at hes
        have hbefore := ((stepsMeet_append (step dec) LivesOn earlier _).mp hes).1
        cases hcause with
        | lost => exact closedByItself hopen hbefore (closed_of_lost hexits)
    · exact absurd (List.self_eq_append_right.mp hexits) (List.cons_ne_nil _ _)

theorem livesOn_of_independent (h : Independent dec s es) :
    StepsMeet (step dec) LivesOn s es := by
  refine stepsMeet_iff_forall.mpr ?_
  intro earlier e later heq
  cases e with
  | endCtx ctx =>
    have hsame := h.ends earlier ctx later heq
    rw [run_concat] at hsame
    exact (endCtx_conn_iff _ ctx).mp hsame
  | conn e => trivial
  | request ctx len => trivial

theorem conn_step (h : s.LivesOn e) : (s.step dec e).conn = s.conn.run dec (s.acts e) := by
  cases e with
  | endCtx ctx => exact (endCtx_conn_iff s ctx).mpr h
  | request ctx len => rfl
  | conn e =>
    simp only [step, acts]
    split_ifs
    · rfl
    · rfl

theorem conn_run (hes : StepsMeet (step dec) LivesOn s es) :
    (s.run dec es).conn = s.conn.run dec (s.connRun dec es) := by
  induction es generalizing s with
  | nil => rfl
  | cons e es ih =>
    obtain ⟨hfirst, hrest⟩ := hes
    have hlater := ih hrest
    rw [conn_step hfirst] at hlater
    change ((s.step dec e).run dec es).conn = _
    rw [hlater, connRun]
    exact List.foldl_append.symm

theorem orderly_connRun (hes : StepsMeet (step dec) LivesOn s es)
    (ho : StepsMeet (step dec) (OrderlyOn dec) s es) :
    StepsMeet (ClientConn.step dec) (ClientConn.Orderly dec) s.conn (s.connRun dec es) := by
  induction es generalizing s with
  | nil => trivial
  | cons e es ih =>
    obtain ⟨hfirst, hrest⟩ := hes
    obtain ⟨ho, horest⟩ := ho
    have hlater := ih hrest horest
    rw [conn_step hfirst] at hlater
    refine (stepsMeet_append _ _ _ _).mpr ⟨?_, hlater⟩
    change ∀ act ∈ s.acts e, s.conn.Orderly dec act at ho
    cases e with
    | endCtx ctx => trivial
    | request ctx len => exact ⟨ho _ List.mem_cons_self, trivial⟩
    | conn e =>
      simp only [acts] at ho ⊢
      split_ifs at ho ⊢
      · exact ⟨ho _ List.mem_cons_self, trivial⟩
      · trivial

end Steps

/-- The requests on a pooled connection are independent of each other's contexts exactly in the runs
in which the dialing context does not end while the connection is open.  If the connection is
orderly besides, what the peer still sends for a RoundTrip that gave up is dropped. -/
theorem independent_iff_livesOn (dec : BlockDecoder δ) (hpack : δ) (serverS : ClientSettings)
    (dialCtx : Ctx) (es : List SharedEvent) :
    (Independent dec (new hpack serverS dialCtx) es ↔
      StepsMeet (step dec) LivesOn (new hpack serverS dialCtx) es) ∧
    (StepsMeet (step dec) LivesOn (new hpack serverS dialCtx) es →
      StepsMeet (step dec) (OrderlyOn dec) (new hpack serverS dialCtx) es →
      ((new hpack serverS dialCtx).run dec es).conn =
        (newClientConn hpack serverS).run dec ((new hpack serverS dialCtx).connRun dec es) ∧
      ClientConn.LateFramesDiscarded dec (newClientConn hpack serverS)
        ((new hpack serverS dialCtx).connRun dec es)) := by
  refine ⟨⟨livesOn_of_independent, independent_of_livesOn rfl⟩, ?_⟩
  intro hlives horderly
  refine ⟨conn_run hlives, ?_⟩
  exact ClientConn.lateFrames_of_retained (ClientConn.retained_new hpack serverS)
    (orderly_connRun hlives horderly)

/-- Two requests on a connection that a context of the server has dialed; the first gives up. -/
def sharedWait : List SharedEvent :=
  [.request [1, 0] 0, .conn (.headers 1), .request [2, 0] 0, .conn (.headers 3), .endCtx [1, 0],
    .conn (.cancel 1), .conn (.leave 1), .conn (.frame (.headers 1 [136] true false))]

theorem independent_sharedWait :
    StepsMeet (step ClientConn.statusDecoder) LivesOn (new () {} [0]) sharedWait ∧
      Independent ClientConn.statusDecoder (new () {} [0]) sharedWait ∧
      ((new () {} [0]).run ClientConn.statusDecoder sharedWait).conn.closed = false ∧
      ClientConn.LateFramesDiscarded ClientConn.statusDecoder (newClientConn () {})
        ((new () {} [0]).connRun ClientConn.statusDecoder sharedWait) := by
  have hmeet : StepsMeet (step ClientConn.statusDecoder) LivesOn (new () {} [0]) sharedWait := by
    decide +kernel
  have horderly : StepsMeet (step ClientConn.statusDecoder)
      (OrderlyOn ClientConn.statusDecoder) (new () {} [0]) sharedWait := by
    decide +kernel
  obtain ⟨hiff, hlate⟩ := independent_iff_livesOn ClientConn.statusDecoder () {} [0] sharedWait
  exact ⟨hmeet, hiff.mpr hmeet, by decide +kernel, (hlate hmeet horderly).2⟩

/-- An attempt with a timeout of its own dials the connection and is answered; its context is
canceled then, and the other request fails. -/
def dialedByAttempt : List SharedEvent :=
  [.request [1, 0] 0, .conn (.headers 1), .request [2] 0, .conn (.headers 3),
    .conn (.frame (.headers 1 [136] true true)), .conn (.deliver 1), .conn (.leave 1),
    .endCtx [1, 0], .conn (.loseConn 3)]

theorem not_independent_dialedByAttempt :
    ((new () {} [1, 0]).run ClientConn.statusDecoder dialedByAttempt).conn.exits =
      [(1, .finished none), (3, .connClosed)] ∧
    ¬ Independent ClientConn.statusDecoder (new () {} [1, 0]) dialedByAttempt := by
  refine ⟨by decide +kernel, ?_⟩
  intro h
  have hlives := livesOn_of_independent h
  have hnot : ¬ StepsMeet (step ClientConn.statusDecoder) LivesOn (new () {} [1, 0])
      dialedByAttempt := by
    decide +kernel
  exact hnot hlives

end SharedConn

end EnvoyGo.H2

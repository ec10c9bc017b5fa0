import EnvoyGo.UpstreamResponse
import Mathlib.Data.List.Induction

/-!
The HTTP/1.1 keep-alive pool of a cluster under interleaved requests.  A connection is the
queue of messages the upstream has put on it and nobody has read; `doH1ClusterAction` reads
one of them for its request.
-/

namespace EnvoyGo

structure UpstreamAnswer where
  interim : List ResponseMessage
  final : ResponseMessage
  interim_1xx : ∀ m ∈ interim, 100 ≤ m.status ∧ m.status < 200
  final_not_1xx : 200 ≤ final.status

def UpstreamAnswer.messages (a : UpstreamAnswer) : List ResponseMessage := a.interim ++ [a.final]

/-- The requests of a run: their methods, `req.Close`, and the upstream's answers. -/
structure H1Traffic where
  method : Nat → String
  reqClose : Nat → Bool
  answer : Nat → UpstreamAnswer

structure PooledH1Conn where
  ep : String
  unread : List ResponseMessage
  deriving DecidableEq

/-- What the action returns: a response it read, a reply of its own, or an error. -/
inductive Returned
  | upstream (resp : ActionResponse)
  | localReply (status : Int)
  | bodyErr (status : Int)
  deriving DecidableEq

structure H1Pool where
  idle : String → List PooledH1Conn := fun _ => []
  held : List (Nat × PooledH1Conn) := []
  returned : List (Nat × Returned) := []

def h1PoolMaxPerEndpoint : Nat := 1024

def acquireH1 (ep : String) (s : H1Pool) : PooledH1Conn × H1Pool :=
  match (s.idle ep).getLast? with
  | some p => (p, { s with idle := Function.update s.idle ep (s.idle ep).dropLast })
  | none => ({ ep := ep, unread := [] }, s)

def putIdleH1 (hasWaiter : Bool) (p : PooledH1Conn) (s : H1Pool) : H1Pool :=
  if hasWaiter then s
  else if (s.idle p.ep).length ≥ h1PoolMaxPerEndpoint then s
  else { s with idle := Function.update s.idle p.ep (s.idle p.ep ++ [p]) }

/-- The steps of concurrent `doH1ClusterAction` calls and of the drain. -/
inductive PoolEvent
  | refuse (i : Nat)
  | send (i : Nat) (ep : String)
  | sendFails (i : Nat) (ep : String)
  | receive (i : Nat) (hasWaiter : Bool)
  | receiveFails (i : Nat)
  | bodyFails (i : Nat)
  | closePool
  deriving DecidableEq

def heldConn (i : Nat) (s : H1Pool) : Option PooledH1Conn :=
  (s.held.find? (fun p => p.1 == i)).map Prod.snd

def finish (i : Nat) (r : Returned) (s : H1Pool) : H1Pool :=
  { s with held := s.held.eraseP (fun p => p.1 == i), returned := s.returned ++ [(i, r)] }

def poolStep (t : H1Traffic) (s : H1Pool) : PoolEvent → H1Pool
  | .refuse i => { s with returned := s.returned ++ [(i, .localReply 503)] }
  | .send i ep =>
    let (p, s1) := acquireH1 ep s
    { s1 with held := (i, { p with unread := p.unread ++ (t.answer i).messages }) :: s1.held }
  | .sendFails i ep =>
    let s1 := (acquireH1 ep s).2
    { s1 with returned := s1.returned ++ [(i, .localReply 502)] }
  | .receive i hasWaiter =>
    match heldConn i s with
    | none => s
    | some p =>
      match p.unread with
      | [] => s
      | m :: rest =>
        let resp := readResponse (t.method i) m
        let s1 := finish i (.upstream (h1ActionResponse resp)) s
        if !resp.close && !t.reqClose i && resp.http11 then
          putIdleH1 hasWaiter { p with unread := rest } s1
        else s1
  | .receiveFails i => if (heldConn i s).isSome then finish i (.localReply 502) s else s
  | .bodyFails i =>
    match heldConn i s with
    | some { unread := m :: _, .. } => finish i (.bodyErr m.status) s
    | _ => s
  | .closePool => { s with idle := fun _ => [] }

def poolRun (t : H1Traffic) (es : List PoolEvent) : H1Pool := es.foldl (poolStep t) {}

/-- Every response read is the final response to its own request, and every pooled connection
has been read to the end. -/
structure PairedPool (t : H1Traffic) (s : H1Pool) : Prop where
  paired : ∀ i resp, (i, Returned.upstream resp) ∈ s.returned →
    resp = h1ActionResponse (readResponse (t.method i) (t.answer i).final)
  drained : ∀ ep, ∀ p ∈ s.idle ep, p.unread = []

/-- The invariant of a run without interim responses: a held connection carries the final
response to its request and nothing else. -/
structure PoolInvariant (t : H1Traffic) (s : H1Pool) : Prop extends PairedPool t s where
  held : ∀ q ∈ s.held, q.2.unread = [(t.answer q.1).final]

theorem PoolInvariant.initial (t : H1Traffic) : PoolInvariant t {} where
  paired := by simp
  drained := by simp
  held := by simp

theorem acquireH1_spec (t : H1Traffic) (ep : String) (s : H1Pool) (h : PoolInvariant t s) :
    (acquireH1 ep s).1.unread = [] ∧ PoolInvariant t (acquireH1 ep s).2 := by
  unfold acquireH1
  cases hl : (s.idle ep).getLast? with
  | none => exact ⟨rfl, h⟩
  | some p =>
    refine ⟨h.drained ep p (List.mem_of_getLast? hl), ⟨h.paired, ?_⟩, h.held⟩
    intro ep' q hq
    by_cases hep : ep' = ep
    · subst hep
      simp only [Function.update_self] at hq
      exact h.drained ep' q (List.dropLast_subset _ hq)
    · simp only [Function.update_of_ne hep] at hq
      exact h.drained ep' q hq

theorem putIdleH1_invariant (t : H1Traffic) (hasWaiter : Bool) (p : PooledH1Conn) (s : H1Pool)
    (h : PoolInvariant t s) (hp : p.unread = []) : PoolInvariant t (putIdleH1 hasWaiter p s) := by
  unfold putIdleH1
  split_ifs
  · exact h
  · exact h
  · refine ⟨⟨h.paired, ?_⟩, h.held⟩
    intro ep' q hq
    by_cases hep : ep' = p.ep
    · subst hep
      simp only [Function.update_self, List.mem_append, List.mem_singleton] at hq
      rcases hq with hq | rfl
      · exact h.drained p.ep q hq
      · exact hp
    · simp only [Function.update_of_ne hep] at hq
      exact h.drained ep' q hq

theorem returned_append_invariant (t : H1Traffic) (s : H1Pool) (i : Nat) (r : Returned)
    (h : PoolInvariant t s)
    (hr : ∀ resp, r = .upstream resp →
      resp = h1ActionResponse (readResponse (t.method i) (t.answer i).final)) :
    PoolInvariant t { s with returned := s.returned ++ [(i, r)] } := by
  refine ⟨⟨?_, h.drained⟩, h.held⟩
  intro j resp hj
  simp only [List.mem_append, List.mem_singleton, Prod.mk.injEq] at hj
  rcases hj with hj | ⟨rfl, hj⟩
  · exact h.paired j resp hj
  · exact hr resp hj.symm

theorem finish_invariant (t : H1Traffic) (s : H1Pool) (i : Nat) (r : Returned)
    (h : PoolInvariant t s)
    (hr : ∀ resp, r = .upstream resp →
      resp = h1ActionResponse (readResponse (t.method i) (t.answer i).final)) :
    PoolInvariant t (finish i r s) := by
  have hheld : PoolInvariant t { s with held := s.held.eraseP (fun p => p.1 == i) } := by
    refine ⟨⟨h.paired, h.drained⟩, ?_⟩
    intro q hq
    exact h.held q (List.mem_of_mem_eraseP hq)
  exact returned_append_invariant t _ i r hheld hr

theorem heldConn_unread (t : H1Traffic) (s : H1Pool) (i : Nat) (p : PooledH1Conn)
    (h : PoolInvariant t s) (hp : heldConn i s = some p) : p.unread = [(t.answer i).final] := by
  obtain ⟨q, hq, rfl⟩ := Option.map_eq_some_iff.mp hp
  have hkey := List.find?_some hq
  have hi : q.1 = i := by simpa using hkey
  rw [h.held q (List.mem_of_find?_eq_some hq), hi]

theorem poolStep_invariant (t : H1Traffic) (s : H1Pool) (e : PoolEvent) (h : PoolInvariant t s)
    (he : ∀ i ep, e = .send i ep → (t.answer i).interim = []) :
    PoolInvariant t (poolStep t s e) := by
  cases e with
  | refuse i => exact returned_append_invariant t s i _ h (by simp)
  | send i ep =>
    obtain ⟨hunread, hs1⟩ := acquireH1_spec t ep s h
    simp only [poolStep]
    rcases hacq : acquireH1 ep s with ⟨p, s1⟩
    rw [hacq] at hunread hs1
    have hp : p.unread = [] := hunread
    refine ⟨⟨hs1.paired, hs1.drained⟩, ?_⟩
    intro q hq
    rcases List.mem_cons.mp hq with rfl | hq
    · simp only [hp, UpstreamAnswer.messages, he i ep rfl, List.nil_append]
    · exact hs1.held q hq
  | sendFails i ep =>
    exact returned_append_invariant t _ i _ (acquireH1_spec t ep s h).2 (by simp)
  | receive i hasWaiter =>
    simp only [poolStep]
    cases hp : heldConn i s with
    | none => exact h
    | some p =>
      have hu := heldConn_unread t s i p h hp
      have hf : PoolInvariant t (finish i (.upstream (h1ActionResponse
          (readResponse (t.method i) (t.answer i).final))) s) := by
        apply finish_invariant t s i _ h
        intro resp hresp
        cases hresp
        rfl
      simp only [hu]
      split_ifs
      · exact putIdleH1_invariant t hasWaiter _ _ hf rfl
      · exact hf
  | receiveFails i =>
    simp only [poolStep]
    split_ifs
    · exact finish_invariant t s i _ h (by simp)
    · exact h
  | bodyFails i =>
    simp only [poolStep]
    split
    · exact finish_invariant t s i _ h (by simp)
    · exact h
  | closePool => exact ⟨⟨h.paired, by simp [poolStep]⟩, h.held⟩

def hintsAnswer : UpstreamAnswer where
  interim := [{ status := 103, framing := .contentLength 0, body := [] }]
  final := { status := 200, framing := .contentLength 1, body := [97] }
  interim_1xx := by decide
  final_not_1xx := by decide

def plainAnswer : UpstreamAnswer where
  interim := []
  final := { status := 200, framing := .contentLength 1, body := [98] }
  interim_1xx := by decide
  final_not_1xx := by decide

/-- Two clients in turn; the upstream sends early hints to the first. -/
def hintsTraffic : H1Traffic where
  method := fun _ => "GET"
  reqClose := fun _ => false
  answer := fun i => if i = 0 then hintsAnswer else plainAnswer

def twoRequests : List PoolEvent :=
  [.send 0 "a:80", .receive 0 false, .send 1 "a:80", .receive 1 false]

end EnvoyGo

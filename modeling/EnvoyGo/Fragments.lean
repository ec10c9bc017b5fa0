import EnvoyGo.Runs
import Mathlib.Data.List.Basic

/-!
Messages cut into pieces, and a stateful decoder that is to be fed with the whole of each, once and
in order.  A reader keeps the decoder and the message begun; what it does with one piece says what
it has done with all of them.  Nothing here is about a particular protocol.
-/

namespace EnvoyGo.Fragments

open Runs

variable {α δ η φ S E : Type}

inductive Piece (α : Type)
  | opens (fragment : List α) (last : Bool)
  | continues (fragment : List α) (last : Bool)
  | other

/-- The message begun and the complete ones, with one more piece.  A message that is not continued
at once is never complete. -/
def assemble (st : Option (List α) × List (List α)) :
    Piece α → Option (List α) × List (List α)
  | .opens fragment last => if last then (none, st.2 ++ [fragment]) else (some fragment, st.2)
  | .continues fragment last =>
    match st.1 with
    | none => st
    | some begun =>
      if last then (none, st.2 ++ [begun ++ fragment]) else (some (begun ++ fragment), st.2)
  | .other => (none, st.2)

/-- The message begun and the complete ones in a list of pieces. -/
def assembled (ps : List (Piece α)) : Option (List α) × List (List α) :=
  ps.foldl assemble (none, [])

theorem assembled_concat (ps : List (Piece α)) (p : Piece α) :
    assembled (ps ++ [p]) = assemble (assembled ps) p := by
  unfold assembled
  rw [List.foldl_append, List.foldl_cons, List.foldl_nil]

def feed (dec : δ → List α → Option (η × δ)) : δ → List (List α) → Option δ
  | d, [] => some d
  | d, m :: ms => (dec d m).bind (fun r => feed dec r.2 ms)

theorem feed_concat (dec : δ → List α → Option (η × δ)) (d : δ) (ms : List (List α))
    (m : List α) :
    feed dec d (ms ++ [m]) = (feed dec d ms).bind (fun d' => (dec d' m).map Prod.snd) := by
  induction ms generalizing d with
  | nil =>
    change (dec d m).bind (fun r => some r.2) = (dec d m).map Prod.snd
    cases dec d m with
    | none => rfl
    | some r => rfl
  | cons x ms ih =>
    change (dec d x).bind (fun r => feed dec r.2 (ms ++ [m])) = _
    cases hx : dec d x with
    | none => simp [feed, hx]
    | some r => simp [feed, hx, ih]

/-- A decoder that notes what it is fed with. -/
def logged (dec : δ → List α → Option (η × δ)) :
    δ × List (List α) → List α → Option (η × (δ × List (List α))) :=
  fun st m => (dec st.1 m).map (fun r => (r.1, (r.2, st.2 ++ [m])))

theorem feed_logged (dec : δ → List α → Option (η × δ)) {st st' : δ × List (List α)}
    {ms : List (List α)} (h : feed (logged dec) st ms = some st') : st'.2 = st.2 ++ ms := by
  induction ms generalizing st with
  | nil =>
    cases h
    exact (List.append_nil _).symm
  | cons m ms ih =>
    change (logged dec st m).bind (fun r => feed (logged dec) r.2 ms) = some st' at h
    cases hd : dec st.1 m with
    | none =>
      have hl : logged dec st m = none := by simp [logged, hd]
      rw [hl] at h
      cases h
    | some r =>
      have hl : logged dec st m = some (r.1, (r.2, st.2 ++ [m])) := by simp [logged, hd]
      rw [hl] at h
      rw [ih h, List.append_assoc]
      rfl

/-- What a reader does with one piece: `v` is its decoder and the message begun. -/
def Consumes (dec : δ → List α → Option (η × δ)) (v v' : δ × Option (List α)) :
    Piece α → Prop
  | .opens fragment false => v' = (v.1, some fragment)
  | .opens fragment true => ∃ h, dec v.1 fragment = some (h, v'.1) ∧ v'.2 = none
  | .continues fragment false => ∃ begun, v.2 = some begun ∧ v' = (v.1, some (begun ++ fragment))
  | .continues fragment true =>
    ∃ begun, v.2 = some begun ∧ ∃ h, dec v.1 (begun ++ fragment) = some (h, v'.1) ∧ v'.2 = none
  | .other => v' = (v.1, none)

def InStep (dec : δ → List α → Option (η × δ)) (d : δ) (v : δ × Option (List α))
    (st : Option (List α) × List (List α)) : Prop :=
  feed dec d st.2 = some v.1 ∧ v.2 = st.1

theorem inStep_assemble {dec : δ → List α → Option (η × δ)} {d : δ} {v v' : δ × Option (List α)}
    {st : Option (List α) × List (List α)} {p : Piece α} (h : InStep dec d v st)
    (hp : Consumes dec v v' p) : InStep dec d v' (assemble st p) := by
  obtain ⟨hfed, hbegun⟩ := h
  have hdecoded {m : List α} {o : η} (hm : dec v.1 m = some (o, v'.1)) :
      feed dec d (st.2 ++ [m]) = some v'.1 := by
    rw [feed_concat, hfed]
    change (dec v.1 m).map Prod.snd = some v'.1
    rw [hm]
    rfl
  cases p with
  | opens fragment last =>
    cases last with
    | false =>
      change v' = _ at hp
      rw [hp]
      exact ⟨hfed, rfl⟩
    | true =>
      obtain ⟨o, hm, hnone⟩ := hp
      exact ⟨hdecoded hm, hnone⟩
  | continues fragment last =>
    cases last with
    | false =>
      obtain ⟨begun, hb, hv⟩ := hp
      rw [hbegun] at hb
      rw [hv]
      unfold assemble
      rw [hb]
      exact ⟨hfed, rfl⟩
    | true =>
      obtain ⟨begun, hb, o, hm, hnone⟩ := hp
      rw [hbegun] at hb
      unfold assemble
      rw [hb]
      exact ⟨hdecoded hm, hnone⟩
  | other =>
    change v' = _ at hp
    rw [hp]
    exact ⟨hfed, rfl⟩

/-- One step of a machine that reads frames: if it is alive after it, it was before, and it has
consumed the frame it read, if any. -/
def StepConsumes (dec : δ → List α → Option (η × δ)) (step : S → E → S) (obs : S → E → List φ)
    (piece : φ → Piece α) (view : S → δ × Option (List α)) (alive : S → Prop) (s : S) (e : E) :
    Prop :=
  alive (step s e) → alive s ∧
    (obs s e = [] ∧ view (step s e) = view s ∨
      ∃ f, obs s e = [f] ∧ Consumes dec (view s) (view (step s e)) (piece f))

theorem inStep_run {dec : δ → List α → Option (η × δ)} {step : S → E → S}
    {obs : S → E → List φ} {piece : φ → Piece α} {view : S → δ × Option (List α)}
    {alive : S → Prop} (hstep : ∀ s e, StepConsumes dec step obs piece view alive s e)
    {s : S} (hs : (view s).2 = none) (es : List E) :
    let p := es.foldl (watch step obs) (s, [])
    alive p.1 → InStep dec (view s).1 (view p.1) (assembled (p.2.map piece)) := by
  have hinv (p : S × List φ) (e : E)
      (h : alive p.1 → InStep dec (view s).1 (view p.1) (assembled (p.2.map piece))) :
      alive (watch step obs p e).1 → InStep dec (view s).1 (view (watch step obs p e).1)
        (assembled ((watch step obs p e).2.map piece)) := by
    intro halive
    obtain ⟨hbefore, hread⟩ := hstep p.1 e halive
    have hone := h hbefore
    unfold watch
    dsimp only
    rcases hread with ⟨hnone, hsame⟩ | ⟨f, hf, hconsumed⟩
    · rw [hnone, List.append_nil, hsame]
      exact hone
    · rw [hf, List.map_append, List.map_singleton, assembled_concat]
      exact inStep_assemble hone hconsumed
  have hstart : alive s → InStep dec (view s).1 (view s) (assembled (([] : List φ).map piece)) :=
    fun _ => ⟨rfl, hs⟩
  exact invariant_of_run hinv es (s, []) hstart

end EnvoyGo.Fragments

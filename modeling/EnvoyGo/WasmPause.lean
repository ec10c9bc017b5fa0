import EnvoyGo.Runs
import Mathlib.Data.Nat.Notation
import Mathlib.Logic.Function.Basic
import Mathlib.Tactic.SplitIfs

/-!
Pauses of a wasm guest on one side of a stream: the paused flag, its generation, the watchdogs and
the resume channel.  One event is one atomic step of the dispatch goroutine, of a guest's
`proxy_continue_stream` or of a watchdog; an event that cannot happen changes nothing.
-/

namespace EnvoyGo.WasmPause

open Runs

/-- A headers or trailers callback pauses with `beginDecodePause`, a body callback with
`beginDecodePauseOnce`. -/
inductive Arm
  | plain
  | body
  deriving DecidableEq

/-- Where the dispatch goroutine stands.  `returned` is past a guest callback that paused, with the
guest lock dropped; `begun` is at the generation bump, `bumped` at the store of the flag, `stored`
at the arming of the watchdog and `armed` at the swap of the timer handles.  `checking`, `clearing`
and `cleared` are the steps of `disarmDecodePause`. -/
inductive Phase
  | idle
  | calling (arm : Arm)
  | returned (arm : Arm)
  | begun
  | bumped (gen : ℕ)
  | stored (gen : ℕ)
  | armed
  | parked
  | checking
  | clearing
  | cleared
  | aborted
  | over
  deriving DecidableEq

/-- A `ContinueStream` call; past its swap it holds the pause whose flag it took. -/
inductive Resume
  | idle
  | issued
  | swapped (pause : ℕ)
  | bumped (pause : ℕ)
  | stopped (pause : ℕ)
  | finished
  deriving DecidableEq

inductive Watchdog
  | absent
  | pending
  | entered
  | checked
  | swapped (pause : ℕ)
  | finished
  deriving DecidableEq

inductive Caller
  | guest (c : ℕ)
  | watchdog (t : ℕ)
  deriving DecidableEq

/-- A pause is named by the number of its guest callback.  `owner`, `winner`, `releases` and
`target` are history: the pause the flag was stored for, who took the flag of a pause, how many
`ContinueDecoding` calls a pause got, and the pause a resume was issued after the return of. -/
structure Side where
  paused : Bool := false
  gen : ℕ := 0
  token : Bool := false
  phase : Phase := .idle
  turn : ℕ := 0
  timer : Option ℕ := none
  resume : ℕ → Resume := fun _ => .idle
  dog : ℕ → Watchdog := fun _ => .absent
  dogGen : ℕ → ℕ := fun _ => 0
  owner : ℕ := 0
  winner : ℕ → Option Caller := fun _ => none
  releases : ℕ → ℕ := fun _ => 0
  target : ℕ → Option ℕ := fun _ => none

def Phase.gap : Phase → Bool
  | .returned _ | .begun | .bumped _ => true
  | _ => false

def Phase.parking : Phase → Bool
  | .stored _ | .armed | .parked => true
  | _ => false

namespace Side

def setResume (s : Side) (c : ℕ) (p : Resume) : Side :=
  { s with resume := Function.update s.resume c p }

def setDog (s : Side) (t : ℕ) (p : Watchdog) : Side := { s with dog := Function.update s.dog t p }

/-- `Timer.Stop` on the watchdog of a pause; one that has entered is not stopped. -/
def stopDog (s : Side) (t : Option ℕ) : Side :=
  match t with
  | none => s
  | some t => if s.dog t = .pending then s.setDog t .finished else s

def takeTimer (s : Side) : Side := { s.stopDog s.timer with timer := none }

def continueDecoding (s : Side) (pause : ℕ) : Side :=
  { s with
    token := true
    releases := Function.update s.releases pause (s.releases pause + 1) }

/-- `CompareAndSwap(true, false)` won. -/
def take (s : Side) (who : Caller) : Side :=
  { s with paused := false, winner := Function.update s.winner s.owner (some who) }

def enter (s : Side) (arm : Arm) : Side :=
  if s.phase = .idle then { s with phase := .calling arm, turn := s.turn + 1 } else s

def ret (s : Side) (pause : Bool) : Side :=
  match s.phase with
  | .calling arm =>
    if pause then { s with phase := .returned arm }
    else
      match arm with
      | .plain => { s with phase := .idle }
      | .body => { s with phase := .checking }
  | _ => s

/-- The next step of the dispatch goroutine on its way to the park, or through a disarm. -/
def advance (s : Side) : Side :=
  match s.phase with
  | .returned .plain => { s with phase := .begun }
  | .returned .body => if s.paused then { s with phase := .parked } else { s with phase := .begun }
  | .begun => { s with phase := .bumped (s.gen + 1), gen := s.gen + 1 }
  | .bumped g => { s with phase := .stored g, paused := true, owner := s.turn }
  | .stored g =>
    { s.setDog s.turn .pending with
      phase := .armed, dogGen := Function.update s.dogGen s.turn g }
  | .armed => { s.stopDog s.timer with phase := .parked, timer := some s.turn }
  | .checking => if s.paused then { s with phase := .clearing } else { s with phase := .idle }
  | .clearing => { s with phase := .cleared, paused := false }
  | .cleared => { s.takeTimer with phase := .idle, gen := s.gen + 1 }
  | _ => s

def unpark (s : Side) : Side :=
  if s.phase = .parked ∧ s.token = true then { s with phase := .idle, token := false } else s

def abort (s : Side) : Side := if s.phase = .parked then { s with phase := .aborted } else s

def destroy (s : Side) : Side :=
  if s.phase = .idle ∨ s.phase = .aborted then
    { s.takeTimer with phase := .over, gen := s.gen + 1 }
  else s

/-- The guest calls `proxy_continue_stream`. -/
def issue (s : Side) (c : ℕ) : Side :=
  if s.resume c = .idle then
    { s.setResume c .issued with
      target := Function.update s.target c
        (if s.phase.gap || s.phase.parking then some s.turn else none) }
  else s

def resumeSwap (s : Side) (c : ℕ) : Side :=
  if s.resume c = .issued then
    if s.paused then (s.take (.guest c)).setResume c (.swapped s.owner)
    else s.setResume c .finished
  else s

def resumeBump (s : Side) (c : ℕ) : Side :=
  match s.resume c with
  | .swapped t => { s.setResume c (.bumped t) with gen := s.gen + 1 }
  | _ => s

def resumeStop (s : Side) (c : ℕ) : Side :=
  match s.resume c with
  | .bumped t => s.takeTimer.setResume c (.stopped t)
  | _ => s

def resumeSignal (s : Side) (c : ℕ) : Side :=
  match s.resume c with
  | .stopped t => (s.continueDecoding t).setResume c .finished
  | _ => s

def expire (s : Side) (t : ℕ) : Side := if s.dog t = .pending then s.setDog t .entered else s

def dogCheck (s : Side) (t : ℕ) : Side :=
  if s.dog t = .entered then
    s.setDog t (if s.gen = s.dogGen t then .checked else .finished)
  else s

def dogSwap (s : Side) (t : ℕ) : Side :=
  if s.dog t = .checked then
    if s.paused then (s.take (.watchdog t)).setDog t (.swapped s.owner)
    else s.setDog t .finished
  else s

def dogSignal (s : Side) (t : ℕ) : Side :=
  match s.dog t with
  | .swapped p => (s.continueDecoding p).setDog t .finished
  | _ => s

end Side

inductive Event
  | enter (arm : Arm)
  | ret (pause : Bool)
  | advance
  | unpark
  | abort
  | destroy
  | issue (c : ℕ)
  | resumeSwap (c : ℕ)
  | resumeBump (c : ℕ)
  | resumeStop (c : ℕ)
  | resumeSignal (c : ℕ)
  | expire (t : ℕ)
  | dogCheck (t : ℕ)
  | dogSwap (t : ℕ)
  | dogSignal (t : ℕ)
  deriving DecidableEq

def Side.step (s : Side) : Event → Side
  | .enter arm => s.enter arm
  | .ret pause => s.ret pause
  | .advance => s.advance
  | .unpark => s.unpark
  | .abort => s.abort
  | .destroy => s.destroy
  | .issue c => s.issue c
  | .resumeSwap c => s.resumeSwap c
  | .resumeBump c => s.resumeBump c
  | .resumeStop c => s.resumeStop c
  | .resumeSignal c => s.resumeSignal c
  | .expire t => s.expire t
  | .dogCheck t => s.dogCheck t
  | .dogSwap t => s.dogSwap t
  | .dogSignal t => s.dogSignal t

inductive Direction
  | decode
  | encode
  deriving DecidableEq

/-- The two sides have a flag, a generation, a handle and a resume channel each, and the same
code. -/
abbrev Filter := Direction → Side

def step (f : Filter) (e : Direction × Event) : Filter :=
  Function.update f e.1 ((f e.1).step e.2)

/-- The filter of a stream after a run. -/
def run (es : List (Direction × Event)) : Filter := es.foldl step (fun _ => {})

/-- No call is between its swap and its `ContinueDecoding`. -/
def Side.AtRest (s : Side) : Prop :=
  (∀ c t, s.resume c ≠ .swapped t ∧ s.resume c ≠ .bumped t ∧ s.resume c ≠ .stopped t) ∧
    ∀ w t, s.dog w ≠ .swapped t

/-- A resume issued after the pausing callback returned does not swap before the flag of that pause
is stored. -/
def Settled (f : Filter) : Direction × Event → Prop
  | (d, .resumeSwap c) => (f d).target c = some (f d).turn → (f d).phase.gap = false
  | _ => True

/-- A watchdog that swaps with the flag up still has the current generation. -/
def Current (f : Filter) : Direction × Event → Prop
  | (d, .dogSwap t) =>
    (f d).dog t = .checked → (f d).paused = true → (f d).gen = (f d).dogGen t
  | _ => True

inductive Move (s : Side) : Event → Side → Prop
  | still (e : Event) : Move s e s
  | entered (arm : Arm) (h : s.phase = .idle) :
      Move s (.enter arm) { s with phase := .calling arm, turn := s.turn + 1 }
  | paused (arm : Arm) (h : s.phase = .calling arm) :
      Move s (.ret true) { s with phase := .returned arm }
  | continued (h : s.phase = .calling .plain) : Move s (.ret false) { s with phase := .idle }
  | disarms (h : s.phase = .calling .body) : Move s (.ret false) { s with phase := .checking }
  | begun (arm : Arm) (h : s.phase = .returned arm) : Move s .advance { s with phase := .begun }
  | skipped (h : s.phase = .returned .body) (hup : s.paused = true) :
      Move s .advance { s with phase := .parked }
  | bumped (h : s.phase = .begun) :
      Move s .advance { s with phase := .bumped (s.gen + 1), gen := s.gen + 1 }
  | stored (g : ℕ) (h : s.phase = .bumped g) :
      Move s .advance { s with phase := .stored g, paused := true, owner := s.turn }
  | armed (g : ℕ) (h : s.phase = .stored g) :
      Move s .advance { s.setDog s.turn .pending with
        phase := .armed, dogGen := Function.update s.dogGen s.turn g }
  | parked (h : s.phase = .armed) :
      Move s .advance { s.stopDog s.timer with phase := .parked, timer := some s.turn }
  | clear (h : s.phase = .checking) (hdown : s.paused = false) :
      Move s .advance { s with phase := .idle }
  | clearing (h : s.phase = .checking) (hup : s.paused = true) :
      Move s .advance { s with phase := .clearing }
  | cleared (h : s.phase = .clearing) :
      Move s .advance { s with phase := .cleared, paused := false }
  | disarmed (h : s.phase = .cleared) :
      Move s .advance { s.takeTimer with phase := .idle, gen := s.gen + 1 }
  | unparked (h : s.phase = .parked) (htoken : s.token = true) :
      Move s .unpark { s with phase := .idle, token := false }
  | aborted (h : s.phase = .parked) : Move s .abort { s with phase := .aborted }
  | destroyed (h : s.phase = .idle ∨ s.phase = .aborted) :
      Move s .destroy { s.takeTimer with phase := .over, gen := s.gen + 1 }
  | issued (c : ℕ) (h : s.resume c = .idle) :
      Move s (.issue c) { s.setResume c .issued with
        target := Function.update s.target c
          (if s.phase.gap || s.phase.parking then some s.turn else none) }
  | swapped (c : ℕ) (h : s.resume c = .issued) (hup : s.paused = true) :
      Move s (.resumeSwap c) ((s.take (.guest c)).setResume c (.swapped s.owner))
  | lost (c : ℕ) (h : s.resume c = .issued) (hdown : s.paused = false) :
      Move s (.resumeSwap c) (s.setResume c .finished)
  | resumeBumped (c t : ℕ) (h : s.resume c = .swapped t) :
      Move s (.resumeBump c) { s.setResume c (.bumped t) with gen := s.gen + 1 }
  | resumeStopped (c t : ℕ) (h : s.resume c = .bumped t) :
      Move s (.resumeStop c) (s.takeTimer.setResume c (.stopped t))
  | resumed (c t : ℕ) (h : s.resume c = .stopped t) :
      Move s (.resumeSignal c) ((s.continueDecoding t).setResume c .finished)
  | expired (t : ℕ) (h : s.dog t = .pending) : Move s (.expire t) (s.setDog t .entered)
  | passed (t : ℕ) (h : s.dog t = .entered) (hgen : s.gen = s.dogGen t) :
      Move s (.dogCheck t) (s.setDog t .checked)
  | superseded (t : ℕ) (h : s.dog t = .entered) (hgen : s.gen ≠ s.dogGen t) :
      Move s (.dogCheck t) (s.setDog t .finished)
  | bit (t : ℕ) (h : s.dog t = .checked) (hup : s.paused = true) :
      Move s (.dogSwap t) ((s.take (.watchdog t)).setDog t (.swapped s.owner))
  | beaten (t : ℕ) (h : s.dog t = .checked) (hdown : s.paused = false) :
      Move s (.dogSwap t) (s.setDog t .finished)
  | forced (t p : ℕ) (h : s.dog t = .swapped p) :
      Move s (.dogSignal t) ((s.continueDecoding p).setDog t .finished)

theorem advance_move (s : Side) : Move s .advance s.advance := by
  unfold Side.advance
  split
  case h_1 h => exact .begun _ h
  case h_2 h =>
    split_ifs with hup
    · exact .skipped h hup
    · exact .begun _ h
  case h_3 h => exact .bumped h
  case h_4 g h => exact .stored g h
  case h_5 g h => exact .armed g h
  case h_6 h => exact .parked h
  case h_7 h =>
    split_ifs with hup
    · exact .clearing h hup
    · exact .clear h (by simpa using hup)
  case h_8 h => exact .cleared h
  case h_9 h => exact .disarmed h
  case h_10 => exact .still _

theorem ret_move (s : Side) (pause : Bool) : Move s (.ret pause) (s.ret pause) := by
  unfold Side.ret
  split
  case h_1 arm h =>
    cases pause with
    | true => exact .paused arm h
    | false =>
      cases arm with
      | plain => exact .continued h
      | body => exact .disarms h
  case h_2 => exact .still _

theorem step_move (s : Side) (e : Event) : Move s e (s.step e) := by
  cases e with
  | enter arm =>
    simp only [Side.step, Side.enter]
    split_ifs with h
    · exact .entered arm h
    · exact .still _
  | ret pause => exact ret_move s pause
  | advance => exact advance_move s
  | unpark =>
    simp only [Side.step, Side.unpark]
    split_ifs with h
    · exact .unparked h.1 h.2
    · exact .still _
  | abort =>
    simp only [Side.step, Side.abort]
    split_ifs with h
    · exact .aborted h
    · exact .still _
  | destroy =>
    simp only [Side.step, Side.destroy]
    split_ifs with h
    · exact .destroyed h
    · exact .still _
  | issue c =>
    simp only [Side.step, Side.issue]
    split
    · exact .issued c ‹_›
    · exact .still _
  | resumeSwap c =>
    simp only [Side.step, Side.resumeSwap]
    split_ifs with h hup
    · exact .swapped c h hup
    · exact .lost c h (by simpa using hup)
    · exact .still _
  | resumeBump c =>
    simp only [Side.step, Side.resumeBump]
    split
    · exact .resumeBumped c _ ‹_›
    · exact .still _
  | resumeStop c =>
    simp only [Side.step, Side.resumeStop]
    split
    · exact .resumeStopped c _ ‹_›
    · exact .still _
  | resumeSignal c =>
    simp only [Side.step, Side.resumeSignal]
    split
    · exact .resumed c _ ‹_›
    · exact .still _
  | expire t =>
    simp only [Side.step, Side.expire]
    split_ifs with h
    · exact .expired t h
    · exact .still _
  | dogCheck t =>
    simp only [Side.step, Side.dogCheck]
    split_ifs with h hgen
    · exact .passed t h hgen
    · exact .superseded t h hgen
    · exact .still _
  | dogSwap t =>
    simp only [Side.step, Side.dogSwap]
    split_ifs with h hup
    · exact .bit t h hup
    · exact .beaten t h (by simpa using hup)
    · exact .still _
  | dogSignal t =>
    simp only [Side.step, Side.dogSignal]
    split
    · exact .forced t _ ‹_›
    · exact .still _

end EnvoyGo.WasmPause

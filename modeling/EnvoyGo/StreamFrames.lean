import EnvoyGo.Runs
import Mathlib.Data.List.Basic
import Mathlib.Data.List.Count

/-!
A stream that is cut into frames as its bytes come in, and entries that are closed by their first
match.  Nothing here is about a particular protocol.
-/

namespace EnvoyGo.StreamFrames

variable {α σ : Type}

inductive Front (α : Type) where
  | frame (m rest : List α)
  | more
  | bad
  deriving DecidableEq

structure Framer (α : Type) where
  next : List α → Front α
  frame_ne : ∀ {b m rest}, next b = .frame m rest → m ≠ []
  frame_eq : ∀ {b m rest}, next b = .frame m rest → b = m ++ rest
  frame_append : ∀ {b m rest} c, next b = .frame m rest → next (b ++ c) = .frame m (rest ++ c)
  bad_append : ∀ {b} c, next b = .bad → next (b ++ c) = .bad

namespace Framer

variable (F : Framer α)

def cut : ℕ → List α → List (List α) × List α
  | 0, b => ([], b)
  | fuel + 1, b =>
    match F.next b with
    | .frame m rest => (m :: (cut fuel rest).1, (cut fuel rest).2)
    | _ => ([], b)

def frames (b : List α) : List (List α) := (F.cut b.length b).1

/-- What is left behind them. -/
def rest (b : List α) : List α := (F.cut b.length b).2

variable {F}

theorem length_lt {b m r : List α} (h : F.next b = .frame m r) : r.length < b.length := by
  have hpos := List.length_pos_iff.mpr (F.frame_ne h)
  rw [F.frame_eq h, List.length_append]
  omega

theorem cut_frame {b m r : List α} (h : F.next b = .frame m r) (fuel : ℕ) :
    F.cut (fuel + 1) b = (m :: (F.cut fuel r).1, (F.cut fuel r).2) := by
  rw [cut, h]

theorem cut_stop {b : List α} (h : ∀ m r, F.next b ≠ .frame m r) (fuel : ℕ) :
    F.cut fuel b = ([], b) := by
  cases fuel with
  | zero => rfl
  | succ fuel =>
    rw [cut]
    cases hb : F.next b with
    | frame m r => exact absurd hb (h m r)
    | more => rfl
    | bad => rfl

theorem cut_of_le {fuel fuel' : ℕ} {b : List α} (h : b.length ≤ fuel) (h' : b.length ≤ fuel') :
    F.cut fuel b = F.cut fuel' b := by
  induction fuel generalizing fuel' b with
  | zero =>
    have hnil : b = [] := List.length_eq_zero_iff.mp (Nat.le_zero.mp h)
    have hnext : ∀ m r, F.next b ≠ .frame m r := by
      intro m r hb
      have hlt := length_lt hb
      rw [hnil] at hlt
      exact absurd hlt (Nat.not_lt_zero _)
    rw [cut_stop hnext, cut_stop hnext]
  | succ fuel ih =>
    by_cases hb : ∃ m r, F.next b = .frame m r
    · obtain ⟨m, r, hb⟩ := hb
      have hlt := length_lt hb
      obtain ⟨k, rfl⟩ := Nat.exists_eq_add_one.mpr (Nat.lt_of_lt_of_le (Nat.zero_lt_of_lt hlt) h')
      rw [cut_frame hb, cut_frame hb, ih (by omega) (by omega : r.length ≤ k)]
    · have hnext : ∀ m r, F.next b ≠ .frame m r := fun m r hf => hb ⟨m, r, hf⟩
      rw [cut_stop hnext, cut_stop hnext]

theorem frames_frame {b m r : List α} (h : F.next b = .frame m r) :
    F.frames b = m :: F.frames r ∧ F.rest b = F.rest r := by
  have hlt := length_lt h
  have hcut : F.cut b.length b = (m :: (F.cut r.length r).1, (F.cut r.length r).2) := by
    rw [cut_of_le (Nat.le_refl _) (Nat.le_succ b.length), cut_frame h,
      cut_of_le (by omega) (Nat.le_refl r.length)]
  rw [frames, rest, hcut]
  exact ⟨rfl, rfl⟩

theorem frames_stop {b : List α} (h : ∀ m r, F.next b ≠ .frame m r) :
    F.frames b = [] ∧ F.rest b = b := by
  rw [frames, rest, cut_stop h]
  exact ⟨rfl, rfl⟩

@[elab_as_elim]
theorem frames_induction {P : List α → Prop} (stop : ∀ b, (∀ m r, F.next b ≠ .frame m r) → P b)
    (step : ∀ b m r, F.next b = .frame m r → P r → P b) (b : List α) : P b := by
  induction hn : b.length using Nat.strongRecOn generalizing b with
  | _ n ih =>
    by_cases hb : ∃ m r, F.next b = .frame m r
    · obtain ⟨m, r, hb⟩ := hb
      refine step b m r hb (ih r.length ?_ r rfl)
      rw [← hn]
      exact length_lt hb
    · exact stop b fun m r hf => hb ⟨m, r, hf⟩

theorem forall_mem_frames {Q : List α → Prop} (h : ∀ b m r, F.next b = .frame m r → Q m)
    (b : List α) : ∀ m ∈ F.frames b, Q m := by
  induction b using F.frames_induction with
  | stop b hstop =>
    rw [(frames_stop hstop).1]
    exact fun _ hm => absurd hm List.not_mem_nil
  | step b m r hm ih =>
    rw [(frames_frame hm).1]
    exact List.forall_mem_cons.mpr ⟨h b m r hm, ih⟩

theorem frames_append (b c : List α) :
    F.frames (b ++ c) = F.frames b ++ F.frames (F.rest b ++ c) ∧
      F.rest (b ++ c) = F.rest (F.rest b ++ c) := by
  induction b using F.frames_induction with
  | stop b h =>
    rw [(frames_stop h).1, (frames_stop h).2]
    exact ⟨rfl, rfl⟩
  | step b m r h ih =>
    have hc := frames_frame (F.frame_append c h)
    rw [hc.1, hc.2, (frames_frame h).1, (frames_frame h).2, ih.1, ih.2, List.cons_append]
    exact ⟨rfl, rfl⟩

def Clean (F : Framer α) (ok : List α → Bool) (b : List α) : Prop :=
  (∀ m ∈ F.frames b, ok m = true) ∧ F.next (F.rest b) ≠ .bad

variable {ok : List α → Bool}

theorem Clean.of_append {b c : List α} (h : F.Clean ok (b ++ c)) : F.Clean ok b := by
  obtain ⟨hall, hrest⟩ := h
  have happ := F.frames_append b c
  refine ⟨fun m hm => hall m ?_, fun hbad => hrest ?_⟩
  · rw [happ.1]
    exact List.mem_append_left _ hm
  · have hc := F.bad_append c hbad
    have hstop : ∀ m r, F.next (F.rest b ++ c) ≠ .frame m r := by
      intro m r hf
      rw [hc] at hf
      cases hf
    rw [happ.2, (frames_stop hstop).2]
    exact hc

end Framer

end EnvoyGo.StreamFrames

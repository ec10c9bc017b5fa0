import Mathlib.Data.Finset.Card
import Mathlib.Data.List.Nodup
import Mathlib.Logic.Relation

/-!
Work admitted up to a cap: a key enters the book at most once, its job is queued at most once,
launched, and finished; a finished job's entry is removed later, in a batch.  Nothing here is about
a particular server.
-/

namespace EnvoyGo

/-- `entries` are what the cap counts, `opened` the keys whose job is not complete yet, `last` the
largest key so far, `done` the finished jobs whose entry is still there. -/
structure AdmissionBook where
  cap : ℕ
  entries : Finset ℕ
  opened : Set ℕ
  last : ℕ
  done : List ℕ
  pending : List ℕ
  running : List ℕ
  launched : List ℕ

namespace AdmissionBook

variable {b c : AdmissionBook}

/-- The jobs queued or running. -/
def unfinished (b : AdmissionBook) : List ℕ := b.pending ++ b.running

def jobs (b : AdmissionBook) : List ℕ := b.launched ++ b.pending

def remove (b : AdmissionBook) (k : ℕ) : AdmissionBook :=
  { b with entries := b.entries.erase k, opened := b.opened \ {k} }

inductive Step : AdmissionBook → AdmissionBook → Prop
  | drain (b : AdmissionBook) : Step b { b with entries := b.entries \ b.done.toFinset, done := [] }
  | launch (b : AdmissionBook) : Step b { b with
      running := b.running ++ b.pending
      launched := b.launched ++ b.pending
      pending := [] }
  | enter (b : AdmissionBook) (k : ℕ) (hlast : b.last < k) (hcap : b.entries.card < b.cap) :
      Step b { b with entries := insert k b.entries, opened := insert k b.opened, last := k }
  | complete (b : AdmissionBook) (k : ℕ) (hopen : k ∈ b.opened) (hmem : k ∈ b.entries) :
      Step b { b with opened := b.opened \ {k}, pending := b.pending ++ [k] }
  | close (b : AdmissionBook) (k : ℕ) : Step b { b with opened := b.opened \ {k} }
  | finish (b : AdmissionBook) (k : ℕ) (hrun : k ∈ b.running) :
      Step b { b with running := b.running.erase k, done := b.done ++ [k] }

structure Kept (b : AdmissionBook) : Prop where
  once : b.jobs.Nodup
  jobs_le : ∀ k ∈ b.jobs, k ≤ b.last
  opened_le : ∀ k ∈ b.opened, k ≤ b.last
  entries_le : ∀ k ∈ b.entries, k ≤ b.last
  opened_fresh : ∀ k ∈ b.opened, k ∉ b.jobs
  running_once : b.running.Nodup
  running_launched : ∀ k ∈ b.running, k ∈ b.launched
  done_launched : ∀ k ∈ b.done, k ∈ b.launched ∧ k ∉ b.running

theorem Kept.step (h : Kept b) (hs : Step b c) : Kept c := by
  cases hs with
  | drain =>
    refine ⟨h.once, h.jobs_le, h.opened_le, ?_, h.opened_fresh, h.running_once,
      h.running_launched, ?_⟩
    · intro k hk
      exact h.entries_le k (Finset.mem_sdiff.mp hk).1
    · intro k hk
      cases hk
  | launch =>
    have hjobs : (b.launched ++ b.pending) ++ [] = b.jobs := List.append_nil _
    have hdisj := (List.nodup_append'.mp h.once).2.2
    refine ⟨?_, ?_, h.opened_le, h.entries_le, ?_, ?_, ?_, ?_⟩
    · rw [jobs, hjobs]
      exact h.once
    · rw [jobs, hjobs]
      exact h.jobs_le
    · rw [jobs, hjobs]
      exact h.opened_fresh
    · refine h.running_once.append (List.nodup_append'.mp h.once).2.1 ?_
      intro k hrun hpend
      exact hdisj (h.running_launched k hrun) hpend
    · intro k hk
      rcases List.mem_append.mp hk with hk | hk
      · exact List.mem_append_left _ (h.running_launched k hk)
      · exact List.mem_append_right _ hk
    · intro k hk
      obtain ⟨hl, hr⟩ := h.done_launched k hk
      refine ⟨List.mem_append_left _ hl, ?_⟩
      intro hmem
      rcases List.mem_append.mp hmem with hmem | hmem
      · exact hr hmem
      · exact hdisj hl hmem
  | enter k hlast hcap =>
    refine ⟨h.once, ?_, ?_, ?_, ?_, h.running_once, h.running_launched, h.done_launched⟩
    · intro j hj
      exact (h.jobs_le j hj).trans hlast.le
    · intro j hj
      rcases Set.mem_insert_iff.mp hj with rfl | hj
      · exact le_rfl
      · exact (h.opened_le j hj).trans hlast.le
    · intro j hj
      rcases Finset.mem_insert.mp hj with rfl | hj
      · exact le_rfl
      · exact (h.entries_le j hj).trans hlast.le
    · intro j hj hjob
      rcases Set.mem_insert_iff.mp hj with rfl | hj
      · exact absurd (h.jobs_le j hjob) (not_le.mpr hlast)
      · exact h.opened_fresh j hj hjob
  | complete k hopen hmem =>
    have hjobs : b.launched ++ (b.pending ++ [k]) = b.jobs ++ [k] := by
      rw [jobs, List.append_assoc]
    refine ⟨?_, ?_, ?_, h.entries_le, ?_, h.running_once, h.running_launched,
      h.done_launched⟩
    · rw [jobs, hjobs]
      exact h.once.append (List.nodup_singleton k)
        (List.disjoint_singleton.mpr (h.opened_fresh k hopen))
    · rw [jobs, hjobs]
      intro j hj
      rcases List.mem_append.mp hj with hj | hj
      · exact h.jobs_le j hj
      · rw [List.mem_singleton.mp hj]
        exact h.opened_le k hopen
    · intro j hj
      exact h.opened_le j hj.1
    · rw [jobs, hjobs]
      intro j hj hjob
      rcases List.mem_append.mp hjob with hjob | hjob
      · exact h.opened_fresh j hj.1 hjob
      · exact hj.2 (List.mem_singleton.mp hjob)
  | close k =>
    refine ⟨h.once, h.jobs_le, ?_, h.entries_le, ?_, h.running_once, h.running_launched,
      h.done_launched⟩
    · intro j hj
      exact h.opened_le j hj.1
    · intro j hj
      exact h.opened_fresh j hj.1
  | finish k hrun =>
    refine ⟨h.once, h.jobs_le, h.opened_le, h.entries_le, h.opened_fresh,
      h.running_once.erase k, ?_, ?_⟩
    · intro j hj
      exact h.running_launched j (List.mem_of_mem_erase hj)
    · intro j hj
      rcases List.mem_append.mp hj with hj | hj
      · obtain ⟨hl, hr⟩ := h.done_launched j hj
        exact ⟨hl, fun hmem => hr (List.mem_of_mem_erase hmem)⟩
      · rw [List.mem_singleton.mp hj]
        exact ⟨h.running_launched k hrun, h.running_once.not_mem_erase⟩

theorem Kept.remove (h : Kept b) (k : ℕ) : Kept (b.remove k) := by
  refine ⟨h.once, h.jobs_le, ?_, ?_, ?_, h.running_once, h.running_launched, h.done_launched⟩
  · intro j hj
    exact h.opened_le j hj.1
  · intro j hj
    exact h.entries_le j (Finset.mem_of_mem_erase hj)
  · intro j hj
    exact h.opened_fresh j hj.1

theorem Step.cap (hs : Step b c) : c.cap = b.cap := by
  cases hs
  all_goals rfl

theorem steps_cap (hs : Relation.ReflTransGen Step b c) : c.cap = b.cap := by
  induction hs with
  | refl => rfl
  | tail _ hstep ih => exact hstep.cap.trans ih

theorem Step.last_le (hs : Step b c) : b.last ≤ c.last := by
  cases hs with
  | enter k hlast hcap => exact hlast.le
  | _ => exact le_rfl

theorem steps_last_le (hs : Relation.ReflTransGen Step b c) : b.last ≤ c.last := by
  induction hs with
  | refl => exact le_rfl
  | tail _ hstep ih => exact ih.trans hstep.last_le

theorem Step.gone (hs : Step b c) {k : ℕ} (hk : k ≤ b.last) (hout : k ∉ b.entries) :
    k ∉ c.entries := by
  cases hs with
  | drain => exact fun h => hout (Finset.mem_sdiff.mp h).1
  | enter l hlast hcap =>
    rw [Finset.mem_insert]
    rintro (rfl | h)
    · omega
    · exact hout h
  | _ => exact hout

/-- A key that is not in the book any more does not come back. -/
theorem steps_gone (hs : Relation.ReflTransGen Step b c) {k : ℕ} (hk : k ≤ b.last)
    (hout : k ∉ b.entries) : k ∉ c.entries := by
  induction hs with
  | refl => exact hout
  | tail hsteps hstep ih => exact hstep.gone (hk.trans (steps_last_le hsteps)) ih

theorem steps_opened (hs : Relation.ReflTransGen Step b c) (hlast : c.last = b.last) :
    c.opened ⊆ b.opened := by
  induction hs with
  | refl => exact subset_rfl
  | tail hsteps hstep ih =>
    have hle := steps_last_le hsteps
    cases hstep with
    | enter k hk hcap =>
      change k = b.last at hlast
      omega
    | complete k hopen hmem => exact Set.sdiff_subset.trans (ih hlast)
    | close k => exact Set.sdiff_subset.trans (ih hlast)
    | drain => exact ih hlast
    | launch => exact ih hlast
    | finish k hrun => exact ih hlast

theorem Kept.steps (h : Kept b) (hs : Relation.ReflTransGen Step b c) : Kept c := by
  induction hs with
  | refl => exact h
  | tail _ hstep ih => exact ih.step hstep

structure Covered (b : AdmissionBook) : Prop extends Kept b where
  covers : ∀ k ∈ b.unfinished, k ∈ b.entries
  room : b.entries.card ≤ b.cap

theorem Kept.done_finished (h : Kept b) {k : ℕ} (hk : k ∈ b.done) : k ∉ b.unfinished := by
  obtain ⟨hl, hr⟩ := h.done_launched k hk
  intro hmem
  rcases List.mem_append.mp hmem with hmem | hmem
  · exact (List.nodup_append'.mp h.once).2.2 hl hmem
  · exact hr hmem

theorem Covered.step (h : Covered b) (hs : Step b c) : Covered c := by
  refine ⟨h.toKept.step hs, ?_, ?_⟩
  · intro k hk
    cases hs with
    | drain =>
      refine Finset.mem_sdiff.mpr ⟨h.covers k hk, ?_⟩
      intro hdone
      exact h.toKept.done_finished (List.mem_toFinset.mp hdone) hk
    | launch =>
      refine h.covers k ?_
      simp only [unfinished, List.nil_append, List.mem_append] at hk ⊢
      exact hk.symm
    | enter j hlast hcap => exact Finset.mem_insert_of_mem (h.covers k hk)
    | complete j hopen hmem =>
      simp only [unfinished, List.mem_append, List.mem_singleton] at hk
      rcases hk with (hk | rfl) | hk
      · exact h.covers k (List.mem_append_left _ hk)
      · exact hmem
      · exact h.covers k (List.mem_append_right _ hk)
    | close j => exact h.covers k hk
    | finish j hrun =>
      rcases List.mem_append.mp hk with hk | hk
      · exact h.covers k (List.mem_append_left _ hk)
      · exact h.covers k (List.mem_append_right _ (List.mem_of_mem_erase hk))
  · cases hs with
    | drain => exact (Finset.card_le_card Finset.sdiff_subset).trans h.room
    | enter k hlast hcap => exact (Finset.card_insert_le _ _).trans hcap
    | launch => exact h.room
    | complete k hopen hmem => exact h.room
    | close k => exact h.room
    | finish k hrun => exact h.room

theorem Covered.remove (h : Covered b) {k : ℕ} (hk : k ∉ b.unfinished) : Covered (b.remove k) := by
  refine ⟨h.toKept.remove k, ?_, (Finset.card_le_card (Finset.erase_subset _ _)).trans h.room⟩
  intro j hj
  refine Finset.mem_erase.mpr ⟨?_, h.covers j hj⟩
  intro hjk
  exact hk (hjk ▸ hj)

theorem Covered.steps (h : Covered b) (hs : Relation.ReflTransGen Step b c) : Covered c := by
  induction hs with
  | refl => exact h
  | tail _ hstep ih => exact ih.step hstep

theorem unfinished_nodup (h : Kept b) : b.unfinished.Nodup := by
  have hparts := List.nodup_append'.mp h.once
  refine hparts.2.1.append h.running_once ?_
  intro k hpend hrun
  exact hparts.2.2 (h.running_launched k hrun) hpend

theorem Covered.unfinished_le_cap (h : Covered b) : b.unfinished.length ≤ b.cap := by
  have hnodup := unfinished_nodup h.toKept
  have hsub : b.unfinished.toFinset ⊆ b.entries := by
    intro k hk
    exact h.covers k (List.mem_toFinset.mp hk)
  calc b.unfinished.length = b.unfinished.toFinset.card := (List.toFinset_card_of_nodup hnodup).symm
    _ ≤ b.entries.card := Finset.card_le_card hsub
    _ ≤ b.cap := h.room

end AdmissionBook

end EnvoyGo

import Mathlib.Logic.Function.Basic
import EnvoyGo.Runs

/-!
Threads over one shared state, interleaved step by step, and reasoning about one thread by what
it relies on from the others and what it guarantees to them.  Nothing here is about a particular
program.
-/

namespace EnvoyGo.Threads

/-- A thread's code, cut at its accesses to the shared state.  A step waits until it is ready and
then acts at once; its label says what kind of access it is, and the flag is the scheduler's
pick where several alternatives are ready. -/
inductive Code (L S α : Type)
  | ret (a : α)
  | act (label : L) (ready : Bool → S → Bool) (f : Bool → S → S) (k : Bool → S → Code L S α)

variable {L S α β : Type}

def Code.bind : Code L S α → (α → Code L S β) → Code L S β
  | .ret a, g => g a
  | .act l ready f k, g => .act l ready f (fun b s => (k b s).bind g)

def atomic (l : L) (f : S → S) : Code L S Unit :=
  .act l (fun _ _ => true) (fun _ => f) (fun _ _ => .ret ())

def load (l : L) (g : S → α) : Code L S α :=
  .act l (fun _ _ => true) (fun _ s => s) (fun _ s => .ret (g s))

def Code.alone : Code L S α → S → α × S
  | .ret a, s => (a, s)
  | .act _ _ f k, s => (k false s).alone (f false s)

theorem Code.alone_bind (c : Code L S α) (g : α → Code L S β) (s : S) :
    (c.bind g).alone s = (g (c.alone s).1).alone (c.alone s).2 := by
  induction c generalizing s with
  | ret a => rfl
  | act l ready f k ih => exact ih false s (f false s)

def Code.NextOk (ok : L → S → Prop) (s : S) : Code L S α → Prop
  | .ret _ => True
  | .act l _ _ _ => ok l s

instance (ok : L → S → Prop) [∀ l s, Decidable (ok l s)] (s : S) :
    (c : Code L S α) → Decidable (c.NextOk ok s)
  | .ret _ => isTrue trivial
  | .act l _ _ _ => inferInstanceAs (Decidable (ok l s))

def Code.Does (ok : L → S → Prop) (P : S → S → Prop) : Code L S α → Prop
  | .ret _ => True
  | .act l ready f k =>
    ∀ b s, ready b s = true → ok l s → P s (f b s) ∧ (k b s).Does ok P

/-- From `s` on, with the others moving within `R`, every step of the code is within `G` and its
end meets `Q`.  Steps that are not `ok` are left out of account. -/
def Code.Holds (ok : L → S → Prop) (R G : S → S → Prop) (Q : α → S → Prop) :
    Code L S α → S → Prop
  | .ret a, s => ∀ s', R s s' → Q a s'
  | .act l ready f k, s =>
    ∀ s', R s s' → ∀ b, ready b s' = true → ok l s' →
      G s' (f b s') ∧ (k b s').Holds ok R G Q (f b s')

section Rules
variable {ok : L → S → Prop} {P R G : S → S → Prop} {Q : α → S → Prop}

variable {c : Code L S α} {s : S} {J : S → Prop}

theorem Code.Does.mono {P' : S → S → Prop} (h : c.Does ok P) (hP : ∀ s s', P s s' → P' s s') :
    c.Does ok P' := by
  induction c with
  | ret a => exact trivial
  | act l ready f k ih =>
    intro b s hb hok
    exact ⟨hP _ _ (h b s hb hok).1, ih b s (h b s hb hok).2⟩

theorem Code.Does.bind {g : α → Code L S β} (hc : c.Does ok P) (hg : ∀ a, (g a).Does ok P) :
    (c.bind g).Does ok P := by
  induction c with
  | ret a => exact hg a
  | act l ready f k ih =>
    intro b s hb hok
    exact ⟨(hc b s hb hok).1, ih b s (hc b s hb hok).2⟩

theorem does_atomic (l : L) (f : S → S) (h : ∀ s, ok l s → P s (f s)) : (atomic l f).Does ok P :=
  fun _ s _ hok => ⟨h s hok, trivial⟩

theorem does_load (l : L) (g : S → α) (h : ∀ s, P s s) : (load l g).Does ok P :=
  fun _ s _ _ => ⟨h s, trivial⟩

theorem Code.Holds.mono {G' : S → S → Prop} {Q' : α → S → Prop} (h : c.Holds ok R G Q s)
    (hG : ∀ s s', G s s' → G' s s') (hQ : ∀ a s, Q a s → Q' a s) : c.Holds ok R G' Q' s := by
  induction c generalizing s with
  | ret a => exact fun s' hs' => hQ a s' (h s' hs')
  | act l ready f k ih =>
    intro s' hs' b hb hok
    obtain ⟨hstep, hrest⟩ := h s' hs' b hb hok
    exact ⟨hG _ _ hstep, ih b s' hrest⟩

variable (htrans : ∀ s s' s'', R s s' → R s' s'' → R s s'')

include htrans in
theorem Code.Holds.stable {s' : S} (h : c.Holds ok R G Q s) (hs : R s s') :
    c.Holds ok R G Q s' := by
  cases c with
  | ret a => exact fun s'' hs'' => h s'' (htrans s s' s'' hs hs'')
  | act l ready f k => exact fun s'' hs'' => h s'' (htrans s s' s'' hs hs'')

theorem Code.Holds.bind (hrefl : ∀ s, R s s) {Q' : β → S → Prop} {g : α → Code L S β}
    (hc : c.Holds ok R G Q s) (hg : ∀ a s', Q a s' → (g a).Holds ok R G Q' s') :
    (c.bind g).Holds ok R G Q' s := by
  induction c generalizing s with
  | ret a => exact hg a s (hc s (hrefl s))
  | act l ready f k ih =>
    intro s' hs' b hb hok
    obtain ⟨hstep, hrest⟩ := hc s' hs' b hb hok
    exact ⟨hstep, ih b s' hrest⟩

theorem Code.Does.holds (h : c.Does ok P) (hR : ∀ s s', J s → R s s' → J s')
    (hP : ∀ s s', J s → P s s' → J s' ∧ G s s') (hs : J s) : c.Holds ok R G (fun _ => J) s := by
  induction c generalizing s with
  | ret a => exact fun s' hs' => hR s s' hs hs'
  | act l ready f k ih =>
    intro s' hs' b hb hok
    obtain ⟨hstep, hrest⟩ := h b s' hb hok
    obtain ⟨hj, hg⟩ := hP s' _ (hR s s' hs hs') hstep
    exact ⟨hg, ih b s' hrest hj⟩

theorem holds_ret (hR : ∀ s s', J s → R s s' → J s') (a : α) (hs : J s) (hQ : ∀ s, J s → Q a s) :
    (Code.ret a : Code L S α).Holds ok R G Q s :=
  fun s' hs' => hQ s' (hR s s' hs hs')

theorem holds_atomic {K : S → Prop} (hR : ∀ s s', J s → R s s' → J s')
    (hR' : ∀ s s', K s → R s s' → K s') (l : L) (f : S → S)
    (hstep : ∀ s, J s → ok l s → G s (f s) ∧ K (f s)) (hs : J s) :
    (atomic l f).Holds ok R G (fun _ => K) s := by
  intro s' hs' b hb hok
  obtain ⟨hg, hj⟩ := hstep s' (hR s s' hs hs') hok
  exact ⟨hg, fun s'' hs'' => hR' _ s'' hj hs''⟩

theorem holds_load {K : α → S → Prop} (hR : ∀ s s', J s → R s s' → J s')
    (hR' : ∀ a s s', K a s → R s s' → K a s') (l : L) (g : S → α)
    (hstep : ∀ s, J s → ok l s → G s s ∧ K (g s) s) (hs : J s) : (load l g).Holds ok R G K s := by
  intro s' hs' b hb hok
  obtain ⟨hg, hj⟩ := hstep s' (hR s s' hs hs') hok
  exact ⟨hg, fun s'' hs'' => hR' _ _ s'' hj hs''⟩

end Rules

/-- Threads by name, and the state they share. -/
structure Pool (ι L S : Type) where
  shared : S
  code : ι → Code L S Unit

namespace Pool
variable {ι : Type} [DecidableEq ι]

/-- One step of the thread picked; a thread that is over or not ready leaves everything alone. -/
def step (p : Pool ι L S) (e : ι × Bool) : Pool ι L S :=
  match p.code e.1 with
  | .ret _ => p
  | .act _ ready f k =>
    if ready e.2 p.shared then
      { shared := f e.2 p.shared
        code := Function.update p.code e.1 (k e.2 p.shared) }
    else p

/-- The step picked is `ok`, if there is one. -/
def StepOk (ok : L → S → Prop) (p : Pool ι L S) (e : ι × Bool) : Prop :=
  (p.code e.1).NextOk ok p.shared

instance (ok : L → S → Prop) [∀ l s, Decidable (ok l s)] (p : Pool ι L S) (e : ι × Bool) :
    Decidable (p.StepOk ok e) :=
  inferInstanceAs (Decidable ((p.code e.1).NextOk ok p.shared))

variable {ok : L → S → Prop} {R G : ι → S → S → Prop} {Q : ι → S → Prop} {inv : S → Prop}

/-- Each thread meets its part, and the invariant of the shared state holds. -/
structure Sound (ok : L → S → Prop) (R G : ι → S → S → Prop) (Q : ι → S → Prop) (inv : S → Prop)
    (p : Pool ι L S) : Prop where
  inv : inv p.shared
  threads : ∀ i, (p.code i).Holds ok (R i) (G i) (fun _ => Q i) p.shared

theorem Sound.step (hrefl : ∀ i s, R i s s)
    (htrans : ∀ i s s' s'', R i s s' → R i s' s'' → R i s s'')
    (hinv : ∀ i s s', inv s → G i s s' → inv s')
    (hothers : ∀ i j s s', i ≠ j → G i s s' → R j s s') {p : Pool ι L S} {e : ι × Bool}
    (hok : p.StepOk ok e) (h : Sound ok R G Q inv p) : Sound ok R G Q inv (p.step e) := by
  unfold StepOk at hok
  unfold Pool.step
  have hthread := h.threads e.1
  cases hc : p.code e.1 with
  | ret a => exact h
  | act l ready f k =>
    rw [hc] at hok hthread
    simp only []
    by_cases hready : ready e.2 p.shared = true
    · rw [if_pos hready]
      obtain ⟨hstep, hrest⟩ := hthread p.shared (hrefl e.1 _) e.2 hready hok
      refine ⟨hinv e.1 _ _ h.inv hstep, fun j => ?_⟩
      by_cases hj : j = e.1
      · subst hj
        simp only [Function.update_self]
        exact hrest
      · simp only [Function.update_of_ne hj]
        exact (h.threads j).stable (htrans j) (hothers e.1 j _ _ (Ne.symm hj) hstep)
    · rw [if_neg hready]
      exact h

theorem Sound.run (hrefl : ∀ i s, R i s s)
    (htrans : ∀ i s s' s'', R i s s' → R i s' s'' → R i s s'')
    (hinv : ∀ i s s', inv s → G i s s' → inv s')
    (hothers : ∀ i j s s', i ≠ j → G i s s' → R j s s') {p : Pool ι L S}
    (h : Sound ok R G Q inv p) (es : List (ι × Bool))
    (hes : Runs.StepsMeet Pool.step (StepOk ok) p es) :
    Sound ok R G Q inv (es.foldl Pool.step p) :=
  Runs.invariant_of_steps (fun _ _ hok hp => hp.step hrefl htrans hinv hothers hok) es p h hes

end Pool

end EnvoyGo.Threads

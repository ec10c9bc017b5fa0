import EnvoyGo.Slices

/-!
Parsers that move a position over a buffer.  A parser may fail, and it may read out of range, which
is another outcome.
-/

namespace EnvoyGo.Cursors

open Slices

variable {ε α β : Type}

abbrev Cursor (ε α : Type) := Bytes → ℕ → Checked (Except ε (α × ℕ))

def ret (a : α) : Cursor ε α := fun _ pos => .ok (.ok (a, pos))

def fail (e : ε) : Cursor ε α := fun _ _ => .ok (.error e)

def bind (f : Cursor ε α) (g : α → Cursor ε β) : Cursor ε β := fun buf pos =>
  match f buf pos with
  | .error fault => .error fault
  | .ok (.error e) => .ok (.error e)
  | .ok (.ok (a, next)) => g a buf next

def lift (x : Checked α) : Cursor ε α := fun _ pos =>
  match x with
  | .error fault => .error fault
  | .ok a => .ok (.ok (a, pos))

variable {f : Cursor ε α} {a : α}

theorem bind_of_ok {g : α → Cursor ε β} {buf : Bytes} {pos next : ℕ}
    (hf : f buf pos = .ok (.ok (a, next))) : bind f g buf pos = g a buf next := by
  rw [bind, hf]

def Reads (f : Cursor ε α) (a : α) (w : Bytes) : Prop :=
  ∀ pre rest, f (pre ++ (w ++ rest)) pre.length = .ok (.ok (a, (pre ++ w).length))

theorem Reads.ret (a : α) : Reads (ret a : Cursor ε α) a [] := by
  intro pre rest
  rw [List.append_nil]
  rfl

theorem Reads.bind {g : α → Cursor ε β} {b : β} {u v : Bytes} (hf : Reads f a u)
    (hg : Reads (g a) b v) : Reads (bind f g) b (u ++ v) := by
  intro pre rest
  have hu := hf pre (v ++ rest)
  have hv := hg (pre ++ u) rest
  rw [List.append_assoc] at hv
  rw [Cursors.bind, List.append_assoc, hu, ← List.append_assoc pre u v]
  exact hv

theorem Reads.at {w buf pre rest : Bytes} {pos : ℕ} (hf : Reads f a w)
    (hbuf : buf = pre ++ (w ++ rest)) (hpos : pos = pre.length) :
    f buf pos = .ok (.ok (a, pos + w.length)) := by
  rw [hbuf, hpos, ← List.length_append]
  exact hf pre rest

theorem Reads.map {w : Bytes} (hf : Reads f a w) (k : α → β) :
    Reads (Cursors.bind f fun a => Cursors.ret (k a)) (k a) w := by
  have h := hf.bind (g := fun a => Cursors.ret (k a)) (Reads.ret (k a))
  rwa [List.append_nil] at h

/-- Between these bytes the parser does not read out of range, and what it reads as a value are
bytes of the value. -/
def SoundAt (f : Cursor ε α) (pre suf : Bytes) (R : α → Bytes → Prop) : Prop :=
  ∃ out, f (pre ++ suf) pre.length = .ok out ∧ ∀ a next, out = .ok (a, next) →
    ∃ w rest, suf = w ++ rest ∧ next = (pre ++ w).length ∧ R a w

def Sound (f : Cursor ε α) (R : α → Bytes → Prop) : Prop := ∀ pre suf, SoundAt f pre suf R

section Sound

variable {f : Cursor ε α} {g : α → Cursor ε β} {R R' : α → Bytes → Prop}
  {S : β → Bytes → Prop} {pre suf : Bytes}

theorem SoundAt.mono (h : SoundAt f pre suf R) (hR : ∀ a w, R a w → R' a w) :
    SoundAt f pre suf R' := by
  obtain ⟨out, hout, hread⟩ := h
  refine ⟨out, hout, fun a next heq => ?_⟩
  obtain ⟨w, rest, hsuf, hnext, ha⟩ := hread a next heq
  exact ⟨w, rest, hsuf, hnext, hR a w ha⟩

theorem soundAt_ret (a : α) (h : R a []) : SoundAt (ret a : Cursor ε α) pre suf R := by
  refine ⟨_, rfl, fun b next heq => ⟨[], suf, rfl, ?_, ?_⟩⟩
  · rw [List.append_nil]
    exact (Prod.mk.inj (Except.ok.inj heq)).2.symm
  · rw [← (Prod.mk.inj (Except.ok.inj heq)).1]
    exact h

theorem soundAt_fail (e : ε) : SoundAt (fail e : Cursor ε α) pre suf R :=
  ⟨_, rfl, fun _ _ heq => by cases heq⟩

theorem soundAt_lift {x : Checked α} (hx : Safe x) (h : ∀ a, x = .ok a → R a []) :
    SoundAt (lift x : Cursor ε α) pre suf R := by
  obtain ⟨a, ha⟩ := hx
  rw [ha]
  exact soundAt_ret a (h a ha)

theorem soundAt_ite {c : Prop} [Decidable c] {f' : Cursor ε α} (hf : c → SoundAt f pre suf R)
    (hf' : ¬c → SoundAt f' pre suf R) : SoundAt (if c then f else f') pre suf R := by
  split_ifs with hc
  · exact hf hc
  · exact hf' hc

theorem SoundAt.bind (hf : SoundAt f pre suf R)
    (hg : ∀ a w rest, suf = w ++ rest → R a w →
      SoundAt (g a) (pre ++ w) rest (fun b v => S b (w ++ v))) :
    SoundAt (bind f g) pre suf S := by
  obtain ⟨out, hout, hread⟩ := hf
  cases out with
  | error e => exact ⟨.error e, by rw [Cursors.bind, hout], fun _ _ heq => by cases heq⟩
  | ok r =>
    obtain ⟨a, next⟩ := r
    obtain ⟨w, rest, rfl, rfl, ha⟩ := hread a next rfl
    obtain ⟨out', hout', hread'⟩ := hg a w rest rfl ha
    rw [List.append_assoc] at hout'
    refine ⟨out', by rw [Cursors.bind, hout]; exact hout', fun b next' heq => ?_⟩
    obtain ⟨v, rest', rfl, rfl, hb⟩ := hread' b next' heq
    exact ⟨w ++ v, rest', by rw [List.append_assoc], by rw [List.append_assoc], hb⟩

theorem SoundAt.map (hf : SoundAt f pre suf R) (k : α → β) (hR : ∀ a w, R a w → S (k a) w) :
    SoundAt (Cursors.bind f fun a => ret (k a)) pre suf S := by
  refine hf.bind fun a w rest _ ha => soundAt_ret _ ?_
  rw [List.append_nil]
  exact hR a w ha

end Sound

end EnvoyGo.Cursors

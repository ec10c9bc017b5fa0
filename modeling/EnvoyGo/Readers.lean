import Mathlib.Data.List.Basic

/-!
Readers of a stream of symbols that say what they took.  A reader is framed when the symbols it
took decide its result, whatever follows them.
-/

namespace EnvoyGo.Readers

variable {β ε α γ : Type}

structure Got (β α : Type) where
  value : α
  raw : List β
  rest : List β
deriving DecidableEq

abbrev Reader (β ε α : Type) := List β → Except ε (Got β α)

def ret (a : α) : Reader β ε α := fun r => .ok ⟨a, [], r⟩

def fail (e : ε) : Reader β ε α := fun _ => .error e

def bind (f : Reader β ε α) (g : α → Reader β ε γ) : Reader β ε γ := fun r =>
  match f r with
  | .error e => .error e
  | .ok x =>
    match g x.value x.rest with
    | .error e => .error e
    | .ok y => .ok ⟨y.value, x.raw ++ y.raw, y.rest⟩

def mapError (h : ε → ε) (f : Reader β ε α) : Reader β ε α := fun r =>
  match f r with
  | .error e => .error (h e)
  | .ok x => .ok x

def symbol (e : ε) : Reader β ε β
  | [] => .error e
  | x :: r => .ok ⟨x, [x], r⟩

def exactly (e : ε) (n : ℕ) : Reader β ε (List β) := fun r =>
  if n ≤ r.length then .ok ⟨r.take n, r.take n, r.drop n⟩ else .error e

def through [DecidableEq β] (e : ε) (c : β) : Reader β ε (List β)
  | [] => .error e
  | x :: r =>
    if x = c then .ok ⟨[], [x], r⟩
    else
      match through e c r with
      | .error e => .error e
      | .ok y => .ok ⟨x :: y.value, x :: y.raw, y.rest⟩

def times (f : Reader β ε α) : ℕ → Reader β ε (List α)
  | 0 => ret []
  | n + 1 => bind f (fun a => bind (times f n) (fun as => ret (a :: as)))

/-- The stream is read as exactly the frames `ws`, one after the other. -/
def Decodes (f : Reader β ε α) : List β → List (List β) → Prop
  | r, [] => r = []
  | r, w :: ws => ∃ v rest, f r = .ok ⟨v, w, rest⟩ ∧ Decodes f rest ws

def Framed (f : Reader β ε α) : Prop :=
  ∀ r x, f r = .ok x → r = x.raw ++ x.rest ∧ ∀ more, f (x.raw ++ more) = .ok ⟨x.value, x.raw, more⟩

/-- The reader never succeeds without taking something. -/
def Takes (f : Reader β ε α) : Prop := ∀ r x, f r = .ok x → x.raw ≠ []

def Yields (f : Reader β ε α) (p : α → Prop) : Prop := ∀ r x, f r = .ok x → p x.value

section Bind

variable {f : Reader β ε α} {r : List β}

theorem bind_eq_ok {g : α → Reader β ε γ} {z : Got β γ} (h : bind f g r = .ok z) :
    ∃ x y, f r = .ok x ∧ g x.value x.rest = .ok y ∧ z = ⟨y.value, x.raw ++ y.raw, y.rest⟩ := by
  rw [bind] at h
  cases hf : f r with
  | error e =>
    rw [hf] at h
    cases h
  | ok x =>
    rw [hf] at h
    cases hg : g x.value x.rest with
    | error e =>
      simp only [hg] at h
      cases h
    | ok y =>
      simp only [hg] at h
      exact ⟨x, y, rfl, hg, (Except.ok.inj h).symm⟩

theorem bind_of_ok {g : α → Reader β ε γ} {x : Got β α} {y : Got β γ} (hf : f r = .ok x)
    (hg : g x.value x.rest = .ok y) : bind f g r = .ok ⟨y.value, x.raw ++ y.raw, y.rest⟩ := by
  simp only [bind, hf, hg]

theorem bind_ret_of_ok {raw rest : List β} {a : α} (hf : f r = .ok ⟨a, raw, rest⟩) (k : α → γ) :
    bind f (fun a => ret (k a)) r = .ok ⟨k a, raw, rest⟩ := by
  simp only [bind, hf, ret, List.append_nil]

theorem bind_then {raw rest raw' rest' : List β} {a : α} {c : γ} (hf : f r = .ok ⟨a, raw, rest⟩)
    (g : α → Reader β ε γ) (hg : g a rest = .ok ⟨c, raw', rest'⟩) :
    bind f g r = .ok ⟨c, raw ++ raw', rest'⟩ := by
  simp only [bind, hf, hg]

theorem bind_of_error {g : α → Reader β ε γ} {x : Got β α} {e : ε} (hf : f r = .ok x)
    (hg : g x.value x.rest = .error e) : bind f g r = .error e := by
  simp only [bind, hf, hg]

theorem mapError_eq_ok {h : ε → ε} {x : Got β α} : mapError h f r = .ok x ↔ f r = .ok x := by
  rw [mapError]
  cases f r with
  | error e => exact ⟨(fun hx => by cases hx), (fun hx => by cases hx)⟩
  | ok y => exact Iff.rfl

end Bind

section Times

theorem times_succ_of_ok {f : Reader β ε α} {n : ℕ} {r raw rest raw' rest' : List β} {a : α}
    {as : List α} (hf : f r = .ok ⟨a, raw, rest⟩) (hn : times f n rest = .ok ⟨as, raw', rest'⟩) :
    times f (n + 1) r = .ok ⟨a :: as, raw ++ raw', rest'⟩ := by
  have htail := bind_ret_of_ok hn (fun as => a :: as)
  exact bind_then hf (fun a => bind (times f n) (fun as => ret (a :: as))) htail

theorem times_flatten {f : Reader β ε α} (enc : α → List β) (as : List α)
    (h : ∀ a ∈ as, ∀ more, f (enc a ++ more) = .ok ⟨a, enc a, more⟩) (more : List β) :
    times f as.length ((as.map enc).flatten ++ more) = .ok ⟨as, (as.map enc).flatten, more⟩ := by
  induction as with
  | nil => rfl
  | cons a as ih =>
    obtain ⟨ha, has⟩ := List.forall_mem_cons.mp h
    rw [List.map_cons, List.flatten_cons, List.append_assoc]
    exact times_succ_of_ok (ha _) (ih has)

end Times

section Framed

theorem framed_ret (a : α) : Framed (ret a : Reader β ε α) := by
  intro r x h
  obtain rfl := Except.ok.inj h
  exact ⟨rfl, fun more => rfl⟩

theorem framed_fail (e : ε) : Framed (fail e : Reader β ε α) := by
  intro r x h
  cases h

variable {f : Reader β ε α}

theorem framed_mapError (h : ε → ε) (hf : Framed f) : Framed (mapError h f) := by
  intro r x hx
  obtain ⟨hsplit, hmore⟩ := hf r x (mapError_eq_ok.mp hx)
  exact ⟨hsplit, fun more => mapError_eq_ok.mpr (hmore more)⟩

theorem framed_bind {g : α → Reader β ε γ} (hf : Framed f) (hg : ∀ a, Framed (g a)) :
    Framed (bind f g) := by
  intro r z hz
  obtain ⟨x, y, hx, hy, rfl⟩ := bind_eq_ok hz
  obtain ⟨hr, hmore⟩ := hf r x hx
  obtain ⟨hrest, hmore'⟩ := hg x.value x.rest y hy
  constructor
  · show r = x.raw ++ y.raw ++ y.rest
    rw [List.append_assoc, ← hrest]
    exact hr
  · intro more
    show bind f g (x.raw ++ y.raw ++ more) = _
    rw [List.append_assoc]
    exact bind_of_ok (hmore (y.raw ++ more)) (hmore' more)

theorem framed_symbol (e : ε) : Framed (symbol e : Reader β ε β) := by
  intro r x h
  cases r with
  | nil => cases h
  | cons a r =>
    obtain rfl := Except.ok.inj h
    exact ⟨rfl, fun more => rfl⟩

theorem framed_exactly (e : ε) (n : ℕ) : Framed (exactly e n : Reader β ε (List β)) := by
  intro r x h
  rw [exactly] at h
  by_cases hn : n ≤ r.length
  · rw [if_pos hn] at h
    obtain rfl := Except.ok.inj h
    have hlen : (r.take n).length = n := by
      rw [List.length_take]
      omega
    refine ⟨(List.take_append_drop n r).symm, ?_⟩
    intro more
    have hle : n ≤ (r.take n ++ more).length := by
      rw [List.length_append]
      omega
    show exactly e n (r.take n ++ more) = _
    rw [exactly, if_pos hle, List.take_left' hlen, List.drop_left' hlen]
  · rw [if_neg hn] at h
    cases h

theorem through_append [DecidableEq β] (e : ε) {c : β} {l : List β} (hl : c ∉ l) (r : List β) :
    through e c (l ++ c :: r) = .ok ⟨l, l ++ [c], r⟩ := by
  induction l with
  | nil => simp only [List.nil_append, through, if_pos]
  | cons x l ih =>
    have hx : x ≠ c := fun heq => hl (heq ▸ List.mem_cons_self)
    have hl' : c ∉ l := fun hc => hl (List.mem_cons_of_mem x hc)
    simp only [List.cons_append, through, if_neg hx, ih hl']

theorem through_eq_ok [DecidableEq β] {e : ε} {c : β} {r : List β} {x : Got β (List β)}
    (h : through e c r = .ok x) : c ∉ x.value ∧ x.raw = x.value ++ [c] ∧ r = x.raw ++ x.rest := by
  induction r generalizing x with
  | nil => cases h
  | cons a r ih =>
    rw [through] at h
    by_cases ha : a = c
    · rw [if_pos ha] at h
      obtain rfl := Except.ok.inj h
      subst ha
      exact ⟨List.not_mem_nil, rfl, rfl⟩
    · rw [if_neg ha] at h
      cases hr : through e c r with
      | error e' =>
        rw [hr] at h
        cases h
      | ok y =>
        rw [hr] at h
        obtain rfl := Except.ok.inj h
        obtain ⟨hnone, hraw, hsplit⟩ := ih hr
        refine ⟨?_, ?_, ?_⟩
        · exact mt List.mem_cons.mp (not_or.mpr ⟨Ne.symm ha, hnone⟩)
        · show a :: y.raw = a :: y.value ++ [c]
          rw [hraw, List.cons_append]
        · show a :: r = a :: y.raw ++ y.rest
          rw [hsplit, List.cons_append]

theorem framed_through [DecidableEq β] (e : ε) (c : β) :
    Framed (through e c : Reader β ε (List β)) := by
  intro r x h
  obtain ⟨hnone, hraw, hsplit⟩ := through_eq_ok h
  refine ⟨hsplit, ?_⟩
  intro more
  rw [hraw, List.append_assoc, List.singleton_append]
  exact through_append e hnone more

theorem framed_times (hf : Framed f) (n : ℕ) : Framed (times f n) := by
  induction n with
  | zero => exact framed_ret []
  | succ n ih =>
    apply framed_bind hf
    intro a
    apply framed_bind ih
    intro as
    exact framed_ret (a :: as)

theorem decodes_flatten_iff (hf : Framed f) (ws : List (List β)) :
    Decodes f ws.flatten ws ↔ ∀ w ∈ ws, ∃ v, f w = .ok ⟨v, w, []⟩ := by
  induction ws with
  | nil => exact ⟨fun _ w hw => absurd hw List.not_mem_nil, fun _ => rfl⟩
  | cons w ws ih =>
    rw [List.flatten_cons, List.forall_mem_cons, ← ih]
    constructor
    · rintro ⟨v, rest, hv, hrest⟩
      obtain ⟨hsplit, hmore⟩ := hf _ _ hv
      have hflat : ws.flatten = rest := List.append_cancel_left hsplit
      have halone := hmore []
      rw [List.append_nil] at halone
      exact ⟨⟨v, halone⟩, hflat ▸ hrest⟩
    · rintro ⟨⟨v, hv⟩, hrest⟩
      exact ⟨v, ws.flatten, (hf _ _ hv).2 ws.flatten, hrest⟩

theorem Framed.error_of_cut (hf : Framed f) {a : α} {w p q : List β} (hw : f w = .ok ⟨a, w, []⟩)
    (hpq : w = p ++ q) (hq : q ≠ []) : ∃ e, f p = .error e := by
  cases hp : f p with
  | error e => exact ⟨e, rfl⟩
  | ok x =>
    obtain ⟨hsplit, hmore⟩ := hf p x hp
    have hagain := hmore (x.rest ++ q)
    rw [← List.append_assoc, ← hsplit, ← hpq, hw] at hagain
    have hraw : w = x.raw := congrArg Got.raw (Except.ok.inj hagain)
    have hnil : x.rest ++ q = [] := (congrArg Got.rest (Except.ok.inj hagain)).symm
    exact (hq (List.append_eq_nil_iff.mp hnil).2).elim

end Framed

section Takes

theorem takes_mapError (h : ε → ε) {f : Reader β ε α} (hf : Takes f) : Takes (mapError h f) :=
  fun r x hx => hf r x (mapError_eq_ok.mp hx)

theorem takes_bind {f : Reader β ε α} (hf : Takes f) (g : α → Reader β ε γ) :
    Takes (bind f g) := by
  intro r z hz
  obtain ⟨x, y, hx, -, rfl⟩ := bind_eq_ok hz
  exact List.append_ne_nil_of_left_ne_nil (hf r x hx) _

theorem takes_through [DecidableEq β] (e : ε) (c : β) :
    Takes (through e c : Reader β ε (List β)) := by
  intro r x hx
  rw [(through_eq_ok hx).2.1]
  exact List.append_ne_nil_of_right_ne_nil _ (List.cons_ne_nil c [])

theorem rest_lt {f : Reader β ε α} (hf : Framed f) (ht : Takes f) {r : List β} {x : Got β α}
    (h : f r = .ok x) : x.rest.length < r.length := by
  have hpos := List.length_pos_of_ne_nil (ht r x h)
  have hlen := congrArg List.length (hf r x h).1
  rw [List.length_append] at hlen
  omega

end Takes

section Yields

theorem yields_ret {p : α → Prop} {a : α} (ha : p a) : Yields (ret a : Reader β ε α) p := by
  intro r x h
  obtain rfl := Except.ok.inj h
  exact ha

theorem yields_fail (e : ε) (p : α → Prop) : Yields (fail e : Reader β ε α) p := by
  intro r x h
  cases h

theorem yields_bind {f : Reader β ε α} {g : α → Reader β ε γ} {q : α → Prop} {p : γ → Prop}
    (hf : Yields f q) (hg : ∀ a, q a → Yields (g a) p) : Yields (bind f g) p := by
  intro r z h
  obtain ⟨x, y, hx, hy, rfl⟩ := bind_eq_ok h
  exact hg x.value (hf r x hx) x.rest y hy

theorem yields_true (f : Reader β ε α) : Yields f (fun _ => True) := fun _ _ _ => trivial

theorem yields_times {f : Reader β ε α} {p : α → Prop} (hf : Yields f p) (n : ℕ) :
    Yields (times f n) (fun as => as.length = n ∧ ∀ a ∈ as, p a) := by
  induction n with
  | zero =>
    intro r x h
    obtain rfl := Except.ok.inj h
    exact ⟨rfl, fun a ha => absurd ha List.not_mem_nil⟩
  | succ n ih =>
    intro r z h
    obtain ⟨x, y, hx, hy, rfl⟩ := bind_eq_ok h
    obtain ⟨u, v, hu, hv, rfl⟩ := bind_eq_ok hy
    obtain rfl := Except.ok.inj hv
    obtain ⟨hlen, hall⟩ := ih x.rest u hu
    refine ⟨?_, ?_⟩
    · show (x.value :: u.value).length = n + 1
      rw [List.length_cons, hlen]
    · exact List.forall_mem_cons.mpr ⟨hf r x hx, hall⟩

end Yields

end EnvoyGo.Readers

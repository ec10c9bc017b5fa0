import EnvoyGo.WasmMoves

/-!
The life of a stream context: made, returned, closing, deleted, flagged.  The order holds in every
run.
-/

namespace EnvoyGo.Wasm

open RootVM

variable {m : GuestModule} {s : RootVM}

def Entry.enters? : Entry → Option ℕ
  | .guest (.stream i _) _ => some i
  | _ => none

def Entry.deletes? : Entry → Option ℕ
  | .guest (.stream i .delete) _ => some i
  | _ => none

def Deleted (s : RootVM) (i : ℕ) : Prop := ∃ a ∈ s.trace, a.deletes? = some i

instance (s : RootVM) (i : ℕ) : Decidable (Deleted s i) :=
  inferInstanceAs (Decidable (∃ a ∈ s.trace, a.deletes? = some i))

def CloseAt.pastFlag : CloseAt → Bool
  | .atUnmap | .atCancel | .finished => true
  | _ => false

def CloseAt.pastDelete : CloseAt → Bool
  | .atFlag | .atUnmap | .atCancel | .finished => true
  | _ => false

structure Ordered (s : RootVM) (i : ℕ) (sc : StreamContext) : Prop where
  usable : sc.closeAt ≠ .notCalled → sc.usable = true
  made : sc.usable = true → sc.createdOn ≠ none
  making : s.running = some (.stream i .contextCreate) → sc.createdOn ≠ none
  flagged : sc.closeAt.pastFlag = true → sc.closed = true
  deleted : Deleted s i → sc.closeAt.pastDelete = true

structure Lives (s : RootVM) : Prop where
  known : ∀ a ∈ s.trace, ∀ i, a.enters? = some i → i < s.streams.length
  runs : ∀ i cb, s.running = some (.stream i cb) → i < s.streams.length
  ordered : ∀ i sc, s.streams[i]? = some sc → Ordered s i sc

variable {i : ℕ} {sc sc' : StreamContext} {e : Event}

theorem enters_of_deletes {a : Entry} (h : a.deletes? = some i) : a.enters? = some i := by
  unfold Entry.deletes? at h
  split at h
  · exact h
  · cases h

theorem Lives.deleted_lt (h : Lives s) (hd : Deleted s i) : i < s.streams.length := by
  obtain ⟨a, ha, hdel⟩ := hd
  exact h.known a ha i (enters_of_deletes hdel)

theorem closeAt_next {cb : Callback} {next : CloseAt} (hsc : s.streams[i]? = some sc)
    (husable : sc.usable = true) (hrun : s.running = none)
    (hpos : sc.closeAt.callback? = some (cb, next)) :
    (step m s (.close i)).streams[i]? = some { sc with closeAt := next } := by
  have hset : ∀ cb', ((s.setStream i (fun sc => { sc with closeAt := next })).dispatchGuest m i sc
      cb').streams[i]? = some { sc with closeAt := next } := by
    intro cb'
    rw [streams_dispatchGuest]
    change (s.streams.modify i _)[i]? = _
    rw [List.getElem?_modify_eq, hsc]
    rfl
  have hstep : step m s (.close i) = close m s i sc := by
    simp only [step, hsc]
    exact if_pos husable
  rw [hstep]
  unfold close
  cases hclose : sc.closeAt with
  | atDone | atLog | atDelete =>
    rw [hclose] at hpos
    obtain ⟨rfl, rfl⟩ := Prod.mk.inj (Option.some.inj hpos)
    simp only [if_pos hrun]
    exact hset _
  | _ =>
    rw [hclose] at hpos
    cases hpos

theorem deleted_step (h : Deleted (step m s e) i) :
    Deleted s i ∨ ∃ sc, e = .close i ∧ s.running = none ∧ s.streams[i]? = some sc ∧
      sc.usable = true ∧ sc.closeAt = .atDelete := by
  obtain ⟨new, hnoted, htrace, -⟩ := shows_step m s e
  obtain ⟨a, ha, hdel⟩ := h
  rw [htrace, List.mem_append] at ha
  rcases ha with ha | ha
  · exact Or.inl ⟨a, ha, hdel⟩
  · right
    cases hnoted with
    | nothing => cases ha
    | called i' sc cb n hrun hsc husable hclosed hinst hfilter =>
      obtain rfl := List.mem_singleton.mp ha
      cases cb with
      | delete => cases hfilter
      | _ => cases hdel
    | closing i' sc cb next n hrun hsc husable hclosed hinst hpos =>
      obtain rfl := List.mem_singleton.mp ha
      cases cb with
      | delete =>
        obtain rfl := Option.some.inj hdel
        refine ⟨sc, rfl, hrun, hsc, husable, ?_⟩
        cases hclose : sc.closeAt with
        | atDelete => rfl
        | _ =>
          rw [hclose] at hpos
          cases hpos
      | _ => cases hdel
    | _ =>
      obtain rfl := List.mem_singleton.mp ha
      cases hdel

theorem running_step {f : Frame} (h : (step m s e).running = some f) :
    s.running = some f ∨ ∃ n, Noted m s e [.guest f n] := by
  obtain ⟨new, hnoted, -, hrun⟩ := shows_step m s e
  rcases hrun with hrun | hrun | ⟨f', n, rfl, hrun⟩
  · exact Or.inl (hrun.symm.trans h)
  · rw [hrun] at h
    cases h
  · rw [hrun] at h
    obtain rfl := Option.some.inj h
    exact Or.inr ⟨n, hnoted⟩

theorem noted_stream {cb : Callback} {n : ℕ} (h : Noted m s e [.guest (.stream i cb) n]) :
    ∃ sc, s.streams[i]? = some sc := by
  cases h with
  | created _ sc _ hrun hsc | called _ sc _ _ hrun hsc | closing _ sc _ _ _ hrun hsc
  | responded _ _ _ sc _ hrun hr hpos hsc => exact ⟨sc, hsc⟩

theorem noted_create {n : ℕ} (h : Noted m s e [.guest (.stream i .contextCreate) n]) :
    ∃ sc, e = .createContext i ∧ s.running = none ∧ s.streams[i]? = some sc ∧
      sc.createdOn = none ∧ s.inst = some n := by
  generalize hcb : Callback.contextCreate = cb at h
  cases h with
  | created _ sc _ hrun hsc hfresh hinst => exact ⟨sc, rfl, hrun, hsc, hfresh, hinst⟩
  | called _ sc _ _ hrun hsc husable hclosed hinst hfilter =>
    subst hcb
    cases hfilter
  | closing _ sc _ next _ hrun hsc husable hclosed hinst hpos =>
    subst hcb
    cases hclose : sc.closeAt with
    | _ =>
      rw [hclose] at hpos
      cases hpos
  | responded => cases hcb

theorem createdOn_next {n : ℕ} (hsc : s.streams[i]? = some sc) (hrun : s.running = none)
    (hfresh : sc.createdOn = none) (hinst : s.inst = some n) :
    ∃ sc', (step m s (.createContext i)).streams[i]? = some sc' ∧ sc'.createdOn = some n := by
  have hset : ∀ f : StreamContext → StreamContext, (s.streams.modify i f)[i]? = some (f sc) := by
    intro f
    rw [List.getElem?_modify_eq, hsc]
    rfl
  have hstep : step m s (.createContext i) = createContext m s i sc := by
    simp only [step, hsc]
    exact if_pos ⟨hrun, hfresh⟩
  rw [hstep]
  unfold createContext
  rw [hinst]
  dsimp only
  split_ifs
  · exact ⟨_, hset _, rfl⟩
  · exact ⟨_, hset _, rfl⟩

theorem known_step (e : Event) (h : Lives s) : ∀ a ∈ (step m s e).trace, ∀ i,
    a.enters? = some i → i < (step m s e).streams.length := by
  intro a ha i hi
  obtain ⟨new, hnoted, htrace, -⟩ := shows_step m s e
  rw [htrace, List.mem_append] at ha
  refine Nat.lt_of_lt_of_le ?_ (length_step m s e)
  rcases ha with ha | ha
  · exact h.known a ha i hi
  · cases hnoted with
    | nothing => cases ha
    | created i' sc n hrun hsc | called i' sc cb n hrun hsc
    | closing i' sc cb next n hrun hsc | responded k r i' sc n hrun hr hpos hsc =>
      obtain rfl := List.mem_singleton.mp ha
      obtain rfl := Option.some.inj hi
      exact (List.getElem?_eq_some_iff.mp hsc).1
    | _ =>
      obtain rfl := List.mem_singleton.mp ha
      cases hi

theorem runs_step (e : Event) (h : Lives s) : ∀ i cb,
    (step m s e).running = some (.stream i cb) → i < (step m s e).streams.length := by
  intro i cb hrun
  refine Nat.lt_of_lt_of_le ?_ (length_step m s e)
  rcases running_step hrun with hrun | ⟨n, hnoted⟩
  · exact h.runs i cb hrun
  · obtain ⟨sc, hsc⟩ := noted_stream hnoted
    exact (List.getElem?_eq_some_iff.mp hsc).1

theorem Changed.createdOn (h : Changed s i sc e sc') (hne : sc.createdOn ≠ none) :
    sc'.createdOn ≠ none := by
  cases h with
  | created n => exact Option.some_ne_none n
  | createdQuietly n => exact Option.some_ne_none n
  | _ => exact hne

theorem Changed.pastDelete (h : Changed s i sc e sc') (hpast : sc.closeAt.pastDelete = true) :
    sc'.closeAt.pastDelete = true := by
  cases h with
  | closeCalled husable hpos =>
    rw [hpos] at hpast
    cases hpast
  | closing husable cb next hrun hpos =>
    cases hclose : sc.closeAt with
    | atDone | atLog | atDelete | notCalled =>
      rw [hclose] at hpast
      cases hpast
    | _ =>
      rw [hclose] at hpos
      cases hpos
  | flagged => rfl
  | unmapped => rfl
  | canceled => rfl
  | _ => exact hpast

theorem Changed.usable (h : Changed s i sc e sc') (ho : Ordered s i sc) :
    sc'.closeAt ≠ .notCalled → sc'.usable = true := by
  cases h with
  | closeCalled husable => exact fun _ => husable
  | closing husable => exact fun _ => husable
  | flagged husable => exact fun _ => husable
  | unmapped husable => exact fun _ => husable
  | canceled husable => exact fun _ => husable
  | createdQuietly => exact fun _ => rfl
  | returned => exact fun _ => rfl
  | _ => exact ho.usable

theorem Changed.made (h : Changed s i sc e sc') (ho : Ordered s i sc) :
    sc'.usable = true → sc'.createdOn ≠ none := by
  cases h with
  | created n => exact fun _ => Option.some_ne_none n
  | createdQuietly n => exact fun _ => Option.some_ne_none n
  | returned hrun => exact fun _ => ho.making hrun
  | _ => exact ho.made

theorem Changed.flagged_of_past (h : Changed s i sc e sc') (ho : Ordered s i sc) :
    sc'.closeAt.pastFlag = true → sc'.closed = true := by
  cases h with
  | closeCalled husable hpos =>
    intro hpast
    dsimp only at hpast
    split_ifs at hpast
    · cases hpast
    · cases hpast
  | closing husable cb next hrun hpos =>
    intro hpast
    cases hclose : sc.closeAt with
    | atDone | atLog | atDelete =>
      rw [hclose] at hpos
      obtain ⟨-, rfl⟩ := Prod.mk.inj (Option.some.inj hpos)
      cases hpast
    | _ =>
      rw [hclose] at hpos
      cases hpos
  | flagged => exact fun _ => rfl
  | unmapped husable hpos => exact fun _ => ho.flagged (by rw [hpos]; rfl)
  | canceled husable hpos => exact fun _ => ho.flagged (by rw [hpos]; rfl)
  | _ => exact ho.flagged

theorem ordered_step (e : Event) (h : Lives s) (hsc' : (step m s e).streams[i]? = some sc') :
    Ordered (step m s e) i sc' := by
  have hnew : ∀ sc1 : StreamContext, (step m s e).streams[i]? = some sc1 → sc' = sc1 :=
    fun sc1 h1 => Option.some.inj (hsc'.symm.trans h1)
  rcases stream_step hsc' with ⟨sc, hsc, hch⟩ | ⟨rfl, rfl, rfl⟩
  · have ho := h.ordered i sc hsc
    refine ⟨hch.usable ho, hch.made ho, ?_, hch.flagged_of_past ho, ?_⟩
    · intro hrun
      rcases running_step hrun with hrun | ⟨n, hnoted⟩
      · exact hch.createdOn (ho.making hrun)
      · obtain ⟨sc1, rfl, hnone, hsc1, hfresh, hinst⟩ := noted_create hnoted
        obtain ⟨sc2, hsc2, hon⟩ := createdOn_next (m := m) hsc1 hnone hfresh hinst
        rw [hnew sc2 hsc2, hon]
        exact Option.some_ne_none n
    · intro hd
      rcases deleted_step hd with hd | ⟨sc1, rfl, hrun, hsc1, husable, hclose⟩
      · exact hch.pastDelete (ho.deleted hd)
      · have hpos : sc1.closeAt.callback? = some (.delete, .atFlag) := by rw [hclose]; rfl
        rw [hnew _ (closeAt_next hsc1 husable hrun hpos)]
        rfl
  · refine ⟨fun hne => absurd rfl hne, nofun, ?_, nofun, ?_⟩
    · intro hrun
      rcases running_step hrun with hrun | ⟨n, hnoted⟩
      · exact absurd (h.runs _ _ hrun) (Nat.lt_irrefl _)
      · obtain ⟨sc1, he, -⟩ := noted_create hnoted
        cases he
    · intro hd
      rcases deleted_step hd with hd | ⟨sc1, he, -⟩
      · exact absurd (h.deleted_lt hd) (Nat.lt_irrefl _)
      · cases he

theorem lives_step (e : Event) (h : Lives s) : Lives (step m s e) :=
  ⟨known_step e h, runs_step e h, fun _ _ => ordered_step e h⟩

theorem lives_new (rootCtxID : ℕ) : Lives (newRootVM rootCtxID) := by
  refine ⟨?_, nofun, nofun⟩
  intro a ha i hi
  obtain rfl := List.mem_singleton.mp ha
  cases hi

end EnvoyGo.Wasm

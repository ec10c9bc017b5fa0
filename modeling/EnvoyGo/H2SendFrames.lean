import EnvoyGo.H2SendAccounts

/-!
How a `writeData` call advances, and what the peer's frames do to the send accounts.
-/

namespace EnvoyGo.H2

inductive Writer.Advance : Writer → Writer → Prop
  | reserved (w : Writer) (window : Window) (hphase : w.phase = .stream) (hsome : 0 < window.n) :
      Advance w { w with
        phase := .conn
        streamTaken := window.offer (ServerConn.Writer.want w) }
  | granted (w : Writer) (window : Window) (hphase : w.phase = .conn) (hsome : 0 < window.n) :
      Advance w { w with
        phase := if window.offer w.streamTaken < w.streamTaken then .refund else .write
        connTaken := window.offer w.streamTaken }
  | refunded (w : Writer) (hphase : w.phase = .refund) :
      Advance w { w with phase := .write, streamTaken := w.connTaken }
  | wrote (w : Writer) (hphase : w.phase = .write) (hleft : w.remaining - w.connTaken.toNat ≠ 0) :
      Advance w { w with
        remaining := w.remaining - w.connTaken.toNat
        phase := .stream
        streamTaken := 0
        connTaken := 0 }

def Event.dataLen? : Event → Option ℕ
  | .data _ len _ => some len
  | _ => none

def Event.Short (e : Event) : Prop := ∀ len ∈ e.dataLen?, len < 2^31

instance (e : Event) : Decidable e.Short :=
  inferInstanceAs (Decidable (∀ len ∈ e.dataLen?, len < 2^31))

/-- Announced values that have passed `validateSetting`. -/
structure ClientSettings.Valid (cs : ClientSettings) : Prop where
  window : cs.initialWindowSize ≤ 2147483647
  frame : cs.maxFrameSize ≤ 16777215

theorem ClientSettings.Valid.announce {cs : ClientSettings} (h : cs.Valid) {st : Setting}
    (hst : validateSetting st = none) : (cs.announce st).Valid := by
  unfold ClientSettings.announce
  unfold validateSetting at hst
  cases hid : st.id with
  | initialWindowSize =>
    simp only [hid] at hst ⊢
    split_ifs at hst with hval
    exact ⟨not_lt.mp hval, h.frame⟩
  | maxFrameSize =>
    simp only [hid] at hst ⊢
    split_ifs at hst with hval
    push Not at hval
    exact ⟨h.window, hval.2⟩
  | _ => exact ⟨h.window, h.frame⟩

theorem readClientSettings_valid {params : List Setting} {cs : ClientSettings}
    (h : readClientSettings params = .ok cs) : cs.Valid := by
  unfold readClientSettings at h
  split at h
  · cases h
  · rename_i hvalid
    cases h
    have hall : ∀ st ∈ params, validateSetting st = none := List.findSome?_eq_none_iff.mp hvalid
    have hstart : ({} : ClientSettings).Valid := ⟨Nat.zero_le _, Nat.zero_le _⟩
    clear hvalid
    generalize ({} : ClientSettings) = cs at hstart ⊢
    induction params generalizing cs with
    | nil => exact hstart
    | cons st rest ih =>
      have hone := hstart.announce (hall st List.mem_cons_self)
      exact ih (fun x hx => hall x (List.mem_cons_of_mem _ hx)) _ hone

theorem ClientSettings.Valid.effectiveInitialWindow {cs : ClientSettings} (h : cs.Valid) :
    0 ≤ cs.effectiveInitialWindow ∧ cs.effectiveInitialWindow ≤ maxInt32 := by
  have hval := h.window
  have hwrap : wrap32 (cs.initialWindowSize : ℤ) = cs.initialWindowSize :=
    wrap32_of_range (by omega) (by unfold maxInt32; omega)
  unfold ClientSettings.effectiveInitialWindow
  rw [hwrap]
  unfold maxInt32
  split_ifs <;> omega

namespace ServerConn

variable {δ : Type} {dec : BlockDecoder δ}

variable {w : Writer} {s t : ServerConn δ} {j : ℕ} {f : Frame} {err : Option Error}

theorem want_eq (hsmall : (w.remaining : ℤ) ≤ maxInt32) :
    Writer.want w = if (w.remaining : ℤ) > w.maxFrame then w.maxFrame else w.remaining := by
  have hwrap : wrap32 (w.remaining : ℤ) = w.remaining := wrap32_of_range (by omega) hsmall
  unfold Writer.want
  rw [hwrap]

theorem want_congr {v : Writer} (hremaining : v.remaining = w.remaining)
    (hframe : v.maxFrame = w.maxFrame) : Writer.want v = Writer.want w := by
  unfold Writer.want
  rw [hremaining, hframe]

theorem sound_advance {w' : Writer} (h : w.Sound) (ha : w.Advance w') : w'.Sound := by
  have hwant := want_pos h
  cases ha with
  | reserved window hphase hsome =>
    have hpos := Window.offer_pos window _ hsome hwant
    have hle := Window.offer_le_max window (Writer.want w)
    generalize window.offer (Writer.want w) = taken at hpos hle ⊢
    have hsame : Writer.want { w with phase := .conn, streamTaken := taken } = Writer.want w :=
      want_congr rfl rfl
    refine ⟨h.some_left, h.small, h.frame_pos, ?_, ?_, ?_⟩
    · intro _
      rw [hsame]
      exact ⟨hpos, hle⟩
    · intro hp
      cases hp
    · intro hp
      cases hp
  | granted window hphase hsome =>
    obtain ⟨hpos, hle⟩ := h.conn hphase
    have htaken := Window.offer_pos window w.streamTaken hsome hpos
    have hmax := Window.offer_le_max window w.streamTaken
    refine ⟨h.some_left, h.small, h.frame_pos, ?_, ?_, ?_⟩
    · intro hp
      change (if _ then WriterPhase.refund else .write) = .conn at hp
      split_ifs at hp
    · intro hp
      change (if _ then WriterPhase.refund else .write) = .refund at hp
      split_ifs at hp with hless
      exact ⟨htaken, hless, hle⟩
    · intro _
      exact ⟨htaken, hmax.trans hle⟩
  | refunded hphase =>
    obtain ⟨hpos, hless, hle⟩ := h.refund hphase
    refine ⟨h.some_left, h.small, h.frame_pos, ?_, ?_, ?_⟩
    · intro hp
      cases hp
    · intro hp
      cases hp
    · intro _
      refine ⟨hpos, ?_⟩
      change w.connTaken ≤ Writer.want w
      omega
  | wrote hphase hleft =>
    have hsmall := h.small
    refine ⟨Nat.pos_of_ne_zero hleft, ?_, h.frame_pos, ?_, ?_, ?_⟩
    · change ((w.remaining - w.connTaken.toNat : ℕ) : ℤ) ≤ maxInt32
      omega
    all_goals
      intro hp
      cases hp

theorem want_advance_le {w' : Writer} (h : w.Sound) (ha : w.Advance w') :
    Writer.want w' ≤ Writer.want w := by
  have h' := sound_advance h ha
  rw [want_eq h.small, want_eq h'.small]
  cases ha with
  | wrote hphase hleft =>
    change (if ((w.remaining - w.connTaken.toNat : ℕ) : ℤ) > w.maxFrame then w.maxFrame
      else ((w.remaining - w.connTaken.toNat : ℕ) : ℤ)) ≤ _
    split_ifs <;> omega
  | _ => exact le_rfl

theorem frame_writers (dec : BlockDecoder δ) (s : ServerConn δ) (f : Frame) :
    (step dec s (.frame f)).writer = s.writer ∧ (step dec s (.frame f)).writers = s.writers := by
  refine frame_induct (P := fun t => t.writer = s.writer ∧ t.writers = s.writers)
    ⟨rfl, rfl⟩ (fun _ => ⟨rfl, rfl⟩) (fun _ => ⟨rfl, rfl⟩) ?_
  intro _ t err hh
  have hsilent := hh.silent
  cases err with
  | none => exact ⟨hsilent.writer, hsilent.writers⟩
  | some err =>
    unfold answer
    simp only []
    split_ifs
    all_goals exact ⟨hsilent.writer, hsilent.writers⟩

inductive WriterFrom (s : ServerConn δ) (e : Event) (k : ℕ) (w' : Writer) : Prop
  | same (h : s.writer k = some w')
  | advanced (w : Writer) (h : s.writer k = some w) (ha : w.Advance w')
  | started (id len : ℕ) (endStream : Bool) (he : e = .data id len endStream) (hlen : len ≠ 0)
      (hw : w' = ⟨id, len, endStream, s.clientS.effectiveMaxFrame, .stream, 0, 0⟩)

theorem WriterFrom.setWriter {e : Event} {k : ℕ} {o : Option Writer} (hw : s.writer k = some w)
    (hadv : ∀ v ∈ o, w.Advance v) (ht : t.writer = Function.update s.writer k o) :
    ∀ j v, t.writer j = some v → WriterFrom s e j v := by
  intro j v hv
  rw [ht] at hv
  by_cases hj : j = k
  · subst hj
    rw [Function.update_self] at hv
    exact .advanced w hw (hadv v hv)
  · rw [Function.update_of_ne hj] at hv
    exact .same hv

theorem closeStream_writer (s : ServerConn δ) (id : ℕ) :
    (s.closeStream id).writer = s.writer := by
  obtain ⟨objects, heq⟩ := closeStream_parts s id
  rw [heq]

theorem writer_from (dec : BlockDecoder δ) (s : ServerConn δ) (e : Event) :
    ∀ k w', (step dec s e).writer k = some w' → WriterFrom s e k w' := by
  have same {t : ServerConn δ} (ht : t.writer = s.writer) :
      ∀ k w', t.writer k = some w' → WriterFrom s e k w' := by
    intro k w' hw
    rw [ht] at hw
    exact .same hw
  refine step_induct (P := fun t => ∀ k w', t.writer k = some w' → WriterFrom s e k w')
    (fun f _ => same (frame_writers dec s f).1) (same rfl) fun t ht => ?_
  cases ht with
  | lastHeaders _ | lastData _ | reset | ended | finished _ _ =>
    exact same (closeStream_writer _ _)
  | started _ hlen =>
    intro k w' hw
    change Function.update s.writer s.writers _ k = some w' at hw
    by_cases hk : k = s.writers
    · subst hk
      rw [Function.update_self] at hw
      exact .started _ _ _ rfl hlen (Option.some.inj hw).symm
    · rw [Function.update_of_ne hk] at hw
      exact .same hw
  | @reserved k w ss hw _ hphase hsome =>
    refine WriterFrom.setWriter hw ?_ rfl
    intro v hv
    cases hv
    exact .reserved w ss.sendW hphase hsome
  | @granted k w hw hphase hsome =>
    refine WriterFrom.setWriter hw ?_ rfl
    intro v hv
    cases hv
    exact .granted w s.sendW hphase hsome
  | refunded hw _ hphase =>
    refine WriterFrom.setWriter hw ?_ rfl
    intro v hv
    cases hv
    exact .refunded _ hphase
  | @wroteLast k w hw _ _ =>
    exact WriterFrom.setWriter (o := none) hw (by simp) (closeStream_writer _ w.stream)
  | wroteAll hw _ _ | dropped hw _ | givenBack hw _ _ =>
    exact WriterFrom.setWriter (o := none) hw (by simp) rfl
  | wroteSome hw hphase hleft _ =>
    refine WriterFrom.setWriter hw ?_ rfl
    intro v hv
    cases hv
    exact .wrote _ hphase hleft
  | _ => exact same rfl

theorem effectiveMaxFrame_pos (cs : ClientSettings) : 0 < cs.effectiveMaxFrame := by
  unfold ClientSettings.effectiveMaxFrame defaultPeerMaxFrameSize
  split_ifs <;> omega

theorem soundWriters_step (dec : BlockDecoder δ) {e : Event} (he : e.Short) (h : SoundWriters s) :
    SoundWriters (step dec s e) := by
  intro k w' hw'
  cases writer_from dec s e k w' hw' with
  | same hw => exact h k w' hw
  | advanced w hw ha => exact sound_advance (h k w hw) ha
  | started id len endStream heq hlen hw =>
    subst heq hw
    have hshort := he len rfl
    have hpos := effectiveMaxFrame_pos s.clientS
    generalize s.clientS.effectiveMaxFrame = frame at hpos ⊢
    refine ⟨Nat.pos_of_ne_zero hlen, ?_, hpos, ?_, ?_, ?_⟩
    · change (len : ℤ) ≤ maxInt32
      unfold maxInt32
      omega
    all_goals
      intro hp
      cases hp

/-- The increments of the window updates that pass their check. -/
def credits (dec : BlockDecoder δ) (s : ServerConn δ) (e : Event) : List (ℕ × ℤ) :=
  match e.frame? with
  | none => []
  | some f => if s.Takes f then (s.dispatchFrame dec f).1.adding.toList else []

/-- What was credited to a stream, or to the connection as stream 0. -/
def creditOn (id : ℕ) (cs : List (ℕ × ℤ)) : ℤ :=
  (cs.map (fun c => if c.1 = id then c.2 else 0)).sum

theorem creditOn_append (id : ℕ) (a b : List (ℕ × ℤ)) :
    creditOn id (a ++ b) = creditOn id a + creditOn id b := by
  rw [creditOn, List.map_append, List.sum_append]
  rfl

theorem creditOn_toList (s : ServerConn δ) (id : ℕ) : creditOn id s.adding.toList = s.dueOn id := by
  unfold creditOn dueOn
  cases s.adding with
  | none => rfl
  | some a =>
    simp only [Option.toList_some, List.map_cons, List.map_nil, List.sum_singleton,
      Option.elim_some]

theorem effectiveInitialWindow_announced {cs : ClientSettings}
    (h : cs.initialWindowSizeAnnounced = true) :
    cs.effectiveInitialWindow = wrap32 (cs.initialWindowSize : ℤ) :=
  if_pos h

theorem effectiveInitialWindow_congr {cs cs' : ClientSettings}
    (hval : cs'.initialWindowSize = cs.initialWindowSize)
    (hflag : cs'.initialWindowSizeAnnounced = cs.initialWindowSizeAnnounced) :
    cs'.effectiveInitialWindow = cs.effectiveInitialWindow := by
  unfold ClientSettings.effectiveInitialWindow
  rw [hval, hflag]

def windowDelta (s : ServerConn δ) (st : Setting) : ℤ :=
  if st.id = .initialWindowSize then st.val - s.clientS.effectiveInitialWindow else 0

theorem applySetting_moves (hv : s.clientS.Valid) {st : Setting} (hst : validateSetting st = none) :
    let t := (s.applySetting st).1
    (s.windowDelta st = 0 ∧ t.stream = s.stream ∧
      t.clientS.effectiveInitialWindow = s.clientS.effectiveInitialWindow) ∨
    (s.windowDelta st ≠ 0 ∧ s.walkFits (s.windowDelta st) ∧
      t.stream = (s.walkStreams (s.windowDelta st)).stream ∧
      t.clientS.effectiveInitialWindow =
        s.clientS.effectiveInitialWindow + s.windowDelta st) ∨
    (s.windowDelta st ≠ 0 ∧ ¬ s.walkFits (s.windowDelta st) ∧ t.stream = s.stream ∧
      t.clientS.effectiveInitialWindow =
        s.clientS.effectiveInitialWindow + s.windowDelta st) := by
  intro t
  obtain ⟨hlo, hhi⟩ := hv.effectiveInitialWindow
  by_cases hid : st.id = .initialWindowSize
  · have hval : st.val ≤ 2147483647 := by
      unfold validateSetting at hst
      simp only [hid] at hst
      split_ifs at hst with h
      exact not_lt.mp h
    unfold maxInt32 at hhi
    have hwrap : wrap32 (st.val : ℤ) = st.val :=
      wrap32_of_range (by omega) (by unfold maxInt32; omega)
    have hdelta : wrap32 (wrap32 (st.val : ℤ) - s.clientS.effectiveInitialWindow) =
        s.windowDelta st := by
      unfold windowDelta
      rw [if_pos hid, hwrap]
      exact wrap32_of_range (by omega) (by unfold maxInt32; omega)
    let cs : ClientSettings :=
      { s.clientS with initialWindowSize := st.val, initialWindowSizeAnnounced := true }
    have heff : cs.effectiveInitialWindow =
        s.clientS.effectiveInitialWindow + s.windowDelta st := by
      have hnew : cs.effectiveInitialWindow = wrap32 (st.val : ℤ) :=
        effectiveInitialWindow_announced rfl
      rw [hwrap] at hnew
      unfold windowDelta
      rw [if_pos hid, hnew]
      omega
    have ht : t = (s.applySetting st).1 := rfl
    unfold applySetting at ht
    simp only [hid, hdelta] at ht
    by_cases hzero : s.windowDelta st = 0
    · rw [if_pos hzero] at ht
      left
      refine ⟨hzero, ?_, ?_⟩
      · rw [ht]
      · rw [ht]
        change cs.effectiveInitialWindow = _
        rw [heff, hzero, add_zero]
    · rw [if_neg hzero] at ht
      by_cases hwalk : s.walkFits (s.windowDelta st)
      · rw [if_pos (by exact hwalk)] at ht
        exact .inr (.inl ⟨hzero, hwalk, by rw [ht]; rfl, by rw [ht]; exact heff⟩)
      · rw [if_neg (by exact hwalk)] at ht
        exact .inr (.inr ⟨hzero, hwalk, by rw [ht], by rw [ht]; exact heff⟩)
  · left
    have hzero : s.windowDelta st = 0 := if_neg hid
    refine ⟨hzero, ?_⟩
    have ht : t = (s.applySetting st).1 := rfl
    unfold applySetting at ht
    cases hcase : st.id with
    | initialWindowSize => exact absurd hcase hid
    | _ =>
      simp only [hcase] at ht
      rw [ht]
      exact ⟨rfl, effectiveInitialWindow_congr rfl rfl⟩

theorem applySetting_parts (s : ServerConn δ) (st : Setting) :
    ∃ objects cs table, (s.applySetting st).1 =
      { s with stream := objects, clientS := cs, encoderTable := table } := by
  unfold applySetting
  split
  case h_2 =>
      simp only []
      split_ifs
      all_goals exact ⟨_, _, _, rfl⟩
  all_goals exact ⟨_, _, _, rfl⟩

theorem valid_applySetting (hv : s.clientS.Valid) {st : Setting} (hst : validateSetting st = none) :
    (s.applySetting st).1.clientS.Valid := by
  have hone := hv.announce hst
  unfold ClientSettings.announce at hone
  unfold applySetting
  cases hid : st.id with
  | initialWindowSize =>
    simp only [hid] at hone ⊢
    split_ifs
    all_goals exact hone
  | _ =>
    simp only [hid] at hone ⊢
    exact hone

theorem sendWindow_walkStreams (s : ServerConn δ) (delta : ℤ) (hmem : j ∈ s.streams)
    (hobj : s.stream j ≠ none) : (s.walkStreams delta).sendWindow j =
      ⟨(s.sendWindow j).n + delta, (s.sendWindow j).exact + delta⟩ := by
  obtain ⟨ss, hss⟩ := Option.ne_none_iff_exists'.mp hobj
  simp only [sendWindow, walkStreams, hmem, if_true, hss, Option.map_some, Option.elim_some]

theorem sendWindow_walkStreams_other (s : ServerConn δ) (delta : ℤ)
    (h : ¬ (j ∈ s.streams ∧ s.stream j ≠ none)) :
    (s.walkStreams delta).sendWindow j = s.sendWindow j := by
  unfold sendWindow walkStreams
  by_cases hmem : j ∈ s.streams
  · have hnone : s.stream j = none := by
      by_contra hobj
      exact h ⟨hmem, hobj⟩
    simp only [hmem, if_true, hnone, Option.map_none]
  · simp only [hmem, if_false]

theorem streamAccount_applySetting (hv : s.clientS.Valid) {st : Setting}
    (hst : validateSetting st = none) (j : ℕ) (credited : ℤ) : let d := s.windowDelta st
    let a := s.streamAccount j credited
    let b := (s.applySetting st).1.streamAccount j credited
    (d = 0 ∧ b = a) ∨
    (d ≠ 0 ∧ s.walkFits d ∧ j ∈ s.streams ∧ a.Enabled (.adjust d) ∧ b = a.apply (.adjust d)) ∨
    (d ≠ 0 ∧ (j ∈ s.streams → s.stream j ≠ none → ¬ s.walkFits d) ∧ b = a.apply (.regrant d)) := by
  intro d a b
  obtain ⟨objects, cs, table, ht⟩ := applySetting_parts s st
  have hmoves := applySetting_moves hv hst
  simp only [ht] at hmoves
  have hb : b = { a with
      window := ({ s with stream := objects } : ServerConn δ).sendWindow j
      granted := cs.effectiveInitialWindow + credited } := by
    change (s.applySetting st).1.streamAccount j credited = _
    rw [ht]
    rfl
  rcases hmoves with ⟨hzero, hobjects, heff⟩ | ⟨hne, hwalk, hobjects, heff⟩ |
    ⟨hne, hwalk, hobjects, heff⟩
  · left
    refine ⟨hzero, ?_⟩
    rw [hb, heff, hobjects]
    rfl
  · by_cases hj : j ∈ s.streams ∧ s.stream j ≠ none
    · right
      left
      obtain ⟨ss, hss⟩ := Option.ne_none_iff_exists'.mp hj.2
      have hfits : (s.sendWindow j).fits d = true := by
        rw [sendWindow_of hss]
        exact hwalk j hj.1 ss hss
      refine ⟨hne, hwalk, hj.1, hfits, ?_⟩
      have hwin := sendWindow_walkStreams s d hj.1 hj.2
      rw [hb, heff, hobjects]
      change CreditAccount.mk ((s.walkStreams d).sendWindow j) _ _ _ _ = _
      rw [hwin, add_right_comm]
      rfl
    · right
      right
      refine ⟨hne, fun hmem hobj => absurd ⟨hmem, hobj⟩ hj, ?_⟩
      have hwin := sendWindow_walkStreams_other s d hj
      rw [hb, heff, hobjects]
      change CreditAccount.mk ((s.walkStreams d).sendWindow j) _ _ _ _ = _
      rw [hwin, add_right_comm]
      rfl
  · right
    right
    refine ⟨hne, fun _ _ => hwalk, ?_⟩
    rw [hb, heff, hobjects, add_right_comm]
    rfl

theorem sameAccounts_abort (s : ServerConn δ) (code : ErrCode) :
    SameAccounts s (s.abort code) := by
  refine ⟨rfl, fun _ => rfl, fun _ => rfl, rfl, ⟨[.goaway s.lastInID code], rfl, ?_⟩, rfl, rfl⟩
  intro f hf
  rw [List.mem_singleton.mp hf]
  rfl

theorem sameAccounts_answer (s : ServerConn δ) (err : Option Error) :
    SameAccounts s (answer (s, err)) ∧ (answer (s, err)).stream = s.stream ∧
      (answer (s, err)).streams = s.streams := by
  have same : SameAccounts s s := .of_parts rfl rfl rfl rfl rfl rfl rfl
  cases err with
  | none => exact ⟨same, rfl, rfl⟩
  | some err =>
    unfold answer
    simp only []
    split_ifs
    · exact ⟨sameAccounts_abort s err.code, rfl, rfl⟩
    · have hzero : (WireFrame.rstStream err.stream err.code).dataLength = 0 := rfl
      exact ⟨same.write hzero, rfl, rfl⟩

theorem SameAccounts.trans {u : ServerConn δ} (h : SameAccounts s t) (h' : SameAccounts t u) :
    SameAccounts s u := by
  obtain ⟨new, hnew, hall⟩ := h.wire
  obtain ⟨new', hnew', hall'⟩ := h'.wire
  refine ⟨h'.sendW.trans h.sendW, fun j => (h'.window j).trans (h.window j),
    fun j => (h'.held j).trans (h.held j), h'.heldOfConn.trans h.heldOfConn,
    ⟨new ++ new', ?_, ?_⟩, h'.adding.trans h.adding, h'.clientS.trans h.clientS⟩
  · rw [hnew', hnew, List.append_assoc]
  · intro f hf
    rcases List.mem_append.mp hf with hf | hf
    · exact hall f hf
    · exact hall' f hf

theorem sameAccounts_queueIf (s : ServerConn δ) (endStream : Bool) (id : ℕ) :
    SameAccounts s (s.queueIf endStream id) := by
  cases endStream
  all_goals exact .of_parts rfl rfl rfl rfl rfl rfl rfl

inductive FrameEffect (dec : BlockDecoder δ) (s : ServerConn δ) (f : Frame) (t : ServerConn δ)
    (j : ℕ) : Prop
  | same (hlive : j ∈ t.streams → j ∈ s.streams) (hobj : s.stream j ≠ none)
      (hcredit : creditOn j (credits dec s (.frame f)) = 0) (hclient : t.clientS = s.clientS)
      (hacc : ∀ c, t.streamAccount j c = s.streamAccount j c)
  | credited (increment : Fin (2^31)) (hlive : j ∈ t.streams → j ∈ s.streams)
      (hobj : s.stream j ≠ none) (htakes : s.Takes f) (hf : f = .windowUpdate j increment)
      (hmem : j ∈ s.streams) (hfits : (s.sendWindow j).fits increment.val = true)
      (hcredit : creditOn j (credits dec s (.frame f)) = increment.val)
      (hclient : t.clientS = s.clientS)
      (hacc : ∀ c, t.streamAccount j (c + increment.val) =
        (s.streamAccount j c).apply (.accept increment.val))
  | configured (params : List Setting) (hlive : j ∈ t.streams → j ∈ s.streams)
      (hobj : s.stream j ≠ none) (htakes : s.Takes f) (hf : f = .settings false params)
      (hvalid : ∀ st ∈ params, validateSetting st = none)
      (hcredit : creditOn j (credits dec s (.frame f)) = 0)
      (hclient : t.clientS = (s.applySettings none params).1.clientS)
      (hacc : ∀ c, t.streamAccount j c = (s.applySettings none params).1.streamAccount j c)
  | opened (a : HeaderBlockAccumulator) (htakes : s.Takes f) (ha : s.completedBlock f = some a)
      (ho : s.Opens a) (hj : j = a.stream) (hcredit : creditOn j (credits dec s (.frame f)) = 0)
      (hclient : t.clientS = s.clientS)
      (hacc : ∀ c, t.streamAccount j c =
        ⟨Window.new s.clientS.effectiveInitialWindow, s.heldOn j, dataBytesOn j s.wire, 0,
          s.clientS.effectiveInitialWindow + c⟩)

theorem applySetting_none (st : Setting) (h : s.stream j = none) :
    (s.applySetting st).1.stream j = none := by
  unfold applySetting
  cases st.id with
  | initialWindowSize =>
    simp only []
    generalize wrap32 _ = delta
    split_ifs
    · exact h
    · simp only [walkStreams, h, Option.map_none, ite_self]
    · exact h
  | _ => exact h

theorem applySettings_parts (s : ServerConn δ) (err : Option Error) (params : List Setting) :
    ∃ objects cs table, (s.applySettings err params).1 =
        { s with stream := objects, clientS := cs, encoderTable := table } ∧
      ∀ j, s.stream j = none → objects j = none := by
  induction params generalizing s err with
  | nil => exact ⟨s.stream, s.clientS, s.encoderTable, rfl, fun _ h => h⟩
  | cons st rest ih =>
    obtain ⟨objects, cs, table, hone⟩ := applySetting_parts s st
    have hkeep (j : ℕ) (hj : s.stream j = none) := applySetting_none st hj
    rw [hone] at hkeep
    unfold applySettings
    split
    · rename_i s' hs'
      rw [hs'] at hone
      subst hone
      obtain ⟨objects', cs', table', heq, hall⟩ := ih _ err
      exact ⟨objects', cs', table', heq, fun j hj => hall j (hkeep j hj)⟩
    · rename_i s' e hs'
      rw [hs'] at hone
      subst hone
      obtain ⟨objects', cs', table', heq, hall⟩ := ih _ (some e)
      exact ⟨objects', cs', table', heq, fun j hj => hall j (hkeep j hj)⟩

theorem credits_untaken (dec : BlockDecoder δ) (h : ¬ s.Takes f) :
    credits dec s (.frame f) = [] := by
  simp only [credits, Event.frame?, h, if_false]

theorem credits_taken (h : s.Takes f) (ht : s.dispatchFrame dec f = (t, err)) :
    credits dec s (.frame f) = t.adding.toList := by
  simp only [credits, Event.frame?, h, if_true, ht]

theorem FrameEffect.of_same {t' : ServerConn δ} (h : FrameEffect dec s f t j)
    (ht : SameAccounts t t') (hstreams : t'.streams = t.streams) : FrameEffect dec s f t' j := by
  have hacc' (c : ℤ) := ht.streamAccount j c
  cases h with
  | same hlive hobj hcredit hclient hacc =>
    exact .same (hstreams ▸ hlive) hobj hcredit (ht.clientS.trans hclient)
      (fun c => (hacc' c).trans (hacc c))
  | credited increment hlive hobj htakes hf hmem hfits hcredit hclient hacc =>
    exact .credited increment (hstreams ▸ hlive) hobj htakes hf hmem hfits hcredit
      (ht.clientS.trans hclient) (fun c => (hacc' _).trans (hacc c))
  | configured params hlive hobj htakes hf hvalid hcredit hclient hacc =>
    exact .configured params (hstreams ▸ hlive) hobj htakes hf hvalid hcredit
      (ht.clientS.trans hclient) (fun c => (hacc' c).trans (hacc c))
  | opened a htakes ha ho hj hcredit hclient hacc =>
    exact .opened a htakes ha ho hj hcredit (ht.clientS.trans hclient)
      (fun c => (hacc' c).trans (hacc c))

theorem effect_same (htakes : s.Takes f) (ht : s.dispatchFrame dec f = (t, err))
    (hsame : SameAccounts s t) (hobj : s.stream j ≠ none) (hlive : j ∈ t.streams → j ∈ s.streams) :
    FrameEffect dec s f t j := by
  refine .same hlive hobj ?_ hsame.clientS (hsame.streamAccount j)
  rw [credits_taken htakes ht, creditOn_toList, dueOn, hsame.adding, htakes.2.1]
  rfl

theorem object_of_setStream {id : ℕ} {ss ss' : ServerStream} (hss : s.stream id = some ss)
    (h : (s.setStream id ss').stream j ≠ none) : s.stream j ≠ none := by
  by_cases hj : j = id
  · rw [hj, hss]
    exact Option.some_ne_none ss
  · change Function.update s.stream id (some ss') j ≠ none at h
    rw [Function.update_of_ne hj] at h
    exact h

theorem sameAccounts_setStream (h : SameAccounts s t) {id : ℕ} {ss ss' : ServerStream}
    (hss : t.stream id = some ss) (hsend : ss'.sendW = ss.sendW) :
    SameAccounts s (t.setStream id ss') :=
  ⟨h.sendW, fun j => (sendWindow_same hss hsend j).trans (h.window j), h.held, h.heldOfConn,
    h.wire, h.adding, h.clientS⟩

theorem sameAccounts_drained (s : ServerConn δ) (hpack : δ) (acc : Option HeaderBlockAccumulator)
    (goaway : Bool) : SameAccounts s
      { s.drainDone with hpack := hpack, hdrAccum := acc, peerGoaway := goaway } :=
  .of_parts rfl rfl rfl rfl rfl rfl rfl

theorem queueIf_parts (s : ServerConn δ) (endStream : Bool) (id : ℕ) :
    (s.queueIf endStream id).stream = s.stream ∧ (s.queueIf endStream id).streams = s.streams := by
  cases endStream
  all_goals exact ⟨rfl, rfl⟩

theorem effect_opened (htakes : s.Takes f) {a : HeaderBlockAccumulator}
    (ha : s.completedBlock f = some a) (ho : s.Opens a) {headers : OrderedHeaders} {hpack : δ}
    {acc : Option HeaderBlockAccumulator} (ht : s.dispatchFrame dec f =
      (({ s.drainDone with hpack := hpack, hdrAccum := acc } : ServerConn δ).openStream a.stream
        headers a.endStream, err))
    (hobj : (({ s.drainDone with hpack := hpack, hdrAccum := acc } : ServerConn δ).openStream
      a.stream headers a.endStream).stream j ≠ none) :
    FrameEffect dec s f (({ s.drainDone with hpack := hpack, hdrAccum := acc } :
      ServerConn δ).openStream a.stream headers a.endStream) j := by
  let u : ServerConn δ := { s.drainDone with hpack := hpack, hdrAccum := acc }
  let o : ServerConn δ := { u.setStream a.stream (u.openedStream headers a.endStream) with
    streams := insert a.stream u.streams
    lastInID := a.stream }
  have hopen : u.openStream a.stream headers a.endStream = o.queueIf a.endStream a.stream := rfl
  have hadd : o.adding = none := htakes.2.1
  have hcredit : creditOn j (credits dec s (.frame f)) = 0 := by
    rw [credits_taken htakes ht, creditOn_toList, dueOn]
    change (u.openStream a.stream headers a.endStream).adding.elim 0 _ = 0
    rw [hopen, (sameAccounts_queueIf o _ _).adding, hadd]
    rfl
  change (u.openStream a.stream headers a.endStream).stream j ≠ none at hobj
  change FrameEffect dec s f (u.openStream a.stream headers a.endStream) j
  rw [hopen] at hobj ⊢
  rw [(queueIf_parts o _ _).1] at hobj
  refine FrameEffect.of_same (t := o) ?_ (sameAccounts_queueIf o _ _) (queueIf_parts o _ _).2
  by_cases hj : j = a.stream
  · refine .opened a htakes ha ho hj hcredit rfl ?_
    intro c
    have hwin : o.sendWindow j = Window.new s.clientS.effectiveInitialWindow := by
      have hset := sendWindow_setStream u a.stream j (u.openedStream headers a.endStream)
      rw [if_pos hj] at hset
      exact hset
    have hdue : o.dueOn j = 0 := by
      rw [dueOn, hadd]
      rfl
    unfold streamAccount
    rw [hwin, hdue]
    rfl
  · refine .same ?_ ?_ hcredit rfl ?_
    · intro hmem
      rcases Finset.mem_insert.mp hmem with heq | hmem
      · exact absurd heq hj
      · exact (Finset.mem_sdiff.mp hmem).1
    · change Function.update s.stream a.stream _ j ≠ none at hobj
      rw [Function.update_of_ne hj] at hobj
      exact hobj
    · intro c
      have hwin : o.sendWindow j = s.sendWindow j := by
        have hset := sendWindow_setStream u a.stream j (u.openedStream headers a.endStream)
        rw [if_neg hj] at hset
        exact hset
      unfold streamAccount
      rw [hwin]
      rfl

theorem handled_effect (htakes : s.Takes f) (ht : s.dispatchFrame dec f = (t, err))
    (hh : Handled dec s f (t, err)) (hj : j ≠ 0) (hobj : t.stream j ≠ none) :
    FrameEffect dec s f t j := by
  have hself : SameAccounts s s := .of_parts rfl rfl rfl rfl rfl rfl rfl
  have hlive (h : j ∈ s.live) : j ∈ s.streams := (Finset.mem_sdiff.mp h).1
  cases hh with
  | aside t htt hpack acc goaway err =>
    rcases htt with rfl | rfl
    · exact effect_same htakes ht (.of_parts rfl rfl rfl rfl rfl rfl rfl) hobj id
    · exact effect_same htakes ht (sameAccounts_drained s hpack acc goaway) hobj hlive
  | opened a headers hpack acc ha hdec ho => exact effect_opened htakes ha ho ht hobj
  | trailed a headers hpack acc ss ha hdec hmem hss hst hend hnames =>
    have hdrained := sameAccounts_drained s hpack acc s.peerGoaway
    have hsend : ({ ss with state := .halfClosedRemote } : ServerStream).sendW = ss.sendW := rfl
    have hset := sameAccounts_setStream hdrained hss hsend
    have hqueue := hset.trans (sameAccounts_queueIf _ true a.stream)
    exact effect_same htakes ht hqueue (object_of_setStream hss hobj) hlive
  | accepted id payload padding endStream ss ss' hf hmem hss hrecv =>
    obtain ⟨w, d, upd, ss'', hupd, -, -, hsend, heq⟩ :=
      acceptData_parts s.drainDone id ss' payload.length endStream
    have hsendW := hsend.trans (ServerStream.recvData_ok hrecv).2.2.2.1
    let u : ServerConn δ := { s.drainDone with
      recvW := w, recvDebitSinceLastUpdate := d, wire := s.drainDone.wire ++ upd }
    have hu : SameAccounts s u := by
      refine ⟨rfl, fun _ => rfl, fun _ => rfl, rfl, ⟨upd, rfl, ?_⟩, rfl, rfl⟩
      intro g hg
      obtain ⟨i, delta, rfl⟩ := hupd g hg
      rfl
    have hset := sameAccounts_setStream hu hss hsendW
    rw [heq] at ht hobj ⊢
    rw [(queueIf_parts (u.setStream id ss'') endStream id).1] at hobj
    refine effect_same htakes ht (hset.trans (sameAccounts_queueIf _ endStream id))
      (object_of_setStream hss hobj) ?_
    rw [(queueIf_parts (u.setStream id ss'') endStream id).2]
    exact hlive
  | configured params t err hf hvalid happly =>
    obtain ⟨objects, cs, table, heq, hnone⟩ := applySettings_parts s none params
    have hfst : (s.applySettings none params).1 = t := by rw [happly]
    have hu : SameAccounts t (if err = none then t.write .settingsAck else t) := by
      have same : SameAccounts t t := .of_parts rfl rfl rfl rfl rfl rfl rfl
      have hzero : WireFrame.settingsAck.dataLength = 0 := rfl
      split_ifs
      · exact same.write hzero
      · exact same
    have hparts : (if err = none then t.write .settingsAck else t).streams = s.streams ∧
        (if err = none then t.write .settingsAck else t).stream = objects := by
      rw [hfst] at heq
      split_ifs
      all_goals
        rw [heq]
        exact ⟨rfl, rfl⟩
    rw [hparts.2] at hobj
    refine .configured params ?_ ?_ htakes hf (List.findSome?_eq_none_iff.mp hvalid) ?_ ?_ ?_
    · rw [hparts.1]
      exact id
    · exact fun h => hobj (hnone j h)
    · have hadd : t.adding = none := by
        rw [← hfst, heq]
        exact htakes.2.1
      rw [credits_taken htakes ht, creditOn_toList, dueOn, hu.adding, hadd]
      rfl
    · rw [hu.clientS, hfst]
    · intro c
      rw [hu.streamAccount, hfst]
  | ponged =>
    have hzero : WireFrame.pingAck.dataLength = 0 := rfl
    exact effect_same htakes ht (hself.write hzero) hobj id
  | credited id increment hf hfits =>
    have hcredit (i : ℕ) : creditOn i (credits dec s (.frame f)) =
        if id = i then (increment.val : ℤ) else 0 := by
      rw [credits_taken htakes ht, creditOn_toList]
      rfl
    have hdue : s.dueOn j = 0 := by
      rw [dueOn, htakes.2.1]
      rfl
    by_cases hid : id = j
    · subst hid
      rcases hfits with ⟨hzero, -⟩ | ⟨-, hmem, ss, hss, hfit⟩
      · exact absurd hzero hj
      · have hpos := hcredit id
        rw [if_pos rfl] at hpos
        refine .credited increment (fun h => h) hobj htakes hf hmem ?_ hpos rfl ?_
        · rw [sendWindow_of hss]
          exact hfit
        · intro c
          have hnew : ({ s with adding := some (id, (increment.val : ℤ)) } :
              ServerConn δ).dueOn id = increment.val := if_pos rfl
          unfold streamAccount CreditAccount.apply
          rw [hnew]
          simp only [hdue, zero_add, add_assoc]
          rfl
    · have hzero := hcredit j
      rw [if_neg hid] at hzero
      refine .same (fun h => h) hobj hzero rfl ?_
      intro c
      have hnew : ({ s with adding := some (id, (increment.val : ℤ)) } :
          ServerConn δ).dueOn j = 0 := if_neg hid
      unfold streamAccount
      rw [hnew, hdue]
      rfl
  | removed id code hf hmem =>
    let u : ServerConn δ := { s with
      streams := s.streams.erase id
      closedStreams := insert id s.closedStreams }
    have hu : SameAccounts s u := .of_parts rfl rfl rfl rfl rfl rfl rfl
    obtain ⟨objects, hclose⟩ := closeStream_parts u id
    have hstreams : (u.closeStream id).streams = s.streams.erase id := by
      rw [hclose]
    refine effect_same htakes ht (hu.closeStream id) ?_ ?_
    · intro hnone
      refine hobj ?_
      change (u.closeStream id).stream j = none
      unfold closeStream
      cases hss : u.stream id with
      | none => exact hnone
      | some ss =>
        by_cases hid : j = id
        · rw [hid] at hnone
          exact absurd (hss.symm.trans hnone) (Option.some_ne_none ss)
        · change Function.update s.stream id _ j = none
          rw [Function.update_of_ne hid]
          exact hnone
    · intro h
      rw [hstreams] at h
      exact Finset.mem_of_mem_erase h

theorem frame_effect (dec : BlockDecoder δ) (s : ServerConn δ) (f : Frame) (hj : j ≠ 0)
    (hobj : (step dec s (.frame f)).stream j ≠ none) :
    FrameEffect dec s f (step dec s (.frame f)) j := by
  by_cases htakes : s.Takes f
  · rw [step_frame_taken htakes] at hobj ⊢
    rcases hr : s.dispatchFrame dec f with ⟨t, err⟩
    have hh := dispatchFrame_handled dec s f
    rw [hr] at hobj hh
    obtain ⟨hsame, hstream, hstreams⟩ := sameAccounts_answer t err
    rw [hstream] at hobj
    exact (handled_effect htakes hr hh hj hobj).of_same hsame hstreams
  · have hcredit : creditOn j (credits dec s (.frame f)) = 0 := by
      rw [credits_untaken dec htakes]
      rfl
    rcases step_frame_untaken dec htakes with hs | ⟨code, hs⟩ | ⟨code, hs⟩
    · rw [hs] at hobj ⊢
      exact .same id hobj hcredit rfl (fun _ => rfl)
    · rw [hs] at hobj ⊢
      exact .same id hobj hcredit rfl ((sameAccounts_abort s code).streamAccount j)
    · rw [hs] at hobj ⊢
      exact .same id hobj hcredit rfl (fun _ => rfl)

theorem dataLength_of_responseOn {f : WireFrame} (h : f.responseOn = none) :
    f.dataLength = 0 := by
  cases f with
  | data id length last => cases h
  | _ => rfl

theorem Silent.connAccount (h : Silent s t) (c : ℤ) :
    t.connAccount c = { s.connAccount c with due := t.dueOn 0 } := by
  obtain ⟨new, hnew, hsilent⟩ := h.wire
  have hdata := (dataBytes_same (fun f hf => dataLength_of_responseOn (hsilent f hf))).1
  unfold ServerConn.connAccount heldOfConn holdings
  rw [h.sendW, h.writer, h.writers, hnew, dataBytes_append, hdata, add_zero]

theorem Handled.adding (hh : Handled dec s f (t, err)) : t.adding = s.adding ∨
      ∃ (id : ℕ) (increment : Fin (2^31)), f = .windowUpdate id increment ∧
        (id = 0 → s.sendW.fits increment.val = true) ∧
        t.adding = some (id, (increment.val : ℤ)) := by
  cases hh with
  | aside t ht hpack acc goaway err =>
    left
    rcases ht with rfl | rfl
    all_goals rfl
  | opened a headers hpack acc ha hdec ho =>
    left
    let u : ServerConn δ := { s.drainDone with hpack := hpack, hdrAccum := acc }
    let o : ServerConn δ := { u.setStream a.stream (u.openedStream headers a.endStream) with
      streams := insert a.stream u.streams
      lastInID := a.stream }
    exact (sameAccounts_queueIf o a.endStream a.stream).adding
  | trailed a headers hpack acc ss ha hdec hmem hss hst hend hnames => exact .inl rfl
  | accepted id payload padding endStream ss ss' hf hmem hss hrecv =>
    left
    obtain ⟨w, d, upd, ss'', -, -, -, -, heq⟩ :=
      acceptData_parts s.drainDone id ss' payload.length endStream
    rw [heq]
    exact (sameAccounts_queueIf _ endStream id).adding
  | configured params t err hf hvalid happly =>
    left
    obtain ⟨objects, cs, table, heq, -⟩ := applySettings_parts s none params
    rw [happly] at heq
    change t = _ at heq
    have hadd : t.adding = s.adding := by rw [heq]
    split_ifs
    all_goals exact hadd
  | ponged => exact .inl rfl
  | credited id increment hf hfits =>
    refine .inr ⟨id, increment, hf, ?_, rfl⟩
    intro hid
    rcases hfits with ⟨-, hfit⟩ | ⟨hne, -⟩
    · exact hfit
    · exact absurd hid hne
  | removed id code hf hmem =>
    left
    obtain ⟨objects, hclose⟩ := closeStream_parts ({ s with
      streams := s.streams.erase id
      closedStreams := insert id s.closedStreams } : ServerConn δ) id
    rw [hclose]

theorem frame_conn (dec : BlockDecoder δ) (s : ServerConn δ) (f : Frame) :
    (creditOn 0 (credits dec s (.frame f)) = 0 ∧
      ∀ c, (step dec s (.frame f)).connAccount c = s.connAccount c) ∨
    ∃ increment : Fin (2^31), s.Takes f ∧ f = .windowUpdate 0 increment ∧
      s.sendW.fits increment.val = true ∧
      creditOn 0 (credits dec s (.frame f)) = increment.val ∧
      ∀ c, (step dec s (.frame f)).connAccount (c + increment.val) =
        (s.connAccount c).apply (.accept increment.val) := by
  by_cases htakes : s.Takes f
  · rw [step_frame_taken htakes]
    rcases hr : s.dispatchFrame dec f with ⟨t, err⟩
    have hh := dispatchFrame_handled dec s f
    rw [hr] at hh
    have hsame := (sameAccounts_answer t err).1
    have hsilent := hh.silent
    have hnone : s.dueOn 0 = 0 := by
      rw [dueOn, htakes.2.1]
      rfl
    have hcredit : creditOn 0 (credits dec s (.frame f)) = t.dueOn 0 := by
      rw [credits_taken htakes hr, creditOn_toList]
    rcases hh.adding with hadd | ⟨id, increment, hf, hfit, hadd⟩
    · left
      have hdue : t.dueOn 0 = s.dueOn 0 := by
        unfold dueOn
        rw [hadd]
      refine ⟨by rw [hcredit, hdue, hnone], ?_⟩
      intro c
      rw [hsame.connAccount, hsilent.connAccount, hdue]
      rfl
    · have hdue : t.dueOn 0 = if id = 0 then (increment.val : ℤ) else 0 := by
        simp only [dueOn, hadd, Option.elim_some]
      by_cases hid : id = 0
      · right
        rw [if_pos hid] at hdue
        refine ⟨increment, htakes, by rw [hf, hid], hfit hid, by rw [hcredit, hdue], ?_⟩
        intro c
        rw [hsame.connAccount, hsilent.connAccount, hdue]
        unfold ServerConn.connAccount CreditAccount.apply
        simp only [hnone, zero_add, add_assoc]
      · left
        rw [if_neg hid] at hdue
        refine ⟨by rw [hcredit, hdue], ?_⟩
        intro c
        rw [hsame.connAccount, hsilent.connAccount, hdue, ← hnone]
        rfl
  · left
    refine ⟨by rw [credits_untaken dec htakes]; rfl, ?_⟩
    rcases step_frame_untaken dec htakes with hs | ⟨code, hs⟩ | ⟨code, hs⟩
    · rw [hs]
      exact fun _ => rfl
    · rw [hs]
      exact (sameAccounts_abort s code).connAccount
    · rw [hs]
      exact fun _ => rfl

theorem Handled.clientS (hh : Handled dec s f (t, err)) : t.clientS = s.clientS ∨
      ∃ params, f = .settings false params ∧ params.findSome? validateSetting = none ∧
        t.clientS = (s.applySettings none params).1.clientS := by
  cases hh with
  | aside t ht hpack acc goaway err =>
    left
    rcases ht with rfl | rfl
    all_goals rfl
  | opened a headers hpack acc ha hdec ho =>
    left
    let u : ServerConn δ := { s.drainDone with hpack := hpack, hdrAccum := acc }
    let o : ServerConn δ := { u.setStream a.stream (u.openedStream headers a.endStream) with
      streams := insert a.stream u.streams
      lastInID := a.stream }
    exact (sameAccounts_queueIf o a.endStream a.stream).clientS
  | trailed a headers hpack acc ss ha hdec hmem hss hst hend hnames => exact .inl rfl
  | accepted id payload padding endStream ss ss' hf hmem hss hrecv =>
    left
    obtain ⟨w, d, upd, ss'', -, -, -, -, heq⟩ :=
      acceptData_parts s.drainDone id ss' payload.length endStream
    rw [heq]
    exact (sameAccounts_queueIf _ endStream id).clientS
  | configured params t err hf hvalid happly =>
    refine .inr ⟨params, hf, hvalid, ?_⟩
    rw [happly]
    split_ifs
    all_goals rfl
  | ponged => exact .inl rfl
  | credited id increment hf hfits => exact .inl rfl
  | removed id code hf hmem =>
    left
    obtain ⟨objects, hclose⟩ := closeStream_parts ({ s with
      streams := s.streams.erase id
      closedStreams := insert id s.closedStreams } : ServerConn δ) id
    rw [hclose]

theorem frame_clientS (dec : BlockDecoder δ) (s : ServerConn δ) (f : Frame) :
    (step dec s (.frame f)).clientS = s.clientS ∨
      ∃ params, s.Takes f ∧ f = .settings false params ∧
        params.findSome? validateSetting = none ∧
        (step dec s (.frame f)).clientS = (s.applySettings none params).1.clientS := by
  by_cases htakes : s.Takes f
  · rw [step_frame_taken htakes]
    have hh := dispatchFrame_handled dec s f
    revert hh
    rcases s.dispatchFrame dec f with ⟨t, err⟩
    intro hh
    rw [(sameAccounts_answer t err).1.clientS]
    rcases hh.clientS with heq | ⟨params, hf, hvalid, heq⟩
    · exact .inl heq
    · exact .inr ⟨params, htakes, hf, hvalid, heq⟩
  · left
    rcases step_frame_untaken dec htakes with hs | ⟨code, hs⟩ | ⟨code, hs⟩
    · rw [hs]
    · rw [hs]
      rfl
    · rw [hs]

end ServerConn

end EnvoyGo.H2

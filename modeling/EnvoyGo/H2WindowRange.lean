import EnvoyGo.H2SendCredit

/-!
The 32-bit window counters of a downstream connection against the numbers they stand for.
-/

namespace EnvoyGo.H2

open Runs

structure RecvRange (initial limit : ℤ) (w : Window) (debit : ℤ) : Prop where
  sum : w.n + debit = initial
  exact : w.Exact
  nonneg : 0 ≤ debit
  below : debit < limit

def Frame.update? : Frame → Option (ℕ × ℤ)
  | .windowUpdate id increment => some (id, (increment.val : ℤ))
  | _ => none

def maxPayload : ℤ := 16777215

section Debit

variable {initial : ℤ} {w : Window} {debit len : ℤ}

theorem RecvRange.mono {limit limit' : ℤ} (h : RecvRange initial limit w debit)
    (hle : limit ≤ limit') : RecvRange initial limit' w debit :=
  ⟨h.sum, h.exact, h.nonneg, h.below.trans_le hle⟩

theorem RecvRange.take (h : RecvRange initial recvWindowUpdateThreshold w debit)
    (hlo : 0 ≤ initial) (hhi : initial ≤ maxInt32) (hpos : 0 < len) (hlen : len ≤ maxPayload) :
    (w.replenish (-len)).n = w.n - len ∧ (w.replenish (-len)).Exact := by
  have hsum := h.sum
  have hbelow := h.below
  have hnonneg := h.nonneg
  unfold recvWindowUpdateThreshold at hbelow
  unfold maxPayload at hlen
  have hlow : -2^31 ≤ w.n + -len := by omega
  have hhigh : w.n + -len ≤ maxInt32 := by omega
  exact ⟨Window.replenish_n w _ hlow hhigh, Window.replenish_exact h.exact _ hlow hhigh⟩

theorem RecvRange.debited (h : RecvRange initial recvWindowUpdateThreshold w debit)
    (hlo : 0 ≤ initial) (hhi : initial ≤ maxInt32) (hpos : 0 < len) (hlen : len ≤ maxPayload)
    {limit : ℤ} (hlimit : debit + len < limit) :
    RecvRange initial limit (w.replenish (-len)) (debit + len) := by
  obtain ⟨hn, hexact⟩ := h.take hlo hhi hpos hlen
  have hsum := h.sum
  have hnonneg := h.nonneg
  exact ⟨by omega, hexact, by omega, hlimit⟩

theorem RecvRange.updated (h : RecvRange initial recvWindowUpdateThreshold w debit)
    (hlo : 0 ≤ initial) (hhi : initial ≤ maxInt32) (hpos : 0 < len) (hlen : len ≤ maxPayload) :
    RecvRange initial recvWindowUpdateThreshold
      ((w.replenish (-len)).replenish (debit + len)) 0 := by
  obtain ⟨hn, hexact⟩ := h.take hlo hhi hpos hlen
  have hsum := h.sum
  have hnonneg := h.nonneg
  have hlow : -2^31 ≤ (w.replenish (-len)).n + (debit + len) := by omega
  have hhigh : (w.replenish (-len)).n + (debit + len) ≤ maxInt32 := by omega
  have hthreshold : (0 : ℤ) < recvWindowUpdateThreshold := by decide
  refine ⟨?_, Window.replenish_exact hexact _ hlow hhigh, le_rfl, hthreshold⟩
  rw [Window.replenish_n _ _ hlow hhigh]
  omega

end Debit

namespace ServerConn

variable {δ : Type} {dec : BlockDecoder δ}

structure StreamRecv (initial : ℤ) (ss : ServerStream) : Prop where
  range : RecvRange initial (recvWindowUpdateThreshold + maxPayload) ss.recvW
    ss.recvDebitSinceLastUpdate
  open_below : ss.Receiving → ss.recvDebitSinceLastUpdate < recvWindowUpdateThreshold

structure RecvKept (initial : ℤ) (s : ServerConn δ) : Prop where
  seed : wrap32 s.settings.initialWindowSize = initial
  conn : RecvRange initial recvWindowUpdateThreshold s.recvW s.recvDebitSinceLastUpdate
  streams : ∀ j ss, s.stream j = some ss → StreamRecv initial ss

structure SameReceive (s t : ServerConn δ) : Prop where
  settings : t.settings = s.settings
  recvW : t.recvW = s.recvW
  debit : t.recvDebitSinceLastUpdate = s.recvDebitSinceLastUpdate
  streams : ∀ j ss', t.stream j = some ss' → ∃ ss, s.stream j = some ss ∧
    ss'.recvSide = ss.recvSide ∧ (ss'.Receiving → ss.Receiving)

variable {s t : ServerConn δ} {ss : ServerStream} {id : ℕ}

theorem SameReceive.of_parts (hsettings : t.settings = s.settings) (hrecvW : t.recvW = s.recvW)
    (hdebit : t.recvDebitSinceLastUpdate = s.recvDebitSinceLastUpdate)
    (hstream : t.stream = s.stream) : SameReceive s t := by
  refine ⟨hsettings, hrecvW, hdebit, ?_⟩
  intro j ss' hss'
  rw [hstream] at hss'
  exact ⟨ss', hss', rfl, id⟩

theorem SameReceive.trans {u : ServerConn δ} (h : SameReceive s t) (h' : SameReceive t u) :
    SameReceive s u := by
  refine ⟨h'.settings.trans h.settings, h'.recvW.trans h.recvW, h'.debit.trans h.debit, ?_⟩
  intro j ss'' hss''
  obtain ⟨ss', hss', hside', hrecv'⟩ := h'.streams j ss'' hss''
  obtain ⟨ss, hss, hside, hrecv⟩ := h.streams j ss' hss'
  exact ⟨ss, hss, hside'.trans hside, fun hr => hrecv (hrecv' hr)⟩

theorem StreamRecv.side {initial : ℤ} {ss' : ServerStream} (h : StreamRecv initial ss)
    (hside : ss'.recvSide = ss.recvSide) (hrecv : ss'.Receiving → ss.Receiving) :
    StreamRecv initial ss' := by
  obtain ⟨hw, hd⟩ := Prod.mk.inj hside
  refine ⟨?_, ?_⟩
  · rw [hw, hd]
    exact h.range
  · intro hr
    rw [hd]
    exact h.open_below (hrecv hr)

theorem RecvKept.same {initial : ℤ} (h : RecvKept initial s) (hsame : SameReceive s t) :
    RecvKept initial t := by
  refine ⟨?_, ?_, ?_⟩
  · rw [hsame.settings]
    exact h.seed
  · rw [hsame.recvW, hsame.debit]
    exact h.conn
  · intro j ss' hss'
    obtain ⟨ss, hss, hside, hrecv⟩ := hsame.streams j ss' hss'
    exact (h.streams j ss hss).side hside hrecv

theorem sameReceive_setStream {ss' : ServerStream} (hss : s.stream id = some ss)
    (hside : ss'.recvSide = ss.recvSide) (hrecv : ss'.Receiving → ss.Receiving) :
    SameReceive s (s.setStream id ss') := by
  refine ⟨rfl, rfl, rfl, ?_⟩
  intro j v hv
  change Function.update s.stream id (some ss') j = some v at hv
  by_cases hj : j = id
  · subst hj
    rw [Function.update_self] at hv
    cases hv
    exact ⟨ss, hss, hside, hrecv⟩
  · rw [Function.update_of_ne hj] at hv
    exact ⟨v, hv, rfl, fun h => h⟩

theorem sameReceive_closeStream (s : ServerConn δ) (id : ℕ) : SameReceive s (s.closeStream id) := by
  unfold closeStream
  cases hss : s.stream id with
  | none => exact .of_parts rfl rfl rfl rfl
  | some ss =>
    refine sameReceive_setStream hss rfl ?_
    rintro (h | h)
    all_goals cases h

theorem sameReceive_walkStreams (s : ServerConn δ) (delta : ℤ) :
    SameReceive s (s.walkStreams delta) := by
  refine ⟨rfl, rfl, rfl, ?_⟩
  intro j ss' hss'
  unfold walkStreams at hss'
  simp only [] at hss'
  split_ifs at hss'
  · obtain ⟨ss, hss, rfl⟩ := Option.map_eq_some_iff.mp hss'
    exact ⟨ss, hss, rfl, id⟩
  · exact ⟨ss', hss', rfl, id⟩

theorem sameReceive_applySetting (s : ServerConn δ) (st : Setting) :
    SameReceive s (s.applySetting st).1 := by
  unfold applySetting
  cases st.id with
  | initialWindowSize =>
    simp only []
    generalize wrap32 _ = delta
    split_ifs
    · exact .of_parts rfl rfl rfl rfl
    · refine SameReceive.trans (t := { s with clientS := _ }) ?_ (sameReceive_walkStreams _ delta)
      exact .of_parts rfl rfl rfl rfl
    · exact .of_parts rfl rfl rfl rfl
  | _ => exact .of_parts rfl rfl rfl rfl

theorem sameReceive_applySettings (s : ServerConn δ) (err : Option Error)
    (params : List Setting) : SameReceive s (s.applySettings err params).1 := by
  induction params generalizing s err with
  | nil => exact .of_parts rfl rfl rfl rfl
  | cons st rest ih =>
    obtain ⟨err', heq⟩ := applySettings_cons s err st rest
    rw [heq]
    exact (sameReceive_applySetting s st).trans (ih _ err')

theorem sameReceive_queueIf (s : ServerConn δ) (endStream : Bool) (id : ℕ) :
    SameReceive s (s.queueIf endStream id) := by
  cases endStream
  all_goals exact .of_parts rfl rfl rfl rfl

theorem RecvKept.setStream {initial : ℤ} (h : RecvKept initial s) (id : ℕ)
    (hss : StreamRecv initial ss) : RecvKept initial (s.setStream id ss) := by
  refine ⟨h.seed, h.conn, ?_⟩
  intro j v hv
  change Function.update s.stream id (some ss) j = some v at hv
  by_cases hj : j = id
  · subst hj
    rw [Function.update_self] at hv
    cases hv
    exact hss
  · rw [Function.update_of_ne hj] at hv
    exact h.streams j v hv

theorem recvKept_acceptData {initial : ℤ} (h : RecvKept initial s) (hlo : 0 ≤ initial)
    (hhi : initial ≤ maxInt32) {ss' : ServerStream} (hss : s.stream id = some ss)
    {payload : Bytes} {endStream : Bool} (hrecv : ss.recvData id payload endStream = .ok ss')
    (hlen : (payload.length : ℤ) ≤ maxPayload) :
    RecvKept initial (s.acceptData id ss' payload.length endStream) := by
  obtain ⟨hreceiving, hends, -, -, hrecvW, hdebit⟩ := ServerStream.recvData_ok hrecv
  have hold := h.streams id ss hss
  have hstream : RecvRange initial recvWindowUpdateThreshold ss'.recvW
      ss'.recvDebitSinceLastUpdate := by
    rw [hrecvW, hdebit]
    exact ⟨hold.range.sum, hold.range.exact, hold.range.nonneg, hold.open_below hreceiving⟩
  have hthreshold : (0 : ℤ) ≤ maxPayload := by decide
  have hqueue {t : ServerConn δ} (ht : RecvKept initial t) :
      RecvKept initial (if endStream then t.queueDispatch id else t) :=
    ht.same (sameReceive_queueIf t endStream id)
  unfold acceptData
  simp only []
  by_cases hpos : (payload.length : ℤ) > 0
  · rw [if_pos hpos]
    refine hqueue ?_
    have hconn : RecvKept initial (s.debitConn payload.length) := by
      unfold debitConn
      simp only []
      split_ifs with hfull
      · exact ⟨h.seed, h.conn.updated hlo hhi hpos hlen, h.streams⟩
      · exact ⟨h.seed, h.conn.debited hlo hhi hpos hlen (not_le.mp hfull), h.streams⟩
    unfold debitStream
    simp only []
    split_ifs with hupdate
    · have hrange := hstream.updated hlo hhi hpos hlen
      have hnew : StreamRecv initial { ss' with
          recvW := (ss'.recvW.replenish (-payload.length)).replenish
            (ss'.recvDebitSinceLastUpdate + payload.length)
          recvDebitSinceLastUpdate := 0 } :=
        ⟨hrange.mono (by omega), fun _ => hrange.below⟩
      have hset := hconn.setStream id hnew
      exact ⟨hset.seed, hset.conn, hset.streams⟩
    · refine hconn.setStream id ?_
      have hbelow := hstream.below
      refine ⟨hstream.debited hlo hhi hpos hlen (by omega), ?_⟩
      intro hr
      have hgoes : endStream = false := hends.mp hr
      rw [hgoes] at hupdate
      simpa using hupdate
  · rw [if_neg hpos]
    refine hqueue (h.setStream id ?_)
    exact ⟨hstream.mono (by omega), fun _ => hstream.below⟩

theorem takes_data_length {payload : Bytes} {padding : Option (Fin 256)} {endStream : Bool}
    (h : s.Takes (.data id payload padding endStream)) : (payload.length : ℤ) ≤ maxPayload := by
  have hread := h.2.2
  have hle : payload.length ≤ flowControlledLength payload padding := Nat.le_add_right _ _
  unfold maxPayload
  by_contra hbig
  have hlarge : flowControlledLength payload padding > min s.settings.maxFrameSize 16777215 := by
    have hmin := Nat.min_le_right s.settings.maxFrameSize 16777215
    omega
  simp only [readError, parseError, if_pos hlarge] at hread
  cases hread

theorem Handled.recvKept {initial : ℤ} {f : Frame} {err : Option Error}
    (hh : Handled dec s f (t, err)) (htakes : s.Takes f) (h : RecvKept initial s)
    (hlo : 0 ≤ initial) (hhi : initial ≤ maxInt32) : RecvKept initial t := by
  cases hh with
  | aside t ht hpack acc goaway err =>
    rcases ht with rfl | rfl
    all_goals exact h.same (.of_parts rfl rfl rfl rfl)
  | opened a headers hpack acc ha hdec ho =>
    let u : ServerConn δ := { s.drainDone with hpack := hpack, hdrAccum := acc }
    have hu : RecvKept initial u := h.same (.of_parts rfl rfl rfl rfl)
    have hnew : StreamRecv initial (u.openedStream headers a.endStream) := by
      have hn : (Window.new (wrap32 u.settings.initialWindowSize)).n = initial := by
        change wrap32 (wrap32 _) = initial
        rw [hu.seed]
        exact wrap32_of_range (by omega) hhi
      have hexact : (Window.new (wrap32 u.settings.initialWindowSize)).Exact := by
        rw [Window.Exact, hn]
        exact hu.seed.symm
      have hpos : (0 : ℤ) < recvWindowUpdateThreshold := by decide
      have hpos' : (0 : ℤ) < recvWindowUpdateThreshold + maxPayload := by decide
      refine ⟨⟨?_, hexact, le_rfl, hpos'⟩, fun _ => hpos⟩
      change (Window.new (wrap32 u.settings.initialWindowSize)).n + 0 = initial
      rw [hn, add_zero]
    have hset := hu.setStream a.stream hnew
    let o : ServerConn δ := { u.setStream a.stream (u.openedStream headers a.endStream) with
      streams := insert a.stream u.streams
      lastInID := a.stream }
    have ho' : RecvKept initial o := ⟨hset.seed, hset.conn, hset.streams⟩
    exact ho'.same (sameReceive_queueIf o a.endStream a.stream)
  | trailed a headers hpack acc ss ha hdec hmem hss hst hend hnames =>
    let u : ServerConn δ := { s.drainDone with hpack := hpack, hdrAccum := acc }
    have hu : SameReceive s u := .of_parts rfl rfl rfl rfl
    have hset : SameReceive u (u.setStream a.stream { ss with state := .halfClosedRemote }) := by
      refine sameReceive_setStream hss rfl ?_
      rintro (h | h)
      all_goals cases h
    exact (h.same (hu.trans hset)).same (.of_parts rfl rfl rfl rfl)
  | accepted id payload padding endStream ss ss' hf hmem hss hrecv =>
    subst hf
    have hdrained : RecvKept initial s.drainDone := h.same (.of_parts rfl rfl rfl rfl)
    exact recvKept_acceptData hdrained hlo hhi hss hrecv (takes_data_length htakes)
  | configured params t err hf hvalid happly =>
    have happ := sameReceive_applySettings s none params
    rw [happly] at happ
    have ht := h.same happ
    split_ifs
    · exact ⟨ht.seed, ht.conn, ht.streams⟩
    · exact ht
  | ponged => exact h.same (.of_parts rfl rfl rfl rfl)
  | credited id increment hf hfits => exact h.same (.of_parts rfl rfl rfl rfl)
  | removed id code hf hmem =>
    let u : ServerConn δ := { s with
      streams := s.streams.erase id
      closedStreams := insert id s.closedStreams }
    have hu : SameReceive s u := .of_parts rfl rfl rfl rfl
    exact h.same (hu.trans (sameReceive_closeStream u id))

theorem sameReceive_answer (s : ServerConn δ) (err : Option Error) :
    SameReceive s (answer (s, err)) := by
  cases err with
  | none => exact .of_parts rfl rfl rfl rfl
  | some err =>
    unfold answer
    simp only []
    split_ifs
    all_goals exact .of_parts rfl rfl rfl rfl

theorem sameReceive_local (dec : BlockDecoder δ) (s : ServerConn δ) {e : Event}
    (he : e.frame? = none) : SameReceive s (step dec s e) := by
  have hlocal := local_step dec s he
  refine ⟨hlocal.settings, hlocal.recvW, hlocal.debit, ?_⟩
  intro j ss' hss'
  have hrecv := hlocal.recv j
  rw [hss', Option.map_some] at hrecv
  obtain ⟨ss, hss, hside⟩ := Option.map_eq_some_iff.mp hrecv.symm
  refine ⟨ss, hss, hside.symm, ?_⟩
  intro hr
  have hopened : (step dec s e).book.opened ⊆ s.book.opened := by
    rcases step_book dec s e with hs | ⟨id, code, heq, -⟩
    · exact AdmissionBook.steps_opened hs hlocal.lastInID
    · rw [heq] at he
      cases he
  obtain ⟨v, hv, hvr⟩ := hopened ⟨ss', hss', hr⟩
  have hsame : v = ss := Option.some.inj (Eq.trans (Eq.symm hv) hss)
  rw [← hsame]
  exact hvr

theorem recvKept_step (dec : BlockDecoder δ) {initial : ℤ} (e : Event) (h : RecvKept initial s)
    (hlo : 0 ≤ initial) (hhi : initial ≤ maxInt32) : RecvKept initial (step dec s e) := by
  by_cases he : e.frame? = none
  · exact h.same (sameReceive_local dec s he)
  · cases e with
    | frame f =>
      refine frame_induct h (fun _ => h.same (.of_parts rfl rfl rfl rfl))
        (fun _ => h.same (.of_parts rfl rfl rfl rfl)) ?_
      intro htakes t err hh
      exact (hh.recvKept htakes h hlo hhi).same (sameReceive_answer t err)
    | _ => exact absurd rfl he

/-- The send window a WINDOW_UPDATE names: stream 0 is the connection. -/
def windowNamed (s : ServerConn δ) (id : ℕ) : Window := if id = 0 then s.sendW else s.sendWindow id

/-- What the `writeData` calls have taken from it and neither written nor given back. -/
def outstanding (s : ServerConn δ) (id : ℕ) : ℤ := if id = 0 then s.heldOfConn else s.heldOn id

def SettingCovers (s : ServerConn δ) (st : Setting) : Prop :=
  st.id = .initialWindowSize → s.walkFits (s.windowDelta st) →
    ∀ id ∈ s.streams, (s.sendWindow id).n + s.heldOn id + s.windowDelta st ≤ maxInt32

instance (s : ServerConn δ) (st : Setting) : Decidable (s.SettingCovers st) :=
  inferInstanceAs (Decidable (_ → _ → ∀ id ∈ s.streams, _))

def SettingsCover (s : ServerConn δ) : List Setting → Prop
  | [] => True
  | st :: rest => s.SettingCovers st ∧ (s.applySetting st).1.SettingsCover rest

instance decidableSettingsCover (s : ServerConn δ) : ∀ params, Decidable (s.SettingsCover params)
  | [] => isTrue trivial
  | st :: rest =>
    have := decidableSettingsCover (s.applySetting st).1 rest
    inferInstanceAs (Decidable (s.SettingCovers st ∧ (s.applySetting st).1.SettingsCover rest))

/-- Bodies are shorter than 2^31, and credit that fits a counter fits it with what is
outstanding. -/
def CreditCovers (s : ServerConn δ) (e : Event) : Prop :=
  e.Short ∧ ∀ f ∈ e.frame?, s.Takes f →
    (∀ u ∈ f.update?, (u.1 = 0 ∨ u.1 ∈ s.streams) → (s.windowNamed u.1).fits u.2 = true →
      (s.windowNamed u.1).n + s.outstanding u.1 + u.2 ≤ maxInt32) ∧
    ∀ params ∈ f.params?, params.findSome? validateSetting = none → s.SettingsCover params

instance (s : ServerConn δ) (e : Event) : Decidable (s.CreditCovers e) :=
  inferInstanceAs (Decidable (_ ∧ ∀ f ∈ e.frame?, s.Takes f → _ ∧ _))

/-- What every conforming run keeps. -/
structure Ranged (initial : ℤ) (s : ServerConn δ) : Prop where
  valid : s.clientS.Valid
  run : WritersRun s
  kept : s.book.Kept
  sound : SoundWriters s
  objects : ∀ id ∈ s.streams, id ≠ 0 ∧ s.stream id ≠ none
  streams : ∀ id, id ≠ 0 → s.stream id ≠ none → (s.streamAccount id 0).Faithful
  zero : s.stream 0 = none
  conn : (s.connAccount 0).Faithful
  recv : RecvKept initial s

theorem faithful_applySettings (params : List Setting) (err : Option Error) (hv : s.clientS.Valid)
    (hvalid : ∀ st ∈ params, validateSetting st = none) (hcover : s.SettingsCover params) {j : ℕ}
    (hdue : s.dueOn j = 0) (h : (s.streamAccount j 0).Faithful) :
    ((s.applySettings err params).1.streamAccount j 0).Faithful := by
  induction params generalizing s err with
  | nil => exact h
  | cons st rest ih =>
    obtain ⟨err', heq⟩ := applySettings_cons s err st rest
    obtain ⟨hone, hrest⟩ := hcover
    have hst := hvalid st List.mem_cons_self
    obtain ⟨objects, cs, table, hparts⟩ := applySetting_parts s st
    rw [heq]
    refine ih err' (valid_applySetting hv hst) (fun x hx => hvalid x (List.mem_cons_of_mem _ hx))
      hrest (by rw [hparts]; exact hdue) ?_
    rcases streamAccount_applySetting hv hst j 0 with ⟨-, hacc⟩ | ⟨hne, hwalk, hmem, hen, hacc⟩ |
      ⟨hne, -, hacc⟩
    · rw [hacc]
      exact h
    · have hid : st.id = .initialWindowSize := by
        by_contra hid
        exact hne (if_neg hid)
      rw [hacc]
      refine h.apply hen ?_
      have hfit := hone hid hwalk j hmem
      change (s.sendWindow j).n + s.dueOn j + s.heldOn j + s.windowDelta st ≤ maxInt32
      omega
    · rw [hacc]
      exact h.apply trivial trivial

theorem faithful_opened {eff c : ℤ} (hlo : 0 ≤ eff) (hhi : eff ≤ maxInt32) (spent : ℤ) :
    (CreditAccount.mk (Window.new eff) 0 spent 0 c).Faithful := by
  have hn : (Window.new eff).n = eff := wrap32_of_range (by omega) hhi
  refine ⟨Window.new_inRange eff, hn, le_rfl, le_rfl, ?_⟩
  change (Window.new eff).n + 0 + 0 ≤ maxInt32
  omega

theorem faithful_credited {j : ℕ} {c c' : ℤ} (h : (s.streamAccount j c).Faithful) :
    (s.streamAccount j c').Faithful :=
  ⟨h.range, h.exact, h.due_nonneg, h.held_nonneg, h.room⟩

theorem faithful_frame {initial : ℤ} {f : Frame} (h : Ranged initial s)
    (hok : s.CreditCovers (.frame f)) {j : ℕ} (hj : j ≠ 0)
    (hobj : (step dec s (.frame f)).stream j ≠ none) :
    ((step dec s (.frame f)).streamAccount j 0).Faithful := by
  cases frame_effect dec s f hj hobj with
  | same hlive hold hcredit hclient hacc =>
    rw [hacc]
    exact h.streams j hj hold
  | credited increment hlive hold htakes hf hin hfits hcredit hclient hacc =>
    subst hf
    have hdue : s.dueOn j = 0 := by
      rw [dueOn, htakes.2.1]
      rfl
    have hnamed : s.windowNamed j = s.sendWindow j := if_neg hj
    have hout : s.outstanding j = s.heldOn j := if_neg hj
    have hfit := (hok.2 _ rfl htakes).1 (j, (increment.val : ℤ)) rfl (.inr hin)
    simp only [hnamed, hout] at hfit
    have hroom := hfit hfits
    refine faithful_credited (c := 0 + increment.val) ?_
    rw [hacc]
    refine (h.streams j hj hold).apply (Int.natCast_nonneg _) ?_
    change (s.sendWindow j).n + s.dueOn j + s.heldOn j + increment.val ≤ maxInt32
    omega
  | configured params hlive hold htakes hf hvalid hcredit hclient hacc =>
    rw [hacc]
    have hdue : s.dueOn j = 0 := by
      rw [dueOn, htakes.2.1]
      rfl
    have hcover : s.SettingsCover params := by
      subst hf
      exact (hok.2 _ rfl htakes).2 params rfl (List.findSome?_eq_none_iff.mpr hvalid)
    exact faithful_applySettings params none h.valid hvalid hcover hdue (h.streams j hj hold)
  | opened a htakes ha ho heq hcredit hclient hacc =>
    obtain ⟨hlo, hhi⟩ := h.valid.effectiveInitialWindow
    have hlast : s.lastInID < j := by
      rw [heq]
      exact ho.2.2.2.2.2.1
    rw [hacc, heldOn_eq_zero h.run h.kept hlast]
    exact faithful_opened hlo hhi _

theorem Handled.zero {f : Frame} {err : Option Error} (hh : Handled dec s f (t, err))
    (h : s.stream 0 = none) : t.stream 0 = none := by
  have hset {u : ServerConn δ} (hu : u.stream 0 = none) {id : ℕ} {ss ss' : ServerStream}
      (hss : u.stream id = some ss) : (u.setStream id ss').stream 0 = none := by
    have hid : 0 ≠ id := by
      rintro rfl
      rw [hu] at hss
      cases hss
    change Function.update u.stream id (some ss') 0 = none
    rw [Function.update_of_ne hid]
    exact hu
  cases hh with
  | aside t ht hpack acc goaway err =>
    rcases ht with rfl | rfl
    all_goals exact h
  | opened a headers hpack acc ha hdec ho =>
    unfold openStream
    simp only []
    rw [(queueIf_parts _ _ _).1]
    have hodd := ho.2.2.2.2.1
    have hid : 0 ≠ a.stream := by
      intro hzero
      rw [← hzero] at hodd
      exact hodd rfl
    change Function.update s.stream a.stream _ 0 = none
    rw [Function.update_of_ne hid]
    exact h
  | trailed a headers hpack acc ss ha hdec hmem hss hst hend hnames =>
    let u : ServerConn δ := { s.drainDone with hpack := hpack, hdrAccum := acc }
    exact hset (u := u) h hss
  | accepted id payload padding endStream ss ss' hf hmem hss hrecv =>
    obtain ⟨w, d, upd, ss'', -, -, -, -, heq⟩ :=
      acceptData_parts s.drainDone id ss' payload.length endStream
    rw [heq, (queueIf_parts _ endStream id).1]
    let u : ServerConn δ := { s.drainDone with
      recvW := w, recvDebitSinceLastUpdate := d, wire := s.drainDone.wire ++ upd }
    exact hset (u := u) h hss
  | configured params t err hf hvalid happly =>
    obtain ⟨objects, cs, table, heq, hnone⟩ := applySettings_parts s none params
    rw [happly] at heq
    change t = _ at heq
    have ht : t.stream 0 = none := by
      rw [heq]
      exact hnone 0 h
    split_ifs
    all_goals exact ht
  | ponged => exact h
  | credited id increment hf hfits => exact h
  | removed id code hf hmem =>
    unfold closeStream
    cases hss : s.stream id with
    | none => exact h
    | some ss =>
      let u : ServerConn δ := { s with
        streams := s.streams.erase id
        closedStreams := insert id s.closedStreams }
      exact hset (u := u) h hss

theorem zero_step (dec : BlockDecoder δ) (e : Event) (h : s.stream 0 = none) :
    (step dec s e).stream 0 = none := by
  by_cases he : e.frame? = none
  · by_contra hobj
    exact ((local_step dec s he).object 0).mp hobj h
  · cases e with
    | frame f =>
      refine frame_induct (P := fun t => t.stream 0 = none) h (fun _ => h) (fun _ => h) ?_
      intro _ t err hh
      rw [(sameAccounts_answer t err).2.1]
      exact hh.zero h
    | _ => exact absurd rfl he

theorem ranged_step {initial : ℤ} (hlo : 0 ≤ initial) (hhi : initial ≤ maxInt32)
    (s : ServerConn δ) (e : Event) (hok : s.CreditCovers e) (h : Ranged initial s) :
    Ranged initial (step dec s e) := by
  have hrun := writersRun_step dec s e h.run
  have hkept : (step dec s e).book.Kept := kept_step e h.kept
  have hsound := soundWriters_step dec hok.1 h.sound
  have hzero := zero_step dec e h.zero
  have hrecv := recvKept_step dec e h.recv hlo hhi
  by_cases he : e.frame? = none
  · have hlocal := local_step dec s he
    have hmoves := moves_step dec h.run h.sound he
    refine ⟨?_, hrun, hkept, hsound, ?_, ?_, hzero, h.conn.moves (hmoves.conn 0), hrecv⟩
    · rw [hlocal.clientS]
      exact h.valid
    · intro id hid
      rw [hlocal.streams] at hid
      exact ⟨(h.objects id hid).1, (hlocal.object id).mpr (h.objects id hid).2⟩
    · intro id hid hobj
      have hobj' := (hlocal.object id).mp hobj
      exact (h.streams id hid hobj').moves (hmoves.stream id 0 hid hobj')
  · cases e with
    | frame f =>
      refine ⟨?_, hrun, hkept, hsound, objects_frame dec f h.objects, ?_, hzero, ?_, hrecv⟩
      · rcases frame_clientS dec s f with hsame | ⟨params, -, -, hvalid, hnew⟩
        · rw [hsame]
          exact h.valid
        · rw [hnew]
          exact valid_applySettings params none h.valid (List.findSome?_eq_none_iff.mp hvalid)
      · intro id hid hobj
        exact faithful_frame h hok hid hobj
      · rcases frame_conn dec s f with ⟨-, hacc⟩ | ⟨increment, htakes, hf, hfits, -, hacc⟩
        · rw [hacc]
          exact h.conn
        · subst hf
          have hdue : s.dueOn 0 = 0 := by
            rw [dueOn, htakes.2.1]
            rfl
          have hroom : s.sendW.n + s.heldOfConn + increment.val ≤ maxInt32 :=
            (hok.2 _ rfl htakes).1 (0, (increment.val : ℤ)) rfl (.inl rfl) hfits
          have hnew : ((step dec s (.frame (.windowUpdate 0 increment))).connAccount
              (0 + increment.val)).Faithful := by
            rw [hacc]
            refine h.conn.apply (Int.natCast_nonneg _) ?_
            change s.sendW.n + s.dueOn 0 + s.heldOfConn + increment.val ≤ maxInt32
            omega
          exact ⟨hnew.range, hnew.exact, hnew.due_nonneg, hnew.held_nonneg, hnew.room⟩
    | _ => exact absurd rfl he

theorem ranged_new (hpack : δ) (settings : ServerSettings)
    (hown : settings.initialWindowSize ≤ 2147483647) {clientS : ClientSettings}
    (hv : clientS.Valid) :
    Ranged settings.initialWindowSize (newServerConn hpack settings clientS) := by
  have hwrap : wrap32 (settings.initialWindowSize : ℤ) = settings.initialWindowSize :=
    wrap32_of_range (by omega) (by unfold maxInt32; omega)
  have hn : (Window.new (wrap32 (settings.initialWindowSize : ℤ))).n =
      settings.initialWindowSize := by
    change wrap32 (wrap32 (settings.initialWindowSize : ℤ)) = _
    rw [hwrap, hwrap]
  have hexact : (Window.new (wrap32 (settings.initialWindowSize : ℤ))).Exact := by
    rw [Window.Exact, hn]
    exact hwrap.symm
  have hpos : (0 : ℤ) < recvWindowUpdateThreshold := by decide
  refine ⟨hv, ?_, kept_new hpack settings clientS, ?_, ?_, ?_, rfl, ?_, hwrap, ?_, ?_⟩
  · intro k w hw
    cases hw
  · intro k w hw
    cases hw
  · intro id hid
    cases hid
  · intro id _ hobj
    exact absurd rfl hobj
  · refine ⟨Window.new_inRange _, hexact, le_rfl, le_rfl, ?_⟩
    change (Window.new (wrap32 (settings.initialWindowSize : ℤ))).n + 0 + 0 ≤ maxInt32
    rw [hn]
    unfold maxInt32
    omega
  · refine ⟨?_, hexact, le_rfl, hpos⟩
    change (Window.new (wrap32 (settings.initialWindowSize : ℤ))).n + 0 = _
    rw [hn, add_zero]
  · intro j ss hss
    cases hss

theorem onWindowUpdate_refuses {delta : ℤ} (hpos : 0 < delta)
    (hname : id = 0 ∨ id ∈ s.streams ∧ s.stream id ≠ none)
    (hfits : (s.windowNamed id).fits delta = false) :
    ∃ err, (s.onWindowUpdate id delta).2 = some err ∧ err.code = .flowControlError := by
  have hne : delta ≠ 0 := hpos.ne'
  unfold onWindowUpdate
  by_cases hid : id = 0
  · have hw : s.windowNamed id = s.sendW := if_pos hid
    rw [hw] at hfits
    simp only [hid, if_true, hne, if_false, hfits, Bool.not_false]
    exact ⟨_, rfl, rfl⟩
  · obtain ⟨hmem, hobj⟩ := hname.resolve_left hid
    obtain ⟨ss, hss⟩ := Option.ne_none_iff_exists'.mp hobj
    have hw : s.windowNamed id = ss.sendW := (if_neg hid).trans (sendWindow_of hss)
    rw [hw] at hfits
    simp only [hid, if_false, hmem, if_true, hss, hne, hfits, Bool.not_false]
    exact ⟨_, rfl, rfl⟩

/-- In a run where the credit always fits with what is outstanding, every counter is the number it
stands for, and credit that would not fit is refused. -/
theorem windows_never_wrap (dec : BlockDecoder δ) (hpack : δ) (settings : ServerSettings)
    (hown : settings.initialWindowSize ≤ 2147483647) {params : List Setting}
    {clientS : ClientSettings} (hread : readClientSettings params = .ok clientS) (es : List Event)
    (hes : StepsMeet (step dec) CreditCovers (newServerConn hpack settings clientS) es) :
    let s := run dec (newServerConn hpack settings clientS) es
    s.sendW.Exact ∧ s.recvW.Exact ∧
      (∀ id ss, s.stream id = some ss → ss.sendW.Exact ∧ ss.recvW.Exact) ∧
      ∀ id (increment : Fin (2^31)), s.CreditCovers (.frame (.windowUpdate id increment)) →
        s.Takes (.windowUpdate id increment) → (id = 0 ∨ id ∈ s.streams) →
        (s.windowNamed id).n + s.outstanding id + increment.val > maxInt32 →
        ∃ err, (s.dispatchFrame dec (.windowUpdate id increment)).2 = some err ∧
          err.code = .flowControlError := by
  intro s
  have hlo : (0 : ℤ) ≤ settings.initialWindowSize := Int.natCast_nonneg _
  have hhi : (settings.initialWindowSize : ℤ) ≤ maxInt32 := by
    unfold maxInt32
    omega
  have hranged : Ranged settings.initialWindowSize s :=
    invariant_of_steps (ranged_step hlo hhi) es _
      (ranged_new hpack settings hown (readClientSettings_valid hread)) hes
  refine ⟨hranged.conn.exact, hranged.recv.conn.exact, ?_, ?_⟩
  · intro id ss hss
    have hid : id ≠ 0 := by
      rintro rfl
      rw [hranged.zero] at hss
      cases hss
    have hobj : s.stream id ≠ none := by
      rw [hss]
      exact Option.some_ne_none ss
    have hexact := (hranged.streams id hid hobj).exact
    change (s.sendWindow id).Exact at hexact
    rw [sendWindow_of hss] at hexact
    exact ⟨hexact, (hranged.recv.streams id ss hss).range.exact⟩
  · intro id increment hok htakes hname hbig
    have hinc : 0 < (increment.val : ℤ) := by
      have hread := htakes.2.2
      by_contra hzero
      have hval : increment.val = 0 := by omega
      simp only [readError, parseError, hval, if_true] at hread
      cases hread
    refine onWindowUpdate_refuses hinc ?_ ?_
    · rcases hname with hid | hmem
      · exact .inl hid
      · exact .inr ⟨hmem, (hranged.objects id hmem).2⟩
    · cases hfits : (s.windowNamed id).fits increment.val with
      | false => rfl
      | true =>
        have hroom := (hok.2 _ rfl htakes).1 (id, (increment.val : ℤ)) rfl hname hfits
        simp only [] at hroom
        omega

/-- A response whose credit the peer gives back. -/
theorem credited_response_exact :
    let es : List Event := [.frame (.headers 1 [] true true none), .flush, .data 1 100 true,
      .reserveStream 0, .reserveConn 0, .frame (.windowUpdate 1 50), .addCredit, .chunk 0,
      .frame (.windowUpdate 0 100), .addCredit]
    StepsMeet (step blankDecoder) CreditCovers (newServerConn () {} {}) es ∧
      (run blankDecoder (newServerConn () {} {}) es).sendW.Exact := by
  intro es
  have hmeet : StepsMeet (step blankDecoder) CreditCovers (newServerConn () {} {}) es := by
    decide
  have hread : readClientSettings [] = .ok {} := rfl
  have hown : ({} : ServerSettings).initialWindowSize ≤ 2147483647 := by
    decide
  exact ⟨hmeet, (windows_never_wrap blankDecoder () {} hown hread es hmeet).1⟩

/-- The peer fills the window of a stream up while a call has a part of it to give back: the refund
makes the counter negative. -/
theorem refund_wraps_window :
    let clientS : ClientSettings :=
      { initialWindowSize := 2147483647, initialWindowSizeAnnounced := true }
    let round : List Event := [.reserveStream 0, .reserveConn 0, .chunk 0]
    let es : List Event :=
      [.frame (.headers 1 [] true true none), .flush, .data 1 70000 true] ++
        round ++ round ++ round ++ [.reserveStream 0, .reserveConn 0,
          .frame (.windowUpdate 1 65536), .addCredit, .refund 0]
    readClientSettings [⟨.initialWindowSize, 2147483647⟩] = .ok clientS ∧
      ((run blankDecoder (newServerConn () {} clientS) es).sendWindow 1).n = -2147483648 ∧
      ((run blankDecoder (newServerConn () {} clientS) es).sendWindow 1).exact = 2147483648 := by
  refine ⟨rfl, ?_, ?_⟩
  · decide +kernel
  · decide +kernel

end ServerConn

end EnvoyGo.H2

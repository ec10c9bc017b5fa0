import EnvoyGo.CreditAccount
import EnvoyGo.H2CompleteRequest
import EnvoyGo.H2ServerWire
import EnvoyGo.Tally

/-!
The send windows of a downstream connection as credit accounts: one for each stream and one for the
connection, with what the `writeData` calls hold of them.
-/

namespace EnvoyGo.H2

open Tally

def Writer.streamHeld (w : Writer) : ℤ :=
  match w.phase with
  | .stream => 0
  | .write => w.connTaken
  | _ => w.streamTaken

def Writer.connHeld (w : Writer) : ℤ :=
  match w.phase with
  | .refund => w.connTaken
  | .write => w.connTaken
  | _ => 0

theorem Writer.held_stream {w : Writer} (h : w.phase = .stream) :
    w.streamHeld = 0 ∧ w.connHeld = 0 := by
  unfold streamHeld connHeld
  rw [h]
  exact ⟨rfl, rfl⟩

theorem Writer.held_conn {w : Writer} (h : w.phase = .conn) :
    w.streamHeld = w.streamTaken ∧ w.connHeld = 0 := by
  unfold streamHeld connHeld
  rw [h]
  exact ⟨rfl, rfl⟩

theorem Writer.held_refund {w : Writer} (h : w.phase = .refund) :
    w.streamHeld = w.streamTaken ∧ w.connHeld = w.connTaken := by
  unfold streamHeld connHeld
  rw [h]
  exact ⟨rfl, rfl⟩

theorem Writer.held_write {w : Writer} (h : w.phase = .write) :
    w.streamHeld = w.connTaken ∧ w.connHeld = w.connTaken := by
  unfold streamHeld connHeld
  rw [h]
  exact ⟨rfl, rfl⟩

/-- A call whose length fits 32 bits: what it has taken is positive, and no more than one frame. -/
structure Writer.Sound (w : Writer) : Prop where
  some_left : 0 < w.remaining
  small : (w.remaining : ℤ) ≤ maxInt32
  frame_pos : 0 < w.maxFrame
  conn : w.phase = .conn → 0 < w.streamTaken ∧ w.streamTaken ≤ ServerConn.Writer.want w
  refund : w.phase = .refund → 0 < w.connTaken ∧ w.connTaken < w.streamTaken ∧
    w.streamTaken ≤ ServerConn.Writer.want w
  write : w.phase = .write → 0 < w.connTaken ∧ w.connTaken ≤ ServerConn.Writer.want w

def WireFrame.dataLength : WireFrame → ℤ
  | .data _ length _ => length
  | _ => 0

def WireFrame.dataOn (id : ℕ) : WireFrame → ℤ
  | .data j length _ => if j = id then length else 0
  | _ => 0

/-- The DATA bytes written. -/
def dataBytes (wire : List WireFrame) : ℤ := (wire.map WireFrame.dataLength).sum

/-- The DATA bytes written on a stream. -/
def dataBytesOn (id : ℕ) (wire : List WireFrame) : ℤ := (wire.map (WireFrame.dataOn id)).sum

theorem dataBytes_append (a b : List WireFrame) :
    dataBytes (a ++ b) = dataBytes a + dataBytes b := by
  rw [dataBytes, List.map_append, List.sum_append]
  rfl

theorem dataBytesOn_append (id : ℕ) (a b : List WireFrame) :
    dataBytesOn id (a ++ b) = dataBytesOn id a + dataBytesOn id b := by
  rw [dataBytesOn, List.map_append, List.sum_append]
  rfl

namespace ServerConn

variable {δ : Type} {dec : BlockDecoder δ}

def holdings (s : ServerConn δ) (weigh : Writer → ℤ) : ℤ :=
  tally s.writers (fun k => (s.writer k).elim 0 weigh)

def onStream (id : ℕ) (w : Writer) : ℤ := if w.stream = id then w.streamHeld else 0

def heldOn (s : ServerConn δ) (id : ℕ) : ℤ := s.holdings (onStream id)

def heldOfConn (s : ServerConn δ) : ℤ := s.holdings Writer.connHeld

def dueOn (s : ServerConn δ) (id : ℕ) : ℤ := s.adding.elim 0 (fun a => if a.1 = id then a.2 else 0)

def sendWindow (s : ServerConn δ) (id : ℕ) : Window :=
  (s.stream id).elim (Window.new 0) ServerStream.sendW

def streamAccount (s : ServerConn δ) (id : ℕ) (credited : ℤ) : CreditAccount where
  window := s.sendWindow id
  held := s.heldOn id
  spent := dataBytesOn id s.wire
  due := s.dueOn id
  granted := s.clientS.effectiveInitialWindow + credited

def connAccount (s : ServerConn δ) (credited : ℤ) : CreditAccount where
  window := s.sendW
  held := s.heldOfConn
  spent := dataBytes s.wire
  due := s.dueOn 0
  granted := 65535 + credited

variable {k : ℕ} {w : Writer} {s t : ServerConn δ}

theorem holdings_setWriter (s : ServerConn δ) (hk : k < s.writers) (hw : s.writer k = some w)
    (w' : Option Writer) (weigh : Writer → ℤ) :
    (s.setWriter k w').holdings weigh = s.holdings weigh + (w'.elim 0 weigh - weigh w) := by
  have hreplace := tally_replace (v := fun j => ((s.setWriter k w').writer j).elim 0 weigh)
    (w := fun j => (s.writer j).elim 0 weigh) hk ?_
  · have hnew : (s.setWriter k w').writer k = w' := Function.update_self ..
    simp only [hnew, hw, Option.elim_some] at hreplace
    exact hreplace
  · intro j hj
    have hother : (s.setWriter k w').writer j = s.writer j := Function.update_of_ne hj ..
    simp only [hother]

theorem le_holdings {weigh : Writer → ℤ} (h : ∀ k w, s.writer k = some w → 0 ≤ weigh w)
    (hk : k < s.writers) (hw : s.writer k = some w) : weigh w ≤ s.holdings weigh := by
  have hle := le_tally (w := fun k => (s.writer k).elim 0 weigh) ?_ hk
  · simp only [hw, Option.elim_some] at hle
    exact hle
  · intro j
    cases hj : s.writer j with
    | none => exact le_rfl
    | some v => exact h j v hj

theorem holdings_new (s t : ServerConn δ) (w : Writer) (weigh : Writer → ℤ) (hzero : weigh w = 0)
    (hwriter : t.writer = Function.update s.writer s.writers (some w))
    (hwriters : t.writers = s.writers + 1) : t.holdings weigh = s.holdings weigh := by
  unfold holdings
  rw [hwriters, tally_succ, hwriter]
  simp only [Function.update_self, Option.elim_some, hzero, add_zero]
  refine tally_congr ?_
  intro j hj
  rw [Function.update_of_ne (Nat.ne_of_lt hj)]

theorem sendWindow_setStream (s : ServerConn δ) (id j : ℕ) (ss : ServerStream) :
    (s.setStream id ss).sendWindow j = if j = id then ss.sendW else s.sendWindow j := by
  unfold sendWindow setStream
  by_cases hj : j = id
  · subst hj
    simp
  · simp [hj]

theorem sendWindow_same {id : ℕ} {ss ss' : ServerStream} (h : s.stream id = some ss)
    (hsend : ss'.sendW = ss.sendW) (j : ℕ) :
    (s.setStream id ss').sendWindow j = s.sendWindow j := by
  rw [sendWindow_setStream]
  split_ifs with hj
  · subst hj
    simp [sendWindow, h, hsend]
  · rfl

theorem sendWindow_closeStream (s : ServerConn δ) (id j : ℕ) :
    (s.closeStream id).sendWindow j = s.sendWindow j := by
  unfold closeStream
  cases h : s.stream id with
  | none => rfl
  | some ss =>
    have hsend : ({ ss with state := .closed } : ServerStream).sendW = ss.sendW := rfl
    exact sendWindow_same h hsend j

def SoundWriters (s : ServerConn δ) : Prop := ∀ k w, s.writer k = some w → w.Sound

structure AccountsMove (s t : ServerConn δ) : Prop where
  stream : ∀ id credited, id ≠ 0 → s.stream id ≠ none →
    CreditAccount.Moves (s.streamAccount id credited) (t.streamAccount id credited)
  conn : ∀ credited, CreditAccount.Moves (s.connAccount credited) (t.connAccount credited)

theorem heldOn_setWriter (s : ServerConn δ) (hk : k < s.writers) (hw : s.writer k = some w)
    {w' : Option Writer} (hsame : ∀ v ∈ w', v.stream = w.stream) (j : ℕ) :
    (s.setWriter k w').heldOn j =
      s.heldOn j + if w.stream = j then w'.elim 0 Writer.streamHeld - w.streamHeld else 0 := by
  have hold := holdings_setWriter s hk hw w' (onStream j)
  unfold heldOn
  rw [hold]
  congr 1
  cases w' with
  | none =>
    simp only [Option.elim_none, onStream]
    split_ifs <;> rfl
  | some v =>
    have hv := hsame v rfl
    simp only [Option.elim_some, onStream, hv]
    split_ifs <;> rfl

theorem dataOn_of_dataLength (id : ℕ) {f : WireFrame} (hf : f.dataLength = 0) :
    f.dataOn id = 0 := by
  cases f with
  | data j length last =>
    change (length : ℤ) = 0 at hf
    simp only [WireFrame.dataOn, hf, ite_self]
  | _ => rfl

theorem dataBytes_same {fs : List WireFrame} (h : ∀ f ∈ fs, f.dataLength = 0) :
    dataBytes fs = 0 ∧ ∀ id, dataBytesOn id fs = 0 := by
  refine ⟨?_, ?_⟩
  · refine List.sum_eq_zero ?_
    intro x hx
    obtain ⟨f, hf, rfl⟩ := List.mem_map.mp hx
    exact h f hf
  · intro id
    refine List.sum_eq_zero ?_
    intro x hx
    obtain ⟨f, hf, rfl⟩ := List.mem_map.mp hx
    exact dataOn_of_dataLength id (h f hf)

structure SameAccounts (s t : ServerConn δ) : Prop where
  sendW : t.sendW = s.sendW
  window : ∀ j, t.sendWindow j = s.sendWindow j
  held : ∀ j, t.heldOn j = s.heldOn j
  heldOfConn : t.heldOfConn = s.heldOfConn
  wire : ∃ new, t.wire = s.wire ++ new ∧ ∀ f ∈ new, f.dataLength = 0
  adding : t.adding = s.adding
  clientS : t.clientS = s.clientS

theorem SameAccounts.of_parts (hsendW : t.sendW = s.sendW) (hstream : t.stream = s.stream)
    (hwriter : t.writer = s.writer) (hwriters : t.writers = s.writers) (hwire : t.wire = s.wire)
    (hadding : t.adding = s.adding) (hclientS : t.clientS = s.clientS) : SameAccounts s t := by
  refine ⟨hsendW, ?_, ?_, ?_, ⟨[], ?_, ?_⟩, hadding, hclientS⟩
  · intro j
    unfold sendWindow
    rw [hstream]
  · intro j
    unfold heldOn holdings
    rw [hwriter, hwriters]
  · unfold ServerConn.heldOfConn holdings
    rw [hwriter, hwriters]
  · rw [hwire, List.append_nil]
  · intro f hf
    cases hf

theorem SameAccounts.write (h : SameAccounts s t) {f : WireFrame} (hf : f.dataLength = 0) :
    SameAccounts s (t.write f) := by
  obtain ⟨new, hnew, hall⟩ := h.wire
  refine ⟨h.sendW, h.window, h.held, h.heldOfConn, ⟨new ++ [f], ?_, ?_⟩, h.adding, h.clientS⟩
  · change t.wire ++ [f] = _
    rw [hnew, List.append_assoc]
  · intro g hg
    rcases List.mem_append.mp hg with hg | hg
    · exact hall g hg
    · rw [List.mem_singleton.mp hg]
      exact hf

theorem SameAccounts.closeStream (h : SameAccounts s t) (id : ℕ) :
    SameAccounts s (t.closeStream id) := by
  obtain ⟨objects, heq⟩ := closeStream_parts t id
  have hwindow (j : ℕ) := (sendWindow_closeStream t id j).trans (h.window j)
  rw [heq] at hwindow ⊢
  exact ⟨h.sendW, hwindow, h.held, h.heldOfConn, h.wire, h.adding, h.clientS⟩

theorem SameAccounts.streamAccount (h : SameAccounts s t) (id : ℕ) (credited : ℤ) :
    t.streamAccount id credited = s.streamAccount id credited := by
  obtain ⟨new, hnew, hall⟩ := h.wire
  unfold ServerConn.streamAccount dueOn
  rw [h.window, h.held, h.adding, h.clientS, hnew, dataBytesOn_append,
    (dataBytes_same hall).2 id, add_zero]

theorem SameAccounts.connAccount (h : SameAccounts s t) (credited : ℤ) :
    t.connAccount credited = s.connAccount credited := by
  obtain ⟨new, hnew, hall⟩ := h.wire
  unfold ServerConn.connAccount dueOn
  rw [h.sendW, h.heldOfConn, h.adding, hnew, dataBytes_append, (dataBytes_same hall).1, add_zero]

theorem SameAccounts.moves (h : SameAccounts s t) : AccountsMove s t :=
  ⟨fun id credited _ _ => .inl (h.streamAccount id credited),
    fun credited => .inl (h.connAccount credited)⟩

theorem AccountsMove.refl (s : ServerConn δ) : AccountsMove s s :=
  ⟨fun _ _ _ _ => .refl _, fun _ => .refl _⟩

theorem AccountsMove.closeStream (h : AccountsMove s t) (id : ℕ) :
    AccountsMove s (t.closeStream id) := by
  have hsame : SameAccounts t (t.closeStream id) :=
    (SameAccounts.of_parts rfl rfl rfl rfl rfl rfl rfl).closeStream id
  refine ⟨?_, ?_⟩
  · intro j credited hj hobj
    rw [hsame.streamAccount]
    exact h.stream j credited hj hobj
  · intro credited
    rw [hsame.connAccount]
    exact h.conn credited

theorem dueOn_of_adding {id : ℕ} {delta : ℤ} (hadd : s.adding = some (id, delta)) (j : ℕ) :
    s.dueOn j = if id = j then delta else 0 := by
  simp only [dueOn, hadd, Option.elim_some]

theorem moves_credited {delta : ℤ} (hadd : s.adding = some (0, delta)) :
    AccountsMove s { s with adding := none, sendW := s.sendW.replenish delta } := by
  refine ⟨?_, ?_⟩
  · intro j credited hj hobj
    left
    have hzero : s.dueOn j = 0 := by
      rw [dueOn_of_adding hadd, if_neg hj.symm]
    unfold streamAccount
    rw [hzero]
    rfl
  · intro credited
    refine .of_change (c := .add) trivial trivial ?_
    have hall : s.dueOn 0 = delta := by
      rw [dueOn_of_adding hadd, if_pos rfl]
    unfold connAccount CreditAccount.apply
    simp only [hall]
    rfl

theorem connAccount_uncredited {id : ℕ} {delta : ℤ} (hadd : s.adding = some (id, delta))
    (hid : id ≠ 0) (t : ServerConn δ) (ht : t = { s with stream := t.stream, adding := none })
    (credited : ℤ) : t.connAccount credited = s.connAccount credited := by
  have hconn : s.dueOn 0 = 0 := by
    rw [dueOn_of_adding hadd, if_neg hid]
  rw [ht]
  unfold connAccount
  rw [hconn]
  rfl

theorem moves_uncredited {id : ℕ} {delta : ℤ} (hadd : s.adding = some (id, delta)) (hid : id ≠ 0)
    (hnone : s.stream id = none) : AccountsMove s { s with adding := none } := by
  refine ⟨?_, fun credited => .inl (connAccount_uncredited hadd hid _ rfl credited)⟩
  intro j credited hj hobj
  have hother : id ≠ j := by
    rintro rfl
    contradiction
  left
  unfold streamAccount
  rw [dueOn_of_adding hadd, if_neg hother]
  rfl

theorem moves_streamCredited {id : ℕ} {delta : ℤ} {ss : ServerStream}
    (hadd : s.adding = some (id, delta)) (hid : id ≠ 0) (hss : s.stream id = some ss) :
    AccountsMove s
      { s.setStream id { ss with sendW := ss.sendW.replenish delta } with adding := none } := by
  refine ⟨?_, fun credited => .inl (connAccount_uncredited hadd hid _ rfl credited)⟩
  intro j credited hj hobj
  have hwin := sendWindow_setStream s id j { ss with sendW := ss.sendW.replenish delta }
  by_cases hj' : j = id
  · subst hj'
    refine .of_change (c := .add) trivial trivial ?_
    have hold : s.sendWindow j = ss.sendW := by
      simp only [sendWindow, hss, Option.elim_some]
    have hall : s.dueOn j = delta := by
      rw [dueOn_of_adding hadd, if_pos rfl]
    rw [if_pos rfl] at hwin
    unfold CreditAccount.apply streamAccount
    change CreditAccount.mk (sendWindow (s.setStream j _) j) _ _ _ _ = _
    rw [hwin]
    simp only [hall, hold]
    rfl
  · left
    rw [if_neg hj'] at hwin
    unfold streamAccount
    rw [dueOn_of_adding hadd, if_neg (Ne.symm hj'), ← hwin]
    rfl

theorem streamAccount_setBoth (s : ServerConn δ) (hk : k < s.writers) (hw : s.writer k = some w)
    {w' : Option Writer} (hsame : ∀ v ∈ w', v.stream = w.stream) (ss : ServerStream) (j : ℕ)
    (credited : ℤ) :
    ((s.setStream w.stream ss).setWriter k w').streamAccount j credited =
      if j = w.stream then
        { s.streamAccount j credited with
          window := ss.sendW
          held := (s.streamAccount j credited).held +
            (w'.elim 0 Writer.streamHeld - w.streamHeld) }
      else s.streamAccount j credited := by
  have hheld := heldOn_setWriter (s.setStream w.stream ss) hk hw hsame j
  have hwin := sendWindow_setStream s w.stream j ss
  unfold streamAccount
  rw [hheld]
  change CreditAccount.mk ((s.setStream w.stream ss).sendWindow j) _ _ _ _ = _
  rw [hwin]
  by_cases hj : j = w.stream
  · rw [if_pos hj, if_pos hj.symm, if_pos hj]
    rfl
  · rw [if_neg hj, if_neg (Ne.symm hj), if_neg hj, add_zero]
    rfl

theorem connAccount_setWriter (s : ServerConn δ) (hk : k < s.writers) (hw : s.writer k = some w)
    (w' : Option Writer) (credited : ℤ) :
    (s.setWriter k w').connAccount credited =
      { s.connAccount credited with
        held := (s.connAccount credited).held + (w'.elim 0 Writer.connHeld - w.connHeld) } := by
  have hheld := holdings_setWriter s hk hw w' Writer.connHeld
  unfold connAccount
  change CreditAccount.mk _ (ServerConn.holdings _ Writer.connHeld) _ _ _ = _
  rw [hheld]
  rfl

theorem sendWindow_of {id : ℕ} {ss : ServerStream} (h : s.stream id = some ss) :
    s.sendWindow id = ss.sendW := by
  simp only [sendWindow, h, Option.elim_some]

theorem want_pos (h : w.Sound) : 0 < Writer.want w := by
  have hleft := h.some_left
  have hframe := h.frame_pos
  have hwrap : wrap32 (w.remaining : ℤ) = w.remaining := wrap32_of_range (by omega) h.small
  unfold Writer.want
  rw [hwrap]
  split_ifs <;> omega

theorem moves_reserved (hrun : WritersRun s) (hsound : SoundWriters s) (hw : s.writer k = some w)
    {ss : ServerStream} (hss : s.stream w.stream = some ss) (hphase : w.phase = .stream)
    (hsome : 0 < ss.sendW.n) : AccountsMove s
      ((s.setStream w.stream
        { ss with sendW := ss.sendW.take (ss.sendW.offer (Writer.want w)) }).setWriter k
        (some { w with phase := .conn, streamTaken := ss.sendW.offer (Writer.want w) })) := by
  have hk := (hrun k w hw).1
  have hpos := Window.offer_pos ss.sendW _ hsome (want_pos (hsound k w hw))
  have hle := Window.offer_le ss.sendW (Writer.want w)
  obtain ⟨hbefore, hbefore'⟩ := Writer.held_stream hphase
  generalize ss.sendW.offer (Writer.want w) = taken at hpos hle ⊢
  have hafter := Writer.held_conn (w := { w with phase := .conn, streamTaken := taken }) rfl
  refine ⟨?_, ?_⟩
  · intro j credited hj hobj
    rw [streamAccount_setBoth s hk hw (by simp)]
    split_ifs with hjw
    · have hwin : (s.streamAccount j credited).window = ss.sendW := by
        rw [hjw]
        exact sendWindow_of hss
      refine CreditAccount.Moves.reserve hpos ?_ ?_ ?_
      · rw [hwin]
        exact hle
      · rw [hwin]
      · rw [Option.elim_some, hbefore, sub_zero]
        exact hafter.1
    · exact .refl _
  · intro credited
    rw [connAccount_setWriter (s.setStream w.stream _) hk hw]
    refine .keep rfl ?_
    rw [Option.elim_some, hbefore', sub_zero]
    exact hafter.2

theorem streamAccount_setWriter (s : ServerConn δ) (hk : k < s.writers) (hw : s.writer k = some w)
    {w' : Option Writer} (hsame : ∀ v ∈ w', v.stream = w.stream) (j : ℕ) (credited : ℤ) :
    (s.setWriter k w').streamAccount j credited =
      { s.streamAccount j credited with
        held := (s.streamAccount j credited).held +
          if w.stream = j then w'.elim 0 Writer.streamHeld - w.streamHeld else 0 } := by
  have hheld := heldOn_setWriter s hk hw hsame j
  unfold streamAccount
  rw [hheld]
  rfl

theorem streamHeld_nonneg (h : w.Sound) : 0 ≤ w.streamHeld := by
  cases hphase : w.phase with
  | stream => exact (Writer.held_stream hphase).1.ge
  | conn =>
    rw [(Writer.held_conn hphase).1]
    exact (h.conn hphase).1.le
  | refund =>
    rw [(Writer.held_refund hphase).1]
    obtain ⟨hpos, hless, -⟩ := h.refund hphase
    omega
  | write =>
    rw [(Writer.held_write hphase).1]
    exact (h.write hphase).1.le

theorem connHeld_nonneg (h : w.Sound) : 0 ≤ w.connHeld := by
  cases hphase : w.phase with
  | stream => exact (Writer.held_stream hphase).2.ge
  | conn => exact (Writer.held_conn hphase).2.ge
  | refund =>
    rw [(Writer.held_refund hphase).2]
    exact (h.refund hphase).1.le
  | write =>
    rw [(Writer.held_write hphase).2]
    exact (h.write hphase).1.le

theorem streamHeld_le (hsound : SoundWriters s) (hk : k < s.writers) (hw : s.writer k = some w) :
    w.streamHeld ≤ s.heldOn w.stream := by
  have hnonneg (i : ℕ) (v : Writer) (hv : s.writer i = some v) : 0 ≤ onStream w.stream v := by
    have hv := hsound i v hv
    unfold onStream
    split_ifs
    · exact streamHeld_nonneg hv
    · exact le_rfl
  have hle := le_holdings hnonneg hk hw
  rw [onStream, if_pos rfl] at hle
  exact hle

theorem connHeld_le (hsound : SoundWriters s) (hk : k < s.writers) (hw : s.writer k = some w) :
    w.connHeld ≤ s.heldOfConn :=
  le_holdings (fun i v hv => connHeld_nonneg (hsound i v hv)) hk hw

theorem moves_granted (hrun : WritersRun s) (hsound : SoundWriters s) (hw : s.writer k = some w)
    (hphase : w.phase = .conn) (hsome : 0 < s.sendW.n) : AccountsMove s
      (({ s with sendW := s.sendW.take (s.sendW.offer w.streamTaken) } : ServerConn δ).setWriter k
        (some { w with
          phase := if s.sendW.offer w.streamTaken < w.streamTaken then .refund else .write
          connTaken := s.sendW.offer w.streamTaken })) := by
  have hk := (hrun k w hw).1
  obtain ⟨htaken, -⟩ := (hsound k w hw).conn hphase
  have hpos := Window.offer_pos s.sendW _ hsome htaken
  have hle := Window.offer_le s.sendW w.streamTaken
  have hmax := Window.offer_le_max s.sendW w.streamTaken
  obtain ⟨hbefore, hbefore'⟩ := Writer.held_conn hphase
  generalize s.sendW.offer w.streamTaken = taken at hpos hle hmax ⊢
  let w' : Writer := { w with
    phase := if taken < w.streamTaken then .refund else .write
    connTaken := taken }
  have hafter : w'.streamHeld = w.streamTaken ∧ w'.connHeld = taken := by
    by_cases hless : taken < w.streamTaken
    · exact Writer.held_refund (w := w') (if_pos hless)
    · have hall : taken = w.streamTaken := by omega
      obtain ⟨hs, hc⟩ := Writer.held_write (w := w') (if_neg hless)
      exact ⟨hs.trans hall, hc⟩
  refine ⟨?_, ?_⟩
  · intro j credited hj hobj
    rw [streamAccount_setWriter { s with sendW := s.sendW.take taken } hk hw (by simp)]
    refine .keep rfl ?_
    by_cases hjw : w.stream = j
    · rw [if_pos hjw, Option.elim_some, hbefore]
      exact sub_eq_zero.mpr hafter.1
    · exact if_neg hjw
  · intro credited
    rw [connAccount_setWriter { s with sendW := s.sendW.take taken } hk hw]
    refine CreditAccount.Moves.reserve hpos hle rfl ?_
    rw [Option.elim_some, hbefore', sub_zero]
    exact hafter.2

theorem moves_giveBack (hrun : WritersRun s) (hsound : SoundWriters s) (hw : s.writer k = some w)
    {ss : ServerStream} (hss : s.stream w.stream = some ss) {part : ℤ} (hpart : 0 ≤ part)
    (hle : part ≤ w.streamHeld) {o : Option Writer} (hsame : ∀ v ∈ o, v.stream = w.stream)
    (hheld : o.elim 0 Writer.streamHeld = w.streamHeld - part)
    (hconn : o.elim 0 Writer.connHeld = w.connHeld) : AccountsMove s
      ((s.setStream w.stream { ss with sendW := ss.sendW.replenish part }).setWriter k o) := by
  have hk := (hrun k w hw).1
  have hall := streamHeld_le hsound hk hw
  refine ⟨?_, ?_⟩
  · intro j credited hj hobj
    rw [streamAccount_setBoth s hk hw hsame]
    split_ifs with hjw
    · have hwin : (s.streamAccount j credited).window = ss.sendW := by
        rw [hjw]
        exact sendWindow_of hss
      have hless : part ≤ (s.streamAccount j credited).held := by
        rw [hjw]
        exact hle.trans hall
      refine CreditAccount.Moves.giveBack hpart hless ?_ ?_
      · rw [hwin]
      · rw [hheld]
        omega
    · exact .refl _
  · intro credited
    rw [connAccount_setWriter (s.setStream w.stream _) hk hw]
    refine .keep rfl ?_
    rw [hconn]
    exact sub_self _

theorem moves_refunded (hrun : WritersRun s) (hsound : SoundWriters s) (hw : s.writer k = some w)
    {ss : ServerStream} (hss : s.stream w.stream = some ss) (hphase : w.phase = .refund) :
    AccountsMove s ((s.setStream w.stream
      { ss with sendW := ss.sendW.replenish (w.streamTaken - w.connTaken) }).setWriter k
      (some { w with phase := .write, streamTaken := w.connTaken })) := by
  obtain ⟨hpos, hless, -⟩ := (hsound k w hw).refund hphase
  obtain ⟨hbefore, hbefore'⟩ := Writer.held_refund hphase
  have hafter := Writer.held_write (w := { w with phase := .write, streamTaken := w.connTaken }) rfl
  refine moves_giveBack hrun hsound hw hss (by omega) (by omega) (by simp) ?_ ?_
  · rw [Option.elim_some, hafter.1, hbefore]
    exact (sub_sub_cancel _ _).symm
  · rw [Option.elim_some, hafter.2, hbefore']

theorem moves_spent (hsound : SoundWriters s) (hk : k < s.writers) (hw : s.writer k = some w)
    (hphase : w.phase = .write) (last : Bool) {o : Option Writer}
    (hsame : ∀ v ∈ o, v.stream = w.stream) (hidle : ∀ v ∈ o, v.phase = .stream) :
    AccountsMove s ((s.write (.data w.stream w.connTaken.toNat last)).setWriter k o) := by
  obtain ⟨hpos, -⟩ := (hsound k w hw).write hphase
  obtain ⟨hbefore, hbefore'⟩ := Writer.held_write hphase
  have hnat : (w.connTaken.toNat : ℤ) = w.connTaken := Int.toNat_of_nonneg hpos.le
  have hafter : o.elim 0 Writer.streamHeld = 0 ∧ o.elim 0 Writer.connHeld = 0 := by
    cases o with
    | none => exact ⟨rfl, rfl⟩
    | some v => exact Writer.held_stream (hidle v rfl)
  let t : ServerConn δ := s.write (.data w.stream w.connTaken.toNat last)
  have hdata (j : ℕ) : dataBytesOn j t.wire =
      dataBytesOn j s.wire + if w.stream = j then w.connTaken else 0 := by
    change dataBytesOn j (s.wire ++ [_]) = _
    rw [dataBytesOn_append]
    simp only [dataBytesOn, List.map_cons, List.map_nil, List.sum_singleton, WireFrame.dataOn,
      hnat]
  have hdata' : dataBytes t.wire = dataBytes s.wire + w.connTaken := by
    change dataBytes (s.wire ++ [_]) = _
    rw [dataBytes_append]
    simp only [dataBytes, List.map_cons, List.map_nil, List.sum_singleton, WireFrame.dataLength,
      hnat]
  refine ⟨?_, ?_⟩
  · intro j credited hj hobj
    rw [streamAccount_setWriter t hk hw hsame]
    by_cases hjw : w.stream = j
    · have hheld : w.connTaken ≤ (s.streamAccount j credited).held := by
        have hle := streamHeld_le hsound hk hw
        rw [hbefore, hjw] at hle
        exact hle
      have hspent : t.streamAccount j credited =
          { s.streamAccount j credited with
            spent := (s.streamAccount j credited).spent + w.connTaken } := by
        unfold streamAccount
        rw [hdata, if_pos hjw]
        rfl
      rw [hspent]
      refine CreditAccount.Moves.spend hpos.le hheld ?_
      rw [if_pos hjw, hafter.1, hbefore, zero_sub]
    · have hsame' : t.streamAccount j credited = s.streamAccount j credited := by
        unfold streamAccount
        rw [hdata, if_neg hjw, add_zero]
        rfl
      rw [hsame']
      exact .keep rfl (if_neg hjw)
  · intro credited
    have hheld : w.connTaken ≤ (s.connAccount credited).held := by
      have hle := connHeld_le hsound hk hw
      rw [hbefore'] at hle
      exact hle
    have hspent : t.connAccount credited =
        { s.connAccount credited with
          spent := (s.connAccount credited).spent + w.connTaken } := by
      unfold connAccount
      rw [hdata']
      rfl
    rw [connAccount_setWriter t hk hw, hspent]
    refine CreditAccount.Moves.spend hpos.le hheld ?_
    rw [hafter.2, hbefore', zero_sub]

theorem moves_dropped (hrun : WritersRun s) (hw : s.writer k = some w)
    (hphase : w.phase = .stream) : AccountsMove s (s.setWriter k none) := by
  have hk := (hrun k w hw).1
  obtain ⟨hbefore, hbefore'⟩ := Writer.held_stream hphase
  refine ⟨?_, ?_⟩
  · intro j credited hj hobj
    rw [streamAccount_setWriter s hk hw (by simp)]
    refine .keep rfl ?_
    rw [Option.elim_none, hbefore, sub_zero, ite_self]
  · intro credited
    rw [connAccount_setWriter s hk hw]
    refine .keep rfl ?_
    rw [Option.elim_none, hbefore', sub_zero]

theorem moves_started (s : ServerConn δ) (id len : ℕ) (endStream : Bool) : AccountsMove s { s with
    writer := Function.update s.writer s.writers (some (s.newWriter id len endStream))
    writers := s.writers + 1 } := by
  obtain ⟨hstream, hconn⟩ := Writer.held_stream (w := s.newWriter id len endStream) rfl
  refine SameAccounts.moves ⟨rfl, fun _ => rfl, ?_, ?_, ⟨[], (List.append_nil _).symm, ?_⟩, rfl,
    rfl⟩
  · intro j
    refine holdings_new s _ (s.newWriter id len endStream) (onStream j) ?_ rfl rfl
    rw [onStream, hstream, ite_self]
  · exact holdings_new s _ (s.newWriter id len endStream) Writer.connHeld hconn rfl rfl
  · intro f hf
    cases hf

theorem moves_step (dec : BlockDecoder δ) (hrun : WritersRun s) (hsound : SoundWriters s)
    {e : Event} (he : e.frame? = none) : AccountsMove s (step dec s e) := by
  have same : SameAccounts s s := .of_parts rfl rfl rfl rfl rfl rfl rfl
  refine acts_induct he (.refl s) fun t ht => ?_
  cases ht with
  | credited hadd => exact moves_credited hadd
  | uncredited hadd hid hnone => exact moves_uncredited hadd hid hnone
  | streamCredited hadd hid hss => exact moves_streamCredited hadd hid hss
  | headers _ => exact (same.write rfl).moves
  | lastHeaders _ | lastData _ | reset => exact ((same.write rfl).closeStream _).moves
  | started _ _ => exact moves_started s _ _ _
  | ended => exact (same.closeStream _).moves
  | reserved hw hss hphase hsome => exact moves_reserved hrun hsound hw hss hphase hsome
  | granted hw hphase hsome => exact moves_granted hrun hsound hw hphase hsome
  | refunded hw hss hphase => exact moves_refunded hrun hsound hw hss hphase
  | wroteLast hw hphase last =>
    have hk := (hrun _ _ hw).1
    exact (moves_spent (o := none) hsound hk hw hphase last (by simp) (by simp)).closeStream _
  | wroteAll hw hphase last | wroteSome hw hphase _ last =>
    exact moves_spent hsound (hrun _ _ hw).1 hw hphase last (by simp) (by simp)
  | dropped hw hphase => exact moves_dropped hrun hw hphase
  | givenBack hw hss hphase =>
    obtain ⟨hpos, -⟩ := (hsound _ _ hw).conn hphase
    obtain ⟨hbefore, hbefore'⟩ := Writer.held_conn hphase
    refine moves_giveBack hrun hsound hw hss hpos.le hbefore.ge (by simp) ?_ ?_
    · rw [Option.elim_none, hbefore, sub_self]
    · rw [Option.elim_none, hbefore']
  | @finished id _ _ =>
    have hclosed := same.closeStream id
    exact SameAccounts.moves ⟨hclosed.sendW, hclosed.window, hclosed.held, hclosed.heldOfConn,
      hclosed.wire, hclosed.adding, hclosed.clientS⟩
  | _ => exact SameAccounts.moves (.of_parts rfl rfl rfl rfl rfl rfl rfl)

end ServerConn

end EnvoyGo.H2

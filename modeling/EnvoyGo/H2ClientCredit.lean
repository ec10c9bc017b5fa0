import EnvoyGo.H2ClientAccounts

/-!
What an upstream connection may send on a stream: the peer's `INITIAL_WINDOW_SIZE` and its window
updates for the stream, as an observer of the peer's frames counts them.
-/

namespace EnvoyGo.H2

open Runs
open ServerConn (creditOn creditOn_append)

def peerWindow (settings : List Setting) : ℤ :=
  ((lastValue settings .initialWindowSize).getD 65535 : ℕ)

def PeerFrame.increment? : PeerFrame → Option (ℕ × ℤ)
  | .windowUpdate id increment => some (id, increment.val)
  | _ => none

def ClientEvent.starts? : ClientEvent → Option ℕ
  | .start len => some len
  | _ => none

namespace ClientConn

variable {δ : Type}

def updated (s : ClientConn δ) (e : ClientEvent) : List (ℕ × ℤ) :=
  match e.frame? with
  | none => []
  | some f => if s.Takes f then f.increment?.toList else []

/-- The connection next to what the peer has sent: its parameters from the handshake on, and its
window updates.  `seeded` is the send window that each stream was given. -/
structure Watched (δ : Type) where
  conn : ClientConn δ
  settings : List Setting
  updates : List (ℕ × ℤ) := []
  seeded : ℕ → ℤ := fun _ => 0

namespace Watched

def new (hpack : δ) (params : List Setting) (serverS : ClientSettings) : Watched δ :=
  { conn := newClientConn hpack serverS, settings := params }

def step (dec : BlockDecoder δ) (o : Watched δ) (e : ClientEvent) : Watched δ where
  conn := ClientConn.step dec o.conn e
  settings := o.settings ++ o.conn.accepted e
  updates := o.updates ++ o.conn.updated e
  seeded :=
    if e.starts? = none then o.seeded
    else Function.update o.seeded (o.conn.nextStreamID + 1) o.conn.newClientStream.sendW.n

def run (dec : BlockDecoder δ) (o : Watched δ) (es : List ClientEvent) : Watched δ :=
  es.foldl (step dec) o

def allowance (o : Watched δ) (id : ℕ) : ℤ := peerWindow o.settings + creditOn id o.updates

def ReservedSince (dec : BlockDecoder δ) (o : Watched δ) (es : List ClientEvent) (id : ℕ) : Prop :=
  ∃ before after, es = before ++ .reserveStream id :: after ∧
    (run dec o (before ++ [.reserveStream id])).conn.call id ≠ (run dec o before).conn.call id ∧
    (run dec o es).settings = (run dec o before).settings

/-- Whenever a DATA frame is written on a stream, the bytes written there with it are within the
allowance, unless the reservation for it is older than the last SETTINGS frame. -/
def SpendsWithin (dec : BlockDecoder δ) (o : Watched δ) (es : List ClientEvent) : Prop :=
  ∀ earlier e later id length last, es = earlier ++ e :: later →
    (run dec o (earlier ++ [e])).conn.wire =
      (run dec o earlier).conn.wire ++ [.data id length last] →
    ReservedSince dec o earlier id →
    dataBytesOn id (run dec o (earlier ++ [e])).conn.wire ≤ (run dec o earlier).allowance id

/-- A body is shorter than 2^31 bytes and does not start while the peer's window is announced as 0,
and no SETTINGS frame puts the window below what a stream with a body to write was given. -/
def Safe (o : Watched δ) (e : ClientEvent) : Prop :=
  (∀ len ∈ e.starts?, o.conn.closed = false →
    len < 2^31 ∧ (0 < len → lastValue o.settings .initialWindowSize ≠ some 0)) ∧
  (o.conn.accepted e ≠ [] → ∀ id ∈ o.conn.streams, o.conn.sends id = true →
    o.seeded id ≤ peerWindow (o.settings ++ o.conn.accepted e))

instance (o : Watched δ) (e : ClientEvent) : Decidable (o.Safe e) :=
  inferInstanceAs (Decidable (_ ∧ _))

end Watched

theorem value_step (dec : BlockDecoder δ) (s : ClientConn δ) (e : ClientEvent) {id : SettingID}
    (hid : id.kept = true) : (step dec s e).serverS.value id =
      (lastValue (s.accepted e) id).getD (s.serverS.value id) := by
  by_cases he : e.frame? = none
  · rw [(sameCodec_local dec s he).serverS]
    unfold accepted
    rw [he]
    rfl
  · cases e with
    | frame f =>
      cases hparams : f.params? with
      | none =>
        rw [accepted_frame_of_none hparams]
        rcases frame_settings dec s f with ⟨hsame, -⟩ | ⟨params, -, hsome, -⟩
        · rw [hsame]
          rfl
        · rw [hparams] at hsome
          cases hsome
      | some params =>
        rw [accepted_frame_of_some hparams]
        obtain rfl := PeerFrame.eq_of_params? hparams
        split_ifs with htakes
        · rw [step_frame_taken htakes, (sameCodec_answer _ _).serverS]
          exact value_applySettings s params hid
        · rw [(sameCodec_frame dec s (fun h => absurd h htakes)).serverS]
          rfl
    | _ => exact absurd rfl he

theorem sends_congr {s t : ClientConn δ} {id : ℕ} (h : t.call id = s.call id) :
    t.sends id = s.sends id := by
  unfold sends
  rw [h]

theorem sends_caller (dec : BlockDecoder δ) (s : ClientConn δ) {e : ClientEvent} {id : ℕ}
    (he : e.caller? = some id) (h : (step dec s e).sends id = true) : s.sends id = true := by
  have hbody {w : Writer} (hcall : s.call id = some (.body w)) : s.sends id = true := by
    unfold sends
    rw [hcall]
  have hother (heq : e = .cancel id ∨ e = .deliver id ∨ e = .loseConn id ∨ e = .leave id) :
      s.sends id = true := by
    rcases Sending.leaves_or_same dec s id heq with hleaves | hsame
    · rw [hleaves] at h
      cases h
    · rw [hsame] at h
      exact h
  cases e with
  | frame f => cases he
  | addCredit => cases he
  | close => cases he
  | start len => cases he
  | headers j =>
    obtain rfl := Option.some.inj he
    simp only [step, writeRequest] at h
    split at h
    · rename_i len hcall
      by_cases hlen : len = 0
      · simp only [hlen, if_true, sends, setCall_self] at h
        cases h
      · unfold sends
        rw [hcall]
        exact decide_eq_true (Nat.pos_of_ne_zero hlen)
    · exact h
  | reserveStream j =>
    obtain rfl := Option.some.inj he
    simp only [step, reserveStream] at h
    split at h
    · rename_i w cs hcall hstream
      exact hbody hcall
    · exact h
  | reserveConn j =>
    obtain rfl := Option.some.inj he
    simp only [step, reserveConn] at h
    split at h
    · rename_i w hcall
      exact hbody hcall
    · exact h
  | refund j =>
    obtain rfl := Option.some.inj he
    simp only [step, refund] at h
    split at h
    · rename_i w cs hcall hstream
      exact hbody hcall
    · exact h
  | chunk j =>
    obtain rfl := Option.some.inj he
    simp only [step, writeChunk] at h
    split at h
    · rename_i w hcall
      exact hbody hcall
    · exact h
  | cancel j =>
    obtain rfl := Option.some.inj he
    exact hother (.inl rfl)
  | deliver j =>
    obtain rfl := Option.some.inj he
    exact hother (.inr (.inl rfl))
  | loseConn j =>
    obtain rfl := Option.some.inj he
    exact hother (.inr (.inr (.inl rfl)))
  | leave j =>
    obtain rfl := Option.some.inj he
    exact hother (.inr (.inr (.inr rfl)))

theorem streams_caller (dec : BlockDecoder δ) (s : ClientConn δ) {e : ClientEvent} {id : ℕ}
    (he : e.caller? = some id) : (step dec s e).streams ⊆ s.streams := by
  cases callMove_local dec s (ClientEvent.frame?_of_caller he) with
  | still hsame => rw [hsame.streams]
  | advanced j c hlive hcall hstreams hnext hexits => rw [hstreams]
  | exited j exit hlive hcause hcall hstreams hnext hexits => rw [hstreams]
  | left j hcall hstreams hnext hexits =>
    rw [hstreams]
    exact Finset.erase_subset j s.streams
  | opened c hcall hstream hstreams hnext hexits =>
    have hsame := (untouched_caller dec s he (Nat.succ_ne_self id)).next
    omega

theorem creditOn_nonneg {updates : List (ℕ × ℤ)} (h : ∀ c ∈ updates, 0 ≤ c.2) (id : ℕ) :
    0 ≤ creditOn id updates := by
  refine List.sum_nonneg ?_
  intro x hx
  obtain ⟨c, hc, rfl⟩ := List.mem_map.mp hx
  split_ifs
  · exact h c hc
  · exact le_rfl

theorem updated_nonneg (s : ClientConn δ) (e : ClientEvent) : ∀ c ∈ s.updated e, 0 ≤ c.2 := by
  intro c hc
  unfold updated at hc
  split at hc
  · cases hc
  · split_ifs at hc
    · rename_i f _ _
      cases f with
      | windowUpdate j increment =>
        rw [List.mem_singleton.mp hc]
        exact Int.natCast_nonneg _
      | _ => cases hc
    · cases hc

theorem newClientStream_window {s : ClientConn δ} {settings : List Setting}
    (hrecorded : s.serverS.initialWindowSize = (lastValue settings .initialWindowSize).getD 0)
    (hzero : lastValue settings .initialWindowSize ≠ some 0) :
    s.newClientStream.sendW.n ≤ peerWindow settings := by
  have hn : s.newClientStream.sendW.n = if wrap32 s.serverS.initialWindowSize ≤ 0 then 65535
      else wrap32 s.serverS.initialWindowSize := by
    change wrap32 (if wrap32 _ ≤ 0 then 65535 else wrap32 _) = _
    have hrange := wrap32_range (s.serverS.initialWindowSize : ℤ)
    split_ifs
    · rfl
    · exact wrap32_of_range hrange.1 hrange.2
  rw [hn, hrecorded]
  unfold peerWindow
  cases hlast : lastValue settings .initialWindowSize with
  | none => decide
  | some v =>
    have hv : v ≠ 0 := by
      rintro rfl
      exact hzero hlast
    have hle := wrap32_le (x := (v : ℤ)) (by omega)
    simp only [Option.getD_some]
    unfold wrap32 at hle ⊢
    split_ifs
    · omega
    · exact hle

theorem start_of_open {s : ClientConn δ} (hopen : s.closed = false) (len : ℕ) :
    s.start len =
      { (s.setStream (s.nextStreamID + 1) s.newClientStream).setCall (s.nextStreamID + 1)
          (some (.headers len)) with
        nextStreamID := s.nextStreamID + 2
        streams := insert (s.nextStreamID + 1) s.streams } := by
  unfold start
  rw [hopen]
  rfl

namespace Watched

structure Solid (o : Watched δ) : Prop where
  recorded : o.conn.serverS.initialWindowSize = (lastValue o.settings .initialWindowSize).getD 0
  nonneg : ∀ c ∈ o.updates, 0 ≤ c.2
  listed : ∀ id ∈ o.conn.streams, id ≠ 0 ∧ id ≤ o.conn.nextStreamID
  unborn : ∀ id, o.conn.nextStreamID < id →
    o.conn.call id = none ∧ dataBytesOn id o.conn.wire = 0
  adding : ∀ a ∈ o.conn.adding, a.1 ≤ o.conn.nextStreamID
  seeds : ∀ id, o.conn.sends id = true → o.seeded id ≤ peerWindow o.settings
  sending : ∀ id, o.conn.sends id = true →
    Sending o.conn id (o.seeded id + creditOn id o.updates)

theorem solid_new (hpack : δ) {params : List Setting} {serverS : ClientSettings}
    (hread : readClientSettings params = .ok serverS) : Solid (new hpack params serverS) := by
  refine ⟨?_, ?_, ?_, ?_, ?_, ?_, ?_⟩
  · unfold readClientSettings at hread
    split at hread
    · cases hread
    · obtain rfl := Except.ok.inj hread
      exact value_announceAll {} params (show SettingID.kept .initialWindowSize = true from rfl)
  · intro c hc
    cases hc
  · intro id hid
    cases hid
  · intro id _
    exact ⟨rfl, rfl⟩
  · intro a ha
    cases ha
  · intro id hid
    cases hid
  · intro id hid
    cases hid

section Step

variable {o : Watched δ} {e : ClientEvent}

theorem Solid.recorded_step (h : Solid o) (dec : BlockDecoder δ) (e : ClientEvent) :
    (o.step dec e).conn.serverS.initialWindowSize =
      (lastValue (o.step dec e).settings .initialWindowSize).getD 0 := by
  have hvalue := value_step dec o.conn e (show SettingID.kept .initialWindowSize = true from rfl)
  change (ClientConn.step dec o.conn e).serverS.initialWindowSize =
    (lastValue (o.conn.accepted e) .initialWindowSize).getD
      o.conn.serverS.initialWindowSize at hvalue
  change (ClientConn.step dec o.conn e).serverS.initialWindowSize =
    (lastValue (o.settings ++ o.conn.accepted e) .initialWindowSize).getD 0
  rw [hvalue, lastValue_append, h.recorded]
  cases lastValue (o.conn.accepted e) .initialWindowSize with
  | none => rfl
  | some v => rfl

theorem Solid.nonneg_step (h : Solid o) (dec : BlockDecoder δ) (e : ClientEvent) :
    ∀ c ∈ (o.step dec e).updates, 0 ≤ c.2 := by
  intro c hc
  rcases List.mem_append.mp hc with hc | hc
  · exact h.nonneg c hc
  · exact updated_nonneg o.conn e c hc

theorem Solid.keep (h : Solid o) (dec : BlockDecoder δ) (hsafe : o.Safe e)
    (hstarts : e.starts? = none)
    (hnext : (ClientConn.step dec o.conn e).nextStreamID = o.conn.nextStreamID)
    (hstreams : (ClientConn.step dec o.conn e).streams ⊆ o.conn.streams)
    (hunborn : ∀ id, o.conn.nextStreamID < id →
      (ClientConn.step dec o.conn e).call id = none ∧
        dataBytesOn id (ClientConn.step dec o.conn e).wire = 0)
    (hadding : ∀ a ∈ (ClientConn.step dec o.conn e).adding, a.1 ≤ o.conn.nextStreamID)
    (hsends : ∀ id, (ClientConn.step dec o.conn e).sends id = true → o.conn.sends id = true)
    (hsending : ∀ id granted, id ≠ 0 → (ClientConn.step dec o.conn e).sends id = true →
      Sending o.conn id granted →
      Sending (ClientConn.step dec o.conn e) id (granted + creditOn id (o.conn.updated e))) :
    Solid (o.step dec e) := by
  have hseeded : (o.step dec e).seeded = o.seeded := if_pos hstarts
  refine ⟨h.recorded_step dec e, h.nonneg_step dec e, ?_, ?_, ?_, ?_, ?_⟩
  · intro id hid
    change _ ∧ id ≤ (ClientConn.step dec o.conn e).nextStreamID
    rw [hnext]
    exact h.listed id (hstreams hid)
  · intro id hid
    change (ClientConn.step dec o.conn e).nextStreamID < id at hid
    rw [hnext] at hid
    exact hunborn id hid
  · intro a ha
    change a.1 ≤ (ClientConn.step dec o.conn e).nextStreamID
    rw [hnext]
    exact hadding a ha
  · intro id hid
    have hold := hsends id hid
    rw [hseeded]
    change o.seeded id ≤ peerWindow (o.settings ++ o.conn.accepted e)
    by_cases hnil : o.conn.accepted e = []
    · rw [hnil, List.append_nil]
      exact h.seeds id hold
    · exact hsafe.2 hnil id (h.sending id hold).mem hold
  · intro id hid
    have hold := hsends id hid
    have hne := (h.listed id (h.sending id hold).mem).1
    rw [hseeded]
    change Sending (ClientConn.step dec o.conn e) id
      (o.seeded id + creditOn id (o.updates ++ o.conn.updated e))
    rw [creditOn_append, ← add_assoc]
    exact hsending id _ hne hid (h.sending id hold)

theorem Solid.frame (h : Solid o) (dec : BlockDecoder δ) (f : PeerFrame)
    (hsafe : o.Safe (.frame f)) : Solid (o.step dec (.frame f)) := by
  rcases frame_cases dec o.conn f with hsame | ⟨j, increment, hf, htakes, hmem, hadded⟩
  · have hnext := (hsame 0).next
    have hcall (id : ℕ) := (hsame id).call
    refine h.keep dec hsafe rfl hnext (fun id hid => (hsame id).listed.mp hid) ?_ ?_ ?_ ?_
    · intro id hid
      rw [hcall, (hsame id).spent]
      exact h.unborn id hid
    · rw [(hsame 0).adding]
      exact h.adding
    · intro id hid
      rw [sends_congr (hcall id)] at hid
      exact hid
    · intro id granted _ _ hold
      exact (hold.untouched (hsame id)).mono
        (creditOn_nonneg (updated_nonneg o.conn (.frame f)) id)
  · subst hf
    have hidle : o.conn.adding = none := htakes.2.1
    have hupdated : o.conn.updated (.frame (.windowUpdate j increment)) =
        [(j, (increment.val : ℤ))] := if_pos htakes
    refine h.keep dec hsafe rfl ?_ ?_ ?_ ?_ ?_ ?_
    · rw [hadded]
    · rw [hadded]
    · rw [hadded]
      exact h.unborn
    · rw [hadded]
      intro a ha
      obtain rfl := Option.some.inj ha
      rcases hmem with hzero | hmem
      · rw [hzero]
        exact Nat.zero_le _
      · exact (h.listed j hmem).2
    · rw [hadded]
      exact fun id hid => hid
    · intro id granted _ _ hold
      have hcredit : creditOn id (o.conn.updated (.frame (.windowUpdate j increment))) =
          if j = id then (increment.val : ℤ) else 0 := by
        rw [hupdated]
        exact add_zero _
      have hdue : o.conn.dueOn id = 0 := by
        unfold dueOn
        rw [hidle]
        rfl
      rw [hadded, hcredit]
      by_cases hj : j = id
      · subst hj
        rw [if_pos rfl]
        refine ⟨hold.mem, hold.object, hold.short, hold.sound, ?_⟩
        have haccepted := hold.account.apply (c := .accept increment.val)
          (Int.natCast_nonneg _) trivial
        convert haccepted using 1
        unfold streamAccount CreditAccount.apply
        dsimp only
        rw [hdue, zero_add]
        congr 1
        exact if_pos rfl
      · rw [if_neg hj, add_zero]
        refine ⟨hold.mem, hold.object, hold.short, hold.sound, ?_⟩
        convert hold.account using 1
        unfold streamAccount
        rw [hdue]
        congr 1
        exact if_neg hj

theorem updated_of_no_frame {s : ClientConn δ} (he : e.frame? = none) (id : ℕ) :
    creditOn id (s.updated e) = 0 := by
  unfold updated
  rw [he]
  rfl

theorem Solid.caller (h : Solid o) (dec : BlockDecoder δ) {id : ℕ} (he : e.caller? = some id)
    (hsafe : o.Safe e) : Solid (o.step dec e) := by
  have hother {j : ℕ} (hj : j ≠ id) := untouched_caller dec o.conn he hj
  have hbeside := hother (Nat.succ_ne_self id)
  have hstarts : e.starts? = none := by
    cases e with
    | start len => cases he
    | _ => rfl
  refine h.keep dec hsafe hstarts hbeside.next (streams_caller dec o.conn he) ?_ ?_ ?_ ?_
  · intro j hj
    by_cases hid : j = id
    · subst hid
      rw [step_of_no_call dec he (h.unborn j hj).1]
      exact h.unborn j hj
    · rw [(hother hid).call, (hother hid).spent]
      exact h.unborn j hj
  · rw [hbeside.adding]
    exact h.adding
  · intro j hj
    by_cases hid : j = id
    · subst hid
      exact sends_caller dec o.conn he hj
    · rw [sends_congr (hother hid).call] at hj
      exact hj
  · intro j granted _ hj hold
    rw [updated_of_no_frame (ClientEvent.frame?_of_caller he), add_zero]
    by_cases hid : j = id
    · subst hid
      exact hold.caller dec he hj
    · exact hold.untouched (hother hid)

theorem Solid.addCredit (h : Solid o) (dec : BlockDecoder δ) (hsafe : o.Safe .addCredit) :
    Solid (o.step dec .addCredit) := by
  have hparts : o.conn.addCredit.nextStreamID = o.conn.nextStreamID ∧
      o.conn.addCredit.streams = o.conn.streams ∧ o.conn.addCredit.call = o.conn.call ∧
      o.conn.addCredit.wire = o.conn.wire ∧ o.conn.addCredit.adding = none := by
    unfold ClientConn.addCredit
    split
    · rename_i hnone
      exact ⟨rfl, rfl, rfl, rfl, hnone⟩
    · exact ⟨rfl, rfl, rfl, rfl, rfl⟩
    · split
      · exact ⟨rfl, rfl, rfl, rfl, rfl⟩
      · exact ⟨rfl, rfl, rfl, rfl, rfl⟩
  obtain ⟨hnext, hstreams, hcall, hwire, hadding⟩ := hparts
  refine h.keep dec hsafe rfl hnext hstreams.subset ?_ ?_ ?_ ?_
  · intro id hid
    change o.conn.addCredit.call id = none ∧ dataBytesOn id o.conn.addCredit.wire = 0
    rw [hcall, hwire]
    exact h.unborn id hid
  · intro a ha
    change a ∈ o.conn.addCredit.adding at ha
    rw [hadding] at ha
    cases ha
  · intro id hid
    have hsame := sends_congr (s := o.conn) (t := o.conn.addCredit) (congrFun hcall id)
    exact hsame ▸ hid
  · intro id granted hne _ hold
    rw [updated_of_no_frame rfl, add_zero]
    exact hold.addCredit hne

theorem sending_started {s : ClientConn δ} {id : ℕ} {granted : ℤ} (h : Sending s id granted)
    (hopen : s.closed = false) {len : ℕ} (hne : id ≠ s.nextStreamID + 1) :
    Sending (s.start len) id granted := by
  have hnumbered : Sending { s with nextStreamID := s.nextStreamID + 2 } id granted :=
    ⟨h.mem, h.object, h.short, h.sound, h.account⟩
  refine hnumbered.untouched ?_
  rw [start_of_open hopen]
  refine .of_same rfl ?_ ?_ ?_ rfl rfl
  · exact Function.update_of_ne hne ..
  · exact Function.update_of_ne hne ..
  · exact ⟨fun hmem => Finset.mem_of_mem_insert_of_ne hmem hne, Finset.mem_insert_of_mem⟩

theorem sending_start {s : ClientConn δ} (hopen : s.closed = false) {len : ℕ}
    (hlen : len < 2^31) (hunsent : dataBytesOn (s.nextStreamID + 1) s.wire = 0)
    (hadding : ∀ a ∈ s.adding, a.1 ≤ s.nextStreamID) {credited : ℤ} (hcredited : 0 ≤ credited) :
    Sending (s.start len) (s.nextStreamID + 1)
      (s.newClientStream.sendW.n + credited) := by
  have hcall : (s.start len).call (s.nextStreamID + 1) = some (.headers len) := by
    rw [start_of_open hopen]
    exact Function.update_self ..
  have hstream : (s.start len).stream (s.nextStreamID + 1) = some s.newClientStream := by
    rw [start_of_open hopen]
    exact Function.update_self ..
  have hmem : s.nextStreamID + 1 ∈ (s.start len).streams := by
    rw [start_of_open hopen]
    exact Finset.mem_insert_self ..
  have hdue : (s.start len).dueOn (s.nextStreamID + 1) = 0 := by
    rw [start_of_open hopen]
    unfold dueOn
    dsimp only [setCall, setStream]
    cases hadd : s.adding with
    | none => rfl
    | some a =>
      have hle := hadding a hadd
      exact if_neg (by omega)
  have hspent : dataBytesOn (s.nextStreamID + 1) (s.start len).wire = 0 := by
    rw [start_of_open hopen]
    exact hunsent
  refine ⟨hmem, ?_, ?_, ?_, ?_⟩
  · rw [hstream]
    exact Option.some_ne_none _
  · intro len' hlen'
    rw [hcall] at hlen'
    cases hlen'
    unfold maxInt32
    omega
  · intro w hw
    rw [hcall] at hw
    cases hw
  · unfold streamAccount
    rw [sendWindow_of_stream hstream, hcall, hspent, hdue]
    refine ⟨Window.new_inRange _, le_rfl, le_rfl, ?_, ?_⟩
    · change s.newClientStream.sendW.n + 0 + 0 + 0 ≤ s.newClientStream.sendW.n + credited
      omega
    · intro hheld
      exact absurd hheld (lt_irrefl 0)

theorem Solid.startClosed (h : Solid o) (dec : BlockDecoder δ) (len : ℕ)
    (hclosed : o.conn.closed = true) : Solid (o.step dec (.start len)) := by
  have hconn : (o.step dec (.start len)).conn = o.conn := if_pos hclosed
  have hupdates : (o.step dec (.start len)).updates = o.updates := List.append_nil _
  have hsettings : (o.step dec (.start len)).settings = o.settings := List.append_nil _
  have hseeded (id : ℕ) (hid : o.conn.sends id = true) :
      (o.step dec (.start len)).seeded id = o.seeded id := by
    have hle := (h.listed id (h.sending id hid).mem).2
    exact Function.update_of_ne (by omega) ..
  refine ⟨h.recorded_step dec _, h.nonneg_step dec _, ?_, ?_, ?_, ?_, ?_⟩
  · rw [hconn]
    exact h.listed
  · rw [hconn]
    exact h.unborn
  · rw [hconn]
    exact h.adding
  · intro id hid
    rw [hconn] at hid
    rw [hseeded id hid, hsettings]
    exact h.seeds id hid
  · intro id hid
    rw [hconn] at hid ⊢
    rw [hseeded id hid, hupdates]
    exact h.sending id hid

theorem Solid.startOpen (h : Solid o) (dec : BlockDecoder δ) {len : ℕ}
    (hopen : o.conn.closed = false) (hlen : len < 2^31)
    (hzero : 0 < len → lastValue o.settings .initialWindowSize ≠ some 0) :
    Solid (o.step dec (.start len)) := by
  have hconn : (o.step dec (.start len)).conn = o.conn.start len := rfl
  have hupdates : (o.step dec (.start len)).updates = o.updates := List.append_nil _
  have hsettings : (o.step dec (.start len)).settings = o.settings := List.append_nil _
  have hstart := start_of_open hopen len
  have hcall {id : ℕ} (hid : id ≠ o.conn.nextStreamID + 1) :
      (o.conn.start len).call id = o.conn.call id := by
    rw [hstart]
    exact Function.update_of_ne hid ..
  have hseeded {id : ℕ} (hid : id ≠ o.conn.nextStreamID + 1) :
      (o.step dec (.start len)).seeded id = o.seeded id := Function.update_of_ne hid ..
  have hseed : (o.step dec (.start len)).seeded (o.conn.nextStreamID + 1) =
      o.conn.newClientStream.sendW.n := Function.update_self ..
  refine ⟨h.recorded_step dec _, h.nonneg_step dec _, ?_, ?_, ?_, ?_, ?_⟩
  · rw [hconn, hstart]
    intro id hid
    change id ∈ insert (o.conn.nextStreamID + 1) o.conn.streams at hid
    change id ≠ 0 ∧ id ≤ o.conn.nextStreamID + 2
    rcases Finset.mem_insert.mp hid with rfl | hid
    · omega
    · have hold := h.listed id hid
      omega
  · intro id hid
    rw [hconn, hstart] at hid
    change o.conn.nextStreamID + 2 < id at hid
    rw [hconn, hcall (by omega), hstart]
    exact h.unborn id (by omega)
  · rw [hconn, hstart]
    intro a ha
    change a.1 ≤ o.conn.nextStreamID + 2
    have hold := h.adding a ha
    omega
  · intro id hid
    rw [hconn] at hid
    rw [hsettings]
    by_cases hne : id = o.conn.nextStreamID + 1
    · subst hne
      have hpos : 0 < len := by
        rw [hstart] at hid
        unfold sends at hid
        simp only [setCall_self] at hid
        exact of_decide_eq_true hid
      rw [hseed]
      exact newClientStream_window h.recorded (hzero hpos)
    · rw [hseeded hne]
      rw [sends_congr (hcall hne)] at hid
      exact h.seeds id hid
  · intro id hid
    rw [hconn] at hid ⊢
    rw [hupdates]
    by_cases hne : id = o.conn.nextStreamID + 1
    · subst hne
      rw [hseed]
      exact sending_start hopen hlen (h.unborn _ (by omega)).2 h.adding
        (creditOn_nonneg h.nonneg _)
    · rw [hseeded hne]
      rw [sends_congr (hcall hne)] at hid
      exact sending_started (h.sending id hid) hopen hne

theorem solid_step (dec : BlockDecoder δ) (o : Watched δ) (e : ClientEvent) (hsafe : o.Safe e)
    (h : Solid o) : Solid (o.step dec e) := by
  cases e with
  | frame f => exact h.frame dec f hsafe
  | addCredit => exact h.addCredit dec hsafe
  | close =>
    refine h.keep dec hsafe rfl rfl (Finset.Subset.refl _) h.unborn h.adding
      (fun id hid => hid) ?_
    intro id granted _ _ hold
    rw [updated_of_no_frame rfl, add_zero]
    exact ⟨hold.mem, hold.object, hold.short, hold.sound, hold.account⟩
  | start len =>
    cases hclosed : o.conn.closed with
    | true => exact h.startClosed dec len hclosed
    | false =>
      obtain ⟨hlen, hzero⟩ := hsafe.1 len rfl hclosed
      exact h.startOpen dec hclosed hlen hzero
  | _ => exact h.caller dec rfl hsafe

theorem data_caller (dec : BlockDecoder δ) (s : ClientConn δ) {id length : ℕ} {last : Bool}
    (he : e.caller? = some id)
    (h : (ClientConn.step dec s e).wire = s.wire ++ [.data id length last]) :
    ∃ w, s.call id = some (.body w) ∧ w.phase = .write ∧ length = w.connTaken.toNat := by
  have hwrote {f : WireFrame} (hf : s.wire ++ [f] = s.wire ++ [.data id length last]) :
      f = .data id length last :=
    List.singleton_inj.mp (List.append_cancel_left hf)
  have hnothing (hsame : s.wire = s.wire ++ [.data id length last]) : False := by
    have hlen := congrArg List.length hsame
    rw [List.length_append, List.length_singleton] at hlen
    omega
  cases e with
  | frame f => cases he
  | addCredit => cases he
  | close => cases he
  | start len => cases he
  | headers j =>
    simp only [ClientConn.step, writeRequest] at h
    split at h
    · split at h
      all_goals cases hwrote h
    · exact (hnothing h).elim
  | reserveStream j =>
    simp only [ClientConn.step, reserveStream] at h
    split at h
    · split at h
      all_goals exact (hnothing h).elim
    · exact (hnothing h).elim
  | reserveConn j =>
    simp only [ClientConn.step, reserveConn] at h
    split at h
    · split at h
      all_goals exact (hnothing h).elim
    · exact (hnothing h).elim
  | refund j =>
    simp only [ClientConn.step, refund] at h
    split at h
    · split at h
      all_goals exact (hnothing h).elim
    · exact (hnothing h).elim
  | chunk j =>
    obtain rfl := Option.some.inj he
    simp only [ClientConn.step, writeChunk] at h
    split at h
    · rename_i w hcall
      split at h
      · rename_i hphase
        refine ⟨w, hcall, hphase, ?_⟩
        split at h
        · cases hwrote h
          rfl
        · cases hwrote h
          rfl
      · exact (hnothing h).elim
    · exact (hnothing h).elim
  | cancel j =>
    simp only [ClientConn.step, cancelCall] at h
    split at h
    · split at h
      · exact (hnothing h).elim
      · split at h
        all_goals exact (hnothing h).elim
      · exact (hnothing h).elim
    · cases hwrote h
    · exact (hnothing h).elim
  | deliver j =>
    simp only [ClientConn.step, deliver] at h
    split at h
    · split at h
      all_goals exact (hnothing h).elim
    · exact (hnothing h).elim
  | loseConn j =>
    simp only [ClientConn.step, loseConn] at h
    split at h
    · split at h
      all_goals exact (hnothing h).elim
    · exact (hnothing h).elim
  | leave j =>
    simp only [ClientConn.step, leave] at h
    split at h
    all_goals exact (hnothing h).elim

theorem data_step (dec : BlockDecoder δ) (s : ClientConn δ) {id length : ℕ} {last : Bool}
    (h : (ClientConn.step dec s e).wire = s.wire ++ [.data id length last]) :
    ∃ w, s.call id = some (.body w) ∧ w.phase = .write ∧ length = w.connTaken.toNat := by
  have huntouched (hsame : Untouched id s (ClientConn.step dec s e)) : False := by
    obtain ⟨new, hnew, hdata⟩ := hsame.wire
    rw [h] at hnew
    refine hdata length last ?_
    rw [← List.append_cancel_left hnew]
    exact List.mem_singleton_self _
  have hnothing (hsame : (ClientConn.step dec s e).wire = s.wire) : False := by
    have hlen := congrArg List.length (hsame.symm.trans h)
    rw [List.length_append, List.length_singleton] at hlen
    omega
  cases hcaller : e.caller? with
  | some j =>
    by_cases hj : id = j
    · subst hj
      exact data_caller dec s hcaller h
    · exact (huntouched (untouched_caller dec s hcaller hj)).elim
  | none =>
    exfalso
    cases e with
    | frame f =>
      rcases frame_cases dec s f with hsame | ⟨j, increment, -, -, -, hadded⟩
      · exact huntouched (hsame id)
      · refine hnothing ?_
        rw [hadded]
    | addCredit =>
      refine hnothing ?_
      simp only [ClientConn.step, addCredit]
      split
      · rfl
      · rfl
      · split
        all_goals rfl
    | close => exact hnothing rfl
    | start len =>
      refine hnothing ?_
      simp only [ClientConn.step, start]
      split_ifs
      all_goals rfl
    | _ => cases hcaller

theorem Solid.spends (h : Solid o) (dec : BlockDecoder δ) {id length : ℕ} {last : Bool}
    (hwire : (ClientConn.step dec o.conn e).wire = o.conn.wire ++ [.data id length last]) :
    dataBytesOn id (ClientConn.step dec o.conn e).wire ≤ o.allowance id := by
  obtain ⟨w, hcall, hphase, hlength⟩ := data_step dec o.conn hwire
  have hsends : o.conn.sends id = true := by
    unfold sends
    rw [hcall]
  have hsending := h.sending id hsends
  have hseed := h.seeds id hsends
  obtain ⟨hpos, -⟩ := (hsending.sound w hcall).write hphase
  have hheld : (o.conn.streamAccount id (o.seeded id + creditOn id o.updates)).held =
      w.connTaken := by
    change callHeld (o.conn.call id) = _
    rw [hcall]
    exact (Writer.held_write hphase).1
  have hpaid : dataBytesOn id o.conn.wire + w.connTaken ≤ o.seeded id + creditOn id o.updates :=
    hsending.account.spend_le hpos hheld.ge
  have hframe : dataBytesOn id [.data id length last] = w.connTaken := by
    change (if id = id then (length : ℤ) else 0) + 0 = _
    rw [if_pos rfl, hlength]
    omega
  rw [hwire, dataBytesOn_append, hframe]
  unfold allowance
  omega

end Step

/-- In a run of safe steps every DATA frame is within what the peer lets the connection send on its
stream: the window in force and the window updates. -/
theorem client_spends_within_allowance (dec : BlockDecoder δ) (hpack : δ) {params : List Setting}
    {serverS : ClientSettings} (hread : readClientSettings params = .ok serverS)
    (es : List ClientEvent)
    (hes : StepsMeet (step dec) Safe (new hpack params serverS) es) :
    SpendsWithin dec (new hpack params serverS) es := by
  intro earlier e later id length last heq hwire _
  rw [heq] at hes
  have hbefore := ((stepsMeet_append (step dec) Safe earlier (e :: later)).mp hes).1
  have hsolid : Solid (run dec (new hpack params serverS) earlier) :=
    invariant_of_steps (solid_step dec) earlier _ (solid_new hpack hread) hbefore
  have hrun : run dec (new hpack params serverS) (earlier ++ [e]) =
      step dec (run dec (new hpack params serverS) earlier) e := by
    simp only [run, List.foldl_append, List.foldl_cons, List.foldl_nil]
  rw [hrun] at hwire ⊢
  exact hsolid.spends dec hwire

/-- The peer's window is raised while a body is written, and the rest of it waits for credit. -/
theorem client_spends_raised :
    let es : List ClientEvent := [.start 300, .headers 1, .reserveStream 1, .reserveConn 1,
      .chunk 1, .frame (.settings false [⟨.initialWindowSize, 250⟩]),
      .frame (.windowUpdate 1 100), .addCredit, .reserveStream 1, .reserveConn 1, .chunk 1]
    let o := Watched.new () [⟨.initialWindowSize, 200⟩]
      { initialWindowSize := 200, initialWindowSizeAnnounced := true }
    StepsMeet (step blankDecoder) Safe o es ∧ SpendsWithin blankDecoder o es ∧
      dataBytesOn 1 (run blankDecoder o es).conn.wire = 300 := by
  intro es o
  have hmeet : StepsMeet (step blankDecoder) Safe o es := by
    decide
  have hread : readClientSettings [⟨.initialWindowSize, 200⟩] =
      .ok { initialWindowSize := 200, initialWindowSizeAnnounced := true } := rfl
  exact ⟨hmeet, client_spends_within_allowance blankDecoder () hread es hmeet, by decide⟩

/-- A body is written to a peer that has announced a window of 0; and past a window that was lowered
before any of it was reserved. -/
theorem client_overspends :
    (readClientSettings [⟨.initialWindowSize, 0⟩] = .ok { initialWindowSizeAnnounced := true } ∧
      ¬ SpendsWithin blankDecoder
        (Watched.new () [⟨.initialWindowSize, 0⟩] { initialWindowSizeAnnounced := true })
        [.start 10, .headers 1, .reserveStream 1, .reserveConn 1, .chunk 1]) ∧
    (readClientSettings [] = .ok {} ∧
      ¬ SpendsWithin blankDecoder (Watched.new () [] {})
        [.start 10, .headers 1, .frame (.settings false [⟨.initialWindowSize, 5⟩]),
          .reserveStream 1, .reserveConn 1, .chunk 1]) := by
  refine ⟨⟨rfl, ?_⟩, rfl, ?_⟩
  · intro h
    have hle := h [.start 10, .headers 1, .reserveStream 1, .reserveConn 1] (.chunk 1) [] 1 10 true
      rfl (by decide +kernel)
      ⟨[.start 10, .headers 1], [.reserveConn 1], rfl, by decide +kernel, by decide +kernel⟩
    revert hle
    decide +kernel
  · intro h
    have hle := h [.start 10, .headers 1, .frame (.settings false [⟨.initialWindowSize, 5⟩]),
      .reserveStream 1, .reserveConn 1] (.chunk 1) [] 1 10 true rfl (by decide +kernel)
      ⟨[.start 10, .headers 1, .frame (.settings false [⟨.initialWindowSize, 5⟩])],
        [.reserveConn 1], rfl, by decide +kernel, by decide +kernel⟩
    revert hle
    decide +kernel

end Watched

end ClientConn

end EnvoyGo.H2

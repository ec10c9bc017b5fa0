import EnvoyGo.H2SendCredit
import EnvoyGo.H2ClientMoves

/-!
The SETTINGS of the peer, on the four paths that take them: the handshake and the running
connection, on either side.  A frame with a value out of range is to fail the connection and change
nothing; any other is to be applied with the last value of a parameter in force.
-/

namespace EnvoyGo.H2

open Runs

/-- The last value a list of parameters has for one of them. -/
def lastValue (params : List Setting) (id : SettingID) : Option ℕ :=
  (params.reverse.find? (fun st => st.id == id)).map Setting.val

theorem lastValue_append (params more : List Setting) (id : SettingID) :
    lastValue (params ++ more) id = (lastValue more id).or (lastValue params id) := by
  unfold lastValue
  rw [List.reverse_append, List.find?_append]
  cases more.reverse.find? (fun st => st.id == id) with
  | none => simp
  | some st => simp

theorem lastValue_concat (params : List Setting) (st : Setting) (id : SettingID) :
    lastValue (params ++ [st]) id = if st.id = id then some st.val else lastValue params id := by
  unfold lastValue
  rw [List.reverse_append]
  by_cases h : st.id = id
  · simp [h]
  · have hne : (st.id == id) = false := beq_false_of_ne h
    simp [h, hne]

theorem foldl_lastValue {σ : Type} (f : σ → Setting → σ) (field : σ → ℕ) (id : SettingID)
    (g : ℕ → ℕ) (hf : ∀ s st, field (f s st) = if st.id = id then g st.val else field s)
    (params : List Setting) (s : σ) :
    field (params.foldl f s) = ((lastValue params id).map g).getD (field s) := by
  induction params using List.reverseRecOn with
  | nil => rfl
  | append_singleton params st ih =>
    rw [List.foldl_append, List.foldl_cons, List.foldl_nil, hf, ih, lastValue_concat]
    split_ifs
    · rfl
    · rfl

def SettingID.kept : SettingID → Bool
  | .other _ => false
  | _ => true

/-- The stored value of a parameter. -/
def ClientSettings.value (cs : ClientSettings) : SettingID → ℕ
  | .headerTableSize => cs.headerTableSize
  | .enablePush => cs.enablePush
  | .maxConcurrentStreams => cs.maxConcurrentStreams
  | .initialWindowSize => cs.initialWindowSize
  | .maxFrameSize => cs.maxFrameSize
  | .other _ => 0

def mandatedCode (st : Setting) : Option ErrCode :=
  match st.id with
  | .enablePush => if st.val ≤ 1 then none else some .protocolError
  | .initialWindowSize => if st.val ≤ 2^31 - 1 then none else some .flowControlError
  | .maxFrameSize => if 2^14 ≤ st.val ∧ st.val ≤ 2^24 - 1 then none else some .protocolError
  | _ => none

def InRange (params : List Setting) : Prop := ∀ st ∈ params, mandatedCode st = none

instance (params : List Setting) : Decidable (InRange params) :=
  inferInstanceAs (Decidable (∀ st ∈ params, mandatedCode st = none))

/-- What is asked of a turn of the loop, given by its error and the values stored after it. -/
structure Atomic (before : ClientSettings) (params : List Setting)
    (turn : Option Error × ClientSettings) : Prop where
  refused : ¬ InRange params → turn.2 = before ∧
    ∃ err, turn.1 = some err ∧ err.stream = 0 ∧ ∃ st ∈ params, mandatedCode st = some err.code
  applied : InRange params → ∀ id, id.kept = true →
    turn.2.value id = (lastValue params id).getD (before.value id)

theorem validateSetting_code (st : Setting) :
    (validateSetting st).map Error.code = mandatedCode st := by
  unfold validateSetting mandatedCode
  cases st.id with
  | enablePush =>
    dsimp only
    split_ifs <;> first | rfl | omega
  | initialWindowSize =>
    dsimp only
    split_ifs <;> first | rfl | omega
  | maxFrameSize =>
    dsimp only
    split_ifs <;> first | rfl | omega
  | headerTableSize => rfl
  | maxConcurrentStreams => rfl
  | other id => rfl

theorem validateSetting_stream {st : Setting} {err : Error} (h : validateSetting st = some err) :
    err.stream = 0 := by
  unfold validateSetting at h
  split at h
  all_goals first | cases h | (split_ifs at h; cases h; rfl)

theorem validateSetting_none_iff (st : Setting) :
    validateSetting st = none ↔ mandatedCode st = none := by
  rw [← validateSetting_code st]
  exact Option.map_eq_none_iff.symm

theorem findSome_validate_none (params : List Setting) :
    params.findSome? validateSetting = none ↔ InRange params := by
  rw [List.findSome?_eq_none_iff]
  exact forall₂_congr (fun st _ => validateSetting_none_iff st)

variable {params : List Setting}

theorem findSome_validate_some {err : Error} (h : params.findSome? validateSetting = some err) :
    ¬ InRange params ∧ err.stream = 0 ∧ ∃ st ∈ params, mandatedCode st = some err.code := by
  obtain ⟨st, hmem, hst⟩ := List.exists_of_findSome?_eq_some h
  have hcode : mandatedCode st = some err.code := by
    rw [← validateSetting_code st, hst]
    rfl
  refine ⟨?_, validateSetting_stream hst, st, hmem, hcode⟩
  intro hall
  rw [hall st hmem] at hcode
  cases hcode

def ParserRefuses (params : List Setting) : Prop :=
  (firstValue params .initialWindowSize).getD 0 > 2147483647

instance (params : List Setting) : Decidable (ParserRefuses params) :=
  inferInstanceAs (Decidable ((firstValue params .initialWindowSize).getD 0 > 2147483647))

theorem parserRefuses_code (h : ParserRefuses params) :
    ¬ InRange params ∧ ∃ st ∈ params, mandatedCode st = some .flowControlError := by
  unfold ParserRefuses firstValue at h
  cases hfind : params.find? (fun st => st.id == SettingID.initialWindowSize) with
  | none =>
    rw [hfind] at h
    exact absurd h (by simp)
  | some st =>
    rw [hfind] at h
    change st.val > 2147483647 at h
    have hid : st.id = .initialWindowSize := by simpa using List.find?_some hfind
    have hmem := List.mem_of_find?_eq_some hfind
    have hcode : mandatedCode st = some .flowControlError := by
      unfold mandatedCode
      rw [hid]
      dsimp only
      rw [if_neg (by omega)]
    refine ⟨?_, st, hmem, hcode⟩
    intro hall
    rw [hall st hmem] at hcode
    cases hcode

theorem value_announce (cs : ClientSettings) (st : Setting) {id : SettingID}
    (hid : id.kept = true) :
    (cs.announce st).value id = if st.id = id then st.val else cs.value id := by
  unfold ClientSettings.announce
  cases id with
  | other n => cases hid
  | _ => cases hst : st.id <;> simp [ClientSettings.value]

theorem value_announceAll (cs : ClientSettings) (params : List Setting) {id : SettingID}
    (hid : id.kept = true) :
    (params.foldl ClientSettings.announce cs).value id =
      (lastValue params id).getD (cs.value id) := by
  have h := foldl_lastValue ClientSettings.announce (fun cs => cs.value id) id (fun n => n)
    (fun cs st => value_announce cs st hid) params cs
  simpa using h

namespace ServerConn

variable {δ : Type}

theorem applySetting_clientS (s : ServerConn δ) (st : Setting) :
    (s.applySetting st).1.clientS = s.clientS.announce st := by
  unfold applySetting ClientSettings.announce
  cases st.id with
  | initialWindowSize =>
    dsimp only
    split_ifs
    all_goals rfl
  | _ => rfl

theorem applySettings_clientS (s : ServerConn δ) (err : Option Error) (params : List Setting) :
    (s.applySettings err params).1.clientS = params.foldl ClientSettings.announce s.clientS := by
  induction params generalizing s err with
  | nil => rfl
  | cons st rest ih =>
    obtain ⟨err', heq⟩ := applySettings_cons s err st rest
    rw [heq, ih, applySetting_clientS]
    rfl

theorem readError_settings {s : ServerConn δ} (hopen : s.hdrAccum = none) (params : List Setting) :
    s.readError (.settings false params) =
      if ParserRefuses params then some (framerError 0 .flowControlError) else none := by
  have horder : s.checkFrameOrder (.settings false params) = none := by
    unfold checkFrameOrder
    rw [hopen]
  unfold readError
  rw [horder]
  by_cases h : ParserRefuses params
  · rw [if_pos h]
    unfold ParserRefuses at h
    simp [parseError, h]
  · rw [if_neg h]
    unfold ParserRefuses at h
    simp [parseError, h]

def turnError (dec : BlockDecoder δ) (s : ServerConn δ) (f : Frame) : Option Error :=
  (s.readError f).orElse (fun _ => (s.dispatchFrame dec f).2)

theorem atomic_settings (dec : BlockDecoder δ) {s : ServerConn δ} (hopen : s.hdrAccum = none)
    (params : List Setting) :
    Atomic s.clientS params (s.turnError dec (.settings false params),
      (s.readFrame dec (.settings false params)).clientS) := by
  have hread := readError_settings hopen params
  by_cases hparse : ParserRefuses params
  · rw [if_pos hparse] at hread
    obtain ⟨hout, hcode⟩ := parserRefuses_code hparse
    refine ⟨fun _ => ⟨?_, framerError 0 .flowControlError, ?_, rfl, hcode⟩, fun h => absurd h hout⟩
    · unfold readFrame
      rw [hread]
      rfl
    · unfold turnError
      rw [hread]
      rfl
  · rw [if_neg hparse] at hread
    have hturn : s.turnError dec (.settings false params) = (s.onSettings false params).2 := by
      unfold turnError
      rw [hread]
      rfl
    have hstored : (s.readFrame dec (.settings false params)).clientS =
        (s.onSettings false params).1.clientS := by
      unfold readFrame
      rw [hread]
      exact (sameAccounts_answer (s.onSettings false params).1 _).1.clientS
    rw [hturn, hstored]
    unfold onSettings
    cases hvalid : params.findSome? validateSetting with
    | some err =>
      obtain ⟨hout, hconn, hcode⟩ := findSome_validate_some hvalid
      exact ⟨fun _ => ⟨rfl, err, rfl, hconn, hcode⟩, fun h => absurd h hout⟩
    | none =>
      have hin := (findSome_validate_none params).mp hvalid
      refine ⟨fun h => absurd hin h, fun _ id hid => ?_⟩
      have hall := applySettings_clientS s none params
      dsimp only
      rw [if_neg Bool.false_ne_true]
      revert hall
      rcases s.applySettings none params with ⟨t, err⟩
      intro hall
      change t.clientS = _ at hall
      have hvalue : t.clientS.value id = (lastValue params id).getD (s.clientS.value id) := by
        rw [hall]
        exact value_announceAll s.clientS params hid
      cases err with
      | none => exact hvalue
      | some err => exact hvalue

end ServerConn

namespace ClientConn

variable {δ : Type}

theorem value_applySetting (s : ClientConn δ) (st : Setting) {id : SettingID}
    (hid : id.kept = true) :
    (s.applySetting st).serverS.value id = if st.id = id then st.val else s.serverS.value id := by
  unfold applySetting
  cases id with
  | other n => cases hid
  | _ => cases hst : st.id <;> simp [ClientSettings.value]

theorem value_applySettings (s : ClientConn δ) (params : List Setting) {id : SettingID}
    (hid : id.kept = true) :
    (params.foldl applySetting s).serverS.value id =
      (lastValue params id).getD (s.serverS.value id) := by
  have h := foldl_lastValue applySetting (fun s : ClientConn δ => s.serverS.value id) id
    (fun n => n) (fun s st => value_applySetting s st hid) params s
  simpa using h

theorem readError_settings {s : ClientConn δ} (hopen : s.hdrAccum = none) (params : List Setting) :
    s.readError (.settings false params) =
      if ParserRefuses params then some (framerError 0 .flowControlError) else none := by
  have horder : s.checkFrameOrder (.settings false params) = none := by
    unfold checkFrameOrder
    rw [hopen]
  unfold readError
  rw [horder]
  by_cases h : ParserRefuses params
  · rw [if_pos h]
    unfold ParserRefuses at h
    simp [PeerFrame.parseError, h]
  · rw [if_neg h]
    unfold ParserRefuses at h
    simp [PeerFrame.parseError, h]

def turnError (dec : BlockDecoder δ) (s : ClientConn δ) (f : PeerFrame) : Option Error :=
  (s.readError f).orElse (fun _ => (s.dispatchFrame dec f).2)

theorem atomic_settings_iff (dec : BlockDecoder δ) {s : ClientConn δ} (hopen : s.hdrAccum = none)
    (params : List Setting) :
    Atomic s.serverS params (s.turnError dec (.settings false params),
        (s.readFrame dec (.settings false params)).serverS) ↔
      (InRange params ∨ ParserRefuses params) := by
  have hread := readError_settings hopen params
  by_cases hparse : ParserRefuses params
  · rw [if_pos hparse] at hread
    obtain ⟨hout, hcode⟩ := parserRefuses_code hparse
    refine ⟨fun _ => .inr hparse, fun _ => ⟨fun _ => ?_, fun h => absurd h hout⟩⟩
    refine ⟨?_, framerError 0 .flowControlError, ?_, rfl, hcode⟩
    · unfold readFrame
      rw [hread]
    · unfold turnError
      rw [hread]
      rfl
  · rw [if_neg hparse] at hread
    have hturn : s.turnError dec (.settings false params) = none := by
      unfold turnError
      rw [hread]
      rfl
    have hstored : (s.readFrame dec (.settings false params)).serverS =
        (params.foldl applySetting s).serverS := by
      unfold readFrame
      rw [hread]
      rfl
    rw [hturn, hstored]
    constructor
    · intro h
      by_contra hnot
      push Not at hnot
      obtain ⟨-, err, herr, -⟩ := h.refused hnot.1
      cases herr
    · intro h
      have hin : InRange params := h.resolve_right hparse
      exact ⟨fun hout => absurd hin hout, fun _ id hid => value_applySettings s params hid⟩

end ClientConn

def handshakeTurn (params : List Setting) : Option Error × ClientSettings :=
  if ParserRefuses params then (some (framerError 0 .flowControlError), {})
  else match readClientSettings params with
  | .error err => (some err, {})
  | .ok cs => (none, cs)

theorem atomic_handshake (params : List Setting) : Atomic {} params (handshakeTurn params) := by
  unfold handshakeTurn
  split_ifs with hparse
  · obtain ⟨hout, hcode⟩ := parserRefuses_code hparse
    exact ⟨fun _ => ⟨rfl, framerError 0 .flowControlError, rfl, rfl, hcode⟩,
      fun h => absurd h hout⟩
  · unfold readClientSettings
    cases hvalid : params.findSome? validateSetting with
    | some err =>
      obtain ⟨hout, hconn, hcode⟩ := findSome_validate_some hvalid
      exact ⟨fun _ => ⟨rfl, err, rfl, hconn, hcode⟩, fun h => absurd h hout⟩
    | none =>
      have hin := (findSome_validate_none params).mp hvalid
      exact ⟨fun h => absurd hin h, fun _ id hid => value_announceAll {} params hid⟩

/-- The four paths a SETTINGS frame is taken on. -/
inductive Receiver (δ : Type)
  | serverHandshake
  | clientHandshake
  | server (s : ServerConn δ)
  | client (s : ClientConn δ)

namespace Receiver

variable {δ : Type}

/-- No header block is open, so the framer lets a SETTINGS frame through. -/
def Ready : Receiver δ → Prop
  | .server s => s.hdrAccum = none
  | .client s => s.hdrAccum = none
  | _ => True

def stored : Receiver δ → ClientSettings
  | .server s => s.clientS
  | .client s => s.serverS
  | _ => {}

/-- The turn that reads the frame: its error, and the values stored after it. -/
def turn (dec : BlockDecoder δ) (params : List Setting) :
    Receiver δ → Option Error × ClientSettings
  | .server s => (s.turnError dec (.settings false params),
      (s.readFrame dec (.settings false params)).clientS)
  | .client s => (s.turnError dec (.settings false params),
      (s.readFrame dec (.settings false params)).serverS)
  | _ => handshakeTurn params

/-- The frame does not come to a running client connection with a value out of range that the
parser has let pass. -/
def Checks (params : List Setting) : Receiver δ → Prop
  | .client _ => InRange params ∨ ParserRefuses params
  | _ => True

theorem atomic_iff (dec : BlockDecoder δ) {r : Receiver δ} (hready : r.Ready)
    (params : List Setting) : Atomic r.stored params (r.turn dec params) ↔ r.Checks params := by
  cases r with
  | serverHandshake => exact iff_of_true (atomic_handshake params) trivial
  | clientHandshake => exact iff_of_true (atomic_handshake params) trivial
  | server s => exact iff_of_true (ServerConn.atomic_settings dec hready params) trivial
  | client s => exact ClientConn.atomic_settings_iff dec hready params

end Receiver

/-- The stored values that bound what the connection writes are in range, or not announced. -/
structure ClientSettings.Ranged (cs : ClientSettings) : Prop where
  frame : cs.maxFrameSize = 0 ∨ 2^14 ≤ cs.maxFrameSize ∧ cs.maxFrameSize ≤ 2^24 - 1
  push : cs.enablePush = 0 ∨ cs.enablePush = 1

theorem ranged_of_value {cs cs' : ClientSettings} (h : cs.Ranged) (hin : InRange params)
    (hval : ∀ id, id.kept = true → cs'.value id = (lastValue params id).getD (cs.value id)) :
    cs'.Ranged := by
  have hfound (id : SettingID) {n : ℕ} (hn : lastValue params id = some n) :
      mandatedCode ⟨id, n⟩ = none := by
    unfold lastValue at hn
    obtain ⟨st, hst, hv⟩ := Option.map_eq_some_iff.mp hn
    have hid : st.id = id := by simpa using List.find?_some hst
    have hmem : st ∈ params := List.mem_reverse.mp (List.mem_of_find?_eq_some hst)
    have hcode := hin st hmem
    rw [← hid, ← hv]
    exact hcode
  constructor
  · have hframe : cs'.maxFrameSize = (lastValue params .maxFrameSize).getD cs.maxFrameSize :=
      hval .maxFrameSize rfl
    rw [hframe]
    cases hn : lastValue params .maxFrameSize with
    | none => exact h.frame
    | some n =>
      have hcode := hfound .maxFrameSize hn
      unfold mandatedCode at hcode
      dsimp only at hcode
      split_ifs at hcode with hrange
      exact .inr hrange
  · have hpush : cs'.enablePush = (lastValue params .enablePush).getD cs.enablePush :=
      hval .enablePush rfl
    rw [hpush]
    cases hn : lastValue params .enablePush with
    | none => exact h.push
    | some n =>
      have hcode := hfound .enablePush hn
      unfold mandatedCode at hcode
      dsimp only at hcode
      split_ifs at hcode with hrange
      change n = 0 ∨ n = 1
      omega

theorem readClientSettings_ranged {cs : ClientSettings} (h : readClientSettings params = .ok cs) :
    cs.Ranged := by
  unfold readClientSettings at h
  cases hvalid : params.findSome? validateSetting with
  | some err =>
    rw [hvalid] at h
    cases h
  | none =>
    rw [hvalid] at h
    cases h
    have hstart : ({} : ClientSettings).Ranged := ⟨.inl rfl, .inl rfl⟩
    exact ranged_of_value hstart ((findSome_validate_none params).mp hvalid)
      (fun id hid => value_announceAll {} params hid)

theorem ServerConn.rangedSettings_step {δ : Type} (dec : BlockDecoder δ) {s : ServerConn δ}
    (e : Event) (h : s.clientS.Ranged) : (step dec s e).clientS.Ranged := by
  by_cases he : e.frame? = none
  · rw [(local_step dec s he).clientS]
    exact h
  · cases e with
    | frame f =>
      rcases frame_clientS dec s f with hsame | ⟨params, -, -, hvalid, hnew⟩
      · rw [hsame]
        exact h
      · rw [hnew, applySettings_clientS]
        exact ranged_of_value h ((findSome_validate_none params).mp hvalid)
          (fun id hid => value_announceAll s.clientS params hid)
    | _ => exact absurd rfl he

def PeerFrame.params? : PeerFrame → Option (List Setting)
  | .settings false params => some params
  | _ => none

theorem PeerFrame.eq_of_params? {f : PeerFrame} (h : f.params? = some params) :
    f = .settings false params := by
  unfold params? at h
  split at h
  · cases h
    rfl
  · cases h

namespace ClientConn

variable {δ : Type}

/-- A SETTINGS frame the framer passes on has only values in range. -/
def SettingsInRange (s : ClientConn δ) (e : ClientEvent) : Prop :=
  ∀ f ∈ e.frame?, s.Takes f → ∀ params ∈ f.params?, InRange params

instance (s : ClientConn δ) (e : ClientEvent) : Decidable (s.SettingsInRange e) :=
  inferInstanceAs (Decidable (∀ f ∈ e.frame?, s.Takes f → ∀ params ∈ f.params?, InRange params))

theorem frame_settings (dec : BlockDecoder δ) (s : ClientConn δ) (f : PeerFrame) :
    (step dec s (.frame f)).serverS = s.serverS ∧
        (step dec s (.frame f)).encoderTable = s.encoderTable ∨
      ∃ params, s.Takes f ∧ f.params? = some params ∧
        (step dec s (.frame f)).serverS = (params.foldl applySetting s).serverS ∧
        (step dec s (.frame f)).encoderTable = (params.foldl applySetting s).encoderTable := by
  by_cases hcodec : s.Takes f → f.touchesCodec = false
  · have hsame := sameCodec_frame dec s hcodec
    exact .inl ⟨hsame.serverS, hsame.encoderTable⟩
  · push Not at hcodec
    obtain ⟨htakes, htouches⟩ := hcodec
    rw [step_frame_taken htakes]
    have hanswer := sameCodec_answer (s.dispatchFrame dec f).1 (s.dispatchFrame dec f).2
    rw [hanswer.serverS, hanswer.encoderTable]
    cases f with
    | settings ack params =>
      cases ack with
      | false => exact .inr ⟨params, htakes, rfl, rfl, rfl⟩
      | true => exact absurd rfl htouches
    | headers id fragment endHeaders endStream =>
      exact .inl (samePeer_headers dec s id fragment endHeaders endStream)
    | continuation id fragment endHeaders =>
      exact .inl (samePeer_continuation dec s id fragment endHeaders)
    | _ => exact absurd rfl htouches

theorem rangedSettings_step (dec : BlockDecoder δ) {s : ClientConn δ} {e : ClientEvent}
    (he : s.SettingsInRange e) (h : s.serverS.Ranged) : (step dec s e).serverS.Ranged := by
  by_cases hframe : e.frame? = none
  · rw [(sameCodec_local dec s hframe).serverS]
    exact h
  · cases e with
    | frame f =>
      rcases frame_settings dec s f with ⟨hsame, -⟩ | ⟨params, htakes, hparams, hnew, -⟩
      · rw [hsame]
        exact h
      · rw [hnew]
        exact ranged_of_value h (he f rfl htakes params hparams)
          (fun id hid => value_applySettings s params hid)
    | _ => exact absurd rfl hframe

end ClientConn

/-- A SETTINGS frame is taken whole or refused whole exactly where its values are checked, which is
everywhere but on a running client connection; where all frames are in range, the stored values
are. -/
theorem settings_atomic_where_checked {δ : Type} (dec : BlockDecoder δ) (hpack : δ) :
    (∀ (r : Receiver δ) (params : List Setting), r.Ready →
      (Atomic r.stored params (r.turn dec params) ↔ r.Checks params)) ∧
    ∀ (params : List Setting) (cs : ClientSettings), readClientSettings params = .ok cs →
      (∀ (settings : ServerSettings) (es : List Event),
        (ServerConn.run dec (newServerConn hpack settings cs) es).clientS.Ranged) ∧
      ∀ es : List ClientEvent, StepsMeet (ClientConn.step dec) ClientConn.SettingsInRange
          (newClientConn hpack cs) es →
        (ClientConn.run dec (newClientConn hpack cs) es).serverS.Ranged := by
  refine ⟨fun r params hready => Receiver.atomic_iff dec hready params, ?_⟩
  intro params cs hread
  have hstart := readClientSettings_ranged hread
  have hserver (s : ServerConn δ) (e : Event) (h : s.clientS.Ranged) :
      (ServerConn.step dec s e).clientS.Ranged := ServerConn.rangedSettings_step dec e h
  have hclient (s : ClientConn δ) (e : ClientEvent) (he : s.SettingsInRange e)
      (h : s.serverS.Ranged) : (ClientConn.step dec s e).serverS.Ranged :=
    ClientConn.rangedSettings_step dec he h
  constructor
  · intro settings es
    exact invariant_of_run hserver es _ hstart
  · intro es hes
    exact invariant_of_steps hclient es _ hstart hes

theorem larger_frame_size_stored :
    let s := newClientConn () {}
    let params := [Setting.mk .maxFrameSize 16384, ⟨.maxFrameSize, 20000⟩, ⟨.enablePush, 1⟩]
    Atomic (Receiver.client s).stored params ((Receiver.client s).turn blankDecoder params) ∧
      (ClientConn.run blankDecoder s [.frame (.settings false params)]).serverS.Ranged := by
  intro s params
  have h := settings_atomic_where_checked blankDecoder ()
  refine ⟨(h.1 (.client s) params rfl).mpr (.inl (by decide)), ?_⟩
  exact (h.2 [] {} rfl).2 _ (by decide)

/-- A running client connection stores a frame size of 5 and stays open. -/
theorem client_stores_tiny_frame_size :
    let s := newClientConn () {}
    let params := [Setting.mk .maxFrameSize 5]
    let t := ClientConn.run blankDecoder s [.frame (.settings false params)]
    ¬ Atomic (Receiver.client s).stored params ((Receiver.client s).turn blankDecoder params) ∧
      t.closed = false ∧ t.serverS.maxFrameSize = 5 := by
  intro s params t
  have hpassed : ((Receiver.client s).turn blankDecoder params).1 = none := by decide
  refine ⟨?_, by decide, by decide⟩
  intro h
  obtain ⟨-, err, herr, -⟩ := h.refused (by decide)
  rw [hpassed] at herr
  cases herr

namespace ServerConn

variable {δ : Type}

/-- The parameters of a SETTINGS frame that is taken and not refused. -/
def accepted (s : ServerConn δ) (e : Event) : List Setting :=
  match e.frame? with
  | none => []
  | some f =>
    match f.params? with
    | none => []
    | some params => if s.Takes f ∧ InRange params then params else []

/-- A response header block is encoded. -/
def Encodes (s : ServerConn δ) : Event → Prop
  | .headers id _ => id ∈ s.running
  | _ => False

theorem encoderTable_applySetting (s : ServerConn δ) (st : Setting) :
    (s.applySetting st).1.encoderTable =
      if st.id = .headerTableSize then encoderLimit st.val else s.encoderTable := by
  unfold applySetting
  cases st.id with
  | initialWindowSize =>
    have hne : ¬ SettingID.initialWindowSize = .headerTableSize := by decide
    rw [if_neg hne]
    dsimp only
    generalize wrap32 _ = delta
    split_ifs
    · rfl
    · rfl
    · rfl
  | headerTableSize => rfl
  | _ => rfl

theorem encoderTable_applySettings (s : ServerConn δ) (err : Option Error)
    (params : List Setting) : (s.applySettings err params).1.encoderTable =
      ((lastValue params .headerTableSize).map encoderLimit).getD s.encoderTable := by
  have hfold : (s.applySettings err params).1 =
      params.foldl (fun s st => (s.applySetting st).1) s := by
    induction params generalizing s err with
    | nil => rfl
    | cons st rest ih =>
      obtain ⟨err', heq⟩ := applySettings_cons s err st rest
      rw [heq, ih]
      rfl
  rw [hfold]
  exact foldl_lastValue _ _ .headerTableSize encoderLimit encoderTable_applySetting params s

theorem Handled.encoderTable {dec : BlockDecoder δ} {s t : ServerConn δ} {f : Frame}
    {err : Option Error} (hf : f.params? = none) (hh : Handled dec s f (t, err)) :
    t.encoderTable = s.encoderTable := by
  have hqueue (u : ServerConn δ) (endStream : Bool) (id : ℕ) :
      (u.queueIf endStream id).encoderTable = u.encoderTable := by
    cases endStream
    all_goals rfl
  cases hh with
  | aside t ht hpack acc goaway err =>
    rcases ht with rfl | rfl
    all_goals rfl
  | opened a headers hpack acc ha hdec ho => exact hqueue _ a.endStream a.stream
  | trailed a headers hpack acc ss ha hdec hmem hss hst hend hnames => rfl
  | accepted id payload padding endStream ss ss' hdata hmem hss hrecv =>
    obtain ⟨w, d, upd, ss'', -, -, -, -, heq⟩ :=
      acceptData_parts s.drainDone id ss' payload.length endStream
    rw [heq]
    exact hqueue _ endStream id
  | configured params t err hset hvalid happly =>
    rw [hset] at hf
    cases hf
  | ponged => rfl
  | credited id increment hf hfits => rfl
  | removed id code hf hmem =>
    obtain ⟨objects, hclose⟩ := closeStream_parts ({ s with
      streams := s.streams.erase id
      closedStreams := insert id s.closedStreams } : ServerConn δ) id
    rw [hclose]

theorem encoderTable_answer (s : ServerConn δ) (err : Option Error) :
    (answer (s, err)).encoderTable = s.encoderTable := by
  cases err with
  | none => rfl
  | some err =>
    unfold answer
    dsimp only
    split_ifs
    · rfl
    · rfl

theorem encoderTable_onSettings (s : ServerConn δ) (params : List Setting) :
    (s.onSettings false params).1.encoderTable = ((lastValue
      (if InRange params then params else []) .headerTableSize).map encoderLimit).getD
        s.encoderTable := by
  have hall := encoderTable_applySettings s none params
  unfold onSettings
  rw [if_neg Bool.false_ne_true]
  cases hvalid : params.findSome? validateSetting with
  | some err =>
    rw [if_neg (findSome_validate_some hvalid).1]
    rfl
  | none =>
    rw [if_pos ((findSome_validate_none params).mp hvalid)]
    revert hall
    rcases s.applySettings none params with ⟨t, err⟩
    intro hall
    cases err with
    | none => exact hall
    | some err => exact hall

theorem encoderTable_step (dec : BlockDecoder δ) (s : ServerConn δ) (e : Event) :
    (step dec s e).encoderTable =
      ((lastValue (s.accepted e) .headerTableSize).map encoderLimit).getD s.encoderTable := by
  by_cases he : e.frame? = none
  · rw [(local_step dec s he).encoderTable]
    unfold accepted
    rw [he]
    rfl
  · cases e with
    | frame f =>
      have haccepted : s.accepted (.frame f) = match f.params? with
          | none => []
          | some params => if s.Takes f ∧ InRange params then params else [] := rfl
      rw [haccepted]
      by_cases htakes : s.Takes f
      · rw [step_frame_taken htakes, encoderTable_answer]
        cases hparams : f.params? with
        | none => exact (dispatchFrame_handled dec s f).encoderTable hparams
        | some params =>
          have hf : f = .settings false params := by
            unfold Frame.params? at hparams
            split at hparams
            · cases hparams
              rfl
            · cases hparams
          subst hf
          dsimp only
          rw [if_congr (and_iff_right htakes) rfl rfl]
          exact encoderTable_onSettings s params
      · have hsame : (step dec s (.frame f)).encoderTable = s.encoderTable := by
          rcases step_frame_untaken dec htakes with h | ⟨code, h⟩ | ⟨code, h⟩
          · rw [h]
          · rw [h]
            rfl
          · rw [h]
        rw [hsame]
        cases f.params? with
        | none => rfl
        | some params =>
          dsimp only
          rw [if_neg (fun h => htakes h.1)]
          rfl
    | _ => exact absurd rfl he

end ServerConn

namespace ClientConn

variable {δ : Type}

/-- The parameters of a SETTINGS frame that is taken. -/
def accepted (s : ClientConn δ) (e : ClientEvent) : List Setting :=
  match e.frame? with
  | none => []
  | some f =>
    match f.params? with
    | none => []
    | some params => if s.Takes f then params else []

theorem accepted_frame_of_none {s : ClientConn δ} {f : PeerFrame} (h : f.params? = none) :
    s.accepted (.frame f) = [] := by
  unfold accepted ClientEvent.frame?
  dsimp only
  rw [h]

theorem accepted_frame_of_some {s : ClientConn δ} {f : PeerFrame} {params : List Setting}
    (h : f.params? = some params) :
    s.accepted (.frame f) = if s.Takes f then params else [] := by
  unfold accepted ClientEvent.frame?
  dsimp only
  rw [h]

/-- A request header block is encoded. -/
def Encodes (s : ClientConn δ) : ClientEvent → Prop
  | .headers id => ∃ len, s.call id = some (.headers len)
  | _ => False

theorem encoderTable_applySetting (s : ClientConn δ) (st : Setting) :
    (s.applySetting st).encoderTable =
      if st.id = .headerTableSize then encoderLimit st.val else s.encoderTable := by
  unfold applySetting
  cases st.id with
  | headerTableSize => rfl
  | _ => rfl

theorem encoderTable_step (dec : BlockDecoder δ) (s : ClientConn δ) (e : ClientEvent) :
    (step dec s e).encoderTable =
      ((lastValue (s.accepted e) .headerTableSize).map encoderLimit).getD s.encoderTable := by
  by_cases he : e.frame? = none
  · rw [(sameCodec_local dec s he).encoderTable]
    unfold accepted
    rw [he]
    rfl
  · cases e with
    | frame f =>
      have haccepted : s.accepted (.frame f) = match f.params? with
          | none => []
          | some params => if s.Takes f then params else [] := rfl
      rw [haccepted]
      cases hparams : f.params? with
      | none =>
        rcases frame_settings dec s f with ⟨-, hsame⟩ | ⟨params, -, hsome, -, -⟩
        · exact hsame
        · rw [hparams] at hsome
          cases hsome
      | some params =>
        obtain rfl := PeerFrame.eq_of_params? hparams
        dsimp only
        split_ifs with htakes
        · rw [step_frame_taken htakes, (sameCodec_answer _ _).encoderTable]
          exact foldl_lastValue applySetting (fun s => s.encoderTable) .headerTableSize
            encoderLimit encoderTable_applySetting params s
        · exact (sameCodec_frame dec s (fun h => absurd h htakes)).encoderTable
    | _ => exact absurd rfl he

end ClientConn

theorem table_of_watch {S E : Type} (step : S → E → S) (accepted : S → E → List Setting)
    (table : S → ℕ) (hstep : ∀ s e, table (step s e) =
      ((lastValue (accepted s e) .headerTableSize).map encoderLimit).getD (table s))
    (es : List E) (s : S) :
    table (es.foldl (watch step accepted) (s, [])).1 =
      ((lastValue (es.foldl (watch step accepted) (s, [])).2 .headerTableSize).map
        encoderLimit).getD (table s) := by
  have hinv (p : S × List Setting) (e : E)
      (h : table p.1 = ((lastValue p.2 .headerTableSize).map encoderLimit).getD (table s)) :
      table (watch step accepted p e).1 =
        ((lastValue (watch step accepted p e).2 .headerTableSize).map encoderLimit).getD
          (table s) := by
    unfold watch
    dsimp only
    rw [hstep, lastValue_append, h]
    cases lastValue (accepted p.1 e) .headerTableSize with
    | none => rfl
    | some n => rfl
  exact invariant_of_run hinv es (s, []) rfl

/-- The last `HEADER_TABLE_SIZE` of the peer, which counts as 4096 until it says otherwise. -/
def announcedTable (params : List Setting) : ℕ := (lastValue params .headerTableSize).getD 4096

/-- The encoder has been told: the peer has announced a size after the handshake, or what it
announced there is no smaller than the size the encoder starts with. -/
def TableForwarded (start : ℕ) (handshake later : List Setting) : Prop :=
  lastValue later .headerTableSize ≠ none ∨ start ≤ announcedTable handshake

theorem table_le_announced_iff (start : ℕ) (handshake later : List Setting) :
    ((lastValue later .headerTableSize).map encoderLimit).getD start ≤
        announcedTable (handshake ++ later) ↔ TableForwarded start handshake later := by
  unfold TableForwarded announcedTable
  rw [lastValue_append]
  cases lastValue later .headerTableSize with
  | none => simp
  | some n => simp [encoderLimit]

/-- Whenever a header block is encoded, the encoder's table is within what the peer has announced
exactly when the announcement in force has reached the encoder. -/
theorem encoder_table_within_announced_iff {δ : Type} (dec : BlockDecoder δ) (hpack : δ)
    (params : List Setting) (cs : ClientSettings) :
    readClientSettings params = .ok cs →
      (∀ (settings : ServerSettings) (es : List Event) (e : Event),
        let p := es.foldl (watch (ServerConn.step dec) ServerConn.accepted)
          (newServerConn hpack settings cs, [])
        p.1.Encodes e →
          (p.1.encoderTable ≤ announcedTable (params ++ p.2) ↔
            TableForwarded (encoderLimit settings.headerTableSize) params p.2)) ∧
      ∀ (es : List ClientEvent) (e : ClientEvent),
        let p := es.foldl (watch (ClientConn.step dec) ClientConn.accepted)
          (newClientConn hpack cs, [])
        p.1.Encodes e →
          (p.1.encoderTable ≤ announcedTable (params ++ p.2) ↔
            TableForwarded 4096 params p.2) := by
  intro _
  constructor
  · intro settings es e p _
    have htable := table_of_watch (ServerConn.step dec) ServerConn.accepted
      (fun s => s.encoderTable) (ServerConn.encoderTable_step dec) es
      (newServerConn hpack settings cs)
    change p.1.encoderTable = _ at htable
    rw [htable]
    exact table_le_announced_iff _ params p.2
  · intro es e p _
    have htable := table_of_watch (ClientConn.step dec) ClientConn.accepted
      (fun s => s.encoderTable) (ClientConn.encoderTable_step dec) es (newClientConn hpack cs)
    change p.1.encoderTable = _ at htable
    rw [htable]
    exact table_le_announced_iff _ params p.2

/-- A client that announces no table at all: the size is forwarded when it comes again after the
handshake. -/
theorem repeated_announcement_forwarded :
    let cs : ClientSettings := { headerTableSize := 0 }
    let es := [Event.frame (.settings false [⟨.headerTableSize, 100⟩, ⟨.headerTableSize, 0⟩]),
      .frame (.headers 1 [] true true none), .flush]
    let p := es.foldl (watch (ServerConn.step blankDecoder) ServerConn.accepted)
      (newServerConn () {} cs, [])
    p.1.Encodes (.headers 1 true) ∧
      p.1.encoderTable ≤ announcedTable ([⟨.headerTableSize, 0⟩] ++ p.2) := by
  intro cs es p
  have hencodes : p.1.Encodes (.headers 1 true) := by
    change 1 ∈ p.1.running
    decide
  have h := (encoder_table_within_announced_iff blankDecoder () [⟨.headerTableSize, 0⟩] cs rfl).1
    {} es (.headers 1 true) hencodes
  exact ⟨hencodes, h.mpr (.inl (by decide))⟩

/-- The first response to a client that announced a table of 0 in its first SETTINGS is encoded
with a table of 4096. -/
theorem handshake_table_ignored :
    let params := [Setting.mk .headerTableSize 0]
    let cs : ClientSettings := { headerTableSize := 0 }
    let es := [Event.frame (.headers 1 [] true true none), .flush]
    let p := es.foldl (watch (ServerConn.step blankDecoder) ServerConn.accepted)
      (newServerConn () {} cs, [])
    readClientSettings params = .ok cs ∧ p.1.Encodes (.headers 1 true) ∧
      p.1.encoderTable = 4096 ∧ announcedTable (params ++ p.2) = 0 := by
  intro params cs es p
  refine ⟨rfl, ?_, by decide, by decide⟩
  change 1 ∈ p.1.running
  decide

end EnvoyGo.H2

import EnvoyGo.FrameSniffer

/-!
The request decoder of the ZooKeeper proxy filter, `zookeeperproxy/decoder.go`, with the opcodes of
`config.go` and the counters of `stats.go`.
-/

namespace EnvoyGo.ZooKeeper

open LengthPrefix StreamFrames FrameSniffer

def connectXid : ℤ := 0

def pingXid : ℤ := -2

def authXid : ℤ := -4

def setWatchesXid : ℤ := -8

def opConnect : ℤ := 0

def opPing : ℤ := 11

def opSetAuth : ℤ := 100

def opSetWatches : ℤ := 101

def wireOpcodeToOpname : List (ℤ × String) :=
  [(1, "create"), (2, "delete"), (3, "exists"), (4, "getdata"), (5, "setdata"), (6, "getacl"),
    (7, "setacl"), (8, "getchildren"), (9, "sync"), (11, "ping"), (12, "getchildren2"),
    (13, "check"), (14, "multi"), (15, "create2"), (16, "reconfig"), (17, "checkwatches"),
    (18, "removewatches"), (19, "createcontainer"), (21, "createttl"), (-11, "close"),
    (100, "auth"), (101, "setwatches"), (103, "getephemerals"), (104, "getallchildrennumber"),
    (105, "setwatches2"), (106, "addwatch")]

def dataRequestMinLength : List (ℤ × ℕ) :=
  [(4, 13), (1, 24), (15, 24), (19, 24), (21, 24), (5, 20), (8, 13), (12, 13), (2, 16), (3, 13),
    (6, 12), (7, 20), (9, 12), (13, 16), (14, 17), (16, 28), (101, 28), (105, 36), (106, 16),
    (17, 16), (18, 16), (103, 12), (104, 12)]

def authSchemeBuiltins : List String :=
  ["auth", "digest", "host", "ip", "ping_response", "world", "x509"]

structure Config where
  maxPacketBytes : ℕ
  enablePerOpcodeRequestBytesMetrics : Bool := false
  enablePerOpcodeDecoderErrorMetrics : Bool := false

structure PendingRequest where
  opname : String
  wireOpcode : ℤ
  deriving DecidableEq

structure Requests where
  counters : Counters
  requestsByXid : ℤ → Option PendingRequest := fun _ => none
  controlRequestsByXid : ℤ → List PendingRequest := fun _ => []

def int32At (frame : Bytes) (i : ℕ) : ℤ := signedBigEndian ((frame.drop i).take 4)

def wireFootprint (frame : Bytes) : ℕ := 4 + frame.length

def schemeName (scheme : Bytes) : String :=
  (authSchemeBuiltins.find? fun s => textBytes s = scheme).getD "unknown_scheme"

namespace Requests

variable (cfg : Config) (d : Requests)

def inc (suffix : String) : Requests := { d with counters := d.counters.inc suffix }

def countRequestBytes (opname : String) (wireBytes : ℕ) : Requests :=
  let counters := d.counters.add "request_bytes" wireBytes
  { d with counters :=
      if cfg.enablePerOpcodeRequestBytesMetrics then counters.add (opname ++ "_rq_bytes") wireBytes
      else counters }

def decoderError (opname : String) : Requests :=
  let d := d.inc "decoder_error"
  if opname ≠ "" ∧ cfg.enablePerOpcodeDecoderErrorMetrics then d.inc (opname ++ "_decoder_error")
  else d

def recordControl (xid : ℤ) (opname : String) (wireOpcode : ℤ) : Requests :=
  let queue := d.controlRequestsByXid xid ++ [⟨opname, wireOpcode⟩]
  { d with controlRequestsByXid := Function.update d.controlRequestsByXid xid queue }

def onControl (counter opname : String) (xid wireOpcode : ℤ) (frame : Bytes) : Requests :=
  ((d.inc counter).countRequestBytes cfg opname (wireFootprint frame)).recordControl xid opname
    wireOpcode

def onConnect (frame : Bytes) : Requests × Bool :=
  if frame.length < 28 then (d.decoderError cfg "connect", false)
  else
    let pwLen := int32At frame 24
    if pwLen < 0 ∨ frame.length < 28 + pwLen then (d.decoderError cfg "connect", false)
    else
      let readonly := (frame.drop (28 + pwLen.toNat)).head? = some 1
      let opname := if readonly then "connect_readonly" else "connect"
      let counter := if readonly then "connect_readonly_rq" else "connect_rq"
      (d.onControl cfg counter opname connectXid opConnect frame, true)

def onAuth (frame : Bytes) : Requests × Bool :=
  if frame.length < 20 then (d.decoderError cfg "auth", false)
  else
    let schemeLen := int32At frame 12
    if schemeLen < 0 ∨ frame.length < 16 + schemeLen then (d.decoderError cfg "auth", false)
    else
      let scheme := (frame.drop 16).take schemeLen.toNat
      (d.onControl cfg ("auth." ++ schemeName scheme ++ "_rq") "auth" authXid opSetAuth frame,
        true)

def onDataRequest (xid : ℤ) (frame : Bytes) : Requests × Bool :=
  let opcode := int32At frame 4
  match wireOpcodeToOpname.lookup opcode with
  | none => (d.decoderError cfg "", false)
  | some opname =>
    if opcode = opSetAuth then (d.decoderError cfg "", false)
    else if (dataRequestMinLength.lookup opcode).any fun minLen => frame.length < minLen then
      (d.decoderError cfg opname, false)
    else
      let d := (d.inc (opname ++ "_rq")).countRequestBytes cfg opname (wireFootprint frame)
      ({ d with requestsByXid :=
          Function.update d.requestsByXid xid (some ⟨opname, opcode⟩) }, true)

def decodeFrame (frame : Bytes) : Requests × Bool :=
  if frame.length < 8 then (d.decoderError cfg "", false)
  else
    let xid := int32At frame 0
    if xid = connectXid then d.onConnect cfg frame
    else if xid = pingXid then
      (d.onControl cfg "ping_rq" "ping" pingXid opPing frame, true)
    else if xid = authXid then d.onAuth cfg frame
    else if xid = setWatchesXid then
      (d.onControl cfg "setwatches_rq" "setwatches" setWatchesXid opSetWatches frame, true)
    else d.onDataRequest cfg xid frame

end Requests

/-- The bound `4+frameLen` of the slice is an `int32`, and negative for the longest frames. -/
def protocol (cfg : Config) : Protocol Requests where
  bound := cfg.maxPacketBytes
  decode d frame :=
    if frame.length ≥ 2^31 then .panic
    else
      match d.decodeFrame cfg (frame.drop 4) with
      | (d, true) => .ok d
      | (d, false) => .stop d
  outOfBounds d := d.decoderError cfg ""

/-- What a connection starts with. -/
def newDecoder (rs : Counters) : Requests := { counters := rs }

def decodes (cfg : Config) (frame : Bytes) : Bool :=
  ((newDecoder fun _ => 0).decodeFrame cfg frame).2

namespace Requests

variable (cfg : Config) (d d' : Requests)

theorem onConnect_snd (frame : Bytes) :
    (d.onConnect cfg frame).2 = (d'.onConnect cfg frame).2 := by
  unfold onConnect
  dsimp only
  split_ifs <;> rfl

theorem onAuth_snd (frame : Bytes) : (d.onAuth cfg frame).2 = (d'.onAuth cfg frame).2 := by
  unfold onAuth
  dsimp only
  split_ifs <;> rfl

theorem onDataRequest_snd (xid : ℤ) (frame : Bytes) :
    (d.onDataRequest cfg xid frame).2 = (d'.onDataRequest cfg xid frame).2 := by
  unfold onDataRequest
  dsimp only
  cases wireOpcodeToOpname.lookup (int32At frame 4) with
  | none => rfl
  | some opname =>
    dsimp only
    split_ifs <;> rfl

theorem decodeFrame_snd (frame : Bytes) :
    (d.decodeFrame cfg frame).2 = (d'.decodeFrame cfg frame).2 := by
  unfold decodeFrame
  dsimp only
  split_ifs
  · rfl
  · exact onConnect_snd cfg d d' frame
  · rfl
  · exact onAuth_snd cfg d d' frame
  · rfl
  · exact onDataRequest_snd cfg d d' _ frame

end Requests

theorem decode_ne_stop {cfg : Config} {frame : Bytes} (h : decodes cfg (frame.drop 4) = true)
    (d d' : Requests) : (protocol cfg).decode d frame ≠ .stop d' := by
  have hok : (d.decodeFrame cfg (frame.drop 4)).2 = true :=
    (Requests.decodeFrame_snd cfg d _ _).trans h
  intro hstop
  unfold protocol at hstop
  dsimp only at hstop
  split_ifs at hstop
  cases hdecoded : d.decodeFrame cfg (frame.drop 4) with
  | mk after ok =>
    rw [hdecoded] at hok hstop
    cases hok
    cases hstop

/-- No frame of the stream triggers a decode error. -/
def FramesDecode (cfg : Config) (b : Bytes) : Prop :=
  ∀ m ∈ (protocol cfg).wire.frames b, decodes cfg (m.drop 4) = true

instance decidableFramesDecode (cfg : Config) (b : Bytes) : Decidable (FramesDecode cfg b) :=
  inferInstanceAs (Decidable (∀ m ∈ (protocol cfg).wire.frames b, decodes cfg (m.drop 4) = true))

theorem accepts {cfg : Config} {b : Bytes} (h : (protocol cfg).InBounds b)
    (hdecode : FramesDecode cfg b) : (protocol cfg).Accepts b :=
  ⟨h, fun m hm => decode_ne_stop (hdecode m hm)⟩

theorem decode_ne_panic {cfg : Config} (hmax : cfg.maxPacketBytes + 4 < 2^31) (b : Bytes) :
    ∀ m ∈ (protocol cfg).wire.frames b, ∀ d, (protocol cfg).decode d m ≠ .panic := by
  refine Framer.forall_mem_frames (fun b m r hm => ?_) b
  obtain ⟨hpos, hbound, -, rfl, -⟩ := next_eq_frame hm
  change declared b ≤ cfg.maxPacketBytes at hbound
  have hlen := List.length_take_le (4 + (declared b).toNat) b
  intro d hpanic
  unfold protocol at hpanic
  dsimp only at hpanic
  rw [if_neg (by omega)] at hpanic
  split at hpanic <;> cases hpanic

end EnvoyGo.ZooKeeper

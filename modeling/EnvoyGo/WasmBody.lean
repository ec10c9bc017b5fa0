import EnvoyGo.RequestFraming
import EnvoyGo.LocalReplyInvariant

/-!
Body edits of a wasm guest: `proxy_set_buffer_bytes` and `proxy_get_buffer_bytes` on the body
accumulators of the filter, the data callbacks that fill them, and the body the dispatcher forwards.
-/

namespace EnvoyGo.WasmBody

inductive Hostcall
  | setBufferBytes (start size : UInt32) (data : Bytes)
  | getBufferBytes (start maxSize : UInt32)
  deriving DecidableEq

def spliceBuffer (buf : Bytes) (start : UInt32) (data : Bytes) : Bytes :=
  if buf.length % 2^32 ≤ start.toNat then buf ++ data else buf.take start.toNat ++ data

def getBufferBytesShim (buf : Bytes) (start maxSize : UInt32) : Option Bytes :=
  if start + maxSize < start then none
  else
    let bufLen := buf.length % 2^32
    let length :=
      if bufLen ≤ start.toNat then 0
      else if bufLen < (start + maxSize).toNat then bufLen - start.toNat
      else maxSize.toNat
    some ((buf.drop start.toNat).take length)

/-- A hostcall on a buffer: the buffer it leaves and what it returns.  `SetBufferBytesShim` drops
the size. -/
def Hostcall.exec (buf : Bytes) : Hostcall → Bytes × Option Bytes
  | .setBufferBytes start _ data => (spliceBuffer buf start data, some [])
  | .getBufferBytes start maxSize => (buf, getBufferBytesShim buf start maxSize)

/-- What the hostcalls are for: `buf[start:start+size]` replaced by the data, and a range of the
buffer read, with a range that wraps refused. -/
def Hostcall.spec (buf : Bytes) : Hostcall → Bytes × Option Bytes
  | .setBufferBytes start size data =>
    (buf.take start.toNat ++ data ++ buf.drop (start.toNat + size.toNat), some [])
  | .getBufferBytes start maxSize =>
    (buf, if start.toNat + maxSize.toNat < 2^32 then
      some ((buf.drop start.toNat).take maxSize.toNat) else none)

/-- The replaced range reaches the end of the buffer.  From 2^32 bytes on the code sees the length
of the buffer modulo 2^32: it appends at a start in between, and reads up to the length it sees. -/
def Fits (buf : Bytes) : Hostcall → Prop
  | .setBufferBytes start size data =>
    if buf.length % 2^32 ≤ start.toNat ∧ start.toNat < buf.length then
      size.toNat = 0 ∧ data ++ buf.drop start.toNat = buf.drop start.toNat ++ data
    else buf.length ≤ start.toNat + size.toNat
  | .getBufferBytes start maxSize =>
    start.toNat + maxSize.toNat < 2^32 → buf.length < 2^32 ∨ maxSize.toNat = 0 ∨
      start.toNat + maxSize.toNat ≤ buf.length % 2^32

inductive GuestAction
  | proceed
  | pause
  | trap
  | sendLocalResponse (r : LocalReply)

/-- What the guest does in one body callback, and in other callbacks while the stream is parked
on its pause. -/
structure Turn where
  calls : List Hostcall := []
  action : GuestAction := .proceed
  parked : List Hostcall := []
  wake : Wake := .resumed

/-- One hostcall with the buffer before and after it. -/
structure Entry where
  before : Bytes
  call : Hostcall
  after : Bytes
  result : Option Bytes

def Entry.Right (e : Entry) : Prop := (e.after, e.result) = e.call.spec e.before

structure Side where
  body : Bytes := []
  capExceeded : Bool := false
  callbacks : ℕ := 0
  turn : Turn := {}
  log : List Entry := []

namespace Side

def hostcall (s : Side) (call : Hostcall) : Side :=
  { s with
    body := (call.exec s.body).1
    log := s.log ++ [⟨s.body, call, (call.exec s.body).1, (call.exec s.body).2⟩] }

def accumulate (s : Side) (data : Bytes) : Side := { s with body := s.body ++ data }

def callGuest (s : Side) (guest : ℕ → Turn) : Side :=
  (guest s.callbacks).calls.foldl hostcall
    { s with callbacks := s.callbacks + 1, turn := guest s.callbacks }

end Side

structure Filter where
  decode : Side := {}
  encode : Side := {}

/-- The configuration and the guest: what it does in its data callbacks of either side. -/
structure Config where
  bodyBufferCapBytes : ℕ
  request : ℕ → Turn
  response : ℕ → Turn

def onDecode (f : Side → Side) (w : World Filter) : World Filter :=
  { w with filters := { w.filters with decode := f w.filters.decode } }

def onEncode (f : Side → Side) (w : World Filter) : World Filter :=
  { w with filters := { w.filters with encode := f w.filters.encode } }

def payloadTooLarge : LocalReply :=
  { status := 413, body := textBytes "Payload Too Large", headers := [] }

def decodeData (cfg : Config) (data : Bytes) : FilterProg Filter FilterDataStatus :=
  .touch id fun w =>
    if w.filters.decode.capExceeded then .done .dataTerminateStream
    else
      .touch (onDecode (fun s => s.accumulate data)) fun w =>
        if w.filters.decode.body.length % 2^32 > cfg.bodyBufferCapBytes then
          .touch (onDecode (fun s => { s with capExceeded := true })) fun _ =>
            .sendLocalReply payloadTooLarge (.done .dataStopIterationNoBuffer)
        else
          .touch (onDecode (fun s => s.callGuest cfg.request)) fun w =>
            match w.filters.decode.turn.action with
            | .trap => .done .dataContinue
            | .sendLocalResponse r => .sendLocalReply r (.done .dataStopIterationNoBuffer)
            | .pause => .done .dataStopIterationAndBuffer
            | .proceed => .done .dataContinue

def encodeData (cfg : Config) (data : Bytes) : FilterProg Filter FilterDataStatus :=
  .touch id fun w =>
    if w.filters.encode.capExceeded then .done .dataTerminateStream
    else
      .touch (onEncode (fun s => s.accumulate data)) fun w =>
        if w.filters.encode.body.length % 2^32 > cfg.bodyBufferCapBytes then
          .touch (onEncode (fun s => { s with capExceeded := true })) fun _ =>
            .done .dataTerminateStream
        else
          .touch (onEncode (fun s => s.callGuest cfg.response)) fun w =>
            match w.filters.encode.turn.action with
            | .trap => .done .dataContinue
            | .sendLocalResponse _ => .done .dataTerminateStream
            | .pause => .done .dataStopIterationAndBuffer
            | .proceed => .done .dataContinue

def Side.whileParked (s : Side) : Side := s.turn.parked.foldl Side.hostcall s

def wasmFilter (cfg : Config) : HTTPFilter Filter where
  name := "envoy.filters.http.wasm"
  decoder := some
    { decodeHeaders := fun _ => .done .continueIteration
      decodeData := fun data _ => decodeData cfg data
      parked := .touch (onDecode Side.whileParked) fun w => .done w.filters.decode.turn.wake }
  encoder := some
    { encodeHeaders := fun _ => .done .continueIteration
      encodeData := fun data _ => encodeData cfg data
      parked := .touch (onEncode Side.whileParked) fun w => .done w.filters.encode.turn.wake }

def wasmChain (cfg : Config) : List (HTTPFilter Filter) := [wasmFilter cfg, routerFilter]

def Turn.all (t : Turn) : List Hostcall :=
  match t.action with
  | .pause => t.calls ++ t.parked
  | _ => t.calls

def meant (buf : Bytes) (calls : List Hostcall) : Bytes :=
  calls.foldl (fun buf call => (call.spec buf).1) buf

def CallsFit : Bytes → List Hostcall → Prop
  | _, [] => True
  | buf, call :: calls => Fits buf call ∧ CallsFit (call.spec buf).1 calls

/-- The buffer after the data callbacks from the `n`-th on, done as they are meant. -/
def meantBody (guest : ℕ → Turn) : ℕ → Bytes → List Bytes → Bytes
  | _, buf, [] => buf
  | n, buf, data :: rest => meantBody guest (n + 1) (meant (buf ++ data) (guest n).all) rest

def BodyFits (guest : ℕ → Turn) : ℕ → Bytes → List Bytes → Prop
  | _, _, [] => True
  | n, buf, data :: rest =>
    CallsFit (buf ++ data) (guest n).all ∧
      BodyFits guest (n + 1) (meant (buf ++ data) (guest n).all) rest

def dataCallbacks (b : BodyReader) : List Bytes := b.chunks.filter (· ≠ []) ++ [b.last]

/-- Every hostcall did what it is meant to do, and the body forwarded is the buffer. -/
def Effective (s : Side) (forwarded : Bytes) : Prop :=
  (∀ e ∈ s.log, e.Right) ∧ forwarded = s.body

/-- Every replaced range reaches the end of the buffer, and the edits leave the body received. -/
def Harmless (guest : ℕ → Turn) (chunks : List Bytes) : Prop :=
  BodyFits guest 0 [] chunks ∧ meantBody guest 0 [] chunks = chunks.flatten

theorem setBufferBytes_iff (buf : Bytes) (start size : UInt32) (data : Bytes) :
    spliceBuffer buf start data =
        buf.take start.toNat ++ data ++ buf.drop (start.toNat + size.toNat) ↔
      Fits buf (.setBufferBytes start size data) := by
  simp only [spliceBuffer, Fits]
  by_cases hpast : buf.length ≤ start.toNat
  · -- past the end there is nothing to replace
    have hmod : buf.length % 2^32 ≤ start.toNat := (Nat.mod_le _ _).trans hpast
    rw [if_pos hmod, if_neg (by omega), List.take_of_length_le hpast,
      List.drop_of_length_le (by omega), List.append_nil]
    exact ⟨fun _ => by omega, fun _ => rfl⟩
  · by_cases hmod : buf.length % 2^32 ≤ start.toNat
    · rw [if_pos hmod, if_pos ⟨hmod, by omega⟩]
      have hsplit : buf ++ data = buf.take start.toNat ++ (buf.drop start.toNat ++ data) := by
        rw [← List.append_assoc, List.take_append_drop]
      rw [hsplit, List.append_assoc, List.append_right_inj]
      constructor
      · intro heq
        have hlen := congrArg List.length heq
        simp only [List.length_append, List.length_drop] at hlen
        have hsize : size.toNat = 0 := by omega
        rw [hsize, Nat.add_zero] at heq
        exact ⟨hsize, heq.symm⟩
      · rintro ⟨hsize, hcomm⟩
        rw [hsize, Nat.add_zero, hcomm]
    · rw [if_neg hmod, if_neg (by omega)]
      constructor
      · intro heq
        have hlen := congrArg List.length heq
        simp only [List.length_append, List.length_drop, List.length_take] at hlen
        omega
      · intro hend
        rw [List.drop_of_length_le hend, List.append_nil]

theorem getBufferBytes_iff (buf : Bytes) (start maxSize : UInt32) :
    getBufferBytesShim buf start maxSize =
        (if start.toNat + maxSize.toNat < 2^32 then
          some ((buf.drop start.toNat).take maxSize.toNat) else none) ↔
      Fits buf (.getBufferBytes start maxSize) := by
  have hstart := start.toNat_lt
  have hmax := maxSize.toNat_lt
  simp only [getBufferBytesShim, Fits, UInt32.lt_iff_toNat_lt, UInt32.toNat_add]
  by_cases hwrap : start.toNat + maxSize.toNat < 2^32
  · rw [Nat.mod_eq_of_lt hwrap, if_neg (by omega), if_pos hwrap]
    simp only [Option.some.injEq]
    have hread : ∀ n m : ℕ, (buf.drop start.toNat).take n = (buf.drop start.toNat).take m ↔
        min n (buf.length - start.toNat) = min m (buf.length - start.toNat) := by
      intro n m
      rw [List.take_eq_take_iff, List.length_drop]
    rw [hread]
    split_ifs <;> omega
  · have hmod : (start.toNat + maxSize.toNat) % 2^32 = start.toNat + maxSize.toNat - 2^32 := by
      rw [Nat.mod_eq_sub_mod (by omega), Nat.mod_eq_of_lt (by omega)]
    rw [hmod, if_pos (by omega), if_neg hwrap]
    exact ⟨fun _ h => absurd h hwrap, fun _ => rfl⟩

theorem exec_eq_spec_iff (buf : Bytes) (call : Hostcall) :
    call.exec buf = call.spec buf ↔ Fits buf call := by
  cases call with
  | setBufferBytes start size data =>
    rw [← setBufferBytes_iff, Hostcall.exec, Hostcall.spec, Prod.mk.injEq, and_iff_left rfl]
  | getBufferBytes start maxSize =>
    rw [← getBufferBytes_iff, Hostcall.exec, Hostcall.spec, Prod.mk.injEq, and_iff_right rfl]

theorem hostcalls_meant (calls : List Hostcall) (s : Side) (h : CallsFit s.body calls) :
    (calls.foldl Side.hostcall s).body = meant s.body calls := by
  induction calls generalizing s with
  | nil => rfl
  | cons call calls ih =>
    obtain ⟨hfits, hrest⟩ := h
    have hexec := (exec_eq_spec_iff s.body call).mpr hfits
    have hbody : (s.hostcall call).body = (call.spec s.body).1 := by
      rw [← hexec]
      rfl
    rw [List.foldl_cons, ih (s.hostcall call) (by rw [hbody]; exact hrest), hbody]
    rfl

theorem hostcalls_right_iff (calls : List Hostcall) (s : Side) :
    (∀ e ∈ (calls.foldl Side.hostcall s).log, e.Right) ↔
      (∀ e ∈ s.log, e.Right) ∧ CallsFit s.body calls := by
  induction calls generalizing s with
  | nil => exact ⟨fun h => ⟨h, trivial⟩, fun h => h.1⟩
  | cons call calls ih =>
    have hlog : (∀ e ∈ (s.hostcall call).log, e.Right) ↔
        (∀ e ∈ s.log, e.Right) ∧ Fits s.body call := by
      rw [Side.hostcall, List.forall_mem_append, List.forall_mem_singleton, ← exec_eq_spec_iff]
      rfl
    rw [List.foldl_cons, ih, hlog, and_assoc]
    refine and_congr_right (fun _ => and_congr_right (fun hfits => ?_))
    have hexec := (exec_eq_spec_iff s.body call).mpr hfits
    have hbody : (s.hostcall call).body = (call.spec s.body).1 := by
      rw [← hexec]
      rfl
    rw [hbody]

def Side.feed (guest : ℕ → Turn) (s : Side) (data : Bytes) : Side :=
  (guest s.callbacks).all.foldl Side.hostcall
    { s with
      body := s.body ++ data
      callbacks := s.callbacks + 1
      turn := guest s.callbacks }

theorem hostcalls_callbacks (calls : List Hostcall) (s : Side) :
    (calls.foldl Side.hostcall s).callbacks = s.callbacks ∧
      (calls.foldl Side.hostcall s).turn = s.turn ∧
      (calls.foldl Side.hostcall s).capExceeded = s.capExceeded := by
  induction calls generalizing s with
  | nil => exact ⟨rfl, rfl, rfl⟩
  | cons call calls ih => exact ih (s.hostcall call)

variable (guest : ℕ → Turn)

theorem feeds_right_iff (chunks : List Bytes) (s : Side) :
    (∀ e ∈ (chunks.foldl (Side.feed guest) s).log, e.Right) ↔
      (∀ e ∈ s.log, e.Right) ∧ BodyFits guest s.callbacks s.body chunks := by
  induction chunks generalizing s with
  | nil => exact ⟨fun h => ⟨h, trivial⟩, fun h => h.1⟩
  | cons data chunks ih =>
    rw [List.foldl_cons, ih, Side.feed, hostcalls_right_iff, and_assoc]
    refine and_congr_right (fun _ => and_congr_right (fun hfits => ?_))
    rw [(hostcalls_callbacks _ _).1, hostcalls_meant _ _ hfits]

theorem feeds_meant (chunks : List Bytes) (s : Side)
    (h : BodyFits guest s.callbacks s.body chunks) :
    (chunks.foldl (Side.feed guest) s).body = meantBody guest s.callbacks s.body chunks := by
  induction chunks generalizing s with
  | nil => rfl
  | cons data chunks ih =>
    obtain ⟨hfits, hrest⟩ := h
    have hbody : (s.feed guest data).body = meant (s.body ++ data) (guest s.callbacks).all :=
      hostcalls_meant _ _ hfits
    have hcallbacks : (s.feed guest data).callbacks = s.callbacks + 1 :=
      (hostcalls_callbacks _ _).1
    rw [List.foldl_cons, ih _ (by rw [hbody, hcallbacks]; exact hrest), hbody, hcallbacks]
    rfl

theorem effective_iff (chunks : List Bytes) :
    Effective (chunks.foldl (Side.feed guest) {}) chunks.flatten ↔ Harmless guest chunks := by
  rw [Effective, feeds_right_iff, Harmless]
  constructor
  · rintro ⟨⟨-, hfits⟩, hbody⟩
    rw [feeds_meant guest chunks _ hfits] at hbody
    exact ⟨hfits, hbody.symm⟩
  · rintro ⟨hfits, hbody⟩
    refine ⟨⟨fun e he => absurd he List.not_mem_nil, hfits⟩, ?_⟩
    rw [feeds_meant guest chunks _ hfits]
    exact hbody.symm

theorem callGuest_feed (s : Side) (data : Bytes)
    (hact : (guest s.callbacks).all = (guest s.callbacks).calls) :
    (s.accumulate data).callGuest guest = s.feed guest data := by
  rw [Side.feed, hact]
  rfl

theorem whileParked_feed (s : Side) (data : Bytes) (hact : (guest s.callbacks).action = .pause) :
    ((s.accumulate data).callGuest guest).whileParked = s.feed guest data := by
  have hturn : ((s.accumulate data).callGuest guest).turn = guest s.callbacks :=
    (hostcalls_callbacks _ _).2.1
  have hall : (guest s.callbacks).all =
      (guest s.callbacks).calls ++ (guest s.callbacks).parked := by
    rw [Turn.all, hact]
  rw [Side.whileParked, hturn, Side.feed, hall, List.foldl_append]
  rfl

end EnvoyGo.WasmBody

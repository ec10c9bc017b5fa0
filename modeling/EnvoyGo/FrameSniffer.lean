import EnvoyGo.ChainFeed
import EnvoyGo.LengthPrefix

/-!
The request side of the sniffers that reassemble frames behind a length: `decodeOnData` and
`nextFrame` of `kafkabroker` and `zookeeperproxy`.
-/

namespace EnvoyGo.FrameSniffer

open StreamFrames Network

variable {σ : Type}

/-- The counters of a filter, by their names behind the stat prefix. -/
abbrev Counters := String → ℕ

namespace Counters

def add (c : Counters) (suffix : String) (delta : ℕ) : Counters :=
  Function.update c suffix (c suffix + delta)

def inc (c : Counters) (suffix : String) : Counters := c.add suffix 1

variable {roster : List String} {c c' c'' : Counters}

end Counters

/-- One frame was decoded, or it was refused and the buffer abandoned, or the code panicked. -/
inductive Outcome (σ : Type) where
  | ok (s : σ)
  | stop (s : σ)
  | panic

/-- What the protocols differ in: the bound on the length, the decoding of one frame, given with
its length in front, and what a length out of bounds does. -/
structure Protocol (σ : Type) where
  bound : ℕ
  decode : σ → Bytes → Outcome σ
  outOfBounds : σ → σ

namespace Protocol

variable (P : Protocol σ)

def wire : Framer UInt8 := LengthPrefix.framer P.bound

def decodeFrames : ℕ → σ → Bytes → Option (σ × Bytes)
  | 0, s, b => some (s, b)
  | fuel + 1, s, b =>
    match P.wire.next b with
    | .more => some (s, b)
    | .bad => some (P.outOfBounds s, [])
    | .frame m rest =>
      match P.decode s m with
      | .ok s => decodeFrames fuel s rest
      | .stop s => some (s, [])
      | .panic => none

end Protocol

structure Decoder (σ : Type) where
  chainConsumed : ℕ := 0
  readBuf : Bytes := []
  state : σ

def decodeOnData (P : Protocol σ) (d : Decoder σ) (chain : Bytes) (totalAppended : ℕ) :
    Option (Decoder σ) :=
  let fresh := newBytes chain totalAppended d.chainConsumed
  let readBuf := d.readBuf ++ fresh.1
  (P.decodeFrames (readBuf.length + 1) d.state readBuf).map fun (s, rest) => ⟨fresh.2, rest, s⟩

def sniffing (P : Protocol σ) : Sniffing (Decoder σ) := ⟨decodeOnData P, Decoder.chainConsumed⟩

namespace Protocol

variable (P : Protocol σ)

/-- All lengths are within bounds: the bytes behind the last frame may become one. -/
def InBounds (b : Bytes) : Prop := P.wire.next (P.wire.rest b) ≠ .bad

instance decidableInBounds (b : Bytes) : Decidable (P.InBounds b) :=
  inferInstanceAs (Decidable (P.wire.next (P.wire.rest b) ≠ .bad))

/-- All lengths are within bounds, and no frame is refused. -/
structure Accepts (b : Bytes) : Prop where
  inBounds : P.InBounds b
  decodes : ∀ m ∈ P.wire.frames b, ∀ s s', P.decode s m ≠ .stop s'

def decoded (s : σ) (m : Bytes) : Option σ :=
  match P.decode s m with
  | .ok s => some s
  | _ => none

variable {P}

theorem Accepts.of_append {b c : Bytes} (h : P.Accepts (b ++ c)) : P.Accepts b := by
  have hclean : P.wire.Clean (fun _ => true) (b ++ c) := ⟨fun _ _ => rfl, h.inBounds⟩
  refine ⟨hclean.of_append.2, fun m hm => h.decodes m ?_⟩
  rw [(P.wire.frames_append b c).1]
  exact List.mem_append_left _ hm

theorem decodeFrames_eq {fuel : ℕ} {b : Bytes} (hfuel : b.length < fuel) (s : σ)
    (h : P.Accepts b) : P.decodeFrames fuel s b =
      ((P.wire.frames b).foldlM P.decoded s).map fun s => (s, P.wire.rest b) := by
  induction b using P.wire.frames_induction generalizing fuel s with
  | stop b hstop =>
    obtain ⟨k, rfl⟩ := Nat.exists_eq_add_one.mpr (Nat.zero_lt_of_lt hfuel)
    have hbad : P.wire.next (P.wire.rest b) ≠ .bad := h.inBounds
    rw [(Framer.frames_stop hstop).2] at hbad
    rw [(Framer.frames_stop hstop).1, (Framer.frames_stop hstop).2, decodeFrames]
    cases hn : P.wire.next b with
    | frame m r => exact absurd hn (hstop m r)
    | more => rfl
    | bad => exact absurd hn hbad
  | step b m r hn ih =>
    obtain ⟨k, rfl⟩ := Nat.exists_eq_add_one.mpr (Nat.zero_lt_of_lt hfuel)
    have hlt := Framer.length_lt hn
    have hcut := Framer.frames_frame hn
    have hr : P.Accepts r := by
      refine ⟨by rw [InBounds, ← hcut.2]; exact h.inBounds, fun m' hm' => h.decodes m' ?_⟩
      rw [hcut.1]
      exact List.mem_cons_of_mem _ hm'
    have hgo := h.decodes m (by rw [hcut.1]; exact List.mem_cons_self) s
    rw [decodeFrames, hn, hcut.1, hcut.2, List.foldlM_cons]
    dsimp only
    unfold decoded
    cases hd : P.decode s m with
    | ok s' => exact ih (by omega) s' hr
    | stop s' => exact absurd hd (hgo s')
    | panic => rfl

def level (P : Protocol σ) (s : σ) (b : Bytes) : Option (Decoder σ) :=
  ((P.wire.frames b).foldlM P.decoded s).map fun s => ⟨b.length, P.wire.rest b, s⟩

theorem level_nil (s : σ) : P.level s [] = some { state := s } := by
  have hnext : ∀ m r, P.wire.next [] ≠ .frame m r := by
    intro m r h
    exact absurd (Framer.length_lt h) (Nat.not_lt_zero _)
  rw [level, (Framer.frames_stop hnext).1, (Framer.frames_stop hnext).2]
  rfl

theorem exists_of_level {s : σ} {b : Bytes} {d : Decoder σ} (h : P.level s b = some d) :
    (P.wire.frames b).foldlM P.decoded s = some d.state ∧ d.chainConsumed = b.length ∧
      d.readBuf = P.wire.rest b := by
  obtain ⟨s', hs', rfl⟩ := Option.map_eq_some_iff.mp h
  exact ⟨hs', rfl, rfl⟩

theorem foldlM_frames_append (s : σ) (b c : Bytes) :
    (P.wire.frames (b ++ c)).foldlM P.decoded s =
      ((P.wire.frames b).foldlM P.decoded s).bind fun s =>
        (P.wire.frames (P.wire.rest b ++ c)).foldlM P.decoded s := by
  rw [(P.wire.frames_append b c).1, List.foldlM_append]
  rfl

theorem isSome_level {s : σ} {b : Bytes} (h : P.Accepts b)
    (hpanic : ∀ m ∈ P.wire.frames b, ∀ s, P.decode s m ≠ .panic) : (P.level s b).isSome := by
  have hdecoded : ∀ m ∈ P.wire.frames b, ∀ s, (P.decoded s m).isSome := by
    intro m hm s
    unfold decoded
    cases hd : P.decode s m with
    | ok s' => rfl
    | stop s' => exact absurd hd (h.decodes m hm s s')
    | panic => exact absurd hd (hpanic m hm s)
  rw [level, Option.isSome_map]
  revert hdecoded
  generalize P.wire.frames b = frames
  intro hdecoded
  induction frames generalizing s with
  | nil => rfl
  | cons m frames ih =>
    obtain ⟨s', hs'⟩ := Option.isSome_iff_exists.mp (hdecoded m List.mem_cons_self s)
    rw [List.foldlM_cons, hs']
    exact ih fun m' hm' => hdecoded m' (List.mem_cons_of_mem _ hm')

theorem level_isLevel (P : Protocol σ) (s : σ) : Level (sniffing P) P.Accepts (P.level s) where
  good_of_append _ _ h := h.of_append
  consumed_eq b d h := (exists_of_level h).2.1
  none_append b c h := by
    rw [level, Option.map_eq_none_iff] at h
    rw [level, foldlM_frames_append, h]
    rfl
  decode_eq b p d chain h hgood hfresh := by
    obtain ⟨hstate, hconsumed, hbuf⟩ := exists_of_level h
    have happ := P.wire.frames_append b p
    have hrest : P.Accepts (P.wire.rest b ++ p) := by
      refine ⟨by rw [InBounds, ← happ.2]; exact hgood.inBounds, fun m hm => hgood.decodes m ?_⟩
      rw [happ.1]
      exact List.mem_append_right _ hm
    change decodeOnData P d chain _ = _
    unfold decodeOnData
    rw [hconsumed, hfresh, hbuf]
    dsimp only
    rw [decodeFrames_eq (Nat.lt_succ_self _) d.state hrest, level, foldlM_frames_append s b p,
      hstate, happ.2, Option.map_map]
    rfl

end Protocol

/-- The decoder after a run that ends with a call. -/
def afterRun (P : Protocol σ) (s : σ) (es : List FeedEvent) : Option (Decoder σ) :=
  (Feed.run (sniffing P) { state := s } (es ++ [.onData])).decoder

/-- All drains of the run are of bytes that the decoder has seen. -/
def Drained (P : Protocol σ) (s : σ) (es : List FeedEvent) : Prop :=
  Feed.Drained (sniffing P) { state := s } es

instance decidableDrained (P : Protocol σ) (s : σ) (es : List FeedEvent) :
    Decidable (Drained P s es) :=
  inferInstanceAs (Decidable (Feed.Drained (sniffing P) { state := s } es))

section Runs

variable {P : Protocol σ} {s : σ} {es : List FeedEvent}

theorem afterRun_eq_unsplit (hes : Drained P s es) (h : P.Accepts (streamOf es)) :
    afterRun P s es = afterRun P s [.append (streamOf es)] :=
  decoder_eq_unsplit (P.level_isLevel s) (P.level_nil s) hes h

theorem isSome_afterRun (hes : Drained P s es) (h : P.Accepts (streamOf es))
    (hpanic : ∀ m ∈ P.wire.frames (streamOf es), ∀ s, P.decode s m ≠ .panic) :
    (afterRun P s es).isSome := by
  unfold afterRun
  rw [decoder_eq_level (P.level_isLevel s) (P.level_nil s) hes h]
  exact Protocol.isSome_level h hpanic

end Runs

end EnvoyGo.FrameSniffer

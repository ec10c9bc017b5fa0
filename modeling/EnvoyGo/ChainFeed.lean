import EnvoyGo.Runs
import EnvoyGo.SnifferFeed

/-!
A decoder that reads along a chain buffer, whose front is drained underneath it.
-/

namespace EnvoyGo.Network

open Runs

variable {δ : Type}

inductive FeedEvent where
  | append (p : Bytes)
  | onData
  | drain (n : ℕ)
  deriving DecidableEq

structure Feed (δ : Type) where
  buf : Buffer := {}
  decoder : Option δ

structure Sniffing (δ : Type) where
  decodeOnData : δ → Bytes → ℕ → Option δ
  consumed : δ → ℕ

namespace Feed

variable (S : Sniffing δ)

def step (f : Feed δ) : FeedEvent → Feed δ
  | .append p => { f with buf := f.buf.append p }
  | .onData =>
    { f with decoder := f.decoder.bind fun d => S.decodeOnData d f.buf.data f.buf.total }
  | .drain n => { f with buf := f.buf.drain n }

def DrainsSeen (f : Feed δ) : FeedEvent → Prop
  | .drain n => ∀ d ∈ f.decoder,
      min n f.buf.data.length + (f.buf.total - S.consumed d) ≤ f.buf.data.length
  | _ => True

instance decidableDrainsSeen (f : Feed δ) (e : FeedEvent) : Decidable (f.DrainsSeen S e) :=
  match e with
  | .append _ => isTrue trivial
  | .onData => isTrue trivial
  | .drain n => inferInstanceAs (Decidable (∀ d ∈ f.decoder,
      min n f.buf.data.length + (f.buf.total - S.consumed d) ≤ f.buf.data.length))

def run (d : δ) (es : List FeedEvent) : Feed δ := es.foldl (step S) { decoder := some d }

/-- All drains of the run are of bytes already seen. -/
def Drained (d : δ) (es : List FeedEvent) : Prop :=
  StepsMeet (step S) (DrainsSeen S) { decoder := some d } es

instance decidableDrained (d : δ) (es : List FeedEvent) : Decidable (Drained S d es) :=
  inferInstanceAs (Decidable (StepsMeet (step S) (DrainsSeen S) { decoder := some d } es))

end Feed

def FeedEvent.bytes : FeedEvent → Bytes
  | .append p => p
  | _ => []

/-- All bytes of the run. -/
def streamOf (es : List FeedEvent) : Bytes := es.flatMap FeedEvent.bytes

/-- What the decoder is after a stream in one piece: the feed of new bytes brings it from one such
state to the next, as long as the stream is good. -/
structure Level (S : Sniffing δ) (good : Bytes → Prop) (level : Bytes → Option δ) : Prop where
  good_of_append : ∀ b c, good (b ++ c) → good b
  consumed_eq : ∀ b d, level b = some d → S.consumed d = b.length
  none_append : ∀ b c, level b = none → level (b ++ c) = none
  decode_eq : ∀ b p d chain, level b = some d → good (b ++ p) →
    newBytes chain (b ++ p).length b.length = (p, (b ++ p).length) →
      S.decodeOnData d chain (b ++ p).length = level (b ++ p)

structure FeedLevel (S : Sniffing δ) (level : Bytes → Option δ) (received : Bytes) (f : Feed δ) :
    Prop where
  total : f.buf.total = received.length
  suffix : f.buf.data <:+ received
  shown : ∃ b p, received = b ++ p ∧ f.decoder = level b ∧
    ∀ d, f.decoder = some d → p.length ≤ f.buf.data.length

namespace FeedLevel

variable {S : Sniffing δ} {good : Bytes → Prop} {level : Bytes → Option δ} {received : Bytes}
  {f : Feed δ}

theorem append (h : FeedLevel S level received f) (q : Bytes) :
    FeedLevel S level (received ++ q) (f.step S (.append q)) where
  total := by
    change f.buf.total + q.length = _
    rw [h.total, List.length_append]
  suffix := by
    obtain ⟨front, hfront⟩ := h.suffix
    refine ⟨front, ?_⟩
    change front ++ (f.buf.data ++ q) = _
    rw [← List.append_assoc, hfront]
  shown := by
    obtain ⟨b, p, hreceived, hlevel, hthere⟩ := h.shown
    refine ⟨b, p ++ q, ?_, hlevel, fun d hd => ?_⟩
    · rw [hreceived, List.append_assoc]
    · have hp := hthere d hd
      change (p ++ q).length ≤ (f.buf.data ++ q).length
      rw [List.length_append, List.length_append]
      omega

section

variable (hlevel : Level S good level) (h : FeedLevel S level received f)

include hlevel h

theorem onData_eq (hgood : good received) : (f.step S .onData).decoder = level received := by
  obtain ⟨b, p, rfl, hb, hthere⟩ := h.shown
  change (f.decoder.bind fun d => S.decodeOnData d f.buf.data f.buf.total) = _
  rw [hb, h.total]
  cases hd : level b with
  | none => exact (hlevel.none_append b p hd).symm
  | some d =>
    have hp := hthere d (hb.trans hd)
    have hfresh : newBytes f.buf.data (b ++ p).length b.length = (p, (b ++ p).length) := by
      rw [newBytes_eq h.suffix (by rw [List.length_append]; omega)
        (by rw [List.length_append]; omega), List.drop_left]
    exact hlevel.decode_eq b p d _ hd hgood hfresh

theorem onData (hgood : good received) : FeedLevel S level received (f.step S .onData) where
  total := h.total
  suffix := h.suffix
  shown := by
    refine ⟨received, [], (List.append_nil _).symm, h.onData_eq hlevel hgood, fun _ _ => ?_⟩
    exact Nat.zero_le _

theorem drain {n : ℕ} (hseen : f.DrainsSeen S (.drain n)) :
    FeedLevel S level received (f.step S (.drain n)) where
  total := h.total
  suffix := (List.drop_suffix n _).trans h.suffix
  shown := by
    obtain ⟨b, p, hreceived, hb, hthere⟩ := h.shown
    refine ⟨b, p, hreceived, hb, fun d hd => ?_⟩
    have hd' : f.decoder = some d := hd
    have hmark := hseen d hd'
    have hconsumed := hlevel.consumed_eq b d (hb.symm.trans hd')
    have htotal := h.total
    rw [hreceived, List.length_append] at htotal
    change p.length ≤ (f.buf.data.drop n).length
    rw [List.length_drop]
    omega

theorem step {e : FeedEvent} (hseen : f.DrainsSeen S e) (hgood : good (received ++ e.bytes)) :
    FeedLevel S level (received ++ e.bytes) (f.step S e) := by
  cases e with
  | append q => exact h.append q
  | onData =>
    change good (received ++ []) at hgood
    change FeedLevel S level (received ++ []) _
    rw [List.append_nil] at hgood ⊢
    exact h.onData hlevel hgood
  | drain n =>
    change FeedLevel S level (received ++ []) _
    rw [List.append_nil]
    exact h.drain hlevel hseen

end

theorem foldl (hlevel : Level S good level) (es : List FeedEvent)
    (h : FeedLevel S level received f) (hes : StepsMeet (Feed.step S) (Feed.DrainsSeen S) f es)
    (hgood : good (received ++ streamOf es)) :
    FeedLevel S level (received ++ streamOf es) (es.foldl (Feed.step S) f) := by
  induction es generalizing received f with
  | nil =>
    change FeedLevel S level (received ++ []) f
    rw [List.append_nil]
    exact h
  | cons e es ih =>
    have hsplit : received ++ streamOf (e :: es) = received ++ e.bytes ++ streamOf es := by
      rw [streamOf, List.flatMap_cons, ← List.append_assoc]
      rfl
    rw [hsplit] at hgood ⊢
    exact ih (h.step hlevel hes.1 (hlevel.good_of_append _ _ hgood)) hes.2 hgood

end FeedLevel

section Run

variable {S : Sniffing δ} {good : Bytes → Prop} {level : Bytes → Option δ} {d : δ}

theorem decoder_eq_level (hlevel : Level S good level) (hinit : level [] = some d)
    {es : List FeedEvent} (hes : Feed.Drained S d es) (hgood : good (streamOf es)) :
    (Feed.run S d (es ++ [.onData])).decoder = level (streamOf es) := by
  have hstart : FeedLevel S level [] { decoder := some d } :=
    ⟨rfl, List.suffix_rfl, [], [], rfl, hinit.symm, fun _ _ => Nat.le_refl _⟩
  have hend := hstart.foldl hlevel es hes (by rw [List.nil_append]; exact hgood)
  rw [List.nil_append] at hend
  unfold Feed.run
  rw [List.foldl_append]
  exact hend.onData_eq hlevel hgood

theorem drained_append (p : Bytes) : Feed.Drained S d [.append p] := ⟨trivial, trivial⟩

theorem decoder_eq_unsplit (hlevel : Level S good level) (hinit : level [] = some d)
    {es : List FeedEvent} (hes : Feed.Drained S d es) (hgood : good (streamOf es)) :
    (Feed.run S d (es ++ [.onData])).decoder =
      (Feed.run S d [.append (streamOf es), .onData]).decoder := by
  have hone : streamOf [.append (streamOf es)] = streamOf es := List.append_nil _
  have hwhole := decoder_eq_level hlevel hinit (drained_append (S := S) (streamOf es))
    (by rw [hone]; exact hgood)
  rw [decoder_eq_level hlevel hinit hes hgood]
  exact (hwhole.trans (congrArg level hone)).symm

end Run

end EnvoyGo.Network

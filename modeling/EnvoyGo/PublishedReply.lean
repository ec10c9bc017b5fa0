import EnvoyGo.ReplyOnce

/-!
Local replies published whole.  The flag of a local reply is stored before the reply itself, so
what counts is that the dispatcher does not load it in between.
-/

namespace EnvoyGo.SharedChain

open Threads

variable {σ α : Type}

theorem goroutineRole (n : Nat) : Role (σ := σ) (.goroutine n) (Turn n) where
  inv := fun _ _ hr => hr.1
  kept := fun _ _ ht hr => (hr.2.2 ht).turn
  reply := fun _ _ ht hr => (hr.2.2 ht).reply
  outside := fun _ _ _ hr => hr.2.1.outside
  done := fun _ _ ht hr => (hr.2.2 ht).done
  alive := fun _ ht => .inr ht.not_quiet
  turn := by
    intro s m ht hm
    cases hm
    exact ht
  step := by
    intro s s' ht hc hr hinv
    exact ⟨⟨hinv, ht, hc.launched, hc.taken, hc.seen, hc.served, .inl hc.finished, hr⟩,
      (turn_congr hc.launched hc.finished).mpr ht⟩

/-- The dispatcher has started `n` goroutines that it has not parked on yet, and is still at the
request. -/
def Ahead (n : Nat) (s : Shared σ) : Prop :=
  s.launched.length = s.taken + n ∧ s.served = none ∧ s.seen = none

def AtRequest (s : Shared σ) : Prop := s.served = none ∧ s.seen = none

theorem dispatcherRole (A : Shared σ → Prop) (hserved : ∀ s, A s → s.served = none)
    (hcongr : ∀ s s' : Shared σ, s'.launched = s.launched → s'.taken = s.taken →
      s'.seen = s.seen → s'.served = s.served → A s → A s') : Role .dispatcher A where
  inv := fun _ _ hr => hr.1
  kept := fun s s' ha hr => hcongr s s' hr.2.launched hr.2.taken hr.2.seen hr.2.served ha
  reply := fun _ _ _ hr => hr.2.reply
  outside := fun _ _ _ hr => hr.2.outside
  done := fun _ _ _ hr => hr.2.done
  alive := fun s ha => .inl (hserved s ha)
  turn := fun _ _ _ hn => by cases hn
  step := fun s s' ha hc hr hinv =>
    ⟨⟨hinv, hc.finished, .inr hc.launched, .inr hr⟩,
      hcongr s s' hc.launched hc.taken hc.seen hc.served ha⟩

theorem aheadRole (n : Nat) : Role (σ := σ) .dispatcher (Ahead n) := by
  refine dispatcherRole _ (fun s h => h.2.1) (fun s s' hl ht hseen hserved h => ?_)
  rw [Ahead, hl, ht, hseen, hserved]
  exact h

theorem requestRole : Role (σ := σ) .dispatcher AtRequest := by
  refine dispatcherRole _ (fun s h => h.1) (fun s s' _ _ hseen hserved h => ?_)
  rw [AtRequest, hseen, hserved]
  exact h

/-- No goroutine is under way. -/
abbrev Calm (s : Shared σ) : Prop := Outside .dispatcher (Ahead 0) s

abbrev Busy (s : Shared σ) : Prop := Outside .dispatcher (Ahead 1) s

abbrev Decoding (s : Shared σ) : Prop := Outside .dispatcher AtRequest s

variable {s : Shared σ}

theorem Outside.decoding {n : Nat} (h : Outside .dispatcher (Ahead n) s) : Decoding s :=
  ⟨h.inv, h.role.2, h.once⟩

theorem Calm.quiet (h : Calm s) : quiet s := by
  have h1 := h.inv.taken_le
  have h2 := h.inv.finished_le
  have h3 := h.role.1
  unfold SharedChain.quiet
  omega

def Refused (s : Shared σ) : Prop := Decoding s ∧ s.chain.localReplyDone = true

def Between (s : Shared σ) : Prop := Calm s ∨ Refused s

/-- A callback has returned; a goroutine it started has stopped the iteration. -/
def Returned (stopped : Prop) (s : Shared σ) : Prop := Calm s ∨ Busy s ∧ stopped

def Answerable (s : Shared σ) : Prop := Decoding s ∧ s.published = true

def PassEnd : Iteration → Shared σ → Prop
  | .failed _, s => Decoding s
  | _, s => Between s

abbrev DispatcherHolds (c : Prog σ α) (Q : α → Shared σ → Prop) (s : Shared σ) : Prop :=
  c.Holds Allowed (Rely .dispatcher) (Guarantee .dispatcher) Q s

section Stable
variable (s s' : Shared σ)

theorem decoding_stable (h : Decoding s) (hr : Rely .dispatcher s s') : Decoding s' :=
  requestRole.outside_stable s s' h hr

theorem calm_stable (h : Calm s) (hr : Rely .dispatcher s s') : Calm s' :=
  (aheadRole 0).outside_stable s s' h hr

theorem refused_stable (h : Refused s) (hr : Rely .dispatcher s s') : Refused s' :=
  ⟨decoding_stable s s' h.1 hr, hr.2.done h.2⟩

theorem between_stable (h : Between s) (hr : Rely .dispatcher s s') : Between s' :=
  h.imp (fun hc => calm_stable s s' hc hr) (fun hd => refused_stable s s' hd hr)

theorem returned_stable (stopped : Prop) (s s' : Shared σ) (h : Returned stopped s)
    (hr : Rely .dispatcher s s') : Returned stopped s' :=
  h.imp (fun hc => calm_stable s s' hc hr)
    (fun hb => ⟨(aheadRole 1).outside_stable s s' hb.1 hr, hb.2⟩)

theorem answerable_stable (h : Answerable s) (hr : Rely .dispatcher s s') : Answerable s' :=
  ⟨decoding_stable s s' h.1 hr,
    (congrArg ReplyView.published (hr.2.published h.2)).trans h.2⟩

end Stable

theorem Between.decoding (h : Between s) : Decoding s := by
  rcases h with h | h
  · exact h.decoding
  · exact h.1

theorem Returned.decoding {stopped : Prop} (h : Returned stopped s) : Decoding s := by
  rcases h with h | h
  · exact h.decoding
  · exact h.1.decoding

theorem Answerable.refused (h : Answerable s) : Refused s :=
  ⟨h.1, h.1.inv.published_done h.2⟩

theorem Inv.recount {s' : Shared σ} (h : Inv s) (hv : view s' = view s) (hnone : AtRequest s)
    (hnone' : AtRequest s') (hturn : ∀ n, Turn n s → Turn n s') (htaken : s'.taken ≤ s'.finished)
    (hfinished : s'.finished ≤ s'.launched.length) (hlaunched : s'.launched.length ≤ s'.taken + 1)
    (hchannel : s'.decodeResumeCh = true ↔ s'.taken < s'.finished) : Inv s' := by
  have honce : s'.once = s.once := congrArg ReplyView.once hv
  have hpub : s'.published = s.published := congrArg ReplyView.published hv
  have hdone : s'.chain.localReplyDone = s.chain.localReplyDone := congrArg ReplyView.done hv
  have hstart : s'.chain.encodeStarted = s.chain.encodeStarted := congrArg ReplyView.started hv
  have hover : s'.chain.encodeBodyOverride = s.chain.encodeBodyOverride :=
    congrArg ReplyView.override hv
  refine ⟨htaken, hfinished, hlaunched, hchannel, ?_, ?_, ?_, ?_, ?_, ?_, ?_, ?_, ?_⟩
  · rw [honce, hdone]
    exact h.idle
  · rw [hstart, hdone]
    exact fun _ => h.started hnone.1
  · rw [hdone, hpub]
    exact h.unpublished
  · rw [hdone, hover]
    intro hd
    rcases h.untouched hd with ho | ⟨hserved, -⟩
    · exact .inl ho
    · rw [hnone.1] at hserved
      cases hserved
  · rw [honce, hpub]
    exact h.ended
  · rw [hpub, hv]
    exact h.complete
  · rw [honce]
    exact fun n hn => hturn n (h.running n hn)
  · intro e he
    rw [hnone'.2] at he
    cases he
  · intro o ho
    rw [hnone'.1] at ho
    cases ho

section Dispatcher
variable (fs : List (AsyncFilter σ))

theorem launch_step (p : String × DecodeProg σ Unit) (s : Shared σ) (h : Calm s) :
    Guarantee .dispatcher s { s with launched := s.launched ++ [p] } ∧
      Busy { s with launched := s.launched ++ [p] } := by
  have hquiet := h.quiet
  have hfin : s.finished = s.launched.length := hquiet
  have hahead : s.launched.length = s.taken := h.role.1
  have hch := h.inv.channel
  have hinv : Inv { s with launched := s.launched ++ [p] } := by
    refine h.inv.recount rfl h.role.2 h.role.2 (fun n ht => absurd hquiet ht.not_quiet) ?_ ?_ ?_ hch
    · exact h.inv.taken_le
    · show s.finished ≤ (s.launched ++ [p]).length
      rw [List.length_append]
      omega
    · show (s.launched ++ [p]).length ≤ s.taken + 1
      rw [List.length_append, List.length_singleton]
      omega
  refine ⟨⟨fun _ => hinv, rfl, .inl hquiet, .inr (.same rfl)⟩, hinv, ⟨?_, h.role.2⟩, h.once⟩
  show (s.launched ++ [p]).length = s.taken + 1
  rw [List.length_append, List.length_singleton, hahead]

variable {s : Shared σ}

theorem callDecoder_holds {st stop : Type} (name : String) (stopStatus : stop → st)
    (p : DecodeProg σ (CallEnd σ st stop)) (hs : Calm s) :
    DispatcherHolds (callDecoder fs name stopStatus p)
      (fun status => Returned (∃ b, status = stopStatus b)) s := by
  refine Code.Holds.bind (rely_refl _) ((aheadRole 0).decodeProg_holds fs name p hs)
    (fun e s1 h1 => ?_)
  cases e with
  | returns status =>
    exact holds_ret calm_stable status h1 (fun _ h => .inl h)
  | launches g rest =>
    refine Code.Holds.bind (rely_refl _) (holds_atomic
      calm_stable (aheadRole 1).outside_stable _ _
      (fun s h _ => launch_step (name, g) s h) h1) (fun _ s2 h2 => ?_)
    refine Code.Holds.bind (rely_refl _) ((aheadRole 1).decodeProg_holds fs name rest h2)
      (fun b s3 h3 => ?_)
    exact holds_ret (aheadRole 1).outside_stable _ h3 (fun _ h => .inr ⟨h, b, rfl⟩)

theorem loadDone_holds {J K : Shared σ → Prop} (hJ : ∀ s s', J s → Rely .dispatcher s s' → J s')
    (hK : ∀ s s', K s → Rely .dispatcher s s' → K s') (hdec : ∀ s, J s → Decoding s)
    (hfalse : ∀ s, J s → s.chain.localReplyDone = false → K s) (hs : J s) :
    DispatcherHolds loadDone (fun done s =>
      (done = true → Answerable s) ∧ (done = false → K s)) s := by
  refine holds_load hJ ?_ _ _ (fun s h hok => ?_) hs
  · intro done s s' h hr
    exact ⟨fun hd => answerable_stable s s' (h.1 hd) hr, fun hd => hK s s' (h.2 hd) hr⟩
  · have hd := hdec s h
    refine ⟨(requestRole.plain_step hd ⟨rfl, rfl, rfl, rfl, rfl, rfl⟩ rfl).1, ?_, hfalse s h⟩
    exact fun hdone => ⟨hd, hok hdone⟩

theorem passEnd_aborted (hs : Answerable s) : DispatcherHolds (.ret .aborted) PassEnd s :=
  holds_ret answerable_stable _ hs (fun _ h => .inr h.refused)

theorem passEnd_failed (err : ChainError) (hs : Decoding s) :
    DispatcherHolds (.ret (.failed err)) PassEnd s :=
  holds_ret decoding_stable _ hs (fun _ h => h)

theorem parkThen_holds {stopped : Prop} {next : Prog σ Iteration}
    (hnext : ∀ s, Calm s → DispatcherHolds next PassEnd s) (hs : Returned stopped s) :
    DispatcherHolds (parkThen next) PassEnd s := by
  refine Code.Holds.bind (rely_refl _) (Q := fun wake s =>
    (wake = .resumed → Calm s) ∧ Decoding s) ?_ (fun wake s1 h1 => ?_)
  · intro s' hs' b hb _
    have h := returned_stable stopped s s' hs hs'
    cases b with
    | true =>
      have hd := h.decoding
      refine ⟨(requestRole.plain_step hd ⟨rfl, rfl, rfl, rfl, rfl, rfl⟩ rfl).1, ?_⟩
      intro s'' hs''
      exact ⟨fun hw => by simp at hw, decoding_stable s' s'' hd hs''⟩
    | false =>
      have hready : s'.decodeResumeCh = true := hb
      have hinv := h.decoding.inv
      have hlt : s'.taken < s'.finished := hinv.channel.mp hready
      have hle := hinv.finished_le
      rcases h with h | h
      · have hahead := h.role.1
        omega
      · have hahead := h.1.role.1
        have hquiet : quiet s' := by
          unfold quiet
          omega
        have hinv' : Inv { s' with decodeResumeCh := false, taken := s'.taken + 1 } := by
          refine hinv.recount rfl h.1.role.2 h.1.role.2
            (fun n ht => absurd hquiet ht.not_quiet) hlt hle ?_ ?_
          · show s'.launched.length ≤ s'.taken + 1 + 1
            omega
          · show false = true ↔ s'.taken + 1 < s'.finished
            simp only [Bool.false_eq_true, false_iff]
            omega
        have hcalm : Calm { s' with decodeResumeCh := false, taken := s'.taken + 1 } :=
          ⟨hinv', ⟨hahead, h.1.role.2⟩, h.1.once⟩
        refine ⟨⟨fun _ => hinv', rfl, .inr rfl, .inr (.same rfl)⟩, fun s'' hs'' => ?_⟩
        have hcalm' := calm_stable _ s'' hcalm hs''
        exact ⟨fun _ => hcalm', hcalm'.decoding⟩
  · cases wake with
    | resumed => exact hnext s1 (h1.1 rfl)
    | ctxDone => exact passEnd_failed .ctxErr h1.2

theorem beforeTurn_holds {next : Prog σ Iteration}
    (hnext : ∀ s, Calm s → DispatcherHolds next PassEnd s) (hs : Between s) :
    DispatcherHolds (loadDone.bind (fun done => if done then .ret .aborted else next)) PassEnd
      s := by
  refine Code.Holds.bind (rely_refl _) (loadDone_holds between_stable
    calm_stable (fun _ h => h.decoding) (fun s h hd => ?_) hs)
    (fun done s1 h1 => ?_)
  · rcases h with h | h
    · exact h
    · rw [h.2] at hd
      cases hd
  · cases done with
    | true => exact passEnd_aborted (h1.1 rfl)
    | false => exact hnext s1 (h1.2 rfl)

theorem turn_holds {st stop : Type} (name : String) (stopStatus : stop → st)
    (p : DecodeProg σ (CallEnd σ st stop)) (react : st → Prog σ Iteration)
    (hreact : ∀ status s, Returned (∃ b, status = stopStatus b) s →
      DispatcherHolds (react status) PassEnd s) (hs : Calm s) :
    DispatcherHolds ((callDecoder fs name stopStatus p).bind (fun status =>
      loadDone.bind (fun done => if done then .ret .aborted else react status))) PassEnd s := by
  refine Code.Holds.bind (rely_refl _) (callDecoder_holds fs name stopStatus p hs)
    (fun status s1 h1 => ?_)
  refine Code.Holds.bind (rely_refl _) (loadDone_holds
    (returned_stable _) (returned_stable _)
    (fun _ h => h.decoding) (fun _ h _ => h) h1) (fun done s2 h2 => ?_)
  cases done with
  | true => exact passEnd_aborted (h2.1 rfl)
  | false => exact hreact status s2 (h2.2 rfl)

theorem Returned.calm {stopped : Prop} (h : Returned stopped s) (hnot : ¬stopped) : Calm s :=
  h.resolve_right (fun hb => hnot hb.2)

theorem runDecodeHeaders_holds (endStream : Bool) (todo : List (AsyncFilter σ)) (hs : Between s) :
    DispatcherHolds (runDecodeHeaders fs endStream todo) PassEnd s := by
  induction todo generalizing s with
  | nil => exact holds_ret between_stable _ hs (fun _ h => h)
  | cons f rest ih =>
    refine beforeTurn_holds (fun s1 h1 => ?_) hs
    cases f.decoder with
    | none => exact ih (.inl h1)
    | some d =>
      refine turn_holds fs f.name _ _ _ (fun status s2 h2 => ?_) h1
      cases status with
      | continueIteration =>
        exact ih (.inl (h2.calm (fun ⟨_, hb⟩ => by cases hb)))
      | stopIteration => exact parkThen_holds (fun _ h => ih (.inl h)) h2
      | terminateStream => exact passEnd_failed _ h2.decoding
      | unknown code => exact passEnd_failed _ h2.decoding

theorem bufferThen_holds {stopped : Prop} (name : String) (data : Bytes) {next : Prog σ Iteration}
    (hnext : ∀ s, Calm s → DispatcherHolds next PassEnd s) (hs : Returned stopped s) :
    DispatcherHolds (bufferThen fs name data next) PassEnd s := by
  have hplain : ∀ (f : FilterChain σ → FilterChain σ) (s : Shared σ), view (onChain f s) = view s →
      Returned stopped s →
        Guarantee .dispatcher s (onChain f s) ∧ Returned stopped (onChain f s) := by
    intro f s hv h
    rcases h with h | h
    · exact And.imp_right .inl ((aheadRole 0).plain_step h ⟨rfl, rfl, rfl, rfl, rfl, rfl⟩ hv)
    · exact And.imp_right (fun hb => .inr ⟨hb, h.2⟩)
        ((aheadRole 1).plain_step h.1 ⟨rfl, rfl, rfl, rfl, rfl, rfl⟩ hv)
  refine Code.Holds.bind (rely_refl _) (holds_load (returned_stable stopped)
    (K := fun _ => Returned stopped) (fun _ => returned_stable stopped) _ _
    (fun s h _ => ⟨(hplain id s rfl h).1, h⟩) hs) (fun full s1 h1 => ?_)
  cases full with
  | true =>
    refine Code.Holds.bind (rely_refl _) (holds_atomic (returned_stable stopped)
      (returned_stable stopped) _ _
      (fun s h _ => hplain _ s rfl h) h1) (fun _ s2 h2 => ?_)
    refine Code.Holds.bind (rely_refl _) (requestRole.beginLocalReply_holds (B := True)
      (fun _ s h => h.1) fs name localReply413 h2.decoding) (fun _ s3 h3 => ?_)
    exact holds_ret refused_stable _ ⟨h3.1, h3.2 trivial⟩
      (fun _ h => .inr h)
  | false =>
    refine Code.Holds.bind (rely_refl _) (holds_atomic (returned_stable stopped)
      (returned_stable stopped) _ _
      (fun s h _ => hplain _ s rfl h) h1) (fun _ s2 h2 => ?_)
    exact parkThen_holds hnext h2

theorem runDecodeData_holds (data : Bytes) (endStream : Bool) (todo : List (AsyncFilter σ))
    (hs : Between s) : DispatcherHolds (runDecodeData fs data endStream todo) PassEnd s := by
  induction todo generalizing s with
  | nil => exact holds_ret between_stable _ hs (fun _ h => h)
  | cons f rest ih =>
    refine beforeTurn_holds (fun s1 h1 => ?_) hs
    cases f.decoder with
    | none => exact ih (.inl h1)
    | some d =>
      refine turn_holds fs f.name _ _ _ (fun status s2 h2 => ?_) h1
      cases status with
      | dataContinue =>
        exact ih (.inl (h2.calm (fun ⟨b, hb⟩ => by cases b <;> cases hb)))
      | dataStopIterationAndBuffer =>
        exact bufferThen_holds fs f.name data (fun _ h => ih (.inl h)) h2
      | dataStopIterationNoBuffer => exact parkThen_holds (fun _ h => ih (.inl h)) h2
      | dataTerminateStream => exact passEnd_failed _ h2.decoding
      | unknown code => exact passEnd_failed _ h2.decoding

def BodyEnd : Option ChainError → Shared σ → Prop
  | some _, s => Decoding s
  | none, s => Between s

theorem feedChunks_holds (chunks : List (Bytes × Bool)) (hs : Between s) :
    DispatcherHolds (feedChunks fs chunks) BodyEnd s := by
  induction chunks generalizing s with
  | nil => exact holds_ret between_stable _ hs (fun _ h => h)
  | cons chunk rest ih =>
    refine Code.Holds.bind (rely_refl _) (runDecodeData_holds fs chunk.1 chunk.2 fs hs)
      (fun it s1 h1 => ?_)
    cases it with
    | failed err =>
      exact holds_ret decoding_stable _ h1 (fun _ h => h)
    | terminated => exact ih h1
    | aborted => exact ih h1

end Dispatcher

theorem Inv.hand_in {s' : Shared σ} (h : Inv s) (hreq : AtRequest s) (hv : view s' = view s)
    (hl : s'.launched = s.launched) (ht : s'.taken = s.taken) (hf : s'.finished = s.finished)
    (hch : s'.decodeResumeCh = s.decodeResumeCh)
    (hseen : ∀ e, s'.seen = some e → s.published = true ∧ s.chain.encoded = some e)
    (hserved : ∀ o, s'.served = some o → GaveUp o ∨ s.published = true ∧ AnsweredWith (view s) o)
    (hsome : s'.served.isSome = true) : Inv s' := by
  have honce : s'.once = s.once := congrArg ReplyView.once hv
  have hpub : s'.published = s.published := congrArg ReplyView.published hv
  have hdone : s'.chain.localReplyDone = s.chain.localReplyDone := congrArg ReplyView.done hv
  have henc : s'.chain.encoded = s.chain.encoded := congrArg ReplyView.encoded hv
  have hover : s'.chain.encodeBodyOverride = s.chain.encodeBodyOverride :=
    congrArg ReplyView.override hv
  constructor
  · rw [ht, hf]
    exact h.taken_le
  · rw [hl, hf]
    exact h.finished_le
  · rw [hl, ht]
    exact h.launched_le
  · rw [hch, ht, hf]
    exact h.channel
  · rw [honce, hdone]
    exact h.idle
  · intro hnone
    rw [hnone] at hsome
    cases hsome
  · rw [hdone, hpub]
    exact h.unpublished
  · rw [hdone, hover]
    intro hd
    rcases h.untouched hd with ho | ⟨hs, -⟩
    · exact .inl ho
    · rw [hreq.1] at hs
      cases hs
  · rw [honce, hpub]
    exact h.ended
  · rw [hpub, hv]
    exact h.complete
  · intro n
    rw [honce, turn_congr hl hf]
    exact h.running n
  · intro e he
    rw [hpub, henc]
    exact hseen e he
  · intro o ho
    rw [hpub, hv]
    rcases hserved o ho with hg | ha
    · exact .inl hg
    · exact .inr (.inl ha)

section Dispatch
variable (x : AsyncExchange σ) (d : Downstream)

variable {s : Shared σ}

theorem fail_holds (err : ChainError) (hs : Decoding s) :
    DispatcherHolds (AsyncExchange.fail err) (fun _ _ => True) s := by
  refine holds_atomic decoding_stable (fun _ _ _ _ => trivial) _ _
    (fun s h _ => ⟨⟨fun _ => ?_, rfl, .inr rfl, .inr (.same rfl)⟩, trivial⟩) hs
  refine h.inv.hand_in h.role rfl rfl rfl rfl rfl (fun e he => h.inv.seen e he) ?_ rfl
  intro o ho
  cases ho
  exact .inl ⟨err, rfl⟩

theorem writeLocalReply_holds (hs : Answerable s) :
    DispatcherHolds (x.writeLocalReply d) (fun _ _ => True) s := by
  have hkept : ∀ {γ : Type} (g : ReplyView → γ),
      (∀ v : ReplyView, g { v with once := .idle } = g v) →
      ∀ (a : γ) (s s' : Shared σ), Answerable s ∧ g (view s) = a → Rely .dispatcher s s' →
        Answerable s' ∧ g (view s') = a := by
    intro γ g hg a s s' h hr
    refine ⟨answerable_stable s s' h.1 hr, ?_⟩
    rw [← hg, hr.2.published h.1.2, hg]
    exact h.2
  have hload : ∀ s : Shared σ, Answerable s → Guarantee .dispatcher s s := fun s h =>
    (requestRole.plain_step h.1 ⟨rfl, rfl, rfl, rfl, rfl, rfl⟩ rfl).1
  unfold AsyncExchange.writeLocalReply
  refine Code.Holds.bind (rely_refl _) (holds_load
    answerable_stable
    (fun a => hkept ReplyView.status (fun _ => rfl) a) _ _
    (fun s h _ => ⟨hload s h, h, rfl⟩) hs) (fun status s1 h1 => ?_)
  refine Code.Holds.bind (rely_refl _) (holds_load (hkept ReplyView.status (fun _ => rfl) status)
    (fun a => hkept (fun v => (v.status, v.headers)) (fun _ => rfl) (status, a)) _ _
    (fun s h _ => ⟨hload s h.1, h.1, Prod.ext h.2 rfl⟩) h1) (fun headers s2 h2 => ?_)
  refine Code.Holds.bind (rely_refl _) (holds_load
    (hkept (fun v => (v.status, v.headers)) (fun _ => rfl) (status, headers))
    (fun a => hkept (fun v => (v.status, v.headers, v.body)) (fun _ => rfl) (status, headers, a))
    _ _ (fun s h _ => ⟨hload s h.1, h.1, ?_⟩) h2) (fun body s3 h3 => ?_)
  · obtain ⟨hst, hh⟩ := Prod.ext_iff.mp h.2
    exact Prod.ext hst (Prod.ext hh rfl)
  refine holds_atomic
    (hkept (fun v => (v.status, v.headers, v.body)) (fun _ => rfl) (status, headers, body))
    (fun _ _ _ _ => trivial) _ _
    (fun s h _ => ⟨⟨fun _ => ?_, rfl, .inr rfl, .inr (.same rfl)⟩, trivial⟩) h3
  obtain ⟨⟨hdec, hpub⟩, hread⟩ := h
  obtain ⟨e, henc, hpos, hst, hh, hb⟩ := hdec.inv.complete hpub
  obtain ⟨hst', hrest⟩ := Prod.ext_iff.mp hread
  obtain ⟨hh', hb'⟩ := Prod.ext_iff.mp hrest
  have hstatus : status = e.status := hst'.symm.trans hst
  have hheaders : headers = e.headers := hh'.symm.trans hh
  have hbody : body = e.body := hb'.symm.trans hb
  subst hstatus hheaders hbody
  refine hdec.inv.hand_in hdec.role rfl rfl rfl rfl rfl ?_ ?_ rfl
  · intro e' he'
    cases he'
    exact ⟨hpub, henc⟩
  · intro o ho
    cases ho
    exact .inr ⟨hpub, e, henc, if_pos hpos, rfl, rfl⟩

theorem actionOn_done (c : FilterChain σ) :
    (x.actionOn d c).chain.localReplyDone = c.localReplyDone := by
  cases d with
  | http1 => exact (actionOutcome_frame _ _ _ _ _ _ c).2
  | http2 => exact (actionOutcome_frame _ _ _ _ _ _ c).2
  | http3 => exact (actionOutcome_frame _ _ _ _ _ _ c).2

theorem runAction_holds (l : Access) {J : Shared σ → Prop}
    (hJ : ∀ s s', J s → Rely .dispatcher s s' → J s')
    (hcalm : ∀ s, J s → Allowed l s → Calm s ∧ s.chain.localReplyDone = false) (hs : J s) :
    DispatcherHolds (x.runAction l d) (fun _ _ => True) s := by
  refine holds_atomic hJ (fun _ _ _ _ => trivial) _ _ (fun s h hok => ?_) hs
  obtain ⟨hc, hd⟩ := hcalm s h hok
  have hquiet := hc.quiet
  have hdone : (x.actionOn d s.chain).chain.localReplyDone = false :=
    (actionOn_done x d s.chain).trans hd
  refine ⟨⟨fun hi => ?_, rfl, .inl hquiet, .inl ⟨hquiet, rfl⟩⟩, trivial⟩
  constructor
  · exact hi.taken_le
  · exact hi.finished_le
  · exact hi.launched_le
  · exact hi.channel
  · exact fun _ => hdone
  · intro hnone
    cases hnone
  · exact fun _ => hi.unpublished hd
  · exact fun _ => .inr ⟨rfl, hquiet⟩
  · exact hi.ended
  · intro hpub
    have hun := hi.unpublished hd
    rw [show s.published = true from hpub] at hun
    cases hun
  · exact hi.running
  · intro e he
    have hnone : s.seen = none := hc.role.2.2
    rw [show s.seen = some e from he] at hnone
    cases hnone
  · exact fun o ho => .inr (.inr ⟨hdone, hquiet⟩)

theorem afterBody_holds (hs : Between s) :
    DispatcherHolds (if d = .http2 then x.runAction .runAction d
      else loadDone.bind (fun done =>
        if done then x.writeLocalReply d else x.runAction .plain d)) (fun _ _ => True) s := by
  have hcalm : ∀ s : Shared σ, Between s → s.chain.localReplyDone = false → Calm s := by
    intro s h hd
    refine h.resolve_right (fun hr => ?_)
    rw [hr.2] at hd
    cases hd
  split_ifs with h2
  · exact runAction_holds x d .runAction between_stable (fun s h hd => ⟨hcalm s h hd, hd⟩) hs
  · have hkept : ∀ s s' : Shared σ, Calm s ∧ s.chain.localReplyDone = false →
        Rely .dispatcher s s' → Calm s' ∧ s'.chain.localReplyDone = false := by
      intro s s' h hr
      refine ⟨calm_stable s s' h.1 hr, ?_⟩
      rw [(hr.2.calm h.1.quiet).2.1]
      exact h.2
    refine Code.Holds.bind (rely_refl _) (loadDone_holds between_stable hkept
      (fun _ h => h.decoding) (fun s h hd => ⟨hcalm s h hd, hd⟩) hs) (fun done s1 h1 => ?_)
    cases done with
    | true => exact writeLocalReply_holds x d (h1.1 rfl)
    | false => exact runAction_holds x d .plain hkept (fun s h _ => h) (h1.2 rfl)

theorem afterHeaders_holds (hs : Between s) :
    DispatcherHolds (loadDone.bind (fun done =>
      if done then x.writeLocalReply d
      else (feedChunks x.chain (x.chunks d)).bind (fun err =>
        match err with
        | some err => AsyncExchange.fail err
        | none =>
          if d = .http2 then x.runAction .runAction d
          else loadDone.bind (fun done =>
            if done then x.writeLocalReply d else x.runAction .plain d)))) (fun _ _ => True)
      s := by
  refine Code.Holds.bind (rely_refl _) (loadDone_holds between_stable between_stable
    (fun _ h => h.decoding) (fun _ h _ => h) hs) (fun done s1 h1 => ?_)
  cases done with
  | true => exact writeLocalReply_holds x d (h1.1 rfl)
  | false =>
    refine Code.Holds.bind (rely_refl _) (feedChunks_holds x.chain _ (h1.2 rfl))
      (fun err s2 h2 => ?_)
    cases err with
    | some err => exact fail_holds err h2
    | none => exact afterBody_holds x d h2

theorem dispatch_holds (hs : Calm s) : DispatcherHolds (x.dispatch d) (fun _ _ => True) s := by
  refine Code.Holds.bind (rely_refl _) (runDecodeHeaders_holds x.chain _ x.chain (.inl hs))
    (fun it s1 h1 => ?_)
  cases it with
  | failed err => exact fail_holds err h1
  | terminated => exact afterHeaders_holds x d h1
  | aborted => exact afterHeaders_holds x d h1

theorem Inv.pass_on {n : Nat} (h : Outside (.goroutine n) (Turn n) s) :
    Inv { s with decodeResumeCh := true, finished := s.finished + 1 } := by
  have hinv := h.inv
  have hfin := h.role.1
  have hlt := h.role.2
  have hle := hinv.launched_le
  constructor
  · exact Nat.le_succ_of_le hinv.taken_le
  · show s.finished + 1 ≤ s.launched.length
    omega
  · exact hle
  · show true = true ↔ s.taken < s.finished + 1
    have htaken := hinv.taken_le
    simp only [true_iff]
    omega
  · exact hinv.idle
  · exact hinv.started
  · exact hinv.unpublished
  · intro hd
    rcases hinv.untouched hd with ho | ⟨-, hquiet⟩
    · exact .inl ho
    · exact absurd hquiet h.role.not_quiet
  · exact hinv.ended
  · exact hinv.complete
  · intro m hm
    have hm' := (hinv.running m hm).1
    have hself : s.once = .running (.goroutine n) := by
      rw [show s.once = .running (.goroutine m) from hm, ← hm', hfin]
    exact absurd hself h.once
  · exact hinv.seen
  · intro o ho
    rcases hinv.served o ho with hg | ha | ⟨-, hquiet⟩
    · exact .inl hg
    · exact .inr (.inl ha)
    · exact absurd hquiet h.role.not_quiet

theorem goroutine_holds (n : Nat) (hs : Inv s) (hn : s.finished ≤ n)
    (honce : s.once ≠ .running (.goroutine n)) :
    (x.goroutine n).Holds Allowed (Rely (.goroutine n)) (Guarantee (.goroutine n))
      (fun _ _ => True) s := by
  intro s' hs' b hready _
  have hinv := hs'.1 hs
  have hlt : n < s'.launched.length := of_decide_eq_true hready
  have hturn : Turn n s' := by
    have h1 := hs'.2.1.finished hn
    have h2 := hinv.taken_le
    have h3 := hinv.launched_le
    refine ⟨?_, hlt⟩
    omega
  have hout : Outside (.goroutine n) (Turn n) s' := ⟨hinv, hturn, hs'.2.1.outside honce⟩
  refine ⟨((goroutineRole n).plain_step hout ⟨rfl, rfl, rfl, rfl, rfl, rfl⟩ rfl).1, ?_⟩
  simp only [List.getElem?_eq_getElem hlt]
  refine Code.Holds.bind (rely_refl _) ((goroutineRole n).decodeProg_holds x.chain _ _ hout)
    (fun _ s1 h1 => ?_)
  refine holds_atomic (goroutineRole n).outside_stable (fun _ _ _ _ => trivial) _ _
    (fun s h _ => ⟨⟨fun _ => Inv.pass_on h, ?_⟩, trivial⟩) h1
  exact ⟨h.role, rfl, rfl, rfl, rfl, .inr rfl, .same rfl⟩

theorem context_holds (s : Shared σ) :
    (atomic .plain (fun s => { s with ctxDone := true }) : Prog σ Unit).Holds Allowed
      (Rely .context) (Guarantee .context) (fun _ _ => True) s := by
  refine holds_atomic (J := fun _ => True) (fun _ _ _ _ => trivial) (fun _ _ _ _ => trivial) _ _
    (fun s _ _ => ⟨?_, trivial⟩) trivial
  have hc : SameControl s { s with ctxDone := true } := ⟨rfl, rfl, rfl, rfl, rfl, rfl⟩
  exact ⟨fun hi => hi.of_view hc rfl, hc, rfl, rfl⟩

theorem start_inv : Inv (x.start d).shared := by
  constructor
  · exact Nat.le_refl 0
  · exact Nat.le_refl 0
  · exact Nat.zero_le 1
  · exact ⟨(fun h => by cases h), fun h => absurd h (Nat.lt_irrefl 0)⟩
  · exact fun _ => rfl
  · intro _ h
    cases h
  · exact fun _ => rfl
  · exact fun _ => .inl rfl
  · intro h
    cases h
  · intro h
    cases h
  · intro n h
    cases h
  · intro e h
    cases h
  · intro o h
    cases h

theorem start_sound : Pool.Sound Allowed Rely Guarantee (fun _ _ => True) Inv (x.start d) := by
  have hinv := start_inv x d
  refine ⟨hinv, fun t => ?_⟩
  cases t with
  | dispatcher => exact dispatch_holds x d ⟨hinv, ⟨rfl, rfl, rfl⟩, fun h => by cases h⟩
  | goroutine n => exact goroutine_holds x n hinv (Nat.zero_le n) (fun h => by cases h)
  | context => exact context_holds _

end Dispatch

/-- A reply the dispatcher reads is the one the encode chain left, and a request with a local
reply that the dispatcher did not give up on is answered with that reply and nothing else. -/
structure PublishedWhole (s : Shared σ) : Prop where
  read : ∀ e, s.seen = some e → s.chain.encoded = some e
  answered : ∀ o, s.served = some o → ¬GaveUp o → s.chain.localReplyDone = true →
    ∃ e, s.chain.encoded = some e ∧ o.written = [e.toWire] ∧ o.status = e.status ∧ o.invoked = []

/-- In every interleaving that never loads the flag while a reply is half published, replies are
published whole. -/
theorem run_published_whole (x : AsyncExchange σ) (d : Downstream) (es : List (Thread × Bool))
    (hes : Runs.StepsMeet Pool.step (Pool.StepOk Allowed) (x.start d) es) :
    PublishedWhole (es.foldl Pool.step (x.start d)).shared := by
  have hsound := (start_sound x d).run rely_refl rely_trans guarantee_inv guarantee_rely es hes
  have hinv := hsound.inv
  refine ⟨fun e he => (hinv.seen e he).2, fun o ho hgave hdone => ?_⟩
  rcases hinv.served o ho with hg | ⟨-, ha⟩ | ⟨hfalse, -⟩
  · exact absurd hg hgave
  · exact ha
  · rw [hdone] at hfalse
    cases hfalse

/-- Refuses every request, on a goroutine. -/
def denied : LocalReply := { status := 403, body := [], headers := [] }

def authz : AsyncFilter Unit where
  name := "envoy.filters.http.ext_authz"
  decoder := some
    { decodeHeaders := fun _ => .ret (.launches (.sendLocalReply denied (.ret ())) (.ret ()))
      decodeData := fun _ _ => .ret (.returns .dataContinue) }

def refusedRequest : AsyncExchange Unit where
  chain := [authz]
  filters := ()
  action := fun _ => ({ status := 200, headers := [], body := [] }, none)
  h2Action := fun _ => ({ status := 200, headers := [], body := [] }, none)
  writeErr := none
  request :=
    { method := "GET", host := "h", requestURI := "/", urlRequestURI := "/", header := ∅,
      contentLength := 0, body := none }
  h2req :=
    { method := "GET", path := "/", scheme := "https", authority := "h", headers := [],
      body := [] }

/-- The dispatcher parks before the refusal comes. -/
def parkedFirst : List (Thread × Bool) :=
  List.replicate 3 (.dispatcher, false) ++ List.replicate 11 (.goroutine 0, false) ++
    List.replicate 6 (.dispatcher, false)

theorem parkedFirst_published_whole :
    Runs.StepsMeet Pool.step (Pool.StepOk Allowed) (refusedRequest.start .http1) parkedFirst ∧
      (parkedFirst.foldl Pool.step (refusedRequest.start .http1)).shared.seen.map
        LocalReply.status = some 403 ∧
      PublishedWhole (parkedFirst.foldl Pool.step (refusedRequest.start .http1)).shared := by
  have hsteps : Runs.StepsMeet Pool.step (Pool.StepOk Allowed) (refusedRequest.start .http1)
      parkedFirst := by decide
  exact ⟨hsteps, by rfl, run_published_whole refusedRequest .http1 parkedFirst hsteps⟩

/-- The refusal comes while the callback has not returned yet. -/
def refusedFirst : List (Thread × Bool) :=
  List.replicate 2 (.dispatcher, false) ++ List.replicate 4 (.goroutine 0, false) ++
    List.replicate 6 (.dispatcher, false)

/-- The dispatcher reads a reply that is not there yet, writes nothing and reports no error. -/
theorem refusedFirst_lost :
    (refusedFirst.foldl Pool.step (refusedRequest.start .http1)).shared.seen =
        some { status := 0, body := [], headers := [] } ∧
      (refusedFirst.foldl Pool.step (refusedRequest.start .http1)).shared.served.map
        (fun o => (o.written, o.err)) = some ([], none) ∧
      ¬PublishedWhole (refusedFirst.foldl Pool.step (refusedRequest.start .http1)).shared := by
  have hseen : (refusedFirst.foldl Pool.step (refusedRequest.start .http1)).shared.seen =
      some { status := 0, body := [], headers := [] } := by rfl
  refine ⟨hseen, by rfl, fun h => ?_⟩
  have hread := h.read _ hseen
  cases hread

end EnvoyGo.SharedChain

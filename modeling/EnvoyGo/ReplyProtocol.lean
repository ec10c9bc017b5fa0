import EnvoyGo.SharedChain

/-!
What the goroutines of a chain owe one another around a local reply.  Only the thread inside the
once works on the reply, the goroutines of the filters take turns, and a published reply stays
as it is.
-/

namespace EnvoyGo.SharedChain

open Threads

variable {σ α : Type}

structure ReplyView where
  once : Once
  published : Bool
  started : Bool
  done : Bool
  status : Int
  headers : OrderedHeaders
  body : Bytes
  encoded : Option LocalReply
  override : Option Bytes
  response : Header

def view (s : Shared σ) : ReplyView where
  once := s.once
  published := s.published
  started := s.chain.encodeStarted
  done := s.chain.localReplyDone
  status := s.chain.localReplyStatus
  headers := s.chain.localReplyHeaders
  body := s.chain.localReplyBody
  encoded := s.chain.encoded
  override := s.chain.encodeBodyOverride
  response := s.chain.world.response

def quiet (s : Shared σ) : Prop := s.finished = s.launched.length

def Turn (n : Nat) (s : Shared σ) : Prop := s.finished = n ∧ n < s.launched.length

variable {n : Nat} {s s' : Shared σ}

theorem Turn.not_quiet (h : Turn n s) : ¬quiet s := by
  intro hq
  have h1 := h.1
  have h2 := h.2
  unfold quiet at hq
  omega

def Complete (v : ReplyView) : Prop :=
  ∃ e, v.encoded = some e ∧ 0 < e.status ∧ v.status = e.status ∧ v.headers = e.headers ∧
    v.body = e.body

def AnsweredWith (v : ReplyView) (o : Outcome σ Unit) : Prop :=
  ∃ e, v.encoded = some e ∧ o.written = [e.toWire] ∧ o.status = e.status ∧ o.invoked = []

def GaveUp (o : Outcome σ Unit) : Prop := ∃ err, o.err = some (.chain err)

structure SameControl (s s' : Shared σ) : Prop where
  launched : s'.launched = s.launched
  taken : s'.taken = s.taken
  finished : s'.finished = s.finished
  channel : s'.decodeResumeCh = s.decodeResumeCh
  seen : s'.seen = s.seen
  served : s'.served = s.served

structure Inv (s : Shared σ) : Prop where
  taken_le : s.taken ≤ s.finished
  finished_le : s.finished ≤ s.launched.length
  launched_le : s.launched.length ≤ s.taken + 1
  channel : s.decodeResumeCh = true ↔ s.taken < s.finished
  idle : s.once = .idle → s.chain.localReplyDone = false
  started : s.served = none → s.chain.encodeStarted = true → s.chain.localReplyDone = true
  unpublished : s.chain.localReplyDone = false → s.published = false
  untouched : s.chain.localReplyDone = false →
    s.chain.encodeBodyOverride = none ∨ s.served.isSome = true ∧ quiet s
  ended : s.once = .ended → s.published = true
  complete : s.published = true → Complete (view s)
  running : ∀ n, s.once = .running (.goroutine n) → Turn n s
  seen : ∀ e, s.seen = some e → s.published = true ∧ s.chain.encoded = some e
  served : ∀ o, s.served = some o →
    GaveUp o ∨ s.published = true ∧ AnsweredWith (view s) o ∨
      s.chain.localReplyDone = false ∧ quiet s

theorem Inv.published_done (h : Inv s) (hp : s.published = true) :
    s.chain.localReplyDone = true := by
  by_contra hd
  have hfalse := h.unpublished (Bool.eq_false_iff.mpr hd)
  rw [hp] at hfalse
  cases hfalse

theorem quiet_congr (hl : s'.launched = s.launched) (hf : s'.finished = s.finished) :
    quiet s' ↔ quiet s := by
  rw [quiet, quiet, hl, hf]

theorem turn_congr (hl : s'.launched = s.launched) (hf : s'.finished = s.finished) :
    Turn n s' ↔ Turn n s := by
  rw [Turn, Turn, hl, hf]

theorem Inv.set_once (h : Inv s) (hc : SameControl s s') (o : Once)
    (hv : view s' = { view s with once := o })
    (hidle : o = .idle → s.chain.localReplyDone = false) (hend : o = .ended → s.published = true)
    (hrun : ∀ n, o = .running (.goroutine n) → Turn n s) : Inv s' := by
  have honce : s'.once = o := congrArg ReplyView.once hv
  have hpub : s'.published = s.published := congrArg ReplyView.published hv
  have hdone : s'.chain.localReplyDone = s.chain.localReplyDone := congrArg ReplyView.done hv
  have hstart : s'.chain.encodeStarted = s.chain.encodeStarted := congrArg ReplyView.started hv
  have henc : s'.chain.encoded = s.chain.encoded := congrArg ReplyView.encoded hv
  have hover : s'.chain.encodeBodyOverride = s.chain.encodeBodyOverride :=
    congrArg ReplyView.override hv
  have hquiet := quiet_congr hc.launched hc.finished
  constructor
  · rw [hc.taken, hc.finished]
    exact h.taken_le
  · rw [hc.launched, hc.finished]
    exact h.finished_le
  · rw [hc.launched, hc.taken]
    exact h.launched_le
  · rw [hc.channel, hc.taken, hc.finished]
    exact h.channel
  · rw [honce, hdone]
    exact hidle
  · rw [hc.served, hstart, hdone]
    exact h.started
  · rw [hdone, hpub]
    exact h.unpublished
  · rw [hdone, hover, hc.served, hquiet]
    exact h.untouched
  · rw [honce, hpub]
    exact hend
  · rw [hpub, hv]
    exact h.complete
  · intro n
    rw [honce, turn_congr hc.launched hc.finished]
    exact hrun n
  · intro e
    rw [hc.seen, hpub, henc]
    exact h.seen e
  · intro o
    rw [hc.served, hpub, hv, hdone, hquiet]
    exact h.served o

theorem Inv.of_view (h : Inv s) (hc : SameControl s s') (hv : view s' = view s) : Inv s' :=
  h.set_once hc s.once hv h.idle h.ended h.running

theorem Inv.work {t : Thread} (h : Inv s) (halive : s.served = none ∨ ¬quiet s)
    (hc : SameControl s s') (hrun : s.once = .running t) (hun : s.published = false)
    (hrun' : s'.once = .running t) (hdone : s'.chain.localReplyDone = true)
    (hcomplete : s'.published = false ∨ Complete (view s')) : Inv s' := by
  have hnot : s.published ≠ true := by simp [hun]
  have hkept : ∀ {P : Prop}, s'.chain.localReplyDone = false → P := by
    intro P hfalse
    rw [hdone] at hfalse
    cases hfalse
  constructor
  · rw [hc.taken, hc.finished]
    exact h.taken_le
  · rw [hc.launched, hc.finished]
    exact h.finished_le
  · rw [hc.launched, hc.taken]
    exact h.launched_le
  · rw [hc.channel, hc.taken, hc.finished]
    exact h.channel
  · intro hidle
    rw [hrun'] at hidle
    cases hidle
  · exact fun _ _ => hdone
  · exact hkept
  · exact hkept
  · intro hover
    rw [hrun'] at hover
    cases hover
  · intro hpub
    refine hcomplete.resolve_left (fun hun' => ?_)
    rw [hpub] at hun'
    cases hun'
  · intro n hn
    rw [turn_congr hc.launched hc.finished]
    exact h.running n (hrun.trans (hrun'.symm.trans hn))
  · intro e he
    rw [hc.seen] at he
    exact absurd (h.seen e he).1 hnot
  · intro o ho
    rw [hc.served] at ho
    rcases h.served o ho with hgave | ⟨hpub, -⟩ | ⟨-, hquiet⟩
    · exact .inl hgave
    · exact absurd hpub hnot
    · rcases halive with hnone | hbusy
      · rw [hnone] at ho
        cases ho
      · exact absurd hquiet hbusy

/-- What a step of thread `t` can do to the reply: nothing, enter the once, work on the reply
under it, or leave it when the reply is published. -/
inductive ReplyStep (t : Thread) (s s' : Shared σ) : Prop
  | same (h : view s' = view s)
  | enter (hidle : s.once = .idle) (h : view s' = { view s with once := .running t })
  | work (hrun : s.once = .running t) (hun : s.published = false) (hrun' : s'.once = .running t)
      (hdone : s.chain.localReplyDone = true → s'.chain.localReplyDone = true)
  | leave (hrun : s.once = .running t) (hpub : s.published = true)
      (h : view s' = { view s with once := .ended })

section ReplyStep
variable {t u : Thread} {s s' : Shared σ}

theorem ReplyStep.view_of_running (h : ReplyStep t s s') (hne : u ≠ t)
    (hrun : s.once = .running u) : view s' = view s := by
  cases h with
  | same h => exact h
  | enter hidle _ => simp [hrun] at hidle
  | work hrun' _ _ _ => exact absurd (Once.running.inj (hrun.symm.trans hrun')) hne
  | leave hrun' _ _ => exact absurd (Once.running.inj (hrun.symm.trans hrun')) hne

theorem ReplyStep.not_running (h : ReplyStep t s s') (hne : u ≠ t)
    (hrun : s.once ≠ .running u) : s'.once ≠ .running u := by
  cases h with
  | same h =>
    have honce : s'.once = s.once := congrArg ReplyView.once h
    rwa [honce]
  | enter _ h =>
    have honce : s'.once = .running t := congrArg ReplyView.once h
    rw [honce]
    exact fun hu => hne (Once.running.inj hu).symm
  | work _ _ hrun' _ =>
    rw [hrun']
    exact fun hu => hne (Once.running.inj hu).symm
  | leave _ _ h =>
    have honce : s'.once = .ended := congrArg ReplyView.once h
    rw [honce]
    exact fun hu => by cases hu

theorem ReplyStep.done (h : ReplyStep t s s') (hd : s.chain.localReplyDone = true) :
    s'.chain.localReplyDone = true := by
  cases h with
  | same h => exact (congrArg ReplyView.done h).trans hd
  | enter _ h => exact (congrArg ReplyView.done h).trans hd
  | work _ _ _ hdone => exact hdone hd
  | leave _ _ h => exact (congrArg ReplyView.done h).trans hd

theorem ReplyStep.published (h : ReplyStep t s s') (hp : s.published = true) :
    { view s' with once := .idle } = { view s with once := .idle } := by
  cases h with
  | same h => rw [h]
  | enter _ h => rw [h]
  | work _ hun _ _ =>
    rw [hp] at hun
    cases hun
  | leave _ _ h => rw [h]

end ReplyStep

structure GoroutineStep (n : Nat) (s s' : Shared σ) : Prop where
  turn : Turn n s
  launched : s'.launched = s.launched
  taken : s'.taken = s.taken
  seen : s'.seen = s.seen
  served : s'.served = s.served
  finished : s'.finished = s.finished ∨ s'.finished = s.finished + 1
  reply : ReplyStep (.goroutine n) s s'

structure DispatcherStep (s s' : Shared σ) : Prop where
  finished : s'.finished = s.finished
  launched : quiet s ∨ s'.launched = s.launched
  reply : quiet s ∧ s'.once = s.once ∨ ReplyStep .dispatcher s s'

structure ContextStep (s s' : Shared σ) : Prop where
  control : SameControl s s'
  chain : s'.chain = s.chain
  reply : view s' = view s

def Guarantee : Thread → Shared σ → Shared σ → Prop
  | .dispatcher, s, s' => (Inv s → Inv s') ∧ DispatcherStep s s'
  | .goroutine n, s, s' => (Inv s → Inv s') ∧ GoroutineStep n s s'
  | .context, s, s' => (Inv s → Inv s') ∧ ContextStep s s'

structure OffTurnKept (n : Nat) (s s' : Shared σ) : Prop where
  finished : s.finished ≤ n → s'.finished ≤ n
  outside : s.once ≠ .running (.goroutine n) → s'.once ≠ .running (.goroutine n)

structure TurnKept (n : Nat) (s s' : Shared σ) : Prop where
  turn : Turn n s'
  reply : s.once = .running (.goroutine n) → view s' = view s
  done : s.chain.localReplyDone = true → s'.chain.localReplyDone = true

structure DispatcherKept (s s' : Shared σ) : Prop where
  launched : s'.launched = s.launched
  taken : s'.taken = s.taken
  seen : s'.seen = s.seen
  served : s'.served = s.served
  calm : quiet s → s'.finished = s.finished ∧ s'.chain = s.chain ∧ view s' = view s
  reply : s.once = .running .dispatcher → view s' = view s
  outside : s.once ≠ .running .dispatcher → s'.once ≠ .running .dispatcher
  done : s.chain.localReplyDone = true → s'.chain.localReplyDone = true
  published : s.published = true →
    { view s' with once := .idle } = { view s with once := .idle }

def Rely : Thread → Shared σ → Shared σ → Prop
  | .dispatcher, s, s' => (Inv s → Inv s') ∧ DispatcherKept s s'
  | .goroutine n, s, s' => (Inv s → Inv s') ∧ OffTurnKept n s s' ∧ (Turn n s → TurnKept n s s')
  | .context, _, _ => True

theorem rely_refl (t : Thread) (s : Shared σ) : Rely t s s := by
  cases t with
  | dispatcher =>
    exact ⟨id, ⟨rfl, rfl, rfl, rfl, fun _ => ⟨rfl, rfl, rfl⟩, fun _ => rfl, id, id, fun _ => rfl⟩⟩
  | goroutine n => exact ⟨id, ⟨id, id⟩, fun h => ⟨h, fun _ => rfl, id⟩⟩
  | context => exact trivial

theorem DispatcherKept.trans {s'' : Shared σ} (h : DispatcherKept s s')
    (h' : DispatcherKept s' s'') : DispatcherKept s s'' where
  launched := h'.launched.trans h.launched
  taken := h'.taken.trans h.taken
  seen := h'.seen.trans h.seen
  served := h'.served.trans h.served
  calm := by
    intro hq
    obtain ⟨hf, hc, hv⟩ := h.calm hq
    obtain ⟨hf', hc', hv'⟩ := h'.calm ((quiet_congr h.launched hf).mpr hq)
    exact ⟨hf'.trans hf, hc'.trans hc, hv'.trans hv⟩
  reply := by
    intro hrun
    have hv := h.reply hrun
    have hrun' : s'.once = .running .dispatcher := (congrArg ReplyView.once hv).trans hrun
    exact (h'.reply hrun').trans hv
  outside := fun hne => h'.outside (h.outside hne)
  done := fun hd => h'.done (h.done hd)
  published := by
    intro hp
    have hv := h.published hp
    have hp' : s'.published = true := (congrArg ReplyView.published hv).trans hp
    exact (h'.published hp').trans hv

theorem TurnKept.trans {s'' : Shared σ} (h : TurnKept n s s') (h' : TurnKept n s' s'') :
    TurnKept n s s'' where
  turn := h'.turn
  reply := by
    intro hrun
    have hv := h.reply hrun
    have hrun' : s'.once = .running (.goroutine n) := (congrArg ReplyView.once hv).trans hrun
    exact (h'.reply hrun').trans hv
  done := fun hd => h'.done (h.done hd)

theorem rely_trans (t : Thread) (s s' s'' : Shared σ) (h : Rely t s s') (h' : Rely t s' s'') :
    Rely t s s'' := by
  cases t with
  | dispatcher => exact ⟨fun hi => h'.1 (h.1 hi), h.2.trans h'.2⟩
  | goroutine n =>
    refine ⟨fun hi => h'.1 (h.1 hi), ?_, fun ht => ?_⟩
    · exact ⟨fun hn => h'.2.1.finished (h.2.1.finished hn),
        fun ho => h'.2.1.outside (h.2.1.outside ho)⟩
    · have hkept := h.2.2 ht
      exact hkept.trans (h'.2.2 hkept.turn)
  | context => exact trivial

theorem guarantee_inv (t : Thread) (s s' : Shared σ) (hi : Inv s) (h : Guarantee t s s') :
    Inv s' := by
  cases t with
  | dispatcher => exact h.1 hi
  | goroutine n => exact h.1 hi
  | context => exact h.1 hi

theorem goroutine_for_dispatcher (h : GoroutineStep n s s') : DispatcherKept s s' where
  launched := h.launched
  taken := h.taken
  seen := h.seen
  served := h.served
  calm := fun hq => absurd hq h.turn.not_quiet
  reply := h.reply.view_of_running (fun he => by cases he)
  outside := h.reply.not_running (fun he => by cases he)
  done := h.reply.done
  published := h.reply.published

theorem goroutine_for_goroutine {m : Nat} (hne : n ≠ m) (h : GoroutineStep n s s') :
    OffTurnKept m s s' ∧ (Turn m s → TurnKept m s s') := by
  have hn : s.finished = n := h.turn.1
  constructor
  · refine ⟨fun hm => ?_, h.reply.not_running (fun he => hne (Thread.goroutine.inj he).symm)⟩
    rcases h.finished with hf | hf <;> omega
  · intro ht
    have hm : s.finished = m := ht.1
    omega

theorem dispatcher_for_goroutine {m : Nat} (h : DispatcherStep s s') :
    OffTurnKept m s s' ∧ (Turn m s → TurnKept m s s') := by
  constructor
  · constructor
    · intro hm
      rwa [h.finished]
    · intro ho
      rcases h.reply with ⟨-, honce⟩ | hr
      · rwa [honce]
      · exact hr.not_running (fun he => by cases he) ho
  · intro ht
    have hl := h.launched.resolve_left ht.not_quiet
    have hr := h.reply.resolve_left (fun hq => ht.not_quiet hq.1)
    exact ⟨(turn_congr hl h.finished).mpr ht, hr.view_of_running (fun he => by cases he), hr.done⟩

theorem context_for_dispatcher (h : ContextStep s s') : DispatcherKept s s' where
  launched := h.control.launched
  taken := h.control.taken
  seen := h.control.seen
  served := h.control.served
  calm := fun _ => ⟨h.control.finished, h.chain, h.reply⟩
  reply := fun _ => h.reply
  outside := (ReplyStep.same h.reply : ReplyStep .context s s').not_running (fun he => by cases he)
  done := (ReplyStep.same h.reply : ReplyStep .context s s').done
  published := (ReplyStep.same h.reply : ReplyStep .context s s').published

theorem context_for_goroutine {m : Nat} (h : ContextStep s s') :
    OffTurnKept m s s' ∧ (Turn m s → TurnKept m s s') := by
  have hr : ReplyStep .context s s' := .same h.reply
  constructor
  · refine ⟨fun hm => ?_, hr.not_running (fun he => by cases he)⟩
    rwa [h.control.finished]
  · intro ht
    exact ⟨(turn_congr h.control.launched h.control.finished).mpr ht,
      hr.view_of_running (fun he => by cases he), hr.done⟩

theorem guarantee_rely (t u : Thread) (s s' : Shared σ) (hne : t ≠ u)
    (h : Guarantee t s s') : Rely u s s' := by
  have hinv : Inv s → Inv s' := fun hi => guarantee_inv t s s' hi h
  cases u with
  | context => exact trivial
  | dispatcher =>
    refine ⟨hinv, ?_⟩
    cases t with
    | dispatcher => exact absurd rfl hne
    | goroutine n => exact goroutine_for_dispatcher h.2
    | context => exact context_for_dispatcher h.2
  | goroutine m =>
    refine ⟨hinv, ?_⟩
    cases t with
    | dispatcher => exact dispatcher_for_goroutine h.2
    | goroutine n => exact goroutine_for_goroutine (fun he => hne (congrArg _ he)) h.2
    | context => exact context_for_goroutine h.2

end EnvoyGo.SharedChain

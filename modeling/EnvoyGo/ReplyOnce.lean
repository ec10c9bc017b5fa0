import EnvoyGo.ReplyProtocol

/-!
A SendLocalReply on either kind of goroutine: outside the once before and after, and the reply
as the encode chain left it when it comes out.
-/

namespace EnvoyGo.SharedChain

open Threads

variable {σ α β : Type}

/-- The flag is not loaded between its store and the last store of the reply, no filter replaces
the body of a local reply, a local reply has a positive status, and on HTTP/2 the action does not
run when there is a local reply. -/
def Allowed : Access → Shared σ → Prop
  | .plain, _ => True
  | .loadDone, s => s.chain.localReplyDone = true → s.published = true
  | .overwriteBody, s => s.chain.localReplyDone = false
  | .storeStatus status, _ => 0 < status
  | .runAction, s => s.chain.localReplyDone = false

instance (l : Access) (s : Shared σ) : Decidable (Allowed l s) :=
  match l with
  | .plain => isTrue trivial
  | .loadDone =>
    inferInstanceAs (Decidable (s.chain.localReplyDone = true → s.published = true))
  | .overwriteBody => inferInstanceAs (Decidable (s.chain.localReplyDone = false))
  | .storeStatus status => inferInstanceAs (Decidable (0 < status))
  | .runAction => inferInstanceAs (Decidable (s.chain.localReplyDone = false))

structure EncodeStep (s s' : Shared σ) : Prop where
  control : SameControl s s'
  once : s'.once = s.once
  published : s'.published = s.published
  done : s'.chain.localReplyDone = s.chain.localReplyDone
  status : s'.chain.localReplyStatus = s.chain.localReplyStatus
  headers : s'.chain.localReplyHeaders = s.chain.localReplyHeaders
  override : s.chain.localReplyDone = true →
    s'.chain.encodeBodyOverride = s.chain.encodeBodyOverride

theorem encodeStep_refl (s : Shared σ) : EncodeStep s s :=
  ⟨⟨rfl, rfl, rfl, rfl, rfl, rfl⟩, rfl, rfl, rfl, rfl, rfl, fun _ => rfl⟩

theorem encodeStep_onChain (f : FilterChain σ → FilterChain σ) (s : Shared σ)
    (hdone : (f s.chain).localReplyDone = s.chain.localReplyDone)
    (hstatus : (f s.chain).localReplyStatus = s.chain.localReplyStatus)
    (hheaders : (f s.chain).localReplyHeaders = s.chain.localReplyHeaders)
    (hover : s.chain.localReplyDone = true →
      (f s.chain).encodeBodyOverride = s.chain.encodeBodyOverride) :
    EncodeStep s (onChain f s) :=
  ⟨⟨rfl, rfl, rfl, rfl, rfl, rfl⟩, rfl, rfl, hdone, hstatus, hheaders, hover⟩

section EncodeSide

theorem encodeProg_does (name : String) (p : FilterProg σ α) :
    (encodeProg name p).Does Allowed EncodeStep := by
  induction p with
  | done a => exact trivial
  | touch f k ih =>
    intro b s _ _
    exact ⟨encodeStep_onChain _ s rfl rfl rfl (fun _ => rfl), ih _⟩
  | sendLocalReply r k ih =>
    refine Code.Does.bind (does_atomic _ _ (fun s _ => ?_)) (fun _ => ih)
    exact encodeStep_onChain _ s rfl rfl rfl (fun _ => rfl)
  | overwriteBody b k ih =>
    refine Code.Does.bind (does_atomic _ _ (fun s hok => ?_)) (fun _ => ih)
    have hnot : s.chain.localReplyDone = false := hok
    exact encodeStep_onChain _ s rfl rfl rfl (fun hd => by rw [hnot] at hd; cases hd)
  | bufferEncodedBody k ih => exact fun b s _ _ => ⟨encodeStep_refl s, ih _⟩
  | responseStatus k ih => exact fun b s _ _ => ⟨encodeStep_refl s, ih _⟩

theorem encodeHeadersLoop_does (endStream : Bool) (fs : List (AsyncFilter σ)) :
    (encodeHeadersLoop endStream fs).Does Allowed EncodeStep := by
  induction fs with
  | nil => exact trivial
  | cons f rest ih =>
    unfold encodeHeadersLoop
    cases f.encoder with
    | none => exact ih
    | some e =>
      refine Code.Does.bind (encodeProg_does _ _) (fun status => ?_)
      cases status with
      | continueIteration => exact ih
      | stopIteration =>
        refine Code.Does.bind (encodeProg_does _ _) (fun wake => ?_)
        cases wake with
        | resumed => exact ih
        | ctxDone => exact trivial
      | terminateStream => exact trivial
      | unknown code => exact trivial

theorem runEncodeHeaders_does (fs : List (AsyncFilter σ)) (headers : Header) (endStream : Bool) :
    (runEncodeHeaders fs headers endStream).Does Allowed EncodeStep := by
  refine Code.Does.bind (does_atomic _ _ (fun s _ => ?_)) (fun _ => encodeHeadersLoop_does _ _)
  exact encodeStep_onChain _ s rfl rfl rfl (fun _ => rfl)

theorem encodeDataLoop_does (endStream : Bool) (fs : List (AsyncFilter σ)) (data : Bytes) :
    (encodeDataLoop endStream fs data).Does Allowed EncodeStep := by
  induction fs generalizing data with
  | nil =>
    refine Code.Does.bind (does_atomic _ _ (fun s _ => ?_)) (fun _ => trivial)
    exact encodeStep_onChain _ s rfl rfl rfl (fun _ => rfl)
  | cons f rest ih =>
    unfold encodeDataLoop
    cases f.encoder with
    | none => exact ih data
    | some e =>
      refine Code.Does.bind (encodeProg_does _ _) (fun status => ?_)
      cases status with
      | dataContinue => exact ih data
      | dataStopIterationAndBuffer =>
        refine Code.Does.bind (does_atomic _ _ (fun s _ => ?_)) (fun _ => ?_)
        · exact encodeStep_onChain _ s rfl rfl rfl (fun _ => rfl)
        · refine Code.Does.bind (encodeProg_does _ _) (fun wake => ?_)
          cases wake with
          | resumed =>
            cases endStream with
            | true =>
              refine Code.Does.bind (fun b s _ _ => ⟨?_, trivial⟩) (fun buf => ih buf)
              exact encodeStep_onChain _ s rfl rfl rfl (fun _ => rfl)
            | false => exact ih data
          | ctxDone => exact trivial
      | dataStopIterationNoBuffer =>
        refine Code.Does.bind (encodeProg_does _ _) (fun wake => ?_)
        cases wake with
        | resumed => exact ih data
        | ctxDone => exact trivial
      | dataTerminateStream => exact trivial
      | unknown code => exact trivial

theorem runEncodeData_does (fs : List (AsyncFilter σ)) (data : Bytes) (endStream : Bool) :
    (runEncodeData fs data endStream).Does Allowed EncodeStep := by
  refine Code.Does.bind (does_load _ _ encodeStep_refl) (fun full => ?_)
  cases full with
  | true => exact trivial
  | false => exact encodeDataLoop_does _ _ _

end EncodeSide

structure Role (t : Thread) (A : Shared σ → Prop) : Prop where
  inv : ∀ s s' : Shared σ, Rely t s s' → Inv s → Inv s'
  kept : ∀ s s' : Shared σ, A s → Rely t s s' → A s'
  reply : ∀ s s' : Shared σ, A s → Rely t s s' → s.once = .running t → view s' = view s
  outside : ∀ s s' : Shared σ, A s → Rely t s s' → s.once ≠ .running t → s'.once ≠ .running t
  done : ∀ s s' : Shared σ, A s → Rely t s s' → s.chain.localReplyDone = true →
    s'.chain.localReplyDone = true
  alive : ∀ s : Shared σ, A s → s.served = none ∨ ¬quiet s
  turn : ∀ (s : Shared σ) (n : Nat), A s → t = .goroutine n → Turn n s
  step : ∀ s s' : Shared σ, A s → SameControl s s' → ReplyStep t s s' → (Inv s → Inv s') →
    Guarantee t s s' ∧ A s'

structure Under (t : Thread) (A : Shared σ → Prop) (P : ReplyView → Prop) (s : Shared σ) :
    Prop where
  inv : Inv s
  role : A s
  once : s.once = .running t
  reply : P (view s)

structure Outside (t : Thread) (A : Shared σ → Prop) (s : Shared σ) : Prop where
  inv : Inv s
  role : A s
  once : s.once ≠ .running t

def Entered (v : ReplyView) : Prop := v.done = false ∧ v.published = false ∧ v.override = none

def Encoding (v : ReplyView) : Prop := v.done = true ∧ v.published = false ∧ v.override = none

def StatusStored (r : LocalReply) (v : ReplyView) : Prop :=
  v.done = true ∧ v.published = false ∧ v.status = r.status ∧ 0 < r.status ∧
    v.encoded = some ⟨r.status, r.body, OrderedHeaders.reconcile r.headers v.response⟩

def HeadersStored (r : LocalReply) (v : ReplyView) : Prop :=
  StatusStored r v ∧ v.headers = OrderedHeaders.reconcile r.headers v.response

def Published (v : ReplyView) : Prop := v.published = true

section Reply
variable {t : Thread} {A : Shared σ → Prop} (role : Role t A)
include role

theorem Role.under_stable (P : ReplyView → Prop) (s s' : Shared σ) (h : Under t A P s)
    (hr : Rely t s s') : Under t A P s' := by
  have hv := role.reply s s' h.role hr h.once
  refine ⟨role.inv s s' hr h.inv, role.kept s s' h.role hr, ?_, ?_⟩
  · exact (congrArg ReplyView.once hv).trans h.once
  · rw [hv]
    exact h.reply

theorem Role.outside_stable (s s' : Shared σ) (h : Outside t A s) (hr : Rely t s s') :
    Outside t A s' :=
  ⟨role.inv s s' hr h.inv, role.kept s s' h.role hr, role.outside s s' h.role hr h.once⟩

theorem Role.work_step {P K : ReplyView → Prop} {s s' : Shared σ} (h : Under t A P s)
    (hun : s.published = false) (hc : SameControl s s') (hrun' : s'.once = .running t)
    (hdone : s'.chain.localReplyDone = true)
    (hcomplete : s'.published = false ∨ Complete (view s')) (hreply : K (view s')) :
    Guarantee t s s' ∧ Under t A K s' := by
  have hinv := h.inv.work (role.alive s h.role) hc h.once hun hrun' hdone hcomplete
  obtain ⟨hg, ha⟩ := role.step s s' h.role hc (.work h.once hun hrun' (fun _ => hdone))
    (fun _ => hinv)
  exact ⟨hg, hinv, ha, hrun', hreply⟩

theorem Role.encode_holds {c : Prog σ α} (hc : c.Does Allowed EncodeStep) {s : Shared σ}
    (hs : Under t A Encoding s) :
    c.Holds Allowed (Rely t) (Guarantee t) (fun _ => Under t A Encoding) s := by
  refine hc.holds (role.under_stable Encoding) (fun s s' h hstep => ?_) hs
  obtain ⟨hd, hun, hover⟩ := h.reply
  have hd' : s'.chain.localReplyDone = true := hstep.done.trans hd
  have hun' : s'.published = false := hstep.published.trans hun
  have hend := role.work_step (K := Encoding) h hun hstep.control (hstep.once.trans h.once) hd'
    (.inl hun') ⟨hd', hun', (hstep.override hd).trans hover⟩
  exact ⟨hend.2, hend.1⟩

theorem Role.storeReply_holds (r : LocalReply) {s : Shared σ} (hs : Under t A Encoding s) :
    (storeReply r : Prog σ Unit).Holds Allowed (Rely t) (Guarantee t)
      (fun _ s => Outside t A s ∧ s.chain.localReplyDone = true) s := by
  unfold storeReply
  refine Code.Holds.bind (rely_refl t) (holds_atomic (role.under_stable Encoding)
    (role.under_stable (StatusStored r)) _ _ (fun s h hpos => ?_) hs) (fun _ s1 h1 => ?_)
  · obtain ⟨hd, hun, hover⟩ := h.reply
    refine role.work_step h hun ⟨rfl, rfl, rfl, rfl, rfl, rfl⟩ h.once hd (.inl hun)
      ⟨hd, hun, rfl, hpos, ?_⟩
    have hnone : s.chain.encodeBodyOverride = none := hover
    simp only [view, onChain, leftByEncodeChain, hnone, Option.getD_none]
  refine Code.Holds.bind (rely_refl t) (holds_atomic (role.under_stable (StatusStored r))
    (role.under_stable (HeadersStored r)) _ _ (fun s h _ => ?_) h1) (fun _ s2 h2 => ?_)
  · obtain ⟨hd, hun, hrest⟩ := h.reply
    exact role.work_step h hun ⟨rfl, rfl, rfl, rfl, rfl, rfl⟩ h.once hd (.inl hun)
      ⟨⟨hd, hun, hrest⟩, rfl⟩
  refine Code.Holds.bind (rely_refl t) (holds_atomic (role.under_stable (HeadersStored r))
    (role.under_stable Published) _ _ (fun s h _ => ?_) h2) (fun _ s3 h3 => ?_)
  · obtain ⟨⟨hd, hun, hst, hpos, henc⟩, hh⟩ := h.reply
    refine role.work_step h hun ⟨rfl, rfl, rfl, rfl, rfl, rfl⟩ h.once hd (.inr ?_) rfl
    exact ⟨_, henc, hpos, hst, hh, rfl⟩
  refine Code.Holds.mono (holds_atomic (role.under_stable Published)
    (K := fun s => Outside t A s ∧ s.chain.localReplyDone = true) ?_ _ _ (fun s h _ => ?_) h3)
    (fun _ _ hg => hg) (fun _ _ hq => hq)
  · intro s s' h hr
    exact ⟨role.outside_stable s s' h.1 hr, role.done s s' h.1.role hr h.2⟩
  · have hpub : s.published = true := h.reply
    have hc : SameControl s { s with once := .ended } := ⟨rfl, rfl, rfl, rfl, rfl, rfl⟩
    have hinv : Inv { s with once := .ended } :=
      h.inv.set_once hc .ended rfl (fun hi => by cases hi) (fun _ => hpub) (fun n hn => by cases hn)
    obtain ⟨hg, ha⟩ := role.step s _ h.role hc (.leave h.once hpub rfl) (fun _ => hinv)
    exact ⟨hg, ⟨hinv, ha, fun ho => by cases ho⟩, h.inv.published_done hpub⟩

theorem Role.firstLocalReply_holds (fs : List (AsyncFilter σ)) (r : LocalReply) {s : Shared σ}
    (hs : Under t A Entered s) :
    (firstLocalReply fs r).Holds Allowed (Rely t) (Guarantee t)
      (fun _ s => Outside t A s ∧ s.chain.localReplyDone = true) s := by
  unfold firstLocalReply
  refine Code.Holds.bind (rely_refl t) (holds_atomic (role.under_stable Entered)
    (role.under_stable Encoding) _ _ (fun s h _ => ?_) hs) (fun _ s1 h1 => ?_)
  · obtain ⟨-, hun, hover⟩ := h.reply
    exact role.work_step h hun ⟨rfl, rfl, rfl, rfl, rfl, rfl⟩ h.once rfl (.inl hun)
      ⟨rfl, hun, hover⟩
  refine Code.Holds.bind (rely_refl t) (role.encode_holds (does_atomic _ _ (fun s _ => ?_)) h1)
    (fun _ s2 h2 => ?_)
  · exact encodeStep_onChain _ s rfl rfl rfl (fun _ => rfl)
  refine Code.Holds.bind (rely_refl t) (role.encode_holds (runEncodeHeaders_does _ _ _) h2)
    (fun _ s3 h3 => ?_)
  refine Code.Holds.bind (rely_refl t) (role.encode_holds ?_ h3)
    (fun _ s4 h4 => role.storeReply_holds r h4)
  split_ifs
  · exact runEncodeData_does _ _ _
  · exact trivial

theorem Role.plain_step {s s' : Shared σ} (h : Outside t A s) (hc : SameControl s s')
    (hv : view s' = view s) : Guarantee t s s' ∧ Outside t A s' := by
  have hinv := h.inv.of_view hc hv
  obtain ⟨hg, ha⟩ := role.step s s' h.role hc (.same hv) (fun _ => hinv)
  have honce : s'.once = s.once := congrArg ReplyView.once hv
  exact ⟨hg, hinv, ha, honce ▸ h.once⟩

theorem Role.enterOnce_holds {s : Shared σ} (hs : Outside t A s) :
    (enterOnce t : Prog σ Bool).Holds Allowed (Rely t) (Guarantee t)
      (fun first s => (first = true → Under t A Entered s) ∧
        (first = false → Outside t A s ∧ s.chain.localReplyDone = true)) s := by
  intro s' hs' b hb _
  have h := role.outside_stable s s' hs hs'
  cases ho : s'.once with
  | running u => simp [ho] at hb
  | ended =>
    have hnot : ¬s'.once = .idle := by simp [ho]
    simp only [if_neg hnot, decide_eq_false hnot]
    have hdone := h.inv.published_done (h.inv.ended ho)
    refine ⟨(role.plain_step h ⟨rfl, rfl, rfl, rfl, rfl, rfl⟩ rfl).1, fun s'' hs'' => ?_⟩
    refine ⟨?_, fun _ => ⟨role.outside_stable s' s'' h hs'', ?_⟩⟩
    · intro hf
      cases hf
    · exact role.done s' s'' h.role hs'' hdone
  | idle =>
    simp only [if_pos ho, decide_eq_true ho]
    have hd := h.inv.idle ho
    have hc : SameControl s' { s' with once := .running t } := ⟨rfl, rfl, rfl, rfl, rfl, rfl⟩
    have hinv : Inv { s' with once := .running t } :=
      h.inv.set_once hc (.running t) rfl (fun hi => by cases hi) (fun hi => by cases hi)
        (fun n hn => role.turn s' n h.role (Once.running.inj hn))
    obtain ⟨hg, ha⟩ := role.step s' _ h.role hc (.enter ho rfl) (fun _ => hinv)
    refine ⟨hg, fun s'' hs'' => ⟨fun _ => ?_, (fun hf => by cases hf)⟩⟩
    have hover : s'.chain.encodeBodyOverride = none := by
      rcases h.inv.untouched hd with hnone | ⟨hserved, hquiet⟩
      · exact hnone
      · rcases role.alive s' h.role with hnot | hbusy
        · rw [hnot] at hserved
          cases hserved
        · exact absurd hquiet hbusy
    have hentered : Under t A Entered { s' with once := .running t } :=
      ⟨hinv, ha, rfl, hd, h.inv.unpublished hd, hover⟩
    exact role.under_stable Entered _ s'' hentered hs''

variable {B : Prop} (hB : B → ∀ s, A s → s.served = none)

theorem Role.after_stable (s s' : Shared σ)
    (h : Outside t A s ∧ (B → s.chain.localReplyDone = true)) (hr : Rely t s s') :
    Outside t A s' ∧ (B → s'.chain.localReplyDone = true) :=
  ⟨role.outside_stable s s' h.1 hr, fun hb => role.done s s' h.1.role hr (h.2 hb)⟩

include hB in
theorem Role.beginLocalReply_holds (fs : List (AsyncFilter σ)) (name : String) (r : LocalReply)
    {s : Shared σ} (hs : Outside t A s) :
    (beginLocalReply fs t name r).Holds Allowed (Rely t) (Guarantee t)
      (fun _ s => Outside t A s ∧ (B → s.chain.localReplyDone = true)) s := by
  unfold beginLocalReply
  refine Code.Holds.bind (rely_refl t) (holds_load role.outside_stable
    (K := fun started s => Outside t A s ∧ (started = true ∧ B → s.chain.localReplyDone = true))
    (fun _ s s' h hr => role.after_stable s s' h hr) _ _ (fun s h _ => ?_) hs)
    (fun started s1 h1 => ?_)
  · refine ⟨(role.plain_step h ⟨rfl, rfl, rfl, rfl, rfl, rfl⟩ rfl).1, h, fun hb => ?_⟩
    exact h.inv.started (hB hb.2 s h.role) hb.1
  cases started with
  | true =>
    refine holds_atomic (J := fun s => Outside t A s ∧ (B → s.chain.localReplyDone = true))
      role.after_stable role.after_stable _ _ (fun s h _ => ?_) ⟨h1.1, fun hb => h1.2 ⟨rfl, hb⟩⟩
    exact And.imp_right (fun hout => ⟨hout, h.2⟩)
      (role.plain_step h.1 ⟨rfl, rfl, rfl, rfl, rfl, rfl⟩ rfl)
  | false =>
    refine Code.Holds.bind (rely_refl t) (role.enterOnce_holds h1.1) (fun first s2 h2 => ?_)
    cases first with
    | true =>
      exact (role.firstLocalReply_holds fs r (h2.1 rfl)).mono (fun _ _ hg => hg)
        (fun _ _ hq => ⟨hq.1, fun _ => hq.2⟩)
    | false =>
      obtain ⟨hout, hd⟩ := h2.2 rfl
      exact holds_ret role.after_stable () ⟨hout, fun _ => hd⟩ (fun _ hq => hq)

omit hB in
theorem Role.decodeProg_holds (fs : List (AsyncFilter σ)) (name : String) (p : DecodeProg σ α)
    {s : Shared σ} (hs : Outside t A s) :
    (decodeProg fs t name p).Holds Allowed (Rely t) (Guarantee t) (fun _ => Outside t A) s := by
  induction p generalizing s with
  | ret a => exact holds_ret role.outside_stable a hs (fun _ hq => hq)
  | touch f k ih =>
    intro s' hs' b _ _
    refine And.imp_right (fun hout => ih _ hout) (role.plain_step
      (role.outside_stable s s' hs hs') ⟨rfl, rfl, rfl, rfl, rfl, rfl⟩ rfl)
  | sendLocalReply r k ih =>
    refine Code.Holds.bind (rely_refl t) (role.beginLocalReply_holds (B := False)
      (fun hf => hf.elim) fs name r hs) (fun _ s1 h1 => ih h1.1)

end Reply

end EnvoyGo.SharedChain

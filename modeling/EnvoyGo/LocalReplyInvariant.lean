import EnvoyGo.FilterChain

/-!
What a pass can change.  An encode pass leaves the local-reply fields alone; a decode
pass that does not fail keeps the flag, the replies asked for and the stored reply in step.
-/

namespace EnvoyGo

variable {σ α : Type}

theorem FilterProg.run_preserves {reply : LocalReply → FilterChain σ → FilterChain σ}
    {P : FilterChain σ → Prop}
    (htouch : ∀ w c, P c → P { c with world := w })
    (hreply : ∀ r c, P c → P (reply r c))
    (hover : ∀ b c, P c → P { c with encodeBodyOverride := some b })
    (p : FilterProg σ α) (c : FilterChain σ) (hc : P c) : P (p.run reply c).2 := by
  induction p generalizing c with
  | done a => exact hc
  | touch f k ih => exact ih _ _ (htouch _ _ hc)
  | sendLocalReply r k ih => exact ih _ (hreply _ _ hc)
  | overwriteBody b k ih => exact ih _ (hover _ _ hc)
  | bufferEncodedBody k ih => exact ih _ _ hc
  | responseStatus k ih => exact ih _ _ hc

structure EncodeFrame (c c' : FilterChain σ) : Prop where
  done : c'.localReplyDone = c.localReplyDone
  started : c'.encodeStarted = c.encodeStarted
  status : c'.localReplyStatus = c.localReplyStatus
  headers : c'.localReplyHeaders = c.localReplyHeaders
  body : c'.localReplyBody = c.localReplyBody
  asked : c'.asked = c.asked
  encoded : c'.encoded = c.encoded

theorem EncodeFrame.update (c : FilterChain σ) (world : World σ) (decodeBuf encodeBuf : Bytes)
    (decodeBufOver : Bool) (encodeBufLen encodeResponseStatus : Int)
    (encodeBodyOverride : Option Bytes) (diagLog : List String) :
    EncodeFrame c { c with
      world := world
      decodeBuf := decodeBuf
      decodeBufOver := decodeBufOver
      encodeBuf := encodeBuf
      encodeBufLen := encodeBufLen
      encodeResponseStatus := encodeResponseStatus
      encodeBodyOverride := encodeBodyOverride
      diagLog := diagLog } :=
  ⟨rfl, rfl, rfl, rfl, rfl, rfl, rfl⟩

theorem EncodeFrame.refl (c : FilterChain σ) : EncodeFrame c c := .update ..

theorem EncodeFrame.trans {a b c : FilterChain σ} (hab : EncodeFrame a b)
    (hbc : EncodeFrame b c) : EncodeFrame a c where
  done := hbc.done.trans hab.done
  started := hbc.started.trans hab.started
  status := hbc.status.trans hab.status
  headers := hbc.headers.trans hab.headers
  body := hbc.body.trans hab.body
  asked := hbc.asked.trans hab.asked
  encoded := hbc.encoded.trans hab.encoded

theorem runEncodeProg_frame (name : String) (p : FilterProg σ α) (c : FilterChain σ) :
    EncodeFrame c (runEncodeProg name p c).2 := by
  apply FilterProg.run_preserves (P := fun c' => EncodeFrame c c')
  · intro w c' h
    exact h.trans (.update ..)
  · intro r c' h
    exact h.trans (.update ..)
  · intro b c' h
    exact h.trans (.update ..)
  · exact EncodeFrame.refl c

section EncodeWalk
variable {Q : FilterChain σ → Prop}

def EncodePreserves (Q : FilterChain σ → Prop) (name : String) (p : FilterProg σ α) : Prop :=
  ∀ c, Q c → Q (runEncodeProg name p c).2

theorem reactEncodeHeaders_preserves (f : HTTPFilter σ) (e : StreamEncoderFilter σ)
    (hpark : EncodePreserves Q f.name e.parked) (st : FilterHeadersStatus) (c : FilterChain σ)
    (hc : Q c) : Q (reactEncodeHeaders f e st c).2 := by
  cases st with
  | continueIteration => exact hc
  | stopIteration =>
    have hp := hpark c hc
    simp only [reactEncodeHeaders, parkEncode]
    rcases hr : runEncodeProg f.name e.parked c with ⟨w, c'⟩
    rw [hr] at hp
    cases w <;> exact hp
  | terminateStream => exact hc
  | unknown code => exact hc

theorem encodeHeadersLoop_preserves (endStream : Bool) (fs : List (HTTPFilter σ))
    (hfs : ∀ f ∈ fs, ∀ e, f.encoder = some e →
      EncodePreserves Q f.name (e.encodeHeaders endStream) ∧ EncodePreserves Q f.name e.parked)
    (c : FilterChain σ) (hc : Q c) : Q (encodeHeadersLoop endStream fs c).2 := by
  induction fs generalizing c with
  | nil => exact hc
  | cons f rest ih =>
    have hrest := ih (fun g hg => hfs g (List.mem_cons_of_mem f hg))
    rw [encodeHeadersLoop]
    cases he : f.encoder with
    | none => exact hrest c hc
    | some e =>
      obtain ⟨hcall, hpark⟩ := hfs f List.mem_cons_self e he
      have h1 := hcall c hc
      simp only []
      rcases hr : runEncodeProg f.name (e.encodeHeaders endStream) c with ⟨status, c1⟩
      rw [hr] at h1
      have h2 := reactEncodeHeaders_preserves f e hpark status c1 h1
      simp only []
      rcases hx : reactEncodeHeaders f e status c1 with ⟨err, c2⟩
      rw [hx] at h2
      cases err with
      | none => exact hrest c2 h2
      | some err => exact h2

variable (hbuf : ∀ c b n, Q c → Q { c with encodeBuf := b, encodeBufLen := n })
include hbuf

theorem reactEncodeData_preserves (f : HTTPFilter σ) (e : StreamEncoderFilter σ)
    (hpark : EncodePreserves Q f.name e.parked) (data : Bytes) (endStream : Bool)
    (st : FilterDataStatus) (c : FilterChain σ) (hc : Q c) :
    Q (reactEncodeData f e data endStream st c).2.2 := by
  cases st with
  | dataContinue => exact hc
  | dataStopIterationAndBuffer =>
    have hp := hpark { c with encodeBuf := c.encodeBuf ++ data } (hbuf c _ _ hc)
    simp only [reactEncodeData, parkEncode]
    rcases hr : runEncodeProg f.name e.parked { c with encodeBuf := c.encodeBuf ++ data }
      with ⟨w, c'⟩
    rw [hr] at hp
    cases w with
    | resumed =>
      cases endStream with
      | true => exact hbuf c' _ _ hp
      | false => exact hp
    | ctxDone => exact hp
  | dataStopIterationNoBuffer =>
    have hp := hpark c hc
    simp only [reactEncodeData, parkEncode]
    rcases hr : runEncodeProg f.name e.parked c with ⟨w, c'⟩
    rw [hr] at hp
    cases w <;> exact hp
  | dataTerminateStream => exact hc
  | unknown code => exact hc

theorem encodeDataLoop_preserves (endStream : Bool) (fs : List (HTTPFilter σ))
    (hfs : ∀ f ∈ fs, ∀ e, f.encoder = some e →
      (∀ data, EncodePreserves Q f.name (e.encodeData data endStream)) ∧
        EncodePreserves Q f.name e.parked)
    (data : Bytes) (c : FilterChain σ) (hc : Q c) :
    Q (encodeDataLoop endStream fs data c).2 := by
  induction fs generalizing data c with
  | nil => exact hbuf c c.encodeBuf _ hc
  | cons f rest ih =>
    have hrest := ih (fun g hg => hfs g (List.mem_cons_of_mem f hg))
    rw [encodeDataLoop]
    cases he : f.encoder with
    | none => exact hrest data c hc
    | some e =>
      obtain ⟨hcall, hpark⟩ := hfs f List.mem_cons_self e he
      have h1 := hcall data c hc
      simp only []
      rcases hr : runEncodeProg f.name (e.encodeData data endStream) c with ⟨status, c1⟩
      rw [hr] at h1
      have h2 := reactEncodeData_preserves hbuf f e hpark data endStream status c1 h1
      simp only []
      rcases hx : reactEncodeData f e data endStream status c1 with ⟨err, data', c2⟩
      rw [hx] at h2
      cases err with
      | none => exact hrest data' c2 h2
      | some err => exact h2

end EncodeWalk

theorem encodePreserves_frame (c : FilterChain σ) (name : String) (p : FilterProg σ α) :
    EncodePreserves (EncodeFrame c) name p := by
  intro c' hc'
  exact hc'.trans (runEncodeProg_frame name p c')

theorem encodeHeadersLoop_frame (endStream : Bool) (fs : List (HTTPFilter σ))
    (c : FilterChain σ) : EncodeFrame c (encodeHeadersLoop endStream fs c).2 := by
  apply encodeHeadersLoop_preserves endStream fs
  · intro f _ e _
    exact ⟨encodePreserves_frame c _ _, encodePreserves_frame c _ _⟩
  · exact EncodeFrame.refl c

theorem encodeDataLoop_frame (endStream : Bool) (fs : List (HTTPFilter σ)) (data : Bytes)
    (c : FilterChain σ) : EncodeFrame c (encodeDataLoop endStream fs data c).2 := by
  apply encodeDataLoop_preserves (Q := EncodeFrame c)
  · intro c' b n hc'
    exact hc'.trans (.update ..)
  · intro f _ e _
    exact ⟨fun _ => encodePreserves_frame c _ _, encodePreserves_frame c _ _⟩
  · exact EncodeFrame.refl c

theorem runEncodeData_frame (fs : List (HTTPFilter σ)) (data : Bytes) (endStream : Bool)
    (c : FilterChain σ) : EncodeFrame c (runEncodeData fs data endStream c).2 := by
  unfold runEncodeData
  split_ifs
  · exact EncodeFrame.refl c
  · exact encodeDataLoop_frame endStream fs.reverse data c

theorem runEncodeHeaders_frame (fs : List (HTTPFilter σ)) (headers : Header) (endStream : Bool)
    (c : FilterChain σ) :
    EncodeFrame { c with encodeStarted := true } (runEncodeHeaders fs headers endStream c).2 := by
  have h0 : EncodeFrame { c with encodeStarted := true }
      { c with encodeStarted := true, world := { c.world with response := headers } } :=
    .update ..
  exact h0.trans (encodeHeadersLoop_frame endStream fs.reverse _)

theorem encodeLocalReply_frame (fs : List (HTTPFilter σ)) (r : LocalReply) (c : FilterChain σ) :
    EncodeFrame { c with localReplyDone := true, encodeStarted := true }
      (encodeLocalReply fs r c) := by
  have h0 : EncodeFrame { c with localReplyDone := true, encodeStarted := true }
      { c with localReplyDone := true, encodeResponseStatus := r.status, encodeStarted := true } :=
    .update ..
  have h1 := h0.trans (runEncodeHeaders_frame fs (localReplyMerged r) (r.body.length == 0)
    { c with localReplyDone := true, encodeResponseStatus := r.status })
  unfold encodeLocalReply
  simp only []
  split_ifs
  · exact h1.trans (runEncodeData_frame fs r.body true _)
  · exact h1

/-- Decode side between two interactions: the encode side has run exactly when a reply is
pending, a reply is pending exactly when one was asked for, and the stored reply is the
first one asked for with the headers the encode chain left. -/
structure ReplyInvariant (c : FilterChain σ) : Prop where
  started : c.encodeStarted = c.localReplyDone
  done : c.localReplyDone = true ↔ c.asked ≠ []
  stored : ∀ r rest, c.asked = r :: rest →
    c.localReplyStatus = r.status ∧ c.localReplyBody = r.body ∧
      ∃ l, c.encoded = some l ∧ l.status = r.status ∧ l.headers = c.localReplyHeaders

theorem ReplyInvariant.initial (w : World σ) : ReplyInvariant ({ world := w } : FilterChain σ) where
  started := rfl
  done := by simp
  stored := by simp

theorem ReplyInvariant.of_frame {c c' : FilterChain σ} (h : ReplyInvariant c)
    (hf : EncodeFrame c c') : ReplyInvariant c' where
  started := by rw [hf.started, hf.done, h.started]
  done := by rw [hf.done, hf.asked, h.done]
  stored := by
    intro r rest hr
    rw [hf.asked] at hr
    obtain ⟨hs, hb, l, hl⟩ := h.stored r rest hr
    refine ⟨hf.status.trans hs, hf.body.trans hb, l, hf.encoded.trans hl.1, hl.2.1, ?_⟩
    rw [hf.headers]
    exact hl.2.2

theorem asked_nil_of_not_done {c : FilterChain σ} (h : ReplyInvariant c)
    (hd : c.localReplyDone = false) : c.asked = [] := by
  by_contra hne
  have := h.done.mpr hne
  simp [hd] at this

theorem askLocalReply_invariant (fs : List (HTTPFilter σ)) (name : String) (r : LocalReply)
    (c : FilterChain σ) (h : ReplyInvariant c) :
    ReplyInvariant (askLocalReply fs name r c) := by
  unfold askLocalReply beginLocalReply
  by_cases hs : c.encodeStarted = true
  · -- a reply is already pending: the call only leaves a log line
    rw [if_pos hs]
    have hd : c.localReplyDone = true := h.started ▸ hs
    obtain ⟨r0, rest, hr0⟩ := List.exists_cons_of_ne_nil (h.done.mp hd)
    refine ⟨h.started, ⟨fun _ => by simp [ignoreLocalReply], fun _ => hd⟩, ?_⟩
    intro r1 rest1 hr1
    simp only [ignoreLocalReply, hr0, List.cons_append, List.cons.injEq] at hr1
    obtain ⟨rfl, -⟩ := hr1
    exact h.stored r0 rest hr0
  · have hd : c.localReplyDone = false := by
      rw [← h.started]
      exact Bool.eq_false_iff.mpr hs
    have ha : c.asked = [] := asked_nil_of_not_done h hd
    rw [if_neg hs, if_neg (by simp [hd])]
    have hf := encodeLocalReply_frame fs r { c with asked := c.asked ++ [r] }
    refine ⟨?_, ?_, ?_⟩
    · simp only [hf.started, hf.done]
    · simp only [hf.done, hf.asked, true_iff]
      simp
    · intro r1 rest1 hr1
      have hask : c.asked ++ [r] = r1 :: rest1 := hf.asked.symm.trans hr1
      rw [ha] at hask
      obtain ⟨rfl, -⟩ := List.cons.inj hask
      exact ⟨rfl, rfl, _, rfl, rfl, rfl⟩

theorem runDecodeProg_invariant (fs : List (HTTPFilter σ)) (name : String) (p : FilterProg σ α)
    (c : FilterChain σ) (h : ReplyInvariant c) :
    ReplyInvariant (runDecodeProg fs name p c).2 := by
  apply FilterProg.run_preserves (P := ReplyInvariant)
  · intro w c' hc
    exact hc.of_frame (.update ..)
  · intro r c' hc
    exact askLocalReply_invariant fs name r c' hc
  · intro b c' hc
    exact hc.of_frame (.update ..)
  · exact h

/-- What a decode step or pass leaves behind: the invariant, or a failure before which
no reply was asked for. -/
def PassSpec (failed : Bool) (c : FilterChain σ) : Prop :=
  if failed then c.asked = [] else ReplyInvariant c

def Iteration.isFailed : Iteration → Bool
  | .failed _ => true
  | _ => false

theorem parkThenAdvance_spec (fs : List (HTTPFilter σ)) (f : HTTPFilter σ)
    (d : StreamDecoderFilter σ) (c : FilterChain σ) (h : ReplyInvariant c)
    (hd : c.localReplyDone = false) :
    PassSpec (((parkThenAdvance fs f d c).1.map Iteration.isFailed).getD false)
      (parkThenAdvance fs f d c).2 := by
  have hp := runDecodeProg_invariant fs f.name d.parked c h
  unfold parkThenAdvance parkDecode
  rcases hr : runDecodeProg fs f.name d.parked c with ⟨w, c'⟩
  rw [hr] at hp
  have hnil : c.asked = [] := asked_nil_of_not_done h hd
  cases w with
  | resumed => exact hp
  | ctxDone => exact hnil

theorem reactDecodeHeaders_spec (fs : List (HTTPFilter σ)) (f : HTTPFilter σ)
    (d : StreamDecoderFilter σ) (st : FilterHeadersStatus) (c : FilterChain σ)
    (h : ReplyInvariant c) (hd : c.localReplyDone = false) :
    PassSpec (((reactDecodeHeaders fs f d st c).1.map Iteration.isFailed).getD false)
      (reactDecodeHeaders fs f d st c).2 := by
  have hnil : c.asked = [] := asked_nil_of_not_done h hd
  cases st with
  | continueIteration => exact h
  | stopIteration => exact parkThenAdvance_spec fs f d c h hd
  | terminateStream => exact hnil
  | unknown code => exact hnil

theorem reactDecodeData_spec (fs : List (HTTPFilter σ)) (data : Bytes) (f : HTTPFilter σ)
    (d : StreamDecoderFilter σ) (st : FilterDataStatus) (c : FilterChain σ)
    (h : ReplyInvariant c) (hd : c.localReplyDone = false) :
    PassSpec (((reactDecodeData fs data f d st c).1.map Iteration.isFailed).getD false)
      (reactDecodeData fs data f d st c).2 := by
  have hnil : c.asked = [] := asked_nil_of_not_done h hd
  cases st with
  | dataContinue => exact h
  | dataStopIterationAndBuffer =>
    simp only [reactDecodeData]
    split_ifs
    · exact askLocalReply_invariant fs f.name localReply413 _
        (h.of_frame (.update ..))
    · exact parkThenAdvance_spec fs f d _
        (h.of_frame (.update ..)) hd
  | dataStopIterationNoBuffer => exact parkThenAdvance_spec fs f d c h hd
  | dataTerminateStream => exact hnil
  | unknown code => exact hnil

theorem decodeLoop_spec {st : Type} (fs : List (HTTPFilter σ))
    (call : StreamDecoderFilter σ → FilterProg σ st)
    (react : HTTPFilter σ → StreamDecoderFilter σ → st → FilterChain σ →
      Option Iteration × FilterChain σ)
    (hreact : ∀ f d s c, ReplyInvariant c → c.localReplyDone = false →
      PassSpec (((react f d s c).1.map Iteration.isFailed).getD false) (react f d s c).2)
    (todo : List (HTTPFilter σ)) (c : FilterChain σ) (h : ReplyInvariant c) :
    PassSpec (decodeLoop fs call react todo c).1.isFailed
      (decodeLoop fs call react todo c).2 := by
  induction todo generalizing c with
  | nil => exact h
  | cons f rest ih =>
    rw [decodeLoop]
    split_ifs with hdone
    · exact h
    · cases hdec : f.decoder with
      | none => exact ih c h
      | some d =>
        simp only []
        rcases hr : runDecodeProg fs f.name (call d) c with ⟨status, c1⟩
        have h1 : ReplyInvariant c1 := by
          simpa only [hr] using runDecodeProg_invariant fs f.name (call d) c h
        simp only []
        split_ifs with hdone1
        · exact h1
        · have h2 := hreact f d status c1 h1 (Bool.eq_false_iff.mpr hdone1)
          rcases hx : react f d status c1 with ⟨it, c2⟩
          rw [hx] at h2
          cases it with
          | none => exact ih c2 h2
          | some it => exact h2

theorem runDecodeHeaders_spec (fs : List (HTTPFilter σ)) (endStream : Bool) (c : FilterChain σ)
    (h : ReplyInvariant c) :
    PassSpec (runDecodeHeaders fs endStream c).1.isFailed (runDecodeHeaders fs endStream c).2 :=
  decodeLoop_spec fs _ _ (fun f d s c => reactDecodeHeaders_spec fs f d s c) fs c h

theorem runDecodeData_spec (fs : List (HTTPFilter σ)) (data : Bytes) (endStream : Bool)
    (c : FilterChain σ) (h : ReplyInvariant c) :
    PassSpec (runDecodeData fs data endStream c).1.isFailed
      (runDecodeData fs data endStream c).2 :=
  decodeLoop_spec fs _ _ (fun f d s c => reactDecodeData_spec fs data f d s c) fs c h

theorem runDecodeData_of_done (fs : List (HTTPFilter σ)) (data : Bytes) (endStream : Bool)
    (c : FilterChain σ) (hd : c.localReplyDone = true) :
    (runDecodeData fs data endStream c).1.isFailed = false ∧
      (runDecodeData fs data endStream c).2 = c := by
  unfold runDecodeData
  cases fs with
  | nil => exact ⟨rfl, rfl⟩
  | cons f rest =>
    rw [decodeLoop, if_pos hd]
    exact ⟨rfl, rfl⟩

end EnvoyGo

import EnvoyGo.LocalReplyInvariant

/-!
Filters that own a part of the chain's state.  A filter written against its own fields is
placed in a chain next to filters written against theirs; the two parts are a product, and
code of one part leaves the other alone.
-/

namespace EnvoyGo

variable {σ ρ τ α : Type}

def World.left (w : World (ρ × τ)) : World ρ := ⟨w.filters.1, w.request, w.response⟩

def World.right (w : World (ρ × τ)) : World τ := ⟨w.filters.2, w.request, w.response⟩

def World.putLeft (w : World (ρ × τ)) (v : World ρ) : World (ρ × τ) :=
  ⟨(v.filters, w.filters.2), v.request, v.response⟩

def World.putRight (w : World (ρ × τ)) (v : World τ) : World (ρ × τ) :=
  ⟨(w.filters.1, v.filters), v.request, v.response⟩

namespace FilterProg

def onLeft : FilterProg ρ α → FilterProg (ρ × τ) α
  | .done a => .done a
  | .touch f k => .touch (fun w => w.putLeft (f w.left)) (fun w => (k w.left).onLeft)
  | .sendLocalReply r k => .sendLocalReply r k.onLeft
  | .overwriteBody b k => .overwriteBody b k.onLeft
  | .bufferEncodedBody k => .bufferEncodedBody (fun b => (k b).onLeft)
  | .responseStatus k => .responseStatus (fun s => (k s).onLeft)

def onRight : FilterProg τ α → FilterProg (ρ × τ) α
  | .done a => .done a
  | .touch f k => .touch (fun w => w.putRight (f w.right)) (fun w => (k w.right).onRight)
  | .sendLocalReply r k => .sendLocalReply r k.onRight
  | .overwriteBody b k => .overwriteBody b k.onRight
  | .bufferEncodedBody k => .bufferEncodedBody (fun b => (k b).onRight)
  | .responseStatus k => .responseStatus (fun s => (k s).onRight)

end FilterProg

def StreamDecoderFilter.transport {σ' : Type}
    (move : ∀ {α : Type}, FilterProg σ α → FilterProg σ' α) (d : StreamDecoderFilter σ) :
    StreamDecoderFilter σ' where
  decodeHeaders endStream := move (d.decodeHeaders endStream)
  decodeData data endStream := move (d.decodeData data endStream)
  parked := move d.parked

def StreamEncoderFilter.transport {σ' : Type}
    (move : ∀ {α : Type}, FilterProg σ α → FilterProg σ' α) (e : StreamEncoderFilter σ) :
    StreamEncoderFilter σ' where
  encodeHeaders endStream := move (e.encodeHeaders endStream)
  encodeData data endStream := move (e.encodeData data endStream)
  parked := move e.parked

def HTTPFilter.transport {σ' : Type} (move : ∀ {α : Type}, FilterProg σ α → FilterProg σ' α)
    (f : HTTPFilter σ) : HTTPFilter σ' where
  name := f.name
  decoder := f.decoder.map (fun d => d.transport move)
  encoder := f.encoder.map (fun e => e.transport move)

def HTTPFilter.onLeft (f : HTTPFilter ρ) : HTTPFilter (ρ × τ) := f.transport FilterProg.onLeft

def HTTPFilter.onRight (f : HTTPFilter τ) : HTTPFilter (ρ × τ) := f.transport FilterProg.onRight

def FilterChain.enter (c : FilterChain (ρ × τ)) (v : World ρ) : FilterChain (ρ × τ) :=
  { c with world := c.world.putLeft v }

section Left
variable (reply : LocalReply → FilterChain (ρ × τ) → FilterChain (ρ × τ))

theorem run_onLeft_touch (f : World ρ → World ρ) (k : World ρ → FilterProg ρ α)
    (c : FilterChain (ρ × τ)) (v : World ρ) :
    (FilterProg.touch f k).onLeft.run reply (c.enter v) =
      (k (f v)).onLeft.run reply (c.enter (f v)) := rfl

end Left

theorem run_onLeft_done (a : α) (c : FilterChain (ρ × τ)) :
    (FilterProg.done a : FilterProg ρ α).onLeft.run reply c = (a, c) := rfl

theorem run_onLeft_sendLocalReply (r : LocalReply) (k : FilterProg ρ α)
    (c : FilterChain (ρ × τ)) :
    (FilterProg.sendLocalReply r k).onLeft.run reply c = k.onLeft.run reply (reply r c) := rfl

theorem run_onRight_preserves {reply : LocalReply → FilterChain (ρ × τ) → FilterChain (ρ × τ)}
    {P : FilterChain (ρ × τ) → Prop}
    (htouch : ∀ w c, w.filters.1 = c.world.filters.1 → P c → P { c with world := w })
    (hreply : ∀ r c, P c → P (reply r c))
    (hover : ∀ b c, P c → P { c with encodeBodyOverride := some b })
    (p : FilterProg τ α) (c : FilterChain (ρ × τ)) (hc : P c) : P (p.onRight.run reply c).2 := by
  induction p generalizing c with
  | done a => exact hc
  | touch f k ih => exact ih _ _ (htouch _ _ rfl hc)
  | sendLocalReply r k ih => exact ih _ (hreply _ _ hc)
  | overwriteBody b k ih => exact ih _ (hover _ _ hc)
  | bufferEncodedBody k ih => exact ih _ _ hc
  | responseStatus k ih => exact ih _ _ hc

def FilterProg.Keeps (P : ρ → Prop) : FilterProg ρ α → Prop
  | .done _ => True
  | .touch f k => ∀ w : World ρ, P w.filters → P (f w).filters ∧ (k (f w)).Keeps P
  | .sendLocalReply _ k => k.Keeps P
  | .overwriteBody _ k => k.Keeps P
  | .bufferEncodedBody k => ∀ b, (k b).Keeps P
  | .responseStatus k => ∀ s, (k s).Keeps P

theorem run_onLeft_keeps {reply : LocalReply → FilterChain (ρ × τ) → FilterChain (ρ × τ)}
    {P : ρ → Prop}
    (hreply : ∀ r c, P c.world.filters.1 → P (reply r c).world.filters.1)
    (p : FilterProg ρ α) (hp : p.Keeps P) (c : FilterChain (ρ × τ))
    (hc : P c.world.filters.1) : P (p.onLeft.run reply c).2.world.filters.1 := by
  induction p generalizing c with
  | done a => exact hc
  | touch f k ih =>
    obtain ⟨hf, hk⟩ := hp c.world.left hc
    exact ih _ hk _ hf
  | sendLocalReply r k ih => exact ih hp _ (hreply _ _ hc)
  | overwriteBody b k ih => exact ih hp _ hc
  | bufferEncodedBody k ih => exact ih _ (hp _) _ hc
  | responseStatus k ih => exact ih _ (hp _) _ hc

section EncodeKeeps
variable (P : σ → Prop)

def EncodeKeeps (name : String) (p : FilterProg σ α) : Prop :=
  ∀ c, P c.world.filters → P (runEncodeProg name p c).2.world.filters

def HeaderEncodersKeep (fs : List (HTTPFilter σ)) : Prop :=
  ∀ f ∈ fs, ∀ e, f.encoder = some e →
    (∀ endStream, EncodeKeeps P f.name (e.encodeHeaders endStream)) ∧ EncodeKeeps P f.name e.parked

structure EncodersKeep (fs : List (HTTPFilter σ)) : Prop where
  headers : HeaderEncodersKeep P fs
  data : ∀ f ∈ fs, ∀ e, f.encoder = some e →
    ∀ data endStream, EncodeKeeps P f.name (e.encodeData data endStream)

variable {P} {fs : List (HTTPFilter σ)}

theorem HeaderEncodersKeep.headersPass (h : HeaderEncodersKeep P fs) (headers : Header)
    (endStream : Bool) (c : FilterChain σ) (hc : P c.world.filters) :
    P (runEncodeHeaders fs headers endStream c).2.world.filters := by
  apply encodeHeadersLoop_preserves (Q := fun c => P c.world.filters) endStream fs.reverse
  · intro f hf e he
    obtain ⟨hheaders, hpark⟩ := h f (List.mem_reverse.mp hf) e he
    exact ⟨hheaders endStream, hpark⟩
  · exact hc

theorem EncodersKeep.dataPass (h : EncodersKeep P fs) (data : Bytes) (endStream : Bool)
    (c : FilterChain σ) (hc : P c.world.filters) :
    P (runEncodeData fs data endStream c).2.world.filters := by
  unfold runEncodeData
  split_ifs
  · exact hc
  · apply encodeDataLoop_preserves (Q := fun c => P c.world.filters)
    · intro c' b n hc'
      exact hc'
    · intro f hf e he
      have hf' := List.mem_reverse.mp hf
      exact ⟨fun data => h.data f hf' e he data endStream, (h.headers f hf' e he).2⟩
    · exact hc

theorem askLocalReply_keeps (name : String) (r : LocalReply) (c : FilterChain σ)
    (hencode : ∀ c', P c'.world.filters → P (encodeLocalReply fs r c').world.filters)
    (hc : P c.world.filters) : P (askLocalReply fs name r c).world.filters := by
  unfold askLocalReply beginLocalReply
  split_ifs
  · exact hc
  · exact hc
  · exact hencode { c with asked := c.asked ++ [r] } hc

theorem EncodersKeep.askLocalReply (h : EncodersKeep P fs) (name : String) (r : LocalReply)
    (c : FilterChain σ) (hc : P c.world.filters) :
    P (askLocalReply fs name r c).world.filters := by
  apply askLocalReply_keeps name r c _ hc
  intro c' hc'
  have h1 := h.headers.headersPass (localReplyMerged r) (r.body.length == 0)
    { c' with localReplyDone := true, encodeResponseStatus := r.status } hc'
  unfold encodeLocalReply
  simp only []
  split_ifs
  · exact h.dataPass r.body true _ h1
  · exact h1

theorem HeaderEncodersKeep.askLocalReply (h : HeaderEncodersKeep P fs) (name : String)
    (r : LocalReply) (hr : r.body = []) (c : FilterChain σ) (hc : P c.world.filters) :
    P (askLocalReply fs name r c).world.filters := by
  apply askLocalReply_keeps name r c _ hc
  intro c' hc'
  unfold encodeLocalReply
  simp only [hr, List.length_nil, gt_iff_lt, lt_self_iff_false, if_false]
  exact h.headersPass (localReplyMerged r) _
    { c' with localReplyDone := true, encodeResponseStatus := r.status } hc'

end EncodeKeeps

theorem askLocalReply_asked (fs : List (HTTPFilter σ)) (name : String) (r : LocalReply)
    (c : FilterChain σ) : (askLocalReply fs name r c).asked = c.asked ++ [r] := by
  unfold askLocalReply beginLocalReply
  split_ifs
  · rfl
  · rfl
  · exact (encodeLocalReply_frame fs r { c with asked := c.asked ++ [r] }).asked

theorem askLocalReply_done (fs : List (HTTPFilter σ)) (name : String) (r : LocalReply)
    (c : FilterChain σ) (h : ReplyInvariant c) :
    (askLocalReply fs name r c).localReplyDone = true := by
  have hinv := askLocalReply_invariant fs name r c h
  apply hinv.done.mpr
  intro hnil
  rw [askLocalReply_asked] at hnil
  simp at hnil

theorem askLocalReply_status (fs : List (HTTPFilter σ)) (name : String) (r : LocalReply)
    (c : FilterChain σ) (h : ReplyInvariant c) (hdone : c.localReplyDone = false) :
    (askLocalReply fs name r c).localReplyStatus = r.status := by
  have hinv := askLocalReply_invariant fs name r c h
  have hasked := askLocalReply_asked fs name r c
  rw [asked_nil_of_not_done h hdone, List.nil_append] at hasked
  exact (hinv.stored r [] hasked).1

section Visit
variable {st : Type} (fs : List (HTTPFilter σ)) (call : StreamDecoderFilter σ → FilterProg σ st)
  (react : HTTPFilter σ → StreamDecoderFilter σ → st → FilterChain σ →
    Option Iteration × FilterChain σ)

/-- One turn of a decode pass: `none` where the pass goes on to the next filter. -/
def decodeVisit (f : HTTPFilter σ) (c : FilterChain σ) : Option Iteration × FilterChain σ :=
  if c.localReplyDone then (some .aborted, c)
  else match f.decoder with
  | none => (none, c)
  | some d =>
    let (status, c1) := runDecodeProg fs f.name (call d) c
    if c1.localReplyDone then (some .aborted, c1) else react f d status c1

def VisitSpec (Q : FilterChain σ → Prop) (R : Iteration → FilterChain σ → Prop) :
    Option Iteration × FilterChain σ → Prop
  | (none, c) => Q c
  | (some it, c) => R it c

theorem decodeVisit_of_done (f : HTTPFilter σ) (c : FilterChain σ)
    (hdone : c.localReplyDone = true) : decodeVisit fs call react f c = (some .aborted, c) :=
  if_pos hdone

theorem decodeVisit_of_run (f : HTTPFilter σ) (d : StreamDecoderFilter σ)
    (hd : f.decoder = some d) (c c1 : FilterChain σ) (hdone : c.localReplyDone = false)
    (status : st) (hrun : runDecodeProg fs f.name (call d) c = (status, c1)) :
    decodeVisit fs call react f c =
      if c1.localReplyDone then (some .aborted, c1) else react f d status c1 := by
  have hc : ¬c.localReplyDone = true := by simp [hdone]
  unfold decodeVisit
  rw [if_neg hc]
  simp only [hd, hrun]

theorem decodeLoop_cons (f : HTTPFilter σ) (rest : List (HTTPFilter σ)) (c : FilterChain σ) :
    decodeLoop fs call react (f :: rest) c =
      match decodeVisit fs call react f c with
      | (none, c2) => decodeLoop fs call react rest c2
      | (some it, c2) => (it, c2) := by
  rw [decodeLoop, decodeVisit]
  by_cases hdone : c.localReplyDone = true
  · rw [if_pos hdone, if_pos hdone]
  · rw [if_neg hdone, if_neg hdone]
    cases f.decoder with
    | none => rfl
    | some d =>
      simp only []
      rcases runDecodeProg fs f.name (call d) c with ⟨status, c1⟩
      simp only []
      split_ifs <;> rfl

theorem decodeLoop_through {Q : FilterChain σ → Prop} {R : Iteration → FilterChain σ → Prop}
    (todo rest : List (HTTPFilter σ))
    (htodo : ∀ f ∈ todo, ∀ c, Q c → VisitSpec Q R (decodeVisit fs call react f c))
    (hrest : ∀ c, Q c → R (decodeLoop fs call react rest c).1 (decodeLoop fs call react rest c).2)
    (c : FilterChain σ) (hc : Q c) :
    R (decodeLoop fs call react (todo ++ rest) c).1
      (decodeLoop fs call react (todo ++ rest) c).2 := by
  induction todo generalizing c with
  | nil => exact hrest c hc
  | cons f todo ih =>
    have hvisit := htodo f List.mem_cons_self c hc
    rw [List.cons_append, decodeLoop_cons]
    rcases hv : decodeVisit fs call react f c with ⟨it, c2⟩
    rw [hv] at hvisit
    cases it with
    | none => exact ih (fun g hg => htodo g (List.mem_cons_of_mem f hg)) c2 hvisit
    | some it => exact hvisit

end Visit

/-- Between two turns: `P` holds of the first part, which is still `s` unless a reply is
pending (the encode side has run then, with the code of both parts). -/
structure Held (P : ρ → Prop) (s : ρ) (c : FilterChain (ρ × τ)) : Prop where
  invariant : ReplyInvariant c
  kept : P c.world.filters.1
  same : c.localReplyDone = true ∨ c.world.filters.1 = s

def LeftOff (P : ρ → Prop) (it : Iteration) (c : FilterChain (ρ × τ)) : Prop :=
  P c.world.filters.1 ∧ (it.isFailed = false → ReplyInvariant c ∧ c.localReplyDone = true)

theorem enter_invariant {c : FilterChain (ρ × τ)} (h : ReplyInvariant c) (v : World ρ) :
    ReplyInvariant (c.enter v) := h.of_frame (.update ..)

theorem held_enter {P : ρ → Prop} {c : FilterChain (ρ × τ)} (h : ReplyInvariant c) (v : World ρ)
    (hv : P v.filters) : Held P v.filters (c.enter v) :=
  ⟨enter_invariant h v, hv, Or.inr rfl⟩

section Outsider
variable {P : ρ → Prop} {s : ρ} {fs : List (HTTPFilter (ρ × τ))}
  (hfs : EncodersKeep (fun x : ρ × τ => P x.1) fs)
include hfs

theorem askLocalReply_held (name : String) (r : LocalReply) (c : FilterChain (ρ × τ))
    (hc : Held P s c) : Held P s (askLocalReply fs name r c) where
  invariant := askLocalReply_invariant fs name r c hc.invariant
  kept := hfs.askLocalReply name r c hc.kept
  same := Or.inl (askLocalReply_done fs name r c hc.invariant)

theorem runDecodeProg_onRight_held (name : String) (p : FilterProg τ α)
    (c : FilterChain (ρ × τ)) (hc : Held P s c) :
    Held P s (runDecodeProg fs name p.onRight c).2 := by
  apply run_onRight_preserves (P := Held P s)
  · intro w c' hw h
    refine ⟨h.invariant.of_frame (.update ..), ?_, ?_⟩
    · exact hw ▸ h.kept
    · exact h.same.imp id (fun hs => hw.trans hs)
  · intro r c' h
    exact askLocalReply_held hfs name r c' h
  · intro b c' h
    exact ⟨h.invariant.of_frame (.update ..), h.kept, h.same⟩
  · exact hc

theorem parkThenAdvance_onRight (f : HTTPFilter (ρ × τ)) (d : StreamDecoderFilter τ)
    (c : FilterChain (ρ × τ)) (hc : Held P s c) :
    VisitSpec (Held P s) (LeftOff P)
      (parkThenAdvance fs f (d.transport FilterProg.onRight) c) := by
  have hp := runDecodeProg_onRight_held hfs f.name d.parked c hc
  unfold parkThenAdvance parkDecode
  simp only [StreamDecoderFilter.transport]
  rcases hr : runDecodeProg fs f.name d.parked.onRight c with ⟨w, c'⟩
  rw [hr] at hp
  cases w with
  | resumed => exact hp
  | ctxDone => exact ⟨hp.kept, fun hfailed => absurd hfailed (by decide)⟩

theorem reactDecodeHeaders_onRight (f : HTTPFilter (ρ × τ)) (d : StreamDecoderFilter τ)
    (status : FilterHeadersStatus) (c : FilterChain (ρ × τ)) (hc : Held P s c) :
    VisitSpec (Held P s) (LeftOff P)
      (reactDecodeHeaders fs f (d.transport FilterProg.onRight) status c) := by
  cases status with
  | continueIteration => exact hc
  | stopIteration => exact parkThenAdvance_onRight hfs f d c hc
  | terminateStream => exact ⟨hc.kept, fun hfailed => absurd hfailed (by decide)⟩
  | unknown code => exact ⟨hc.kept, fun hfailed => absurd hfailed Bool.noConfusion⟩

theorem reactDecodeData_onRight (data : Bytes) (f : HTTPFilter (ρ × τ))
    (d : StreamDecoderFilter τ) (status : FilterDataStatus) (c : FilterChain (ρ × τ))
    (hc : Held P s c) :
    VisitSpec (Held P s) (LeftOff P)
      (reactDecodeData fs data f (d.transport FilterProg.onRight) status c) := by
  cases status with
  | dataContinue => exact hc
  | dataStopIterationAndBuffer =>
    simp only [reactDecodeData]
    split_ifs
    · have hover : Held P s { c with decodeBufOver := true } :=
        ⟨hc.invariant.of_frame (.update ..), hc.kept, hc.same⟩
      have hask := askLocalReply_held hfs f.name localReply413 _ hover
      refine ⟨hask.kept, fun _ => ⟨hask.invariant, ?_⟩⟩
      exact askLocalReply_done fs f.name localReply413 _ hover.invariant
    · exact parkThenAdvance_onRight hfs f d _
        ⟨hc.invariant.of_frame (.update ..), hc.kept, hc.same⟩
  | dataStopIterationNoBuffer => exact parkThenAdvance_onRight hfs f d c hc
  | dataTerminateStream => exact ⟨hc.kept, fun hfailed => absurd hfailed (by decide)⟩
  | unknown code => exact ⟨hc.kept, fun hfailed => absurd hfailed Bool.noConfusion⟩

theorem decodeVisit_onRight {st : Type} (call : StreamDecoderFilter (ρ × τ) → FilterProg (ρ × τ) st)
    (react : HTTPFilter (ρ × τ) → StreamDecoderFilter (ρ × τ) → st → FilterChain (ρ × τ) →
      Option Iteration × FilterChain (ρ × τ))
    (hcall : ∀ d : StreamDecoderFilter τ, ∃ p : FilterProg τ st,
      call (d.transport FilterProg.onRight) = p.onRight)
    (hreact : ∀ f (d : StreamDecoderFilter τ) status c, Held P s c →
      VisitSpec (Held P s) (LeftOff P) (react f (d.transport FilterProg.onRight) status c))
    (f : HTTPFilter τ) (c : FilterChain (ρ × τ)) (hc : Held P s c) :
    VisitSpec (Held P s) (LeftOff P) (decodeVisit fs call react f.onRight c) := by
  unfold decodeVisit
  split_ifs with hdone
  · exact ⟨hc.kept, fun _ => ⟨hc.invariant, hdone⟩⟩
  · cases hd : f.decoder with
    | none =>
      simp only [HTTPFilter.onRight, HTTPFilter.transport, hd, Option.map_none]
      exact hc
    | some d =>
      obtain ⟨p, hp⟩ := hcall d
      simp only [HTTPFilter.onRight, HTTPFilter.transport, hd, Option.map_some, hp]
      have h1 := runDecodeProg_onRight_held hfs f.name p c hc
      rcases hr : runDecodeProg fs f.name p.onRight c with ⟨status, c1⟩
      rw [hr] at h1
      simp only []
      split_ifs with hdone1
      · exact ⟨h1.kept, fun _ => ⟨h1.invariant, hdone1⟩⟩
      · exact hreact _ d status c1 h1

theorem decodeVisit_onRight_headers (endStream : Bool) (f : HTTPFilter τ)
    (c : FilterChain (ρ × τ)) (hc : Held P s c) :
    VisitSpec (Held P s) (LeftOff P)
      (decodeVisit fs (fun d => d.decodeHeaders endStream) (reactDecodeHeaders fs) f.onRight c) :=
  decodeVisit_onRight hfs _ _ (fun d => ⟨d.decodeHeaders endStream, rfl⟩)
    (fun f d status c hc => reactDecodeHeaders_onRight hfs f d status c hc) f c hc

theorem decodeVisit_onRight_data (data : Bytes) (endStream : Bool) (f : HTTPFilter τ)
    (c : FilterChain (ρ × τ)) (hc : Held P s c) :
    VisitSpec (Held P s) (LeftOff P)
      (decodeVisit fs (fun d => d.decodeData data endStream) (reactDecodeData fs data)
        f.onRight c) :=
  decodeVisit_onRight hfs _ _ (fun d => ⟨d.decodeData data endStream, rfl⟩)
    (fun f d status c hc => reactDecodeData_onRight hfs data f d status c hc) f c hc

end Outsider

theorem encodeKeeps_onRight (P : ρ → Prop) (name : String) (p : FilterProg τ α) :
    EncodeKeeps (fun x : ρ × τ => P x.1) name p.onRight := by
  intro c hc
  apply run_onRight_preserves (P := fun c : FilterChain (ρ × τ) => P c.world.filters.1)
  · intro w c' hw h
    exact hw ▸ h
  · intro r c' h
    exact h
  · intro b c' h
    exact h
  · exact hc

theorem encodeKeeps_onLeft {P : ρ → Prop} (name : String) (p : FilterProg ρ α) (hp : p.Keeps P) :
    EncodeKeeps (fun x : ρ × τ => P x.1) name (p.onLeft : FilterProg (ρ × τ) α) := by
  intro c hc
  have hreply : ∀ (_ : LocalReply) (c' : FilterChain (ρ × τ)), P c'.world.filters.1 →
      P (ignoreLocalReply name c').world.filters.1 := fun _ _ h => h
  exact run_onLeft_keeps hreply p hp c hc

end EnvoyGo

import EnvoyGo.Compressor

/-!
Whether the encoding a response announces is the encoding of its body, in a chain where the
compressor is the one filter that replaces bodies.
-/

namespace EnvoyGo

variable {σ ρ τ α req : Type}

/-- The program never replaces the body. -/
def FilterProg.KeepsBody : FilterProg σ α → Prop
  | .done _ => True
  | .touch _ k => ∀ w, (k w).KeepsBody
  | .sendLocalReply _ k => k.KeepsBody
  | .overwriteBody _ _ => False
  | .bufferEncodedBody k => ∀ b, (k b).KeepsBody
  | .responseStatus k => ∀ s, (k s).KeepsBody

/-- No callback of the filter replaces the body. -/
structure HTTPFilter.KeepsBody (f : HTTPFilter σ) : Prop where
  decodeHeaders : ∀ d, f.decoder = some d → ∀ endStream, (d.decodeHeaders endStream).KeepsBody
  decodeData : ∀ d, f.decoder = some d → ∀ data endStream, (d.decodeData data endStream).KeepsBody
  decodeParked : ∀ d, f.decoder = some d → d.parked.KeepsBody
  encodeHeaders : ∀ e, f.encoder = some e → ∀ endStream, (e.encodeHeaders endStream).KeepsBody
  encodeData : ∀ e, f.encoder = some e → ∀ data endStream, (e.encodeData data endStream).KeepsBody
  encodeParked : ∀ e, f.encoder = some e → e.parked.KeepsBody

structure Untouched (c c' : FilterChain (ρ × τ)) : Prop where
  slot : c'.encodeBodyOverride = c.encodeBodyOverride
  left : c'.world.filters.1 = c.world.filters.1

theorem Untouched.refl (c : FilterChain (ρ × τ)) : Untouched c c := ⟨rfl, rfl⟩

theorem Untouched.trans {a b c : FilterChain (ρ × τ)} (hab : Untouched a b)
    (hbc : Untouched b c) : Untouched a c :=
  ⟨hbc.slot.trans hab.slot, hbc.left.trans hab.left⟩

theorem runEncodeProg_untouched (name : String) (p : FilterProg τ α) (hp : p.KeepsBody)
    (c : FilterChain (ρ × τ)) : Untouched c (runEncodeProg name p.onRight c).2 := by
  induction p generalizing c with
  | done a => exact Untouched.refl c
  | touch f k ih =>
    have hstep : Untouched c { c with world := c.world.putRight (f c.world.right) } := ⟨rfl, rfl⟩
    exact hstep.trans (ih _ (hp _) _)
  | sendLocalReply r k ih =>
    have hstep : Untouched c (ignoreLocalReply name c) := ⟨rfl, rfl⟩
    exact hstep.trans (ih hp _)
  | overwriteBody b k ih => exact absurd hp id
  | bufferEncodedBody k ih => exact ih _ (hp _) c
  | responseStatus k ih => exact ih _ (hp _) c

theorem encodePreserves_untouched (c : FilterChain (ρ × τ)) (name : String) (p : FilterProg τ α)
    (hp : p.KeepsBody) : EncodePreserves (Untouched c) name p.onRight := by
  intro c' hc'
  exact hc'.trans (runEncodeProg_untouched name p hp c')

theorem onRight_encoder {f : HTTPFilter τ} {e : StreamEncoderFilter (ρ × τ)}
    (he : (f.onRight : HTTPFilter (ρ × τ)).encoder = some e) :
    ∃ e', f.encoder = some e' ∧ e = e'.transport FilterProg.onRight := by
  obtain ⟨e', he', hmap⟩ := Option.map_eq_some_iff.mp he
  exact ⟨e', he', hmap.symm⟩

theorem encodeHeadersLoop_append (endStream : Bool) (xs ys : List (HTTPFilter σ))
    (c : FilterChain σ) :
    encodeHeadersLoop endStream (xs ++ ys) c =
      match encodeHeadersLoop endStream xs c with
      | (.failed err, c') => (.failed err, c')
      | (_, c') => encodeHeadersLoop endStream ys c' := by
  induction xs generalizing c with
  | nil => rfl
  | cons f xs ih =>
    rw [List.cons_append, encodeHeadersLoop, encodeHeadersLoop]
    cases f.encoder with
    | none => exact ih c
    | some e =>
      simp only []
      rcases runEncodeProg f.name (e.encodeHeaders endStream) c with ⟨status, c1⟩
      simp only []
      rcases reactEncodeHeaders f e status c1 with ⟨err, c2⟩
      cases err with
      | none => exact ih c2
      | some err => rfl

section Others
variable {fs : List (HTTPFilter τ)} (hfs : ∀ f ∈ fs, f.KeepsBody)
include hfs

theorem encodeHeadersLoop_untouched (endStream : Bool) (c : FilterChain (ρ × τ)) :
    Untouched c (encodeHeadersLoop endStream (fs.map HTTPFilter.onRight) c).2 := by
  apply encodeHeadersLoop_preserves endStream
  · intro f hf e he
    obtain ⟨g, hg, rfl⟩ := List.mem_map.mp hf
    obtain ⟨e', he', rfl⟩ := onRight_encoder he
    exact ⟨encodePreserves_untouched c _ _ ((hfs g hg).encodeHeaders e' he' endStream),
      encodePreserves_untouched c _ _ ((hfs g hg).encodeParked e' he')⟩
  · exact Untouched.refl c

theorem encodeDataLoop_untouched (endStream : Bool) (data : Bytes) (c : FilterChain (ρ × τ)) :
    Untouched c (encodeDataLoop endStream (fs.map HTTPFilter.onRight) data c).2 := by
  apply encodeDataLoop_preserves (Q := Untouched c)
  · intro c' b n hc'
    exact hc'.trans ⟨rfl, rfl⟩
  · intro f hf e he
    obtain ⟨g, hg, rfl⟩ := List.mem_map.mp hf
    obtain ⟨e', he', rfl⟩ := onRight_encoder he
    exact ⟨fun data => encodePreserves_untouched c _ _
        ((hfs g hg).encodeData e' he' data endStream),
      encodePreserves_untouched c _ _ ((hfs g hg).encodeParked e' he')⟩
  · exact Untouched.refl c

theorem encodeDataLoop_through (endStream : Bool) (rest : List (HTTPFilter (ρ × τ)))
    (data : Bytes) (c : FilterChain (ρ × τ)) (hbuf : endStream = true → c.encodeBuf = []) :
    (∃ err c', encodeDataLoop endStream (fs.map HTTPFilter.onRight ++ rest) data c =
        (.failed err, c') ∧ Untouched c c') ∨
      ∃ c', Untouched c c' ∧ (endStream = true → c'.encodeBuf = []) ∧
        encodeDataLoop endStream (fs.map HTTPFilter.onRight ++ rest) data c =
          encodeDataLoop endStream rest data c' := by
  induction fs generalizing c with
  | nil => exact Or.inr ⟨c, Untouched.refl c, hbuf, rfl⟩
  | cons f fs ih =>
    have hrest := ih (fun g hg => hfs g (List.mem_cons_of_mem f hg))
    have hf := hfs f List.mem_cons_self
    rw [List.map_cons, List.cons_append, encodeDataLoop]
    cases he : (f.onRight : HTTPFilter (ρ × τ)).encoder with
    | none => exact hrest c hbuf
    | some e =>
      obtain ⟨e', he', rfl⟩ := onRight_encoder he
      simp only []
      have hu1 : Untouched c (runEncodeProg (f.onRight : HTTPFilter (ρ × τ)).name
          ((e'.transport FilterProg.onRight).encodeData data endStream) c).2 :=
        runEncodeProg_untouched _ _ (hf.encodeData e' he' data endStream) c
      have hkept := runEncodeProg_encodeBuf (f.onRight : HTTPFilter (ρ × τ)).name
        ((e'.transport FilterProg.onRight).encodeData data endStream) c
      rcases hr : runEncodeProg (f.onRight : HTTPFilter (ρ × τ)).name
        ((e'.transport FilterProg.onRight).encodeData data endStream) c with ⟨st, c1⟩
      rw [hr] at hkept hu1
      have hbuf1 : endStream = true → c1.encodeBuf = [] := fun h => hkept.trans (hbuf h)
      have hu2 : Untouched c (reactEncodeData (f.onRight : HTTPFilter (ρ × τ))
          (e'.transport FilterProg.onRight) data endStream st c1).2.2 := by
        apply reactEncodeData_preserves (Q := Untouched c)
        · intro c' b n hc'
          exact hc'.trans ⟨rfl, rfl⟩
        · exact encodePreserves_untouched c _ _ (hf.encodeParked e' he')
        · exact hu1
      simp only []
      rcases hx : reactEncodeData (f.onRight : HTTPFilter (ρ × τ))
        (e'.transport FilterProg.onRight) data endStream st c1 with ⟨err, data', c2⟩
      rw [hx] at hu2
      cases err with
      | some err => exact Or.inl ⟨err, c2, rfl, hu2⟩
      | none =>
        obtain ⟨hdata, hbuf2⟩ :=
          reactEncodeData_data _ _ data endStream st c1 c2 data' hbuf1 hx
        rw [hdata]
        rcases hrest c2 hbuf2 with ⟨err, c', hfail, hu⟩ | ⟨c', hu, hb, hgo⟩
        · exact Or.inl ⟨err, c', hfail, hu2.trans hu⟩
        · exact Or.inr ⟨c', hu2.trans hu, hb, hgo⟩

end Others

theorem encodeResponse_served (fs : List (HTTPFilter σ)) (hasRespTrailers : Bool)
    (resp resp' : ActionResponse) (c : FilterChain σ) (hbody : resp.body ≠ [])
    (h : (encodeResponse fs hasRespTrailers resp c).1 = .ok resp') :
    let left := (encodeHeadersLoop false fs.reverse (responseStart resp c)).2
    (∀ err, (runEncodeData fs resp.body (!hasRespTrailers) left).1 ≠ .failed err) ∧
      (encodeResponse fs hasRespTrailers resp c).2 =
        (runEncodeData fs resp.body (!hasRespTrailers) left).2 ∧
      resp'.body = (runEncodeData fs resp.body (!hasRespTrailers) left).2.encodeBodyOverride.getD
        resp.body := by
  have hlen : resp.body.length > 0 := List.length_pos_of_ne_nil hbody
  have hzero : (resp.body.length == 0) = false := by
    rw [beq_eq_false_iff_ne]
    omega
  have hstart : runEncodeHeaders fs (OrderedHeaders.toHTTPHeader resp.headers) false
      { c with encodeResponseStatus := resp.status } =
        encodeHeadersLoop false fs.reverse (responseStart resp c) := rfl
  unfold encodeResponse at h ⊢
  rw [hzero, Bool.false_and, hstart] at h ⊢
  revert h
  rcases encodeHeadersLoop false fs.reverse (responseStart resp c) with ⟨it, c1⟩
  have hgo : ∀ headers : OrderedHeaders,
      (match runEncodeData fs resp.body (!hasRespTrailers) c1 with
      | (.failed err, c2) => ((.error err, c2) : Except ChainError ActionResponse × FilterChain σ)
      | (_, c2) => (.ok { resp with
          headers := headers, body := c2.encodeBodyOverride.getD resp.body }, c2)).1 = .ok resp' →
      (∀ err, (runEncodeData fs resp.body (!hasRespTrailers) c1).1 ≠ .failed err) ∧
        (match runEncodeData fs resp.body (!hasRespTrailers) c1 with
        | (.failed err, c2) => ((.error err, c2) : Except ChainError ActionResponse × FilterChain σ)
        | (_, c2) => (.ok { resp with
            headers := headers, body := c2.encodeBodyOverride.getD resp.body }, c2)).2 =
          (runEncodeData fs resp.body (!hasRespTrailers) c1).2 ∧
        resp'.body = (runEncodeData fs resp.body (!hasRespTrailers) c1).2.encodeBodyOverride.getD
          resp.body := by
    intro headers
    rcases runEncodeData fs resp.body (!hasRespTrailers) c1 with ⟨it2, c2⟩
    intro hd
    cases it2 with
    | failed err => cases hd
    | terminated =>
      cases hd
      exact ⟨(fun _ he => by cases he), rfl, rfl⟩
    | aborted =>
      cases hd
      exact ⟨(fun _ he => by cases he), rfl, rfl⟩
  intro h
  cases it with
  | failed err => cases h
  | terminated =>
    simp only [if_pos hlen] at h ⊢
    exact hgo _ h
  | aborted =>
    simp only [if_pos hlen] at h ⊢
    exact hgo _ h

namespace Compressor

/-- The compressor between two parts of a chain. -/
def compressorChain (gz : GzipLibrary) (parseFloat : FloatParser) (cc : CompiledConfig)
    (routeConfig : Option PerRoute) (before after : List (HTTPFilter τ)) :
    List (HTTPFilter (State × τ)) :=
  before.map HTTPFilter.onRight ++
    (compressorFilter gz parseFloat cc routeConfig).onLeft :: after.map HTTPFilter.onRight

def Commits (cc : CompiledConfig) (w : World State) : Prop :=
  w.filters.passthrough = false ∧
    computeSkipReason w.response (effectiveConfig cc w.filters)
      w.filters.acceptHeaderClassification w.filters.acceptedEncoding = none

instance (cc : CompiledConfig) (w : World State) : Decidable (Commits cc w) :=
  inferInstanceAs (Decidable (_ ∧ _))

theorem onEncodeHeaders_filters (cc : CompiledConfig) (w : World State) :
    (onEncodeHeaders cc w).filters =
      { w.filters with willCompress := w.filters.willCompress || decide (Commits cc w) } := by
  obtain ⟨⟨ae, cls, perRoute, pass, will⟩, request, response⟩ := w
  unfold onEncodeHeaders Commits
  cases pass with
  | true => simp
  | false =>
    simp only [Bool.false_eq_true, if_false, true_and]
    cases computeSkipReason response (effectiveConfig cc ⟨ae, cls, perRoute, false, will⟩) cls
        ae with
    | none => simp
    | some reason => cases hside : reason.acceptSide <;> simp [hside]

theorem effectiveConfig_min (cc : CompiledConfig) (st : State) :
    (effectiveConfig cc st).minContentLength = cc.minContentLength := by
  unfold effectiveConfig
  cases st.perRoute.bind CompiledPerRoute.removeAcceptEncodingHeaderOverride <;> rfl

def headersTurn (noBody : Bool) (after : List (HTTPFilter τ)) (c : FilterChain (State × τ)) :
    Option (FilterChain (State × τ)) :=
  match encodeHeadersLoop noBody (after.reverse.map HTTPFilter.onRight) c with
  | (.failed _, _) => none
  | (_, c1) => some c1

/-- The compressor gets to see the headers and takes the compress path. -/
def Announces (cc : CompiledConfig) (noBody : Bool) (after : List (HTTPFilter τ))
    (c : FilterChain (State × τ)) : Prop :=
  ∃ c1, headersTurn noBody after c = some c1 ∧ Commits cc c1.world.left

def Delivers (cc : CompiledConfig) (st : State) (data : Bytes) (endStream : Bool) : Prop :=
  st.passthrough = false ∧ st.willCompress = true ∧ endStream = true ∧
    cc.minContentLength ≤ data.length

instance (cc : CompiledConfig) (st : State) (data : Bytes) (endStream : Bool) :
    Decidable (Delivers cc st data endStream) :=
  inferInstanceAs (Decidable (_ ∧ _ ∧ _ ∧ _))

section Turns
variable (gz : GzipLibrary) (parseFloat : FloatParser) (cc : CompiledConfig)
  (routeConfig : Option PerRoute)

theorem compressorChain_reverse (before after : List (HTTPFilter τ)) :
    (compressorChain gz parseFloat cc routeConfig before after).reverse =
      after.reverse.map HTTPFilter.onRight ++
        (compressorFilter gz parseFloat cc routeConfig).onLeft ::
          before.reverse.map HTTPFilter.onRight := by
  simp only [compressorChain, List.reverse_append, List.reverse_cons, List.append_assoc,
    List.singleton_append, List.map_reverse]

theorem encodeHeadersLoop_compressor (noBody : Bool) (rest : List (HTTPFilter (State × τ)))
    (c : FilterChain (State × τ)) :
    encodeHeadersLoop noBody
        ((compressorFilter gz parseFloat cc routeConfig).onLeft :: rest) c =
      encodeHeadersLoop noBody rest (c.enter (onEncodeHeaders cc c.world.left)) := rfl

theorem runEncodeProg_encodeData (name : String) (data : Bytes) (endStream : Bool)
    (c : FilterChain (State × τ)) :
    runEncodeProg name (encodeData gz cc data endStream).onLeft c =
      (.dataContinue, if Delivers cc c.world.filters.1 data endStream then
        { c with encodeBodyOverride := some (gz.compress cc.level data) } else c) := by
  have hrun : runEncodeProg name (encodeData gz cc data endStream).onLeft c =
      runEncodeProg name (if c.world.filters.1.passthrough || !c.world.filters.1.willCompress then
        .done .dataContinue
      else if !endStream then .done .dataContinue
      else if belowMinContentLength data.length
        (effectiveConfig cc c.world.filters.1).minContentLength then .done .dataContinue
      else .overwriteBody (gz.compress cc.level data) (.done .dataContinue) :
        FilterProg State FilterDataStatus).onLeft c := rfl
  rw [hrun, effectiveConfig_min]
  unfold Delivers belowMinContentLength
  by_cases hpass : c.world.filters.1.passthrough = true
  · simp only [hpass, Bool.true_or, if_true, Bool.true_eq_false, false_and, if_false]
    rfl
  · by_cases hwill : c.world.filters.1.willCompress = true
    · cases endStream with
      | false =>
        simp only [hpass, hwill, Bool.not_true, Bool.or_false, Bool.not_false, if_true,
          Bool.false_eq_true, if_false, false_and, and_false]
        rfl
      | true =>
        by_cases hlen : data.length < cc.minContentLength
        · simp only [hpass, hwill, hlen, not_le.mpr hlen, Bool.not_true, Bool.or_false,
            Bool.false_eq_true, if_false, decide_true, if_true, and_false]
          rfl
        · simp only [hpass, hwill, hlen, not_lt.mp hlen, Bool.not_true, Bool.or_false,
            Bool.false_eq_true, if_false, decide_false, if_true, and_true]
          rfl
    · simp only [hpass, hwill, Bool.not_false, Bool.or_true, if_true, Bool.false_eq_true,
        if_false, false_and, and_false]
      rfl

theorem encodeDataLoop_compressor (endStream : Bool) (rest : List (HTTPFilter (State × τ)))
    (data : Bytes) (c : FilterChain (State × τ)) :
    encodeDataLoop endStream
        ((compressorFilter gz parseFloat cc routeConfig).onLeft :: rest) data c =
      encodeDataLoop endStream rest data
        (if Delivers cc c.world.filters.1 data endStream then
          { c with encodeBodyOverride := some (gz.compress cc.level data) } else c) := by
  have hrun : runEncodeProg
      ((compressorFilter gz parseFloat cc routeConfig).onLeft : HTTPFilter (State × τ)).name
      ((StreamEncoderFilter.transport FilterProg.onLeft
        { encodeHeaders := fun _ => encodeHeaders cc
          encodeData := encodeData gz cc
          parked := .done .ctxDone } : StreamEncoderFilter (State × τ)).encodeData data
            endStream) c = _ := runEncodeProg_encodeData gz cc _ data endStream c
  have henc : ((compressorFilter gz parseFloat cc routeConfig).onLeft :
      HTTPFilter (State × τ)).encoder = some (StreamEncoderFilter.transport FilterProg.onLeft
        { encodeHeaders := fun _ => encodeHeaders cc
          encodeData := encodeData gz cc
          parked := .done .ctxDone }) := rfl
  rw [encodeDataLoop, henc]
  simp only [hrun, reactEncodeData]

variable {before after : List (HTTPFilter τ)} (hbefore : ∀ f ∈ before, f.KeepsBody)
  (hafter : ∀ f ∈ after, f.KeepsBody)

include hafter hbefore

theorem headersPass_compressor (noBody : Bool) (c : FilterChain (State × τ))
    (hfresh : c.world.filters.1.willCompress = false) :
    let left := (encodeHeadersLoop noBody
      (compressorChain gz parseFloat cc routeConfig before after).reverse c).2
    left.encodeBodyOverride = c.encodeBodyOverride ∧
      (left.world.filters.1.willCompress = true ↔ Announces cc noBody after c) ∧
      (left.world.filters.1.willCompress = true → left.world.filters.1.passthrough = false) := by
  have hbefore' : ∀ f ∈ before.reverse, f.KeepsBody :=
    fun f hf => hbefore f (List.mem_reverse.mp hf)
  have hafter' : ∀ f ∈ after.reverse, f.KeepsBody :=
    fun f hf => hafter f (List.mem_reverse.mp hf)
  have hturn := encodeHeadersLoop_untouched hafter' noBody c
  rw [compressorChain_reverse, encodeHeadersLoop_append]
  unfold Announces headersTurn
  rcases hr : encodeHeadersLoop noBody (after.reverse.map HTTPFilter.onRight) c with ⟨it, c1⟩
  rw [hr] at hturn
  have hnot : c1.world.filters.1.willCompress = false := by
    rw [hturn.left]
    exact hfresh
  have hgo : ∀ left : FilterChain (State × τ),
      Untouched (c1.enter (onEncodeHeaders cc c1.world.left)) left →
      left.encodeBodyOverride = c.encodeBodyOverride ∧
        (left.world.filters.1.willCompress = true ↔
          ∃ c', some c1 = some c' ∧ Commits cc c'.world.left) ∧
        (left.world.filters.1.willCompress = true →
          left.world.filters.1.passthrough = false) := by
    intro left hleft
    have hflag : left.world.filters.1 = { c1.world.filters.1 with
        willCompress := c1.world.filters.1.willCompress || decide (Commits cc c1.world.left) } := by
      rw [hleft.left]
      exact onEncodeHeaders_filters cc c1.world.left
    refine ⟨hleft.slot.trans hturn.slot, ?_, ?_⟩
    · rw [hflag]
      simp only [hnot, Bool.false_or, decide_eq_true_eq, Option.some.injEq, exists_eq_left']
    · rw [hflag]
      simp only [hnot, Bool.false_or, decide_eq_true_eq]
      exact fun hcommits => hcommits.1
  cases it with
  | failed err =>
    refine ⟨hturn.slot, ?_, ?_⟩
    · simp only [hnot, Bool.false_eq_true, false_and, exists_false, reduceCtorEq]
    · intro hwill
      exact absurd (hnot.symm.trans hwill) (by simp)
  | terminated =>
    simp only [encodeHeadersLoop_compressor]
    exact hgo _ (encodeHeadersLoop_untouched hbefore' noBody _)
  | aborted =>
    simp only [encodeHeadersLoop_compressor]
    exact hgo _ (encodeHeadersLoop_untouched hbefore' noBody _)

theorem dataPass_compressor (data : Bytes) (endStream : Bool) (c : FilterChain (State × τ))
    (hbuf : c.encodeBuf = []) :
    let pass := runEncodeData (compressorChain gz parseFloat cc routeConfig before after) data
      endStream c
    pass.2.world.filters.1 = c.world.filters.1 ∧
      ((∀ err, pass.1 ≠ .failed err) → pass.2.encodeBodyOverride =
        if Delivers cc c.world.filters.1 data endStream then some (gz.compress cc.level data)
        else c.encodeBodyOverride) := by
  have hbefore' : ∀ f ∈ before.reverse, f.KeepsBody :=
    fun f hf => hbefore f (List.mem_reverse.mp hf)
  have hafter' : ∀ f ∈ after.reverse, f.KeepsBody :=
    fun f hf => hafter f (List.mem_reverse.mp hf)
  unfold runEncodeData
  simp only []
  by_cases hover : c.encodeBufLen + data.length > filterBufferLimitBytes
  · rw [if_pos hover]
    exact ⟨rfl, fun h => absurd rfl (h _)⟩
  · rw [if_neg hover, compressorChain_reverse]
    rcases encodeDataLoop_through hafter' endStream
      ((compressorFilter gz parseFloat cc routeConfig).onLeft ::
        before.reverse.map HTTPFilter.onRight) data c (fun _ => hbuf) with
      ⟨err, c', hfail, hu⟩ | ⟨c', hu, -, hloop⟩
    · rw [hfail]
      exact ⟨hu.left, fun h => absurd rfl (h err)⟩
    · rw [hloop, encodeDataLoop_compressor, hu.left]
      by_cases hdeliver : Delivers cc c.world.filters.1 data endStream
      · rw [if_pos hdeliver, if_pos hdeliver]
        have hrest := encodeDataLoop_untouched hbefore' endStream data
          { c' with encodeBodyOverride := some (gz.compress cc.level data) }
        exact ⟨hrest.left.trans hu.left, fun _ => hrest.slot⟩
      · rw [if_neg hdeliver, if_neg hdeliver]
        have hrest := encodeDataLoop_untouched hbefore' endStream data c'
        exact ⟨hrest.left.trans hu.left, fun _ => hrest.slot.trans hu.slot⟩

end Turns

/-- A chain no response has gone through. -/
structure Unused (c : FilterChain (State × τ)) : Prop extends EncodeIdle c where
  slot : c.encodeBodyOverride = none
  fresh : c.world.filters.1.willCompress = false

section Chain
variable (gz : GzipLibrary) (parseFloat : FloatParser) (cc : CompiledConfig)
  (routeConfig : Option PerRoute) {before after : List (HTTPFilter τ)}
  (hbefore : ∀ f ∈ before, f.KeepsBody) (hafter : ∀ f ∈ after, f.KeepsBody)

include hafter hbefore

end Chain

/-- What is written is an encoding of `body` if the compressor announced one, else `body`. -/
def Truthful (gz : GzipLibrary) (body : Bytes) (o : Outcome (State × τ) req) : Prop :=
  ∀ w ∈ o.written,
    if o.chain.world.filters.1.willCompress then gz.Encodes w.body body else w.body = body

section Served
variable (gz : GzipLibrary) (parseFloat : FloatParser) (cc : CompiledConfig)
  (routeConfig : Option PerRoute) {before after : List (HTTPFilter τ)}
  (hbefore : ∀ f ∈ before, f.KeepsBody) (hafter : ∀ f ∈ after, f.KeepsBody)

include hafter hbefore

theorem served_truthful_iff (hasRespTrailers : Bool) (resp resp' : ActionResponse)
    (c : FilterChain (State × τ)) (hc : Unused c) (hbody : resp.body ≠ [])
    (hserved : (encodeResponse (compressorChain gz parseFloat cc routeConfig before after)
      hasRespTrailers resp c).1 = .ok resp') :
    (if (encodeResponse (compressorChain gz parseFloat cc routeConfig before after)
        hasRespTrailers resp c).2.world.filters.1.willCompress then
      gz.Encodes resp'.body resp.body else resp'.body = resp.body) ↔
      (Announces cc false after (responseStart resp c) →
        (hasRespTrailers = false ∧ cc.minContentLength ≤ resp.body.length) ∨
          gz.Encodes resp.body resp.body) := by
  obtain ⟨hok, hchain, hwritten⟩ :=
    encodeResponse_served _ hasRespTrailers resp resp' c hbody hserved
  obtain ⟨hslot, hflag, hpass⟩ := headersPass_compressor gz parseFloat cc routeConfig hbefore hafter
    false (responseStart resp c) hc.fresh
  have hbuf := encodeHeadersLoop_encodeBuf false
    (compressorChain gz parseFloat cc routeConfig before after).reverse (responseStart resp c)
  rw [hchain, hwritten]
  generalize (encodeHeadersLoop false
    (compressorChain gz parseFloat cc routeConfig before after).reverse (responseStart resp c)).2 =
      c1 at hok hslot hflag hpass hbuf ⊢
  obtain ⟨hleft, hdata⟩ := dataPass_compressor gz parseFloat cc routeConfig hbefore hafter resp.body
    (!hasRespTrailers) c1 (hbuf.trans hc.buf)
  have hnone : c1.encodeBodyOverride = none := hslot.trans hc.slot
  rw [hdata hok, hleft, hnone, ← hflag]
  by_cases hwill : c1.world.filters.1.willCompress = true
  · simp only [hwill, if_true, forall_true_left]
    by_cases hdeliver : hasRespTrailers = false ∧ cc.minContentLength ≤ resp.body.length
    · have hd : Delivers cc c1.world.filters.1 resp.body (!hasRespTrailers) :=
        ⟨hpass hwill, hwill, by rw [hdeliver.1]; rfl, hdeliver.2⟩
      rw [if_pos hd]
      exact ⟨fun _ => Or.inl hdeliver, fun _ => gz.compress_encodes cc.level resp.body⟩
    · have hd : ¬Delivers cc c1.world.filters.1 resp.body (!hasRespTrailers) := by
        rintro ⟨-, -, hend, hlen⟩
        exact hdeliver ⟨by simpa using hend, hlen⟩
      rw [if_neg hd]
      exact ⟨Or.inr, fun h => h.resolve_left hdeliver⟩
  · have hd : ¬Delivers cc c1.world.filters.1 resp.body (!hasRespTrailers) :=
      fun h => hwill h.2.1
    rw [if_neg hd]
    simp [hwill]

theorem reply_truthful_iff (h1 : Bool) (writeErr : Option String) (name : String) (r : LocalReply)
    (c : FilterChain (State × τ)) (hc : Unused c) (hbody : r.body ≠ []) :
    Truthful gz r.body (localReplyOutcome h1 writeErr
        (beginLocalReply (compressorChain gz parseFloat cc routeConfig before after) name r c) :
          Outcome (State × τ) req) ↔
      (0 < r.status → Announces cc false after (replyStart r c) → gz.Encodes r.body r.body) := by
  have hlen : r.body.length > 0 := List.length_pos_of_ne_nil hbody
  have hzero : (r.body.length == 0) = false := by
    rw [beq_eq_false_iff_ne]
    omega
  obtain ⟨-, hflag, -⟩ := headersPass_compressor gz parseFloat cc routeConfig hbefore hafter
    false (replyStart r c) hc.fresh
  have hbuf := encodeHeadersLoop_encodeBuf false
    (compressorChain gz parseFloat cc routeConfig before after).reverse (replyStart r c)
  obtain ⟨hleft, -⟩ := dataPass_compressor gz parseFloat cc routeConfig hbefore hafter r.body true
    _ (hbuf.trans hc.buf)
  have hchain : (beginLocalReply (compressorChain gz parseFloat cc routeConfig before after) name r
      c).world.filters.1.willCompress = true ↔ Announces cc false after (replyStart r c) := by
    rw [← hflag, ← hleft]
    unfold beginLocalReply encodeLocalReply
    simp only [hc.started, hc.done, Bool.false_eq_true, if_false, hlen, if_true, hzero]
    rfl
  obtain ⟨hreply, hstatus⟩ := beginLocalReply_body
    (compressorChain gz parseFloat cc routeConfig before after) name r c hc.started hc.done
  unfold Truthful localReplyOutcome
  simp only [hreply, hstatus]
  by_cases hpos : 0 < r.status
  · have hwritten : r.status > 0 := hpos
    rw [if_pos hwritten]
    simp only [List.mem_singleton, forall_eq, hpos, forall_true_left, ← hchain]
    by_cases hwill : (beginLocalReply (compressorChain gz parseFloat cc routeConfig before after)
      name r c).world.filters.1.willCompress = true
    · rw [if_pos hwill]
      exact ⟨fun h _ => h, fun h => h hwill⟩
    · rw [if_neg hwill]
      exact ⟨fun _ h => absurd h hwill, fun _ => trivial⟩
  · simp [hpos]

end Served

section Stored

def crcStep (crc : UInt32) : UInt32 :=
  if crc &&& 1 = 1 then (crc >>> 1) ^^^ 0xEDB88320 else crc >>> 1

def crc32 (body : Bytes) : UInt32 :=
  body.foldl (fun crc b => crcStep^[8] (crc ^^^ b.toUInt32)) 0xFFFFFFFF ^^^ 0xFFFFFFFF

def littleEndian : Nat → Nat → Bytes
  | 0, _ => []
  | n + 1, v => UInt8.ofNat v :: littleEndian n (v / 256)

def storedGzip (body : Bytes) : Bytes :=
  [0x1f, 0x8b, 8, 0, 0, 0, 0, 0, 0, 255] ++ 1 :: littleEndian 2 body.length ++
    littleEndian 2 (65535 - body.length) ++ body ++ littleEndian 4 (crc32 body).toNat ++
      littleEndian 4 body.length

def storedLibrary : GzipLibrary where
  compress _ body := storedGzip body
  Encodes encoded body := encoded = storedGzip body
  compress_encodes _ _ := rfl

def integerParser : FloatParser := fun s => (digitsToNat s).map (fun n => (n : ℚ))

def plainConfig : CompiledConfig := buildCompiledConfig none (buildCompiledGzipConfig 0)

def plainChain : List (HTTPFilter (State × Unit)) :=
  compressorChain storedLibrary integerParser plainConfig none [] [routerFilter]

def gzipRequest : HTTPRequest :=
  { method := "GET", host := "h", requestURI := "/", urlRequestURI := "/",
    header := Header.set ∅ "Accept-Encoding" "gzip", contentLength := 0, body := none }

def gzipFields : H2Request :=
  { method := "GET", path := "/", scheme := "https", authority := "h",
    headers := [⟨"accept-encoding", "gzip"⟩], body := [] }

def textPage (body : Bytes) : ActionResponse :=
  { status := 200, headers := [⟨"Content-Type", "text/plain"⟩], body := body }

def longText : Bytes := List.replicate 30 120

def takesGzip : State where
  acceptedEncoding := some .gzip
  acceptHeaderClassification := some .compressorUsed

/-- The chain after `DecodeHeaders` of a request that takes gzip. -/
def negotiated : FilterChain (State × Unit) := initialChain (takesGzip, ()) gzipRequest.header

theorem routerFilter_keepsBody : (routerFilter : HTTPFilter Unit).KeepsBody where
  decodeHeaders d hd _ := by
    cases hd
    exact trivial
  decodeData d hd _ _ := by
    cases hd
    exact trivial
  decodeParked d hd := by
    cases hd
    exact trivial
  encodeHeaders e he _ := by
    cases he
    exact trivial
  encodeData e he _ _ := by
    cases he
    exact trivial
  encodeParked e he := by
    cases he
    exact trivial

def trailed : ActionResponse := { textPage longText with trailers := [⟨"grpc-status", "0"⟩] }

def refusal : LocalReply := { status := 403, body := longText, headers := [] }

end Stored

end Compressor

end EnvoyGo

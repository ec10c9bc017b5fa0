import EnvoyGo.RequestFraming

/-!
What becomes of the bodies the encode filters put in place of a response's body.  A replacement
goes to one slot of the chain; the filters still to come are given the data of before, and only
the dispatcher of an upstream response looks into the slot.
-/

namespace EnvoyGo

variable {σ α req : Type}

/-- One call of an encode callback: the data it was given, if it was a data callback, and what it
had the body replaced with. -/
structure EncodeVisit where
  given : Option Bytes
  replaced : Option Bytes
  deriving DecidableEq

/-- Every callback is given what the calls before it made of the body, and so is the writer. -/
def Composes (current : Bytes) : List EncodeVisit → Bytes → Prop
  | [], written => written = current
  | v :: vs, written =>
    (∀ data, v.given = some data → data = current) ∧
      Composes (v.replaced.getD current) vs written

instance decidableComposes : (current : Bytes) → (vs : List EncodeVisit) → (written : Bytes) →
    Decidable (Composes current vs written)
  | current, [], written => inferInstanceAs (Decidable (written = current))
  | current, v :: vs, written =>
    have := decidableComposes (v.replaced.getD current) vs written
    inferInstanceAs (Decidable ((∀ data, v.given = some data → data = current) ∧
      Composes (v.replaced.getD current) vs written))

def lastReplaced : List EncodeVisit → Option Bytes
  | [] => none
  | v :: vs => (lastReplaced vs).or v.replaced

def FilterChain.withSlot (c : FilterChain σ) (slot : Option Bytes) : FilterChain σ :=
  { c with encodeBodyOverride := slot }

def headersVisits (endStream : Bool) : List (HTTPFilter σ) → FilterChain σ → List EncodeVisit
  | [], _ => []
  | f :: rest, c =>
    match f.encoder with
    | none => headersVisits endStream rest c
    | some e =>
      let (status, c1) := runEncodeProg f.name (e.encodeHeaders endStream) (c.withSlot none)
      match reactEncodeHeaders f e status c1 with
      | (none, c2) => ⟨none, c2.encodeBodyOverride⟩ :: headersVisits endStream rest c2
      | (some _, c2) => [⟨none, c2.encodeBodyOverride⟩]

def dataVisits (endStream : Bool) : List (HTTPFilter σ) → Bytes → FilterChain σ →
    List EncodeVisit
  | [], _, _ => []
  | f :: rest, data, c =>
    match f.encoder with
    | none => dataVisits endStream rest data c
    | some e =>
      let (status, c1) := runEncodeProg f.name (e.encodeData data endStream) (c.withSlot none)
      match reactEncodeData f e data endStream status c1 with
      | (none, data', c2) =>
        ⟨some data, c2.encodeBodyOverride⟩ :: dataVisits endStream rest data' c2
      | (some _, _, c2) => [⟨some data, c2.encodeBodyOverride⟩]

def runDataVisits (fs : List (HTTPFilter σ)) (data : Bytes) (endStream : Bool)
    (c : FilterChain σ) : List EncodeVisit :=
  if c.encodeBufLen + data.length > filterBufferLimitBytes then []
  else dataVisits endStream fs.reverse data c

section Slot

theorem runEncodeProg_withSlot (name : String) (p : FilterProg σ α) (c : FilterChain σ)
    (slot : Option Bytes) :
    runEncodeProg name p (c.withSlot slot) =
      ((runEncodeProg name p (c.withSlot none)).1,
        (runEncodeProg name p (c.withSlot none)).2.withSlot
          ((runEncodeProg name p (c.withSlot none)).2.encodeBodyOverride.or slot)) := by
  induction p generalizing c slot with
  | done a => rfl
  | touch f k ih => exact ih (f c.world) { c with world := f c.world } slot
  | sendLocalReply r k ih => exact ih (ignoreLocalReply name c) slot
  | overwriteBody b k ih =>
    have hslot := ih c (some b)
    have hrun : ∀ s : Option Bytes, runEncodeProg name (.overwriteBody b k) (c.withSlot s) =
        runEncodeProg name k (c.withSlot (some b)) := fun _ => rfl
    rw [hrun, hrun, hslot]
    simp only [FilterChain.withSlot, Option.or_assoc, Option.some_or]
  | bufferEncodedBody k ih => exact ih c.encodeBuf c slot
  | responseStatus k ih => exact ih c.encodeResponseStatus c slot

/-- The chain `c` was left with, had there been `slot` in the slot at the start. -/
def FilterChain.orSlot (c : FilterChain σ) (slot : Option Bytes) : FilterChain σ :=
  c.withSlot (c.encodeBodyOverride.or slot)

theorem orSlot_withSlot_none (c : FilterChain σ) (slot : Option Bytes) :
    (c.orSlot slot).withSlot none = c.withSlot none := rfl

theorem parkEncode_orSlot (name : String) (e : StreamEncoderFilter σ) (c : FilterChain σ)
    (slot : Option Bytes) :
    parkEncode name e (c.orSlot slot) =
      ((parkEncode name e c).1, (parkEncode name e c).2.orSlot slot) := by
  have hfull := runEncodeProg_withSlot name e.parked c (c.encodeBodyOverride.or slot)
  have hself := runEncodeProg_withSlot name e.parked c c.encodeBodyOverride
  rw [parkEncode, FilterChain.orSlot, hfull]
  rw [show c.withSlot c.encodeBodyOverride = c from rfl] at hself
  rw [parkEncode, hself]
  simp only [FilterChain.orSlot, FilterChain.withSlot, Option.or_assoc]

theorem runEncodeProg_orSlot (name : String) (p : FilterProg σ α) (c : FilterChain σ) :
    runEncodeProg name p c =
      ((runEncodeProg name p (c.withSlot none)).1,
        (runEncodeProg name p (c.withSlot none)).2.orSlot c.encodeBodyOverride) :=
  runEncodeProg_withSlot name p c c.encodeBodyOverride

theorem reactEncodeHeaders_orSlot (f : HTTPFilter σ) (e : StreamEncoderFilter σ)
    (status : FilterHeadersStatus) (c : FilterChain σ) (slot : Option Bytes) :
    reactEncodeHeaders f e status (c.orSlot slot) =
      ((reactEncodeHeaders f e status c).1, (reactEncodeHeaders f e status c).2.orSlot slot) := by
  cases status with
  | continueIteration => rfl
  | stopIteration =>
    simp only [reactEncodeHeaders, parkEncode_orSlot]
    rcases parkEncode f.name e c with ⟨w, c'⟩
    cases w <;> rfl
  | terminateStream => rfl
  | unknown code => rfl

theorem reactEncodeData_orSlot (f : HTTPFilter σ) (e : StreamEncoderFilter σ) (data : Bytes)
    (endStream : Bool) (status : FilterDataStatus) (c : FilterChain σ) (slot : Option Bytes) :
    reactEncodeData f e data endStream status (c.orSlot slot) =
      ((reactEncodeData f e data endStream status c).1,
        (reactEncodeData f e data endStream status c).2.1,
        (reactEncodeData f e data endStream status c).2.2.orSlot slot) := by
  cases status with
  | dataContinue => rfl
  | dataStopIterationAndBuffer =>
    have hpark := parkEncode_orSlot f.name e { c with encodeBuf := c.encodeBuf ++ data } slot
    simp only [reactEncodeData]
    rw [show ({ c.orSlot slot with encodeBuf := (c.orSlot slot).encodeBuf ++ data } :
      FilterChain σ) = ({ c with encodeBuf := c.encodeBuf ++ data } : FilterChain σ).orSlot slot
      from rfl, hpark]
    rcases parkEncode f.name e { c with encodeBuf := c.encodeBuf ++ data } with ⟨w, c'⟩
    cases w with
    | resumed => cases endStream <;> rfl
    | ctxDone => rfl
  | dataStopIterationNoBuffer =>
    simp only [reactEncodeData, parkEncode_orSlot]
    rcases parkEncode f.name e c with ⟨w, c'⟩
    cases w <;> rfl
  | dataTerminateStream => rfl
  | unknown code => rfl

end Slot

section Passes

section

variable (endStream : Bool) (fs : List (HTTPFilter σ))

theorem headersVisits_orSlot (c : FilterChain σ) (slot : Option Bytes) :
    headersVisits endStream fs (c.orSlot slot) = headersVisits endStream fs c := by
  induction fs with
  | nil => rfl
  | cons f rest ih =>
    rw [headersVisits, headersVisits, orSlot_withSlot_none]
    cases f.encoder with
    | none => exact ih
    | some e => rfl

theorem dataVisits_orSlot (data : Bytes) (c : FilterChain σ) (slot : Option Bytes) :
    dataVisits endStream fs data (c.orSlot slot) = dataVisits endStream fs data c := by
  induction fs with
  | nil => rfl
  | cons f rest ih =>
    rw [dataVisits, dataVisits, orSlot_withSlot_none]
    cases f.encoder with
    | none => exact ih
    | some e => rfl

theorem encodeHeadersLoop_slot (c : FilterChain σ) :
    (encodeHeadersLoop endStream fs c).2.encodeBodyOverride =
      (lastReplaced (headersVisits endStream fs c)).or c.encodeBodyOverride := by
  induction fs generalizing c with
  | nil => rfl
  | cons f rest ih =>
    rw [encodeHeadersLoop, headersVisits]
    cases f.encoder with
    | none => exact ih c
    | some e =>
      simp only []
      rw [runEncodeProg_orSlot f.name (e.encodeHeaders endStream) c]
      rcases runEncodeProg f.name (e.encodeHeaders endStream) (c.withSlot none) with ⟨st, c1⟩
      simp only [reactEncodeHeaders_orSlot]
      rcases reactEncodeHeaders f e st c1 with ⟨err, c2⟩
      cases err with
      | none =>
        simp only [ih, headersVisits_orSlot, lastReplaced, Option.or_assoc]
        rfl
      | some err => rfl

theorem encodeDataLoop_slot (data : Bytes) (c : FilterChain σ) :
    (encodeDataLoop endStream fs data c).2.encodeBodyOverride =
      (lastReplaced (dataVisits endStream fs data c)).or c.encodeBodyOverride := by
  induction fs generalizing c data with
  | nil => rfl
  | cons f rest ih =>
    rw [encodeDataLoop, dataVisits]
    cases f.encoder with
    | none => exact ih data c
    | some e =>
      simp only []
      rw [runEncodeProg_orSlot f.name (e.encodeData data endStream) c]
      rcases runEncodeProg f.name (e.encodeData data endStream) (c.withSlot none) with ⟨st, c1⟩
      simp only [reactEncodeData_orSlot]
      rcases reactEncodeData f e data endStream st c1 with ⟨err, data', c2⟩
      cases err with
      | none =>
        simp only [ih, dataVisits_orSlot, lastReplaced, Option.or_assoc]
        rfl
      | some err => rfl

end

theorem runEncodeData_slot (fs : List (HTTPFilter σ)) (data : Bytes) (endStream : Bool)
    (c : FilterChain σ) :
    (runEncodeData fs data endStream c).2.encodeBodyOverride =
      (lastReplaced (runDataVisits fs data endStream c)).or c.encodeBodyOverride := by
  unfold runEncodeData runDataVisits
  split_ifs
  · rfl
  · exact encodeDataLoop_slot endStream fs.reverse data c

theorem runEncodeProg_encodeBuf (name : String) (p : FilterProg σ α) (c : FilterChain σ) :
    (runEncodeProg name p c).2.encodeBuf = c.encodeBuf := by
  apply FilterProg.run_preserves (P := fun c' => c'.encodeBuf = c.encodeBuf)
  · exact fun _ _ h => h
  · exact fun _ _ h => h
  · exact fun _ _ h => h
  · rfl

theorem reactEncodeData_data (f : HTTPFilter σ) (e : StreamEncoderFilter σ) (data : Bytes)
    (endStream : Bool) (status : FilterDataStatus) (c c2 : FilterChain σ) (data' : Bytes)
    (hbuf : endStream = true → c.encodeBuf = [])
    (h : reactEncodeData f e data endStream status c = (none, data', c2)) :
    data' = data ∧ (endStream = true → c2.encodeBuf = []) := by
  cases status with
  | dataContinue =>
    cases h
    exact ⟨rfl, hbuf⟩
  | dataStopIterationAndBuffer =>
    simp only [reactEncodeData] at h
    have hkept := runEncodeProg_encodeBuf f.name e.parked
      { c with encodeBuf := c.encodeBuf ++ data }
    rcases hp : parkEncode f.name e { c with encodeBuf := c.encodeBuf ++ data } with ⟨w, c'⟩
    rw [hp] at h
    rw [parkEncode] at hp
    rw [hp] at hkept
    cases w with
    | ctxDone => cases h
    | resumed =>
      cases endStream with
      | true =>
        cases h
        rw [hbuf rfl, List.nil_append] at hkept
        exact ⟨hkept, fun _ => rfl⟩
      | false =>
        cases h
        exact ⟨rfl, fun hf => by cases hf⟩
  | dataStopIterationNoBuffer =>
    simp only [reactEncodeData] at h
    have hkept := runEncodeProg_encodeBuf f.name e.parked c
    rcases hp : parkEncode f.name e c with ⟨w, c'⟩
    rw [hp] at h
    rw [parkEncode] at hp
    rw [hp] at hkept
    cases w with
    | ctxDone => cases h
    | resumed =>
      cases h
      exact ⟨rfl, fun he => hkept.trans (hbuf he)⟩
  | dataTerminateStream => cases h
  | unknown code => cases h

theorem dataVisits_given (endStream : Bool) (fs : List (HTTPFilter σ)) (data : Bytes)
    (c : FilterChain σ) (hbuf : endStream = true → c.encodeBuf = []) :
    ∀ v ∈ dataVisits endStream fs data c, v.given = some data := by
  induction fs generalizing c with
  | nil =>
    intro v hv
    cases hv
  | cons f rest ih =>
    rw [dataVisits]
    cases f.encoder with
    | none => exact ih c hbuf
    | some e =>
      simp only []
      have hkept := runEncodeProg_encodeBuf f.name (e.encodeData data endStream)
        (c.withSlot none)
      rcases hr : runEncodeProg f.name (e.encodeData data endStream) (c.withSlot none)
        with ⟨st, c1⟩
      rw [hr] at hkept
      have hbuf1 : endStream = true → c1.encodeBuf = [] := fun he => hkept.trans (hbuf he)
      simp only []
      rcases hx : reactEncodeData f e data endStream st c1 with ⟨err, data', c2⟩
      cases err with
      | none =>
        obtain ⟨hdata, hbuf2⟩ :=
          reactEncodeData_data f e data endStream st c1 c2 data' hbuf1 hx
        subst hdata
        intro v hv
        rcases List.mem_cons.mp hv with hv | hv
        · rw [hv]
        · exact ih c2 hbuf2 v hv
      | some err =>
        intro v hv
        rw [List.mem_singleton.mp hv]

theorem headersVisits_given (endStream : Bool) (fs : List (HTTPFilter σ)) (c : FilterChain σ) :
    ∀ v ∈ headersVisits endStream fs c, v.given = none := by
  induction fs generalizing c with
  | nil =>
    intro v hv
    cases hv
  | cons f rest ih =>
    rw [headersVisits]
    cases f.encoder with
    | none => exact ih c
    | some e =>
      simp only []
      rcases runEncodeProg f.name (e.encodeHeaders endStream) (c.withSlot none) with ⟨st, c1⟩
      simp only []
      rcases reactEncodeHeaders f e st c1 with ⟨err, c2⟩
      cases err with
      | none =>
        intro v hv
        rcases List.mem_cons.mp hv with hv | hv
        · rw [hv]
        · exact ih c2 v hv
      | some err =>
        intro v hv
        rw [List.mem_singleton.mp hv]

end Passes

section Compose

def UnreplacedWhenGiven (body : Bytes) (vs : List EncodeVisit) : Prop :=
  ∀ pre v post, vs = pre ++ v :: post → v.given.isSome = true →
    (lastReplaced pre).getD body = body

theorem lastReplaced_append (xs ys : List EncodeVisit) :
    lastReplaced (xs ++ ys) = (lastReplaced ys).or (lastReplaced xs) := by
  induction xs with
  | nil => rw [List.nil_append, lastReplaced, Option.or_none]
  | cons x xs ih => rw [List.cons_append, lastReplaced, ih, lastReplaced, Option.or_assoc]

theorem getD_or (a b : Option Bytes) (body : Bytes) :
    (a.or b).getD body = a.getD (b.getD body) := by
  cases a <;> rfl

theorem composes_iff (body current written : Bytes) (vs : List EncodeVisit)
    (hgiven : ∀ v ∈ vs, v.given = none ∨ v.given = some body) :
    Composes current vs written ↔
      (∀ pre v post, vs = pre ++ v :: post → v.given.isSome = true →
        (lastReplaced pre).getD current = body) ∧
      written = (lastReplaced vs).getD current := by
  induction vs generalizing current with
  | nil =>
    rw [Composes, lastReplaced, Option.getD_none]
    constructor
    · intro h
      refine ⟨?_, h⟩
      intro pre v post he
      exact absurd he.symm (List.append_ne_nil_of_right_ne_nil pre (List.cons_ne_nil v post))
    · exact fun h => h.2
  | cons v vs ih =>
    rw [Composes, ih (v.replaced.getD current) (fun u hu => hgiven u (List.mem_cons_of_mem v hu)),
      lastReplaced, getD_or]
    constructor
    · rintro ⟨hhead, hrest, hwritten⟩
      refine ⟨?_, hwritten⟩
      intro pre u post he hu
      cases pre with
      | nil =>
        obtain ⟨rfl, -⟩ := List.cons.inj he
        obtain ⟨data, hdata⟩ := Option.isSome_iff_exists.mp hu
        rcases hgiven v List.mem_cons_self with hnone | hsome
        · rw [hnone] at hdata
          cases hdata
        · exact (hhead body hsome).symm
      | cons x pre =>
        obtain ⟨hx, htail⟩ := List.cons.inj he
        rw [← hx, lastReplaced, getD_or]
        exact hrest pre u post htail hu
    · rintro ⟨hall, hwritten⟩
      refine ⟨?_, ?_, hwritten⟩
      · intro data hdata
        have hbody := hall [] v vs rfl (by rw [hdata]; rfl)
        rcases hgiven v List.mem_cons_self with hnone | hsome
        · rw [hnone] at hdata
          cases hdata
        · rw [hsome] at hdata
          cases hdata
          exact hbody.symm
      · intro pre u post he hu
        have h := hall (v :: pre) u post (by rw [he]; rfl) hu
        rw [lastReplaced, getD_or] at h
        exact h

theorem lastReplaced_none (vs : List EncodeVisit) (h : ∀ v ∈ vs, v.replaced = none) :
    lastReplaced vs = none := by
  induction vs with
  | nil => rfl
  | cons v vs ih =>
    rw [lastReplaced, ih (fun u hu => h u (List.mem_cons_of_mem v hu)), h v List.mem_cons_self]
    rfl

theorem unreplacedWhenGiven_of_last (body : Bytes) (vs : List EncodeVisit) (last : EncodeVisit)
    (h : ∀ v ∈ vs, v.replaced = none) : UnreplacedWhenGiven body (vs ++ [last]) := by
  intro pre v post he _
  have hlen := congrArg List.length he
  simp only [List.length_append, List.length_cons, List.length_nil] at hlen
  have hwhole : pre <+: vs ++ [last] := ⟨v :: post, he.symm⟩
  have hpre : pre <+: vs :=
    List.prefix_of_prefix_length_le hwhole (List.prefix_append vs [last]) (by omega)
  rw [lastReplaced_none pre (fun u hu => h u (hpre.subset hu))]
  rfl

end Compose

section Idle

/-- The encode side has not been used. -/
structure EncodeIdle (c : FilterChain σ) : Prop where
  started : c.encodeStarted = false
  done : c.localReplyDone = false
  buf : c.encodeBuf = []

end Idle

section Responses

/-- The chain when the encode side of an upstream response starts. -/
def responseStart (resp : ActionResponse) (c : FilterChain σ) : FilterChain σ :=
  { c with
    encodeResponseStatus := resp.status
    encodeStarted := true
    world := { c.world with response := OrderedHeaders.toHTTPHeader resp.headers } }

/-- The encode side of `dispatchRequest` and `WriteH2`: the callbacks for an upstream response. -/
def responseVisits (fs : List (HTTPFilter σ)) (hasRespTrailers : Bool) (resp : ActionResponse)
    (c : FilterChain σ) : List EncodeVisit :=
  let noBody := resp.body.length == 0 && !hasRespTrailers
  headersVisits noBody fs.reverse (responseStart resp c) ++
    match encodeHeadersLoop noBody fs.reverse (responseStart resp c) with
    | (.failed _, _) => []
    | (_, c1) =>
      if resp.body.length > 0 then runDataVisits fs resp.body (!hasRespTrailers) c1 else []

def replyStart (r : LocalReply) (c : FilterChain σ) : FilterChain σ :=
  { c with
    localReplyDone := true
    encodeResponseStatus := r.status
    encodeStarted := true
    world := { c.world with response := localReplyMerged r } }

/-- The callbacks for a local reply; the data pass is run whatever the headers pass ended with. -/
def replyVisits (fs : List (HTTPFilter σ)) (r : LocalReply) (c : FilterChain σ) :
    List EncodeVisit :=
  let noBody := r.body.length == 0
  headersVisits noBody fs.reverse (replyStart r c) ++
    if r.body.length > 0 then
      runDataVisits fs r.body true (encodeHeadersLoop noBody fs.reverse (replyStart r c)).2
    else []

theorem encodeHeadersLoop_encodeBuf (endStream : Bool) (fs : List (HTTPFilter σ))
    (c : FilterChain σ) : (encodeHeadersLoop endStream fs c).2.encodeBuf = c.encodeBuf := by
  apply encodeHeadersLoop_preserves (Q := fun c' => c'.encodeBuf = c.encodeBuf)
  · intro f _ e _
    have hkeep : ∀ {β : Type} (p : FilterProg σ β),
        EncodePreserves (fun c' => c'.encodeBuf = c.encodeBuf) f.name p :=
      fun p c' h => (runEncodeProg_encodeBuf f.name p c').trans h
    exact ⟨hkeep _, hkeep _⟩
  · rfl

section

variable (fs : List (HTTPFilter σ))

theorem runDataVisits_given (data : Bytes) (endStream : Bool) (c : FilterChain σ)
    (hbuf : c.encodeBuf = []) : ∀ v ∈ runDataVisits fs data endStream c, v.given = some data := by
  unfold runDataVisits
  split_ifs
  · intro v hv
    cases hv
  · exact dataVisits_given endStream fs.reverse data c (fun _ => hbuf)

theorem responseVisits_given (hasRespTrailers : Bool) (resp : ActionResponse) (c : FilterChain σ)
    (hbuf : c.encodeBuf = []) :
    ∀ v ∈ responseVisits fs hasRespTrailers resp c,
      v.given = none ∨ v.given = some resp.body := by
  unfold responseVisits
  simp only []
  intro v hv
  rcases List.mem_append.mp hv with hv | hv
  · exact Or.inl (headersVisits_given _ _ _ v hv)
  · right
    have hkept := encodeHeadersLoop_encodeBuf (resp.body.length == 0 && !hasRespTrailers) fs.reverse
      (responseStart resp c)
    split at hv
    · cases hv
    · rename_i c1 _ hrun
      rw [hrun] at hkept
      split_ifs at hv
      · exact runDataVisits_given fs resp.body _ c1 (hkept.trans hbuf) v hv
      · cases hv

theorem replyVisits_given (r : LocalReply) (c : FilterChain σ) (hbuf : c.encodeBuf = []) :
    ∀ v ∈ replyVisits fs r c, v.given = none ∨ v.given = some r.body := by
  unfold replyVisits
  simp only []
  intro v hv
  rcases List.mem_append.mp hv with hv | hv
  · exact Or.inl (headersVisits_given _ _ _ v hv)
  · right
    have hkept := encodeHeadersLoop_encodeBuf (r.body.length == 0) fs.reverse (replyStart r c)
    split_ifs at hv
    · exact runDataVisits_given fs r.body true _ (hkept.trans hbuf) v hv
    · cases hv

theorem encodeResponse_body (hasRespTrailers : Bool) (resp resp' : ActionResponse)
    (c : FilterChain σ) (h : (encodeResponse fs hasRespTrailers resp c).1 = .ok resp') :
    resp'.body = ((lastReplaced (responseVisits fs hasRespTrailers resp c)).or
      c.encodeBodyOverride).getD resp.body := by
  have hslot := encodeHeadersLoop_slot (resp.body.length == 0 && !hasRespTrailers) fs.reverse
    (responseStart resp c)
  have hstart : runEncodeHeaders fs (OrderedHeaders.toHTTPHeader resp.headers)
      (resp.body.length == 0 && !hasRespTrailers) { c with encodeResponseStatus := resp.status } =
        encodeHeadersLoop (resp.body.length == 0 && !hasRespTrailers) fs.reverse
          (responseStart resp c) := rfl
  unfold encodeResponse at h
  rw [hstart] at h
  unfold responseVisits
  simp only []
  rcases hrun : encodeHeadersLoop (resp.body.length == 0 && !hasRespTrailers) fs.reverse
    (responseStart resp c) with ⟨it, c1⟩
  rw [hrun] at h hslot
  have hc1 : c1.encodeBodyOverride = (lastReplaced (headersVisits
      (resp.body.length == 0 && !hasRespTrailers) fs.reverse (responseStart resp c))).or
        c.encodeBodyOverride := hslot
  -- both outcomes of the headers pass that are not failures go on alike
  have hgo : ∀ vs : List EncodeVisit,
      vs = (if resp.body.length > 0 then runDataVisits fs resp.body (!hasRespTrailers) c1 else []) →
      (if resp.body.length > 0 then
        match runEncodeData fs resp.body (!hasRespTrailers) c1 with
        | (.failed err, c2) => ((.error err, c2) : Except ChainError ActionResponse × FilterChain σ)
        | (_, c2) => (.ok { resp with
            headers := OrderedHeaders.reconcile resp.headers c1.world.response
            body := c2.encodeBodyOverride.getD resp.body }, c2)
      else (.ok { resp with
        headers := OrderedHeaders.reconcile resp.headers c1.world.response
        body := c1.encodeBodyOverride.getD resp.body }, c1)).1 = .ok resp' →
      resp'.body = ((lastReplaced vs).or c1.encodeBodyOverride).getD resp.body := by
    intro vs hvs hr
    by_cases hbody : resp.body.length > 0
    · rw [if_pos hbody] at hr hvs
      have hdata := runEncodeData_slot fs resp.body (!hasRespTrailers) c1
      rw [hvs, ← hdata]
      rcases hd : runEncodeData fs resp.body (!hasRespTrailers) c1 with ⟨it2, c2⟩
      rw [hd] at hr
      cases it2 with
      | failed err => cases hr
      | terminated =>
        cases hr
        rfl
      | aborted =>
        cases hr
        rfl
    · rw [if_neg hbody] at hr hvs
      cases hr
      rw [hvs]
      rfl
  cases it with
  | failed err => cases h
  | terminated =>
    rw [lastReplaced_append, Option.or_assoc, ← hc1]
    exact hgo _ rfl h
  | aborted =>
    rw [lastReplaced_append, Option.or_assoc, ← hc1]
    exact hgo _ rfl h

theorem beginLocalReply_body (name : String) (r : LocalReply) (c : FilterChain σ)
    (hstart : c.encodeStarted = false) (hdone : c.localReplyDone = false) :
    (beginLocalReply fs name r c).localReplyBody = r.body ∧
      (beginLocalReply fs name r c).localReplyStatus = r.status := by
  unfold beginLocalReply
  simp only [hstart, hdone, Bool.false_eq_true, if_false, and_self]

end

/-- An upstream response: no callback is given the data behind a replacement, and the slot is not
left from before where this pass replaces nothing. -/
def ResponseComposes (fs : List (HTTPFilter σ)) (hasRespTrailers : Bool) (resp : ActionResponse)
    (c : FilterChain σ) : Prop :=
  UnreplacedWhenGiven resp.body (responseVisits fs hasRespTrailers resp c) ∧
    (lastReplaced (responseVisits fs hasRespTrailers resp c) = none →
      c.encodeBodyOverride.getD resp.body = resp.body)

/-- A local reply: the same, and the last replacement changes nothing either. -/
def ReplyComposes (fs : List (HTTPFilter σ)) (r : LocalReply) (c : FilterChain σ) : Prop :=
  UnreplacedWhenGiven r.body (replyVisits fs r c) ∧
    (lastReplaced (replyVisits fs r c)).getD r.body = r.body

theorem actionOutcome_served_iff (P : FilterChain σ → Bytes → Prop) (h1 hasRespTrailers : Bool)
    (fs : List (HTTPFilter σ)) (writeErr : Option String) (request : req)
    (act : ActionResponse × Option String) (c : FilterChain σ) :
    (∀ w ∈ (actionOutcome h1 hasRespTrailers fs writeErr request act c).written,
        P (actionOutcome h1 hasRespTrailers fs writeErr request act c).chain w.body) ↔
      (0 < act.1.status → act.2 = none →
        ∀ resp', (encodeResponse fs hasRespTrailers act.1 c).1 = .ok resp' →
          P (encodeResponse fs hasRespTrailers act.1 c).2 resp'.body) := by
  obtain ⟨resp, aerr⟩ := act
  unfold actionOutcome
  simp only []
  by_cases hok : resp.status > 0 ∧ aerr = none
  · rw [if_pos hok]
    rcases encodeResponse fs hasRespTrailers resp c with ⟨res, c'⟩
    cases res with
    | error err => simp
    | ok resp' =>
      have hpos : 0 < resp.status := hok.1
      simp [hok.2, hpos]
  · rw [if_neg hok]
    simp only [List.not_mem_nil, false_implies, implies_true, true_iff]
    intro hpos hnone
    exact absurd ⟨hpos, hnone⟩ hok

end Responses

namespace ExtProc

/-- Answers the response's headers with nothing and its body with `mutation`. -/
def responseProcessor (mutation : Option BodyMutation) : ProcessorClient where
  process _ := .ok
    { send := fun _ => none
      inbox := [.ok { response := .stage .responseHeaders (some {}) },
        .ok { response := .stage .responseBody (some { bodyMutation := mutation }) }] }

def responseListener (client : ProcessorClient) : ExternalProcessor :=
  { grpcService := some (.ok client)
    processingMode := some { requestHeaderMode := .skip, responseBodyMode := .buffered } }

def responseCompiled (client : ProcessorClient) : CompiledConfig :=
  { grpcCompiled client with
    processingMode :=
      { requestHeaderMode := .skip, responseHeaderMode := .send, requestTrailerMode := .skip,
        responseTrailerMode := .skip, responseBodyMode := .buffered } }

def replacer : CompiledConfig := responseCompiled (responseProcessor (some (.body [121, 121])))

def observer : CompiledConfig := responseCompiled (responseProcessor none)

/-- The encode side runs the replacer first; the observer only looks at the body. -/
def observedChain : List (HTTPFilter (FilterState × FilterState)) :=
  [(extProcFilter observer none).onLeft, (extProcFilter replacer none).onRight, routerFilter]

def observedStart : FilterChain (FilterState × FilterState) :=
  initialChain (newFilter observer, newFilter replacer) ∅

def page : ActionResponse := { status := 200, headers := [], body := [120] }

def teapot : LocalReply := { status := 418, body := [120], headers := [] }

def replacedChain : List (HTTPFilter FilterState) := [extProcFilter replacer none, routerFilter]

def replacedStart : FilterChain FilterState := initialChain (newFilter replacer) ∅

end ExtProc

end EnvoyGo

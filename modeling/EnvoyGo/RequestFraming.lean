import EnvoyGo.ExtProcNilStream
import EnvoyGo.GoText
import EnvoyGo.H2ServerStream
import EnvoyGo.TruncatedBody

/-!
The lengths that go upstream with a request.  Filters change `Content-Length` in the header map;
the body that is forwarded is the one the dispatcher kept.  On HTTP/1.1 the writer takes the
length from the request, on HTTP/2 it is a field of the carrier like any other.
-/

namespace EnvoyGo

/-- A request as the upstream connection gets it.  `contentLength` is the one the HTTP/1.1 writer
makes, `fields` are those copied from the header map or the carrier. -/
structure ForwardedRequest where
  contentLength : Option Nat
  fields : OrderedHeaders
  body : Bytes

/-- Every forwarded length is the number of the forwarded bytes. -/
structure LengthsTold (w : ForwardedRequest) : Prop where
  written : ∀ n, w.contentLength = some n → n = w.body.length
  copied : ∀ f ∈ w.fields, equalFold f.name "content-length" = true →
    parseInt64 f.value = some (w.body.length : Int)

section Write

def reqWriteExcludeHeader : List String :=
  ["Host", "User-Agent", "Content-Length", "Transfer-Encoding", "Trailer"]

def validHeaderFieldName (name : String) : Bool :=
  name != "" && name.toList.all validHeaderFieldByte

def writtenValue (v : String) : String :=
  String.ofList (Text.trimString (v.toList.map (fun ch =>
    if ch = '\n' ∨ ch = '\r' then ' ' else ch)))

def writeSubset (h : Header) : OrderedHeaders :=
  ((h.keys.filter (fun k => !reqWriteExcludeHeader.contains k && validHeaderFieldName k)
    ).insertionSort (· ≤ ·)).flatMap (fun k =>
      ((h.lookup k).getD []).map (fun v => ⟨k, writtenValue v⟩))

structure TransferWriter where
  chunked : Bool
  contentLength : Int
  body : Option Bytes

/-- `none` is `http.NoBody`; a body that is there and has no length is of unknown length. -/
def outgoingLength (body : Option Bytes) (contentLength : Int) : Int :=
  match body with
  | none => 0
  | some _ => if contentLength ≠ 0 then contentLength else -1

def requestMethodUsuallyLacksBody (method : String) : Bool :=
  ["GET", "HEAD", "DELETE", "OPTIONS", "PROPFIND", "SEARCH"].contains method

/-- `newTransferWriter`.  An unknown length is sent in chunks, except that CONNECT has none and
a method that usually lacks a body is looked at first. -/
def newTransferWriter (method : String) (chunked : Bool) (body : Option Bytes)
    (contentLength : Int) : TransferWriter :=
  if chunked then { chunked := true, contentLength := -1, body := body }
  else if outgoingLength body contentLength < 0 then
    if method = "CONNECT" then
      { chunked := false, contentLength := outgoingLength body contentLength, body := body }
    else if requestMethodUsuallyLacksBody method ∧ body = some [] then
      { chunked := false, contentLength := 0, body := none }
    else { chunked := true, contentLength := -1, body := body }
  else { chunked := false, contentLength := outgoingLength body contentLength, body := body }

def TransferWriter.writtenLength (t : TransferWriter) (method : String) : Option Nat :=
  if t.chunked then none
  else if t.contentLength > 0 then some t.contentLength.toNat
  else if t.contentLength < 0 then none
  else if ["POST", "PUT", "PATCH"].contains method then some 0
  else none

/-- A declared length cuts the body off; a body that ends before it fails the write, with what
there was already sent. -/
def TransferWriter.writtenBody (t : TransferWriter) : Bytes :=
  match t.body with
  | none => []
  | some b =>
    if t.chunked ∨ t.contentLength = -1 then b else b.take t.contentLength.toNat

/-- `Request.Write`; the fields it makes besides `Content-Length` are left out. -/
def requestWrite (method : String) (chunked : Bool) (header : Header) (body : Option Bytes)
    (contentLength : Int) : ForwardedRequest :=
  let t := newTransferWriter method chunked body contentLength
  { contentLength := t.writtenLength method
    fields := writeSubset header
    body := t.writtenBody }

end Write

section Forward

/-- A parsed request is chunked when its length is unknown; the length a filter wrote takes the
coding away again. -/
def transferEncodingChunked (r : HTTPRequest) (header : Header) : Bool :=
  r.contentLength < 0 &&
    ((bodyToRead r).isNone || (parseInt64 (Header.get header "Content-Length")).isNone)

/-- The body of one attempt: with a retry or hedge policy every body is read and wrapped anew,
an absent one too. -/
def attemptBody (replays : Bool) (r : HTTPRequest) (u : UpstreamRequest) : Option Bytes :=
  if r.body.isSome || replays then some u.body else none

def forwardH1 (replays : Bool) (r : HTTPRequest) (u : UpstreamRequest) : ForwardedRequest :=
  requestWrite r.method (transferEncodingChunked r u.header) u.header (attemptBody replays r u)
    u.contentLength

/-- `ClientConn.RoundTrip`: the carrier behind the pseudo-headers, then the body. -/
def forwardH2 (u : H2Request) : ForwardedRequest where
  contentLength := none
  fields := [⟨":method", u.method⟩, ⟨":path", u.path⟩, ⟨":scheme", u.scheme⟩,
    ⟨":authority", u.authority⟩] ++ u.headers
  body := u.body

end Forward

section Agreement

def announcedLength (r : HTTPRequest) (h : Header) : Int :=
  match bodyToRead r with
  | none => r.contentLength
  | some _ => restoredContentLength r.contentLength h

def keptLength (r : HTTPRequest) : Nat :=
  match bodyToRead r with
  | none => 0
  | some b => b.bytes.length

def sentLength (r : HTTPRequest) (h : Header) : Nat :=
  if 0 < announcedLength r h then min (announcedLength r h).toNat (keptLength r)
  else if r.method = "CONNECT" ∧ announcedLength r h < -1 ∧
      transferEncodingChunked r h = false then 0
  else keptLength r

/-- On HTTP/1.1: the kept body reaches the announced length, and a `Content-Length` a filter put
under a spelling of its own tells the length that is sent. -/
structure H1LengthsAgree (replays : Bool) (r : HTTPRequest) (h : Header) : Prop where
  reached : (r.body.isSome || replays) = true → announcedLength r h ≤ keptLength r
  respelled : ∀ k v, toLower k = "content-length" → k ≠ "Content-Length" →
    v ∈ (h.lookup k).getD [] → parseInt64 (writtenValue v) = some (sentLength r h : Int)

/-- On HTTP/2: every `Content-Length` the chain leaves in the header map, its own or the
client's, tells the length of the kept body. -/
def H2LengthsAgree (h : Header) (body : Bytes) : Prop :=
  ∀ v, h.spelled "content-length" v → parseInt64 v = some (body.length : Int)

theorem contentLength_written_iff (k : String) (hk : toLower k = "content-length") :
    (!reqWriteExcludeHeader.contains k && validHeaderFieldName k) = true ↔
      k ≠ "Content-Length" := by
  have hfold : k.toList.map Char.toLower = "content-length".toList := by
    rw [toLower] at hk
    rw [← hk, String.toList_ofList]
  have hvalid : validHeaderFieldName k = true := by
    rw [validHeaderFieldName, Bool.and_eq_true]
    constructor
    · apply bne_iff_ne.mpr
      intro he
      rw [he] at hfold
      exact absurd hfold (by decide)
    · apply List.all_eq_true.mpr
      intro c hc
      apply validHeaderFieldByte_of_toLower
      have hmem : c.toLower ∈ "content-length".toList := hfold ▸ List.mem_map_of_mem hc
      have hall : "content-length".toList.all validHeaderFieldByte = true := by decide
      exact List.all_eq_true.mp hall _ hmem
  have hexcluded : reqWriteExcludeHeader.contains k = true ↔ k = "Content-Length" := by
    rw [List.contains_iff_mem]
    constructor
    · intro hmem
      simp only [reqWriteExcludeHeader, List.mem_cons, List.not_mem_nil, or_false] at hmem
      rcases hmem with rfl | rfl | rfl | rfl | rfl
      · exact absurd hk (by decide)
      · exact absurd hk (by decide)
      · rfl
      · exact absurd hk (by decide)
      · exact absurd hk (by decide)
    · intro he
      rw [he]
      decide
  rw [hvalid, Bool.and_true, Bool.not_eq_true', ← Bool.not_eq_true, hexcluded]

theorem writeSubset_lengths_iff (h : Header) (n : Int) :
    (∀ f ∈ writeSubset h, equalFold f.name "content-length" = true → parseInt64 f.value = some n) ↔
      ∀ k v, toLower k = "content-length" → k ≠ "Content-Length" →
        v ∈ (h.lookup k).getD [] → parseInt64 (writtenValue v) = some n := by
  have hlower : toLower "content-length" = "content-length" := by decide
  constructor
  · intro hall k v hk hne hv
    have hkey : k ∈ h.keys := by
      by_contra hno
      rw [getD_lookup_of_notMem h hno] at hv
      cases hv
    have hf : (⟨k, writtenValue v⟩ : HeaderField) ∈ writeSubset h := by
      rw [writeSubset, List.mem_flatMap]
      refine ⟨k, ?_, List.mem_map_of_mem hv⟩
      rw [List.mem_insertionSort, List.mem_filter]
      exact ⟨hkey, (contentLength_written_iff k hk).mpr hne⟩
    have hname : equalFold k "content-length" = true := by
      rw [equalFold_iff_toLower, hk, hlower]
    exact hall ⟨k, writtenValue v⟩ hf hname
  · intro hall f hf hname
    rw [writeSubset, List.mem_flatMap] at hf
    obtain ⟨k, hk, hf⟩ := hf
    obtain ⟨v, hv, rfl⟩ := List.mem_map.mp hf
    rw [equalFold_iff_toLower, hlower] at hname
    rw [List.mem_insertionSort, List.mem_filter] at hk
    exact hall k v hname ((contentLength_written_iff k hname).mp hk.2) hv

theorem requestWrite_none (method : String) (chunked : Bool) (h : Header) (cl : Int) :
    (requestWrite method chunked h none cl).body = [] ∧
      ∀ n, (requestWrite method chunked h none cl).contentLength = some n → n = 0 := by
  cases chunked with
  | true => exact ⟨rfl, fun n hn => by cases hn⟩
  | false =>
    refine ⟨rfl, ?_⟩
    intro n hn
    simp only [requestWrite, newTransferWriter, outgoingLength, TransferWriter.writtenLength,
      Bool.false_eq_true, if_false, lt_irrefl] at hn
    split_ifs at hn
    cases hn
    rfl

theorem newTransferWriter_unknown (method : String) (b : Bytes) (cl : Int) (hcl : cl ≤ 0) :
    (newTransferWriter method false (some b) cl).writtenBody.length =
        (if method = "CONNECT" ∧ cl < -1 then 0 else b.length) ∧
      ∀ n, (newTransferWriter method false (some b) cl).writtenLength method = some n →
        n = (newTransferWriter method false (some b) cl).writtenBody.length := by
  have hval : outgoingLength (some b) cl = if cl = 0 then -1 else cl := by
    simp only [outgoingLength, ite_not]
  have hout : outgoingLength (some b) cl < 0 := by
    rw [hval]
    split_ifs <;> omega
  by_cases hconnect : method = "CONNECT"
  · have ht : newTransferWriter method false (some b) cl =
        { chunked := false, contentLength := outgoingLength (some b) cl, body := some b } := by
      rw [newTransferWriter, if_neg Bool.false_ne_true, if_pos hout, if_pos hconnect]
    rw [ht]
    constructor
    · simp only [TransferWriter.writtenBody, Bool.false_eq_true, false_or, hconnect, true_and]
      by_cases hlt : cl < -1
      · have hne : outgoingLength (some b) cl ≠ -1 := by
          rw [hval, if_neg (by omega)]
          omega
        rw [if_neg hne, if_pos hlt, List.length_take, Int.toNat_of_nonpos (by omega), Nat.zero_min]
      · have heq : outgoingLength (some b) cl = -1 := by
          rw [hval]
          split_ifs <;> omega
        rw [if_pos heq, if_neg hlt]
    · intro n hn
      rw [TransferWriter.writtenLength, if_neg Bool.false_ne_true, if_neg (not_lt.mpr hout.le),
        if_pos hout] at hn
      cases hn
  · rw [if_neg (fun h => hconnect h.1)]
    by_cases hempty : requestMethodUsuallyLacksBody method = true ∧ some b = some []
    · have ht : newTransferWriter method false (some b) cl =
          { chunked := false, contentLength := 0, body := none } := by
        rw [newTransferWriter, if_neg Bool.false_ne_true, if_pos hout, if_neg hconnect,
          if_pos hempty]
      rw [ht, Option.some.inj hempty.2]
      refine ⟨rfl, ?_⟩
      intro n hn
      rw [TransferWriter.writtenLength, if_neg Bool.false_ne_true, if_neg (lt_irrefl 0),
        if_neg (lt_irrefl 0)] at hn
      split_ifs at hn
      cases hn
      rfl
    · have ht : newTransferWriter method false (some b) cl =
          { chunked := true, contentLength := -1, body := some b } := by
        rw [newTransferWriter, if_neg Bool.false_ne_true, if_pos hout, if_neg hconnect,
          if_neg hempty]
      rw [ht]
      refine ⟨rfl, ?_⟩
      intro n hn
      cases hn

theorem newTransferWriter_declared (method : String) (b : Bytes) (cl : Int) (hcl : 0 < cl) :
    newTransferWriter method false (some b) cl =
      { chunked := false, contentLength := cl, body := some b } := by
  have hval : outgoingLength (some b) cl = cl := if_pos (by omega)
  rw [newTransferWriter, if_neg Bool.false_ne_true, hval, if_neg (by omega)]

theorem requestWrite_body_length (method : String) (chunked : Bool) (h : Header) (b : Bytes)
    (cl : Int) (hchunked : chunked = true → cl < 0) :
    (requestWrite method chunked h (some b) cl).body.length =
      if 0 < cl then min cl.toNat b.length
      else if method = "CONNECT" ∧ cl < -1 ∧ chunked = false then 0
      else b.length := by
  cases chunked with
  | true =>
    have hneg := hchunked rfl
    rw [if_neg (by omega), if_neg (by simp)]
    rfl
  | false =>
    by_cases hpos : 0 < cl
    · rw [if_pos hpos]
      simp only [requestWrite, newTransferWriter_declared method b cl hpos,
        TransferWriter.writtenBody, Bool.false_eq_true, false_or]
      rw [if_neg (by omega), List.length_take]
    · rw [if_neg hpos]
      simp only [and_true]
      exact (newTransferWriter_unknown method b cl (by omega)).1

theorem requestWrite_length_iff (method : String) (chunked : Bool) (h : Header) (b : Bytes)
    (cl : Int) (hchunked : chunked = true → cl < 0) :
    (∀ n, (requestWrite method chunked h (some b) cl).contentLength = some n →
        n = (requestWrite method chunked h (some b) cl).body.length) ↔ cl ≤ b.length := by
  cases chunked with
  | true =>
    have hneg := hchunked rfl
    refine ⟨fun _ => by omega, ?_⟩
    intro _ n hn
    cases hn
  | false =>
    by_cases hpos : 0 < cl
    · rw [requestWrite_body_length method false h b cl (by simp), if_pos hpos]
      have hwritten : (requestWrite method false h (some b) cl).contentLength =
          some cl.toNat := by
        simp only [requestWrite, newTransferWriter_declared method b cl hpos,
          TransferWriter.writtenLength, Bool.false_eq_true, if_false]
        rw [if_pos hpos]
      rw [hwritten]
      constructor
      · intro hall
        have hn := hall _ rfl
        omega
      · intro hle n hn
        cases hn
        omega
    · refine ⟨fun _ => by omega, ?_⟩
      intro _
      exact (newTransferWriter_unknown method b cl (by omega)).2

end Agreement

variable {σ : Type}

theorem upstreamRequest_parts (r : HTTPRequest) (c : FilterChain σ) :
    (upstreamRequest r c).header = c.world.request ∧
      (upstreamRequest r c).contentLength = announcedLength r c.world.request ∧
      (upstreamRequest r c).body.length = keptLength r := by
  unfold upstreamRequest announcedLength keptLength
  cases bodyToRead r with
  | none => exact ⟨rfl, rfl, rfl⟩
  | some b => exact ⟨rfl, rfl, rfl⟩

theorem announcedLength_of_chunked (r : HTTPRequest) (h : Header)
    (hc : transferEncodingChunked r h = true) : announcedLength r h < 0 := by
  rw [transferEncodingChunked, Bool.and_eq_true, decide_eq_true_eq, Bool.or_eq_true] at hc
  unfold announcedLength
  cases hb : bodyToRead r with
  | none => exact hc.1
  | some b =>
    have hparse : parseInt64 (Header.get h "Content-Length") = none := by
      rw [hb] at hc
      simpa using hc.2
    simp only [restoredContentLength, hc.1, if_true, hparse, Option.getD_none]

theorem forwardH1_lengths_iff (replays : Bool) (r : HTTPRequest) (c : FilterChain σ) :
    LengthsTold (forwardH1 replays r (upstreamRequest r c)) ↔
      H1LengthsAgree replays r c.world.request := by
  obtain ⟨hheader, hcl, hlen⟩ := upstreamRequest_parts r c
  have hchunked := announcedLength_of_chunked r c.world.request
  -- the length and the body of the attempt, each in terms of what was announced and kept
  have hmade : (forwardH1 replays r (upstreamRequest r c)).body.length =
        sentLength r c.world.request ∧
      ((∀ n, (forwardH1 replays r (upstreamRequest r c)).contentLength = some n →
          n = (forwardH1 replays r (upstreamRequest r c)).body.length) ↔
        ((r.body.isSome || replays) = true →
          announcedLength r c.world.request ≤ keptLength r)) := by
    rw [forwardH1, hheader, hcl, attemptBody]
    by_cases hattempt : (r.body.isSome || replays) = true
    · rw [if_pos hattempt]
      have hb := requestWrite_body_length r.method _ c.world.request (upstreamRequest r c).body _
        hchunked
      have hn := requestWrite_length_iff r.method _ c.world.request (upstreamRequest r c).body _
        hchunked
      rw [hlen] at hb hn
      refine ⟨hb, ?_⟩
      rw [hn]
      exact ⟨fun h _ => h, fun h => h hattempt⟩
    · rw [if_neg hattempt]
      have hnobody : bodyToRead r = none := by
        have hnone : r.body = none := by
          cases hr : r.body with
          | none => rfl
          | some b =>
            rw [hr] at hattempt
            exact absurd rfl hattempt
        rw [bodyToRead, hnone, ite_self]
      have hkept : keptLength r = 0 := by
        rw [keptLength, hnobody]
      obtain ⟨hb, hn⟩ := requestWrite_none r.method
        (transferEncodingChunked r c.world.request) c.world.request
        (announcedLength r c.world.request)
      rw [hb]
      constructor
      · unfold sentLength
        rw [hkept]
        split_ifs <;> simp
      · exact ⟨fun _ h => absurd h hattempt, fun _ => hn⟩
  have hcopied := writeSubset_lengths_iff c.world.request (sentLength r c.world.request : Int)
  constructor
  · intro h
    refine ⟨hmade.2.mp h.written, hcopied.mp ?_⟩
    intro f hf hname
    rw [← hmade.1]
    apply h.copied f ?_ hname
    rw [← hheader] at hf
    exact hf
  · intro h
    refine ⟨hmade.2.mpr h.reached, ?_⟩
    intro f hf hname
    rw [hmade.1]
    apply hcopied.mpr h.respelled f ?_ hname
    rw [← hheader]
    exact hf

theorem forwardH2_lengths_iff (parseRequestURI : String → Option String)
    (headers : OrderedHeaders) (body : Bytes) (r : HTTPRequest)
    (h : buildRequest parseRequestURI headers body = .ok r) (c : FilterChain σ) :
    LengthsTold (forwardH2 (h2UpstreamRequest r (buildH2Request headers body) c)) ↔
      H2LengthsAgree c.world.request body := by
  have hcarries := h2UpstreamRequest_carries_iff parseRequestURI headers body r h
    contentLength_carried (by decide) c
  have hlower : toLower "content-length" = "content-length" := by decide
  constructor
  · intro ht v hv
    obtain ⟨f, hf, hname, rfl⟩ := (hcarries v).mpr hv
    apply ht.copied f (List.mem_append_right _ hf)
    rw [equalFold_iff_toLower, hname, hlower]
  · intro hagree
    refine ⟨(fun n hn => by cases hn), ?_⟩
    intro f hf hname
    rcases List.mem_append.mp hf with hf | hf
    · exfalso
      simp only [List.mem_cons, List.not_mem_nil, or_false] at hf
      rcases hf with rfl | rfl | rfl | rfl
      all_goals
        dsimp only at hname
        exact absurd hname (by decide)
    · rw [equalFold_iff_toLower, hlower] at hname
      exact hagree f.value ((hcarries f.value).mp ⟨f, hf, hname, rfl⟩)

/-- The decode passes of `WriteH2`: the body is one chunk, and the local-reply flag is not looked
at again after it. -/
def h2DecodePasses (fs : List (HTTPFilter σ)) (filters : σ) (r : HTTPRequest) (body : Bytes) :
    Decoded σ :=
  match headersPass fs filters r (body.length == 0) with
  | (.failed err, c) => .failed err c
  | (_, c1) =>
    if c1.localReplyDone then .replied c1
    else match (if body.length > 0 then runDecodeData fs body true c1 else (.terminated, c1)) with
    | (.failed err, c2) => .failed err c2
    | (_, c2) => .admitted c2

theorem writeH2_invoked (fs : List (HTTPFilter σ)) (action : Action H2Request)
    (writeErr : Option String) (filters : σ) (r : HTTPRequest) (h2req : H2Request) :
    (writeH2 fs action writeErr filters r h2req).invoked =
      match h2DecodePasses fs filters r h2req.body with
      | .admitted c => [h2UpstreamRequest r h2req c]
      | _ => [] := by
  have hafter : ∀ c1 : FilterChain σ,
      (writeH2AfterHeaders fs action writeErr r h2req c1).invoked =
        match (if c1.localReplyDone then Decoded.replied c1
          else match (if h2req.body.length > 0 then runDecodeData fs h2req.body true c1
            else (.terminated, c1)) with
          | (.failed err, c2) => .failed err c2
          | (_, c2) => .admitted c2) with
        | .admitted c => [h2UpstreamRequest r h2req c]
        | _ => [] := by
    intro c1
    unfold writeH2AfterHeaders
    by_cases hdone : c1.localReplyDone = true
    · simp only [hdone, if_true, localReplyOutcome_invoked]
    · simp only [hdone, Bool.false_eq_true, if_false]
      generalize (if h2req.body.length > 0 then runDecodeData fs h2req.body true c1
        else (Iteration.terminated, c1)) = pass
      rcases pass with ⟨it, c2⟩
      cases it with
      | terminated => exact actionOutcome_invoked false _ fs writeErr _ _ c2
      | aborted => exact actionOutcome_invoked false _ fs writeErr _ _ c2
      | failed err => rfl
  unfold writeH2 h2DecodePasses
  rcases headersPass fs filters r (h2req.body.length == 0) with ⟨it, c1⟩
  cases it with
  | terminated => exact hafter c1
  | aborted => exact hafter c1
  | failed err => rfl

theorem dispatchRequest_invoked (fs : List (HTTPFilter σ)) (action : Action UpstreamRequest)
    (writeErr : Option String) (filters : σ) (r : HTTPRequest) :
    (dispatchRequest fs action writeErr filters r).invoked =
      match decodePasses fs filters r with
      | .admitted c => [upstreamRequest r c]
      | _ => [] := by
  unfold dispatchRequest dispatchStream
  cases decodePasses fs filters r with
  | failed err c => rfl
  | replied c => rfl
  | admitted c => exact actionOutcome_invoked true false fs writeErr _ _ c

/-- Every forwarded length is told rightly exactly when the header map the decode chain leaves
agrees with the body the dispatcher kept. -/
theorem forwarded_lengths_iff (fs : List (HTTPFilter σ)) (writeErr : Option String)
    (filters : σ) :
    (∀ (action : Action UpstreamRequest) (replays : Bool) (r : HTTPRequest),
      (∀ u ∈ (dispatchRequest fs action writeErr filters r).invoked,
          LengthsTold (forwardH1 replays r u)) ↔
        ∀ c, decodePasses fs filters r = .admitted c →
          H1LengthsAgree replays r c.world.request) ∧
    (∀ (parseRequestURI : String → Option String) (action : Action H2Request)
        (headers : OrderedHeaders) (body : Bytes),
      (∀ o, serverStreamDispatch parseRequestURI fs action writeErr filters headers body = some o →
          ∀ u ∈ o.invoked, LengthsTold (forwardH2 u)) ↔
        (declaredLengthHolds headers body = true →
          ∀ r, buildRequest parseRequestURI headers body = .ok r →
            ∀ c, h2DecodePasses fs filters r body = .admitted c →
              H2LengthsAgree c.world.request body)) := by
  constructor
  · intro action replays r
    rw [dispatchRequest_invoked]
    cases decodePasses fs filters r with
    | failed err c => simp
    | replied c => simp
    | admitted c =>
      simp only [List.mem_singleton, forall_eq, Decoded.admitted.injEq, forall_eq']
      exact forwardH1_lengths_iff replays r c
  · intro parseRequestURI action headers body
    unfold serverStreamDispatch
    by_cases hdeclared : declaredLengthHolds headers body = true
    · simp only [hdeclared, Bool.not_true, Bool.false_eq_true, if_false, forall_true_left]
      cases hr : buildRequest parseRequestURI headers body with
      | error e => simp
      | ok r =>
        simp only [Option.some.injEq, forall_eq', Except.ok.injEq]
        rw [writeH2_invoked]
        change (∀ u ∈ (match h2DecodePasses fs filters r body with
          | .admitted c => [h2UpstreamRequest r (buildH2Request headers body) c]
          | _ => []), LengthsTold (forwardH2 u)) ↔ _
        cases h2DecodePasses fs filters r body with
        | failed err c => simp
        | replied c => simp
        | admitted c =>
          simp only [List.mem_singleton, forall_eq, Decoded.admitted.injEq, forall_eq']
          exact forwardH2_lengths_iff parseRequestURI headers body r hr c
    · simp only [hdeclared, Bool.not_false, if_true, reduceCtorEq, false_implies, implies_true]

namespace ExtProc

/-- Answers the headers with nothing and replaces the request's body. -/
def replacingProcessor (newBody : Bytes) : ProcessorClient where
  process _ := .ok
    { send := fun _ => none
      inbox := [.ok { response := .stage .requestHeaders (some {}) },
        .ok { response := .stage .requestBody (some { bodyMutation := some (.body newBody) }) }] }

def replacingChain : List (HTTPFilter FilterState) :=
  [extProcFilter (bufferedCompiled (replacingProcessor [121, 121])) none, routerFilter]

def replacingState : FilterState := newFilter (bufferedCompiled (replacingProcessor [121, 121]))

/-- A chunked upload of one byte. -/
def chunkedUpload : HTTPRequest :=
  { method := "POST", host := "h", requestURI := "/", urlRequestURI := "/", header := ∅,
    contentLength := -1, body := some { chunks := [[120]], last := [], err := .eof } }

def uploadFields : OrderedHeaders :=
  [⟨":method", "POST"⟩, ⟨":scheme", "http"⟩, ⟨":path", "/"⟩, ⟨"content-length", "1"⟩]

def okH2 : EnvoyGo.Action H2Request := fun _ => ({ status := 200, headers := [], body := [] }, none)

/-- Two bytes are announced and one is sent, on either protocol. -/
theorem replaced_body_length_untold :
    buildCompiledConfig (bufferedListener (replacingProcessor [121, 121])) =
        .ok (bufferedCompiled (replacingProcessor [121, 121])) ∧
      ¬(∀ u ∈ (dispatchRequest replacingChain okAction none replacingState chunkedUpload).invoked,
        LengthsTold (forwardH1 false chunkedUpload u)) ∧
      ¬(∀ o, serverStreamDispatch some replacingChain okH2 none replacingState uploadFields [120] =
        some o → ∀ u ∈ o.invoked, LengthsTold (forwardH2 u)) := by
  have hone : (dispatchRequest replacingChain okAction none replacingState
      chunkedUpload).invoked.map (fun u => ((forwardH1 false chunkedUpload u).contentLength,
        (forwardH1 false chunkedUpload u).body)) = [(some 2, [120])] := by decide +kernel
  have htwo : (serverStreamDispatch some replacingChain okH2 none replacingState uploadFields
      [120]).map (fun o => o.invoked.map (fun u => (u.headers, u.body))) =
        some [([⟨"content-length", "2"⟩], [120])] := by decide +kernel
  refine ⟨rfl, ?_, ?_⟩
  · intro hall
    obtain ⟨u, hu, hval⟩ := List.map_eq_singleton_iff.mp hone
    have htold := hall u (hu ▸ List.mem_singleton_self u)
    have hlen := htold.written 2 (congrArg Prod.fst hval)
    rw [show (forwardH1 false chunkedUpload u).body = [120] from congrArg Prod.snd hval] at hlen
    cases hlen
  · intro hall
    obtain ⟨o, ho, hmap⟩ := Option.map_eq_some_iff.mp htwo
    obtain ⟨u, hu, hval⟩ := List.map_eq_singleton_iff.mp hmap
    have htold := hall o ho u (hu ▸ List.mem_singleton_self u)
    have hheaders : u.headers = [⟨"content-length", "2"⟩] := congrArg Prod.fst hval
    have hbody : u.body = [120] := congrArg Prod.snd hval
    have hmem : (⟨"content-length", "2"⟩ : HeaderField) ∈ (forwardH2 u).fields := by
      apply List.mem_append_right
      rw [hheaders]
      exact List.mem_singleton_self _
    have hlen := htold.copied _ hmem (by decide)
    rw [show (forwardH2 u).body = [120] from hbody] at hlen
    exact absurd hlen (by decide)

end ExtProc

end EnvoyGo

import EnvoyGo.HCMConnection
import EnvoyGo.HeaderName
import EnvoyGo.UpstreamResponse

/-!
Framing of kept-alive HTTP/1.1 responses.  The writer rewrites the value of a
`Content-Length` it is given but never adds one, so the framing on the wire is the framing
the response brought with it.
-/

namespace EnvoyGo

variable {σ : Type}

def bodyForbidden (method : String) (status : Int) : Bool :=
  method == "HEAD" || (100 ≤ status && status < 200) || status == 204 || status == 304

def fieldValues (fields : OrderedHeaders) (name : String) : List String :=
  (fields.filter (fun f => canonicalMIMEHeaderKey f.name == name)).map HeaderField.value

def hexDigits (n : Nat) : Bytes := (Nat.toDigits 16 n).map (fun ch => UInt8.ofNat ch.toNat)

inductive ChunkedBody : Bytes → Prop
  | last : ChunkedBody [48, 13, 10, 13, 10]
  | chunk (data rest : Bytes) (hdata : data ≠ []) (hrest : ChunkedBody rest) :
      ChunkedBody (hexDigits data.length ++ [13, 10] ++ data ++ [13, 10] ++ rest)

/-- The bytes of the response end where its own framing says they end. -/
def SelfDelimiting (method : String) (w : H1Response) : Prop :=
  if bodyForbidden method w.status then w.body = []
  else
    (fieldValues w.fields "Transfer-Encoding" = [] ∧
      fieldValues w.fields "Content-Length" = [Nat.repr w.body.length]) ∨
    (fieldValues w.fields "Transfer-Encoding" = ["chunked"] ∧ ChunkedBody w.body)

/-- The response brings its framing to the writer: no body where none may be, else one
`Content-Length` of any value, or a body that is chunk-encoded already. -/
def BringsFraming (method : String) (w : WireReply) : Prop :=
  if bodyForbidden method w.status then w.body = []
  else
    (fieldValues w.headers "Transfer-Encoding" = [] ∧
      (fieldValues w.headers "Content-Length").length = 1) ∨
    (fieldValues w.headers "Transfer-Encoding" = ["chunked"] ∧ ChunkedBody w.body)

theorem defaultField_values (fields : OrderedHeaders) (name value other : String)
    (hne : canonicalMIMEHeaderKey name ≠ other) :
    fieldValues (defaultField fields name value) other = [] := by
  unfold defaultField fieldValues
  split_ifs
  · rfl
  · have hb : (canonicalMIMEHeaderKey name == other) = false := beq_eq_false_iff_ne.mpr hne
    simp [hb]

theorem fieldValues_append (xs ys : OrderedHeaders) (name : String) :
    fieldValues (xs ++ ys) name = fieldValues xs name ++ fieldValues ys name := by
  simp only [fieldValues, List.filter_append, List.map_append]

theorem fieldValues_cons (f : HeaderField) (fs : OrderedHeaders) (name : String) :
    fieldValues (f :: fs) name =
      if canonicalMIMEHeaderKey f.name = name then f.value :: fieldValues fs name
      else fieldValues fs name := by
  by_cases h : canonicalMIMEHeaderKey f.name = name
  · simp [fieldValues, h]
  · simp [fieldValues, h]

theorem h1Field_values (body : Bytes) (headers : OrderedHeaders) (name : String)
    (hname : name ≠ "") :
    fieldValues ((headers.filter (fun hf => hf.name ≠ "")).map (h1Field body)) name =
      if name = "Content-Length" then
        (fieldValues headers name).map (fun _ => Nat.repr body.length)
      else fieldValues headers name := by
  induction headers with
  | nil => simp [fieldValues]
  | cons hf rest ih =>
    by_cases hempty : hf.name = ""
    · have hkey : canonicalMIMEHeaderKey hf.name ≠ name := by
        rw [hempty]
        exact fun h => hname h.symm
      rw [List.filter_cons_of_neg (by simp [hempty]), ih, fieldValues_cons, if_neg hkey]
    · rw [List.filter_cons_of_pos (by simp [hempty]), List.map_cons, fieldValues_cons, ih,
        fieldValues_cons]
      have hcanon : canonicalMIMEHeaderKey (h1Field body hf).name =
          canonicalMIMEHeaderKey hf.name := canonicalMIMEHeaderKey_idem hf.name
      rw [hcanon]
      by_cases hkey : canonicalMIMEHeaderKey hf.name = name
      · by_cases hcl : name = "Content-Length"
        · simp [hkey, hcl, h1Field]
        · simp [hkey, hcl, h1Field]
      · simp [hkey]

theorem writeH1Reply_values (env : WireEnv) (w : WireReply) (name : String)
    (hempty : name ≠ "") (hserver : name ≠ "Server") (hdate : name ≠ "Date") :
    fieldValues (writeH1Reply env w).fields name =
      if name = "Content-Length" then
        (fieldValues w.headers name).map (fun _ => Nat.repr w.body.length)
      else fieldValues w.headers name := by
  have hs : canonicalMIMEHeaderKey "Server" ≠ name := by
    rw [show canonicalMIMEHeaderKey "Server" = "Server" by decide]
    exact hserver.symm
  have hd : canonicalMIMEHeaderKey "Date" ≠ name := by
    rw [show canonicalMIMEHeaderKey "Date" = "Date" by decide]
    exact hdate.symm
  simp only [writeH1Reply, fieldValues_append, defaultField_values _ _ _ _ hs,
    defaultField_values _ _ _ _ hd, List.append_nil]
  exact h1Field_values w.body w.headers name hempty

theorem selfDelimiting_writeH1Reply_iff (env : WireEnv) (method : String) (w : WireReply) :
    SelfDelimiting method (writeH1Reply env w) ↔ BringsFraming method w := by
  have hte := writeH1Reply_values env w "Transfer-Encoding" (by decide) (by decide) (by decide)
  have hcl := writeH1Reply_values env w "Content-Length" (by decide) (by decide) (by decide)
  rw [if_neg (by decide)] at hte
  rw [if_pos rfl] at hcl
  have hone : ∀ (vs : List String) (x : String), vs.map (fun _ => x) = [x] ↔ vs.length = 1 := by
    intro vs x
    constructor
    · intro h
      simpa using congrArg List.length h
    · intro h
      obtain ⟨v, rfl⟩ := List.length_eq_one_iff.mp h
      rfl
  have hbody : (writeH1Reply env w).body = w.body := rfl
  have hstatus : (writeH1Reply env w).status = w.status := rfl
  unfold SelfDelimiting BringsFraming
  rw [hte, hcl, hbody, hstatus, hone]

/-- The response that reaches the writer, taken where the encode chain leaves it: the stored
local reply, or the upstream's response after the encode passes. -/
def framedBeforeWrite (fs : List (HTTPFilter σ)) (action : Action UpstreamRequest) (filters : σ)
    (q : HTTPRequest) : Prop :=
  match decodePasses fs filters q with
  | .failed _ _ => False
  | .replied c => 0 < c.localReplyStatus ∧
      BringsFraming q.method ⟨c.localReplyStatus, c.localReplyHeaders, c.localReplyBody, []⟩
  | .admitted c =>
    ∃ resp, (encodeResponse fs false (action (upstreamRequest q c)).1 c).1 = .ok resp ∧
    0 < (action (upstreamRequest q c)).1.status ∧
    BringsFraming q.method ⟨resp.status, resp.headers, resp.body, []⟩

theorem localReplyOutcome_framed_iff (h1 : Bool) (writeErr : Option String) (method : String)
    (c : FilterChain σ) :
    (∃ w, (localReplyOutcome h1 writeErr c : Outcome σ UpstreamRequest).written = [w] ∧
        BringsFraming method w) ↔
      0 < c.localReplyStatus ∧
        BringsFraming method ⟨c.localReplyStatus, c.localReplyHeaders, c.localReplyBody, []⟩ := by
  simp only [localReplyOutcome]
  by_cases hs : c.localReplyStatus > 0
  · simp only [if_pos hs, List.cons.injEq, and_true, exists_eq_left']
    exact ⟨fun h => ⟨hs, h⟩, fun h => h.2⟩
  · simp only [if_neg hs]
    constructor
    · rintro ⟨w, hw, -⟩
      cases hw
    · intro h
      exact absurd h.1 hs

theorem actionOutcome_framed_iff (fs : List (HTTPFilter σ)) (writeErr : Option String)
    (method : String) (u : UpstreamRequest) (act : ActionResponse × Option String)
    (c : FilterChain σ) (herr : act.2 = none) :
    (∃ w, (actionOutcome true false fs writeErr u act c).written = [w] ∧
        BringsFraming method w) ↔
      ∃ resp, (encodeResponse fs false act.1 c).1 = .ok resp ∧ 0 < act.1.status ∧
        BringsFraming method ⟨resp.status, resp.headers, resp.body, []⟩ := by
  unfold actionOutcome
  simp only []
  by_cases hs : act.1.status > 0
  · rw [if_pos ⟨hs, herr⟩]
    rcases hx : encodeResponse fs false act.1 c with ⟨res, c'⟩
    cases res with
    | error err =>
      simp only []
      constructor
      · rintro ⟨w, hw, -⟩
        cases hw
      · rintro ⟨resp, hresp, -⟩
        cases hresp
    | ok resp' =>
      simp only [Bool.false_eq_true, if_false, List.cons.injEq, and_true, exists_eq_left',
        Except.ok.injEq]
      exact ⟨fun h => ⟨hs, h⟩, fun h => h.2⟩
  · rw [if_neg (fun h => hs h.1)]
    constructor
    · rintro ⟨w, hw, -⟩
      cases hw
    · rintro ⟨resp, -, h, -⟩
      exact absurd h hs

def getRequest : HTTPRequest :=
  { method := "GET", host := "h", requestURI := "/", urlRequestURI := "/", header := ∅,
    contentLength := 0, body := none }

def answerWith (m : ResponseMessage) : Action UpstreamRequest :=
  fun _ => (h1ActionResponse (readResponse "GET" m), none)

def chunkedHi : ResponseMessage := { status := 200, framing := .chunked, body := [104, 105] }

def framedHi : ResponseMessage := { status := 200, framing := .contentLength 2, body := [104, 105] }

def unframedHi : H1Response where
  status := 200
  statusLine := "HTTP/1.1 200 OK"
  fields := [⟨"Server", "envoy"⟩, ⟨"Date", ""⟩]
  body := [104, 105]

end EnvoyGo

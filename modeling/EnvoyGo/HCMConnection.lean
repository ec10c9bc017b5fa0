import EnvoyGo.HCMDispatch

/-!
One HTTP/1.1 request on a downstream connection: the refusals before dispatch, the
dispatch, the bytes of the answer, and whether the connection serves another request.
-/

namespace EnvoyGo

/-- What the response writer takes from outside: reason phrases and the clock. -/
structure WireEnv where
  statusText : Int → String
  date : String

structure H1Response where
  status : Int
  statusLine : String
  fields : OrderedHeaders
  body : Bytes
  deriving DecidableEq

def statusLine (env : WireEnv) (status : Int) : String :=
  "HTTP/1.1 " ++ Int.repr status ++ " " ++ env.statusText status

/-- A header line of `writeH1Reply`: only the value of a `Content-Length` that is there is
rewritten. -/
def h1Field (body : Bytes) (hf : HeaderField) : HeaderField :=
  let canon := canonicalMIMEHeaderKey hf.name
  { name := canon, value := if canon = "Content-Length" then Nat.repr body.length else hf.value }

def defaultField (fields : OrderedHeaders) (name value : String) : OrderedHeaders :=
  if fields.any (fun f => f.name == name) then [] else [⟨name, value⟩]

def writeH1Reply (env : WireEnv) (w : WireReply) : H1Response :=
  let lines := (w.headers.filter (fun hf => hf.name ≠ "")).map (h1Field w.body)
  { status := w.status
    statusLine := statusLine env w.status
    fields := lines ++ defaultField lines "Server" "envoy" ++ defaultField lines "Date" env.date
    body := w.body }

def writeStatusReply (env : WireEnv) (status : Int) (body : Bytes) : H1Response :=
  { status := status
    statusLine := statusLine env status
    fields := [⟨"Content-Type", "text/plain"⟩, ⟨"Content-Length", Nat.repr body.length⟩,
      ⟨"Server", "envoy"⟩, ⟨"Date", env.date⟩]
    body := body }

structure Served where
  invoked : List UpstreamRequest
  written : List H1Response
  keepAlive : Bool

def expectsContinue (h : Header) : Bool := Header.get h "Expect" != ""

def asksUpgrade (h : Header) : Bool :=
  Header.get h "Upgrade" != "" || equalFold (Header.get h "Connection") "Upgrade"

def closeAfterRequest (h : Header) : Bool := equalFold (Header.get h "Connection") "close"

variable {σ : Type}

/-- `serveOneRequest`.  Whatever the dispatcher's error is, it closes the connection;
otherwise the request's own `Connection: close` and the flush decide. -/
def serveOneRequest (env : WireEnv) (fs : List (HTTPFilter σ)) (action : Action UpstreamRequest)
    (writeErr : Option String) (flushErr : Bool) (filters : σ) (r : HTTPRequest) : Served :=
  if expectsContinue r.header then
    { invoked := [], written := [writeStatusReply env 417 []], keepAlive := false }
  else if asksUpgrade r.header then
    { invoked := [], written := [writeStatusReply env 501 []], keepAlive := false }
  else
    let o := dispatchRequest fs action writeErr filters r
    { invoked := o.invoked
      written := o.written.map (writeH1Reply env)
      keepAlive := match o.err with
        | some _ => false
        | none => if flushErr then false else !closeAfterRequest r.header }

def closedByRequest (flushErr : Bool) (h : Header) : Prop :=
  flushErr = true ∨ closeAfterRequest h = true

theorem serveOneRequest_keepAlive_iff (env : WireEnv) (fs : List (HTTPFilter σ))
    (action : Action UpstreamRequest) (writeErr : Option String) (flushErr : Bool) (filters : σ)
    (r : HTTPRequest) :
    (serveOneRequest env fs action writeErr flushErr filters r).keepAlive = true ↔
      expectsContinue r.header = false ∧ asksUpgrade r.header = false ∧
        ¬ closedByRequest flushErr r.header ∧
        (dispatchRequest fs action writeErr filters r).err = none := by
  unfold serveOneRequest closedByRequest
  cases expectsContinue r.header with
  | true => simp
  | false =>
    cases asksUpgrade r.header with
    | true => simp
    | false =>
      cases he : (dispatchRequest fs action writeErr filters r).err with
      | some e => simp [he]
      | none => cases flushErr <;> simp [he]

theorem serveOneRequest_closes_iff (env : WireEnv) (fs : List (HTTPFilter σ))
    (action : Action UpstreamRequest) (writeErr : Option String) (flushErr : Bool) (filters : σ)
    (r : HTTPRequest) (he : expectsContinue r.header = false) (hu : asksUpgrade r.header = false) :
    (serveOneRequest env fs action writeErr flushErr filters r).keepAlive = false ↔
      closedByRequest flushErr r.header ∨
        (dispatchRequest fs action writeErr filters r).err ≠ none := by
  rw [← Bool.not_eq_true, serveOneRequest_keepAlive_iff]
  simp only [he, hu, true_and, not_and_or, not_not, ne_eq]

end EnvoyGo

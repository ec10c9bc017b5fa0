import EnvoyGo.HCMDispatch

/-!
One HTTP/1.x response message on an upstream connection and what `http.ReadResponse` makes
of it: the framing fields are consumed, and a body that only the end of the connection
delimits marks the response `Close`.
-/

namespace EnvoyGo

inductive Framing
  | contentLength (n : Nat)
  | chunked
  | untilClose
  deriving DecidableEq

/-- A message as the upstream sends it; `close` is what its version and its `Connection`
field say. -/
structure ResponseMessage where
  status : Int
  http11 : Bool := true
  close : Bool := false
  header : Header := ∅
  framing : Framing
  body : Bytes
  deriving DecidableEq

def bodyAllowedForStatus (status : Int) : Bool :=
  !((100 ≤ status && status < 200) || status == 204 || status == 304)

structure ParsedResponse where
  status : Int
  http11 : Bool
  header : Header
  body : Bytes
  close : Bool
  deriving DecidableEq

def readResponse (method : String) (m : ResponseMessage) : ParsedResponse :=
  let noBody := method == "HEAD" || !bodyAllowedForStatus m.status
  { status := m.status
    http11 := m.http11
    header := match m.framing with
      | .contentLength n => Header.set m.header "Content-Length" (Nat.repr n)
      | .chunked => m.header
      | .untilClose => m.header
    body := if noBody then [] else m.body
    close := m.close || (m.framing == .untilClose && !noBody) }

def h1ActionResponse (resp : ParsedResponse) : ActionResponse :=
  { status := resp.status
    headers := OrderedHeaders.fromHTTPHeader resp.header
    body := resp.body
    close := resp.close }

end EnvoyGo

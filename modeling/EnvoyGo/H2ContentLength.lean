import EnvoyGo.H2ServerConn
import EnvoyGo.H2ServerStream

/-!
The dispatch of a complete request stream, and what it checks of the `content-length` fields that
it forwards.
-/

namespace EnvoyGo.H2.ServerStream

/-- `WriteH2` of the action matched: `none` without an error, the code if it is a stream error. -/
abbrev WriteH2 := H2Request → Option (Option ErrCode)

/-- The stream is reset before any action runs, or the action is called, and the stream reset if
that fails. -/
inductive Dispatched
  | reset (code : ErrCode)
  | action (req : H2Request) (reset : Option ErrCode)
  deriving DecidableEq

def dispatch (parseRequestURI : String → Option String)
    (matchRequest : HTTPRequest → Option WriteH2) (headers : OrderedHeaders) (body : Bytes) :
    Dispatched :=
  if !declaredLengthHolds headers body then .reset .protocolError
  else match buildRequest parseRequestURI headers body with
  | .error _ => .reset .protocolError
  | .ok req =>
    match matchRequest req with
    | none => .reset .internalError
    | some writeH2 =>
      let h2Req := buildH2Request headers body
      .action h2Req ((writeH2 h2Req).map (fun code => code.getD .internalError))

def isContentLength (f : HeaderField) : Bool := equalFold f.name "content-length"

/-- Every `content-length` field is the length of the body in digits. -/
def LengthsAgree (headers : OrderedHeaders) (body : Bytes) : Prop :=
  ∀ f ∈ headers, isContentLength f = true → digitsToNat f.value.toList = some body.length

/-- No action runs on a request whose lengths disagree, and its stream is reset. -/
structure LengthChecked (headers : OrderedHeaders) (body : Bytes) (d : Dispatched) : Prop where
  only : ∀ req reset, d = .action req reset → LengthsAgree headers body
  otherwise : ¬ LengthsAgree headers body → d = .reset .protocolError

/-- The first `content-length` is not a spelling of the length of the body, or the header list is
not one of a request. -/
def Refused (parseRequestURI : String → Option String) (headers : OrderedHeaders) (body : Bytes) :
    Prop :=
  (∃ f, headers.find? isContentLength = some f ∧ parseInt64 f.value ≠ some (body.length : ℤ)) ∨
  ∃ err, buildRequest parseRequestURI headers body = .error err

section Checks

variable {parseRequestURI : String → Option String} {matchRequest : HTTPRequest → Option WriteH2}
  {headers : OrderedHeaders} {body : Bytes}

theorem declaredLengthHolds_false_iff :
    declaredLengthHolds headers body = false ↔
      ∃ f, headers.find? isContentLength = some f ∧
        parseInt64 f.value ≠ some (body.length : ℤ) := by
  have hfind : headers.find? (fun f => equalFold f.name "content-length") =
      headers.find? isContentLength := rfl
  unfold declaredLengthHolds
  rw [hfind]
  cases hfirst : headers.find? isContentLength with
  | none =>
    refine iff_of_false (fun h => by cases h) ?_
    rintro ⟨f, hf, -⟩
    cases hf
  | some f =>
    dsimp only
    rw [beq_eq_false_iff_ne]
    constructor
    · intro hne
      exact ⟨f, rfl, hne⟩
    · rintro ⟨g, hg, hne⟩
      rw [Option.some.inj hg]
      exact hne

theorem dispatch_of_refused (matchRequest : HTTPRequest → Option WriteH2)
    (h : Refused parseRequestURI headers body) :
    dispatch parseRequestURI matchRequest headers body = .reset .protocolError := by
  unfold dispatch
  cases hlength : declaredLengthHolds headers body with
  | false => rfl
  | true =>
    obtain hfirst | ⟨err, herr⟩ := h
    · rw [declaredLengthHolds_false_iff.mpr hfirst] at hlength
      cases hlength
    · rw [herr]
      rfl

theorem dispatch_of_not_refused (h : ¬ Refused parseRequestURI headers body) :
    dispatch parseRequestURI matchRequest headers body = .reset .internalError ∨
      ∃ req reset, dispatch parseRequestURI matchRequest headers body = .action req reset := by
  have hlength : declaredLengthHolds headers body = true := by
    rw [← Bool.not_eq_false]
    intro hfalse
    exact h (.inl (declaredLengthHolds_false_iff.mp hfalse))
  unfold dispatch
  rw [hlength]
  cases hreq : buildRequest parseRequestURI headers body with
  | error err => exact absurd (.inr ⟨err, hreq⟩) h
  | ok req =>
    cases hmatch : matchRequest req with
    | none =>
      left
      simp only [Bool.not_true, Bool.false_eq_true, if_false, hmatch]
    | some writeH2 =>
      right
      simp only [Bool.not_true, Bool.false_eq_true, if_false, hmatch]
      exact ⟨_, _, rfl⟩

/-- Past the first field nothing is compared, and its sign is not looked at. -/
theorem lengthChecked_dispatch_iff (parseRequestURI : String → Option String)
    (matchRequest : HTTPRequest → Option WriteH2) (headers : OrderedHeaders) (body : Bytes) :
    LengthChecked headers body (dispatch parseRequestURI matchRequest headers body) ↔
      LengthsAgree headers body ∨ Refused parseRequestURI headers body := by
  constructor
  · intro h
    by_cases hrefused : Refused parseRequestURI headers body
    · exact .inr hrefused
    · left
      by_contra hdisagree
      have hreset := h.otherwise hdisagree
      obtain hmatch | ⟨req, reset, haction⟩ := dispatch_of_not_refused hrefused
      · rw [hmatch] at hreset
        cases hreset
      · rw [haction] at hreset
        cases hreset
  · rintro (hagree | hrefused)
    · exact ⟨fun _ _ _ => hagree, fun hnot => absurd hagree hnot⟩
    · have hreset := dispatch_of_refused matchRequest hrefused
      refine ⟨?_, fun _ => hreset⟩
      intro req reset haction
      rw [hreset] at haction
      cases haction

end Checks

/-- Two lengths for a body of two bytes. -/
def twoLengths : OrderedHeaders :=
  [⟨":method", "POST"⟩, ⟨":scheme", "http"⟩, ⟨":path", "/"⟩, ⟨"content-length", "2"⟩,
    ⟨"content-length", "7"⟩]

theorem not_lengthChecked_twoLengths :
    ¬ LengthChecked twoLengths [0, 0]
      (dispatch some (fun _ => some (fun _ => none)) twoLengths [0, 0]) := by
  intro h
  have hrun : dispatch some (fun _ => some (fun _ => none)) twoLengths [0, 0] =
      .action (buildH2Request twoLengths [0, 0]) none := by rfl
  have hlast := h.only _ _ hrun ⟨"content-length", "7"⟩ (by decide) (by decide)
  exact absurd hlast (by decide)

end EnvoyGo.H2.ServerStream

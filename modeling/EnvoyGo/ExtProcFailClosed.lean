import EnvoyGo.ExtProcProbe

/-!
When ext_proc fails closed.  Only a stream that cannot be opened goes through the classifier
of failures; every other way a stage can fail resumes the chain as an answer would.
-/

namespace EnvoyGo.ExtProc

theorem buildProcessorClient_spec {raw : ExternalProcessor} {base : CompiledConfig}
    (h : buildProcessorClient raw = .ok base) :
    (base.httpClient.isSome || base.grpcClient.isSome) = true ∧
      raw.grpcService.isSome ≠ raw.httpService.isSome ∧
      (base.grpcClient.isSome = true → base.httpClient = none) := by
  unfold buildProcessorClient at h
  cases hg : raw.grpcService with
  | none =>
    cases hh : raw.httpService with
    | none => simp [hg, hh] at h
    | some hs =>
      cases hs with
      | error err => simp [hg, hh, Except.map] at h
      | ok hc =>
        simp only [hg, hh, Except.map, Except.ok.injEq] at h
        subst h
        exact ⟨rfl, Bool.false_ne_true, fun hgrpc => by cases hgrpc⟩
  | some gs =>
    cases hh : raw.httpService with
    | some hs => simp [hg, hh] at h
    | none =>
      cases gs with
      | error err => simp [hg, hh, Except.map] at h
      | ok pc =>
        simp only [hg, hh, Except.map, Except.ok.injEq] at h
        subst h
        exact ⟨rfl, Bool.false_ne_true.symm, fun _ => rfl⟩

theorem buildCompiledConfig_spec {raw : ExternalProcessor} {cc : CompiledConfig}
    (h : buildCompiledConfig raw = .ok cc) :
    (cc.httpClient.isSome || cc.grpcClient.isSome) = true ∧
      cc.failureModeAllow = raw.failureModeAllow ∧
      (cc.grpcClient.isSome = true → cc.httpClient = none) := by
  unfold buildCompiledConfig at h
  cases hone : raw.grpcService.isSome == raw.httpService.isSome with
  | true =>
    rw [hone] at h
    exact absurd (beq_iff_eq.mp hone) (buildProcessorClient_spec h).2.1
  | false =>
    rw [hone] at h
    cases hflags : checkUnsupported raw with
    | error err => simp [hflags] at h
    | ok u =>
      cases hbase : buildProcessorClient raw with
      | error err => simp [hflags, hbase] at h
      | ok base =>
        cases hmode : resolveProcessingMode raw.processingMode
            base.httpServiceHeadersOnly with
        | error err => simp [hflags, hbase, hmode] at h
        | ok mode =>
          cases hmodes : resolveOverrideModes base.httpServiceHeadersOnly 0
              raw.allowedOverrideModes with
          | error err => simp [hflags, hbase, hmode, hmodes, Except.map] at h
          | ok modes =>
            simp only [hflags, hbase, hmode, hmodes, Except.map, Except.ok.injEq] at h
            subst h
            have hspec := buildProcessorClient_spec hbase
            exact ⟨hspec.1, rfl, hspec.2.2⟩

/-- A gRPC listener with everything else left to the defaults: `failure_mode_allow` is off. -/
def grpcListener (client : ProcessorClient) : ExternalProcessor :=
  { grpcService := some (.ok client) }

def grpcCompiled (client : ProcessorClient) : CompiledConfig where
  grpcClient := some client
  processingMode :=
    { requestHeaderMode := .send, responseHeaderMode := .send, requestTrailerMode := .skip,
      responseTrailerMode := .skip }
  messageTimeout := 200 * millisecond

/-- The stream opens, and the first receive on it fails. -/
def brokenProcessor : ProcessorClient where
  process _ := .ok
    { send := fun _ => none
      inbox := [.error "rpc error: code = Unavailable desc = error reading from server: EOF"] }

def unreachableProcessor : ProcessorClient where
  process _ := .error "rpc error: code = Unavailable desc = connection refused"

end EnvoyGo.ExtProc

import EnvoyGo.Outlier
import EnvoyGo.Runs
import Mathlib.Data.List.Dedup

/-!
`max_ejection_percent`.  The cap counts endpoints, while an ejection is of an address and takes all
endpoints of that address out at once.
-/

namespace EnvoyGo.Outlier

open ClusterHealth

inductive Call
  | record (ep : Endpoint) (statusCode : Int) (localOriginErr : Bool)
  | sweep

def call (env : Env) (cfg : OutlierConfig) (eps : List Endpoint) (w : World) : Call → World
  | .record ep statusCode localOriginErr => record env cfg eps w ep statusCode localOriginErr
  | .sweep => sweep env cfg eps w

/-- Calls one at a time on a new cluster. -/
def run (env : Env) (cfg : OutlierConfig) (eps : List Endpoint) (cs : List Call) : World :=
  cs.foldl (call env cfg eps) { states := newStates eps }

/-- Right after every successful ejection the ejected endpoints are within the cap. -/
def CapRespected (p : Nat) (eps : List Endpoint) (w : World) : Prop :=
  ∀ n ∈ w.ejections, n * 100 ≤ p * eps.length

def endpointsAt (eps : List Endpoint) (S : Finset String) : Nat :=
  eps.countP fun ep => decide (ep.addr ∈ S)

/-- Where one endpoint more than those at `S` fits under the cap, all endpoints of any other address
fit. -/
def CapFits (p : Nat) (eps : List Endpoint) : Prop :=
  ∀ S : Finset String, ∀ ep ∈ eps, ep.addr ∉ S →
    (endpointsAt eps S + 1) * 100 ≤ p * eps.length →
    (endpointsAt eps S + endpointsAt eps {ep.addr}) * 100 ≤ p * eps.length

variable {w : World} {a : String} {eps : List Endpoint} {p : Nat}

theorem isEjected_of_isFlagged {env : Env} {ep : Endpoint}
    (h : isFlagged (isEjected env true w ep).2.states ep.addr = true) :
    (isEjected env true w ep).1 = true := by
  obtain ⟨hflag, he⟩ | ⟨-, -, he⟩ | ⟨-, -, he⟩ := isEjected_cases env true w ep
  · rw [he, hflag] at h
    cases h
  · rw [he, isFlagged_uneject, if_pos rfl] at h
    cases h
  · rw [he]

theorem ejectedEndpoints_le_count (env : Env) (eps : List Endpoint) (w : World) :
    ejectedEndpoints (ejectedCount env w eps).2.states eps ≤ (ejectedCount env w eps).1 := by
  induction eps generalizing w with
  | nil => exact le_rfl
  | cons ep eps ih =>
    have htail := ih (isEjected env true w ep).2
    have hhead : (if isFlagged (ejectedCount env w (ep :: eps)).2.states ep.addr = true then 1
        else 0) ≤ (isEjected env true w ep).1.toNat := by
      split_ifs with hflag
      · have hej := isEjected_of_isFlagged (isFlagged_of_ejectedCount hflag)
        rw [hej]
        exact le_rfl
      · exact Nat.zero_le _
    unfold ejectedEndpoints at htail ⊢
    rw [List.countP_cons]
    exact Nat.add_le_add htail hhead

theorem ejections_isEjected (env : Env) (w : World) (ep : Endpoint) :
    (isEjected env true w ep).2.ejections = w.ejections := by
  obtain ⟨-, he⟩ | ⟨-, -, he⟩ | ⟨-, -, he⟩ := isEjected_cases env true w ep <;> rw [he] <;> rfl

theorem ejections_ejectedCount (env : Env) (eps : List Endpoint) (w : World) :
    (ejectedCount env w eps).2.ejections = w.ejections := by
  induction eps generalizing w with
  | nil => rfl
  | cons ep eps ih => exact (ih _).trans (ejections_isEjected env w ep)

theorem ejections_enforceRoll (env : Env) (w : World) (enforcing : Nat) :
    (enforceRoll env w enforcing).2.ejections = w.ejections := by
  unfold enforceRoll
  split_ifs <;> rfl

theorem endpointsAt_flaggedAddrs (st : States) (eps : List Endpoint) :
    endpointsAt eps (flaggedAddrs st eps) = ejectedEndpoints st eps := by
  apply List.countP_congr
  intro ep hep
  have hmem : ep.addr ∈ (eps.map Endpoint.addr).toFinset :=
    List.mem_toFinset.mpr (List.mem_map_of_mem hep)
  simp [flaggedAddrs, Finset.mem_filter, List.mem_toFinset.mp hmem]

theorem countP_insert {f g : String → Bool} (ha : f a = false)
    (hg : ∀ b, g b = (decide (b = a) || f b)) (eps : List Endpoint) :
    eps.countP (fun ep => g ep.addr) =
      eps.countP (fun ep => f ep.addr) + endpointsAt eps {a} := by
  unfold endpointsAt
  induction eps with
  | nil => rfl
  | cons ep eps ih =>
    have hhead : (if g ep.addr = true then 1 else 0) = (if f ep.addr = true then 1 else 0) +
        if decide (ep.addr ∈ ({a} : Finset String)) = true then 1 else 0 := by
      rw [hg]
      by_cases hep : ep.addr = a
      · simp [hep, ha]
      · simp [hep]
    rw [List.countP_cons, List.countP_cons, List.countP_cons, ih, hhead]
    omega

theorem endpointsAt_of_absent (h : ∀ ep ∈ eps, ep.addr ≠ a) : endpointsAt eps {a} = 0 := by
  apply List.countP_eq_zero.mpr
  intro ep hep
  simpa using h ep hep

theorem ejectedEndpoints_eject {env : Env} {cfg : OutlierConfig} (hfits : CapFits p eps)
    {d : Detector} {n : Nat} (ha : isFlagged w.states a = false)
    (hn : ejectedEndpoints w.states eps ≤ n) (hroom : (n + 1) * 100 ≤ p * eps.length) :
    ejectedEndpoints (eject env cfg eps w a d).states eps * 100 ≤ p * eps.length := by
  by_cases hknown : (w.states a).isSome = true
  · have hflag := fun b => isFlagged_eject env cfg eps w a b d hknown
    have hadd : ejectedEndpoints (eject env cfg eps w a d).states eps =
        ejectedEndpoints w.states eps + endpointsAt eps {a} := countP_insert ha hflag eps
    rw [hadd]
    by_cases hep : ∃ ep ∈ eps, ep.addr = a
    · obtain ⟨ep, hep, rfl⟩ := hep
      rw [← endpointsAt_flaggedAddrs] at hn ⊢
      apply hfits _ ep hep
      · simp [flaggedAddrs, ha]
      · omega
    · rw [endpointsAt_of_absent (fun ep hmem heq => hep ⟨ep, hmem, heq⟩)]
      omega
  · have hnone : w.states a = none := by simpa using hknown
    have hsame : (eject env cfg eps w a d).states = w.states := by
      change Function.update w.states a ((w.states a).map _) = w.states
      rw [hnone, Option.map_none, ← hnone, Function.update_eq_self]
    rw [hsame]
    omega

section Calls

variable {p : Nat} {env : Env} {cfg : OutlierConfig} {eps : List Endpoint}

theorem capRespected_of_same {w v : World} (h : CapRespected p eps w)
    (hv : v.ejections = w.ejections) : CapRespected p eps v := by
  unfold CapRespected at h ⊢
  rw [hv]
  exact h

theorem capRespected_tryEject (hfits : CapFits p eps) (hp : cfg.maxEjectionPct = p) {w : World}
    (h : CapRespected p eps w) (a : String) (enforcing : Nat) (d : Detector) :
    CapRespected p eps (tryEject env cfg eps w a enforcing d).2 := by
  have hcount : (ejectedCount env (enforceRoll env w enforcing).2 eps).2.ejections =
      w.ejections := by
    rw [ejections_ejectedCount, ejections_enforceRoll]
  obtain (he | he) | he | ⟨hflag, hroom, he⟩ := tryEject_cases env cfg eps w a enforcing d
  · rw [he]
    exact h
  · rw [he]
    exact capRespected_of_same h (ejections_enforceRoll env w enforcing)
  · rw [he]
    exact capRespected_of_same h hcount
  · rw [hp] at hroom
    have hunflagged : isFlagged
        (ejectedCount env (enforceRoll env w enforcing).2 eps).2.states a = false := by
      rw [Bool.eq_false_iff]
      intro hset
      have hold := isFlagged_of_ejectedCount hset
      rw [states_enforceRoll, hflag] at hold
      cases hold
    rw [he]
    intro n hn
    rcases List.mem_append.mp hn with hn | hn
    · exact h n (hcount ▸ hn)
    · rw [List.mem_singleton.mp hn]
      exact ejectedEndpoints_eject (d := d) hfits hunflagged
        (ejectedEndpoints_le_count env eps _) hroom

theorem preserved_capRespected (hfits : CapFits p eps) (hp : cfg.maxEjectionPct = p) :
    Preserved env cfg eps fun w => CapRespected p eps w ∧
      ∀ a, (w.states a).isSome = true → a ∈ eps.map Endpoint.addr where
  known h ha := h.2 _ ha
  modify := by
    intro w a f h _
    exact ⟨capRespected_of_same h.1 rfl, fun b hb => h.2 b (by rwa [isSome_modifyHost] at hb)⟩
  inc _ h := ⟨capRespected_of_same h.1 rfl, h.2⟩
  check ep h := ⟨capRespected_of_same h.1 (ejections_isEjected env _ ep), fun b hb =>
    h.2 b (by rwa [isSome_isEjected] at hb)⟩
  tryEject n d h _ := ⟨capRespected_tryEject hfits hp h.1 _ n d, fun b hb =>
    h.2 b (by rwa [isSome_tryEject] at hb)⟩

theorem mem_of_newStates {a : String} (h : (newStates eps a).isSome = true) :
    a ∈ eps.map Endpoint.addr := by
  unfold newStates at h
  split_ifs at h with hany
  · obtain ⟨ep, hep, ha⟩ := List.any_eq_true.mp hany
    exact List.mem_map.mpr ⟨ep, hep, by simpa using ha⟩
  · cases h

theorem capRespected_run (hfits : CapFits p eps) (hp : cfg.maxEjectionPct = p)
    (cs : List Call) : CapRespected p eps (run env cfg eps cs) := by
  have hP : Preserved env cfg eps fun w => CapRespected p eps w ∧
      ∀ a, (w.states a).isSome = true → a ∈ eps.map Endpoint.addr :=
    preserved_capRespected hfits hp
  have hstep : ∀ w c, (CapRespected p eps w ∧
      ∀ a, (w.states a).isSome = true → a ∈ eps.map Endpoint.addr) →
      CapRespected p eps (call env cfg eps w c) ∧
        ∀ a, ((call env cfg eps w c).states a).isSome = true → a ∈ eps.map Endpoint.addr := by
    intro w c h
    cases c with
    | record ep statusCode localOriginErr => exact hP.record h ep statusCode localOriginErr
    | sweep => exact hP.sweep h
  have hinit : CapRespected p eps { states := newStates eps } := fun n hn => by cases hn
  exact (Runs.invariant_of_run hstep cs _ ⟨hinit, fun _ ha => mem_of_newStates ha⟩).1

end Calls

/-- A clock that stands still. -/
def still : Env where
  clock _ := 0
  rolls _ := 0
  below _ _ _ := false

/-- One failure ejects. -/
def strict (p : Nat) : OutlierConfig where
  consecutive5xx := 1
  baseEjectionTime := 1
  maxEjectionPct := p

def downHost : HostHealth where
  ejected := true
  unejectAtNanos := 1
  consec5xx := 1
  intervalTotal := 1

theorem ejectedCount_still (hpend : ∀ b, isFlagged w.states b = true → w.states b = some downHost)
    (eps : List Endpoint) : (ejectedCount still w eps).1 = ejectedEndpoints w.states eps ∧
      (ejectedCount still w eps).2.states = w.states ∧
      (ejectedCount still w eps).2.ejections = w.ejections := by
  induction eps generalizing w with
  | nil => exact ⟨rfl, rfl, rfl⟩
  | cons ep eps ih =>
    have hcheck : (isEjected still true w ep).1 = isFlagged w.states ep.addr ∧
        (isEjected still true w ep).2.states = w.states ∧
        (isEjected still true w ep).2.ejections = w.ejections := by
      obtain ⟨hflag, he⟩ | ⟨hflag, hpast, -⟩ | ⟨hflag, -, he⟩ := isEjected_cases still true w ep
      · rw [he, hflag]
        exact ⟨rfl, rfl, rfl⟩
      · rw [deadlinePassed, hpend _ hflag] at hpast
        have hzero : decide (downHost.unejectAtNanos ≤ 0) = true := hpast
        exact absurd hzero (by decide)
      · rw [he, hflag]
        exact ⟨rfl, rfl, rfl⟩
    obtain ⟨hverdict, hstates, hlog⟩ := hcheck
    have hrest := ih (w := (isEjected still true w ep).2) (by rw [hstates]; exact hpend)
    refine ⟨?_, hrest.2.1.trans hstates, hrest.2.2.trans hlog⟩
    change (ejectedCount still (isEjected still true w ep).2 eps).1 +
      (isEjected still true w ep).1.toNat = _
    rw [hrest.1, hstates, hverdict, ejectedEndpoints, ejectedEndpoints, List.countP_cons]
    congr 1
    cases isFlagged w.states ep.addr <;> rfl

theorem modifyHost_states {h : HostHealth} (hh : w.states a = some h)
    (f : HostHealth → HostHealth) :
    (w.modifyHost a f).states = Function.update w.states a (some (f h)) := by
  simp only [World.modifyHost, hh, Option.map_some]

def failedOnce : HostHealth where
  consec5xx := 1
  intervalTotal := 1

theorem record_500_eq (p : Nat) (eps : List Endpoint) (hfresh : w.states a = some {}) : ∃ u : World,
      u.states = Function.update w.states a (some failedOnce) ∧ u.ejections = w.ejections ∧
      record still (strict p) eps w ⟨a⟩ 500 false =
        (tryEject still (strict p) eps u a 100 .consecutive5xx).2 := by
  have hcheck : isEjected still true w ⟨a⟩ = (false, w) := by
    have hflag : isFlagged w.states a = false := by rw [isFlagged, hfresh]; rfl
    simp only [isEjected, hflag, Bool.false_eq_true, if_false]
  -- the three changes of the host before the streak is compared
  have h1 := modifyHost_states hfresh fun h => { h with intervalTotal := h.intervalTotal + 1 }
  generalize hw1 : (w.modifyHost a fun h => { h with intervalTotal := h.intervalTotal + 1 }) = w1
    at h1
  have h2 := modifyHost_states (w := w1) (a := a) (by rw [h1, Function.update_self])
    fun h => { h with consecGw := 0 }
  generalize hw2 : (w1.modifyHost a fun h => { h with consecGw := 0 }) = w2 at h2
  have h3 := modifyHost_states (w := w2) (a := a) (by rw [h2, Function.update_self])
    fun h => { h with consec5xx := h.consec5xx + 1 }
  generalize hw3 : (w2.modifyHost a fun h => { h with consec5xx := h.consec5xx + 1 }) = w3 at h3
  have hstates : w3.states = Function.update w.states a (some failedOnce) := by
    rw [h3, h2, h1, Function.update_idem, Function.update_idem]
    rfl
  refine ⟨w3.inc (.ejectionsDetected .consecutive5xx), hstates, ?_, ?_⟩
  · rw [← hw3, ← hw2, ← hw1]
    rfl
  · have hreached : ((w3.states a).any fun h => decide (h.consec5xx < 1)) = false := by
      rw [hstates, Function.update_self]
      rfl
    have hbump : bump5xx still (strict p) eps w2 a =
        tryEject still (strict p) eps (w3.inc (.ejectionsDetected .consecutive5xx)) a 100
          .consecutive5xx := by
      simp only [bump5xx, bumpStreak, strict, hw3, if_true]
      refine if_neg ?_
      rw [Bool.not_eq_true]
      exact hreached
    rw [← hbump]
    simp [record, hfresh, hcheck, countRequest, resetLocalOrigin, recordExternal5xx, strict, hw1,
      hw2]

theorem record_500 (hfresh : w.states a = some {})
    (hpend : ∀ b, isFlagged w.states b = true → w.states b = some downHost)
    (hroom : (ejectedEndpoints w.states eps + 1) * 100 ≤ p * eps.length) :
    (record still (strict p) eps w ⟨a⟩ 500 false).states =
      Function.update w.states a (some downHost) ∧
    (record still (strict p) eps w ⟨a⟩ 500 false).ejections =
      w.ejections ++ [ejectedEndpoints (Function.update w.states a (some downHost)) eps] := by
  obtain ⟨u, hu, hlog, he⟩ := record_500_eq p eps hfresh
  have hsame : ∀ b, isFlagged u.states b = isFlagged w.states b := by
    intro b
    rw [hu, isFlagged, isFlagged, Function.update_apply]
    split_ifs with hb
    · rw [hb, hfresh]
      rfl
    · rfl
  have hupend : ∀ b, isFlagged u.states b = true → u.states b = some downHost := by
    intro b hb
    have hold := hpend b (by rw [← hsame]; exact hb)
    have hba : b ≠ a := by
      rintro rfl
      rw [hfresh] at hold
      exact absurd (congrArg (Option.map HostHealth.ejected) hold) (by decide)
    rw [hu, Function.update_of_ne hba, hold]
  obtain ⟨hcount, hcstates, hclog⟩ := ejectedCount_still hupend eps
  have hueps : ejectedEndpoints u.states eps = ejectedEndpoints w.states eps := by
    simp only [ejectedEndpoints, hsame]
  have hflag : isFlagged u.states a = false := by
    rw [hsame, isFlagged, hfresh]
    rfl
  have hnot : ¬ (eps.length = 0 ∨
      (strict p).maxEjectionPct * eps.length < ((ejectedCount still u eps).1 + 1) * 100) := by
    rw [hcount, hueps]
    change ¬ (eps.length = 0 ∨ p * eps.length < _)
    rintro (hz | hlt)
    · rw [hz] at hroom
      omega
    · omega
  have htry : tryEject still (strict p) eps u a 100 .consecutive5xx =
      (true, eject still (strict p) eps (ejectedCount still u eps).2 a .consecutive5xx) := by
    simp only [tryEject, hflag, enforceRoll, Bool.false_eq_true, if_false, le_refl, if_true,
      if_neg hnot]
  have hstates : (eject still (strict p) eps (ejectedCount still u eps).2 a
      .consecutive5xx).states = Function.update w.states a (some downHost) := by
    change Function.update (ejectedCount still u eps).2.states a
      (((ejectedCount still u eps).2.states a).map _) = _
    rw [hcstates, hu, Function.update_self, Function.update_idem]
    rfl
  rw [he, htry]
  refine ⟨hstates, ?_⟩
  change (ejectedCount still u eps).2.ejections ++ [ejectedEndpoints (eject still (strict p) eps
    (ejectedCount still u eps).2 a .consecutive5xx).states eps] = _
  rw [hstates, hclog, hlog]

def Down (eps : List Endpoint) (L : List String) (w : World) : Prop :=
  ∀ b, w.states b = if b ∈ L then some downHost else newStates eps b

theorem isFlagged_down {L : List String} (h : Down eps L w) (b : String) :
    isFlagged w.states b = decide (b ∈ L) := by
  by_cases hb : b ∈ L
  · rw [isFlagged, h b, if_pos hb, decide_eq_true hb]
    rfl
  · rw [isFlagged, h b, if_neg hb, decide_eq_false hb]
    exact isFlagged_newStates eps b

theorem ejectedEndpoints_down {L : List String} (h : Down eps L w) :
    ejectedEndpoints w.states eps = endpointsAt eps L.toFinset := by
  apply List.countP_congr
  intro ep _
  rw [isFlagged_down h]
  simp

theorem newStates_of_mem {ep : Endpoint} (hep : ep ∈ eps) : newStates eps ep.addr = some {} := by
  have hany : eps.any (fun e => e.addr = ep.addr) = true :=
    List.any_eq_true.mpr ⟨ep, hep, by simp⟩
  simp [newStates, hany]

theorem down_record {L : List String} (h : Down eps L w) {ep : Endpoint} (hep : ep ∈ eps)
    (hL : ep.addr ∉ L) (hroom : (endpointsAt eps L.toFinset + 1) * 100 ≤ p * eps.length) :
    Down eps (ep.addr :: L) (record still (strict p) eps w ep 500 false) ∧
    endpointsAt eps (ep.addr :: L).toFinset ∈
      (record still (strict p) eps w ep 500 false).ejections := by
  have hfresh : w.states ep.addr = some {} := by
    rw [h, if_neg hL, newStates_of_mem hep]
  have hpend : ∀ b, isFlagged w.states b = true → w.states b = some downHost := by
    intro b hb
    rw [isFlagged_down h] at hb
    rw [h b, if_pos (of_decide_eq_true hb)]
  rw [← ejectedEndpoints_down h] at hroom
  obtain ⟨hstates, hlog⟩ := record_500 hfresh hpend hroom
  have hdown : Down eps (ep.addr :: L) (record still (strict p) eps w ep 500 false) := by
    intro b
    rw [hstates, Function.update_apply, h b]
    by_cases hb : b = ep.addr
    · simp [hb]
    · simp [hb]
  refine ⟨hdown, ?_⟩
  rw [← ejectedEndpoints_down hdown, hstates, hlog]
  exact List.mem_append_right _ List.mem_cons_self

theorem endpointsAt_mono {S T : Finset String} (h : S ⊆ T) :
    endpointsAt eps S ≤ endpointsAt eps T := by
  apply List.countP_mono_left
  intro ep _ hmem
  exact decide_eq_true (h (of_decide_eq_true hmem))

theorem down_run (l : List Endpoint) (hl : ∀ ep ∈ l, ep ∈ eps)
    (hnodup : (l.map Endpoint.addr).Nodup)
    (hroom : (endpointsAt eps (l.map Endpoint.addr).toFinset + 1) * 100 ≤ p * eps.length) :
    Down eps (l.map Endpoint.addr) (run still (strict p) eps
      (l.reverse.map fun ep => .record ep 500 false)) := by
  induction l with
  | nil =>
    intro b
    simp [run]
  | cons ep l ih =>
    have hnotmem : ep.addr ∉ l.map Endpoint.addr := (List.nodup_cons.mp hnodup).1
    have hsub : (l.map Endpoint.addr).toFinset ⊆ ((ep :: l).map Endpoint.addr).toFinset := by
      intro b hb
      rw [List.mem_toFinset] at hb ⊢
      exact List.mem_cons_of_mem _ hb
    have hle : endpointsAt eps (l.map Endpoint.addr).toFinset ≤
        endpointsAt eps ((ep :: l).map Endpoint.addr).toFinset := endpointsAt_mono hsub
    have hroom' : (endpointsAt eps (l.map Endpoint.addr).toFinset + 1) * 100 ≤
        p * eps.length := by omega
    have hprev := ih (fun e he => hl e (List.mem_cons_of_mem ep he))
      (List.nodup_cons.mp hnodup).2 hroom'
    have hstep := (down_record hprev (hl ep List.mem_cons_self) hnotmem hroom').1
    have hrun : run still (strict p) eps ((ep :: l).reverse.map fun e => .record e 500 false) =
        record still (strict p) eps (run still (strict p) eps
          (l.reverse.map fun e => .record e 500 false)) ep 500 false := by
      simp only [run, List.reverse_cons, List.map_append, List.foldl_append]
      rfl
    rw [hrun]
    exact hstep

theorem addr_injective : Function.Injective Endpoint.addr := by
  rintro ⟨a⟩ ⟨b⟩ rfl
  rfl

/-- The cap is respected by every configuration with this percentage, in every run and on every
clock, exactly if the copies of an address never overrun what is left under the cap. -/
theorem capRespected_iff (p : Nat) (eps : List Endpoint) :
    (∀ env cfg cs, cfg.maxEjectionPct = p → CapRespected p eps (run env cfg eps cs)) ↔
      CapFits p eps := by
  constructor
  · intro h S ep hep hS hroom
    -- one endpoint for every address of `S`
    let l := eps.dedup.filter fun e => decide (e.addr ∈ S)
    have hl : ∀ e ∈ l, e ∈ eps := fun e he => List.mem_dedup.mp (List.mem_filter.mp he).1
    have hnodup : (l.map Endpoint.addr).Nodup :=
      (List.nodup_dedup eps).filter _ |>.map addr_injective
    have hmem : ∀ e ∈ eps, e.addr ∈ l.map Endpoint.addr ↔ e.addr ∈ S := by
      intro e he
      constructor
      · intro hin
        obtain ⟨e', he', heq⟩ := List.mem_map.mp hin
        rw [← heq]
        exact of_decide_eq_true (List.mem_filter.mp he').2
      · intro hin
        exact List.mem_map_of_mem
          (List.mem_filter.mpr ⟨List.mem_dedup.mpr he, decide_eq_true hin⟩)
    have hsame : endpointsAt eps (l.map Endpoint.addr).toFinset = endpointsAt eps S := by
      apply List.countP_congr
      intro e he
      simp only [List.mem_toFinset, hmem e he]
    have hnotmem : ep.addr ∉ l.map Endpoint.addr := fun hin => hS ((hmem ep hep).mp hin)
    rw [← hsame] at hroom ⊢
    have hdown := down_run l hl hnodup hroom
    have hlast := (down_record hdown hep hnotmem hroom).2
    have hinsert : endpointsAt eps (ep.addr :: l.map Endpoint.addr).toFinset =
        endpointsAt eps (l.map Endpoint.addr).toFinset + endpointsAt eps {ep.addr} := by
      refine countP_insert (f := fun b => decide (b ∈ (l.map Endpoint.addr).toFinset))
        (g := fun b => decide (b ∈ (ep.addr :: l.map Endpoint.addr).toFinset)) ?_ ?_ eps
      · exact decide_eq_false (by rwa [List.mem_toFinset])
      · intro b
        simp
    rw [← hinsert]
    have hrun := h still (strict p) ((l.reverse.map fun e => .record e 500 false) ++
      [.record ep 500 false]) rfl
    apply hrun
    simpa [run, List.foldl_append, call] using hlast
  · intro hfits env cfg cs hp
    exact capRespected_run hfits hp cs

/-- Two of three endpoints share an address: at a cap of 34 percent one ejection takes two out. -/
theorem not_capRespected :
    ¬ CapRespected 34 [⟨"a"⟩, ⟨"a"⟩, ⟨"b"⟩]
      (run still (strict 34) [⟨"a"⟩, ⟨"a"⟩, ⟨"b"⟩] [.record ⟨"a"⟩ 500 false]) := by
  have hlog : (run still (strict 34) [⟨"a"⟩, ⟨"a"⟩, ⟨"b"⟩]
      [.record ⟨"a"⟩ 500 false]).ejections = [2] := by decide +kernel
  intro h
  exact absurd (h 2 (by rw [hlog]; exact List.mem_cons_self)) (by decide)

end EnvoyGo.Outlier

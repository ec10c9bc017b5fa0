import EnvoyGo.GoText
import EnvoyGo.ProbeFill
import Mathlib.Data.List.GetD
import Mathlib.Data.List.Sort
import Mathlib.Data.ZMod.Basic
import Mathlib.FieldTheory.Finite.Basic
import Mathlib.Tactic.NormNum.Prime

/-!
The Maglev table of a cluster: endpoints sorted by address, each with a walk over the slots that is
drawn from two hashes of its address, and the loop that fills the table.  The hashes are parameters.
-/

namespace EnvoyGo.Maglev

open ProbeFill

/-- The trial division loop; `d` grows with every turn, so `n` turns are enough. -/
def trialDivision (n : ℕ) : ℕ → ℕ → Bool
  | 0, _ => true
  | fuel + 1, d =>
    if d * d ≤ n then
      if n % d = 0 then false else trialDivision n fuel (d + 2)
    else true

def isPrime (n : ℕ) : Bool :=
  if n < 2 then false
  else if n % 2 = 0 then n == 2
  else trialDivision n n 3

def defaultMaglevTableSize : ℕ := 65537

def maglevTableSizeCap : ℕ := 5000011

/-- The configuration is absent or has a `table_size`, which may be unset. -/
def parseMaglevLbConfig (config : Option (Option ℕ)) (name : String) : Except String ℕ :=
  match config with
  | some (some ts) =>
    if ts > maglevTableSizeCap then
      .error ("cluster: " ++ Text.quote name ++
        ": maglev_lb_config.table_size: value must be less than or equal to 5000011")
    else if !isPrime ts then
      .error ("cluster: " ++ Text.quote name ++ ": maglev_lb_config.table_size (" ++
        Nat.repr ts ++ ") must be a prime number")
    else .ok ts
  | _ => .ok defaultMaglevTableSize

/-- `xxHash64` and `xxHash64Seed`. -/
structure Hashes where
  xxHash64 : String → UInt64
  xxHash64Seed : String → UInt64 → UInt64

def order (addrs : List String) : List ℕ :=
  (List.range addrs.length).mergeSort (fun a b => decide (addrs.getD a "" ≤ addrs.getD b ""))

/-- The addresses in build order. -/
def keys (addrs : List String) : List String := (order addrs).map (fun i => addrs.getD i "")

def offset (h : Hashes) (m : ℕ) (key : String) : ℕ := (h.xxHash64 key).toNat % m

def skip (h : Hashes) (m : ℕ) (key : String) : ℕ := (h.xxHash64Seed key 1).toNat % (m - 1) + 1

def uint64 (x : ℕ) : ℕ := x % 2^64

def slot (h : Hashes) (m : ℕ) (addrs : List String) (k next : ℕ) : ℕ :=
  let key := (keys addrs).getD k ""
  uint64 (offset h m key + uint64 (skip h m key * next)) % m

def populate (h : Hashes) (m : ℕ) (addrs : List String) (t : ℕ) : Fill :=
  run addrs.length m (slot h m addrs) t

def table (addrs : List String) (s : Fill) (c : ℕ) : Option ℕ :=
  (s.owner c).map (fun k => (order addrs).getD k 0)

def owned (m : ℕ) (addrs : List String) (s : Fill) (i : ℕ) : ℕ :=
  ((Finset.range m).filter (fun c => table addrs s c = some i)).card

/-- What the loop is to build. -/
structure Populated (h : Hashes) (m : ℕ) (addrs : List String) : Prop where
  terminates : ∃ t, (populate h m addrs t).filled = m
  valid : ∀ t, (populate h m addrs t).filled = m → ∀ c < m, ∃ i < addrs.length,
    table addrs (populate h m addrs t) c = some i
  shares : ∀ t, (populate h m addrs t).filled = m → ∀ i < addrs.length,
    owned m addrs (populate h m addrs t) i = m / addrs.length ∨
    owned m addrs (populate h m addrs t) i = (m + addrs.length - 1) / addrs.length
  products : ∀ t, ∀ k < addrs.length,
    offset h m ((keys addrs).getD k "") +
      skip h m ((keys addrs).getD k "") * (populate h m addrs t).next k < 2^64
  permuted : ∀ addrs', addrs'.Perm addrs → ∀ t t', (populate h m addrs t).filled = m →
    (populate h m addrs' t').filled = m → ∀ c < m,
    (table addrs' (populate h m addrs' t') c).map (fun i => addrs'.getD i "") =
      (table addrs (populate h m addrs t) c).map (fun i => addrs.getD i "")

theorem not_dvd_of_trialDivision {n fuel d : ℕ} (h : trialDivision n fuel d = true)
    (hfuel : n < d + 2 * fuel) {p : ℕ} (hd : d ≤ p) (hodd : p % 2 = d % 2) (hp : p * p ≤ n) :
    ¬ p ∣ n := by
  induction fuel generalizing d with
  | zero =>
    have hle : p ≤ p * p := Nat.le_mul_self p
    omega
  | succ fuel ih =>
    rw [trialDivision] at h
    have hdd : d * d ≤ n := (Nat.mul_self_le_mul_self hd).trans hp
    rw [if_pos hdd] at h
    split_ifs at h with hmod
    obtain rfl | hlt := hd.eq_or_lt
    · exact fun hdvd => hmod (Nat.mod_eq_zero_of_dvd hdvd)
    · exact ih h (by omega) (by omega) (by omega)

theorem prime_of_isPrime {n : ℕ} (h : isPrime n = true) : n.Prime := by
  unfold isPrime at h
  split_ifs at h with hsmall heven
  · rw [beq_iff_eq.mp h]
    exact Nat.prime_two
  · by_contra hnot
    have hdvd := Nat.minFac_dvd n
    have hsq : n.minFac * n.minFac ≤ n := by
      rw [← pow_two]
      exact Nat.minFac_sq_le_self (by omega) hnot
    have htwo := (Nat.minFac_prime (show n ≠ 1 by omega)).two_le
    have hodd : n.minFac % 2 = 1 := by
      by_contra heq
      have htwodvd : 2 ∣ n := (Nat.dvd_of_mod_eq_zero (by omega)).trans hdvd
      omega
    exact not_dvd_of_trialDivision h (by omega) (by omega) (by omega) hsq hdvd

structure TableSize (m : ℕ) : Prop where
  prime : m.Prime
  le : m ≤ 5000011

theorem tableSize_of_parse {config : Option (Option ℕ)} {name : String} {m : ℕ}
    (h : parseMaglevLbConfig config name = .ok m) : TableSize m := by
  have hdefault : TableSize defaultMaglevTableSize :=
    ⟨by norm_num [defaultMaglevTableSize], by decide⟩
  unfold parseMaglevLbConfig at h
  split at h
  · next ts =>
      split_ifs at h with hcap hprime
      cases h
      refine ⟨prime_of_isPrime ?_, not_lt.mp hcap⟩
      rwa [Bool.not_eq_true', Bool.not_eq_false] at hprime
  · cases h
    exact hdefault

section Walks

variable {h : Hashes} {m : ℕ} {addrs : List String}

theorem skip_range (hm : TableSize m) (key : String) : 0 < skip h m key ∧ skip h m key < m := by
  have htwo := hm.prime.two_le
  have hlt := Nat.mod_lt (h.xxHash64Seed key 1).toNat (show 0 < m - 1 by omega)
  unfold skip
  omega

theorem offset_lt (hm : TableSize m) (key : String) : offset h m key < m :=
  Nat.mod_lt _ hm.prime.pos

theorem probe_lt (hm : TableSize m) (key : String) {next : ℕ} (hnext : next ≤ m) :
    offset h m key + skip h m key * next < 2^64 := by
  have hoffset := offset_lt (h := h) hm key
  have hskip := (skip_range (h := h) hm key).2
  have hm' := hm.le
  have hproduct : skip h m key * next ≤ 5000011 * 5000011 :=
    Nat.mul_le_mul (by omega) (by omega)
  omega

theorem slot_eq (hm : TableSize m) (k : ℕ) {next : ℕ} (hnext : next ≤ m) :
    slot h m addrs k next = (offset h m ((keys addrs).getD k "") +
      skip h m ((keys addrs).getD k "") * next) % m := by
  have hsum := probe_lt (h := h) hm ((keys addrs).getD k "") hnext
  have hproduct := lt_of_le_of_lt (Nat.le_add_left _ _) hsum
  unfold slot uint64
  simp only []
  rw [Nat.mod_eq_of_lt hproduct, Nat.mod_eq_of_lt hsum]

theorem exists_residue (hm : m.Prime) {step : ℕ} (hstep : 0 < step ∧ step < m) (start : ℕ) {c : ℕ}
    (hc : c < m) : ∃ j < m, (start + step * j) % m = c := by
  have : Fact m.Prime := ⟨hm⟩
  have hne : (step : ZMod m) ≠ 0 := by
    rw [Ne, ZMod.natCast_eq_zero_iff]
    exact Nat.not_dvd_of_pos_of_lt hstep.1 hstep.2
  refine ⟨(((c : ZMod m) - start) * (step : ZMod m)⁻¹).val, ZMod.val_lt _, ?_⟩
  have hcast : ((start + step * (((c : ZMod m) - start) * (step : ZMod m)⁻¹).val : ℕ) : ZMod m) =
      (c : ℕ) := by
    rw [Nat.cast_add, Nat.cast_mul, ZMod.natCast_zmod_val, mul_comm, mul_assoc,
      inv_mul_cancel₀ hne, mul_one, add_sub_cancel]
  rw [ZMod.natCast_eq_natCast_iff'] at hcast
  rw [hcast, Nat.mod_eq_of_lt hc]

theorem sweeps_slot (hm : TableSize m) (hne : addrs ≠ []) :
    Sweeps addrs.length m (slot h m addrs) where
  pos := List.length_pos_iff.mpr hne
  lt := fun _ _ _ _ => Nat.mod_lt _ hm.prime.pos
  hits := by
    intro k _ c hc
    have hskip := skip_range (h := h) hm ((keys addrs).getD k "")
    obtain ⟨j, hj, hres⟩ := exists_residue hm.prime hskip (offset h m ((keys addrs).getD k "")) hc
    exact ⟨j, hj, (slot_eq hm k (le_of_lt hj)).trans hres⟩

end Walks

section Order

variable {addrs addrs' : List String}

theorem order_perm (addrs : List String) : (order addrs).Perm (List.range addrs.length) :=
  List.mergeSort_perm _ _

theorem length_order (addrs : List String) : (order addrs).length = addrs.length :=
  (order_perm addrs).length_eq.trans List.length_range

theorem order_nodup (addrs : List String) : (order addrs).Nodup :=
  (order_perm addrs).nodup_iff.mpr List.nodup_range

theorem keys_perm (addrs : List String) : (keys addrs).Perm addrs := by
  have hrange : (List.range addrs.length).map (fun i => addrs.getD i "") = addrs := by
    refine List.ext_getElem (by simp) ?_
    intro i hi hi'
    simp [hi']
  have hmap := (order_perm addrs).map (fun i => addrs.getD i "")
  rwa [hrange] at hmap

theorem keys_sorted (addrs : List String) : (keys addrs).Pairwise (· ≤ ·) := by
  rw [keys, List.pairwise_map]
  refine (List.pairwise_mergeSort ?_ ?_ _).imp (fun hle => of_decide_eq_true hle)
  · intro a b c hab hbc
    exact decide_eq_true ((of_decide_eq_true hab).trans (of_decide_eq_true hbc))
  · intro a b
    rw [Bool.or_eq_true, decide_eq_true_eq, decide_eq_true_eq]
    exact le_total _ _

theorem keys_eq_of_perm (hperm : addrs'.Perm addrs) : keys addrs' = keys addrs :=
  List.Perm.eq_of_pairwise' (keys_sorted addrs') (keys_sorted addrs)
    ((keys_perm addrs').trans (hperm.trans (keys_perm addrs).symm))

theorem getD_keys {k : ℕ} (hk : k < addrs.length) :
    (keys addrs).getD k "" = addrs.getD ((order addrs).getD k 0) "" := by
  have horder : k < (order addrs).length := by rwa [length_order]
  simp [keys, horder]

theorem order_lt {k : ℕ} (hk : k < addrs.length) : (order addrs).getD k 0 < addrs.length := by
  have horder : k < (order addrs).length := by rwa [length_order]
  rw [List.getD_eq_getElem _ _ horder]
  exact List.mem_range.mp ((order_perm addrs).mem_iff.mp (List.getElem_mem horder))

theorem exists_place {i : ℕ} (hi : i < addrs.length) :
    ∃ k < addrs.length, (order addrs).getD k 0 = i ∧
      ∀ j < addrs.length, (order addrs).getD j 0 = i → j = k := by
  have hmem : i ∈ order addrs := (order_perm addrs).mem_iff.mpr (List.mem_range.mpr hi)
  obtain ⟨k, hk, hget⟩ := List.getElem_of_mem hmem
  refine ⟨k, by rwa [← length_order], by rw [List.getD_eq_getElem _ _ hk, hget], ?_⟩
  intro j hj hji
  have horder : j < (order addrs).length := by rwa [length_order]
  rw [List.getD_eq_getElem _ _ horder, ← hget] at hji
  exact (List.Nodup.getElem_inj_iff (order_nodup addrs)).mp hji

end Order

section Table

variable {h : Hashes} {m : ℕ} {addrs addrs' : List String} {s : Fill}

theorem table_eq_iff (hs : Filling addrs.length m (slot h m addrs) s) {i k : ℕ}
    (hki : (order addrs).getD k 0 = i)
    (hplace : ∀ j < addrs.length, (order addrs).getD j 0 = i → j = k) (c : ℕ) :
    table addrs s c = some i ↔ s.owner c = some k := by
  constructor
  · intro htable
    obtain ⟨j, howner, hji⟩ := Option.map_eq_some_iff.mp htable
    rw [howner, hplace j (hs.owner_lt c j howner) hji]
  · intro howner
    rw [table, howner, Option.map_some, hki]

theorem owned_of_full (hs : Filling addrs.length m (slot h m addrs) s) (hfull : s.filled = m)
    {i : ℕ} (hi : i < addrs.length) :
    owned m addrs s i = m / addrs.length ∨
      owned m addrs s i = (m + addrs.length - 1) / addrs.length := by
  obtain ⟨k, hk, hki, hplace⟩ := exists_place hi
  have hcount : owned m addrs s i = s.count k := by
    have hcard := hs.owned k
    rw [Tally.tally_one_eq_card] at hcard
    rw [owned, Finset.filter_congr (fun c _ => table_eq_iff hs hki hplace c)]
    exact_mod_cast hcard
  rw [hcount]
  exact hs.count_of_full hfull hk

theorem address_of_owner (hs : Filling addrs.length m (slot h m addrs) s) (c : ℕ) :
    (table addrs s c).map (fun i => addrs.getD i "") =
      (s.owner c).map (fun k => (keys addrs).getD k "") := by
  rw [table, Option.map_map]
  cases howner : s.owner c with
  | none => rfl
  | some k => exact congrArg some (getD_keys (hs.owner_lt c k howner)).symm

theorem populate_eq_of_perm (h : Hashes) (m : ℕ) (hperm : addrs'.Perm addrs) (t : ℕ) :
    populate h m addrs' t = populate h m addrs t := by
  have hslot : slot h m addrs' = slot h m addrs := by
    unfold slot
    rw [keys_eq_of_perm hperm]
  rw [populate, populate, hslot, hperm.length_eq]

/-- Every accepted table size and every cluster with an endpoint. -/
theorem populated_of_parse (h : Hashes) (hne : addrs ≠ []) {config : Option (Option ℕ)}
    {name : String} (hparse : parseMaglevLbConfig config name = .ok m) : Populated h m addrs := by
  have hm := tableSize_of_parse hparse
  have hsweeps := sweeps_slot (h := h) hm hne
  have hfilling : ∀ t, Filling addrs.length m (slot h m addrs) (populate h m addrs t) :=
    filling_run hsweeps
  refine ⟨⟨addrs.length * m + 1, full_run hsweeps (Nat.lt_succ_self _)⟩, ?_, ?_, ?_, ?_⟩
  · intro t hfull c hc
    obtain ⟨k, hk, howner⟩ := (hfilling t).owner_of_full hfull hc
    refine ⟨(order addrs).getD k 0, order_lt hk, ?_⟩
    rw [table, howner]
    rfl
  · intro t hfull i hi
    exact owned_of_full (hfilling t) hfull hi
  · intro t k hk
    exact probe_lt hm _ ((hfilling t).next_le k hk)
  · intro addrs' hperm t t' hfull hfull' c _
    rw [populate_eq_of_perm h m hperm] at hfull' ⊢
    have hsame : populate h m addrs t' = populate h m addrs t := run_eq_of_full hfull hfull'
    have hfilling' : Filling addrs'.length m (slot h m addrs') (populate h m addrs t) := by
      have hne' : addrs' ≠ [] := by
        rintro rfl
        exact hne hperm.nil_eq.symm
      have hrun : Filling addrs'.length m (slot h m addrs') (populate h m addrs' t) :=
        filling_run (sweeps_slot hm hne') t
      rwa [populate_eq_of_perm h m hperm] at hrun
    rw [hsame, address_of_owner hfilling' c, address_of_owner (hfilling t) c,
      keys_eq_of_perm hperm]

end Table

/-- Hashes that send every address to the same walk. -/
def constantHashes : Hashes := ⟨fun _ => 0, fun _ _ => 0⟩

theorem populated_threeOfFive : Populated constantHashes 5 ["b:1", "a:1", "c:1"] :=
  populated_of_parse constantHashes (List.cons_ne_nil _ _)
    (show parseMaglevLbConfig (some (some 5)) "c" = .ok 5 by decide)

end EnvoyGo.Maglev

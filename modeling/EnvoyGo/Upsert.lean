import Mathlib.Data.List.Perm.Basic
import Mathlib.Data.List.Nodup

/-!
A list of groups under keys: what a map of groups that are opened on first use holds, in the order
in which they were opened.
-/

namespace EnvoyGo.Groups

variable {G κ β : Type} [DecidableEq κ] (key : G → κ)

def upsert (k : κ) (fresh : G) (push : G → G) : List G → List G
  | [] => [fresh]
  | g :: gs => if key g = k then push g :: gs else g :: upsert k fresh push gs

variable {k : κ} {fresh : G} {push : G → G}

theorem keys_upsert_of_mem (hpush : ∀ g, key (push g) = key g) (gs : List G)
    (hk : k ∈ gs.map key) : (upsert key k fresh push gs).map key = gs.map key := by
  induction gs with
  | nil => cases hk
  | cons g gs ih =>
    rw [upsert]
    by_cases hg : key g = k
    · rw [if_pos hg, List.map_cons, List.map_cons, hpush]
    · have hrest : k ∈ gs.map key := by
        rcases List.mem_cons.mp hk with h | h
        · exact absurd h.symm hg
        · exact h
      rw [if_neg hg, List.map_cons, List.map_cons, ih hrest]

theorem keys_upsert_of_notMem (hfresh : key fresh = k) (gs : List G) (hk : k ∉ gs.map key) :
    (upsert key k fresh push gs).map key = gs.map key ++ [k] := by
  induction gs with
  | nil => rw [upsert, List.map_singleton, hfresh, List.map_nil, List.nil_append]
  | cons g gs ih =>
    have hg : key g ≠ k := fun h => hk (List.mem_cons.mpr (Or.inl h.symm))
    have hrest : k ∉ gs.map key := fun h => hk (List.mem_cons_of_mem _ h)
    rw [upsert, if_neg hg, List.map_cons, List.map_cons, ih hrest, List.cons_append]

theorem nodup_keys_upsert (hfresh : key fresh = k) (hpush : ∀ g, key (push g) = key g)
    {gs : List G} (hgs : (gs.map key).Nodup) :
    ((upsert key k fresh push gs).map key).Nodup := by
  by_cases hk : k ∈ gs.map key
  · rw [keys_upsert_of_mem key hpush gs hk]
    exact hgs
  · rw [keys_upsert_of_notMem key hfresh gs hk]
    exact (List.nodup_append_comm.mp (List.nodup_cons.mpr ⟨hk, hgs⟩))

theorem flatMap_upsert_perm {items : G → List β} {b : β} (hfresh : items fresh = [b])
    (hpush : ∀ g, key g = k → items (push g) = items g ++ [b]) (gs : List G) :
    ((upsert key k fresh push gs).flatMap items).Perm (gs.flatMap items ++ [b]) := by
  induction gs with
  | nil => rw [upsert, List.flatMap_singleton, hfresh, List.flatMap_nil, List.nil_append]
  | cons g gs ih =>
    rw [upsert]
    by_cases hg : key g = k
    · rw [if_pos hg, List.flatMap_cons, List.flatMap_cons, hpush g hg, List.append_assoc,
        List.append_assoc]
      exact (List.perm_append_comm).append_left (items g)
    · rw [if_neg hg, List.flatMap_cons, List.flatMap_cons, List.append_assoc]
      exact ih.append_left (items g)

theorem forall_upsert {P : G → Prop} (hfresh : P fresh) (hpush : ∀ g, key g = k → P g → P (push g))
    {gs : List G} (hgs : ∀ g ∈ gs, P g) : ∀ g ∈ upsert key k fresh push gs, P g := by
  induction gs with
  | nil =>
    intro g hg
    rw [List.mem_singleton.mp hg]
    exact hfresh
  | cons a gs ih =>
    have ha := hgs a List.mem_cons_self
    have hrest := fun g hg => hgs g (List.mem_cons_of_mem a hg)
    intro g hg
    rw [upsert] at hg
    by_cases hkey : key a = k
    · rw [if_pos hkey] at hg
      rcases List.mem_cons.mp hg with rfl | hg
      · exact hpush a hkey ha
      · exact hrest g hg
    · rw [if_neg hkey] at hg
      rcases List.mem_cons.mp hg with rfl | hg
      · exact ha
      · exact ih hrest g hg

end EnvoyGo.Groups

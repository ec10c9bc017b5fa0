import Mathlib.Data.List.Nodup
import Mathlib.Logic.Function.Basic

/-!
Queues kept one per key, against the key under which each member is filed.  Nothing here is
about a particular kind of member.
-/

namespace EnvoyGo.KeyedQueue

variable {κ ι : Type} [DecidableEq ι]

structure Indexed (l : κ → List ι) (key : ι → Option κ) : Prop where
  mem_iff : ∀ a i, i ∈ l a ↔ key i = some a
  nodup : ∀ a, (l a).Nodup

namespace Indexed

variable {l : κ → List ι} {key : ι → Option κ}

omit [DecidableEq ι] in
theorem congr (h : Indexed l key) {key' : ι → Option κ} (hk : ∀ i, key' i = key i) :
    Indexed l key' := by
  rw [funext hk]
  exact h

theorem keep (h : Indexed l key) {i : ι} {x : Option κ} (hx : x = key i) :
    Indexed l (Function.update key i x) := by
  rw [hx, Function.update_eq_self]
  exact h

variable [DecidableEq κ]

theorem push (h : Indexed l key) {i : ι} {a : κ} (hi : key i = none) :
    Indexed (Function.update l a (l a ++ [i])) (Function.update key i (some a)) := by
  have hout : ∀ b, i ∉ l b := by
    intro b hb
    rw [h.mem_iff, hi] at hb
    exact absurd hb (by simp)
  constructor
  · intro b j
    rw [Function.update_apply, Function.update_apply]
    have hj := h.mem_iff b j
    have hib := hout b
    split_ifs with hb hji hji
    · simp [hb, hji]
    · subst hb
      simp [hji, hj]
    · subst hji
      simp [hib, Ne.symm hb]
    · exact hj
  · intro b
    rw [Function.update_apply]
    split_ifs with hb
    · exact List.nodup_append_comm.mp (List.nodup_cons.mpr ⟨hout a, h.nodup a⟩)
    · exact h.nodup b

theorem drop (h : Indexed l key) {i : ι} {a : κ} (hi : key i = some a) :
    Indexed (Function.update l a ((l a).erase i)) (Function.update key i none) := by
  constructor
  · intro b j
    rw [Function.update_apply, Function.update_apply]
    have hj := h.mem_iff b j
    split_ifs with hb hji hji
    · subst hb hji
      simp [(h.nodup b).mem_erase_iff]
    · subst hb
      rw [(h.nodup b).mem_erase_iff, hj]
      simp [hji]
    · subst hji
      rw [hj, hi]
      simp [Ne.symm hb]
    · exact hj
  · intro b
    rw [Function.update_apply]
    split_ifs with hb
    · exact (h.nodup a).erase i
    · exact h.nodup b

theorem pop (h : Indexed l key) {w : ι} {q : List ι} {a : κ} (hw : l a = w :: q) :
    Indexed (Function.update l a q) (Function.update key w none) := by
  have hkey : key w = some a := (h.mem_iff a w).mp (by rw [hw]; exact List.mem_cons_self)
  have hdrop := h.drop hkey
  rwa [hw, List.erase_cons_head] at hdrop

end Indexed

end EnvoyGo.KeyedQueue

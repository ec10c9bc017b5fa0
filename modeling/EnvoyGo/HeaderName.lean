import Mathlib
import EnvoyGo.HTTPHeader

/-! Canonical header names: fixed points of the canonicalisation, equal up to case. -/

namespace EnvoyGo

theorem canonicalFold_idem (upper : Bool) (cs : List Char) :
    canonicalFold upper (canonicalFold upper cs) = canonicalFold upper cs := by
  induction cs generalizing upper with
  | nil => rfl
  | cons c cs ih =>
    cases upper with
    | true =>
      simp only [canonicalFold, if_true, Char.toUpper_toUpper_eq_toUpper]
      rw [ih]
    | false =>
      simp only [canonicalFold, Bool.false_eq_true, if_false, Char.toLower_toLower_eq_toLower]
      rw [ih]

theorem validHeaderFieldByte_toUpper (c : Char) (hc : validHeaderFieldByte c = true) :
    validHeaderFieldByte c.toUpper = true := by
  by_cases hl : c.isLower = true
  · have ha : c.toUpper.isAlpha = true := by simp [Char.isAlpha, hl]
    simp [validHeaderFieldByte, Char.isAlphanum, ha]
  · rwa [Char.toUpper_eq_of_not_isLower hl]

theorem validHeaderFieldByte_toLower (c : Char) (hc : validHeaderFieldByte c = true) :
    validHeaderFieldByte c.toLower = true := by
  by_cases hu : c.isUpper = true
  · have ha : c.toLower.isAlpha = true := by simp [Char.isAlpha, hu]
    simp [validHeaderFieldByte, Char.isAlphanum, ha]
  · rwa [Char.toLower_eq_of_not_isUpper hu]

theorem canonicalFold_valid (upper : Bool) (cs : List Char)
    (hcs : cs.all validHeaderFieldByte = true) :
    (canonicalFold upper cs).all validHeaderFieldByte = true := by
  induction cs generalizing upper with
  | nil => rfl
  | cons c cs ih =>
    simp only [List.all_cons, Bool.and_eq_true] at hcs
    simp only [canonicalFold, List.all_cons, Bool.and_eq_true]
    refine ⟨?_, ih _ hcs.2⟩
    cases upper with
    | true => exact validHeaderFieldByte_toUpper c hcs.1
    | false => exact validHeaderFieldByte_toLower c hcs.1

theorem canonicalMIMEHeaderKey_idem (s : String) :
    canonicalMIMEHeaderKey (canonicalMIMEHeaderKey s) = canonicalMIMEHeaderKey s := by
  by_cases hs : s.toList.all validHeaderFieldByte = true
  · have hv := canonicalFold_valid true s.toList hs
    have hc : canonicalMIMEHeaderKey s = String.ofList (canonicalFold true s.toList) := by
      rw [canonicalMIMEHeaderKey, if_pos hs]
    rw [hc, canonicalMIMEHeaderKey, String.toList_ofList, if_pos hv, canonicalFold_idem]
  · have hc : canonicalMIMEHeaderKey s = s := by
      rw [canonicalMIMEHeaderKey, if_neg hs]
    rw [hc, hc]

theorem equalFold_iff_toLower (s t : String) : equalFold s t = true ↔ toLower s = toLower t := by
  rw [equalFold, beq_iff_eq, toLower, toLower, String.ofList_inj]

theorem toLower_toLower (s : String) : toLower (toLower s) = toLower s := by
  simp only [toLower, String.toList_ofList, List.map_map]
  congr 1
  apply List.map_congr_left
  intro c _
  exact Char.toLower_toLower_eq_toLower c

theorem map_toLower_canonicalFold (upper : Bool) (cs : List Char) :
    (canonicalFold upper cs).map Char.toLower = cs.map Char.toLower := by
  induction cs generalizing upper with
  | nil => rfl
  | cons c cs ih =>
    cases upper with
    | true =>
      simp only [canonicalFold, if_true, List.map_cons, ih, Char.toLower_toUpper_eq_toLower]
    | false =>
      simp only [canonicalFold, Bool.false_eq_true, if_false, List.map_cons, ih,
        Char.toLower_toLower_eq_toLower]

theorem toLower_canonicalMIMEHeaderKey (s : String) :
    toLower (canonicalMIMEHeaderKey s) = toLower s := by
  unfold canonicalMIMEHeaderKey
  split_ifs
  · rw [toLower, String.toList_ofList, map_toLower_canonicalFold, ← toLower]
  · rfl

theorem validHeaderFieldByte_of_toLower {c : Char} (h : validHeaderFieldByte c.toLower = true) :
    validHeaderFieldByte c = true := by
  by_cases hu : c.isUpper = true
  · have ha : c.isAlpha = true := by simp [Char.isAlpha, hu]
    simp [validHeaderFieldByte, Char.isAlphanum, ha]
  · rwa [Char.toLower_eq_of_not_isUpper hu] at h

theorem canonicalFold_congr {cs ds : List Char} (h : cs.map Char.toLower = ds.map Char.toLower)
    (upper : Bool) : canonicalFold upper cs = canonicalFold upper ds := by
  induction cs generalizing ds upper with
  | nil =>
    rw [List.map_nil] at h
    rw [List.map_eq_nil_iff.mp h.symm]
  | cons c cs ih =>
    obtain ⟨d, ds, rfl⟩ : ∃ d ds', ds = d :: ds' := by
      cases ds with
      | nil => cases h
      | cons d ds => exact ⟨d, ds, rfl⟩
    obtain ⟨hcd, htail⟩ := List.cons.inj h
    have hupper : c.toUpper = d.toUpper := by
      rw [← Char.toUpper_toLower_eq_toUpper c, hcd, Char.toUpper_toLower_eq_toUpper d]
    simp only [canonicalFold, hcd, hupper, ih htail]

theorem valid_of_map_toLower {cs ds : List Char} (h : cs.map Char.toLower = ds.map Char.toLower)
    (hd : ds.all validHeaderFieldByte = true) : cs.all validHeaderFieldByte = true := by
  rw [List.all_eq_true] at hd ⊢
  intro c hc
  have hmem : c.toLower ∈ ds.map Char.toLower := by
    rw [← h]
    exact List.mem_map_of_mem hc
  obtain ⟨d, hdmem, hdc⟩ := List.mem_map.mp hmem
  apply validHeaderFieldByte_of_toLower
  rw [← hdc]
  exact validHeaderFieldByte_toLower d (hd d hdmem)

theorem canonicalMIMEHeaderKey_eq_iff {name : String}
    (hname : name.toList.all validHeaderFieldByte = true) (s : String) :
    canonicalMIMEHeaderKey s = canonicalMIMEHeaderKey name ↔ equalFold s name = true := by
  constructor
  · intro h
    rw [equalFold_iff_toLower, ← toLower_canonicalMIMEHeaderKey s, h,
      toLower_canonicalMIMEHeaderKey]
  · intro h
    rw [equalFold, beq_iff_eq] at h
    have hs := valid_of_map_toLower h hname
    rw [canonicalMIMEHeaderKey, canonicalMIMEHeaderKey, if_pos hs, if_pos hname,
      canonicalFold_congr h]

end EnvoyGo

import EnvoyGo.Slices
import EnvoyGo.StreamFrames

/-!
Frames behind four bytes that hold their length, a signed number with the highest byte first.
-/

namespace EnvoyGo.LengthPrefix

open Slices StreamFrames

def signedBigEndian (b : Bytes) : ℤ :=
  if 2 * bigEndian b < 256^b.length then bigEndian b else bigEndian b - 256^b.length

def declared (b : Bytes) : ℤ := signedBigEndian (b.take 4)

/-- The frame with its length in front; a length below zero or above the bound is an error. -/
def next (bound : ℕ) (b : Bytes) : Front UInt8 :=
  if b.length < 4 then .more
  else if declared b < 0 ∨ declared b > bound then .bad
  else if b.length < 4 + declared b then .more
  else .frame (b.take (4 + (declared b).toNat)) (b.drop (4 + (declared b).toNat))

section Next

variable {bound : ℕ} {b m r : Bytes}

theorem declared_append (h : 4 ≤ b.length) (c : Bytes) : declared (b ++ c) = declared b := by
  rw [declared, declared, List.take_append_of_le_length h]

theorem next_eq_frame (h : next bound b = .frame m r) :
    0 ≤ declared b ∧ declared b ≤ bound ∧ 4 + (declared b).toNat ≤ b.length ∧
      m = b.take (4 + (declared b).toNat) ∧ r = b.drop (4 + (declared b).toNat) := by
  unfold next at h
  split_ifs at h with hshort hbad hpart
  obtain ⟨rfl, rfl⟩ := Front.frame.inj h
  exact ⟨by omega, by omega, by omega, rfl, rfl⟩

theorem next_append_frame (c : Bytes) (h : next bound b = .frame m r) :
    next bound (b ++ c) = .frame m (r ++ c) := by
  obtain ⟨hpos, hmax, hlen, rfl, rfl⟩ := next_eq_frame h
  unfold next
  rw [declared_append (by omega) c, List.length_append, if_neg (by omega), if_neg (by omega),
    if_neg (by omega), List.take_append_of_le_length hlen, List.drop_append_of_le_length hlen]

theorem next_append_bad (c : Bytes) (h : next bound b = .bad) : next bound (b ++ c) = .bad := by
  unfold next at h
  split_ifs at h with hshort hbad
  unfold next
  rw [declared_append (by omega) c, List.length_append, if_neg (by omega), if_pos hbad]

theorem frame_ne_nil (h : next bound b = .frame m r) : m ≠ [] := by
  obtain ⟨hpos, -, hlen, rfl, -⟩ := next_eq_frame h
  intro hnil
  have hzero := congrArg List.length hnil
  rw [List.length_take, List.length_nil] at hzero
  omega

theorem eq_append_of_next (h : next bound b = .frame m r) : b = m ++ r := by
  obtain ⟨-, -, -, rfl, rfl⟩ := next_eq_frame h
  exact (List.take_append_drop _ _).symm

end Next

def framer (bound : ℕ) : Framer UInt8 where
  next := next bound
  frame_ne := frame_ne_nil
  frame_eq := eq_append_of_next
  frame_append := next_append_frame
  bad_append := next_append_bad

end EnvoyGo.LengthPrefix

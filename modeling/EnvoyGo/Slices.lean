import EnvoyGo.HTTPHeader
import Mathlib.Algebra.Group.Nat.Defs
import Mathlib.Data.UInt

/-!
Byte slices whose bounds are checked at run time, the numbers that are read from them, and the
vectors that carry their length in front.
-/

namespace EnvoyGo.Slices

structure OutOfRange where
  deriving DecidableEq

abbrev Checked (α : Type) := Except OutOfRange α

def index (b : Bytes) (i : ℕ) : Checked UInt8 :=
  match b[i]? with
  | some x => .ok x
  | none => .error ⟨⟩

def slice (b : Bytes) (i j : ℕ) : Checked Bytes :=
  if i ≤ j ∧ j ≤ b.length then .ok ((b.drop i).take (j - i)) else .error ⟨⟩

def bigEndian (b : Bytes) : ℕ := b.foldl (fun n x => 256 * n + x.toNat) 0

/-- `binary.BigEndian.Uint16(b[i:i+2])`. -/
def uint16 (b : Bytes) (i : ℕ) : Checked ℕ := (slice b i (i + 2)).map bigEndian

/-- The code runs to its end. -/
def Safe {α : Type} (x : Checked α) : Prop := ∃ a, x = .ok a

section Safe

variable {α β : Type}

theorem ok_bind (a : α) (f : α → Checked β) : ((.ok a : Checked α) >>= f) = f a := rfl

theorem Safe.ok (a : α) : Safe (.ok a : Checked α) := ⟨a, rfl⟩

theorem Safe.bind {x : Checked α} {f : α → Checked β} (hx : Safe x)
    (hf : ∀ a, x = .ok a → Safe (f a)) : Safe (x >>= f) := by
  obtain ⟨a, ha⟩ := hx
  rw [ha]
  exact hf a ha

theorem Safe.map {x : Checked α} (hx : Safe x) (f : α → β) : Safe (x.map f) := by
  obtain ⟨a, ha⟩ := hx
  rw [ha]
  exact ⟨f a, rfl⟩

theorem Safe.ite {c : Prop} [Decidable c] {x y : Checked α} (hx : c → Safe x)
    (hy : ¬c → Safe y) : Safe (if c then x else y) := by
  split_ifs with hc
  · exact hx hc
  · exact hy hc

variable {b : Bytes} {i j : ℕ}

theorem safe_index (hi : i < b.length) : Safe (index b i) := by
  rw [index, List.getElem?_eq_getElem hi]
  exact ⟨_, rfl⟩

theorem slice_eq_ok (hij : i ≤ j) (hj : j ≤ b.length) :
    slice b i j = .ok ((b.drop i).take (j - i)) := if_pos ⟨hij, hj⟩

theorem safe_slice (hij : i ≤ j) (hj : j ≤ b.length) : Safe (slice b i j) :=
  ⟨_, slice_eq_ok hij hj⟩

theorem length_of_slice {s : Bytes} (h : slice b i j = .ok s) :
    i ≤ j ∧ j ≤ b.length ∧ s.length = j - i := by
  unfold slice at h
  split_ifs at h with hbounds
  cases h
  refine ⟨hbounds.1, hbounds.2, ?_⟩
  rw [List.length_take, List.length_drop]
  omega

theorem safe_uint16 (hi : i + 2 ≤ b.length) : Safe (uint16 b i) :=
  (safe_slice (Nat.le_add_right i 2) hi).map _

end Safe

section Append

variable {b pre post : Bytes} {i j : ℕ}

theorem index_of_eq {x : UInt8} (h : b = pre ++ x :: post) (hi : pre.length = i) :
    index b i = .ok x := by
  rw [index, h, List.getElem?_append_right hi.le, hi, Nat.sub_self, List.getElem?_cons_zero]

theorem index_zero_of_eq {x : UInt8} (h : b = x :: post) : index b 0 = .ok x := by
  rw [h]
  rfl

theorem slice_of_eq {s : Bytes} (h : b = pre ++ (s ++ post)) (hi : pre.length = i)
    (hj : i + s.length = j) : slice b i j = .ok s := by
  have hlen : j ≤ b.length := by
    rw [h, List.length_append, List.length_append]
    omega
  rw [slice_eq_ok (by omega) hlen, h, ← hi, List.drop_left]
  have htake : j - pre.length = s.length := by omega
  rw [htake, List.take_left]

def be16 (n : ℕ) : Bytes := [UInt8.ofNat (n / 256), UInt8.ofNat n]

def be24 (n : ℕ) : Bytes := [UInt8.ofNat (n / 65536), UInt8.ofNat (n / 256), UInt8.ofNat n]

theorem length_be16 (n : ℕ) : (be16 n).length = 2 := rfl

theorem toNat_ofNat_mod (n : ℕ) : (UInt8.ofNat n).toNat = n % 256 := UInt8.toNat_ofNat'

theorem bigEndian_be16 {n : ℕ} (hn : n < 2^16) : bigEndian (be16 n) = n := by
  change 256 * (256 * 0 + (UInt8.ofNat (n / 256)).toNat) + (UInt8.ofNat n).toNat = n
  rw [toNat_ofNat_mod, toNat_ofNat_mod]
  omega

theorem bigEndian_be24 {n : ℕ} (hn : n < 2^24) : bigEndian (be24 n) = n := by
  change 256 * (256 * (256 * 0 + (UInt8.ofNat (n / 65536)).toNat) + (UInt8.ofNat (n / 256)).toNat) +
    (UInt8.ofNat n).toNat = n
  rw [toNat_ofNat_mod, toNat_ofNat_mod, toNat_ofNat_mod]
  omega

theorem uint16_of_eq {n : ℕ} (h : b = pre ++ (be16 n ++ post)) (hi : pre.length = i)
    (hn : n < 2^16) : uint16 b i = .ok n := by
  rw [uint16, slice_of_eq h hi (show i + (be16 n).length = i + 2 from rfl)]
  exact congrArg Except.ok (bigEndian_be16 hn)

theorem uint16_zero_of_eq {n : ℕ} (h : b = be16 n ++ post) (hn : n < 2^16) :
    uint16 b 0 = .ok n := uint16_of_eq (h.trans (List.nil_append _).symm) rfl hn

theorem slice_rest_of_eq (h : b = pre ++ post) (hi : pre.length = i) :
    slice b i b.length = .ok post := by
  have hpost : b = pre ++ (post ++ []) := by rw [List.append_nil, h]
  refine slice_of_eq hpost hi ?_
  rw [h, List.length_append, hi]

def vec8 (b : Bytes) : Bytes := UInt8.ofNat b.length :: b

def vec16 (b : Bytes) : Bytes := be16 b.length ++ b

def vec24 (b : Bytes) : Bytes := be24 b.length ++ b

theorem length_vec16 (b : Bytes) : (vec16 b).length = b.length + 2 := by
  rw [vec16, List.length_append, length_be16, Nat.add_comm]

theorem length_vec8 (b : Bytes) : (vec8 b).length = b.length + 1 := rfl

end Append

end EnvoyGo.Slices

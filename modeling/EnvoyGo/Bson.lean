import EnvoyGo.Cursors
import Mathlib.Algebra.Group.Int.Defs

/-!
The BSON parser of the Mongo proxy, `bson.go`, and the documents that it reads.
-/

namespace EnvoyGo.Mongo

open Slices Cursors

inductive BsonType where
  | double
  | string
  | document
  | array
  | binary
  | objectId
  | boolean
  | datetime
  | null
  | regex
  | symbol
  | int32
  | timestamp
  | int64
  deriving DecidableEq

namespace BsonType

def byte : BsonType → UInt8
  | double => 0x01
  | string => 0x02
  | document => 0x03
  | array => 0x04
  | binary => 0x05
  | objectId => 0x07
  | boolean => 0x08
  | datetime => 0x09
  | null => 0x0A
  | regex => 0x0B
  | symbol => 0x0E
  | int32 => 0x10
  | timestamp => 0x11
  | int64 => 0x12

def all : List BsonType := [double, string, document, array, binary, objectId, boolean, datetime,
  null, regex, symbol, int32, timestamp, int64]

def ofByte (t : UInt8) : Option BsonType := all.find? fun typ => typ.byte = t

theorem ofByte_byte (typ : BsonType) : ofByte typ.byte = some typ := by
  cases typ <;> decide

theorem byte_of_ofByte {t : UInt8} {typ : BsonType} (h : ofByte t = some typ) : typ.byte = t := by
  have hfound := List.find?_some h
  exact of_decide_eq_true hfound

theorem byte_ne_zero (typ : BsonType) : typ.byte ≠ 0 := by
  cases typ <;> decide

end BsonType

mutual

inductive BsonValue where
  | double (bits : ℕ)
  | string (s : Bytes)
  | document (d : BsonDoc)
  | array (d : BsonDoc)
  | binary (b : Bytes)
  | objectId (b : Bytes)
  | boolean (b : Bool)
  | datetime (n : ℤ)
  | null
  | regex (pat opt : Bytes)
  | symbol (s : Bytes)
  | int32 (n : ℤ)
  | timestamp (n : ℤ)
  | int64 (n : ℤ)

/-- The elements of a document in wire order, each with its name. -/
inductive BsonDoc where
  | nil
  | cons (name : Bytes) (val : BsonValue) (rest : BsonDoc)

end

def BsonValue.typ : BsonValue → BsonType
  | double _ => .double
  | string _ => .string
  | document _ => .document
  | array _ => .array
  | binary _ => .binary
  | objectId _ => .objectId
  | boolean _ => .boolean
  | datetime _ => .datetime
  | null => .null
  | regex _ _ => .regex
  | symbol _ => .symbol
  | int32 _ => .int32
  | timestamp _ => .timestamp
  | int64 _ => .int64

@[elab_as_elim]
theorem BsonDoc.elems_induction {P : BsonDoc → Prop} (nil : P .nil)
    (cons : ∀ name val rest, P rest → P (.cons name val rest)) (d : BsonDoc) : P d :=
  @BsonDoc.rec (fun _ => True) P (fun _ => trivial) (fun _ => trivial) (fun _ _ => trivial)
    (fun _ _ => trivial) (fun _ => trivial) (fun _ => trivial) (fun _ => trivial)
    (fun _ => trivial) trivial (fun _ _ => trivial) (fun _ => trivial) (fun _ => trivial)
    (fun _ => trivial) (fun _ => trivial) nil (fun name val rest _ ih => cons name val rest ih) d

def errBSON (msg : String) : String := "mongoproxy: bson: " ++ msg

abbrev BsonReader (α : Type) := Cursor String α

def readByte : BsonReader UInt8 := fun buf pos =>
  if pos + 1 > buf.length then .ok (.error (errBSON "underflow: byte")) else do
  let b ← index buf pos
  .ok (.ok (b, pos + 1))

def readBytes (n : ℤ) : BsonReader Bytes := fun buf pos =>
  if n < 0 ∨ pos + n > buf.length then .ok (.error (errBSON "underflow: bytes")) else do
  let b ← slice buf pos (pos + n.toNat)
  .ok (.ok (b, pos + n.toNat))

def littleEndian : Bytes → ℕ
  | [] => 0
  | x :: b => x.toNat + 256 * littleEndian b

/-- The conversion of an unsigned number to a signed one, whose sign is worth `half`. -/
def signed (half n : ℕ) : ℤ := if n < half then n else n - 2 * half

def readInt32 : BsonReader ℤ := bind (readBytes 4) fun b => ret (signed (2^31) (littleEndian b))

def readInt64 : BsonReader ℤ := bind (readBytes 8) fun b => ret (signed (2^63) (littleEndian b))

def findNul (buf : Bytes) : ℕ → ℕ → Checked (Option ℕ)
  | 0, _ => .ok none
  | left + 1, i => do
    let b ← index buf i
    if b = 0x00 then .ok (some i) else findNul buf left (i + 1)

def readCString : BsonReader Bytes := fun buf pos => do
  let nul ← findNul buf (buf.length - pos) pos
  match nul with
  | none => .ok (.error (errBSON "unterminated cstring"))
  | some i => do
    let s ← slice buf pos i
    .ok (.ok (s, i + 1))

def readString : BsonReader Bytes :=
  bind readInt32 fun n =>
    if n < 1 then fail (errBSON "invalid string length")
    else bind (readBytes n) fun b => lift (slice b 0 (n - 1).toNat)

def readBinary : BsonReader Bytes :=
  bind readInt32 fun n =>
    if n < 0 then fail (errBSON "invalid binary length")
    else bind readByte fun _ => readBytes n

def readRegex : BsonReader BsonValue :=
  bind readCString fun pat => bind readCString fun opt => ret (.regex pat opt)

def parseElementValue (nested : BsonReader BsonDoc) (t : UInt8) : BsonReader BsonValue :=
  match BsonType.ofByte t with
  | some .double => bind (readBytes 8) fun b => ret (.double (littleEndian b))
  | some .boolean => bind readByte fun b => ret (.boolean (b ≠ 0x00))
  | some .datetime => bind readInt64 fun n => ret (.datetime n)
  | some .null => ret .null
  | some .int32 => bind readInt32 fun n => ret (.int32 n)
  | some .timestamp => bind readInt64 fun n => ret (.timestamp n)
  | some .int64 => bind readInt64 fun n => ret (.int64 n)
  | some .string => bind readString fun s => ret (.string s)
  | some .symbol => bind readString fun s => ret (.symbol s)
  | some .document => bind nested fun d => ret (.document d)
  | some .array => bind nested fun d => ret (.array d)
  | some .binary => bind readBinary fun b => ret (.binary b)
  | some .objectId => bind (readBytes 12) fun b => ret (.objectId b)
  | some .regex => readRegex
  | none => fail (errBSON "invalid BSON element type")

def checkEnd (stop : ℕ) : BsonReader BsonDoc := fun _ pos =>
  if pos ≠ stop then .ok (.error (errBSON "document terminator misplaced"))
  else .ok (.ok (.nil, pos))

def parseElems (value : UInt8 → BsonReader BsonValue) : ℕ → ℕ → BsonReader BsonDoc
  | 0, _ => fun _ _ => .error ⟨⟩
  | fuel + 1, stop => fun buf pos =>
    if pos ≥ stop then .ok (.error (errBSON "document not terminated"))
    else
      bind readByte (fun t =>
        if t = 0x00 then checkEnd stop
        else bind readCString fun name => bind (value t) fun val =>
          bind (parseElems value fuel stop) fun rest => ret (.cons name val rest)) buf pos

def parseDocumentAt : ℕ → BsonReader BsonDoc
  | 0 => fail (errBSON "document nesting too deep")
  | depth + 1 => fun buf start =>
    bind readInt32 (fun docLen =>
      if docLen < 5 then fail (errBSON "document length too small")
      else if start + docLen > buf.length then fail (errBSON "document length exceeds buffer")
      else parseElems (parseElementValue (parseDocumentAt depth)) (buf.length + 1)
        (start + docLen.toNat)) buf start

def maxBSONDepth : ℕ := 256

def parseDocument : BsonReader BsonDoc := parseDocumentAt maxBSONDepth

def le : ℕ → ℕ → Bytes
  | 0, _ => []
  | k + 1, n => UInt8.ofNat n :: le k (n / 256)

/-- A signed number of so many bytes, of which the half of the range is `half`. -/
def IntBytes (k half : ℕ) (n : ℤ) (w : Bytes) : Prop :=
  -half ≤ n ∧ n < half ∧ w = le k (n % (2 * half)).toNat

def StringBytes (s w : Bytes) : Prop :=
  s.length + 1 < 2^31 ∧ ∃ last, w = le 4 (s.length + 1) ++ (s ++ [last])

def BinaryBytes (b w : Bytes) : Prop :=
  b.length < 2^31 ∧ ∃ subtype, w = le 4 b.length ++ (subtype :: b)

/-- The elements of a document between its length and its terminator. -/
def frame (body : Bytes) : Bytes := le 4 (body.length + 5) ++ (body ++ [0x00])

mutual

/-- The bytes stand for the value.  The subtype of a binary, the byte after a string and the byte
of a truth are not kept by the parser. -/
def BsonValue.Encodes : BsonValue → Bytes → Prop
  | .double bits, w => bits < 2^64 ∧ w = le 8 bits
  | .string s, w => StringBytes s w
  | .document d, w => ∃ body, d.Elems body ∧ w = frame body ∧ w.length < 2^31
  | .array d, w => ∃ body, d.Elems body ∧ w = frame body ∧ w.length < 2^31
  | .binary b, w => BinaryBytes b w
  | .objectId b, w => b.length = 12 ∧ w = b
  | .boolean b, w => ∃ byte : UInt8, b = decide (byte ≠ 0x00) ∧ w = [byte]
  | .datetime n, w => IntBytes 8 (2^63) n w
  | .null, w => w = []
  | .regex pat opt, w => 0x00 ∉ pat ∧ 0x00 ∉ opt ∧ w = pat ++ 0x00 :: (opt ++ [0x00])
  | .symbol s, w => StringBytes s w
  | .int32 n, w => IntBytes 4 (2^31) n w
  | .timestamp n, w => IntBytes 8 (2^63) n w
  | .int64 n, w => IntBytes 8 (2^63) n w

def BsonDoc.Elems : BsonDoc → Bytes → Prop
  | .nil, w => w = []
  | .cons name val rest, w => 0x00 ∉ name ∧ ∃ wv wr, val.Encodes wv ∧ rest.Elems wr ∧
      w = val.typ.byte :: (name ++ 0x00 :: (wv ++ wr))

end

/-- The bytes are an encoding of the document. -/
def BsonDoc.Encodes (d : BsonDoc) (w : Bytes) : Prop :=
  ∃ body, d.Elems body ∧ w = frame body ∧ w.length < 2^31

mutual

/-- How many documents stand around the innermost one, at most. -/
def BsonValue.depth : BsonValue → ℕ
  | .document d => d.depth + 1
  | .array d => d.depth + 1
  | _ => 0

def BsonDoc.depth : BsonDoc → ℕ
  | .nil => 0
  | .cons _ val rest => max val.depth rest.depth

end

def BsonValue.inner : BsonValue → List BsonDoc
  | .document d => [d]
  | .array d => [d]
  | _ => []

/-- The documents one level down. -/
def BsonDoc.children : BsonDoc → List BsonDoc
  | .nil => []
  | .cons _ val rest => val.inner ++ rest.children

mutual

/-- The bytes that a writer gives to a value. -/
def BsonValue.encode : BsonValue → Bytes
  | .double bits => le 8 bits
  | .string s => le 4 (s.length + 1) ++ (s ++ [0x00])
  | .document d => frame d.encodeElems
  | .array d => frame d.encodeElems
  | .binary b => le 4 b.length ++ (0x00 :: b)
  | .objectId b => b
  | .boolean b => [if b then 0x01 else 0x00]
  | .datetime n => le 8 (n % (2 * 2^63)).toNat
  | .null => []
  | .regex pat opt => pat ++ 0x00 :: (opt ++ [0x00])
  | .symbol s => le 4 (s.length + 1) ++ (s ++ [0x00])
  | .int32 n => le 4 (n % (2 * 2^31)).toNat
  | .timestamp n => le 8 (n % (2 * 2^63)).toNat
  | .int64 n => le 8 (n % (2 * 2^63)).toNat

def BsonDoc.encodeElems : BsonDoc → Bytes
  | .nil => []
  | .cons name val rest => val.typ.byte :: (name ++ 0x00 :: (val.encode ++ rest.encodeElems))

end

def BsonDoc.encode (d : BsonDoc) : Bytes := frame d.encodeElems

mutual

/-- Numbers are within the range of their type, an id has twelve bytes, and what ends with a NUL
holds none. -/
def BsonValue.Legal : BsonValue → Prop
  | .double bits => bits < 2^64
  | .document d => d.Legal
  | .array d => d.Legal
  | .objectId b => b.length = 12
  | .datetime n => -2^63 ≤ n ∧ n < 2^63
  | .regex pat opt => 0x00 ∉ pat ∧ 0x00 ∉ opt
  | .int32 n => -2^31 ≤ n ∧ n < 2^31
  | .timestamp n => -2^63 ≤ n ∧ n < 2^63
  | .int64 n => -2^63 ≤ n ∧ n < 2^63
  | _ => True

def BsonDoc.Legal : BsonDoc → Prop
  | .nil => True
  | .cons name val rest => 0x00 ∉ name ∧ val.Legal ∧ rest.Legal

end

section Numbers

theorem length_le (k n : ℕ) : (le k n).length = k := by
  induction k generalizing n with
  | zero => rfl
  | succ k ih => exact congrArg (· + 1) (ih _)

theorem littleEndian_le {k n : ℕ} (hn : n < 256^k) : littleEndian (le k n) = n := by
  induction k generalizing n with
  | zero =>
    rw [Nat.pow_zero] at hn
    change 0 = n
    omega
  | succ k ih =>
    have hdiv : n / 256 < 256^k := by
      rw [Nat.div_lt_iff_lt_mul (by decide), ← Nat.pow_succ]
      exact hn
    rw [le, littleEndian, ih hdiv, toNat_ofNat_mod]
    omega

theorem littleEndian_lt (b : Bytes) : littleEndian b < 256^b.length := by
  induction b with
  | nil => exact Nat.one_pos
  | cons x b ih =>
    have hx := x.toNat_lt
    rw [littleEndian, List.length_cons, Nat.pow_succ]
    omega

theorem le_littleEndian (b : Bytes) : le b.length (littleEndian b) = b := by
  induction b with
  | nil => rfl
  | cons x b ih =>
    have hx := x.toNat_lt
    have hlow : UInt8.ofNat (x.toNat + 256 * littleEndian b) = x := by
      refine UInt8.toNat.inj ?_
      rw [toNat_ofNat_mod]
      omega
    have hhigh : (x.toNat + 256 * littleEndian b) / 256 = littleEndian b := by omega
    rw [littleEndian, List.length_cons, le, hlow, hhigh, ih]

theorem signed_range {half n : ℕ} (hn : n < 2 * half) :
    -half ≤ signed half n ∧ signed half n < half := by
  unfold signed
  split_ifs <;> omega

theorem signed_emod {half n : ℕ} (hn : n < 2 * half) :
    (signed half n % (2 * half)).toNat = n := by
  unfold signed
  split_ifs with h
  · rw [Int.emod_eq_of_lt (by omega) (by omega), Int.toNat_natCast]
  · rw [Int.sub_emod_right, Int.emod_eq_of_lt (by omega) (by omega), Int.toNat_natCast]

theorem signed_of_emod {half : ℕ} {z : ℤ} (hlo : -half ≤ z) (hhi : z < half) :
    signed half (z % (2 * half)).toNat = z := by
  rcases le_total 0 z with hz | hz
  · rw [Int.emod_eq_of_lt hz (by omega), signed]
    split_ifs <;> omega
  · rcases hz.eq_or_lt with rfl | hneg
    · rw [Int.zero_emod, signed]
      split_ifs <;> omega
    · rw [Int.emod_eq_add_self_emod, Int.emod_eq_of_lt (by omega) (by omega), signed]
      split_ifs <;> omega

end Numbers

section Readers

theorem reads_readByte (b : UInt8) : Reads readByte b [b] := by
  intro pre rest
  have hindex : index (pre ++ ([b] ++ rest)) pre.length = .ok b := index_of_eq rfl rfl
  rw [readByte, if_neg (by simp only [List.length_append, List.length_singleton]; omega), hindex,
    ok_bind, List.length_append, List.length_singleton]

theorem sound_readByte : Sound readByte fun b w => w = [b] := by
  intro pre suf
  cases suf with
  | nil =>
    refine ⟨.error (errBSON "underflow: byte"), ?_, fun _ _ heq => by cases heq⟩
    rw [readByte, if_pos (by simp only [List.append_nil]; omega)]
  | cons b rest =>
    refine ⟨.ok (b, (pre ++ [b]).length), reads_readByte b pre rest, fun a next heq => ?_⟩
    obtain ⟨rfl, rfl⟩ := Prod.mk.inj (Except.ok.inj heq)
    exact ⟨[b], rest, rfl, rfl, rfl⟩

variable {n : ℤ} {s w : Bytes}

theorem reads_readBytes (hn : n = w.length) : Reads (readBytes n) w w := by
  intro pre rest
  have hslice : slice (pre ++ (w ++ rest)) pre.length (pre.length + w.length) = .ok w :=
    slice_of_eq rfl rfl rfl
  rw [readBytes, hn, if_neg (by simp only [List.length_append]; omega), Int.toNat_natCast, hslice,
    ok_bind, List.length_append]

theorem sound_readBytes (n : ℤ) : Sound (readBytes n) fun b w => w = b ∧ n = b.length := by
  intro pre suf
  by_cases hn : n < 0 ∨ pre.length + n > (pre ++ suf).length
  · refine ⟨.error (errBSON "underflow: bytes"), ?_, fun _ _ heq => by cases heq⟩
    rw [readBytes, if_pos hn]
  · rw [List.length_append] at hn
    have hlen : n = (suf.take n.toNat).length := by
      rw [List.length_take]
      omega
    have hread := reads_readBytes hlen pre (suf.drop n.toNat)
    rw [List.take_append_drop] at hread
    refine ⟨_, hread, fun a next heq => ?_⟩
    obtain ⟨rfl, rfl⟩ := Prod.mk.inj (Except.ok.inj heq)
    exact ⟨_, _, (List.take_append_drop _ _).symm, rfl, rfl, hlen⟩

theorem reads_signed {k half : ℕ} (hk : 2 * half = 256^k) (h : IntBytes k half n w) :
    Reads (bind (readBytes k) fun b => ret (signed half (littleEndian b)) : BsonReader ℤ) n w := by
  obtain ⟨hlo, hhi, rfl⟩ := h
  have hread := (reads_readBytes (congrArg Nat.cast (length_le k (n % (2 * half)).toNat).symm)).map
    fun b => signed half (littleEndian b)
  have hrange := Int.emod_lt_of_pos n (by omega : (0:ℤ) < 2 * half)
  have hnonneg := Int.emod_nonneg n (by omega : (2 * half : ℤ) ≠ 0)
  rwa [littleEndian_le (by omega), signed_of_emod hlo hhi] at hread

theorem sound_signed {k half : ℕ} (hk : 2 * half = 256^k) :
    Sound (bind (readBytes k) fun b => ret (signed half (littleEndian b)) : BsonReader ℤ)
      (IntBytes k half) := by
  intro pre suf
  refine (sound_readBytes k pre suf).map _ ?_
  rintro b w ⟨rfl, hlen⟩
  have hlt := littleEndian_lt w
  have hback := le_littleEndian w
  rw [← Nat.cast_inj.mp hlen] at hlt hback
  have hrange := signed_range (hk ▸ hlt)
  refine ⟨hrange.1, hrange.2, ?_⟩
  rw [signed_emod (hk ▸ hlt), hback]

theorem reads_readInt32 (h : IntBytes 4 (2^31) n w) : Reads readInt32 n w :=
  reads_signed (by decide) h

theorem sound_readInt32 : Sound readInt32 (IntBytes 4 (2^31)) := sound_signed (by decide)

theorem reads_readInt64 (h : IntBytes 8 (2^63) n w) : Reads readInt64 n w :=
  reads_signed (by decide) h

theorem sound_readInt64 : Sound readInt64 (IntBytes 8 (2^63)) := sound_signed (by decide)

theorem intBytes_length {n : ℕ} (hn : n < 2^31) : IntBytes 4 (2^31) n (le 4 n) := by
  refine ⟨by omega, by omega, ?_⟩
  rw [Int.emod_eq_of_lt (by omega) (by omega), Int.toNat_natCast]

theorem findNul_append (hs : 0x00 ∉ s) (pre rest : Bytes) :
    findNul (pre ++ (s ++ 0x00 :: rest)) (s ++ 0x00 :: rest).length pre.length =
      .ok (some (pre ++ s).length) := by
  induction s generalizing pre with
  | nil =>
    have hindex : index (pre ++ 0x00 :: rest) pre.length = .ok 0x00 := index_of_eq rfl rfl
    rw [List.nil_append, List.length_cons, findNul, hindex, ok_bind, if_pos rfl, List.append_nil]
  | cons x s ih =>
    obtain ⟨hx, hs⟩ := not_or.mp (fun h => hs (List.mem_cons.mpr h))
    have hindex : index (pre ++ (x :: (s ++ 0x00 :: rest))) pre.length = .ok x :=
      index_of_eq rfl rfl
    have hpos : (pre ++ [x]).length = pre.length + 1 := List.length_append
    have hnext := ih hs (pre ++ [x])
    rw [hpos, List.append_assoc, List.append_assoc] at hnext
    rw [List.cons_append, List.length_cons, findNul, hindex, ok_bind, if_neg (Ne.symm hx)]
    exact hnext

theorem findNul_of_notMem (hs : 0x00 ∉ s) (pre : Bytes) :
    findNul (pre ++ s) s.length pre.length = .ok none := by
  induction s generalizing pre with
  | nil => rfl
  | cons x s ih =>
    obtain ⟨hx, hs⟩ := not_or.mp (fun h => hs (List.mem_cons.mpr h))
    have hindex : index (pre ++ x :: s) pre.length = .ok x := index_of_eq rfl rfl
    have hpos : (pre ++ [x]).length = pre.length + 1 := List.length_append
    have hnext := ih hs (pre ++ [x])
    rw [hpos, List.append_assoc] at hnext
    rw [List.length_cons, findNul, hindex, ok_bind, if_neg (Ne.symm hx)]
    exact hnext

theorem length_sub_length (pre suf : Bytes) : (pre ++ suf).length - pre.length = suf.length := by
  rw [List.length_append, Nat.add_sub_cancel_left]

theorem reads_readCString (hs : 0x00 ∉ s) : Reads readCString s (s ++ [0x00]) := by
  intro pre rest
  have hfind := findNul_append hs pre rest
  have hslice : slice (pre ++ (s ++ 0x00 :: rest)) pre.length (pre ++ s).length = .ok s :=
    slice_of_eq rfl rfl List.length_append.symm
  rw [List.append_assoc, List.singleton_append, readCString, length_sub_length, hfind, ok_bind]
  have hnext : (pre ++ (s ++ [0x00])).length = (pre ++ s).length + 1 := by
    rw [← List.append_assoc]
    exact List.length_append
  dsimp only
  rw [hslice, ok_bind, hnext]

theorem sound_readCString : Sound readCString fun s w => 0x00 ∉ s ∧ w = s ++ [0x00] := by
  intro pre suf
  by_cases hnul : (0x00 : UInt8) ∈ suf
  · obtain ⟨s, rest, rfl, hs⟩ := List.eq_append_cons_of_mem hnul
    have hread := reads_readCString hs pre rest
    rw [List.append_assoc, List.singleton_append] at hread
    refine ⟨_, hread, fun a next heq => ?_⟩
    obtain ⟨rfl, rfl⟩ := Prod.mk.inj (Except.ok.inj heq)
    exact ⟨s ++ [0x00], rest, by rw [List.append_assoc, List.singleton_append], rfl, hs, rfl⟩
  · refine ⟨.error (errBSON "unterminated cstring"), ?_, fun _ _ heq => by cases heq⟩
    rw [readCString, length_sub_length, findNul_of_notMem hnul, ok_bind]

theorem reads_readString (h : StringBytes s w) : Reads readString s w := by
  obtain ⟨hlen, last, rfl⟩ := h
  refine (reads_readInt32 (intBytes_length hlen)).bind ?_
  rw [if_neg (by omega)]
  have hbytes : Reads (readBytes ((s.length + 1 : ℕ) : ℤ)) (s ++ [last]) (s ++ [last]) :=
    reads_readBytes (by rw [List.length_append, List.length_singleton])
  have hstrip : slice (s ++ [last]) 0 (((s.length + 1 : ℕ) : ℤ) - 1).toNat = .ok s := by
    have hall : s ++ [last] = [] ++ (s ++ [last]) := rfl
    exact slice_of_eq hall rfl (by omega)
  have hlift : Reads (lift (slice (s ++ [last]) 0 (((s.length + 1 : ℕ) : ℤ) - 1).toNat) :
      BsonReader Bytes) s [] := by
    rw [hstrip]
    exact Reads.ret s
  have hread := hbytes.bind (g := fun b => lift (slice b 0 (((s.length + 1 : ℕ) : ℤ) - 1).toNat))
    hlift
  rwa [List.append_nil] at hread

theorem eq_le_of_intBytes {u : Bytes} (h : IntBytes 4 (2^31) n u) {k : ℕ} (hk : n = k) :
    k < 2^31 ∧ u = le 4 k := by
  obtain ⟨-, hhi, rfl⟩ := h
  subst hk
  refine ⟨by omega, ?_⟩
  rw [Int.emod_eq_of_lt (by omega) (by omega), Int.toNat_natCast]

theorem sound_readString : Sound readString StringBytes := by
  intro pre suf
  refine (sound_readInt32 pre suf).bind fun n u rest _ hn => ?_
  refine soundAt_ite (fun _ => soundAt_fail _) fun hpos => ?_
  refine (sound_readBytes n (pre ++ u) rest).bind fun b w rest' _ hb => ?_
  obtain ⟨rfl, hlen⟩ := hb
  have hlast : w ≠ [] := fun hnil => by
    rw [hnil, List.length_nil] at hlen
    omega
  have hcount : (n - 1).toNat = w.dropLast.length := by
    rw [List.length_dropLast]
    omega
  have hsplit : w = w.dropLast ++ [w.getLast hlast] := (List.dropLast_append_getLast hlast).symm
  have hstrip : slice w 0 (n - 1).toNat = .ok w.dropLast := by
    have hall : w = [] ++ (w.dropLast ++ [w.getLast hlast]) := hsplit
    exact slice_of_eq hall rfl (by rw [hcount, Nat.zero_add])
  refine soundAt_lift ⟨_, hstrip⟩ fun s hs => ?_
  obtain rfl := Except.ok.inj (hstrip.symm.trans hs)
  have hfull : n = ((w.dropLast.length + 1 : ℕ) : ℤ) := by omega
  obtain ⟨hlt, rfl⟩ := eq_le_of_intBytes hn hfull
  refine ⟨hlt, w.getLast hlast, ?_⟩
  rw [List.append_nil, ← hsplit]

theorem reads_readBinary {b : Bytes} (h : BinaryBytes b w) : Reads readBinary b w := by
  obtain ⟨hlen, subtype, rfl⟩ := h
  refine (reads_readInt32 (intBytes_length hlen)).bind ?_
  rw [if_neg (by omega)]
  exact (reads_readByte subtype).bind (reads_readBytes rfl)

theorem sound_readBinary : Sound readBinary BinaryBytes := by
  intro pre suf
  refine (sound_readInt32 pre suf).bind fun n u rest _ hn => ?_
  refine soundAt_ite (fun _ => soundAt_fail _) fun hpos => ?_
  refine (sound_readByte (pre ++ u) rest).bind fun subtype w rest' _ hw => ?_
  refine (sound_readBytes n _ rest').mono ?_
  rintro b v ⟨rfl, hlen⟩
  obtain ⟨hlt, rfl⟩ := eq_le_of_intBytes hn hlen
  exact ⟨hlt, subtype, by rw [hw]; rfl⟩

end Readers

section Documents

variable {nested : BsonReader BsonDoc}

theorem reads_parseElementValue {v : BsonValue} {w : Bytes} (hv : v.Encodes w)
    (hnested : ∀ d u, v = .document d ∨ v = .array d → d.Encodes u → Reads nested d u) :
    Reads (parseElementValue nested v.typ.byte) v w := by
  unfold parseElementValue
  rw [BsonType.ofByte_byte]
  cases v with
  | double bits =>
    rw [BsonValue.Encodes] at hv
    obtain ⟨hbits, rfl⟩ := hv
    have hread := (reads_readBytes (congrArg Nat.cast (length_le 8 bits).symm)).map
      fun b => BsonValue.double (littleEndian b)
    rwa [littleEndian_le hbits] at hread
  | string s =>
    rw [BsonValue.Encodes] at hv
    exact (reads_readString hv).map _
  | document d =>
    rw [BsonValue.Encodes] at hv
    exact (hnested d w (.inl rfl) hv).map _
  | array d =>
    rw [BsonValue.Encodes] at hv
    exact (hnested d w (.inr rfl) hv).map _
  | binary b =>
    rw [BsonValue.Encodes] at hv
    exact (reads_readBinary hv).map _
  | objectId b =>
    rw [BsonValue.Encodes] at hv
    obtain ⟨hlen, rfl⟩ := hv
    exact (reads_readBytes (congrArg Nat.cast hlen.symm)).map _
  | boolean b =>
    rw [BsonValue.Encodes] at hv
    obtain ⟨byte, rfl, rfl⟩ := hv
    exact (reads_readByte byte).map fun b => BsonValue.boolean (b ≠ 0x00)
  | datetime n =>
    rw [BsonValue.Encodes] at hv
    exact (reads_readInt64 hv).map _
  | null =>
    rw [BsonValue.Encodes] at hv
    rw [hv]
    exact Reads.ret _
  | regex pat opt =>
    rw [BsonValue.Encodes] at hv
    obtain ⟨hpat, hopt, rfl⟩ := hv
    have hread := (reads_readCString hpat).bind
      (g := fun pat => bind readCString fun opt => ret (BsonValue.regex pat opt))
      ((reads_readCString hopt).map fun opt => BsonValue.regex pat opt)
    rwa [List.append_assoc, List.singleton_append] at hread
  | symbol s =>
    rw [BsonValue.Encodes] at hv
    exact (reads_readString hv).map _
  | int32 n =>
    rw [BsonValue.Encodes] at hv
    exact (reads_readInt32 hv).map _
  | timestamp n =>
    rw [BsonValue.Encodes] at hv
    exact (reads_readInt64 hv).map _
  | int64 n =>
    rw [BsonValue.Encodes] at hv
    exact (reads_readInt64 hv).map _

theorem sound_parseElementValue (hnested : Sound nested BsonDoc.Encodes) (t : UInt8) :
    Sound (parseElementValue nested t) fun v w => v.typ.byte = t ∧ v.Encodes w := by
  intro pre suf
  unfold parseElementValue
  cases htyp : BsonType.ofByte t with
  | none => exact soundAt_fail _
  | some typ =>
    obtain rfl := BsonType.byte_of_ofByte htyp
    cases typ with
    | double =>
      refine (sound_readBytes 8 pre suf).map _ ?_
      rintro b w ⟨rfl, hlen⟩
      have hlt := littleEndian_lt w
      have hback := le_littleEndian w
      rw [← Nat.cast_inj.mp hlen] at hlt hback
      refine ⟨rfl, ?_⟩
      rw [BsonValue.Encodes, hback]
      exact ⟨hlt, rfl⟩
    | string =>
      refine (sound_readString pre suf).map _ fun s w hs => ⟨rfl, ?_⟩
      rw [BsonValue.Encodes]
      exact hs
    | document =>
      refine (hnested pre suf).map _ fun d w hd => ⟨rfl, ?_⟩
      rw [BsonValue.Encodes]
      exact hd
    | array =>
      refine (hnested pre suf).map _ fun d w hd => ⟨rfl, ?_⟩
      rw [BsonValue.Encodes]
      exact hd
    | binary =>
      refine (sound_readBinary pre suf).map _ fun b w hb => ⟨rfl, ?_⟩
      rw [BsonValue.Encodes]
      exact hb
    | objectId =>
      refine (sound_readBytes 12 pre suf).map _ ?_
      rintro b w ⟨rfl, hlen⟩
      refine ⟨rfl, ?_⟩
      rw [BsonValue.Encodes]
      exact ⟨(Nat.cast_inj.mp hlen).symm, rfl⟩
    | boolean =>
      refine (sound_readByte pre suf).map _ fun b w hw => ⟨rfl, ?_⟩
      rw [BsonValue.Encodes]
      exact ⟨b, rfl, hw⟩
    | datetime =>
      refine (sound_readInt64 pre suf).map _ fun n w hn => ⟨rfl, ?_⟩
      rw [BsonValue.Encodes]
      exact hn
    | null =>
      refine soundAt_ret _ ⟨rfl, ?_⟩
      rw [BsonValue.Encodes]
    | regex =>
      refine (sound_readCString pre suf).bind fun pat w rest _ hpat => ?_
      refine (sound_readCString (pre ++ w) rest).map _ fun opt v hopt => ⟨rfl, ?_⟩
      rw [BsonValue.Encodes, hpat.2, hopt.2, List.append_assoc, List.singleton_append]
      exact ⟨hpat.1, hopt.1, rfl⟩
    | symbol =>
      refine (sound_readString pre suf).map _ fun s w hs => ⟨rfl, ?_⟩
      rw [BsonValue.Encodes]
      exact hs
    | int32 =>
      refine (sound_readInt32 pre suf).map _ fun n w hn => ⟨rfl, ?_⟩
      rw [BsonValue.Encodes]
      exact hn
    | timestamp =>
      refine (sound_readInt64 pre suf).map _ fun n w hn => ⟨rfl, ?_⟩
      rw [BsonValue.Encodes]
      exact hn
    | int64 =>
      refine (sound_readInt64 pre suf).map _ fun n w hn => ⟨rfl, ?_⟩
      rw [BsonValue.Encodes]
      exact hn

variable {value : UInt8 → BsonReader BsonValue}

theorem parseElems_succ {fuel stop pos : ℕ} {buf : Bytes} {t : UInt8} (hpos : pos < stop)
    (hbyte : readByte buf pos = .ok (.ok (t, pos + 1))) :
    parseElems value (fuel + 1) stop buf pos =
      (if t = 0x00 then checkEnd stop
        else bind readCString fun name => bind (value t) fun val =>
          bind (parseElems value fuel stop) fun rest => ret (.cons name val rest))
        buf (pos + 1) := by
  change (if pos ≥ stop then _ else bind readByte _ buf pos) = _
  rw [if_neg (Nat.not_le_of_lt hpos), bind_of_ok hbyte]

theorem reads_parseElems {k : ℕ}
    (hvalue : ∀ v w, v.depth ≤ k → v.Encodes w → Reads (value v.typ.byte) v w) {d : BsonDoc}
    (hdepth : d.depth ≤ k) {body : Bytes} (hd : d.Elems body) {fuel : ℕ}
    (hfuel : body.length < fuel) (pre rest : Bytes) {buf : Bytes} {stop : ℕ}
    (hbuf : buf = pre ++ (body ++ 0x00 :: rest)) (hstop : stop = pre.length + body.length + 1) :
    parseElems value fuel stop buf pre.length = .ok (.ok (d, stop)) := by
  induction d using BsonDoc.elems_induction generalizing body fuel pre with
  | nil =>
    rw [BsonDoc.Elems] at hd
    subst hd
    obtain ⟨fuel, rfl⟩ := Nat.exists_eq_add_one.mpr hfuel
    have hbyte : readByte buf pre.length = .ok (.ok (0x00, pre.length + 1)) :=
      (reads_readByte 0x00).at hbuf rfl
    have hend : pre.length + 1 = stop := hstop.symm
    rw [parseElems_succ (by omega) hbyte, if_pos rfl, checkEnd, if_neg (not_not.mpr hend), hend]
  | cons name val tail ih =>
    rw [BsonDoc.Elems] at hd
    obtain ⟨hname, wv, wr, hval, htail, rfl⟩ := hd
    rw [BsonDoc.depth] at hdepth
    obtain ⟨fuel, rfl⟩ := Nat.exists_eq_add_one.mpr (Nat.zero_lt_of_lt hfuel)
    simp only [List.length_cons, List.length_append] at hstop hfuel
    have hbyte : readByte buf pre.length = .ok (.ok (val.typ.byte, pre.length + 1)) :=
      (reads_readByte val.typ.byte).at hbuf rfl
    have hname' : readCString buf (pre.length + 1) =
        .ok (.ok (name, pre.length + 1 + (name ++ [0x00]).length)) := by
      refine (reads_readCString hname).at (?_ : buf = (pre ++ [val.typ.byte]) ++ (_ ++
        (wv ++ (wr ++ 0x00 :: rest)))) (by rw [List.length_append]; rfl)
      simp only [hbuf, List.append_assoc, List.cons_append, List.nil_append]
    obtain ⟨front, hfront⟩ : ∃ front, pre ++ (val.typ.byte :: (name ++ [0x00])) = front := ⟨_, rfl⟩
    have hfrontLen : front.length = pre.length + 1 + (name ++ [0x00]).length := by
      simp only [← hfront, List.length_append, List.length_cons]
      omega
    have hread : value val.typ.byte buf front.length =
        .ok (.ok (val, front.length + wv.length)) := by
      refine (hvalue val wv ((le_max_left _ _).trans hdepth) hval).at
        (?_ : buf = front ++ (wv ++ (wr ++ 0x00 :: rest))) rfl
      simp only [hbuf, ← hfront, List.append_assoc, List.cons_append, List.nil_append]
    have hloop : parseElems value fuel stop buf (front ++ wv).length = .ok (.ok (tail, stop)) := by
      refine ih ((le_max_right _ _).trans hdepth) htail (by omega) (front ++ wv) ?_ ?_
      · simp only [hbuf, ← hfront, List.append_assoc, List.cons_append, List.nil_append]
      · simp only [hstop, ← hfront, List.length_append, List.length_cons, List.length_nil]
        omega
    rw [List.length_append] at hloop
    rw [parseElems_succ (by omega) hbyte, if_neg val.typ.byte_ne_zero, bind_of_ok hname',
      ← hfrontLen, bind_of_ok hread, bind_of_ok hloop]
    rfl

theorem soundAt_checkEnd {stop : ℕ} {pre suf : Bytes} {R : BsonDoc → Bytes → Prop}
    (h : pre.length = stop → R .nil []) : SoundAt (checkEnd stop) pre suf R := by
  by_cases hend : pre.length = stop
  · obtain ⟨out, hret, hread⟩ : SoundAt (ret .nil : BsonReader BsonDoc) pre suf R :=
      soundAt_ret _ (h hend)
    exact ⟨out, (if_neg (not_not.mpr hend)).trans hret, hread⟩
  · exact ⟨_, if_pos hend, fun _ _ heq => by cases heq⟩

theorem soundAt_parseElems
    (hvalue : ∀ t, Sound (value t) fun v w => v.typ.byte = t ∧ v.Encodes w) {fuel : ℕ}
    {pre suf : Bytes} (hfuel : suf.length < fuel) (stop : ℕ) :
    SoundAt (parseElems value fuel stop) pre suf fun d w =>
      ∃ body, d.Elems body ∧ w = body ++ [0x00] ∧ (pre ++ w).length = stop := by
  induction fuel generalizing pre suf with
  | zero => omega
  | succ fuel ih =>
    by_cases hpos : pre.length ≥ stop
    · exact ⟨_, if_pos hpos, fun _ _ heq => by cases heq⟩
    have hround : SoundAt (bind readByte fun t =>
        if t = 0x00 then checkEnd stop
        else bind readCString fun name => bind (value t) fun val =>
          bind (parseElems value fuel stop) fun rest => ret (.cons name val rest)) pre suf
        fun d w => ∃ body, d.Elems body ∧ w = body ++ [0x00] ∧ (pre ++ w).length = stop := by
      refine (sound_readByte pre suf).bind fun t w rest hsuf hw => ?_
      subst hw
      refine soundAt_ite (fun hzero => ?_) fun _ => ?_
      · refine soundAt_checkEnd fun hend => ⟨[], ?_, ?_, ?_⟩
        · rw [BsonDoc.Elems]
        · rw [hzero]
          rfl
        · rw [List.append_nil, hend]
      · refine (sound_readCString _ rest).bind fun name wn rest' hrest hname => ?_
        refine (hvalue t _ rest').bind fun val wv rest'' hrest' hval => ?_
        have hshort : rest''.length < fuel := by
          rw [hsuf, hrest, hrest'] at hfuel
          simp only [List.length_append, List.length_singleton] at hfuel
          omega
        refine (ih hshort).map _ ?_
        rintro tail w ⟨body, htail, rfl, hend⟩
        refine ⟨t :: (name ++ 0x00 :: (wv ++ body)), ?_, ?_, ?_⟩
        · rw [BsonDoc.Elems, hval.1]
          exact ⟨hname.1, wv, body, hval.2, htail, rfl⟩
        · simp only [hname.2, List.append_assoc, List.cons_append, List.nil_append]
        · rw [← hend]
          simp only [List.append_assoc]
    obtain ⟨out, hout, hread⟩ := hround
    exact ⟨out, (if_neg hpos).trans hout, hread⟩

theorem length_frame (body : Bytes) : (frame body).length = body.length + 5 := by
  rw [frame, List.length_append, List.length_append, length_le, List.length_singleton]
  omega

theorem reads_parseDocumentAt {k : ℕ} {d : BsonDoc} {w : Bytes} (hd : d.Encodes w)
    (hdepth : d.depth < k) : Reads (parseDocumentAt k) d w := by
  induction k generalizing d w with
  | zero => omega
  | succ k ih =>
    obtain ⟨body, hbody, rfl, hsize⟩ := hd
    intro pre rest
    have hvalue : ∀ v w, v.depth ≤ k → v.Encodes w →
        Reads (parseElementValue (parseDocumentAt k) v.typ.byte) v w := by
      intro v w hv hw
      refine reads_parseElementValue hw fun c u hc hcu => ih hcu ?_
      rcases hc with rfl | rfl
      · rw [BsonValue.depth] at hv
        exact hv
      · rw [BsonValue.depth] at hv
        exact hv
    rw [length_frame] at hsize
    obtain ⟨buf, hbuf⟩ : ∃ buf, pre ++ (frame body ++ rest) = buf := ⟨_, rfl⟩
    have hlen : buf.length = pre.length + (body.length + 5) + rest.length := by
      rw [← hbuf, List.length_append, List.length_append, length_frame]
      omega
    have hsplit : buf = pre ++ (le 4 (body.length + 5) ++ (body ++ 0x00 :: rest)) := by
      simp only [← hbuf, frame, List.append_assoc, List.singleton_append]
    have hint : readInt32 buf pre.length =
        .ok (.ok (((body.length + 5 : ℕ) : ℤ), pre.length + 4)) := by
      have hat := (reads_readInt32 (intBytes_length hsize)).at hsplit rfl
      rwa [length_le] at hat
    have hfront : (pre ++ le 4 (body.length + 5)).length = pre.length + 4 := by
      rw [List.length_append, length_le]
    have hbehind : buf = (pre ++ le 4 (body.length + 5)) ++ (body ++ 0x00 :: rest) := by
      rw [hsplit, List.append_assoc]
    have hstop : pre.length + ((body.length + 5 : ℕ) : ℤ).toNat =
        (pre ++ le 4 (body.length + 5)).length + body.length + 1 := by
      rw [hfront]
      omega
    have hloop := reads_parseElems hvalue (Nat.lt_succ_iff.mp hdepth) hbody
      (show body.length < buf.length + 1 by omega) (pre ++ le 4 (body.length + 5)) rest
      hbehind hstop
    rw [hbuf, List.length_append, length_frame]
    change bind readInt32 _ buf pre.length = _
    rw [bind_of_ok hint, if_neg (by omega), if_neg (by omega), ← hfront]
    exact hloop

theorem sound_parseDocumentAt (k : ℕ) : Sound (parseDocumentAt k) BsonDoc.Encodes := by
  induction k with
  | zero => exact fun pre suf => soundAt_fail _
  | succ k ih =>
    intro pre suf
    have hvalue := sound_parseElementValue ih
    have hbody : SoundAt (bind readInt32 fun docLen =>
        if docLen < 5 then fail (errBSON "document length too small")
        else if pre.length + docLen > (pre ++ suf).length then
          fail (errBSON "document length exceeds buffer")
        else parseElems (parseElementValue (parseDocumentAt k)) ((pre ++ suf).length + 1)
          (pre.length + docLen.toNat)) pre suf BsonDoc.Encodes := by
      refine (sound_readInt32 pre suf).bind fun docLen u rest hsuf hu => ?_
      refine soundAt_ite (fun _ => soundAt_fail _) fun hmin => ?_
      refine soundAt_ite (fun _ => soundAt_fail _) fun _ => ?_
      have hfuel : rest.length < (pre ++ suf).length + 1 := by
        rw [hsuf, List.length_append, List.length_append]
        omega
      refine (soundAt_parseElems hvalue hfuel _).mono ?_
      rintro d w ⟨body, hd, rfl, hend⟩
      have hu4 : u.length = 4 := by rw [hu.2.2, length_le]
      simp only [List.length_append, List.length_singleton, hu4] at hend
      have hlen : docLen = ((body.length + 5 : ℕ) : ℤ) := by omega
      obtain ⟨hlt, rfl⟩ := eq_le_of_intBytes hu hlen
      exact ⟨body, hd, rfl, (length_frame body).trans_lt hlt⟩
    exact hbody

end Documents

section Nesting

theorem BsonValue.encodes_of_mem_inner {v : BsonValue} {c : BsonDoc} {w : Bytes} (hv : v.Encodes w)
    (hc : c ∈ v.inner) : c.Encodes w := by
  cases v with
  | document d =>
    rw [inner, List.mem_singleton] at hc
    rw [Encodes] at hv
    rw [hc]
    exact hv
  | array d =>
    rw [inner, List.mem_singleton] at hc
    rw [Encodes] at hv
    rw [hc]
    exact hv
  | _ => exact absurd hc List.not_mem_nil

theorem BsonDoc.exists_of_mem_children {d c : BsonDoc} {body : Bytes} (hd : d.Elems body)
    (hc : c ∈ d.children) : ∃ before u after, body = before ++ (u ++ after) ∧ c.Encodes u := by
  induction d using BsonDoc.elems_induction generalizing body with
  | nil => exact absurd hc List.not_mem_nil
  | cons name val rest ih =>
    rw [Elems] at hd
    obtain ⟨-, wv, wr, hval, hrest, rfl⟩ := hd
    rw [children, List.mem_append] at hc
    rcases hc with hc | hc
    · refine ⟨val.typ.byte :: (name ++ [0x00]), wv, wr, ?_, BsonValue.encodes_of_mem_inner hval hc⟩
      simp only [List.cons_append, List.append_assoc, List.nil_append]
    · obtain ⟨before, u, after, rfl, hu⟩ := ih hrest hc
      refine ⟨val.typ.byte :: (name ++ 0x00 :: (wv ++ before)), u, after, ?_, hu⟩
      simp only [List.cons_append, List.append_assoc]

theorem BsonDoc.Encodes.inside {d c : BsonDoc} {w : Bytes} (hd : d.Encodes w)
    (hc : c ∈ d.children) : ∃ before u after,
      w = before ++ (u ++ after) ∧ c.Encodes u ∧ 4 ≤ before.length ∧ after ≠ [] := by
  obtain ⟨body, hbody, rfl, -⟩ := hd
  obtain ⟨before, u, after, rfl, hu⟩ := BsonDoc.exists_of_mem_children hbody hc
  refine ⟨le 4 ((before ++ (u ++ after)).length + 5) ++ before, u, after ++ [0x00], ?_, hu, ?_, ?_⟩
  · simp only [frame, List.append_assoc]
  · rw [List.length_append, length_le]
    omega
  · exact List.concat_ne_nil _ _

theorem BsonDoc.Encodes.declared {d : BsonDoc} {w : Bytes} (hd : d.Encodes w) (pre rest : Bytes) :
    readInt32 (pre ++ (w ++ rest)) pre.length = .ok (.ok (w.length, pre.length + 4)) := by
  obtain ⟨body, -, rfl, hsize⟩ := hd
  rw [length_frame] at hsize ⊢
  have hbuf : pre ++ (frame body ++ rest) =
      pre ++ (le 4 (body.length + 5) ++ ((body ++ [0x00]) ++ rest)) := by
    rw [frame, List.append_assoc]
  have hat := (reads_readInt32 (intBytes_length hsize)).at hbuf rfl
  rwa [length_le] at hat

end Nesting

section Encoder

theorem stringBytes_nul {s : Bytes} (h : (le 4 (s.length + 1) ++ (s ++ [0x00])).length < 2^31) :
    StringBytes s (le 4 (s.length + 1) ++ (s ++ [0x00])) := by
  rw [List.length_append, List.length_append, List.length_singleton] at h
  exact ⟨by omega, 0x00, rfl⟩

theorem encodes_frame {d : BsonDoc} (hsize : (frame d.encodeElems).length < 2^31)
    (hd : d.encodeElems.length < 2^31 → d.Elems d.encodeElems) : d.Encodes d.encode := by
  refine ⟨d.encodeElems, hd ?_, rfl, hsize⟩
  rw [length_frame] at hsize
  omega

mutual

theorem BsonValue.encodes_encode : ∀ v : BsonValue, v.Legal → v.encode.length < 2^31 →
    v.Encodes v.encode
  | .double bits, h, _ => by
    rw [BsonValue.Legal] at h
    rw [BsonValue.Encodes, BsonValue.encode]
    exact ⟨h, rfl⟩
  | .string s, _, hsize => by
    rw [BsonValue.encode] at hsize ⊢
    rw [BsonValue.Encodes]
    exact stringBytes_nul hsize
  | .document d, h, hsize => by
    rw [BsonValue.Legal] at h
    rw [BsonValue.encode] at hsize ⊢
    rw [BsonValue.Encodes]
    exact encodes_frame hsize (BsonDoc.elems_encodeElems d h)
  | .array d, h, hsize => by
    rw [BsonValue.Legal] at h
    rw [BsonValue.encode] at hsize ⊢
    rw [BsonValue.Encodes]
    exact encodes_frame hsize (BsonDoc.elems_encodeElems d h)
  | .binary b, _, hsize => by
    rw [BsonValue.encode] at hsize ⊢
    rw [List.length_append, List.length_cons] at hsize
    rw [BsonValue.Encodes]
    exact ⟨by omega, 0x00, rfl⟩
  | .objectId b, h, _ => by
    rw [BsonValue.Legal] at h
    rw [BsonValue.Encodes, BsonValue.encode]
    exact ⟨h, rfl⟩
  | .boolean b, _, _ => by
    rw [BsonValue.Encodes, BsonValue.encode]
    refine ⟨if b then 0x01 else 0x00, ?_, rfl⟩
    cases b <;> rfl
  | .datetime n, h, _ => by
    rw [BsonValue.Legal] at h
    rw [BsonValue.Encodes, BsonValue.encode]
    exact ⟨h.1, h.2, rfl⟩
  | .null, _, _ => by
    rw [BsonValue.Encodes, BsonValue.encode]
  | .regex pat opt, h, _ => by
    rw [BsonValue.Legal] at h
    rw [BsonValue.Encodes, BsonValue.encode]
    exact ⟨h.1, h.2, rfl⟩
  | .symbol s, _, hsize => by
    rw [BsonValue.encode] at hsize ⊢
    rw [BsonValue.Encodes]
    exact stringBytes_nul hsize
  | .int32 n, h, _ => by
    rw [BsonValue.Legal] at h
    rw [BsonValue.Encodes, BsonValue.encode]
    exact ⟨h.1, h.2, rfl⟩
  | .timestamp n, h, _ => by
    rw [BsonValue.Legal] at h
    rw [BsonValue.Encodes, BsonValue.encode]
    exact ⟨h.1, h.2, rfl⟩
  | .int64 n, h, _ => by
    rw [BsonValue.Legal] at h
    rw [BsonValue.Encodes, BsonValue.encode]
    exact ⟨h.1, h.2, rfl⟩

theorem BsonDoc.elems_encodeElems : ∀ d : BsonDoc, d.Legal → d.encodeElems.length < 2^31 →
    d.Elems d.encodeElems
  | .nil, _, _ => by
    rw [BsonDoc.Elems, BsonDoc.encodeElems]
  | .cons name val rest, h, hsize => by
    rw [BsonDoc.Legal] at h
    rw [BsonDoc.encodeElems] at hsize ⊢
    simp only [List.length_cons, List.length_append] at hsize
    rw [BsonDoc.Elems]
    exact ⟨h.1, val.encode, rest.encodeElems,
      BsonValue.encodes_encode val h.2.1 (by omega),
      BsonDoc.elems_encodeElems rest h.2.2 (by omega), rfl⟩

end

theorem BsonDoc.Legal.encodes_encode {d : BsonDoc} (h : d.Legal) (hsize : d.encode.length < 2^31) :
    d.Encodes d.encode :=
  encodes_frame hsize (BsonDoc.elems_encodeElems d h)

end Encoder

/-- A successful parse read the declared length, and these bytes encode the document. -/
def Consumed (pre suf : Bytes) (d : BsonDoc) (next : ℕ) : Prop :=
  ∃ w rest, suf = w ++ rest ∧ next = pre.length + w.length ∧
    readInt32 (pre ++ suf) pre.length = .ok (.ok (w.length, pre.length + 4)) ∧ d.Encodes w

/-- Encodings are read back and what follows is left, and every successful parse read an encoding
of its declared length, in which the documents one level down lie between the length and the
terminator.  No parse reads out of range. -/
theorem parseDocument_exact :
    (∀ (d : BsonDoc) (w rest : Bytes), d.depth < maxBSONDepth → d.Encodes w →
      parseDocument (w ++ rest) 0 = .ok (.ok (d, w.length)))
    ∧ (∀ d : BsonDoc, d.Legal → d.encode.length < 2^31 → d.Encodes d.encode)
    ∧ (∀ pre suf : Bytes, Safe (parseDocument (pre ++ suf) pre.length) ∧
      ∀ d next, parseDocument (pre ++ suf) pre.length = .ok (.ok (d, next)) →
        Consumed pre suf d next)
    ∧ (∀ (d c : BsonDoc) (w : Bytes), d.Encodes w → c ∈ d.children → ∃ before u after,
      w = before ++ (u ++ after) ∧ c.Encodes u ∧ 4 ≤ before.length ∧ after ≠ []) := by
  refine ⟨fun d w rest hdepth hd => ?_, fun d => BsonDoc.Legal.encodes_encode, fun pre suf => ?_,
    fun d c w hd hc => hd.inside hc⟩
  · exact reads_parseDocumentAt hd hdepth [] rest
  · obtain ⟨out, hout, hread⟩ := sound_parseDocumentAt maxBSONDepth pre suf
    refine ⟨⟨out, hout⟩, fun d next hok => ?_⟩
    obtain ⟨w, rest, rfl, rfl, hd⟩ := hread d next (Except.ok.inj (hout.symm.trans hok))
    exact ⟨w, rest, rfl, List.length_append, hd.declared pre rest, hd⟩

/-- An order with a list of two amounts, and a note. -/
def orderDoc : BsonDoc :=
  .cons "q".toUTF8.toList (.array (.cons "0".toUTF8.toList (.int32 (-2))
    (.cons "1".toUTF8.toList (.double 0) .nil)))
    (.cons "n".toUTF8.toList (.string "hi".toUTF8.toList) .nil)

theorem legal_orderDoc : orderDoc.Legal := by
  have hq : (0x00 : UInt8) ∉ "q".toUTF8.toList := by decide +kernel
  have h0 : (0x00 : UInt8) ∉ "0".toUTF8.toList := by decide +kernel
  have h1 : (0x00 : UInt8) ∉ "1".toUTF8.toList := by decide +kernel
  have hn : (0x00 : UInt8) ∉ "n".toUTF8.toList := by decide +kernel
  simp only [orderDoc, BsonDoc.Legal, BsonValue.Legal]
  refine ⟨hq, ⟨h0, by omega, h1, by omega, trivial⟩, hn, trivial, trivial⟩

theorem parseDocument_exact_order : orderDoc.encode.length = 41 ∧
    parseDocument (orderDoc.encode ++ [0x07, 0x00]) 0 =
      .ok (.ok (orderDoc, orderDoc.encode.length)) := by
  have hlen : orderDoc.encode.length = 41 := by decide +kernel
  have henc := parseDocument_exact.2.1 orderDoc legal_orderDoc (by rw [hlen]; decide)
  have hdepth : orderDoc.depth < maxBSONDepth := by decide +kernel
  exact ⟨hlen, parseDocument_exact.1 orderDoc _ _ hdepth henc⟩

end EnvoyGo.Mongo

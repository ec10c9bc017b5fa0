import EnvoyGo.Bson

/-!
The serialisation of header pairs between the host and a proxy-wasm guest,
`internal/wasm/pairs.go`: the count, then the lengths of all keys and values, then the strings, each
with a NUL behind it.
-/

namespace EnvoyGo.Wasm

open Slices Cursors Mongo

structure HeaderPair where
  key : Bytes
  value : Bytes
  deriving DecidableEq

/-- The errors that the callers tell apart with `errors.Is`. -/
inductive PairsSentinel where
  | truncated
  | trailingBytes
  | missingNUL
  deriving DecidableEq

inductive PairsError where
  | numPairs (total : ℕ)
  | capacity (numPairs remaining : ℕ)
  | table (numPairs remaining : ℕ)
  | keyBody (i keyLen pos total : ℕ)
  | keyTerminator (i : ℕ) (got : UInt8) (pos : ℕ)
  | valueBody (i valueLen pos total : ℕ)
  | valueTerminator (i : ℕ) (got : UInt8) (pos : ℕ)
  | trailing (consumed total : ℕ)
  deriving DecidableEq

def PairsError.sentinel : PairsError → PairsSentinel
  | .numPairs .. => .truncated
  | .capacity .. => .truncated
  | .table .. => .truncated
  | .keyBody .. => .truncated
  | .keyTerminator .. => .missingNUL
  | .valueBody .. => .truncated
  | .valueTerminator .. => .missingNUL
  | .trailing .. => .trailingBytes

def overwrite (out : Bytes) (pos : ℕ) (w : Bytes) : Bytes :=
  out.take pos ++ (w ++ out.drop (pos + w.length))

/-- `binary.LittleEndian.PutUint32(out[pos:pos+4], uint32(n))`. -/
def putUint32 (out : Bytes) (pos n : ℕ) : Checked Bytes :=
  if pos + 4 ≤ out.length then .ok (overwrite out pos (le 4 n)) else .error ⟨⟩

def copyInto (out : Bytes) (pos : ℕ) (s : Bytes) : Checked (Bytes × ℕ) :=
  if pos ≤ out.length then
    let n := min s.length (out.length - pos)
    .ok (overwrite out pos (s.take n), n)
  else .error ⟨⟩

def setByte (out : Bytes) (pos : ℕ) (x : UInt8) : Checked Bytes :=
  if pos < out.length then .ok (overwrite out pos [x]) else .error ⟨⟩

def encodedSize (pairs : List HeaderPair) : ℕ :=
  pairs.foldl (fun size p => size + 8 + (p.key.length + 1) + (p.value.length + 1)) 4

def encodeTable : List HeaderPair → Bytes → ℕ → Checked (Bytes × ℕ)
  | [], out, pos => .ok (out, pos)
  | p :: ps, out, pos => do
    let out ← putUint32 out pos p.key.length
    let out ← putUint32 out (pos + 4) p.value.length
    encodeTable ps out (pos + 8)

def encodeString (s out : Bytes) (pos : ℕ) : Checked (Bytes × ℕ) := do
  let (out, n) ← copyInto out pos s
  let out ← setByte out (pos + n) 0x00
  .ok (out, pos + n + 1)

def encodeBodies : List HeaderPair → Bytes → ℕ → Checked (Bytes × ℕ)
  | [], out, pos => .ok (out, pos)
  | p :: ps, out, pos => do
    let (out, pos) ← encodeString p.key out pos
    let (out, pos) ← encodeString p.value out pos
    encodeBodies ps out pos

def encodePairs (pairs : List HeaderPair) : Checked Bytes := do
  let out ← putUint32 (List.replicate (encodedSize pairs) 0x00) 0 pairs.length
  let (out, pos) ← encodeTable pairs out 4
  let (out, _) ← encodeBodies pairs out pos
  .ok out

structure Failure where
  error : PairsError
  allocated : ℕ

abbrev PairsReader (α : Type) := Cursor Failure α

/-- `binary.LittleEndian.Uint32(buf[pos:pos+4])`, and the move behind it. -/
def readSize : PairsReader ℕ := fun buf pos => do
  let b ← slice buf pos (pos + 4)
  .ok (.ok (littleEndian b, pos + 4))

def readTable : ℕ → PairsReader (List (ℕ × ℕ))
  | 0 => ret []
  | n + 1 => bind readSize fun keyLen => bind readSize fun valueLen =>
    bind (readTable n) fun table => ret ((keyLen, valueLen) :: table)

def readString (overruns : ℕ → ℕ → PairsError) (terminator : UInt8 → ℕ → PairsError)
    (allocated len : ℕ) : PairsReader Bytes := fun buf pos =>
  if buf.length < pos + len + 1 then .ok (.error ⟨overruns pos buf.length, allocated⟩) else do
  let s ← slice buf pos (pos + len)
  let x ← index buf (pos + len)
  if x ≠ 0x00 then .ok (.error ⟨terminator x (pos + len), allocated + len⟩)
  else .ok (.ok (s, pos + len + 1))

/-- The bodies of the pairs from `i` on, with all that is allocated in the end. -/
def readBodies : ℕ → ℕ → List (ℕ × ℕ) → PairsReader (List HeaderPair × ℕ)
  | _, allocated, [] => ret ([], allocated)
  | i, allocated, (keyLen, valueLen) :: table =>
    bind (readString (.keyBody i keyLen) (.keyTerminator i) allocated keyLen) fun key =>
    bind (readString (.valueBody i valueLen) (.valueTerminator i) (allocated + keyLen) valueLen)
      fun value =>
    bind (readBodies (i + 1) (allocated + keyLen + valueLen) table) fun r =>
      ret (⟨key, value⟩ :: r.1, r.2)

def tableEntrySize : ℕ := 8

def headerPairSize : ℕ := 32

/-- What `DecodePairs` returns, with the bytes that `make` and the conversions to string have
allocated.  An empty list stands for the nil slice. -/
structure Decoded where
  pairs : Except PairsError (List HeaderPair)
  allocated : ℕ

def finishPairs (buf : Bytes) : Except Failure ((List HeaderPair × ℕ) × ℕ) → Decoded
  | .error f => ⟨.error f.error, f.allocated⟩
  | .ok (r, pos) =>
    if pos ≠ buf.length then ⟨.error (.trailing pos buf.length), r.2⟩ else ⟨.ok r.1, r.2⟩

def decodePairs (buf : Bytes) : Checked Decoded :=
  if buf.length < 4 then .ok ⟨.error (.numPairs buf.length), 0⟩ else do
  let b ← slice buf 0 4
  let numPairs := littleEndian b
  let remaining := buf.length - 4
  if numPairs > remaining / 10 + 1 ∧ numPairs * 10 > remaining then
    .ok ⟨.error (.capacity numPairs remaining), 0⟩
  else if numPairs * 8 > remaining then .ok ⟨.error (.table numPairs remaining), 0⟩
  else do
  let out ← bind (readTable numPairs)
    (readBodies 0 (tableEntrySize * numPairs + headerPairSize * numPairs)) buf 4
  .ok (finishPairs buf out)

def tableBytes (pairs : List HeaderPair) : Bytes :=
  pairs.flatMap (fun p => le 4 p.key.length ++ le 4 p.value.length)

def bodyBytes (pairs : List HeaderPair) : Bytes :=
  pairs.flatMap (fun p => (p.key ++ [0x00]) ++ (p.value ++ [0x00]))

/-- The wire format of the comment at the top of the file. -/
def layout (pairs : List HeaderPair) : Bytes :=
  le 4 pairs.length ++ (tableBytes pairs ++ bodyBytes pairs)

theorem bodyBytes_cons (p : HeaderPair) (ps : List HeaderPair) :
    bodyBytes (p :: ps) = (p.key ++ [0x00]) ++ ((p.value ++ [0x00]) ++ bodyBytes ps) := by
  rw [bodyBytes, bodyBytes, List.flatMap_cons, List.append_assoc]

theorem tableBytes_cons (p : HeaderPair) (ps : List HeaderPair) :
    tableBytes (p :: ps) = le 4 p.key.length ++ (le 4 p.value.length ++ tableBytes ps) := by
  rw [tableBytes, tableBytes, List.flatMap_cons, List.append_assoc]

theorem length_tableBytes (pairs : List HeaderPair) :
    (tableBytes pairs).length = 8 * pairs.length := by
  induction pairs with
  | nil => rfl
  | cons p ps ih =>
    unfold tableBytes at ih ⊢
    rw [List.flatMap_cons, List.length_append, List.length_append, ih, length_le, length_le,
      List.length_cons]
    omega

theorem foldl_size (pairs : List HeaderPair) (size : ℕ) :
    pairs.foldl (fun size p => size + 8 + (p.key.length + 1) + (p.value.length + 1)) size =
      size + (tableBytes pairs).length + (bodyBytes pairs).length := by
  induction pairs generalizing size with
  | nil => rfl
  | cons p ps ih =>
    rw [List.foldl_cons, ih, length_tableBytes, length_tableBytes, bodyBytes, bodyBytes,
      List.flatMap_cons, List.length_append, List.length_append, List.length_append,
      List.length_append, List.length_singleton, List.length_cons]
    omega

theorem encodedSize_eq (pairs : List HeaderPair) :
    encodedSize pairs = 4 + ((tableBytes pairs).length + (bodyBytes pairs).length) := by
  unfold encodedSize
  rw [foldl_size]
  omega

section Encode

variable {w : Bytes} {k : ℕ}

theorem overwrite_zeros (s : Bytes) :
    overwrite (w ++ List.replicate (s.length + k) 0x00) w.length s =
      (w ++ s) ++ List.replicate k 0x00 := by
  unfold overwrite
  rw [List.take_left, List.drop_length_add_append, List.drop_replicate, Nat.add_sub_cancel_left,
    List.append_assoc]

theorem putUint32_zeros (n : ℕ) :
    putUint32 (w ++ List.replicate (4 + k) 0x00) w.length n =
      .ok ((w ++ le 4 n) ++ List.replicate k 0x00) := by
  have hroom : w.length + 4 ≤ (w ++ List.replicate (4 + k) (0x00 : UInt8)).length := by
    rw [List.length_append, List.length_replicate]
    omega
  have hlen : (le 4 n).length + k = 4 + k := by rw [length_le]
  rw [putUint32, if_pos hroom, ← hlen, overwrite_zeros]

theorem encodeString_zeros (s : Bytes) :
    encodeString s (w ++ List.replicate ((s ++ [0x00]).length + k) 0x00) w.length =
      .ok ((w ++ (s ++ [0x00])) ++ List.replicate k 0x00, (w ++ (s ++ [0x00])).length) := by
  have hsize : (s ++ [(0x00 : UInt8)]).length + k = s.length + (1 + k) := by
    rw [List.length_append, List.length_singleton]
    omega
  have hcopy : copyInto (w ++ List.replicate (s.length + (1 + k)) 0x00) w.length s =
      .ok ((w ++ s) ++ List.replicate (1 + k) 0x00, s.length) := by
    have hroom : w.length ≤ (w ++ List.replicate (s.length + (1 + k)) (0x00 : UInt8)).length := by
      rw [List.length_append]
      omega
    have hmin : min s.length
        ((w ++ List.replicate (s.length + (1 + k)) (0x00 : UInt8)).length - w.length) =
          s.length := by
      rw [List.length_append, List.length_replicate]
      omega
    rw [copyInto, if_pos hroom]
    dsimp only
    rw [hmin, List.take_length, overwrite_zeros]
  have hset : setByte ((w ++ s) ++ List.replicate (1 + k) 0x00) (w.length + s.length) 0x00 =
      .ok (((w ++ s) ++ [0x00]) ++ List.replicate k 0x00) := by
    have hroom : w.length + s.length <
        ((w ++ s) ++ List.replicate (1 + k) (0x00 : UInt8)).length := by
      rw [List.length_append, List.length_append, List.length_replicate]
      omega
    have hover := overwrite_zeros (w := w ++ s) (k := k) [0x00]
    rw [List.length_singleton, List.length_append] at hover
    rw [setByte, if_pos hroom, hover]
  have hend : w.length + s.length + 1 = (w ++ (s ++ [(0x00 : UInt8)])).length := by
    rw [List.length_append, List.length_append, List.length_singleton, Nat.add_assoc]
  rw [encodeString, hsize, hcopy, ok_bind]
  dsimp only
  rw [hset, ok_bind, hend, List.append_assoc w s]

theorem encodeTable_zeros (pairs : List HeaderPair) :
    encodeTable pairs (w ++ List.replicate ((tableBytes pairs).length + k) 0x00) w.length =
      .ok ((w ++ tableBytes pairs) ++ List.replicate k 0x00, (w ++ tableBytes pairs).length) := by
  induction pairs generalizing w with
  | nil => simp [encodeTable, tableBytes]
  | cons p ps ih =>
    have hsize : (tableBytes (p :: ps)).length + k =
        4 + (4 + ((tableBytes ps).length + k)) := by
      rw [length_tableBytes, length_tableBytes, List.length_cons]
      omega
    have hkey : (w ++ le 4 p.key.length).length = w.length + 4 := by
      rw [List.length_append, length_le]
    have hvalue : ((w ++ le 4 p.key.length) ++ le 4 p.value.length).length = w.length + 8 := by
      rw [List.length_append, hkey, length_le]
    have hall : w ++ tableBytes (p :: ps) =
        ((w ++ le 4 p.key.length) ++ le 4 p.value.length) ++ tableBytes ps := by
      rw [tableBytes_cons, List.append_assoc, List.append_assoc]
    rw [encodeTable, hsize, putUint32_zeros, ok_bind, ← hkey, putUint32_zeros, ok_bind, ← hvalue,
      ih, hall]

theorem encodeBodies_zeros (pairs : List HeaderPair) :
    encodeBodies pairs (w ++ List.replicate ((bodyBytes pairs).length + k) 0x00) w.length =
      .ok ((w ++ bodyBytes pairs) ++ List.replicate k 0x00, (w ++ bodyBytes pairs).length) := by
  induction pairs generalizing w with
  | nil => simp [encodeBodies, bodyBytes]
  | cons p ps ih =>
    have hsize : (bodyBytes (p :: ps)).length + k = (p.key ++ [(0x00 : UInt8)]).length +
        ((p.value ++ [(0x00 : UInt8)]).length + ((bodyBytes ps).length + k)) := by
      rw [bodyBytes_cons]
      simp only [List.length_append]
      omega
    have hall : w ++ bodyBytes (p :: ps) =
        ((w ++ (p.key ++ [0x00])) ++ (p.value ++ [0x00])) ++ bodyBytes ps := by
      rw [bodyBytes_cons]
      simp only [List.append_assoc]
    rw [encodeBodies, hsize, encodeString_zeros, ok_bind]
    dsimp only
    rw [encodeString_zeros, ok_bind]
    dsimp only
    rw [ih, hall]

end Encode

theorem encodePairs_eq (pairs : List HeaderPair) : encodePairs pairs = .ok (layout pairs) := by
  have hsize : List.replicate (encodedSize pairs) (0x00 : UInt8) = [] ++ List.replicate
      (4 + ((tableBytes pairs).length + ((bodyBytes pairs).length + 0))) 0x00 := by
    rw [encodedSize_eq, List.nil_append, Nat.add_zero]
  have hfour : (le 4 pairs.length).length = 4 := length_le 4 _
  have hput := putUint32_zeros (w := [])
    (k := (tableBytes pairs).length + ((bodyBytes pairs).length + 0)) pairs.length
  rw [List.length_nil, ← hsize, List.nil_append] at hput
  have htable := encodeTable_zeros (w := le 4 pairs.length) (k := (bodyBytes pairs).length + 0)
    pairs
  rw [hfour] at htable
  rw [encodePairs, hput, ok_bind, htable, ok_bind]
  dsimp only
  rw [encodeBodies_zeros, ok_bind, List.replicate_zero, List.append_nil, List.append_assoc]
  rfl

def sizes (pairs : List HeaderPair) : List (ℕ × ℕ) :=
  pairs.map (fun p => (p.key.length, p.value.length))

def stringBytes (table : List (ℕ × ℕ)) : ℕ := (table.map (fun s => s.1 + s.2)).sum

def Short (pairs : List HeaderPair) : Prop :=
  ∀ p ∈ pairs, p.key.length < 2^32 ∧ p.value.length < 2^32

section Reads

variable {pairs : List HeaderPair}

theorem reads_readSize {n : ℕ} (hn : n < 2^32) : Reads readSize n (le 4 n) := by
  intro pre rest
  have hfour : (le 4 n).length = 4 := length_le 4 n
  have hslice : slice (pre ++ (le 4 n ++ rest)) pre.length (pre.length + 4) = .ok (le 4 n) :=
    slice_of_eq rfl rfl (by rw [hfour])
  rw [readSize, hslice, ok_bind, littleEndian_le (by omega), List.length_append, hfour]

theorem reads_readTable (hshort : Short pairs) :
    Reads (readTable pairs.length) (sizes pairs) (tableBytes pairs) := by
  induction pairs with
  | nil => exact Reads.ret []
  | cons p ps ih =>
    obtain ⟨hkey, hvalue⟩ := hshort p List.mem_cons_self
    have hps : Short ps := fun q hq => hshort q (List.mem_cons_of_mem p hq)
    rw [List.length_cons, readTable, tableBytes_cons]
    refine (reads_readSize hkey).bind ?_
    refine (reads_readSize hvalue).bind ?_
    exact (ih hps).map (fun table => (p.key.length, p.value.length) :: table)

theorem reads_readString (overruns : ℕ → ℕ → PairsError) (terminator : UInt8 → ℕ → PairsError)
    (allocated : ℕ) (s : Bytes) :
    Reads (readString overruns terminator allocated s.length) s (s ++ [0x00]) := by
  intro pre rest
  have hbuf : pre ++ ((s ++ [0x00]) ++ rest) = pre ++ (s ++ (0x00 :: rest)) := by
    rw [List.append_assoc, List.singleton_append]
  have hroom : ¬ (pre ++ (s ++ (0x00 :: rest))).length < pre.length + s.length + 1 := by
    rw [List.length_append, List.length_append, List.length_cons]
    omega
  have hslice : slice (pre ++ (s ++ (0x00 :: rest))) pre.length (pre.length + s.length) = .ok s :=
    slice_of_eq rfl rfl rfl
  have hindex : index (pre ++ (s ++ (0x00 :: rest))) (pre.length + s.length) = .ok 0x00 := by
    rw [← List.append_assoc]
    exact index_of_eq rfl List.length_append
  have hend : (pre ++ (s ++ [(0x00 : UInt8)])).length = pre.length + s.length + 1 := by
    rw [List.length_append, List.length_append, List.length_singleton, Nat.add_assoc]
  rw [readString, hbuf, if_neg hroom, hslice, ok_bind, hindex, ok_bind, if_neg (by decide), hend]

theorem reads_readBodies (i allocated : ℕ) (pairs : List HeaderPair) :
    Reads (readBodies i allocated (sizes pairs)) (pairs, allocated + stringBytes (sizes pairs))
      (bodyBytes pairs) := by
  induction pairs generalizing i allocated with
  | nil => exact Reads.ret ([], allocated)
  | cons p ps ih =>
    have hsum : allocated + stringBytes ((p.key.length, p.value.length) :: sizes ps) =
        allocated + p.key.length + p.value.length + stringBytes (sizes ps) := by
      rw [stringBytes, List.map_cons, List.sum_cons, ← stringBytes]
      omega
    rw [sizes, List.map_cons, ← sizes, readBodies, hsum, bodyBytes_cons]
    refine (reads_readString _ _ allocated p.key).bind ?_
    refine (reads_readString _ _ (allocated + p.key.length) p.value).bind ?_
    exact (ih (i + 1) (allocated + p.key.length + p.value.length)).map (fun r => (p :: r.1, r.2))

theorem length_bodyBytes_le (pairs : List HeaderPair) :
    2 * pairs.length ≤ (bodyBytes pairs).length := by
  induction pairs with
  | nil => exact Nat.le_refl 0
  | cons p ps ih =>
    unfold bodyBytes at ih ⊢
    rw [List.flatMap_cons, List.length_append, List.length_append, List.length_append,
      List.length_append, List.length_singleton, List.length_cons]
    omega

theorem decodePairs_layout (hcount : pairs.length < 2^32) (hshort : Short pairs) :
    ∃ allocated, decodePairs (layout pairs) = .ok ⟨.ok pairs, allocated⟩ := by
  have hfour : (le 4 pairs.length).length = 4 := length_le 4 _
  have htable := length_tableBytes pairs
  have hbody := length_bodyBytes_le pairs
  have hlen :
      (layout pairs).length = 4 + ((tableBytes pairs).length + (bodyBytes pairs).length) := by
    rw [layout, List.length_append, List.length_append, hfour]
  have hslice : slice (layout pairs) 0 4 = .ok (le 4 pairs.length) :=
    slice_of_eq (List.nil_append (layout pairs)).symm rfl (by rw [hfour])
  have hcount' : littleEndian (le 4 pairs.length) = pairs.length := littleEndian_le (by omega)
  have hreads := (reads_readTable hshort).bind (reads_readBodies 0
    (tableEntrySize * pairs.length + headerPairSize * pairs.length) pairs)
  have hcut :
      layout pairs = le 4 pairs.length ++ ((tableBytes pairs ++ bodyBytes pairs) ++ []) := by
    rw [List.append_nil]
    rfl
  have hout := hreads.at hcut hfour.symm
  rw [List.length_append, ← hlen] at hout
  rw [decodePairs, if_neg (by omega), hslice, ok_bind, hcount']
  dsimp only
  rw [if_neg (by omega), if_neg (by omega), hout, ok_bind]
  exact ⟨_, congrArg Except.ok (if_neg (not_not.mpr rfl))⟩

end Reads

section Sound

variable {pre suf : Bytes}

variable {buf : Bytes} {pos n : ℕ}

theorem readSize_eq (hroom : pos + 4 ≤ buf.length) :
    readSize buf pos = .ok (.ok (littleEndian ((buf.drop pos).take 4), pos + 4)) := by
  rw [readSize, slice_eq_ok (Nat.le_add_right pos 4) hroom, ok_bind, Nat.add_sub_cancel_left]

theorem le_littleEndian_take (hroom : pos + 4 ≤ buf.length) :
    le 4 (littleEndian ((buf.drop pos).take 4)) = (buf.drop pos).take 4 := by
  have hfour : ((buf.drop pos).take 4).length = 4 := by
    rw [List.length_take, List.length_drop]
    omega
  have hback := le_littleEndian ((buf.drop pos).take 4)
  rwa [hfour] at hback

def tableOf (table : List (ℕ × ℕ)) : Bytes := table.flatMap (fun s => le 4 s.1 ++ le 4 s.2)

theorem tableBytes_eq_tableOf (pairs : List HeaderPair) :
    tableBytes pairs = tableOf (sizes pairs) := by
  unfold tableBytes tableOf sizes
  rw [List.flatMap_map]

theorem readTable_eq (hroom : pos + 8 * n ≤ buf.length) :
    ∃ table, readTable n buf pos = .ok (.ok (table, pos + 8 * n)) ∧
      (buf.drop pos).take (8 * n) = tableOf table ∧ table.length = n := by
  induction n generalizing pos with
  | zero => exact ⟨[], rfl, rfl, rfl⟩
  | succ n ih =>
    have hnext : pos + 4 + 4 + 8 * n ≤ buf.length := by omega
    obtain ⟨table, hread, hbytes, hlen⟩ := ih hnext
    refine ⟨(littleEndian ((buf.drop pos).take 4), littleEndian ((buf.drop (pos + 4)).take 4)) ::
      table, ?_, ?_, by rw [List.length_cons, hlen]⟩
    · rw [readTable, bind_of_ok (readSize_eq (by omega)), bind_of_ok (readSize_eq (by omega)),
        bind_of_ok hread]
      have hend : pos + 4 + 4 + 8 * n = pos + 8 * (n + 1) := by omega
      rw [hend]
      rfl
    · have hsplit : 8 * (n + 1) = 4 + (4 + 8 * n) := by omega
      rw [tableOf, List.flatMap_cons, ← tableOf, ← hbytes, le_littleEndian_take (by omega),
        le_littleEndian_take (by omega), hsplit, List.take_add, List.take_add, List.drop_drop,
        List.drop_drop, List.append_assoc]

theorem sound_readString (overruns : ℕ → ℕ → PairsError) (terminator : UInt8 → ℕ → PairsError)
    (allocated len : ℕ) : Sound (readString overruns terminator allocated len)
      (fun s w => s.length = len ∧ w = s ++ [0x00]) := by
  intro pre suf
  by_cases hroom : (pre ++ suf).length < pre.length + len + 1
  · refine ⟨_, by rw [readString, if_pos hroom], ?_⟩
    intro s next heq
    cases heq
  · rw [List.length_append] at hroom
    have htake : (suf.take len).length = len := by
      rw [List.length_take]
      omega
    obtain ⟨x, rest, hx⟩ := List.exists_cons_of_length_pos (l := suf.drop len) (by
      rw [List.length_drop]
      omega)
    have hsuf : suf = suf.take len ++ (x :: rest) := by rw [← hx, List.take_append_drop]
    have hslice : slice (pre ++ suf) pre.length (pre.length + len) = .ok (suf.take len) :=
      slice_of_eq (by rw [← hsuf]) rfl (by rw [htake])
    have hcut : pre ++ suf = (pre ++ suf.take len) ++ x :: rest := by
      rw [List.append_assoc, ← hsuf]
    have hindex : index (pre ++ suf) (pre.length + len) = .ok x :=
      index_of_eq hcut (by rw [List.length_append, htake])
    have hrun : readString overruns terminator allocated len (pre ++ suf) pre.length =
        if x ≠ 0x00 then .ok (.error ⟨terminator x (pre.length + len), allocated + len⟩)
        else .ok (.ok (suf.take len, pre.length + len + 1)) := by
      rw [readString, if_neg (by rw [List.length_append]; omega), hslice, ok_bind, hindex, ok_bind]
    by_cases hzero : x ≠ 0x00
    · rw [if_pos hzero] at hrun
      refine ⟨_, hrun, ?_⟩
      intro s next heq
      cases heq
    · rw [if_neg hzero] at hrun
      refine ⟨_, hrun, ?_⟩
      intro s next heq
      obtain ⟨rfl, rfl⟩ := Prod.mk.inj (Except.ok.inj heq)
      refine ⟨suf.take len ++ [0x00], rest, ?_, ?_, htake, rfl⟩
      · rw [List.append_assoc, List.singleton_append, ← not_not.mp hzero, ← hsuf]
      · rw [List.length_append, List.length_append, htake, List.length_singleton, Nat.add_assoc]

theorem sound_readBodies (i allocated : ℕ) (table : List (ℕ × ℕ)) :
    Sound (readBodies i allocated table)
      (fun r w => sizes r.1 = table ∧ w = bodyBytes r.1) := by
  induction table generalizing i allocated with
  | nil => exact fun pre suf => soundAt_ret _ ⟨rfl, rfl⟩
  | cons s table ih =>
    obtain ⟨keyLen, valueLen⟩ := s
    intro pre suf
    refine (sound_readString _ _ allocated keyLen pre suf).bind ?_
    intro key wk rest _ ⟨hkey, hwk⟩
    refine (sound_readString _ _ (allocated + keyLen) valueLen (pre ++ wk) rest).bind ?_
    intro value wv rest' _ ⟨hvalue, hwv⟩
    refine (ih (i + 1) (allocated + keyLen + valueLen) _ rest').map
      (fun r => (⟨key, value⟩ :: r.1, r.2)) ?_
    intro r w ⟨hsizes, hw⟩
    refine ⟨?_, ?_⟩
    · rw [sizes, List.map_cons, ← hsizes, ← hkey, ← hvalue, sizes]
    · rw [hwk, hwv, hw, bodyBytes_cons]

end Sound

section Allocated

variable {buf : Bytes} {pos : ℕ}

theorem bind_eq_ok {α β : Type} {f : PairsReader α} {g : α → PairsReader β}
    {out : Except Failure (β × ℕ)} (h : bind f g buf pos = .ok out) :
    (∃ e, f buf pos = .ok (.error e) ∧ out = .error e) ∨
    ∃ a next, f buf pos = .ok (.ok (a, next)) ∧ g a buf next = .ok out := by
  unfold Cursors.bind at h
  split at h
  · cases h
  · next e heq => exact Or.inl ⟨e, heq, (Except.ok.inj h).symm⟩
  · next a next heq => exact Or.inr ⟨a, next, heq, h⟩

theorem readString_cases {overruns : ℕ → ℕ → PairsError} {terminator : UInt8 → ℕ → PairsError}
    {allocated len : ℕ} {out : Except Failure (Bytes × ℕ)}
    (h : readString overruns terminator allocated len buf pos = .ok out) :
    (∃ f, out = .error f ∧ f.allocated ≤ allocated + (buf.length - pos)) ∨
    ∃ s, out = .ok (s, pos + len + 1) ∧ pos + len + 1 ≤ buf.length := by
  unfold readString at h
  by_cases hroom : buf.length < pos + len + 1
  · rw [if_pos hroom] at h
    exact Or.inl ⟨_, (Except.ok.inj h).symm, Nat.le_add_right allocated _⟩
  · have hslice : slice buf pos (pos + len) = .ok ((buf.drop pos).take len) := by
      rw [slice_eq_ok (by omega) (by omega), Nat.add_sub_cancel_left]
    obtain ⟨x, hx⟩ : Safe (index buf (pos + len)) := safe_index (by omega)
    rw [if_neg hroom, hslice, ok_bind, hx, ok_bind] at h
    by_cases hzero : x ≠ 0x00
    · rw [if_pos hzero] at h
      refine Or.inl ⟨_, (Except.ok.inj h).symm, ?_⟩
      dsimp only
      omega
    · rw [if_neg hzero] at h
      exact Or.inr ⟨_, (Except.ok.inj h).symm, by omega⟩

def spent : Except Failure ((List HeaderPair × ℕ) × ℕ) → ℕ
  | .error f => f.allocated
  | .ok (r, _) => r.2

theorem readBodies_spent {i allocated : ℕ} {table : List (ℕ × ℕ)}
    {out : Except Failure ((List HeaderPair × ℕ) × ℕ)}
    (h : readBodies i allocated table buf pos = .ok out) :
    spent out ≤ allocated + (buf.length - pos) := by
  induction table generalizing i allocated pos out with
  | nil =>
    rw [← Except.ok.inj h]
    exact Nat.le_add_right allocated _
  | cons s table ih =>
    obtain ⟨keyLen, valueLen⟩ := s
    rcases bind_eq_ok h with ⟨e, hkey, rfl⟩ | ⟨key, next, hkey, h⟩
    · rcases readString_cases hkey with ⟨f, heq, hle⟩ | ⟨s, heq, -⟩
      · rw [Except.error.inj heq]
        exact hle
      · cases heq
    obtain ⟨hnext, hend⟩ : next = pos + keyLen + 1 ∧ next ≤ buf.length := by
      rcases readString_cases hkey with ⟨f, heq, -⟩ | ⟨s, heq, hle⟩
      · cases heq
      · obtain ⟨-, rfl⟩ := Prod.mk.inj (Except.ok.inj heq)
        exact ⟨rfl, hle⟩
    rcases bind_eq_ok h with ⟨e, hvalue, rfl⟩ | ⟨value, next', hvalue, h⟩
    · rcases readString_cases hvalue with ⟨f, heq, hle⟩ | ⟨s, heq, -⟩
      · rw [Except.error.inj heq]
        change f.allocated ≤ _
        omega
      · cases heq
    obtain ⟨hnext', hend'⟩ : next' = next + valueLen + 1 ∧ next' ≤ buf.length := by
      rcases readString_cases hvalue with ⟨f, heq, -⟩ | ⟨s, heq, hle⟩
      · cases heq
      · obtain ⟨-, rfl⟩ := Prod.mk.inj (Except.ok.inj heq)
        exact ⟨rfl, hle⟩
    rcases bind_eq_ok h with ⟨e, hrest, rfl⟩ | ⟨r, last, hrest, h⟩
    · have hle := ih hrest
      change e.allocated ≤ _ at hle
      change e.allocated ≤ _
      omega
    · have hle := ih hrest
      rw [← Except.ok.inj h]
      change r.2 ≤ _ at hle
      change r.2 ≤ _
      omega

end Allocated

theorem finishPairs_allocated (buf : Bytes) (out : Except Failure ((List HeaderPair × ℕ) × ℕ)) :
    (finishPairs buf out).allocated = spent out := by
  cases out with
  | error f => rfl
  | ok r =>
    unfold finishPairs
    dsimp only
    split_ifs <;> rfl

theorem finishPairs_ok {buf : Bytes} {out : Except Failure ((List HeaderPair × ℕ) × ℕ)}
    {pairs : List HeaderPair} (h : (finishPairs buf out).pairs = .ok pairs) :
    ∃ allocated, out = .ok ((pairs, allocated), buf.length) := by
  cases out with
  | error f => cases h
  | ok r =>
    obtain ⟨⟨ps, allocated⟩, pos⟩ := r
    unfold finishPairs at h
    dsimp only at h
    by_cases hpos : pos ≠ buf.length
    · rw [if_pos hpos] at h
      cases h
    · rw [if_neg hpos] at h
      rw [not_not.mp hpos, Except.ok.inj h]
      exact ⟨allocated, rfl⟩

theorem decodePairs_spec (buf : Bytes) :
    ∃ d, decodePairs buf = .ok d ∧ d.allocated ≤ 6 * buf.length ∧
      ∀ pairs, d.pairs = .ok pairs → buf = layout pairs := by
  unfold decodePairs
  by_cases hshort : buf.length < 4
  · rw [if_pos hshort]
    exact ⟨_, rfl, Nat.zero_le _, fun pairs heq => by cases heq⟩
  have hslice : slice buf 0 4 = .ok (buf.take 4) := slice_eq_ok (by omega) (by omega)
  rw [if_neg hshort, hslice, ok_bind]
  dsimp only
  generalize hn : littleEndian (buf.take 4) = n
  by_cases hcap : n > (buf.length - 4) / 10 + 1 ∧ n * 10 > buf.length - 4
  · rw [if_pos hcap]
    exact ⟨_, rfl, Nat.zero_le _, fun pairs heq => by cases heq⟩
  rw [if_neg hcap]
  by_cases hroom : n * 8 > buf.length - 4
  · rw [if_pos hroom]
    exact ⟨_, rfl, Nat.zero_le _, fun pairs heq => by cases heq⟩
  rw [if_neg hroom]
  have hfits : 4 + 8 * n ≤ buf.length := by omega
  obtain ⟨table, htable, hbytes, hlen⟩ := readTable_eq hfits
  -- the bodies stand behind the table
  have hsound := sound_readBodies 0 (tableEntrySize * n + headerPairSize * n) table
    (buf.take (4 + 8 * n)) (buf.drop (4 + 8 * n))
  obtain ⟨out, hout, hread⟩ := hsound
  have hat : (buf.take (4 + 8 * n)).length = 4 + 8 * n := by
    rw [List.length_take]
    omega
  rw [List.take_append_drop, hat] at hout
  rw [bind_of_ok htable, hout, ok_bind]
  refine ⟨_, rfl, ?_, ?_⟩
  · have hspent := readBodies_spent hout
    rw [finishPairs_allocated]
    unfold tableEntrySize headerPairSize at hspent
    omega
  · intro pairs heq
    obtain ⟨allocated, hok⟩ := finishPairs_ok heq
    obtain ⟨w, rest, hdrop, hnext, hsizes, hw⟩ := hread _ _ hok
    have hrest : rest = [] := by
      have hlength := congrArg List.length hdrop
      rw [List.length_drop, List.length_append] at hlength
      rw [List.length_append, hat] at hnext
      exact List.length_eq_zero_iff.mp (by omega)
    have hcount : pairs.length = n := by
      rw [← hlen, ← hsizes, sizes, List.length_map]
    have hfour : le 4 n = buf.take 4 := by
      rw [← hn]
      have hfirst : 0 + 4 ≤ buf.length := by omega
      exact le_littleEndian_take hfirst
    calc buf = buf.take (4 + 8 * n) ++ buf.drop (4 + 8 * n) := (List.take_append_drop _ _).symm
      _ = (buf.take 4 ++ (buf.drop 4).take (8 * n)) ++ bodyBytes pairs := by
          rw [List.take_add, hdrop, hrest, List.append_nil, hw]
      _ = layout pairs := by
          rw [layout, hcount, hfour, tableBytes_eq_tableOf, hsizes, hbytes, List.append_assoc]

/-- For all pairs with lengths below 2³² and every buffer: what was encoded is decoded, what is
accepted encodes to itself, and decoding neither faults nor allocates more than six times the
buffer. -/
theorem decodePairs_encodePairs (pairs : List HeaderPair) (hcount : pairs.length < 2^32)
    (hshort : ∀ p ∈ pairs, p.key.length < 2^32 ∧ p.value.length < 2^32) (buf : Bytes) :
    (∃ out allocated, encodePairs pairs = .ok out ∧
      decodePairs out = .ok ⟨.ok pairs, allocated⟩) ∧
    (∀ accepted allocated, decodePairs buf = .ok ⟨.ok accepted, allocated⟩ →
      encodePairs accepted = .ok buf) ∧
    ∃ d, decodePairs buf = .ok d ∧ d.allocated ≤ 6 * buf.length := by
  obtain ⟨d, hd, hle, haccepted⟩ := decodePairs_spec buf
  refine ⟨?_, ?_, d, hd, hle⟩
  · obtain ⟨allocated, hdecode⟩ := decodePairs_layout hcount hshort
    exact ⟨layout pairs, allocated, encodePairs_eq pairs, hdecode⟩
  · intro accepted allocated hdecode
    have heq := Except.ok.inj (hd.symm.trans hdecode)
    rw [encodePairs_eq, ← haccepted accepted (congrArg Decoded.pairs heq)]

theorem decodePairs_encodePairs_method :
    ∃ allocated, decodePairs (layout [⟨[58, 109], [71]⟩, ⟨[], []⟩]) =
      .ok ⟨.ok [⟨[58, 109], [71]⟩, ⟨[], []⟩], allocated⟩ := by
  obtain ⟨⟨out, allocated, henc, hdec⟩, -, -⟩ :=
    decodePairs_encodePairs [⟨[58, 109], [71]⟩, ⟨[], []⟩] (by decide) (by decide) []
  rw [encodePairs_eq] at henc
  rw [Except.ok.inj henc]
  exact ⟨allocated, hdec⟩

end EnvoyGo.Wasm

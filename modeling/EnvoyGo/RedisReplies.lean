import EnvoyGo.RedisProxy
import Mathlib.Data.Nat.Digits.Lemmas

/-!
Replies of the Redis proxy on a pipelined connection: which of them are one RESP reply, and when
the bytes written downstream are read back as one reply for each command.
-/

namespace EnvoyGo.Redis

open EnvoyGo.Readers EnvoyGo.Text

def IsReply (w : List Char) : Prop := decodeReply w = .ok ⟨(), w, []⟩

instance (w : List Char) : Decidable (IsReply w) := inferInstanceAs (Decidable (_ = _))

section Lines

theorem readLine_append {l : List Char} (hl : '\n' ∉ l) (r : List Char) :
    readLine (l ++ '\r' :: '\n' :: r) = .ok ⟨l, l ++ ['\r', '\n'], r⟩ := by
  have hcr : '\n' ∉ l ++ ['\r'] := by
    rw [List.mem_append, List.mem_singleton]
    exact not_or.mpr ⟨hl, by decide⟩
  have hthrough := through_append Err.eof hcr r
  rw [List.append_assoc, List.singleton_append] at hthrough
  have hstrip : stripCR (l ++ ['\r']) = l := by
    rw [stripCR, List.getLast?_concat, if_pos rfl, List.dropLast_concat]
  have hbind := bind_ret_of_ok hthrough stripCR
  rw [hstrip, List.append_assoc] at hbind
  exact hbind

theorem unexpected_readLine_append {l : List Char} (hl : '\n' ∉ l) (r : List Char) :
    mapError unexpected readLine (l ++ '\r' :: '\n' :: r) = .ok ⟨l, l ++ ['\r', '\n'], r⟩ :=
  mapError_eq_ok.mpr (readLine_append hl r)

theorem decodeReplyInto_cons {depth : ℕ} {t : Char} {r : List Char} {x : Got Char Unit} :
    decodeReplyInto (depth + 1) (t :: r) = .ok x ↔
      ∃ y, decodeTyped (decodeReplyInto depth) t r = .ok y ∧ x = ⟨(), t :: y.raw, y.rest⟩ := by
  constructor
  · intro h
    obtain ⟨u, y, hu, hy, rfl⟩ := bind_eq_ok h
    obtain rfl := Except.ok.inj hu
    exact ⟨y, hy, rfl⟩
  · rintro ⟨y, hy, rfl⟩
    have hu : symbol Err.eof (t :: r) = .ok ⟨t, [t], r⟩ := rfl
    exact bind_of_ok hu hy

theorem isReply_line_iff {t : Char} (ht : t = '+' ∨ t = '-') (body : List Char) :
    IsReply (t :: body ++ ['\r', '\n']) ↔ '\n' ∉ body := by
  have hreader : decodeTyped (decodeReplyInto 127) t =
      bind (mapError unexpected readLine) (fun _ => ret ()) := by
    rw [decodeTyped, if_pos ht]
  rw [IsReply, decodeReply, maxReplyDepth, List.cons_append, decodeReplyInto_cons, hreader]
  constructor
  · rintro ⟨y, hy, hx⟩
    obtain ⟨u, v, hu, hv, rfl⟩ := bind_eq_ok hy
    obtain rfl := Except.ok.inj hv
    obtain ⟨w, z, hw, hz, rfl⟩ := bind_eq_ok (mapError_eq_ok.mp hu)
    obtain rfl := Except.ok.inj hz
    obtain ⟨hnone, hraw, hsplit⟩ := through_eq_ok hw
    have hrest : w.rest = [] := (congrArg Got.rest hx).symm
    rw [hrest, List.append_nil, hraw] at hsplit
    have hend : body ++ ['\r'] = w.value := by
      have hsnoc : (body ++ ['\r']) ++ ['\n'] = w.value ++ ['\n'] := by
        rw [← hsplit, List.append_assoc, List.singleton_append]
      exact List.append_cancel_right hsnoc
    intro hmem
    exact hnone (hend ▸ List.mem_append_left _ hmem)
  · intro hbody
    exact ⟨_, bind_ret_of_ok (unexpected_readLine_append hbody []) (fun _ => ()), rfl⟩

end Lines

section Bulk

theorem atoi_formatInt {n : ℤ} (hlo : -2^63 ≤ n) (hhi : n < 2^63) : atoi (formatInt n) = some n :=
  parseInt64_formatInt n hlo hhi

theorem newline_notMem_formatInt (n : ℤ) : '\n' ∉ formatInt n := by
  intro hmem
  rcases mem_formatInt hmem with h | h
  · exact absurd h (by decide)
  · exact absurd h (by decide)

theorem readBody_append (b r : List Char) :
    readBody b.length (b ++ '\r' :: '\n' :: r) = .ok ⟨b, b ++ ['\r', '\n'], r⟩ := by
  have hlen : (b ++ ['\r', '\n']).length = b.length + 2 := by
    rw [List.length_append, List.length_cons, List.length_singleton]
  have hassoc : b ++ '\r' :: '\n' :: r = b ++ ['\r', '\n'] ++ r := by
    rw [List.append_assoc]
    rfl
  have htook : exactly Err.unexpectedEOF (b.length + 2) (b ++ '\r' :: '\n' :: r) =
      .ok ⟨b ++ ['\r', '\n'], b ++ ['\r', '\n'], r⟩ := by
    rw [hassoc, exactly, List.take_left' hlen, List.drop_left' hlen, if_pos]
    rw [List.length_append, hlen]
    omega
  have hchecked : checkBody b.length (b ++ ['\r', '\n']) r = .ok ⟨b, [], r⟩ := by
    rw [checkBody, List.drop_left, List.take_left, if_pos rfl]
    rfl
  have hbind := bind_then htook _ hchecked
  rw [List.append_nil] at hbind
  exact hbind

def bulkTail (b : List Char) : List Char :=
  formatInt b.length ++ ['\r', '\n'] ++ b ++ ['\r', '\n']

theorem bulkTail_append (b r : List Char) :
    bulkTail b ++ r = formatInt b.length ++ '\r' :: '\n' :: (b ++ '\r' :: '\n' :: r) := by
  simp [bulkTail]

theorem length_lt_of_le_maxBulkLen {b : List Char} (hb : b.length ≤ maxBulkLen) :
    (b.length : ℤ) < 2^63 := by
  have hmax : maxBulkLen = 536870912 := rfl
  omega

theorem decodeReplyInto_bulk {b : List Char} (hb : b.length ≤ maxBulkLen) (depth : ℕ)
    (r : List Char) :
    decodeReplyInto (depth + 1) (encodeBulk b ++ r) = .ok ⟨(), encodeBulk b, r⟩ := by
  have hline := unexpected_readLine_append (newline_notMem_formatInt b.length)
    (b ++ '\r' :: '\n' :: r)
  have hbody : replyBulk (formatInt b.length) (b ++ '\r' :: '\n' :: r) =
      .ok ⟨(), b ++ ['\r', '\n'], r⟩ := by
    rw [replyBulk, atoi_formatInt (by omega) (length_lt_of_le_maxBulkLen hb)]
    simp only
    rw [if_neg (by omega), if_neg (by omega), Int.toNat_natCast]
    exact bind_ret_of_ok (readBody_append b r) (fun _ => ())
  have htyped : decodeTyped (decodeReplyInto depth) '$' (bulkTail b ++ r) =
      .ok ⟨(), bulkTail b, r⟩ := by
    rw [bulkTail_append, bulkTail, List.append_assoc]
    exact bind_then hline _ hbody
  exact decodeReplyInto_cons.mpr ⟨_, htyped, rfl⟩

theorem readBulk_append {b : List Char} (hb : b.length ≤ maxBulkLen) (r : List Char) :
    readBulk (encodeBulk b ++ r) = .ok ⟨b, encodeBulk b, r⟩ := by
  have hhead : '\n' ∉ '$' :: formatInt b.length := by
    rw [List.mem_cons]
    exact not_or.mpr ⟨by decide, newline_notMem_formatInt b.length⟩
  have hline := unexpected_readLine_append hhead (b ++ '\r' :: '\n' :: r)
  have hbody : bulkOf ('$' :: formatInt b.length) (b ++ '\r' :: '\n' :: r) =
      .ok ⟨b, b ++ ['\r', '\n'], r⟩ := by
    rw [bulkOf, atoi_formatInt (by omega) (length_lt_of_le_maxBulkLen hb)]
    simp only
    rw [if_neg (by omega), Int.toNat_natCast]
    exact readBody_append b r
  have hbytes : encodeBulk b ++ r =
      '$' :: formatInt b.length ++ '\r' :: '\n' :: (b ++ '\r' :: '\n' :: r) :=
    congrArg ('$' :: ·) (bulkTail_append b r)
  have hraw : encodeBulk b = ('$' :: formatInt b.length ++ ['\r', '\n']) ++ (b ++ ['\r', '\n']) :=
    List.append_assoc _ b _
  rw [hbytes, hraw]
  exact bind_then hline _ hbody

end Bulk

section Local

theorem isReply_encodeBulk {b : List Char} (hb : b.length ≤ maxBulkLen) :
    IsReply (encodeBulk b) := by
  have h := decodeReplyInto_bulk hb 127 []
  rw [List.append_nil] at h
  exact h

theorem length_formatInt_le (v : Int64) : (formatInt v.toInt).length ≤ maxBulkLen := by
  have hlo := v.le_toInt
  have hhi := v.toInt_lt
  have hdigits : (Nat.digits 10 v.toInt.natAbs).length ≤ 19 := by
    apply (Nat.digits_length_le_iff (by decide) v.toInt.natAbs).mpr
    omega
  have hmax : maxBulkLen = 536870912 := rfl
  have hlen : (if v.toInt = 0 then ['0'] else digitChars (Nat.digits 10 v.toInt.natAbs)).length ≤
      19 := by
    split
    · exact Nat.le_of_ble_eq_true rfl
    · rw [digitChars, List.length_map, List.length_reverse]
      exact hdigits
  rw [formatInt]
  split
  · rw [List.length_cons]
    omega
  · omega

theorem isReply_encodeTime (now : Clock) : IsReply (encodeTime now) := by
  have hsecs := length_formatInt_le now.secs
  have hmicros := length_formatInt_le now.micros
  have hfirst := decodeReplyInto_bulk hsecs 126 (encodeBulk (formatInt now.micros.toInt))
  have hsecond := decodeReplyInto_bulk hmicros 126 []
  rw [List.append_nil] at hsecond
  have htimes : times (decodeReplyInto 127) 2 (encodeBulk (formatInt now.secs.toInt) ++
      encodeBulk (formatInt now.micros.toInt)) =
        .ok ⟨[(), ()], encodeBulk (formatInt now.secs.toInt) ++
          encodeBulk (formatInt now.micros.toInt), []⟩ := by
    have hnil : times (decodeReplyInto 127) 0 [] = .ok ⟨[], [], []⟩ := rfl
    have hone := times_succ_of_ok hsecond hnil
    rw [List.append_nil] at hone
    exact times_succ_of_ok hfirst hone
  have hline := unexpected_readLine_append (show '\n' ∉ ['2'] by decide)
    (encodeBulk (formatInt now.secs.toInt) ++ encodeBulk (formatInt now.micros.toInt))
  have htwo : atoi ['2'] = some 2 := by decide +kernel
  have hbody : replyArray (decodeReplyInto 127) ['2'] (encodeBulk (formatInt now.secs.toInt) ++
      encodeBulk (formatInt now.micros.toInt)) =
        .ok ⟨(), encodeBulk (formatInt now.secs.toInt) ++
          encodeBulk (formatInt now.micros.toInt), []⟩ := by
    rw [replyArray, htwo]
    simp only
    rw [if_neg (by decide), if_neg (by decide)]
    exact bind_ret_of_ok htimes (fun _ => ())
  have htyped : decodeTyped (decodeReplyInto 127) '*' ("2\r\n".toList ++
      (encodeBulk (formatInt now.secs.toInt) ++ encodeBulk (formatInt now.micros.toInt))) =
        .ok ⟨(), "2\r\n".toList ++ (encodeBulk (formatInt now.secs.toInt) ++
          encodeBulk (formatInt now.micros.toInt)), []⟩ := bind_then hline _ hbody
  have hbytes : encodeTime now = '*' :: ("2\r\n".toList ++
      (encodeBulk (formatInt now.secs.toInt) ++ encodeBulk (formatInt now.micros.toInt))) :=
    List.append_assoc _ _ _
  rw [IsReply, hbytes]
  exact decodeReplyInto_cons.mpr ⟨_, htyped, rfl⟩

theorem isReply_of_mem : ∀ w ∈ [respPong, respAuthNoPassword, respOK, respInvalidRequest,
    respHelloOptions, respNoProto], IsReply w := by
  decide +kernel

theorem newline_mem_intercalate (xs : List (List Char)) :
    '\n' ∈ [',', ' '].intercalate xs ↔ ∃ a ∈ xs, '\n' ∈ a := by
  induction xs with
  | nil => exact ⟨(fun h => by cases h), (fun ⟨a, ha, _⟩ => by cases ha)⟩
  | cons x xs ih =>
    cases xs with
    | nil => simp [List.intercalate]
    | cons y ys =>
      have hstep : [',', ' '].intercalate (x :: y :: ys) =
          x ++ [',', ' '] ++ [',', ' '].intercalate (y :: ys) := by
        simp [List.intercalate]
      rw [hstep, List.mem_append, List.mem_append, ih]
      simp

theorem isReply_unknownCommandError_iff {args : List (List Char)} (hargs : args ≠ []) :
    IsReply (unknownCommandError args) ↔ ∀ a ∈ args, '\n' ∉ a := by
  cases args with
  | nil => exact absurd rfl hargs
  | cons name rest =>
    let body := "ERR unknown command '".toList ++ name ++
      "', with args beginning with: ".toList ++ [',', ' '].intercalate rest
    have hbytes : unknownCommandError (name :: rest) = '-' :: body ++ ['\r', '\n'] := rfl
    have hfixed : '\n' ∉ "ERR unknown command '".toList ∧
        '\n' ∉ "', with args beginning with: ".toList := by decide +kernel
    rw [hbytes, isReply_line_iff (Or.inr rfl), List.forall_mem_cons]
    show '\n' ∉ "ERR unknown command '".toList ++ name ++
      "', with args beginning with: ".toList ++ [',', ' '].intercalate rest ↔ _
    rw [List.mem_append, List.mem_append, List.mem_append, newline_mem_intercalate]
    constructor
    · intro h
      refine ⟨fun hname => h (Or.inl (Or.inl (Or.inr hname))), ?_⟩
      intro a ha hmem
      exact h (Or.inr ⟨a, ha, hmem⟩)
    · rintro ⟨hname, hrest⟩ (((h | h) | h) | ⟨a, ha, hmem⟩)
      · exact hfixed.1 h
      · exact hname h
      · exact hfixed.2 h
      · exact hrest a ha hmem

end Local

end EnvoyGo.Redis

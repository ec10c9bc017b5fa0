import EnvoyGo.RedisPipeline

/-!
The values of RESP2 and their bytes: what the reply reader and the request reader take of a stream
that starts with one.
-/

namespace EnvoyGo.Redis

open EnvoyGo.Readers EnvoyGo.Text

inductive RespValue where
  | simple (line : List Char)
  | error (line : List Char)
  | integer (n : ℤ)
  | bulk (b : List Char)
  | nullBulk
  | array (vs : List RespValue)
  | nullArray

namespace RespValue

@[elab_as_elim]
theorem elements_induction {P : RespValue → Prop} (simple : ∀ line, P (.simple line))
    (error : ∀ line, P (.error line)) (integer : ∀ n, P (.integer n)) (bulk : ∀ b, P (.bulk b))
    (nullBulk : P .nullBulk) (array : ∀ vs, (∀ v ∈ vs, P v) → P (.array vs))
    (nullArray : P .nullArray) (v : RespValue) : P v :=
  @RespValue.rec P (fun vs => ∀ v ∈ vs, P v) simple error integer bulk nullBulk array nullArray
    (fun _ hv => (List.not_mem_nil hv).elim)
    (fun _ _ hv hvs u hu => (List.mem_cons.mp hu).elim (fun heq => heq ▸ hv) (hvs u)) v

def line (t : Char) (body : List Char) : List Char := t :: body ++ ['\r', '\n']

mutual

def encode : RespValue → List Char
  | .simple text => line '+' text
  | .error text => line '-' text
  | .integer n => line ':' (formatInt n)
  | .bulk b => encodeBulk b
  | .nullBulk => line '$' ['-', '1']
  | .array vs => line '*' (formatInt vs.length) ++ encodeAll vs
  | .nullArray => line '*' ['-', '1']

def encodeAll : List RespValue → List Char
  | [] => []
  | v :: vs => encode v ++ encodeAll vs

end

mutual

/-- How many arrays stand around the innermost value, at most. -/
def depth : RespValue → ℕ
  | .array vs => depthAll vs + 1
  | _ => 0

def depthAll : List RespValue → ℕ
  | [] => 0
  | v :: vs => max (depth v) (depthAll vs)

end

mutual

def inner : RespValue → List RespValue
  | .array vs => innerAll vs
  | _ => []

def innerAll : List RespValue → List RespValue
  | [] => []
  | v :: vs => (v :: inner v) ++ innerAll vs

end

def parts (v : RespValue) : List RespValue := v :: v.inner

/-- A line has no line end inside, and an integer has 64 bits. -/
def Legal : RespValue → Prop
  | .simple text => '\r' ∉ text ∧ '\n' ∉ text
  | .error text => '\r' ∉ text ∧ '\n' ∉ text
  | .integer n => -2^63 ≤ n ∧ n < 2^63
  | _ => True

def Bounded : RespValue → Prop
  | .bulk b => b.length ≤ maxBulkLen
  | .array vs => vs.length ≤ maxArrayLen
  | _ => True

instance : DecidablePred Legal
  | .simple text => inferInstanceAs (Decidable ('\r' ∉ text ∧ '\n' ∉ text))
  | .error text => inferInstanceAs (Decidable ('\r' ∉ text ∧ '\n' ∉ text))
  | .integer n => inferInstanceAs (Decidable (-2^63 ≤ n ∧ n < 2^63))
  | .bulk _ | .nullBulk | .array _ | .nullArray => .isTrue trivial

instance : DecidablePred Bounded
  | .bulk b => inferInstanceAs (Decidable (b.length ≤ maxBulkLen))
  | .array vs => inferInstanceAs (Decidable (vs.length ≤ maxArrayLen))
  | .simple _ | .error _ | .integer _ | .nullBulk | .nullArray => .isTrue trivial

def WellFormed (v : RespValue) : Prop := ∀ w ∈ v.parts, w.Legal

def WithinLimits (v : RespValue) : Prop := ∀ w ∈ v.parts, w.Bounded

instance : DecidablePred WellFormed := fun v =>
  inferInstanceAs (Decidable (∀ w ∈ v.parts, w.Legal))

instance : DecidablePred WithinLimits := fun v =>
  inferInstanceAs (Decidable (∀ w ∈ v.parts, w.Bounded))

variable {v : RespValue} {vs : List RespValue} {P : RespValue → Prop}

theorem depth_le_depthAll (hv : v ∈ vs) : v.depth ≤ depthAll vs := by
  induction vs with
  | nil => exact (List.not_mem_nil hv).elim
  | cons u us ih =>
    rw [depthAll]
    rcases List.mem_cons.mp hv with rfl | hv
    · exact le_max_left _ _
    · exact (ih hv).trans (le_max_right _ _)

theorem mem_innerAll (hv : v ∈ vs) : ∀ w ∈ v.parts, w ∈ innerAll vs := by
  induction vs with
  | nil => exact (List.not_mem_nil hv).elim
  | cons u us ih =>
    intro w hw
    rw [innerAll]
    rcases List.mem_cons.mp hv with rfl | hv
    · exact List.mem_append_left _ hw
    · exact List.mem_append_right _ (ih hv w hw)

theorem forall_parts_of_mem (h : ∀ w ∈ (array vs).parts, P w) (hv : v ∈ vs) :
    ∀ w ∈ v.parts, P w := by
  intro w hw
  refine h w (List.mem_cons_of_mem _ ?_)
  rw [inner]
  exact mem_innerAll hv w hw

theorem line_append (t : Char) (body r : List Char) :
    line t body ++ r = t :: (body ++ '\r' :: '\n' :: r) := by
  rw [line, List.cons_append, List.cons_append, List.append_assoc]
  rfl

theorem decodeReplyInto_line {t : Char} {body raw rest r : List Char}
    {next : List Char → Reader Char Err Unit} {depth : ℕ}
    (htyped : decodeTyped (decodeReplyInto depth) t = bind (mapError unexpected readLine) next)
    (hbody : '\n' ∉ body) (hnext : next body r = .ok ⟨(), raw, rest⟩) :
    decodeReplyInto (depth + 1) (line t body ++ r) = .ok ⟨(), line t body ++ raw, rest⟩ := by
  have hread : decodeTyped (decodeReplyInto depth) t (body ++ '\r' :: '\n' :: r) =
      .ok ⟨(), body ++ ['\r', '\n'] ++ raw, rest⟩ := by
    rw [htyped]
    exact bind_then (unexpected_readLine_append hbody r) next hnext
  rw [line_append]
  exact decodeReplyInto_cons.mpr ⟨_, hread, rfl⟩

theorem decodeReplyInto_whole {t : Char} {body : List Char}
    {next : List Char → Reader Char Err Unit} {depth : ℕ}
    (htyped : decodeTyped (decodeReplyInto depth) t = bind (mapError unexpected readLine) next)
    (hbody : '\n' ∉ body) (hnext : next body = ret ()) (r : List Char) :
    decodeReplyInto (depth + 1) (line t body ++ r) = .ok ⟨(), line t body, r⟩ := by
  have hread : next body r = .ok ⟨(), [], r⟩ := by rw [hnext]; rfl
  have h := decodeReplyInto_line htyped hbody hread
  rwa [List.append_nil] at h

theorem times_encodeAll {element : Reader Char Err Unit}
    (h : ∀ v ∈ vs, ∀ r, element (encode v ++ r) = .ok ⟨(), encode v, r⟩) (r : List Char) :
    ∃ us, times element vs.length (encodeAll vs ++ r) = .ok ⟨us, encodeAll vs, r⟩ := by
  induction vs with
  | nil =>
    rw [encodeAll]
    exact ⟨[], rfl⟩
  | cons v vs ih =>
    obtain ⟨hv, hvs⟩ := List.forall_mem_cons.mp h
    obtain ⟨us, hus⟩ := ih hvs
    rw [encodeAll, List.append_assoc]
    exact ⟨() :: us, times_succ_of_ok (hv _) hus⟩

theorem replyArray_append {element : Reader Char Err Unit} (hlen : vs.length ≤ maxArrayLen)
    (h : ∀ v ∈ vs, ∀ r, element (encode v ++ r) = .ok ⟨(), encode v, r⟩) (r : List Char) :
    replyArray element (formatInt vs.length) (encodeAll vs ++ r) = .ok ⟨(), encodeAll vs, r⟩ := by
  have hmax : maxArrayLen = 1048576 := rfl
  obtain ⟨us, hus⟩ := times_encodeAll h r
  rw [replyArray, atoi_formatInt (by omega) (by omega)]
  simp only
  rw [if_neg (by omega), if_neg (by omega), Int.toNat_natCast]
  exact bind_ret_of_ok hus (fun _ => ())

theorem decodeReplyInto_encode {v : RespValue} (hwf : v.WellFormed) (hlim : v.WithinLimits)
    {d : ℕ} (hd : v.depth < d) (r : List Char) :
    decodeReplyInto d (v.encode ++ r) = .ok ⟨(), v.encode, r⟩ := by
  obtain ⟨d, rfl⟩ := Nat.exists_eq_add_one.mpr (Nat.zero_lt_of_lt hd)
  induction v using elements_induction generalizing d r with
  | simple text =>
    rw [encode]
    exact decodeReplyInto_whole (if_pos (.inl rfl)) (hwf _ List.mem_cons_self).2 rfl r
  | error text =>
    rw [encode]
    exact decodeReplyInto_whole (if_pos (.inr rfl)) (hwf _ List.mem_cons_self).2 rfl r
  | integer n =>
    rw [encode]
    have hn := hwf _ List.mem_cons_self
    refine decodeReplyInto_whole rfl (newline_notMem_formatInt n) ?_ r
    rw [replyInteger, atoi_formatInt hn.1 hn.2]
    rfl
  | bulk b =>
    rw [encode]
    exact decodeReplyInto_bulk (hlim _ List.mem_cons_self) d r
  | nullBulk =>
    rw [encode]
    exact decodeReplyInto_whole rfl (by decide) rfl r
  | nullArray =>
    rw [encode]
    exact decodeReplyInto_whole rfl (by decide) rfl r
  | array vs ih =>
    rw [depth] at hd
    rw [encode, List.append_assoc]
    refine decodeReplyInto_line rfl (newline_notMem_formatInt _)
      (replyArray_append (hlim _ List.mem_cons_self) ?_ r)
    intro v hv r
    have hdepth : v.depth < d := (depth_le_depthAll hv).trans_lt (Nat.lt_of_succ_lt_succ hd)
    obtain ⟨d, rfl⟩ := Nat.exists_eq_add_one.mpr (Nat.zero_lt_of_lt hdepth)
    exact ih v hv (forall_parts_of_mem hwf hv) (forall_parts_of_mem hlim hv) r d hdepth

theorem decodeReplyInto_long (hlong : maxArrayLen < vs.length) (hlt : (vs.length : ℤ) < 2^63)
    (d : ℕ) (r : List Char) :
    decodeReplyInto (d + 1) ((array vs).encode ++ r) = .error .protocol := by
  have hguard : replyArray (decodeReplyInto d) (formatInt vs.length) (encodeAll vs ++ r) =
      .error .protocol := by
    rw [replyArray, atoi_formatInt (by omega) hlt]
    simp only
    rw [if_neg (by omega), if_pos (by omega)]
    rfl
  have hline := unexpected_readLine_append (newline_notMem_formatInt vs.length) (encodeAll vs ++ r)
  have hbytes : (array vs).encode ++ r =
      '*' :: (formatInt vs.length ++ '\r' :: '\n' :: (encodeAll vs ++ r)) := by
    rw [encode, List.append_assoc, line_append]
  have hsymbol : symbol Err.eof ('*' :: (formatInt vs.length ++ '\r' :: '\n' ::
      (encodeAll vs ++ r))) = .ok ⟨'*', ['*'], _⟩ := rfl
  rw [hbytes, decodeReplyInto]
  exact bind_of_error hsymbol (bind_of_error hline hguard)

end RespValue

section RoundTrip

variable {st : Strings} {args : List (List Char)}

theorem decodeRequest_cut {p q : List Char}
    (hok : decodeArray st (encodeCommand args) =
      .ok ⟨⟨st.toUpper (args.headD []), args⟩, encodeCommand args, []⟩)
    (hpq : encodeCommand args = p ++ q) (hq : q ≠ []) : ∃ e, decodeRequest st p = .error e := by
  cases p with
  | nil => exact ⟨.eof, rfl⟩
  | cons c p =>
    have hstar := star_encodeCommand args
    rw [hpq, List.cons_append, List.head?_cons] at hstar
    rw [decodeRequest, if_pos (Option.some.inj hstar)]
    exact (framed_decodeArray st).error_of_cut hok hpq hq

/-- A reader takes the bytes of a frame and no more, and takes nothing less for it. -/
def ReadsExactly {α : Type} (f : Reader Char Err α) (a : α) (w : List Char) : Prop :=
  (∀ rest, f (w ++ rest) = .ok ⟨a, w, rest⟩) ∧ ∀ p q, w = p ++ q → q ≠ [] → ∃ e, f p = .error e

/-- Values and commands within the limits on declared lengths are read exactly. -/
theorem codec_readsExactly :
    (∀ v : RespValue, v.WellFormed → v.WithinLimits → v.depth < maxReplyDepth →
      ReadsExactly decodeReply () v.encode) ∧
    ∀ (st : Strings) (args : List (List Char)), args ≠ [] → args.length ≤ maxArrayLen →
      (∀ a ∈ args, a.length ≤ maxBulkLen) →
      ReadsExactly (decodeRequest st) ⟨st.toUpper (args.headD []), args⟩ (encodeCommand args) := by
  constructor
  · intro v hwf hlim hdepth
    have hread := RespValue.decodeReplyInto_encode hwf hlim hdepth
    refine ⟨hread, fun p q hpq hq => ?_⟩
    have hwhole := hread []
    rw [List.append_nil] at hwhole
    exact (framed_decodeReplyInto maxReplyDepth).error_of_cut hwhole hpq hq
  · intro st args hne hlen hall
    refine ⟨fun rest => (Frame.ofArgs st args hne hlen hall).decodeRequest_append rest, ?_⟩
    exact fun p q => decodeRequest_cut (decodeArray_encodeCommand st args hne hlen hall)

/-- An array with a nested one, an integer and a null. -/
def sampleReply : RespValue :=
  .array [.bulk "k".toList, .array [.simple "OK".toList, .integer (-7)], .nullBulk]

theorem readsExactly_sample : ReadsExactly decodeReply () sampleReply.encode ∧
    ReadsExactly (decodeRequest ⟨id, id, fun l => [l]⟩) ⟨"GET".toList, ["GET".toList, "k".toList]⟩
      (encodeCommand ["GET".toList, "k".toList]) :=
  ⟨codec_readsExactly.1 sampleReply (by decide) (by decide) (by decide),
    codec_readsExactly.2 ⟨id, id, fun l => [l]⟩ ["GET".toList, "k".toList] (by decide) (by decide)
      (by decide)⟩

/-- As many nulls as the guard on declared lengths refuses. -/
def longReply : RespValue := .array (List.replicate 1048577 .nullBulk)

namespace RespValue

theorem eq_of_mem_innerAll_replicate {n : ℕ} {w : RespValue}
    (hw : w ∈ innerAll (List.replicate n .nullBulk)) : w = .nullBulk := by
  induction n with
  | zero =>
    rw [List.replicate_zero, innerAll] at hw
    exact (List.not_mem_nil hw).elim
  | succ n ih =>
    rw [List.replicate_succ, innerAll, inner] at hw
    · rcases List.mem_cons.mp hw with rfl | hw
      · rfl
      · exact ih hw
    · exact fun _ h => by cases h

theorem depthAll_replicate (n : ℕ) : depthAll (List.replicate n .nullBulk) = 0 := by
  induction n with
  | zero => rw [List.replicate_zero, depthAll]
  | succ n ih =>
    rw [List.replicate_succ, depthAll, ih, depth]
    · rfl
    · exact fun _ h => by cases h

end RespValue

theorem decodeReply_longReply : longReply.WellFormed ∧ longReply.depth < maxReplyDepth ∧
    decodeReply longReply.encode = .error .protocol := by
  refine ⟨?_, ?_, ?_⟩
  · intro w hw
    rcases List.mem_cons.mp hw with rfl | hw
    · exact trivial
    · rw [longReply, RespValue.inner] at hw
      rw [RespValue.eq_of_mem_innerAll_replicate hw]
      exact trivial
  · rw [longReply, RespValue.depth, RespValue.depthAll_replicate]
    decide
  · have hlen := @List.length_replicate RespValue 1048577 .nullBulk
    have h : decodeReplyInto 128 (longReply.encode ++ []) = .error .protocol :=
      RespValue.decodeReplyInto_long (by rw [hlen]; decide) (by rw [hlen]; decide) 127 []
    rw [List.append_nil] at h
    exact h

end RoundTrip

end EnvoyGo.Redis

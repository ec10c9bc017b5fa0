import EnvoyGo.GoText

/-!
The URL-safe encodings of `encoding/base64` and the reader of `encoding/hex`, with the
round trip of the unpadded form.
-/

namespace EnvoyGo.Base64

def sextetChar (n : Nat) : Char :=
  if n < 26 then Char.ofNat (n + 65)
  else if n < 52 then Char.ofNat (n + 71)
  else if n < 62 then Char.ofNat (n - 4)
  else if n = 62 then '-'
  else '_'

def sextetOf (c : Char) : Option Nat :=
  if c.isUpper then some (c.toNat - 65)
  else if c.isLower then some (c.toNat - 71)
  else if c.isDigit then some (c.toNat + 4)
  else if c = '-' then some 62
  else if c = '_' then some 63
  else none

def rawURLEncode : Bytes → List Char
  | a :: b :: c :: rest =>
    let n := 65536*a.toNat + 256*b.toNat + c.toNat
    sextetChar (n / 262144) :: sextetChar (n / 4096 % 64) :: sextetChar (n / 64 % 64) ::
      sextetChar (n % 64) :: rawURLEncode rest
  | [a, b] =>
    let n := 1024*a.toNat + 4*b.toNat
    [sextetChar (n / 4096), sextetChar (n / 64 % 64), sextetChar (n % 64)]
  | [a] => [sextetChar (16*a.toNat / 64), sextetChar (16*a.toNat % 64)]
  | [] => []

/-- The bytes of a run of sextets; a single left-over sextet is an error, left-over bits
are dropped. -/
def decodeSextets : List Nat → Option Bytes
  | a :: b :: c :: d :: rest =>
    let n := 262144*a + 4096*b + 64*c + d
    (decodeSextets rest).map (fun bs =>
      UInt8.ofNat (n / 65536) :: UInt8.ofNat (n / 256) :: UInt8.ofNat n :: bs)
  | [a, b, c] =>
    let n := 4096*a + 64*b + c
    some [UInt8.ofNat (n / 1024), UInt8.ofNat (n / 4)]
  | [a, b] => some [UInt8.ofNat ((64*a + b) / 16)]
  | [_] => none
  | [] => some []

def isLineBreak (c : Char) : Bool := c == '\n' || c == '\r'

def rawURLDecode (s : List Char) : Option Bytes :=
  ((s.filter (fun c => !isLineBreak c)).mapM sextetOf).bind decodeSextets

/-- `URLEncoding.DecodeString`: at most two pads, and a length that is a multiple of four. -/
def urlDecode (s : List Char) : Option Bytes :=
  let s := s.filter (fun c => !isLineBreak c)
  if s.length % 4 ≠ 0 then none
  else
    let pads := min 2 (s.reverse.takeWhile (fun c => c == '=')).length
    rawURLDecode (s.take (s.length - pads))

/-- `hex.DecodeString` on a byte string. -/
def hexDecode : Bytes → Option Bytes
  | [] => some []
  | [_] => none
  | a :: b :: rest =>
    match Text.hexValue (Char.ofNat a.toNat), Text.hexValue (Char.ofNat b.toNat) with
    | some x, some y => (hexDecode rest).map (fun bs => UInt8.ofNat (16*x + y) :: bs)
    | _, _ => none

theorem sextetOf_sextetChar (n : Nat) (hn : n < 64) : sextetOf (sextetChar n) = some n := by
  have hall : ∀ i : Fin 64, sextetOf (sextetChar i.val) = some i.val := by
    decide +kernel
  exact hall ⟨n, hn⟩

def isURLSafe (c : Char) : Bool := c.isAlphanum || c == '-' || c == '_'

theorem sextetChar_isURLSafe (n : Nat) : isURLSafe (sextetChar n) = true := by
  by_cases hn : n < 63
  · have hall : ∀ i : Fin 63, isURLSafe (sextetChar i.val) = true := by decide +kernel
    exact hall ⟨n, hn⟩
  · have hlast : sextetChar n = '_' := by
      rw [sextetChar, if_neg (by omega), if_neg (by omega), if_neg (by omega), if_neg (by omega)]
    rw [hlast]
    decide

theorem isURLSafe_of_mem_rawURLEncode (bs : Bytes) :
    ∀ c ∈ rawURLEncode bs, isURLSafe c = true := by
  fun_induction rawURLEncode bs with
  | case1 a b c rest n ih =>
    intro ch hch
    simp only [List.mem_cons] at hch
    rcases hch with rfl | rfl | rfl | rfl | hrest
    · exact sextetChar_isURLSafe _
    · exact sextetChar_isURLSafe _
    · exact sextetChar_isURLSafe _
    · exact sextetChar_isURLSafe _
    · exact ih ch hrest
  | case2 a b n =>
    intro ch hch
    simp only [List.mem_cons, List.not_mem_nil, or_false] at hch
    rcases hch with rfl | rfl | rfl
    all_goals exact sextetChar_isURLSafe _
  | case3 a =>
    intro ch hch
    simp only [List.mem_cons, List.not_mem_nil, or_false] at hch
    rcases hch with rfl | rfl
    all_goals exact sextetChar_isURLSafe _
  | case4 =>
    intro ch hch
    exact absurd hch List.not_mem_nil

theorem not_isLineBreak_of_isURLSafe (c : Char) (h : isURLSafe c = true) :
    isLineBreak c = false := by
  rw [isLineBreak, Bool.or_eq_false_iff]
  constructor
  · rw [beq_eq_false_iff_ne]
    rintro rfl
    exact absurd h (by decide)
  · rw [beq_eq_false_iff_ne]
    rintro rfl
    exact absurd h (by decide)

theorem ofNat_toNat_add (a : UInt8) (n : Nat) (h : n % 256 = a.toNat) : UInt8.ofNat n = a := by
  apply UInt8.toNat_inj.mp
  rw [UInt8.toNat_ofNat']
  exact h

theorem mapM_sextetOf_rawURLEncode (bs : Bytes) :
    ((rawURLEncode bs).mapM sextetOf).bind decodeSextets = some bs := by
  fun_induction rawURLEncode bs with
  | case1 a b c rest n ih =>
    have ha := a.toNat_lt
    have hb := b.toNat_lt
    have hc := c.toNat_lt
    obtain ⟨ss, hss, hrest⟩ := Option.bind_eq_some_iff.mp ih
    have h1 := sextetOf_sextetChar (n / 262144) (by omega)
    have h2 := sextetOf_sextetChar (n / 4096 % 64) (by omega)
    have h3 := sextetOf_sextetChar (n / 64 % 64) (by omega)
    have h4 := sextetOf_sextetChar (n % 64) (by omega)
    have hn : 262144*(n / 262144) + 4096*(n / 4096 % 64) + 64*(n / 64 % 64) + n % 64 = n := by
      omega
    simp only [List.mapM_cons, h1, h2, h3, h4, hss, Option.pure_def, Option.bind_eq_bind,
      Option.bind_some, decodeSextets, hrest, hn, Option.map_some]
    rw [ofNat_toNat_add a (n / 65536) (by omega), ofNat_toNat_add b (n / 256) (by omega),
      ofNat_toNat_add c n (by omega)]
  | case2 a b n =>
    have ha := a.toNat_lt
    have hb := b.toNat_lt
    have h1 := sextetOf_sextetChar (n / 4096) (by omega)
    have h2 := sextetOf_sextetChar (n / 64 % 64) (by omega)
    have h3 := sextetOf_sextetChar (n % 64) (by omega)
    have hn : 4096*(n / 4096) + 64*(n / 64 % 64) + n % 64 = n := by omega
    simp only [List.mapM_cons, List.mapM_nil, h1, h2, h3, Option.pure_def, Option.bind_eq_bind,
      Option.bind_some, decodeSextets, hn]
    rw [ofNat_toNat_add a (n / 1024) (by omega), ofNat_toNat_add b (n / 4) (by omega)]
  | case3 a =>
    have ha := a.toNat_lt
    have h1 := sextetOf_sextetChar (16*a.toNat / 64) (by omega)
    have h2 := sextetOf_sextetChar (16*a.toNat % 64) (by omega)
    simp only [List.mapM_cons, List.mapM_nil, h1, h2, Option.pure_def, Option.bind_eq_bind,
      Option.bind_some, decodeSextets]
    rw [ofNat_toNat_add a _ (by omega)]
  | case4 => rfl

theorem filter_rawURLEncode (bs : Bytes) :
    (rawURLEncode bs).filter (fun c => !isLineBreak c) = rawURLEncode bs := by
  rw [List.filter_eq_self]
  intro c hc
  rw [not_isLineBreak_of_isURLSafe c (isURLSafe_of_mem_rawURLEncode bs c hc)]
  rfl

theorem rawURLDecode_rawURLEncode (bs : Bytes) : rawURLDecode (rawURLEncode bs) = some bs := by
  rw [rawURLDecode, filter_rawURLEncode]
  exact mapM_sextetOf_rawURLEncode bs

theorem length_rawURLEncode (bs : Bytes) : (rawURLEncode bs).length = (8*bs.length + 5) / 6 := by
  fun_induction rawURLEncode bs with
  | case1 a b c rest n ih =>
    simp only [List.length_cons, ih]
    omega
  | case2 a b n => simp only [List.length_cons, List.length_nil]
  | case3 a => simp only [List.length_cons, List.length_nil]
  | case4 => rfl

theorem urlDecode_rawURLEncode (bs : Bytes) (h : bs.length % 3 ≠ 0) :
    urlDecode (rawURLEncode bs) = none := by
  have hlen := length_rawURLEncode bs
  rw [urlDecode]
  simp only [filter_rawURLEncode]
  rw [if_pos]
  omega

theorem length_hexDecode (bs out : Bytes) (h : hexDecode bs = some out) :
    2*out.length = bs.length := by
  fun_induction hexDecode bs generalizing out with
  | case1 =>
    obtain rfl := Option.some.inj h
    rfl
  | case2 => cases h
  | case3 a b rest x y hy hx ih =>
    obtain ⟨out', hout', rfl⟩ := Option.map_eq_some_iff.mp h
    have hlen := ih out' hout'
    simp only [List.length_cons]
    omega
  | case4 => cases h

end EnvoyGo.Base64

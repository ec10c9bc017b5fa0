import EnvoyGo.HTTPHeader
import Mathlib.Data.Nat.Digits.Defs

/-!
Text of the standard library, byte for byte: a character below 256 stands for one byte of a
Go string.  Search, splitting, and the query encoding of `net/url`.
-/

namespace EnvoyGo.Text

def trim (p : Char → Bool) (s : List Char) : List Char :=
  ((s.dropWhile p).reverse.dropWhile p).reverse

def isSpace (c : Char) : Bool := c == ' ' || (9 ≤ c.toNat && c.toNat ≤ 13)

/-- `strings.TrimSpace` on ASCII text. -/
def trimSpace (s : List Char) : List Char := trim isSpace s

/-- `textproto.TrimString`. -/
def trimString (s : List Char) : List Char :=
  trim (fun c => c == ' ' || c == '\t' || c == '\n' || c == '\r') s

def cut (c : Char) : List Char → Option (List Char × List Char)
  | [] => none
  | x :: xs => if x = c then some ([], xs) else (cut c xs).map (fun p => (x :: p.1, p.2))

/-- `strings.Split` at one character. -/
def split (c : Char) : List Char → List (List Char)
  | [] => [[]]
  | x :: xs =>
    match split c xs with
    | [] => [[x]]
    | y :: ys => if x = c then [] :: y :: ys else (x :: y) :: ys

def afterFirst (sub : List Char) : List Char → Option (List Char)
  | [] => if sub = [] then some [] else none
  | x :: xs =>
    if sub.isPrefixOf (x :: xs) then some ((x :: xs).drop sub.length) else afterFirst sub xs

/-- `strings.Contains`. -/
def contains (s sub : String) : Bool := (afterFirst sub.toList s.toList).isSome

def parseMagnitude (neg : Bool) (ds : List Char) : Option Int :=
  if ds = [] ∨ ¬ds.all Char.isDigit then none
  else
    let n := ds.foldl (fun (acc : Int) c => 10*acc + (c.toNat - 48)) 0
    if neg then (if n ≤ 2^63 then some (-n) else none)
    else if n < 2^63 then some n else none

/-- `strconv.ParseInt(s, 10, 64)`. -/
def parseInt64 (s : String) : Option Int :=
  match s.toList with
  | '-' :: ds => parseMagnitude true ds
  | '+' :: ds => parseMagnitude false ds
  | ds => parseMagnitude false ds

def digitChars (ds : List Nat) : List Char := ds.reverse.map (fun d => Char.ofNat (d + 48))

/-- `strconv.FormatInt(n, 10)`. -/
def formatInt (n : Int) : List Char :=
  let digits :=
    if n = 0 then ['0']
    else digitChars (Nat.digits 10 n.natAbs)
  if n < 0 then '-' :: digits else digits

def quote (s : String) : String :=
  String.ofList ('"' :: s.toList.flatMap (fun c =>
    if c = '"' ∨ c = '\\' then ['\\', c]
    else if c = '\n' then ['\\', 'n']
    else if c = '\t' then ['\\', 't']
    else [c]) ++ ['"'])

def hexValue (c : Char) : Option Nat :=
  if c.isDigit then some (c.toNat - 48)
  else if 97 ≤ c.toNat ∧ c.toNat ≤ 102 then some (c.toNat - 87)
  else if 65 ≤ c.toNat ∧ c.toNat ≤ 70 then some (c.toNat - 55)
  else none

/-- `url.QueryUnescape`. -/
def queryUnescape : List Char → Option (List Char)
  | [] => some []
  | '%' :: a :: b :: rest =>
    match hexValue a, hexValue b with
    | some x, some y => (queryUnescape rest).map (fun t => Char.ofNat (16*x + y) :: t)
    | _, _ => none
  | c :: rest =>
    if c = '%' then none
    else (queryUnescape rest).map (fun t => (if c = '+' then ' ' else c) :: t)

def hexUpper (n : Nat) : Char := if n < 10 then Char.ofNat (48 + n) else Char.ofNat (55 + n)

/-- `url.QueryEscape`. -/
def queryEscape (s : List Char) : List Char :=
  s.flatMap (fun c =>
    if c.isAlphanum || ['-', '_', '.', '~'].contains c then [c]
    else if c = ' ' then ['+']
    else ['%', hexUpper (c.toNat / 16), hexUpper (c.toNat % 16)])

/-- One `key=value` member of a query; `none` is an error, an empty member adds nothing. -/
def queryMember (m : List Char) : Option (Option (String × String)) :=
  if m.contains ';' then none
  else if m = [] then some none
  else
    let (k, v) := (cut '=' m).getD (m, [])
    match queryUnescape k, queryUnescape v with
    | some k, some v => some (some (String.ofList k, String.ofList v))
    | _, _ => none

/-- `url.ParseQuery`, `none` when it reports an error. -/
def parseQuery (q : List Char) : Option Header :=
  (split '&' q).foldl
    (fun acc m => acc.bind (fun vals => (queryMember m).map (fun kv =>
      match kv with
      | none => vals
      | some (k, v) => vals.insert k ((vals.lookup k).getD [] ++ [v]))))
    (some ∅)

def encodeQuery (vals : Header) : List Char :=
  let members := (vals.keys.insertionSort (· ≤ ·)).flatMap (fun k =>
    ((vals.lookup k).getD []).map (fun v =>
      queryEscape k.toList ++ ['='] ++ queryEscape v.toList))
  (members.intersperse ['&']).flatten

theorem isPrefix_append_cons_iff {α : Type} (c : α) (w p q : List α) (hw : c ∉ w) :
    w <+: p ++ c :: q ↔ w <+: p := by
  constructor
  · intro h
    induction w generalizing p with
    | nil => exact List.nil_prefix
    | cons a w ih =>
      cases p with
      | nil =>
        obtain ⟨t, ht⟩ := h
        have hac : a = c := (List.cons.inj ht).1
        exact absurd (hac ▸ List.mem_cons_self) hw
      | cons b p =>
        obtain ⟨t, ht⟩ := h
        obtain ⟨hab, ht⟩ := List.cons.inj ht
        have hw' : c ∉ w := fun hc => hw (List.mem_cons_of_mem a hc)
        exact List.cons_prefix_cons.mpr ⟨hab, ih p hw' ⟨t, ht⟩⟩
  · intro h
    exact h.trans (List.prefix_append p (c :: q))

theorem cut_append_cons (c : Char) (xs ys : List Char) (h : c ∉ xs) :
    cut c (xs ++ c :: ys) = some (xs, ys) := by
  induction xs with
  | nil => simp only [List.nil_append, cut, if_true]
  | cons x xs ih =>
    have hx : x ≠ c := fun heq => h (heq ▸ List.mem_cons_self)
    have hxs : c ∉ xs := fun hc => h (List.mem_cons_of_mem x hc)
    simp only [List.cons_append, cut, if_neg hx, ih hxs, Option.map_some]

theorem split_of_not_mem (c : Char) (xs : List Char) (h : c ∉ xs) : split c xs = [xs] := by
  induction xs with
  | nil => rfl
  | cons x xs ih =>
    have hx : x ≠ c := fun heq => h (heq ▸ List.mem_cons_self)
    have hxs : c ∉ xs := fun hc => h (List.mem_cons_of_mem x hc)
    simp only [split, ih hxs, if_neg hx]

theorem split_ne_nil (c : Char) (xs : List Char) : split c xs ≠ [] := by
  cases xs with
  | nil => exact List.cons_ne_nil _ _
  | cons x xs =>
    rw [split]
    split
    · exact List.cons_ne_nil _ _
    · split
      · exact List.cons_ne_nil _ _
      · exact List.cons_ne_nil _ _

theorem split_append_cons (c : Char) (xs ys : List Char) (h : c ∉ xs) :
    split c (xs ++ c :: ys) = xs :: split c ys := by
  induction xs with
  | nil =>
    obtain ⟨z, zs, hz⟩ := List.exists_cons_of_ne_nil (split_ne_nil c ys)
    simp only [List.nil_append, split, hz, if_true]
  | cons x xs ih =>
    have hx : x ≠ c := fun heq => h (heq ▸ List.mem_cons_self)
    have hxs : c ∉ xs := fun hc => h (List.mem_cons_of_mem x hc)
    simp only [List.cons_append, split, ih hxs, if_neg hx]

def Edged (p : Char → Bool) (xs : List Char) : Prop :=
  (∀ c ∈ xs.head?, p c = false) ∧ ∀ c ∈ xs.getLast?, p c = false

theorem Edged.append (p : Char → Bool) (xs mid ys : List Char) (hxs : xs ≠ []) (hys : ys ≠ [])
    (hx : Edged p xs) (hy : Edged p ys) : Edged p (xs ++ mid ++ ys) := by
  obtain ⟨x, xs, rfl⟩ := List.exists_cons_of_ne_nil hxs
  refine ⟨hx.1, ?_⟩
  rw [List.getLast?_append_of_ne_nil _ hys]
  exact hy.2

theorem Edged.of_forall (p : Char → Bool) (xs : List Char) (h : ∀ c ∈ xs, p c = false) :
    Edged p xs :=
  ⟨fun c hc => h c (List.mem_of_head? hc), fun c hc => h c (List.mem_of_getLast? hc)⟩

theorem trim_eq_self (p : Char → Bool) (xs : List Char) (h : Edged p xs) : trim p xs = xs := by
  have hdrop : ∀ ys : List Char, (∀ c ∈ ys.head?, p c = false) → ys.dropWhile p = ys := by
    intro ys hys
    cases ys with
    | nil => rfl
    | cons y ys => rw [List.dropWhile_cons, hys y rfl, if_neg Bool.false_ne_true]
  rw [trim, hdrop xs h.1, hdrop xs.reverse (by rw [List.head?_reverse]; exact h.2),
    List.reverse_reverse]

theorem trim_cons (p : Char → Bool) (c : Char) (xs : List Char) (h : p c = true) :
    trim p (c :: xs) = trim p xs := by
  rw [trim, List.dropWhile_cons, if_pos h, ← trim]

theorem digit_toNat (d : Nat) (h : d < 10) : (Char.ofNat (d + 48)).toNat = d + 48 := by
  have hall : ∀ i : Fin 10, (Char.ofNat (i.val + 48)).toNat = i.val + 48 := by decide
  exact hall ⟨d, h⟩

theorem foldl_digitChars (ds : List Nat) (h : ∀ d ∈ ds, d < 10) :
    (digitChars ds).foldl (fun (acc : Int) c => 10*acc + (c.toNat - 48)) 0 =
      ((Nat.ofDigits 10 ds : Nat) : Int) := by
  rw [digitChars]
  induction ds with
  | nil => rfl
  | cons d ds ih =>
    have hd := digit_toNat d (h d List.mem_cons_self)
    have hrest := ih (fun x hx => h x (List.mem_cons_of_mem d hx))
    simp only [List.reverse_cons, List.map_append, List.foldl_append, hrest, List.map_cons,
      List.map_nil, List.foldl_cons, List.foldl_nil]
    rw [hd, Nat.ofDigits_cons]
    push_cast
    omega

theorem isDigit_of_mem_digitChars (ds : List Nat) (h : ∀ d ∈ ds, d < 10) :
    ∀ c ∈ digitChars ds, c.isDigit = true := by
  have hall : ∀ i : Fin 10, (Char.ofNat (i.val + 48)).isDigit = true := by decide
  intro c hc
  obtain ⟨d, hd, rfl⟩ := List.mem_map.mp hc
  exact hall ⟨d, h d (List.mem_reverse.mp hd)⟩

theorem foldl_digits (n : Nat) :
    (digitChars (Nat.digits 10 n)).foldl (fun (acc : Int) c => 10*acc + (c.toNat - 48)) 0 = n := by
  rw [foldl_digitChars _ (fun d hd => Nat.digits_lt_base (by decide) hd), Nat.ofDigits_digits]

theorem parseMagnitude_digits (neg : Bool) (n : Nat) (hn : n ≠ 0) :
    parseMagnitude neg (digitChars (Nat.digits 10 n)) =
      if neg then (if (n : Int) ≤ 2^63 then some (-(n : Int)) else none)
      else if (n : Int) < 2^63 then some (n : Int) else none := by
  have hlt : ∀ d ∈ Nat.digits 10 n, d < 10 := fun d hd => Nat.digits_lt_base (by decide) hd
  have hne : digitChars (Nat.digits 10 n) ≠ [] := by
    rw [digitChars, ne_eq, List.map_eq_nil_iff, List.reverse_eq_nil_iff]
    exact Nat.digits_ne_nil_iff_ne_zero.mpr hn
  have hall : (digitChars (Nat.digits 10 n)).all Char.isDigit = true :=
    List.all_eq_true.mpr (isDigit_of_mem_digitChars _ hlt)
  rw [parseMagnitude, if_neg (by simp only [hne, hall, not_true_eq_false, or_self,
    not_false_eq_true])]
  simp only [foldl_digits]

theorem parseInt64_of_digit (c : Char) (cs : List Char) (hc : c.isDigit = true) :
    parseInt64 (String.ofList (c :: cs)) = parseMagnitude false (c :: cs) := by
  rw [parseInt64, String.toList_ofList]
  split
  · rename_i ds heq
    obtain ⟨rfl, -⟩ := List.cons.inj heq
    exact absurd hc (by decide)
  · rename_i ds heq
    obtain ⟨rfl, -⟩ := List.cons.inj heq
    exact absurd hc (by decide)
  · rfl

theorem mem_formatInt {n : Int} {c : Char} (hc : c ∈ formatInt n) : c.isDigit = true ∨ c = '-' := by
  have hdigits : ∀ c ∈ (if n = 0 then ['0'] else digitChars (Nat.digits 10 n.natAbs)),
      c.isDigit = true := by
    intro c hc
    by_cases hzero : n = 0
    · rw [if_pos hzero, List.mem_singleton] at hc
      subst hc
      rfl
    · rw [if_neg hzero] at hc
      exact isDigit_of_mem_digitChars _ (fun d hd => Nat.digits_lt_base (by decide) hd) c hc
  rw [formatInt] at hc
  by_cases hneg : n < 0
  · rw [if_pos hneg] at hc
    rcases List.mem_cons.mp hc with rfl | hc
    · exact Or.inr rfl
    · exact Or.inl (hdigits c hc)
  · rw [if_neg hneg] at hc
    exact Or.inl (hdigits c hc)

theorem parseInt64_formatInt (n : Int) (hlo : -2^63 ≤ n) (hhi : n < 2^63) :
    parseInt64 (String.ofList (formatInt n)) = some n := by
  by_cases hzero : n = 0
  · subst hzero
    decide
  have habs : n.natAbs ≠ 0 := Int.natAbs_ne_zero.mpr hzero
  rw [formatInt]
  simp only [if_neg hzero]
  by_cases hneg : n < 0
  · rw [if_pos hneg, parseInt64, String.toList_ofList]
    change parseMagnitude true (digitChars (Nat.digits 10 n.natAbs)) = some n
    rw [parseMagnitude_digits true n.natAbs habs, if_pos rfl, if_pos (by omega)]
    congr 1
    omega
  · have hlt : ∀ d ∈ Nat.digits 10 n.natAbs, d < 10 :=
      fun d hd => Nat.digits_lt_base (by decide) hd
    have hmag := parseMagnitude_digits false n.natAbs habs
    rw [if_neg hneg]
    cases hds : digitChars (Nat.digits 10 n.natAbs) with
    | nil =>
      rw [hds, if_neg Bool.false_ne_true, if_pos (by omega)] at hmag
      exact absurd hmag (Option.some_ne_none _).symm
    | cons c cs =>
      have hc := isDigit_of_mem_digitChars _ hlt c (hds ▸ List.mem_cons_self)
      rw [hds, if_neg Bool.false_ne_true, if_pos (by omega)] at hmag
      rw [parseInt64_of_digit c cs hc, hmag]
      congr 1
      omega

end EnvoyGo.Text

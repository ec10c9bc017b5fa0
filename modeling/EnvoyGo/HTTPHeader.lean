import Mathlib.Data.List.AList
import Mathlib.Data.List.Sort
import Mathlib.Data.String.Basic

/-!
Header containers: Go's `http.Header` map (canonical keys on every accessor,
raw keys on a map access) and the ordered carrier `OrderedHeaders`.
-/

namespace EnvoyGo

abbrev Bytes := List UInt8

/-- The bytes of a text whose characters stand for bytes. -/
def textBytes (s : String) : Bytes := s.toList.map (fun ch => UInt8.ofNat ch.toNat)

def bytesText (b : Bytes) : String := String.ofList (b.map (fun x => Char.ofNat x.toNat))

def validHeaderFieldByte (c : Char) : Bool :=
  c.isAlphanum || "!#$%&'*+-.^_`|~".toList.contains c

def canonicalFold : Bool → List Char → List Char
  | _, [] => []
  | upper, c :: cs =>
    let d := if upper then c.toUpper else c.toLower
    d :: canonicalFold (d == '-') cs

/-- A name with a byte outside the token set (a pseudo-header's colon) is left as it is. -/
def canonicalMIMEHeaderKey (s : String) : String :=
  if s.toList.all validHeaderFieldByte then String.ofList (canonicalFold true s.toList) else s

/-- `strings.EqualFold` on ASCII text. -/
def equalFold (s t : String) : Bool :=
  s.toList.map Char.toLower == t.toList.map Char.toLower

/-- `strings.ToLower` on ASCII text. -/
def toLower (s : String) : String := String.ofList (s.toList.map Char.toLower)

def hasPrefix (s t : String) : Bool := t.toList.isPrefixOf s.toList

def hasSuffix (s t : String) : Bool := t.toList.isSuffixOf s.toList

/-- Go's `map[string][]string`: one entry for each key. -/
abbrev Header := AList (fun _ : String => List String)

namespace Header

def values (h : Header) (name : String) : List String :=
  (h.lookup (canonicalMIMEHeaderKey name)).getD []

def get (h : Header) (name : String) : String := (values h name).head?.getD ""

def set (h : Header) (name value : String) : Header :=
  h.insert (canonicalMIMEHeaderKey name) [value]

def add (h : Header) (name value : String) : Header :=
  h.insert (canonicalMIMEHeaderKey name) (values h name ++ [value])

def del (h : Header) (name : String) : Header := h.erase (canonicalMIMEHeaderKey name)

def setRawIfAbsent (h : Header) (key value : String) : Header :=
  if h.lookup key = none then h.insert key [value] else h

theorem values_set_self (h : Header) (name value : String) :
    values (set h name value) name = [value] := by
  simp only [values, set, AList.lookup_insert, Option.getD_some]

theorem values_set_of_ne (h : Header) (name other value : String)
    (hne : canonicalMIMEHeaderKey other ≠ canonicalMIMEHeaderKey name) :
    values (set h name value) other = values h other := by
  simp only [values, set, AList.lookup_insert_ne hne]

theorem values_del_self (h : Header) (name : String) : values (del h name) name = [] := by
  simp only [values, del, AList.lookup_erase, Option.getD_none]

theorem values_del_of_ne (h : Header) (name other : String)
    (hne : canonicalMIMEHeaderKey other ≠ canonicalMIMEHeaderKey name) :
    values (del h name) other = values h other := by
  simp only [values, del, AList.lookup_erase_ne hne]

end Header

structure HeaderField where
  name : String
  value : String
  deriving DecidableEq, Repr

abbrev OrderedHeaders := List HeaderField

namespace OrderedHeaders

/-- First value under the name, names compared canonically. -/
def get (oh : OrderedHeaders) (name : String) : String :=
  ((oh.find? (fun hf => canonicalMIMEHeaderKey hf.name == canonicalMIMEHeaderKey name)).map
    HeaderField.value).getD ""

def toHTTPHeader (oh : OrderedHeaders) : Header :=
  oh.foldl (fun h hf => Header.add h hf.name hf.value) ∅

def ofKey (merged : Header) (key : String) : OrderedHeaders :=
  ((merged.lookup key).getD []).map (fun v => ⟨key, v⟩)

def seenKeys (original : OrderedHeaders) : List String :=
  (original.map (fun hf => canonicalMIMEHeaderKey hf.name)).reverse.dedup.reverse

/-- `ReconcileOrderedHeaders`: the original's names in their order with the merged
values, then the names only the merged map has, sorted. -/
def reconcile (original : OrderedHeaders) (merged : Header) : OrderedHeaders :=
  let seen := seenKeys original
  let newKeys := (merged.keys.filter (fun k => !seen.contains k)).insertionSort (· ≤ ·)
  seen.flatMap (ofKey merged) ++ newKeys.flatMap (ofKey merged)

def fromHTTPHeader (h : Header) : OrderedHeaders :=
  (h.keys.insertionSort (· ≤ ·)).flatMap (fun k =>
    ((h.lookup k).getD []).map (fun v => ⟨canonicalMIMEHeaderKey k, v⟩))

end OrderedHeaders

end EnvoyGo

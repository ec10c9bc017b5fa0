import EnvoyGo.GoText

/-!
Addresses and ranges of the standard library's `net`: textual addresses, CIDR masks and
`IPNet.Contains`.  An address is its bytes, 4 or 16 of them.
-/

namespace EnvoyGo.Net

abbrev IP := Bytes

def octet (ds : List Char) : Option UInt8 :=
  let n := ds.foldl (fun acc c => 10*acc + (c.toNat - 48)) 0
  if ds = [] ∨ ¬ds.all Char.isDigit ∨ ds.length > 3 ∨ (ds.length > 1 ∧ ds.head? = some '0') ∨
      n > 255 then none
  else some (UInt8.ofNat n)

def parseIPv4Fields (s : List Char) : Option Bytes :=
  let fields := Text.split '.' s
  if fields.length = 4 then fields.mapM octet else none

def v4InV6Prefix : Bytes := List.replicate 10 0 ++ [255, 255]

/-- The hex groups of an IPv6 address from byte `i` on; `ell` is where `::` stood.  The result
is the bytes and the place of the ellipsis.  `fuel` bounds the groups, eight at most. -/
def parseGroups : Nat → List Char → Bytes → Option Nat → Option (Bytes × Option Nat)
  | 0, s, ip, ell => if s = [] then some (ip, ell) else none
  | fuel + 1, s, ip, ell =>
    let digits := s.takeWhile (fun c => (Text.hexValue c).isSome)
    let rest := s.drop digits.length
    if digits = [] ∨ digits.length > 4 then none
    else if rest.head? = some '.' then
      -- an IPv4 address in the last four bytes
      if (ell = none ∧ ip.length ≠ 12) ∨ ip.length + 4 > 16 then none
      else (parseIPv4Fields s).map (fun v4 => (ip ++ v4, ell))
    else
      let n := digits.foldl (fun acc c => 16*acc + (Text.hexValue c).getD 0) 0
      let ip' := ip ++ [UInt8.ofNat (n / 256), UInt8.ofNat (n % 256)]
      match rest with
      | [] => some (ip', ell)
      | [_] => none
      | ':' :: ':' :: more =>
        if ell.isSome then none
        else if more = [] then some (ip', some ip'.length)
        else parseGroups fuel more ip' (some ip'.length)
      | ':' :: more => parseGroups fuel more ip' ell
      | _ => none

def expandEllipsis : Bytes × Option Nat → Option Bytes
  | (ip, none) => if ip.length = 16 then some ip else none
  | (ip, some e) =>
    if ip.length < 16 then
      some (ip.take e ++ List.replicate (16 - ip.length) 0 ++ ip.drop e)
    else none

def parseIPv6 (s : List Char) : Option Bytes :=
  match s with
  | [':', ':'] => some (List.replicate 16 0)
  | ':' :: ':' :: more => (parseGroups 8 more [] (some 0)).bind expandEllipsis
  | _ => (parseGroups 8 s [] none).bind expandEllipsis

/-- `netip.ParseAddr` without zones: the first `.` or `:` decides the family. -/
def parseAddr (s : String) : Option Bytes :=
  match s.toList.find? (fun c => c == '.' || c == ':' || c == '%') with
  | some '.' => parseIPv4Fields s.toList
  | some ':' => parseIPv6 s.toList
  | _ => none

def to4 (ip : IP) : Option Bytes :=
  if ip.length = 4 then some ip
  else if ip.length = 16 ∧ ip.take 12 = v4InV6Prefix then some (ip.drop 12)
  else none

/-- `net.ParseIP`: always 16 bytes. -/
def parseIP (s : String) : Option IP :=
  (parseAddr s).map (fun a => if a.length = 4 then v4InV6Prefix ++ a else a)

structure IPNet where
  ip : IP
  mask : Bytes
  deriving DecidableEq

def cidrMask (ones bytes : Nat) : Bytes :=
  (List.range bytes).map (fun i => UInt8.ofNat (256 - 2 ^ (8 - min 8 (ones - 8*i))))

def maskBytes (ip mask : Bytes) : Bytes := List.zipWith (fun a m => a &&& m) ip mask

/-- `net.ParseCIDR` of an address and a length that is already a number; the mask has the
width of the address as written. -/
def parseCIDR (addr : String) (ones : Nat) : Option IPNet :=
  (parseAddr addr).bind (fun a =>
    if ones > 8 * a.length then none
    else
      let mask := cidrMask ones a.length
      some { ip := maskBytes a mask, mask := mask })

def IPNet.networkNumberAndMask (n : IPNet) : Option (Bytes × Bytes) :=
  let ip := (to4 n.ip).getD n.ip
  if n.mask.length = ip.length then some (ip, n.mask)
  else if n.mask.length = 16 ∧ ip.length = 4 then some (ip, n.mask.drop 12)
  else none

def IPNet.contains (n : IPNet) (ip : IP) : Bool :=
  match n.networkNumberAndMask with
  | none => false
  | some (nn, m) =>
    let ip := (to4 ip).getD ip
    ip.length == nn.length && maskBytes nn m == maskBytes ip m

end EnvoyGo.Net

import Mathlib.Algebra.Order.Group.Int
import Mathlib.Algebra.Group.Nat.Defs

/-!
Binary64 numbers by their bits: equality as IEEE 754 has it, and their shortest decimal text.
Nothing here is about a particular program.
-/

namespace EnvoyGo

structure Float64 where
  bits : UInt64
  deriving DecidableEq

namespace Float64

def isNegative (x : Float64) : Bool := decide (2 ^ 63 ≤ x.bits.toNat)

def exponent (x : Float64) : Nat := x.bits.toNat / 2 ^ 52 % 2 ^ 11

def fraction (x : Float64) : Nat := x.bits.toNat % 2 ^ 52

def isNaN (x : Float64) : Bool := x.exponent == 2047 && x.fraction != 0

def isInf (x : Float64) : Bool := x.exponent == 2047 && x.fraction == 0

def isZero (x : Float64) : Bool := x.exponent == 0 && x.fraction == 0

def eq (x y : Float64) : Bool :=
  !x.isNaN && !y.isNaN && (decide (x.bits = y.bits) || x.isZero && y.isZero)

def mantissa (x : Float64) : Nat := if x.exponent = 0 then x.fraction else 2 ^ 52 + x.fraction

/-- The multiple of `10 ^ p` next to a finite number from below or above that lies between the
halfway points to the neighbouring numbers; the nearest one if both do.  The halfway points belong
to numbers with an even mantissa. -/
def multipleAt (x : Float64) (p : Int) : Option Nat :=
  -- everything in quarters of the last place, which are `2 ^ u`
  let u : Int := (max x.exponent 1 : Nat) - 1077
  let value := 4 * x.mantissa
  let upper := value + 2
  let lower := if x.fraction = 0 ∧ 1 < x.exponent then value - 1 else value - 2
  let quarter := 2 ^ u.toNat * 10 ^ (-p).toNat
  let unit := 10 ^ p.toNat * 2 ^ (-u).toNat
  let n := value * quarter / unit
  let inside (a b : Nat) : Bool := if x.mantissa % 2 = 0 then decide (a ≤ b) else decide (a < b)
  match inside (lower * quarter) (n * unit), inside ((n + 1) * unit) (upper * quarter) with
  | true, true =>
    let above := 2 * (value * quarter - n * unit)
    if above < unit ∨ above = unit ∧ n % 2 = 0 then some n else some (n + 1)
  | true, false => some n
  | false, true => some (n + 1)
  | false, false => none

/-- The fewest digits that denote a finite number other than zero, and the power of ten of the last
of them. -/
def shortest (x : Float64) : Nat × Int :=
  ((List.range 700).findSome? fun i : Nat =>
    (x.multipleAt (309 - i)).map fun n => (n, 309 - (i : Int))).getD (0, 0)

def fmtE (digits : List Char) (exp : Int) : String :=
  let point := if 1 < digits.length then "." else ""
  let sign := if exp < 0 then "-" else "+"
  let zero := if exp.natAbs < 10 then "0" else ""
  String.ofList (digits.take 1) ++ point ++ String.ofList (digits.drop 1) ++ "e" ++ sign ++ zero ++
    toString exp.natAbs

def fmtF (digits : List Char) (dp : Int) : String :=
  if dp ≤ 0 then
    "0." ++ String.ofList (List.replicate (-dp).toNat '0') ++ String.ofList digits
  else
    let point := if dp < digits.length then "." else ""
    String.ofList (digits.take dp.toNat) ++
      String.ofList (List.replicate (dp.toNat - digits.length) '0') ++ point ++
      String.ofList (digits.drop dp.toNat)

/-- `strconv.FormatFloat(x, 'g', -1, 64)`. -/
def formatFloat (x : Float64) : String :=
  if x.isNaN then "NaN"
  else
    let sign := if x.isNegative then "-" else ""
    if x.isInf then (if x.isNegative then "-Inf" else "+Inf")
    else if x.isZero then sign ++ "0"
    else
      let s := x.shortest
      let digits := (toString s.1).toList
      let exp := digits.length + s.2 - 1
      if exp < -4 ∨ 6 ≤ exp then sign ++ fmtE digits exp else sign ++ fmtF digits (exp + 1)

end Float64

end EnvoyGo

import Mempool.Json.Basic

/-! Number literals and their values. A literal without fraction and exponent that fits 64 bits is
an integer, except for a negative zero; every other one is a floating-point number. -/
namespace Mempool.Json

structure Numeral where
  negative : Bool
  whole : List Char
  fraction : Option (List Char)
  exponent : Option (Bool × List Char)
deriving DecidableEq, Repr

namespace Numeral

/-- All the digits here, of which there must be one. -/
def digitsHere : Reader (List Char)
  | [] => .error .truncated
  | c :: s =>
    if c.isDigit then .ok ((c :: s).takeWhile Char.isDigit, (c :: s).dropWhile Char.isDigit)
    else .error .malformed

/-- A leading zero stands alone. -/
def readWhole (s : List Char) : Except ReadError (List Char × List Char) := do
  let (digits, rest) ← digitsHere s
  if digits.head? = some '0' ∧ digits.length ≠ 1 then throw .malformed
  return (digits, rest)

def readFraction : Reader (Option (List Char))
  | '.' :: s => (digitsHere s).map fun (digits, rest) => (some digits, rest)
  | s => .ok (none, s)

/-- The sign, true for minus, and the digits. -/
def readExponent : Reader (Option (Bool × List Char))
  | c :: s =>
    if c = 'e' || c = 'E' then
      let (negative, s) := match s with
        | '+' :: s => (false, s)
        | '-' :: s => (true, s)
        | s => (false, s)
      (digitsHere s).map fun (digits, rest) => (some (negative, digits), rest)
    else .ok (none, c :: s)
  | [] => .ok (none, [])

def read (s : List Char) : Except ReadError (Numeral × List Char) := do
  let (negative, s) := match s with
    | '-' :: s => (true, s)
    | s => (false, s)
  let (whole, s) ← readWhole s
  let (fraction, s) ← readFraction s
  let (exponent, s) ← readExponent s
  return (⟨negative, whole, fraction, exponent⟩, s)

/-- The integer of the literal, if it is one. -/
def integer? (n : Numeral) : Option Int :=
  if n.fraction.isSome || n.exponent.isSome then none
  else
    let magnitude := Decimal.value n.whole
    if n.negative then
      if 0 < magnitude ∧ magnitude ≤ 0x8000000000000000 then some (-magnitude) else none
    else if magnitude < UInt64.size then some magnitude else none

/-- Adds digits to a significand for as long as it fits 64 bits; also the count of those left. -/
def accumulate (significand : Nat) : List Char → Nat × Nat
  | [] => (significand, 0)
  | c :: digits =>
    let next := 10 * significand + (c.toNat - '0'.toNat)
    if next < UInt64.size then accumulate next digits else (significand, digits.length + 1)

/-- Significand and decimal exponent, less the literal's own exponent. Whole digits that do not fit
raise the exponent; fraction digits that do not fit are dropped. -/
def parts (n : Numeral) : Nat × Int :=
  let (whole, raised) := accumulate 0 n.whole
  let fraction := n.fraction.getD []
  let (significand, dropped) := accumulate whole fraction
  (significand, (raised : Int) - ((fraction.length : Int) - dropped))

/-- Larger exponents than this one are not evaluated. -/
def maxExponent : Nat := 0x7fffffff

def powerOfTen (n : Nat) : Float := Float.ofScientific 1 false n

/-- Divides by powers of ten in steps of at most 308. -/
def shrink (x : Float) (exponent : Nat) : Float :=
  if exponent ≤ 308 then x / powerOfTen exponent
  else if x == 0 then x
  else shrink (x / powerOfTen 308) (exponent - 308)
termination_by exponent

/-- A significand times a power of ten, unless that exceeds every finite number. -/
def scale? (significand : Nat) (exponent : Int) : Option Float :=
  let x := (UInt64.ofNat significand).toFloat
  if exponent < 0 then some (shrink x exponent.natAbs)
  else if exponent ≤ 308 then
    let y := x * powerOfTen exponent.toNat
    if y.isInf then none else some y
  else if significand = 0 then some 0 else none

def magnitude? (n : Numeral) : Option Float :=
  let (significand, exponent) := n.parts
  match n.exponent with
  | none => scale? significand exponent
  | some (negative, digits) =>
    let own := Decimal.value digits
    if maxExponent < own then if significand = 0 || negative then some 0 else none
    else scale? significand (if negative then exponent - own else exponent + own)

def float? (n : Numeral) : Option Float := n.magnitude?.map fun x => if n.negative then -x else x

/-- The number that the literal stands for. One beyond every finite number is malformed. -/
def found (n : Numeral) : Except ReadError Found :=
  match n.integer? with
  | some value => .ok (.integer value)
  | none =>
    match n.float? with
    | some x => .ok (.floating x.toBits)
    | none => .error .malformed

end Numeral

end Mempool.Json

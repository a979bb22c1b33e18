import Mempool.Decimal.Integer

/-! Floating-point numbers in decimal, by the shortest digits that read back. A number is
`mantissa · 2^exponent`; the reals nearest to it form an interval, and the first grid of decimals,
from coarse to fine, with a point in that interval gives the digits. Decimal exponents from -5 to 15
are written positionally with at least one decimal; others in scientific form with a signed
exponent. -/
namespace Mempool.Decimal

/-- A number that is not negative, with a note of whether its lower neighbour is only half as far
as the upper one. -/
structure Dyadic where
  mantissa : Nat
  exponent : Int
  halfGapBelow : Bool
deriving DecidableEq, Repr

/-- The decimal `digits · 10^exponent`. -/
structure Scientific where
  digits : Nat
  exponent : Int
deriving DecidableEq, Repr

namespace Dyadic

/-- The magnitude of a finite double given by its bits; the sign bit is ignored. -/
def ofBits (bits : UInt64) : Dyadic :=
  let field := (bits >>> 52 &&& 0x7ff).toNat
  let fraction := (bits &&& 0xfffffffffffff).toNat
  if field = 0 then ⟨fraction, -1074, false⟩
  else ⟨0x10000000000000 + fraction, Int.ofNat field - 1075, fraction = 0 && 1 < field⟩

/-- A count of quarters of the last place, times the denominator of the grid `10^k`. -/
def scaled (x : Dyadic) (k : Int) (quarters : Nat) : Nat :=
  quarters * Nat.pow 2 (x.exponent - 2).toNat * Nat.pow 10 (-k).toNat

/-- The spacing of the grid `10^k` in the same measure as `scaled`. -/
def spacing (x : Dyadic) (k : Int) : Nat :=
  Nat.pow 10 k.toNat * Nat.pow 2 (2 - x.exponent).toNat

/-- Whether a point of the grid reads back as the number. Ends count when the mantissa is even. -/
def roundsFrom (x : Dyadic) (k : Int) (point : Nat) : Bool :=
  let low := x.scaled k (4 * x.mantissa - if x.halfGapBelow then 1 else 2)
  let high := x.scaled k (4 * x.mantissa + 2)
  let place := point * x.spacing k
  if x.mantissa % 2 = 0 then low ≤ place && place ≤ high else low < place && place < high

/-- The point of the grid to print, if one reads back; of two the nearer, or the even one. -/
def onGrid? (x : Dyadic) (k : Int) : Option Nat :=
  let middle := x.scaled k (4 * x.mantissa)
  let below := middle / x.spacing k
  let above := below + 1
  match x.roundsFrom k below, x.roundsFrom k above with
  | false, false => none
  | true, false => some below
  | false, true => some above
  | true, true =>
    match compare (middle - below * x.spacing k) (above * x.spacing k - middle) with
    | .lt => some below
    | .gt => some above
    | .eq => some (if below % 2 = 0 then below else above)

/-- Tries `count` grids, from `10^k` down. -/
def search (x : Dyadic) : (count : Nat) → (k : Int) → Option Scientific
  | 0, _ => none
  | count + 1, k =>
    match x.onGrid? k with
    | some digits => some ⟨digits, k⟩
    | none => search x count (k - 1)

/-- The grids run from above the largest double to the spacing of the smallest ones. -/
def shortest (x : Dyadic) : Scientific :=
  if x.mantissa = 0 then ⟨0, 0⟩ else (x.search 634 309).getD ⟨0, 0⟩

end Dyadic

/-! ## Written forms -/

/-- Digits with a point after the one of place `exponent`, or zeros where there are none. -/
def positional (ds : List Char) (exponent : Int) : List Char :=
  if exponent < 0 then ['0', '.'] ++ List.replicate (-exponent - 1).toNat '0' ++ ds
  else
    let whole := exponent.toNat + 1
    if ds.length ≤ whole then ds ++ List.replicate (whole - ds.length) '0' ++ ['.', '0']
    else ds.take whole ++ '.' :: ds.drop whole

def scientific (ds : List Char) (exponent : Int) : List Char :=
  let mantissa := match ds with
    | d :: e :: rest => d :: '.' :: e :: rest
    | short => short
  mantissa ++ 'e' :: (if exponent < 0 then '-' else '+') :: digits exponent.natAbs

def Scientific.text (x : Scientific) : List Char :=
  let ds := Decimal.digits x.digits
  let exponent := x.exponent + (ds.length : Int) - 1
  if -5 ≤ exponent ∧ exponent ≤ 15 then positional ds exponent else scientific ds exponent

/-- The text of a finite double given by its bits. -/
def ofFloatBits (bits : UInt64) : String :=
  let sign := if bits < 0x8000000000000000 then [] else ['-']
  String.ofList (sign ++ (Dyadic.ofBits bits).shortest.text)

end Mempool.Decimal

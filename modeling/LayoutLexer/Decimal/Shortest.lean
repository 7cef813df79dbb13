import LayoutLexer.Decimal.Binary64
import LayoutLexer.Text

/-! # The shortest decimal of a binary number

A binary number is written with the fewest decimal digits that no other binary number is
nearer to.  All numbers between the two midpoints around it read back as it, the midpoints
too if its significand is even.  For one digit, two digits and so on, the two neighbours on
that decimal grid are tried; of two that read back the nearer one is taken, and the even one
if both are equally near.

The digits stand positionally while the exponent of the first one is between -5 and 15, always
with a point; otherwise there is one digit before the point and a signed exponent follows,
without leading zeros.
-/
namespace LayoutLexer
namespace Decimal

/-- Digits without trailing zeros, and the power of ten of the first digit. -/
structure Digits where
  digits : Text
  exponent : Int
  deriving DecidableEq, Repr

namespace Binary64

/-- Whether the significand is the least of its exponent, so that the next smaller magnitude
is only half as far away as the next greater one. -/
def isPowerOfTwo (b : Binary64) : Bool := b.significand == Nat.pow 2 52 && b.exponent != minExponent

/-- Four times the significand, and the same for the midpoints below and above. -/
def quarters (b : Binary64) : Nat × Nat × Nat :=
  let v := 4 * b.significand
  (v, if b.isPowerOfTwo then v - 1 else v - 2, v + 2)

/-- Whether a ratio of quarters lies between the midpoints around a magnitude. -/
def readsBack (b : Binary64) (num den : Nat) : Bool :=
  let (_, low, high) := b.quarters
  if b.significand % 2 = 0 then low * den ≤ num && num ≤ high * den
  else low * den < num && num < high * den

/-- The power of ten of the first digit of a positive ratio. -/
def leadingExponent (num den : Nat) : Int :=
  if den ≤ num then ((Nat.toDigits 10 (num / den)).length : Int) - 1
  else
    -((Nat.toDigits 10 ((den - 1) / num)).length : Int)

/-- The grid of a power of ten, as the quarters of one grid step in units of the magnitude's
own exponent. -/
def gridStep (b : Binary64) (power : Int) : Nat × Nat :=
  let (n, d) := scaleByTwo 4 1 (-b.exponent)
  if 0 ≤ power then (n * Nat.pow 10 power.toNat, d) else (n, d * Nat.pow 10 (-power).toNat)

/-- The neighbour on a decimal grid that reads back, the nearer one if both do. -/
def neighbour? (b : Binary64) (power : Int) : Option Nat :=
  let (step, den) := b.gridStep power
  let v := 4 * b.significand * den
  let below := v / step
  let fits (k : Nat) : Bool := b.readsBack (k * step) den
  match fits below, fits (below + 1) with
  | true, true =>
    let r := v % step
    if 2 * r < step || (2 * r == step && below % 2 == 0) then some below else some (below + 1)
  | true, false => some below
  | false, true => some (below + 1)
  | false, false => none

/-- Digits of a number, with the number of digits dropped from the end if they are zeros. -/
def digitsOf (n : Nat) (power : Int) : Digits :=
  let ds := Nat.toDigits 10 n
  let stripped := (ds.reverse.dropWhile (· == '0')).reverse
  ⟨stripped, power + ds.length - 1⟩

/-- The most digits that are ever needed. -/
def maxDigits : Nat := 17

/-- The shortest digits of a magnitude other than zero. -/
def shortest (b : Binary64) : Digits :=
  let (num, den) := b.toRatio
  let first := leadingExponent num den
  let grids := (List.range maxDigits).map fun n : Nat => first - (n : Int)
  match grids.findSome? fun power => (b.neighbour? power).map fun n => digitsOf n power with
  | some digits => digits
  | none => digitsOf num 0

end Binary64

namespace Digits

/-- The least exponent of the first digit that is written positionally. -/
def minPositional : Int := -5

/-- The greatest exponent of the first digit that is written positionally. -/
def maxPositional : Int := 15

/-- A point and the digits after it. -/
def fraction (ds : Text) : Text :=
  match ds with
  | [] => []
  | _ => '.' :: ds

/-- Digits around a point. -/
def positional (d : Digits) : Text :=
  if d.exponent < 0 then
    ['0', '.'] ++ List.replicate ((-d.exponent).toNat - 1) '0' ++ d.digits
  else
    let whole := d.exponent.toNat + 1
    let padded := d.digits ++ List.replicate (whole - d.digits.length) '0'
    padded.take whole ++ '.' ::
      (match padded.drop whole with
        | [] => ['0']
        | ds => ds)

/-- One digit, the fraction and a signed exponent. -/
def scientific (d : Digits) : Text :=
  d.digits.take 1 ++ fraction (d.digits.drop 1) ++
    'e' :: (if d.exponent < 0 then '-' else '+') :: Text.decimal d.exponent.natAbs

/-- The digits as they are written. -/
def text (d : Digits) : Text :=
  if minPositional ≤ d.exponent ∧ d.exponent ≤ maxPositional then d.positional else d.scientific

end Digits

namespace Binary64

/-- A magnitude as it is written. -/
def text (b : Binary64) : Text := if b.isZero then ['0', '.', '0'] else b.shortest.text

end Binary64
end Decimal
end LayoutLexer

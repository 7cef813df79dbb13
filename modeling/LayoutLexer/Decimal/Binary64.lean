/-! # Binary numbers of fifty-three bits

A finite magnitude is a significand below 2 ^ 53 times a power of two that is at least
2 ^ (-1074).  Every positive ratio has a nearest such magnitude, of two equally near ones the
one with the even significand; reading a decimal multiplies or divides such magnitudes, and
each operation rounds once.  A result beyond the greatest magnitude is absent.
-/
namespace LayoutLexer
namespace Decimal

/-- The magnitude `significand * 2 ^ exponent`. -/
structure Binary64 where
  significand : Nat
  exponent : Int
  deriving DecidableEq, Repr

/-- The quotient rounded to the nearest number, to the even one of two equally near. -/
def roundDiv (num den : Nat) : Nat :=
  let q := num / den
  let r := num % den
  if 2 * r < den then q else if den < 2 * r then q + 1 else q + q % 2

/-- Numerator and denominator multiplied by a power of two. -/
def scaleByTwo (num den : Nat) (e : Int) : Nat × Nat :=
  if 0 ≤ e then (num * Nat.pow 2 e.toNat, den) else (num, den * Nat.pow 2 (-e).toNat)

namespace Binary64

/-- The least exponent. -/
def minExponent : Int := -1074

/-- The greatest exponent of a finite magnitude. -/
def maxExponent : Int := 971

/-- Zero. -/
def zero : Binary64 := ⟨0, minExponent⟩

/-- Whether the magnitude is zero. -/
def isZero (b : Binary64) : Bool := b.significand == 0

/-- The exponent at which a positive ratio has a significand of fifty-three bits, or the least
exponent if that is greater. -/
def exponentOf (num den : Nat) : Int :=
  let guess : Int := (num.log2 : Int) - (den.log2 : Int) - 53
  let (n, d) := scaleByTwo num den (-guess)
  max (if d * Nat.pow 2 53 ≤ n then guess + 1 else guess) minExponent

/-- The magnitude nearest to a ratio, if it is finite. -/
def ofRatio (num den : Nat) : Option Binary64 :=
  if num = 0 then some zero
  else
    let e := exponentOf num den
    let (n, d) := scaleByTwo num den (-e)
    let m := roundDiv n d
    let b : Binary64 := if m = Nat.pow 2 53 then ⟨Nat.pow 2 52, e + 1⟩ else ⟨m, e⟩
    if b.exponent ≤ maxExponent then some b else none

/-- The exact value as a ratio. -/
def toRatio (b : Binary64) : Nat × Nat := scaleByTwo b.significand 1 b.exponent

/-- The product, if it is finite. -/
def mul (a b : Binary64) : Option Binary64 :=
  let (n, d) := a.toRatio
  let (n', d') := b.toRatio
  ofRatio (n * n') (d * d')

/-- The quotient by a magnitude other than zero, if it is finite. -/
def div (a b : Binary64) : Option Binary64 :=
  let (n, d) := a.toRatio
  let (n', d') := b.toRatio
  ofRatio (n * d') (d * n')

/-- The greatest power of ten that is finite. -/
def maxPowerOfTen : Nat := 308

/-- The magnitude nearest to a power of ten, if it is finite. -/
def powerOfTen (k : Nat) : Option Binary64 := ofRatio (Nat.pow 10 k) 1

/-- A magnitude divided a number of times by the greatest power of ten; zero stays zero. -/
def divRepeatedly (b : Binary64) : Nat → Option Binary64
  | 0 => some b
  | n + 1 =>
    if b.isZero then some b
    else
      match (powerOfTen maxPowerOfTen).bind b.div with
      | none => none
      | some b => divRepeatedly b n

/-- A magnitude divided by a power of ten: by the greatest finite power as often as that leaves
a finite one, then by what is left. -/
def divByPowerOfTen (b : Binary64) (k : Nat) : Option Binary64 :=
  let times := (k - 1) / maxPowerOfTen
  match b.divRepeatedly times with
  | none => none
  | some b => (powerOfTen (k - maxPowerOfTen * times)).bind b.div

/-- A significand times a power of ten, if it is finite: the significand is rounded first, then
the power of ten, then their product or quotient. -/
def ofDecimal (significand : Nat) (exponent : Int) : Option Binary64 :=
  (ofRatio significand 1).bind fun b =>
    if exponent < 0 then b.divByPowerOfTen (-exponent).toNat
    else if exponent.toNat ≤ maxPowerOfTen then (powerOfTen exponent.toNat).bind b.mul
    else if b.isZero then some b
    else none

end Binary64
end Decimal
end LayoutLexer

import LayoutLexer.CharClass
import LayoutLexer.Json.Reader
import LayoutLexer.Overflow

/-! # Numbers in JSON

A number is an optional minus sign, a whole part without leading zeros, and optionally a
fraction and an exponent.  A whole number of sixty-four bits is an integer; minus zero and
every other number is a binary one, which must be in range where a value is wanted.
-/
namespace LayoutLexer
namespace Json

/-- Whether a unit is a decimal digit. -/
def isDigit : Option Char → Bool
  | some c => CharClass.isDecimalDigit c
  | none => false

/-- The value of a decimal digit. -/
def digitValue : Option Char → Nat
  | some c => c.toNat - '0'.toNat
  | none => 0

/-- The values of the digits at the front of a document, and the rest. -/
def digitRun (d : Document) : List Nat × Document :=
  ((d.takeWhile isDigit).map digitValue, d.dropWhile isDigit)

/-- One or more digits. -/
def digits1 : Reader (List Nat) := fun d =>
  match digitRun d with
  | ([], rest) => .error (unexpected rest)
  | (ds, rest) => .ok (ds, rest)

/-- The digits before the point: a zero alone, or digits that begin with another one. -/
def wholeDigits : Reader (List Nat) := fun d =>
  match digits1 d with
  | .error e => .error e
  | .ok (0 :: _ :: _, _) => .error .malformed
  | .ok split => .ok split

/-- The digits after the point, if there is one. -/
def fractionDigits : Reader (Option (List Nat))
  | some '.' :: rest =>
    match digits1 rest with
    | .error e => .error e
    | .ok (ds, rest) => .ok (some ds, rest)
  | d => .ok (none, d)

/-- The sign of an exponent, true for minus. -/
def exponentSign : Document → Bool × Document
  | some '+' :: rest => (false, rest)
  | some '-' :: rest => (true, rest)
  | d => (false, d)

/-- The sign and the digits of the exponent, if there is one. -/
def exponentDigits : Reader (Option (Bool × List Nat))
  | some 'e' :: rest | some 'E' :: rest =>
    let (negative, rest) := exponentSign rest
    match digits1 rest with
    | .error e => .error e
    | .ok (ds, rest) => .ok (some (negative, ds), rest)
  | d => .ok (none, d)

/-- The parts of a number after its sign. -/
structure NumberParts where
  whole : List Nat
  fraction : Option (List Nat)
  exponent : Option (Bool × List Nat)
  deriving DecidableEq, Repr

/-- The parts of a number. -/
def numberParts : Reader NumberParts := fun d =>
  match wholeDigits d with
  | .error e => .error e
  | .ok (whole, d) =>
    match fractionDigits d with
    | .error e => .error e
    | .ok (fraction, d) =>
      match exponentDigits d with
      | .error e => .error e
      | .ok (exponent, d) => .ok (⟨whole, fraction, exponent⟩, d)

/-- The number that digits denote. -/
def digitsValue (ds : List Nat) : Nat := ds.foldl (fun n d => n * 10 + d) 0

/-- Takes digits into a value as long as it fits sixty-four bits; the others are left. -/
def absorb (value : Nat) : List Nat → Nat × List Nat
  | [] => (value, [])
  | d :: ds =>
    if value * 10 + d < Checked.limit then absorb (value * 10 + d) ds else (value, d :: ds)

/-- A number: an integer that fits, or a binary number with its sign. -/
inductive Number where
  | integer (n : Int)
  | float (negative : Bool) (magnitude : Decimal.Binary64)
  deriving DecidableEq, Repr

/-- A number as what was found. -/
def Number.found : Number → Found
  | .integer n => .integer n
  | .float negative b => .float negative b

namespace NumberParts

/-- Whether the number has neither a fraction nor an exponent. -/
def isWhole (p : NumberParts) : Bool := p.fraction.isNone && p.exponent.isNone

/-- The significand of a number and its power of ten: digits that do not fit any more count as
powers of ten before the point and are dropped after it. -/
def scaled (p : NumberParts) : Nat × Int :=
  let (whole, beyond) := absorb 0 p.whole
  let fraction := p.fraction.getD []
  let (significand, dropped) := absorb whole fraction
  let shift : Int := (beyond.length : Int) - ((fraction.length : Int) - dropped.length)
  match p.exponent with
  | none => (significand, shift)
  | some (negative, ds) =>
    let e : Int := digitsValue ds
    (significand, if negative then shift - e else shift + e)

/-- A binary number with the given sign, if the number is in range. -/
def float (p : NumberParts) (negative : Bool) : Except ReadError Number :=
  let (significand, exponent) := p.scaled
  match Decimal.Binary64.ofDecimal significand exponent with
  | some b => .ok (.float negative b)
  | none => .error .malformed

/-- The value of a number.  Whole numbers of sixty-four bits are integers; minus zero is not. -/
def value (p : NumberParts) (negative : Bool) : Except ReadError Number :=
  match p.isWhole, absorb 0 p.whole with
  | true, (n, []) =>
    if negative then
      if 0 < n ∧ n ≤ Nat.pow 2 63 then .ok (.integer (-(n : Int))) else p.float negative
    else .ok (.integer n)
  | _, _ => p.float negative

end NumberParts

/-- A number after its sign. -/
def readNumber (negative : Bool) : Reader Number := fun d =>
  match numberParts d with
  | .error e => .error e
  | .ok (parts, rest) =>
    match parts.value negative with
    | .error e => .error e
    | .ok n => .ok (n, rest)

/-- Passes over a number after its sign; whatever is wrong with it, it is malformed. -/
def skipNumber (d : Document) : Except ReadError Document :=
  match numberParts d with
  | .error _ => .error .malformed
  | .ok (_, rest) => .ok rest

/-! ## What is left is less -/

theorem length_digits1_lt {d rest : Document} {ds : List Nat} (h : digits1 d = .ok (ds, rest)) :
    rest.length < d.length := by
  unfold digits1 digitRun at h
  split at h
  · cases h
  · next ds' rest' hne heq =>
    cases h
    have happ := congrArg List.length (List.takeWhile_append_dropWhile (p := isDigit) (l := d))
    have hpos : (d.takeWhile isDigit).length ≠ 0 := fun hz => by
      rw [List.length_eq_zero_iff.1 hz] at heq
      exact hne (Prod.mk.inj heq).1.symm
    rw [← (Prod.mk.inj heq).2, ← happ, List.length_append]
    omega

theorem length_wholeDigits_lt {d rest : Document} {ds : List Nat}
    (h : wholeDigits d = .ok (ds, rest)) : rest.length < d.length := by
  unfold wholeDigits at h
  split at h
  · cases h
  · cases h
  · next hd => cases h; exact length_digits1_lt hd

theorem length_fractionDigits_le {d rest : Document} {ds : Option (List Nat)}
    (h : fractionDigits d = .ok (ds, rest)) : rest.length ≤ d.length := by
  unfold fractionDigits at h
  split at h
  · split at h
    · cases h
    · next hd => cases h; exact Nat.le_succ_of_le (Nat.le_of_lt (length_digits1_lt hd))
  · cases h; exact Nat.le_refl _

theorem length_exponentSign_le (d : Document) : (exponentSign d).2.length ≤ d.length := by
  unfold exponentSign
  split <;> simp

theorem length_exponentDigits_le {d rest : Document} {ds : Option (Bool × List Nat)}
    (h : exponentDigits d = .ok (ds, rest)) : rest.length ≤ d.length := by
  unfold exponentDigits at h
  split at h
  iterate 2
    dsimp only at h
    split at h
    · cases h
    · next hd =>
      cases h
      have := length_exponentSign_le ‹Document›
      have := length_digits1_lt hd
      simp only [List.length_cons]
      omega
  · cases h; exact Nat.le_refl _

theorem length_numberParts_lt {d rest : Document} {p : NumberParts}
    (h : numberParts d = .ok (p, rest)) : rest.length < d.length := by
  unfold numberParts at h
  split at h
  · cases h
  · next hw =>
    split at h
    · cases h
    · next hf =>
      split at h
      · cases h
      · next he =>
        cases h
        have := length_wholeDigits_lt hw
        have := length_fractionDigits_le hf
        have := length_exponentDigits_le he
        omega

theorem length_readNumber_lt {negative : Bool} {d rest : Document} {n : Number}
    (h : readNumber negative d = .ok (n, rest)) : rest.length < d.length := by
  unfold readNumber at h
  split at h
  · cases h
  · next hp =>
    split at h
    · cases h
    · cases h; exact length_numberParts_lt hp

theorem length_skipNumber_lt {d rest : Document} (h : skipNumber d = .ok rest) :
    rest.length < d.length := by
  unfold skipNumber at h
  split at h
  · cases h
  · next hp => cases h; exact length_numberParts_lt hp

end Json
end LayoutLexer

import LayoutLexer.Unicode

/-! # Character classes

The classes by which lexemes are told apart.  Letters, digits and combining marks may continue
an identifier; together with the underscore they are the word characters, and a lexeme that is
a word or a number must not end between two of them.  Digits of a radix, hexadecimal digits
and decimal digits are ASCII only.
-/
namespace LayoutLexer
namespace CharClass

/-- Any letter. -/
def isAlphabetic (c : Char) : Bool := Unicode.alphabetic.contains c

/-- Any letter or digit, of every script. -/
def isAlphanumeric (c : Char) : Bool :=
  Unicode.alphabetic.contains c || Unicode.numeric.contains c

/-- A letter that begins an upper identifier. -/
def isUpperStart (c : Char) : Bool := Unicode.uppercase.contains c

/-- A letter that begins a lower identifier: any letter that is not uppercase. -/
def isLowerStart (c : Char) : Bool := isAlphabetic c && !isUpperStart c

/-- A mark that attaches to the letter before it. -/
def isCombiningMark (c : Char) : Bool := Unicode.marks.contains c

/-- A character that may follow the first letter of an identifier. -/
def isIdentifierContinue (c : Char) : Bool := isAlphanumeric c || isCombiningMark c

/-- A character of a word: what may continue an identifier, or an underscore. -/
def isWordChar (c : Char) : Bool := isIdentifierContinue c || c == '_'

/-- A space or a tab. -/
def isHorizontalSpace (c : Char) : Bool := c == ' ' || c == '\t'

/-- A carriage return or a line feed. -/
def isLineBreak (c : Char) : Bool := c == '\r' || c == '\n'

/-- An ASCII decimal digit. -/
def isDecimalDigit (c : Char) : Bool := '0' ≤ c && c ≤ '9'

/-- The value of an ASCII digit or letter as a digit of radix thirty-six. -/
def digitValue? (c : Char) : Option Nat :=
  if '0' ≤ c && c ≤ '9' then some (c.toNat - '0'.toNat)
  else if 'a' ≤ c && c ≤ 'z' then some (c.toNat - 'a'.toNat + 10)
  else if 'A' ≤ c && c ≤ 'Z' then some (c.toNat - 'A'.toNat + 10)
  else none

/-- A digit of the given radix, in either case. -/
def isRadixDigit (radix : Nat) (c : Char) : Bool :=
  match digitValue? c with
  | some value => value < radix
  | none => false

/-- An ASCII hexadecimal digit, in either case. -/
def isHexDigit (c : Char) : Bool := isRadixDigit 16 c

end CharClass
end LayoutLexer

import LayoutLexer.CharClass
import LayoutLexer.Recognizer

/-! # Rules

The recognizers of the lexemes that are not fixed words: trivia, identifiers, numbers and quoted
literals.  Each one takes a piece off the front of a text and leaves the rest, so every rule comes
with the lemma that the two make up the text.
-/
namespace LayoutLexer

/-! ## White space, line breaks and comments

Trivia carry no meaning of their own but are lexemes like any other, so that the lexemes of a
text concatenate to it.  A run of white space never crosses a line break, a line break is one
of CR LF, CR and LF, and a comment runs from a number sign to the end of its line.
-/

namespace Trivia

open CharClass Recognizer

/-- A run of spaces and tabs. -/
def whiteSpace : Recognizer := run1 isHorizontalSpace

/-- One line break; CR LF counts once. -/
def lineFeed : Recognizer :=
  (exactly ['\r', '\n']).orElse ((exactly ['\r']).orElse (exactly ['\n']))

/-- A number sign and everything after it on its line. -/
def comment : Recognizer := (char (· == '#')).andThen (run fun c => !isLineBreak c)

theorem splits_whiteSpace : whiteSpace.Splits := splits_run1 _

theorem splits_lineFeed : lineFeed.Splits :=
  (splits_exactly _).orElse ((splits_exactly _).orElse (splits_exactly _))

theorem splits_comment : comment.Splits := (splits_char _).andThen (splits_run _)

end Trivia

/-! ## Identifiers

An identifier begins with a letter, whose case tells upper from lower identifiers, and goes on
with letters, digits and marks.  A single underscore may join two nonempty runs; a doubled or
trailing underscore belongs to no identifier.  A dummy identifier begins with an underscore
and may be the underscore alone.  The word run is what error recovery takes as one malformed
identifier.
-/

namespace Identifier

open CharClass Recognizer

/-- An underscore and the nonempty run after it. -/
def joinedRun : Recognizer := (char (· == '_')).andThen (run1 isIdentifierContinue)

theorem splits_joinedRun : joinedRun.Splits := (splits_char _).andThen (splits_run1 _)

/-- Any number of joined runs. -/
def joinedRuns : Recognizer := joinedRun.many splits_joinedRun

/-- An identifier that begins with a letter of the given class. -/
def beginningWith (isStart : Char → Bool) : Recognizer :=
  (char isStart).andThen ((run isIdentifierContinue).andThen joinedRuns)

/-- An identifier that begins with a letter that is not uppercase. -/
def lower : Recognizer := beginningWith isLowerStart

/-- An identifier that begins with an uppercase letter. -/
def upper : Recognizer := beginningWith isUpperStart

/-- One or more runs, each after an underscore, or a bare underscore. -/
def dummy : Recognizer := (joinedRun.andThen joinedRuns).orElse (exactly ['_'])

/-- The word at the front of a text and what follows it; the word may be empty. -/
def wordRun (s : Text) : Text × Text := (s.takeWhile isWordChar, s.dropWhile isWordChar)

theorem splits_joinedRuns : joinedRuns.Splits := splits_joinedRun.many

theorem splits_beginningWith (isStart : Char → Bool) : (beginningWith isStart).Splits :=
  (splits_char _).andThen ((splits_run _).andThen splits_joinedRuns)

theorem splits_lower : lower.Splits := splits_beginningWith _

theorem splits_upper : upper.Splits := splits_beginningWith _

theorem splits_dummy : dummy.Splits :=
  (splits_joinedRun.andThen splits_joinedRuns).orElse (splits_exactly _)

theorem wordRun_append (s : Text) : (wordRun s).1 ++ (wordRun s).2 = s :=
  List.takeWhile_append_dropWhile

end Identifier

/-! ## Numbers

An integer is written in a radix from one to thirty-two: the radix in decimal, the letter `r`
and digits of that radix, or decimal digits alone.  Single underscores may separate groups of
digits.  A decimal integer, with or without its radix, may end in a magnitude.  A float has a
point between two groups of decimal digits and may end in an exponent, a magnitude or a
fractional magnitude; digits followed by a fractional magnitude are a float without a point.
-/

namespace Number

open CharClass Recognizer

/-- The least radix of an integer. -/
def minRadix : Nat := 1

/-- The greatest radix of an integer. -/
def maxRadix : Nat := 32

/-- A letter that scales a number up: kilo, mega, giga, tera, peta. -/
def isMagnitude (c : Char) : Bool := ['k', 'M', 'G', 'T', 'P'].contains c

/-- A letter that scales a number down: milli, micro, nano, pico, femto, atto. -/
def isFractionalMagnitude (c : Char) : Bool := ['m', 'u', 'n', 'p', 'f', 'a'].contains c

/-- An underscore and the nonempty run of digits after it. -/
def joinedDigits (isDigit : Char → Bool) : Recognizer :=
  (char (· == '_')).andThen (run1 isDigit)

theorem splits_joinedDigits (isDigit : Char → Bool) : (joinedDigits isDigit).Splits :=
  (splits_char _).andThen (splits_run1 _)

/-- Runs of digits of a class, joined by single underscores. -/
def digitGroups (isDigit : Char → Bool) : Recognizer :=
  (run1 isDigit).andThen ((joinedDigits isDigit).many (splits_joinedDigits isDigit))

/-- Groups of decimal digits. -/
def decimalGroups : Recognizer := digitGroups isDecimalDigit

/-- The number that a run of decimal digits denotes. -/
def decimalValue (digits : Text) : Nat :=
  digits.foldl (fun value c => value * 10 + (c.toNat - '0'.toNat)) 0

/-- The digits after a radix, with a magnitude if the radix is ten. -/
def digitsOfRadix (radix : Nat) : Recognizer :=
  if minRadix ≤ radix ∧ radix ≤ maxRadix then
    (digitGroups (isRadixDigit radix)).andThen
      (if radix = 10 then (char isMagnitude).optional else exactly [])
  else fail

/-- An integer that names its radix. -/
def radixInteger : Recognizer :=
  (run1 isDecimalDigit).bind fun radix =>
    (char (· == 'r')).andThen (digitsOfRadix (decimalValue radix))

/-- A decimal integer that does not name its radix. -/
def decimalInteger : Recognizer := decimalGroups.andThen (char isMagnitude).optional

/-- An integer. -/
def integer : Recognizer := radixInteger.orElse decimalInteger

/-- A decimal exponent: the letter, an optional sign and digits. -/
def exponent : Recognizer :=
  (char fun c => c == 'E' || c == 'e').andThen
    ((char fun c => c == '+' || c == '-').optional.andThen (run1 isDecimalDigit))

/-- What may follow the digits of a float with a point. -/
def floatEnding : Recognizer :=
  exponent.orElse ((char isMagnitude).orElse (char isFractionalMagnitude))

/-- A float with a point. -/
def pointFloat : Recognizer :=
  decimalGroups.andThen
    ((char (· == '.')).andThen (decimalGroups.andThen floatEnding.optional))

/-- A float that is one by its fractional magnitude. -/
def fractionalFloat : Recognizer := decimalGroups.andThen (char isFractionalMagnitude)

/-- A float. -/
def float : Recognizer := pointFloat.orElse fractionalFloat

theorem splits_digitGroups (isDigit : Char → Bool) : (digitGroups isDigit).Splits :=
  (splits_run1 _).andThen (splits_joinedDigits _).many

theorem splits_decimalGroups : decimalGroups.Splits := splits_digitGroups _

theorem splits_digitsOfRadix (radix : Nat) : (digitsOfRadix radix).Splits := by
  unfold digitsOfRadix
  split
  · refine (splits_digitGroups _).andThen ?_
    split
    · exact (splits_char _).optional
    · exact splits_exactly _
  · exact splits_fail

theorem splits_integer : integer.Splits :=
  ((splits_run1 _).bind fun _ => (splits_char _).andThen (splits_digitsOfRadix _)).orElse
    (splits_decimalGroups.andThen (splits_char _).optional)

theorem splits_exponent : exponent.Splits :=
  (splits_char _).andThen ((splits_char _).optional.andThen (splits_run1 _))

theorem splits_floatEnding : floatEnding.Splits :=
  splits_exponent.orElse ((splits_char _).orElse (splits_char _))

theorem splits_float : float.Splits :=
  (splits_decimalGroups.andThen
    ((splits_char _).andThen (splits_decimalGroups.andThen splits_floatEnding.optional))).orElse
      (splits_decimalGroups.andThen (splits_char _))

end Number

/-! ## Quoted literals

A character literal holds one character or escape between single quotes, a string literal any
number of them between double quotes on one line.  A verbatim string stands between triple
double quotes, knows no escapes and may span lines.  An escape is a backslash with one of
eleven fixed characters, or with a braced code: a number sign and two, four or six hexadecimal
digits, or the name of a character.
-/

namespace Literal

open CharClass Recognizer

/-- A character that makes an escape directly after a backslash. -/
def isSimpleEscape (c : Char) : Bool :=
  ['b', 't', 'n', 'f', 'r', 'e', '\\', '"', '\'', '\x60', '0'].contains c

/-- A number sign, a fixed number of hexadecimal digits and the closing brace. -/
def hexCode (width : Nat) : Recognizer :=
  (char (· == '#')).andThen ((times isHexDigit width).andThen (char (· == '}')))

/-- What may stand between two parts of a character's name. -/
def nameSeparator : Recognizer :=
  (exactly [' ', '-']).orElse
    ((exactly ['-']).orElse ((exactly ['_']).orElse (exactly [' '])))

/-- A letter or digit run of a character's name. -/
def namePart : Recognizer := run1 isAlphanumeric

/-- A run of a character's name, with a separator before it or without one. -/
def nameContinuation : Recognizer := namePart.orElse (nameSeparator.andThen namePart)

theorem splits_nameSeparator : nameSeparator.Splits :=
  (splits_exactly _).orElse
    ((splits_exactly _).orElse ((splits_exactly _).orElse (splits_exactly _)))

theorem splits_nameContinuation : nameContinuation.Splits :=
  (splits_run1 _).orElse (splits_nameSeparator.andThen (splits_run1 _))

/-- The name of a character: a letter, then runs of letters and digits joined by separators. -/
def characterName : Recognizer :=
  (char isAlphabetic).andThen (nameContinuation.many splits_nameContinuation)

/-- A braced code, from the opening brace to the closing one. -/
def characterCode : Recognizer :=
  (char (· == '{')).andThen
    ((hexCode 6).orElse
      ((hexCode 4).orElse ((hexCode 2).orElse (characterName.andThen (char (· == '}'))))))

/-- What makes an escape after its backslash. -/
def escapeTail : Recognizer := (char isSimpleEscape).orElse characterCode

/-- An escape. -/
def escape : Recognizer := (char (· == '\\')).andThen escapeTail

theorem splits_hexCode (width : Nat) : (hexCode width).Splits :=
  (splits_char _).andThen ((splits_times _ _).andThen (splits_char _))

theorem splits_characterName : characterName.Splits :=
  (splits_char _).andThen splits_nameContinuation.many

theorem splits_characterCode : characterCode.Splits :=
  (splits_char _).andThen
    ((splits_hexCode 6).orElse
      ((splits_hexCode 4).orElse
        ((splits_hexCode 2).orElse (splits_characterName.andThen (splits_char _)))))

theorem splits_escapeTail : escapeTail.Splits := (splits_char _).orElse splits_characterCode

theorem splits_escape : escape.Splits := (splits_char _).andThen splits_escapeTail

/-- A character that stands for itself in a literal with the given quote. -/
def isPlain (quote c : Char) : Bool := !(c == quote || c == '\\' || isLineBreak c)

/-- A character literal. -/
def character : Recognizer :=
  (char (· == '\'')).andThen
    ((escape.orElse (char (isPlain '\''))).andThen (char (· == '\'')))

/-- An escape, or a run of plain characters of a string literal. -/
def stringPart : Recognizer := escape.orElse (run1 (isPlain '"'))

theorem splits_stringPart : stringPart.Splits := splits_escape.orElse (splits_run1 _)

/-- A string literal. -/
def string : Recognizer :=
  (char (· == '"')).andThen
    ((stringPart.many splits_stringPart).andThen (char (· == '"')))

/-- Three double quotes. -/
def tripleQuote : Text := ['"', '"', '"']

/-- Everything up to the next triple quote, and that quote. -/
def throughTripleQuote : Recognizer
  | [] => none
  | c :: rest =>
    match Text.after? tripleQuote (c :: rest) with
    | some after => some (tripleQuote, after)
    | none => (throughTripleQuote rest).map fun (m, rest) => (c :: m, rest)

/-- A verbatim string. -/
def verbatim : Recognizer := (exactly tripleQuote).andThen throughTripleQuote

theorem splits_character : character.Splits :=
  (splits_char _).andThen ((splits_escape.orElse (splits_char _)).andThen (splits_char _))

theorem splits_string : string.Splits :=
  (splits_char _).andThen (splits_stringPart.many.andThen (splits_char _))

theorem splits_throughTripleQuote : throughTripleQuote.Splits := by
  intro s m rest h
  induction s generalizing m rest with
  | nil => simp [throughTripleQuote] at h
  | cons c s ih =>
    rw [throughTripleQuote] at h
    split at h
    · next after hafter =>
      cases h
      exact (Text.after?_eq_some_iff.1 hafter).symm
    · simp only [Option.map_eq_some_iff, Prod.mk.injEq, Prod.exists] at h
      obtain ⟨m', rest', h', rfl, rfl⟩ := h
      simp [ih h']

theorem splits_verbatim : verbatim.Splits :=
  (splits_exactly _).andThen splits_throughTripleQuote

end Literal

end LayoutLexer

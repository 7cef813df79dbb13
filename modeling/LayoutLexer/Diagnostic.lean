import LayoutLexer.Text.Quoted
import LayoutLexer.Token

/-! # Faults and diagnostics

A fault is what was wrong at a place of the text.  None of them stops the scan: each goes with
an error token.  A diagnostic is a fault with its span and the label of the text it was found
in, and its text is one line.
-/
namespace LayoutLexer

/-- A form of delimited literal. -/
inductive LiteralKind where
  | character | string | verbatim
  deriving DecidableEq, Repr

namespace LiteralKind

/-- The name of a literal form in messages. -/
def text : LiteralKind → Text
  | .character => "character".toList
  | .string => "string".toList
  | .verbatim => "verbatim string".toList

/-- The rule that accepts well-formed literals of this form. -/
def rule : LiteralKind → Rule
  | .character => .characterLiteral
  | .string => .stringLiteral
  | .verbatim => .verbatimStringLiteral

end LiteralKind

/-- What was wrong at a place of the text. -/
inductive Fault where
  | malformedIdentifier (lexeme : Text)
  | invalidCharacter (character : Char)
  | malformedNumber (lexeme : Text)
  | unterminatedLiteral (literal : LiteralKind)
  | invalidEscape (sequence : Text)
  | malformedCharacter (lexeme : Text)
  | inconsistentIndentation (width enclosing : Nat)
  deriving DecidableEq, Repr

namespace Fault

/-- The message of a fault. -/
def message : Fault → Text
  | .malformedIdentifier lexeme => "malformed identifier ".toList ++ Text.backquoted lexeme
  | .invalidCharacter c => "invalid character ".toList ++ Text.quotedSingle c
  | .malformedNumber lexeme => "malformed number literal ".toList ++ Text.backquoted lexeme
  | .unterminatedLiteral literal =>
    "unterminated ".toList ++ literal.text ++ " literal".toList
  | .invalidEscape sequence => "invalid escape sequence ".toList ++ Text.backquoted sequence
  | .malformedCharacter lexeme =>
    "character literal ".toList ++ Text.backquoted lexeme ++
      " must hold exactly one character".toList
  | .inconsistentIndentation width enclosing =>
    "inconsistent indentation: width ".toList ++ Text.decimal width ++
      " does not match an enclosing block (nearest is ".toList ++ Text.decimal enclosing ++ [')']

end Fault

/-- A fault with its place. -/
structure Diagnostic where
  /-- The label of the text, usually a file name. -/
  origin : Option Text
  fault : Fault
  span : Span
  deriving DecidableEq, Repr

namespace Diagnostic

/-- The line that reports a diagnostic: label, place and message. -/
def text (d : Diagnostic) : Text :=
  (match d.origin with
    | some origin => origin ++ [':']
    | none => []) ++ d.span.text ++ ": ".toList ++ d.fault.message

end Diagnostic
end LayoutLexer

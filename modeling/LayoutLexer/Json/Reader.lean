import LayoutLexer.Decimal.Shortest
import LayoutLexer.Json.Document
import LayoutLexer.Text.Quoted

/-! # Readers

A reader takes a value off the front of a document and leaves the rest.  Failures come up in
reading order, so the first one met is the one reported.  A value that is wanted is read in
full: numbers must have a value and strings must be well formed.  A value that is passed over
only has to follow the grammar.
-/
namespace LayoutLexer
namespace Json

/-! ## Why a document cannot be read

A document fails in one of three ways: it ends too early, it is malformed at some place, or a
value in it is not what is wanted there.  Only the last has a message of its own, which names
what was found and what was expected.  All else that a message says, such as the place of the
failure, is in the words of the parser and not fixed here.
-/

/-- What stands where something else is wanted. -/
inductive Found where
  | null
  | boolean (b : Bool)
  | integer (n : Int)
  | float (negative : Bool) (magnitude : Decimal.Binary64)
  | string (t : Text)
  | sequence
  | map
  deriving DecidableEq, Repr

/-- Why a value is not what is wanted. -/
inductive Mismatch where
  | wrongType (found : Found) (expected : Text)
  | negative (n : Int) (expected : Text)
  | duplicateField (name : Text)
  deriving DecidableEq, Repr

/-- Why a document cannot be read. -/
inductive ReadError where
  | endOfInput
  | malformed
  | mismatch (m : Mismatch)
  deriving DecidableEq, Repr

/-- The decimal digits of an integer, after a minus sign if it is negative. -/
def integerText (n : Int) : Text :=
  if n < 0 then '-' :: Text.decimal n.natAbs else Text.decimal n.natAbs

namespace Found

/-- How a value is named in a message. -/
def text : Found → Text
  | .null => "null".toList
  | .boolean b => "boolean ".toList ++ Text.backquoted (if b then "true".toList else "false".toList)
  | .integer n => "integer ".toList ++ Text.backquoted (integerText n)
  | .float negative b =>
    "floating point ".toList ++ Text.backquoted ((if negative then ['-'] else []) ++ b.text)
  | .string t => "string ".toList ++ t.quoted
  | .sequence => "sequence".toList
  | .map => "map".toList

end Found

namespace Mismatch

/-- The message of a mismatch. -/
def message : Mismatch → Text
  | .wrongType found expected =>
    "invalid type: ".toList ++ found.text ++ ", expected ".toList ++ expected
  | .negative n expected =>
    "invalid value: ".toList ++ (Found.integer n).text ++ ", expected ".toList ++ expected
  | .duplicateField name => "duplicate field ".toList ++ Text.backquoted name

end Mismatch

/-- What a parser adds in its own words to the failure of a document: what is wrong with one that
ends too early or is malformed, and the place of any failure. -/
abbrev Wording := Document → ReadError → Text

/-- The text of a failure, with what the parser adds to it. -/
def ReadError.text (added : Text) : ReadError → Text
  | .endOfInput | .malformed => added
  | .mismatch m => m.message ++ added

/-! ## Readers -/

/-- Reads a value off the front of a document. -/
abbrev Reader (α : Type) := Document → Except ReadError (α × Document)

/-- A reader whose value is changed by a function. -/
def Reader.map {α β : Type} (f : α → β) (r : Reader α) : Reader β := fun d =>
  match r d with
  | .error e => .error e
  | .ok (a, rest) => .ok (f a, rest)

theorem Reader.map_eq_ok_iff {α β : Type} {f : α → β} {r : Reader α} {d rest : Document} {b : β} :
    Reader.map f r d = .ok (b, rest) ↔ ∃ a, r d = .ok (a, rest) ∧ f a = b := by
  unfold Reader.map
  split
  · next h => simp [h]
  · next a rest' h =>
    rw [h]
    constructor
    · intro heq; cases heq; exact ⟨a, rfl, rfl⟩
    · rintro ⟨_, heq, rfl⟩; cases heq; rfl

/-! ## Blanks and words -/

/-- A space, a tab, a carriage return or a line feed. -/
def isBlank : Option Char → Bool
  | some c => c == ' ' || c == '\t' || c == '\r' || c == '\n'
  | none => false

/-- The document without leading blanks. -/
def skipBlanks (d : Document) : Document := d.dropWhile isBlank

/-- The failure of a document that ends, or goes on, where it must not. -/
def unexpected : Document → ReadError
  | [] => .endOfInput
  | _ :: _ => .malformed

/-- Passes over the given letters. -/
def expect : Text → Document → Except ReadError Document
  | [], d => .ok d
  | _ :: _, [] => .error .endOfInput
  | c :: word, u :: d => if u = some c then expect word d else .error .malformed

theorem length_skipBlanks_le (d : Document) : (skipBlanks d).length ≤ d.length :=
  (List.dropWhile_sublist isBlank).length_le

theorem length_expect_le {word : Text} {d rest : Document} (h : expect word d = .ok rest) :
    rest.length ≤ d.length := by
  induction word generalizing d with
  | nil => cases h; exact Nat.le_refl _
  | cons c word ih =>
    cases d with
    | nil => cases h
    | cons u d =>
      rw [expect] at h
      split at h
      · exact Nat.le_succ_of_le (ih h)
      · cases h

end Json

end LayoutLexer

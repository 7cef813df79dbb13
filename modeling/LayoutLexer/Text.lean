/-! # Texts

A text is the list of its characters.  Columns count characters; lengths and offsets count
the bytes of the UTF-8 form, and both counts are additive over concatenation.
-/
namespace LayoutLexer

/-- A text as the list of its characters. -/
abbrev Text := List Char

namespace Text

/-- The number of bytes in the UTF-8 form of a text. -/
def byteLength : Text → Nat
  | [] => 0
  | c :: rest => c.utf8Size + byteLength rest

@[simp] theorem byteLength_nil : byteLength [] = 0 := rfl

@[simp] theorem byteLength_cons (c : Char) (t : Text) :
    byteLength (c :: t) = c.utf8Size + byteLength t := rfl

@[simp] theorem byteLength_append (s t : Text) :
    byteLength (s ++ t) = byteLength s + byteLength t := by
  induction s with
  | nil => simp
  | cons c s ih => simp [ih, Nat.add_assoc]

/-- A text has no bytes only if it has no characters. -/
theorem byteLength_eq_zero_iff {t : Text} : byteLength t = 0 ↔ t = [] := by
  cases t with
  | nil => simp
  | cons c t => simp [Nat.ne_of_gt c.utf8Size_pos]

/-- A text has at least as many bytes as characters. -/
theorem length_le_byteLength (t : Text) : t.length ≤ byteLength t := by
  induction t with
  | nil => simp
  | cons c t ih => have := c.utf8Size_pos; simp; omega

/-- The decimal digits of a number. -/
def decimal (n : Nat) : Text := Nat.toDigits 10 n

/-- A line without the carriage return that belongs to its line break. -/
def withoutReturn (line : Text) : Text :=
  if line.getLast? = some '\r' then line.dropLast else line

/-- The lines of a text that ends with its last line.  A line breaks at a line feed, or at a
carriage return with a line feed. -/
def lines (t : Text) : List Text := (t.splitOn '\n').map withoutReturn

/-- What remains of a text after a given beginning, if it begins so. -/
def after? : Text → Text → Option Text
  | [], rest => some rest
  | _ :: _, [] => none
  | c :: beginning, d :: rest => if c = d then after? beginning rest else none

theorem after?_eq_some_iff {beginning s rest : Text} :
    after? beginning s = some rest ↔ s = beginning ++ rest := by
  induction beginning generalizing s with
  | nil => simp [after?, eq_comm]
  | cons c beginning ih =>
    cases s with
    | nil => simp [after?]
    | cons d s =>
      by_cases h : c = d
      · subst h; simp [after?, ih]
      · simp [after?, h, Ne.symm h]

end Text
end LayoutLexer

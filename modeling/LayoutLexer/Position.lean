import LayoutLexer.CharClass
import LayoutLexer.Overflow

/-! # Positions and spans

A position counts bytes from zero and lines and columns from one; a column counts characters.
Moving over a text reads it character by character: CR LF is one line break, as are a lone CR
and a lone LF.  A span is where a piece of text begins and the offset at which it ends.
-/
namespace LayoutLexer

/-- How far a text reaches along its line. -/
structure Distance where
  bytes : Nat
  columns : Nat
  deriving DecidableEq, Repr

namespace Distance

/-- The distance of the place where one is. -/
def zero : Distance := ⟨0, 0⟩

/-- The distance after a text that follows. -/
def past (d : Distance) (t : Text) : Distance :=
  ⟨d.bytes + t.byteLength, d.columns + t.length⟩

@[simp] theorem past_nil (d : Distance) : d.past [] = d := rfl

theorem past_append (d : Distance) (s t : Text) : d.past (s ++ t) = (d.past s).past t := by
  simp [past, Nat.add_assoc]

end Distance

/-- A place in a text. -/
structure Position where
  /-- The number of bytes before the place. -/
  offset : Nat
  /-- The line, counted from one. -/
  line : Nat
  /-- The column, counted in characters from one. -/
  column : Nat
  deriving DecidableEq, Repr

namespace Position

/-- The beginning of a text. -/
def start : Position := ⟨0, 1, 1⟩

/-- The place after one character, given the character that follows it. -/
def step (p : Position) (c : Char) (next : Option Char) : Position :=
  if c = '\r' ∧ next = some '\n' then ⟨p.offset + c.utf8Size, p.line, p.column⟩
  else if CharClass.isLineBreak c then ⟨p.offset + c.utf8Size, p.line + 1, 1⟩
  else ⟨p.offset + c.utf8Size, p.line, p.column + 1⟩

/-- The place after a text. -/
def advance (p : Position) : Text → Position
  | [] => p
  | c :: rest => advance (p.step c rest.head?) rest

/-- The place at a distance along the line. -/
def along (p : Position) (d : Distance) : Position :=
  ⟨p.offset + d.bytes, p.line, p.column + d.columns⟩

@[simp] theorem step_offset (p : Position) (c : Char) (next : Option Char) :
    (p.step c next).offset = p.offset + c.utf8Size := by
  unfold step
  split
  · rfl
  · split <;> rfl

@[simp] theorem advance_nil (p : Position) : p.advance [] = p := rfl

theorem advance_cons (p : Position) (c : Char) (t : Text) :
    p.advance (c :: t) = (p.step c t.head?).advance t := rfl

/-- Moving over a text adds its bytes to the offset. -/
@[simp] theorem advance_offset (p : Position) (t : Text) :
    (p.advance t).offset = p.offset + t.byteLength := by
  induction t generalizing p with
  | nil => rfl
  | cons c t ih => simp [advance_cons, ih, Nat.add_assoc]

/-- On a text without line breaks moving along the line is the same as advancing. -/
theorem advance_eq_along (p : Position) {t : Text} (h : ∀ c ∈ t, CharClass.isLineBreak c = false) :
    p.advance t = p.along (.past .zero t) := by
  induction t generalizing p with
  | nil => rfl
  | cons c t ih =>
    have hc := h c List.mem_cons_self
    have hr : c ≠ '\r' := by rintro rfl; simp [CharClass.isLineBreak] at hc
    rw [advance_cons, ih _ fun d hd => h d (List.mem_cons_of_mem _ hd)]
    simp [step, hc, hr, along, Distance.past, Distance.zero]
    omega

end Position

/-- Where a piece of text lies. -/
structure Span where
  /-- The place of its first character. -/
  start : Position
  /-- The number of bytes before its end. -/
  endOffset : Nat
  deriving DecidableEq, Repr

namespace Span

/-- The span of a text that begins at a place. -/
def ofText (p : Position) (t : Text) : Span := ⟨p, p.offset + t.byteLength⟩

/-- The number of bytes of a span; a span that ends before it starts has none. -/
def length (s : Span) : Except Overflow Nat :=
  if s.start.offset ≤ s.endOffset then .ok (s.endOffset - s.start.offset)
  else .error .subtraction

/-- Whether a span covers no bytes. -/
def isEmpty (s : Span) : Bool := s.start.offset == s.endOffset

/-- Line and column of the start, separated by a colon. -/
def text (s : Span) : Text :=
  Text.decimal s.start.line ++ ':' :: Text.decimal s.start.column

theorem length_ofText (p : Position) (t : Text) : (ofText p t).length = .ok t.byteLength := by
  simp [length, ofText]

theorem isEmpty_ofText (p : Position) (t : Text) : (ofText p t).isEmpty = t.isEmpty := by
  cases t with
  | nil => simp [isEmpty, ofText]
  | cons c t =>
    have := c.utf8Size_pos
    simp [isEmpty, ofText]; omega

end Span
end LayoutLexer

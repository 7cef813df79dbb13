import LayoutLexer.Position
import LayoutLexer.Rule

/-! # Broken literals

A character or string literal that its rule does not accept still ends somewhere: at its
closing quote, or before the end of the line.  The walk over it cuts what lies between into
pieces, each a plain character, an escape, or an invalid escape, and says whether the closing
quote was found.
-/
namespace LayoutLexer
namespace BrokenLiteral

open CharClass

/-- A piece of the inside of a literal. -/
inductive Piece where
  | plain (c : Char)
  | escape (sequence : Text)
  | invalidEscape (sequence : Text)
  deriving DecidableEq, Repr

/-- The characters of a piece. -/
def Piece.text : Piece → Text
  | .plain c => [c]
  | .escape t => t
  | .invalidEscape t => t

/-- What a walk over the inside of a literal found. -/
structure Walk where
  /-- The pieces before the closing quote or the end of the line. -/
  pieces : List Piece
  /-- Whether the closing quote was found. -/
  closed : Bool
  /-- What follows the pieces and the closing quote. -/
  rest : Text
  deriving DecidableEq, Repr

/-- A character that may stand inside the braces of an invalid escape. -/
def isInsideBraces (quote c : Char) : Bool := !(c == '}' || c == quote || isLineBreak c)

/-- How far an invalid escape goes after its backslash: nowhere at the end of a line, through
the closing brace of a code if there is one before the quote and the end of the line, and over
one character otherwise. -/
def invalidTail (quote : Char) : Text → Text × Text
  | [] => ([], [])
  | c :: rest =>
    if isLineBreak c then ([], c :: rest)
    else if c = '{' then
      match rest.dropWhile (isInsideBraces quote) with
      | '}' :: after => (c :: (rest.takeWhile (isInsideBraces quote) ++ ['}']), after)
      | _ => ([c], rest)
    else ([c], rest)

/-- The piece that begins with a character, and what follows it. -/
def firstPiece (quote c : Char) (rest : Text) : Piece × Text :=
  if c = '\\' then
    match Literal.escapeTail rest with
    | some (m, after) => (.escape (c :: m), after)
    | none =>
      let (m, after) := invalidTail quote rest
      (.invalidEscape (c :: m), after)
  else (.plain c, rest)

theorem invalidTail_append (quote : Char) (s : Text) :
    (invalidTail quote s).1 ++ (invalidTail quote s).2 = s := by
  unfold invalidTail
  split
  · rfl
  · next c rest =>
    split
    · rfl
    · split
      · split
        · next after h =>
          simp only [List.cons_append, List.append_assoc, List.nil_append, List.cons.injEq,
            true_and]
          rw [← h, List.takeWhile_append_dropWhile]
        · rfl
      · rfl

/-- A piece and what follows it make up the text. -/
theorem firstPiece_append (quote c : Char) (rest : Text) :
    (firstPiece quote c rest).1.text ++ (firstPiece quote c rest).2 = c :: rest := by
  unfold firstPiece
  split
  · split
    · next m after h => simp [Piece.text, Literal.splits_escapeTail h]
    · simp [Piece.text, invalidTail_append]
  · rfl

theorem firstPiece_ne_nil (quote c : Char) (rest : Text) :
    (firstPiece quote c rest).1.text ≠ [] := by
  unfold firstPiece
  split
  · split <;> simp [Piece.text]
  · simp [Piece.text]

theorem firstPiece_length_le (quote c : Char) (rest : Text) :
    (firstPiece quote c rest).2.length ≤ rest.length := by
  have h := congrArg List.length (firstPiece_append quote c rest)
  have := List.length_pos_iff.2 (firstPiece_ne_nil quote c rest)
  simp only [List.length_append, List.length_cons] at h
  omega

/-- Cuts the inside of a literal into pieces, up to the closing quote or the end of the line. -/
def walk (quote : Char) : Text → Walk
  | [] => ⟨[], false, []⟩
  | c :: rest =>
    if isLineBreak c then ⟨[], false, c :: rest⟩
    else if c = quote then ⟨[], true, rest⟩
    else
      let tail := walk quote (firstPiece quote c rest).2
      { tail with pieces := (firstPiece quote c rest).1 :: tail.pieces }
termination_by s => s.length
decreasing_by
  have := firstPiece_length_le quote c rest
  simp; omega

namespace Walk

/-- The characters of the pieces. -/
def inside (w : Walk) : Text := w.pieces.flatMap Piece.text

/-- The closing quote, if it was found. -/
def closing (quote : Char) (w : Walk) : Text := if w.closed then [quote] else []

/-- The literal from its opening quote to where the walk ended. -/
def lexeme (quote : Char) (w : Walk) : Text := quote :: (w.inside ++ w.closing quote)

/-- The invalid escapes among pieces, each with its distance, after the given distance. -/
def invalidFrom (d : Distance) : List Piece → List (Distance × Text)
  | [] => []
  | .invalidEscape t :: pieces => (d, t) :: invalidFrom (d.past t) pieces
  | p :: pieces => invalidFrom (d.past p.text) pieces

/-- The invalid escapes of a literal, each with its distance from the opening quote. -/
def invalidEscapes (quote : Char) (w : Walk) : List (Distance × Text) :=
  invalidFrom (.past .zero [quote]) w.pieces

/-- An invalid escape is one of the pieces, and its distance is past the pieces before it. -/
theorem split_of_mem_invalidFrom {d : Distance} {pieces : List Piece} {e : Distance × Text}
    (h : e ∈ invalidFrom d pieces) :
    ∃ before after, pieces = before ++ .invalidEscape e.2 :: after ∧
      e.1 = d.past (before.flatMap Piece.text) := by
  induction pieces generalizing d with
  | nil => cases h
  | cons p pieces ih =>
    have hlater (h : e ∈ invalidFrom (d.past p.text) pieces) : ∃ before after,
        p :: pieces = before ++ .invalidEscape e.2 :: after ∧
          e.1 = d.past (before.flatMap Piece.text) := by
      obtain ⟨before, after, rfl, hd⟩ := ih h
      exact ⟨p :: before, after, rfl, by rw [hd, List.flatMap_cons, Distance.past_append]⟩
    cases p with
    | plain c => exact hlater h
    | escape t => exact hlater h
    | invalidEscape t =>
      rcases List.mem_cons.1 h with rfl | h
      · exact ⟨[], pieces, rfl, rfl⟩
      · exact hlater h

end Walk

/-- The pieces, the closing quote and the rest make up the text. -/
theorem walk_append (quote : Char) (s : Text) :
    (walk quote s).inside ++ (walk quote s).closing quote ++ (walk quote s).rest = s := by
  fun_induction walk quote s with
  | case1 => rfl
  | case2 c rest h => rfl
  | case3 rest _ => rfl
  | case4 c rest _ _ tail ih =>
    rw [← firstPiece_append quote c rest, ← ih]
    simp [Walk.inside, Walk.closing, List.append_assoc, tail]

end BrokenLiteral
end LayoutLexer

import LayoutLexer.Proofs.Slice
import LayoutLexer.Proofs.Step
import Mathlib.Algebra.Group.Nat.Defs

/-! # Scanning by offsets

The scanner keeps the part of the text that it has not scanned yet, and so it never takes a piece
of the text that is not there.  A scan in memory keeps an offset instead.  What it looks at are
slices of the text between two offsets, every length, offset, line, column and count is a number
of sixty-four bits, and its loops end when they have seen enough.  Each slice and each sum and
difference can fail, and then the scan is aborted.

This module defines the scan by offsets, with all operations that can abort it.  That it is the
same scan as the scanner's, and so is aborted only where the scanner fails, is the subject of
`Cursor.listing_eq`.
-/
namespace LayoutLexer

open CharClass

/-- Why a scan by offsets is aborted. -/
inductive Abort where
  /-- The result of an operation is no number of sixty-four bits. -/
  | overflow (o : Overflow)
  /-- A slice reaches behind the text, ends before it starts or cuts a character. -/
  | slice
  /-- A loop goes on for longer than the text allows. -/
  | endless
  deriving DecidableEq, Repr

namespace Guarded

/-- A result of checked arithmetic as a step of a scan by offsets. -/
def checked {α : Type} : Except Overflow α → Except Abort α
  | .ok a => .ok a
  | .error o => .error (.overflow o)

/-- The sum of two numbers. -/
def add (m n : Nat) : Except Abort Nat := checked (Checked.add m n)

/-- The difference of two numbers. -/
def sub (m n : Nat) : Except Abort Nat :=
  if n ≤ m then .ok (m - n) else .error (.overflow .subtraction)

/-- The piece of a text between two offsets. -/
def slice (t : Text) (start finish : Nat) : Except Abort Text :=
  match t.slice? start finish with
  | some piece => .ok piece
  | none => .error .slice

@[simp] theorem ok_bind {α β : Type} (a : α) (f : α → Except Abort β) :
    (Except.ok a >>= f) = f a := rfl

@[simp] theorem pure_eq {α : Type} (a : α) : (pure a : Except Abort α) = .ok a := rfl

theorem add_of_lt {m n : Nat} (h : m + n < 2 ^ 64) : add m n = .ok (m + n) := by
  rw [add, Checked.add_eq_ok_iff.2 ⟨h, rfl⟩]
  rfl

theorem sub_of_add {m n : Nat} : sub (m + n) n = .ok m := by
  rw [sub, if_pos (Nat.le_add_left n m), Nat.add_sub_cancel]

theorem slice_prefix {piece after : Text} :
    slice (piece ++ after) 0 piece.byteLength = .ok piece := by
  have : (piece ++ after).slice? 0 piece.byteLength = some piece :=
    Text.slice?_eq_some_iff.2 ⟨[], after, rfl, rfl, Nat.zero_add _⟩
  rw [slice, this]

theorem slice_suffix {before after : Text} :
    slice (before ++ after) before.byteLength (before ++ after).byteLength = .ok after := by
  rw [slice, Text.slice?_append_left]

theorem slice_of_append {t before m after : Text} {start finish : Nat}
    (ht : t = before ++ (m ++ after)) (hstart : before.byteLength = start)
    (hfinish : start + m.byteLength = finish) : slice t start finish = .ok m := by
  rw [slice, Text.slice?_eq_some_iff.2 ⟨before, after, ht, hstart, hfinish⟩]

end Guarded

open Guarded

/-! ## Matches by their bytes -/

/-- The number of bytes that a pattern accepts.  Where it accepts more than one text, this is
what the rest after its rule is shorter than the input. -/
def Pattern.matchBytes? (p : Pattern) (input : Text) : Except Abort (Option Nat) :=
  match p.text? with
  | some t => pure (if t.isPrefixOf input then some t.byteLength else none)
  | none =>
    match p.recognizer input with
    | none => pure none
    | some (_, after) => do
      let len ← sub input.byteLength after.byteLength
      let _ ← slice input 0 len
      pure (some len)

namespace Lexicon

/-- The best match so far after one more match of a pattern, which has to be longer. -/
def betterBytes (best : Option (Pattern × Nat)) (p : Pattern) (len : Nat) :
    Option (Pattern × Nat) :=
  if len = 0 then best
  else
    match best with
    | none => some (p, len)
    | some (q, most) => if most < len then some (p, len) else some (q, most)

/-- Tries one more pattern. -/
def tryBytes (input : Text) (best : Option (Pattern × Nat)) (p : Pattern) :
    Except Abort (Option (Pattern × Nat)) := do
  match ← p.matchBytes? input with
  | none => pure best
  | some len => pure (betterBytes best p len)

/-- The pattern with the longest match and the number of its bytes. -/
def longestBytes (input : Text) : Except Abort (Option (Pattern × Nat)) :=
  patterns.foldlM (tryBytes input) none

end Lexicon

/-- The number of bytes of the word at the front of a text. -/
def Identifier.wordBytes (input : Text) : Nat := (wordRun input).1.byteLength

/-! ## Broken literals by their bytes -/

namespace BrokenLiteral

/-- The index of the closing brace, if it comes before the quote and the end of the line. -/
def braceIndex? (quote : Char) : Nat → Text → Option Nat
  | _, [] => none
  | index, c :: rest =>
    if c = '}' then some index
    else if isLineBreak c || c == quote then none
    else braceIndex? quote (index + c.utf8Size) rest

/-- The number of bytes of an invalid escape, whose backslash takes one of them. -/
def invalidBytes (quote : Char) : Text → Except Abort Nat
  | [] => pure 1
  | c :: rest =>
    if isLineBreak c then pure 1
    else if c = '{' then
      match braceIndex? quote 2 rest with
      | some index => add index 1
      | none => add 1 1
    else add 1 c.utf8Size

/-- What a walk by offsets over a broken literal found. -/
structure Found where
  /-- The number of bytes of the literal. -/
  len : Nat
  closed : Bool
  /-- The number of its pieces. -/
  units : Nat
  /-- Where its invalid escapes begin and end. -/
  invalid : List (Nat × Nat)
  deriving DecidableEq, Repr

/-- The number of bytes of the piece that begins with a character, and whether the piece is an
invalid escape. -/
def pieceBytes (quote c : Char) (rest : Text) : Except Abort (Nat × Bool) :=
  if c = '\\' then
    match Literal.escape (c :: rest) with
    | some (_, after) => do
      let len ← sub (Text.byteLength (c :: rest)) after.byteLength
      pure (len, false)
    | none => do
      let len ← invalidBytes quote rest
      pure (len, true)
  else pure (c.utf8Size, false)

/-- Walks on over a literal from an offset, as long as there is fuel. -/
def walkBytes (input : Text) (quote : Char) :
    Nat → Nat → Nat → List (Nat × Nat) → Except Abort Found
  | 0, _, _, _ => .error .endless
  | fuel + 1, offset, units, invalid => do
    match ← slice input offset input.byteLength with
    | [] => pure ⟨offset, false, units, invalid⟩
    | c :: rest =>
      if isLineBreak c then pure ⟨offset, false, units, invalid⟩
      else if c = quote then do
        let len ← add offset c.utf8Size
        pure ⟨len, true, units, invalid⟩
      else do
        let (len, bad) ← pieceBytes quote c rest
        let next ← add offset len
        let units ← add units 1
        walkBytes input quote fuel next units (if bad then invalid ++ [(offset, next)] else invalid)

end BrokenLiteral

/-! ## The indentation stack with its base -/

namespace Levels

/-- The width of the innermost level. -/
def current : List Level → Nat
  | [] => 0
  | level :: _ => level.width

/-- Closes the levels above the base that are wider than a width, and counts their blocks. -/
def narrow (width : Nat) : List Level → Nat → Except Abort (Nat × List Level)
  | [], closed => pure (closed, [])
  | level :: levels, closed =>
    if levels ≠ [] ∧ width < level.width then do
      let closed ← if level.resynchronized then pure closed else add closed 1
      narrow width levels closed
    else pure (closed, level :: levels)

/-- What a line of the given width does, and the levels after it. -/
def transition (levels : List Level) (width : Nat) : Except Abort (Transition × List Level) :=
  if width = current levels then pure (.same, levels)
  else if current levels < width then do
    -- the new depth, which is only traced
    let _ ← sub (levels.length + 1) 1
    pure (.indent, ⟨width, false⟩ :: levels)
  else do
    let (closed, kept) ← narrow width levels 0
    if current kept = width then pure (.dedent closed, kept)
    else pure (.inconsistent closed (current kept), ⟨width, true⟩ :: kept)

/-- The number of blocks above the base, which stays. -/
def close (levels : List Level) : Except Abort (Nat × List Level) :=
  match levels.getLast? with
  | none => .error .slice
  | some base => pure (IndentStack.blocks levels.dropLast, [base])

end Levels

/-! ## The cursor -/

/-- The state of a scan by offsets. -/
structure Cursor where
  source : Text
  origin : Option Text
  config : Config
  /-- The offset of the scan with its line and column. -/
  position : Position
  atLineStart : Bool
  /-- The open levels, the innermost first and the base last. -/
  levels : List Level
  pending : List Token
  diagnostics : List Diagnostic
  finished : Bool
  deriving DecidableEq, Repr

/-- Moves over a text character by character. -/
def Position.move (p : Position) : Text → Except Abort Position
  | [] => pure p
  | c :: rest => do
    let offset ← add p.offset c.utf8Size
    if c = '\r' ∧ rest.head? = some '\n' then move ⟨offset, p.line, p.column⟩ rest
    else if isLineBreak c then do
      let line ← add p.line 1
      move ⟨offset, line, 1⟩ rest
    else do
      let column ← add p.column 1
      move ⟨offset, p.line, column⟩ rest

namespace Cursor

/-- A cursor at the start of a text. -/
def start (config : Config) (origin : Option Text) (source : Text) : Cursor where
  source := source.withoutMark
  origin := origin
  config := config
  position := .start
  atLineStart := true
  levels := [⟨0, false⟩]
  pending := []
  diagnostics := []
  finished := false

/-- The text from the offset on. -/
def rest (k : Cursor) : Except Abort Text :=
  slice k.source k.position.offset k.source.byteLength

def report (k : Cursor) (fault : Fault) (span : Span) : Cursor :=
  { k with diagnostics := k.diagnostics ++ [⟨k.origin, fault, span⟩] }

def enqueue (k : Cursor) (t : Token) : Cursor := { k with pending := k.pending ++ [t] }

/-- Makes a token of the next bytes and moves past them. -/
def emit (k : Cursor) (kind : TokenKind) (len : Nat) : Except Abort (Token × Cursor) := do
  let finish ← add k.position.offset len
  let lexeme ← slice k.source k.position.offset finish
  let position ← k.position.move lexeme
  pure (⟨kind, lexeme, k.position, finish⟩, { k with position })

/-- Makes an error token of the next bytes and reports it. -/
def emitError (k : Cursor) (error : ErrorKind) (len : Nat) (fault : Text → Fault) :
    Except Abort (Token × Cursor) := do
  let (token, k) ← k.emit (.error error) len
  pure (token, k.report (fault token.lexeme) token.span)

/-- The span of a piece of the rest, which lies on the line of the cursor. -/
def spanAhead (k : Cursor) (piece : Nat × Nat) : Except Abort Span := do
  let rest ← k.rest
  let before ← slice rest 0 piece.1
  let column ← add k.position.column before.length
  let start ← add k.position.offset piece.1
  let finish ← add k.position.offset piece.2
  pure ⟨⟨start, k.position.line, column⟩, finish⟩

/-- Reports an invalid escape of the rest. -/
def reportEscape (k : Cursor) (piece : Nat × Nat) : Except Abort Cursor := do
  let span ← k.spanAhead piece
  let rest ← k.rest
  let sequence ← slice rest piece.1 piece.2
  pure (k.report (.invalidEscape sequence) span)

/-- The token of a broken literal on one line. -/
def recoverQuoted (k : Cursor) (kind : LiteralKind) (quote : Char) :
    Except Abort (Token × Cursor) := do
  let rest ← k.rest
  let found ← BrokenLiteral.walkBytes rest quote (rest.length + 1) quote.utf8Size 0 []
  let k ← found.invalid.foldlM reportEscape k
  let (token, k) ← k.emit (.error .literal) found.len
  if !found.closed then pure (token, k.report (.unterminatedLiteral kind) token.span)
  else if kind = .character ∧ found.units ≠ 1 then
    pure (token, k.report (.malformedCharacter token.lexeme) token.span)
  else pure (token, k)

/-- The token of a literal that its rule does not accept. -/
def recoverLiteral (k : Cursor) (kind : LiteralKind) : Except Abort (Token × Cursor) :=
  match kind with
  | .verbatim => do
    let rest ← k.rest
    k.emitError .literal rest.byteLength fun _ => .unterminatedLiteral kind
  | .string => k.recoverQuoted kind '"'
  | .character => k.recoverQuoted kind '\''

/-- The token of a matched number, unless a word begins where it ends. -/
def scanNumber (k : Cursor) (rest : Text) (p : Pattern) (len : Nat) :
    Except Abort (Token × Cursor) := do
  let after ← slice rest len rest.byteLength
  if 0 < Identifier.wordBytes after then do
    let len ← add len (Identifier.wordBytes after)
    k.emitError .number len .malformedNumber
  else k.emit (.lexical p) len

/-- The next token, which begins with a given character. -/
def scanToken (k : Cursor) (first : Char) : Except Abort (Token × Cursor) := do
  let rest ← k.rest
  let winner ← Lexicon.longestBytes rest
  match LiteralKind.opening? rest, winner with
  | some kind, some (p, len) =>
    if p = .rule kind.rule then k.emit (.lexical p) len else k.recoverLiteral kind
  | some kind, none => k.recoverLiteral kind
  | none, some (p, len) =>
    if p.isWord then
      if len < Identifier.wordBytes rest then
        k.emitError .identifier (Identifier.wordBytes rest) .malformedIdentifier
      else k.emit (.lexical p) len
    else if p.isNumber then k.scanNumber rest p len
    else k.emit (.lexical p) len
  | none, none =>
    if isAlphabetic first || first == '_' then
      k.emitError .identifier (Identifier.wordBytes rest) .malformedIdentifier
    else k.emitError .character first.utf8Size fun _ => .invalidCharacter first

/-- Queues a token without a lexeme. -/
def queueSynthetic (k : Cursor) (kind : TokenKind) : Except Abort Cursor := do
  let (token, k) ← k.emit kind 0
  pure (k.enqueue token)

/-- Looks at the indentation of the line that begins here. -/
def measureLine (k : Cursor) : Except Abort Cursor := do
  let rest ← k.rest
  let indent ← sub rest.byteLength (Text.byteLength (rest.dropWhile isHorizontalSpace))
  let line ← slice rest indent rest.byteLength
  if Scanner.isInsignificant line then pure k
  else do
    let run ← slice rest 0 indent
    let width ← checked (Width.checked k.config.tabWidth run)
    let (transition, levels) ← Levels.transition k.levels width
    let k ← transition.kinds.foldlM queueSynthetic { k with levels }
    let span : Span := ⟨k.position, k.position.offset⟩
    pure ((transition.faults width).foldl (fun k fault => k.report fault span) k)

/-- At the start of a line, looks at its indentation if blocks are tracked. -/
def beginLine (k : Cursor) : Except Abort Cursor :=
  if k.atLineStart then
    let k := { k with atLineStart := false }
    if k.config.trackIndentation then k.measureLine else pure k
  else pure k

/-- Closes the open blocks if blocks are tracked, and queues the end of the text. -/
def finish (k : Cursor) : Except Abort Cursor := do
  let (blocks, levels) ← if k.config.trackIndentation then Levels.close k.levels
    else pure (0, k.levels)
  let kinds := List.replicate blocks .dedent ++ [.endOfFile]
  let k ← kinds.foldlM queueSynthetic { k with levels }
  pure { k with finished := true }

/-- Scans the next place of the text. -/
def step (k : Cursor) : Except Abort Cursor := do
  let k ← k.beginLine
  match ← k.rest with
  | [] => k.finish
  | first :: _ => do
    let (token, k) ← k.scanToken first
    let ends := token.kind == .lexical (.rule .lineFeed)
    pure ({ k with atLineStart := k.atLineStart || ends }.enqueue token)

/-- Whether the configuration lets a token be handed out. -/
def handsOut (k : Cursor) (t : Token) : Bool := !(k.config.skipTrivia && t.isTrivia)

/-- All tokens that are left, as long as there is fuel, and the cursor at its end. -/
def drain : Nat → Cursor → Except Abort (List Token × Cursor)
  | 0, _ => .error .endless
  | fuel + 1, k =>
    if k.finished then pure (k.pending.filter k.handsOut, { k with pending := [] })
    else do
      let next ← { k with pending := [] : Cursor }.step
      let (tokens, last) ← drain fuel next
      pure (k.pending.filter k.handsOut ++ tokens, last)

/-- Scans a text to its end.  A step scans at least one character or ends the text. -/
def listing (config : Config) (origin : Option Text) (source : Text) : Except Abort Listing := do
  let (tokens, last) ← drain (source.length + 2) (start config origin source)
  pure ⟨origin, tokens, last.diagnostics⟩

end Cursor
end LayoutLexer

import LayoutLexer.BrokenLiteral
import LayoutLexer.Diagnostic
import LayoutLexer.Lexicon

/-! # The lexeme at the front of a text

Every nonempty text begins with a lexeme.  Where the longest match of the lexicon is a word
that goes on, or a number that runs into a word, the lexeme is the whole run and malformed;
where a quote opens a literal that its rule does not accept, the lexeme is as much of the text
as the broken literal covers; where nothing matches, it is one invalid character.  Main
statements: the lexeme is not empty, and with the rest it makes up the text.
-/
namespace LayoutLexer

/-- A fault in a lexeme, the piece of the lexeme it is about and how far into the lexeme that
begins. -/
structure Flaw where
  distance : Distance
  piece : Text
  fault : Fault
  deriving DecidableEq, Repr

/-- A lexeme with its kind, the text after it and its flaws in the order of reporting. -/
structure Lexeme where
  kind : TokenKind
  text : Text
  rest : Text
  flaws : List Flaw
  deriving DecidableEq, Repr

namespace LiteralKind

/-- The literal form that the quotes at the front of a text open. -/
def opening? (s : Text) : Option LiteralKind :=
  match s with
  | '"' :: '"' :: '"' :: _ => some .verbatim
  | '"' :: _ => some .string
  | '\'' :: _ => some .character
  | _ => none

end LiteralKind

namespace Lexeme

open CharClass Identifier

/-- The lexeme of a match. -/
def ofMatch (m : Match) : Lexeme := ⟨.lexical m.pattern, m.lexeme, m.rest, []⟩

/-- A malformed lexeme with one fault, which is about all of it. -/
def malformed (error : ErrorKind) (text rest : Text) (fault : Fault) : Lexeme :=
  ⟨.error error, text, rest, [⟨.zero, text, fault⟩]⟩

/-- The word at the front of a text as a malformed identifier. -/
def malformedIdentifier (s : Text) : Lexeme :=
  let (word, rest) := wordRun s
  malformed .identifier word rest (.malformedIdentifier word)

/-- One character that begins no lexeme. -/
def invalidCharacter (c : Char) (rest : Text) : Lexeme :=
  malformed .character [c] rest (.invalidCharacter c)

/-- A matched word, unless the word at the front of the text is longer. -/
def word (s : Text) (m : Match) : Lexeme :=
  if m.lexeme.length < (wordRun s).1.length then malformedIdentifier s else ofMatch m

/-- A matched number, unless a word begins where it ends. -/
def number (m : Match) : Lexeme :=
  match wordRun m.rest with
  | ([], _) => ofMatch m
  | (run, rest) =>
    malformed .number (m.lexeme ++ run) rest (.malformedNumber (m.lexeme ++ run))

/-- A verbatim string without an end, which takes the whole text. -/
def brokenVerbatim (s : Text) : Lexeme :=
  malformed .literal s [] (.unterminatedLiteral .verbatim)

/-- The faults of a broken literal as a whole: it has no end, or as a character literal it does
not hold exactly one character or escape. -/
def literalFaults (kind : LiteralKind) (lexeme : Text) (w : BrokenLiteral.Walk) : List Fault :=
  if !w.closed then [.unterminatedLiteral kind]
  else if kind = .character ∧ w.pieces.length ≠ 1 then [.malformedCharacter lexeme]
  else []

/-- A broken literal on one line: its invalid escapes are reported before the literal. -/
def brokenQuoted (kind : LiteralKind) (quote : Char) (inside : Text) : Lexeme :=
  let w := BrokenLiteral.walk quote inside
  let lexeme := w.lexeme quote
  ⟨.error .literal, lexeme, w.rest,
    ((w.invalidEscapes quote).map fun (d, t) => ⟨d, t, .invalidEscape t⟩) ++
      (literalFaults kind lexeme w).map fun fault => ⟨.zero, lexeme, fault⟩⟩

/-- A literal that its rule does not accept. -/
def brokenLiteral (kind : LiteralKind) (quote : Char) (inside : Text) : Lexeme :=
  match kind with
  | .verbatim => brokenVerbatim (quote :: inside)
  | _ => brokenQuoted kind quote inside

/-- The literal that a quote opens. -/
def literal (kind : LiteralKind) (quote : Char) (inside : Text) : Lexeme :=
  match Lexicon.longestMatch (quote :: inside) with
  | some m =>
    if m.pattern = .rule kind.rule then ofMatch m else brokenLiteral kind quote inside
  | none => brokenLiteral kind quote inside

/-- The lexeme at the front of a text that opens no literal. -/
def unquoted (c : Char) (rest : Text) : Lexeme :=
  match Lexicon.longestMatch (c :: rest) with
  | some m =>
    if m.pattern.isWord then word (c :: rest) m
    else if m.pattern.isNumber then number m
    else ofMatch m
  | none =>
    if isAlphabetic c || c == '_' then malformedIdentifier (c :: rest)
    else invalidCharacter c rest

/-- The lexeme at the front of a nonempty text. -/
def read (c : Char) (rest : Text) : Lexeme :=
  match LiteralKind.opening? (c :: rest) with
  | some kind => literal kind c rest
  | none => unquoted c rest

/-! ## The lexeme makes progress -/

/-- The lexeme is a nonempty beginning of a text, and its rest is what follows. -/
def Fronts (l : Lexeme) (s : Text) : Prop := l.text ++ l.rest = s ∧ l.text ≠ []

theorem fronts_ofMatch {s : Text} {m : Match} (h : Lexicon.longestMatch s = some m) :
    (ofMatch m).Fronts s :=
  ⟨Lexicon.longestMatch_append h, Lexicon.longestMatch_ne_nil h⟩

theorem fronts_malformedIdentifier {s : Text} (h : (wordRun s).1 ≠ []) :
    (malformedIdentifier s).Fronts s :=
  ⟨wordRun_append s, h⟩

theorem fronts_word {s : Text} {m : Match} (h : Lexicon.longestMatch s = some m) :
    (word s m).Fronts s := by
  unfold word
  split
  · next hlt =>
    exact fronts_malformedIdentifier fun hnil => by simp [hnil] at hlt
  · exact fronts_ofMatch h

theorem fronts_number {s : Text} {m : Match} (h : Lexicon.longestMatch s = some m) :
    (number m).Fronts s := by
  unfold number
  split
  · exact fronts_ofMatch h
  · next run rest _ hrun =>
    have happ := wordRun_append m.rest
    rw [hrun] at happ
    refine ⟨?_, ?_⟩
    · simp only [malformed, List.append_assoc]
      rw [happ, Lexicon.longestMatch_append h]
    · simp [malformed, Lexicon.longestMatch_ne_nil h]

theorem fronts_brokenLiteral (kind : LiteralKind) (quote : Char) (inside : Text) :
    (brokenLiteral kind quote inside).Fronts (quote :: inside) := by
  have hwalk := BrokenLiteral.walk_append quote inside
  rw [List.append_assoc] at hwalk
  have hquoted (kind : LiteralKind) : (brokenQuoted kind quote inside).Fronts (quote :: inside) :=
    ⟨by simp [brokenQuoted, BrokenLiteral.Walk.lexeme, hwalk],
      by simp [brokenQuoted, BrokenLiteral.Walk.lexeme]⟩
  cases kind with
  | verbatim => exact ⟨by simp [brokenLiteral, brokenVerbatim, malformed], by
      simp [brokenLiteral, brokenVerbatim, malformed]⟩
  | string => exact hquoted _
  | character => exact hquoted _

theorem wordRun_ne_nil {c : Char} {rest : Text} (h : isWordChar c) :
    (wordRun (c :: rest)).1 ≠ [] := by
  simp [wordRun, h]

/-- The lexeme at the front of a text is not empty, and with the rest it makes up the text. -/
theorem fronts_read (c : Char) (rest : Text) : (read c rest).Fronts (c :: rest) := by
  unfold read
  split
  · unfold literal
    split
    · next m h =>
      split
      · exact fronts_ofMatch h
      · exact fronts_brokenLiteral _ _ _
    · exact fronts_brokenLiteral _ _ _
  · unfold unquoted
    split
    · next m h =>
      split
      · exact fronts_word h
      · split
        · exact fronts_number h
        · exact fronts_ofMatch h
    · split
      · next hc =>
        refine fronts_malformedIdentifier (wordRun_ne_nil ?_)
        simp only [isWordChar, isIdentifierContinue, isAlphanumeric, Bool.or_eq_true] at hc ⊢
        rcases hc with hc | hc
        · exact .inl (.inl (.inl hc))
        · exact .inr hc
      · exact ⟨rfl, by simp [invalidCharacter, malformed]⟩

theorem rest_length_lt (c : Char) (rest : Text) :
    (read c rest).rest.length < (c :: rest).length := by
  obtain ⟨happ, hne⟩ := fronts_read c rest
  rw [← happ, List.length_append]
  have := List.length_pos_iff.2 hne
  omega

end Lexeme
end LayoutLexer

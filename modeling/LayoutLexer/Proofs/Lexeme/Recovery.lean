import LayoutLexer.Proofs.Lexeme.Flaw
import LayoutLexer.Proofs.Match

/-! # Rules and recovery agree on literals

A literal of one line is read twice.  Its rule repeats runs and escapes with first choices, and
where the rule fails recovery walks over the same text piece by piece.  What the rule accepts is
what the walk gets through: up to a closing quote, without an invalid escape and, for a character
literal, in one piece (`Lexeme.recovery_agrees`).  So recovery always finds something to report.

That a faultless walk makes a word of the rule is `BrokenLiteral.lexeme_mem_stringWords`.  For the
converse, the walk goes through the pieces of a word one by one, since neither an escape nor a
plain character goes on with what follows it (`BrokenLiteral.walk_pieces`).
-/
namespace LayoutLexer

open scoped Computability
open CharClass

/-! ## The walk over a word -/

namespace BrokenLiteral

open Literal Recognizer Words

variable {quote : Char}

/-- A piece that may stand in a well-formed literal. -/
inductive Piece.Valid (quote : Char) : Piece → Prop
  | plain {c : Char} : isPlain quote c = true → Valid quote (.plain c)
  | escape {t : Text} : t ∈ escapeWords → Valid quote (.escape t)

/-- A valid piece is the first one of the walk over it and whatever follows. -/
theorem walk_piece (hquote : quote ≠ '\\') {p : Piece} (hp : p.Valid quote) (s : Text) :
    walk quote (p.text ++ s) =
      { walk quote s with pieces := p :: (walk quote s).pieces } := by
  cases hp with
  | @plain c hc =>
    obtain ⟨⟨hne, hback⟩, hbreak⟩ : (c ≠ quote ∧ c ≠ '\\') ∧ isLineBreak c = false := by
      simpa [isPlain] using hc
    have hfirst : firstPiece quote c s = (.plain c, s) := if_neg hback
    show walk quote (c :: s) = _
    rw [walk, hbreak, if_neg Bool.false_ne_true, if_neg hne, hfirst]
  | @escape t ht =>
    obtain ⟨u, hu, rfl⟩ := mem_char_mul_iff.1 ht
    have htail : escapeTail (u ++ s) = some (u, s) :=
      takesLongest_escapeTail.append_of_prefixFree prefixFree_escapeTailWords hu s
    have hfirst : firstPiece quote '\\' (u ++ s) = (.escape ('\\' :: u), s) := by
      rw [firstPiece, if_pos rfl, htail]
    show walk quote ('\\' :: (u ++ s)) = _
    rw [walk, if_neg (by decide), if_neg (Ne.symm hquote), hfirst]

theorem walk_pieces (hquote : quote ≠ '\\') {pieces : List Piece}
    (hpieces : ∀ p ∈ pieces, p.Valid quote) (s : Text) :
    walk quote (pieces.flatMap Piece.text ++ s) =
      { walk quote s with pieces := pieces ++ (walk quote s).pieces } := by
  induction pieces with
  | nil => rfl
  | cons p pieces ih =>
    obtain ⟨hp, hpieces⟩ := List.forall_mem_cons.1 hpieces
    rw [List.flatMap_cons, List.append_assoc, walk_piece hquote hp, ih hpieces]
    rfl

theorem invalidFrom_of_valid {pieces : List Piece} (h : ∀ p ∈ pieces, p.Valid quote)
    (d : Distance) : Walk.invalidFrom d pieces = [] := by
  induction pieces generalizing d with
  | nil => rfl
  | cons p pieces ih =>
    obtain ⟨hp, hpieces⟩ := List.forall_mem_cons.1 h
    cases hp with
    | plain _ => exact ih hpieces _
    | escape _ => exact ih hpieces _

/-- Parts of a string literal are cut into valid pieces. -/
theorem exists_pieces_of_mem_kstar {t : Text} (h : t ∈ stringPartWords∗) :
    ∃ pieces : List Piece, (∀ p ∈ pieces, p.Valid '"') ∧ t = pieces.flatMap Piece.text := by
  obtain ⟨parts, rfl, hparts⟩ := Language.mem_kstar.1 h
  clear h
  induction parts with
  | nil => exact ⟨[], List.forall_mem_nil _, rfl⟩
  | cons part parts ih =>
    obtain ⟨hpart, hparts⟩ := List.forall_mem_cons.1 hparts
    obtain ⟨pieces, hvalid, hflat⟩ := ih hparts
    rw [List.flatten_cons, hflat]
    rcases hpart with ⟨_, hrun⟩ | hescape
    · -- each character of a run is a piece
      refine ⟨part.map .plain ++ pieces, ?_, ?_⟩
      · intro p hp
        rcases List.mem_append.1 hp with hp | hp
        · obtain ⟨c, hc, rfl⟩ := List.mem_map.1 hp
          exact .plain (hrun c hc)
        · exact hvalid p hp
      · rw [List.flatMap_append, List.flatMap_map]
        exact congrArg (· ++ _) (List.flatMap_singleton' part).symm
    · exact ⟨.escape part :: pieces, List.forall_mem_cons.2 ⟨.escape hescape, hvalid⟩, rfl⟩

/-- Between quotes, valid pieces are what the walk finds. -/
theorem walk_of_valid (hquote : quote ≠ '\\') (hbreak : isLineBreak quote = false)
    {pieces : List Piece} (hpieces : ∀ p ∈ pieces, p.Valid quote) (rest : Text) :
    walk quote (pieces.flatMap Piece.text ++ quote :: rest) = ⟨pieces, true, rest⟩ := by
  have hend : walk quote (quote :: rest) = ⟨[], true, rest⟩ := by
    rw [walk, hbreak, if_neg Bool.false_ne_true, if_pos rfl]
  rw [walk_pieces hquote hpieces, hend, List.append_nil]

/-! ## What the rules accept -/

/-- The literal and the text after it make up the text. -/
theorem lexeme_append (quote : Char) (s : Text) :
    (walk quote s).lexeme quote ++ (walk quote s).rest = quote :: s := by
  rw [Walk.lexeme, List.cons_append, walk_append]

variable {s m rest : Text}

/-- A text that consists of valid pieces between quotes and what follows them is walked through
without fault. -/
theorem walk_of_split (hquote : quote ≠ '\\') (hbreak : isLineBreak quote = false)
    {pieces : List Piece} (hpieces : ∀ p ∈ pieces, p.Valid quote)
    (hm : m = quote :: (pieces.flatMap Piece.text ++ [quote])) (happ : m ++ rest = quote :: s) :
    (walk quote s).pieces = pieces ∧ (walk quote s).closed = true ∧
      (walk quote s).invalidEscapes quote = [] ∧ (walk quote s).lexeme quote = m ∧
      (walk quote s).rest = rest := by
  have hs : s = pieces.flatMap Piece.text ++ quote :: rest := by
    rw [hm] at happ
    simpa using (List.cons.inj happ).2.symm
  rw [hs, walk_of_valid hquote hbreak hpieces]
  exact ⟨rfl, rfl, invalidFrom_of_valid hpieces _, hm.symm, rfl⟩

theorem walk_of_string (h : string ('"' :: s) = some (m, rest)) :
    (walk '"' s).closed = true ∧ (walk '"' s).invalidEscapes '"' = [] ∧
      (walk '"' s).lexeme '"' = m ∧ (walk '"' s).rest = rest := by
  obtain ⟨_, ⟨inside, hinside, _, ⟨c, hc, rfl⟩, rfl⟩, hm⟩ :=
    mem_char_mul_iff.1 (takesLongest_string.mem h)
  obtain rfl : c = '"' := eq_of_beq hc
  obtain ⟨pieces, hpieces, rfl⟩ := exists_pieces_of_mem_kstar hinside
  exact (walk_of_split (by decide) (by decide) hpieces hm (splits_string h)).2

theorem walk_of_character (h : character ('\'' :: s) = some (m, rest)) :
    (walk '\'' s).closed = true ∧ (walk '\'' s).invalidEscapes '\'' = [] ∧
      (walk '\'' s).pieces.length = 1 ∧ (walk '\'' s).lexeme '\'' = m ∧
      (walk '\'' s).rest = rest := by
  obtain ⟨_, ⟨inside, hinside, _, ⟨c, hc, rfl⟩, rfl⟩, hm⟩ :=
    mem_char_mul_iff.1 (takesLongest_character.mem h)
  obtain rfl : c = '\'' := eq_of_beq hc
  have hpiece : ∃ p : Piece, p.Valid '\'' ∧ inside = p.text := by
    rcases hinside with hescape | ⟨d, hd, rfl⟩
    · exact ⟨.escape inside, .escape hescape, rfl⟩
    · exact ⟨.plain d, .plain hd, rfl⟩
  obtain ⟨p, hp, rfl⟩ := hpiece
  have hone : ∀ q ∈ [p], q.Valid '\'' := by simpa using hp
  obtain ⟨hpieces, hclosed, hvalid, hlexeme, hrest⟩ :=
    walk_of_split (by decide) (by decide) hone (by simpa using hm) (splits_character h)
  exact ⟨hclosed, hvalid, by rw [hpieces]; rfl, hlexeme, hrest⟩

/-- A string literal is accepted just if the walk over it ends at a quote and finds no invalid
escape, and it is what the walk went through. -/
theorem string_eq_some_iff :
    string ('"' :: s) = some (m, rest) ↔
      (walk '"' s).closed = true ∧ (walk '"' s).invalidEscapes '"' = [] ∧
        (walk '"' s).lexeme '"' = m ∧ (walk '"' s).rest = rest := by
  constructor
  · exact walk_of_string
  · rintro ⟨hclosed, hvalid, rfl, rfl⟩
    obtain ⟨m, rest, hr, _⟩ := takesLongest_string.longest
      (lexeme_mem_stringWords hclosed hvalid) ⟨_, lexeme_append '"' s⟩
    obtain ⟨_, _, hlexeme, hrest⟩ := walk_of_string hr
    rw [hr, hlexeme, hrest]

/-- For a character literal the walk must besides find just one piece. -/
theorem character_eq_some_iff :
    character ('\'' :: s) = some (m, rest) ↔
      (walk '\'' s).closed = true ∧ (walk '\'' s).invalidEscapes '\'' = [] ∧
        (walk '\'' s).pieces.length = 1 ∧ (walk '\'' s).lexeme '\'' = m ∧
        (walk '\'' s).rest = rest := by
  constructor
  · exact walk_of_character
  · rintro ⟨hclosed, hvalid, hone, rfl, rfl⟩
    obtain ⟨m, rest, hr, _⟩ := takesLongest_character.longest
      (lexeme_mem_characterWords hclosed hvalid hone) ⟨_, lexeme_append '\'' s⟩
    obtain ⟨_, _, _, hlexeme, hrest⟩ := walk_of_character hr
    rw [hr, hlexeme, hrest]

end BrokenLiteral

/-! ## Recovery -/

namespace Lexeme

open BrokenLiteral

/-- Recovery takes over just where the rule of the opened literal fails. -/
theorem kind_read_eq_literal_iff {c : Char} {rest : Text} {kind : LiteralKind}
    (hopen : LiteralKind.opening? (c :: rest) = some kind) :
    (read c rest).kind = .error .literal ↔
      (Pattern.rule kind.rule).matchLength? (c :: rest) = none := by
  rw [Pattern.matchLength?, Option.map_eq_none_iff]
  show _ ↔ kind.rule.recognizer (c :: rest) = none
  cases h : kind.rule.recognizer (c :: rest) with
  | none =>
    rw [read_of_rejected hopen h]
    refine iff_of_true ?_ rfl
    cases kind <;> rfl
  | some split =>
    rw [read_of_accepted hopen h]
    constructor
    · intro hkind
      cases hkind
    · intro hnone
      cases hnone

/-- **The rules of literals and the recovery walk agree**: a rule accepts a number of bytes just if
the walk ends after so many of them at a closing quote, having found no invalid escape and, in a
character literal, exactly one piece.  Recovery runs just where the rule of the opened literal
fails, and it always finds a flaw. -/
theorem recovery_agrees (inside : Text) :
    (∀ n, (Pattern.rule .stringLiteral).matchLength? ('"' :: inside) = some n ↔
      (walk '"' inside).closed = true ∧ (walk '"' inside).invalidEscapes '"' = [] ∧
        ((walk '"' inside).lexeme '"').byteLength = n) ∧
    (∀ n, (Pattern.rule .characterLiteral).matchLength? ('\'' :: inside) = some n ↔
      (walk '\'' inside).closed = true ∧ (walk '\'' inside).invalidEscapes '\'' = [] ∧
        (walk '\'' inside).pieces.length = 1 ∧
        ((walk '\'' inside).lexeme '\'').byteLength = n) ∧
    ∀ c kind, LiteralKind.opening? (c :: inside) = some kind →
      ((read c inside).kind = .error .literal ↔
        (Pattern.rule kind.rule).matchLength? (c :: inside) = none) ∧
      ((read c inside).kind = .error .literal →
        read c inside = brokenLiteral kind c inside ∧ (read c inside).flaws ≠ []) := by
  refine ⟨fun n => ?_, fun n => ?_, fun c kind hopen => ⟨kind_read_eq_literal_iff hopen, ?_⟩⟩
  · rw [Pattern.matchLength?_eq_some_iff_recognizer]
    constructor
    · rintro ⟨m, rest, hr, rfl⟩
      obtain ⟨hclosed, hvalid, hlexeme, _⟩ := string_eq_some_iff.1 hr
      exact ⟨hclosed, hvalid, by rw [hlexeme]⟩
    · rintro ⟨hclosed, hvalid, rfl⟩
      exact ⟨_, _, string_eq_some_iff.2 ⟨hclosed, hvalid, rfl, rfl⟩, rfl⟩
  · rw [Pattern.matchLength?_eq_some_iff_recognizer]
    constructor
    · rintro ⟨m, rest, hr, rfl⟩
      obtain ⟨hclosed, hvalid, hone, hlexeme, _⟩ := character_eq_some_iff.1 hr
      exact ⟨hclosed, hvalid, hone, by rw [hlexeme]⟩
    · rintro ⟨hclosed, hvalid, hone, rfl⟩
      exact ⟨_, _, character_eq_some_iff.2 ⟨hclosed, hvalid, hone, rfl, rfl⟩, rfl⟩
  · intro herror
    have hflawed := flawed_read c inside
    rw [herror] at hflawed
    refine ⟨read_of_rejected hopen ?_, hflawed.ne_nil⟩
    exact Option.map_eq_none_iff.1 ((kind_read_eq_literal_iff hopen).1 herror)

/-- An open string that ends in a backslash: the walk finds the invalid escape, so the rule fails
and recovery has something to report. -/
theorem recovery_agrees_open_escape :
    let inside : Text := ['a', '\\']
    LiteralKind.opening? ('"' :: inside) = some .string ∧
      (Pattern.rule .stringLiteral).matchLength? ('"' :: inside) = none ∧
      (read '"' inside).kind = .error .literal ∧ (read '"' inside).flaws ≠ [] := by
  intro inside
  have hopen : LiteralKind.opening? ('"' :: inside) = some .string := rfl
  have hnone : (Pattern.rule .stringLiteral).matchLength? ('"' :: inside) = none := by
    decide +kernel
  obtain ⟨_, _, hrecovery⟩ := recovery_agrees inside
  obtain ⟨hiff, hflawed⟩ := hrecovery '"' .string hopen
  have herror := hiff.2 hnone
  exact ⟨hopen, hnone, herror, (hflawed herror).2⟩

end Lexeme
end LayoutLexer

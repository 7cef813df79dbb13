import LayoutLexer.Command.Run
import LayoutLexer.Proofs.Json.Written
import LayoutLexer.Proofs.KindName
import LayoutLexer.Proofs.Lexeme.LineBreak
import LayoutLexer.Proofs.Lossless
import LayoutLexer.Proofs.Quoted

/-! # Dumped tokens are read back

A token is dumped as a line for reading or as a JSON object, and both are read back here.  The JSON
object goes through the grammar of JSON (`Json.parse`), and its members give the token
(`Token.ofJson?`).  The line for reading is cut at its first colon and its first two blanks, which
is right because neither a number nor the name of a kind has one; the quoted lexeme is the rest of
it (`Shown.ofLine?`).  The offsets are not part of that line.

Since every line break of a lexeme is escaped, in quotes as in JSON, no dumped token has one.  So
the lines of a dump are its tokens, and the JSON lines of a scan give back the text
(`Listing.dump_read_back`).
-/
namespace LayoutLexer

/-! ## One line -/

open CharClass (isLineBreak)

namespace Text

theorem inline_of_ne {t : Text} (h : ∀ c ∈ t, c ≠ '\r' ∧ c ≠ '\n') : t.Inline := by
  intro c hc
  simp [isLineBreak, h c hc]

theorem inline_flatMap {f : Char → Text} {t : Text} (h : ∀ c, (f c).Inline) :
    Inline (t.flatMap f) := by
  intro d hd
  obtain ⟨c, -, hd⟩ := List.mem_flatMap.1 hd
  exact h c d hd

theorem inline_hexDigits (n : Nat) : Inline (Nat.toDigits 16 n) :=
  forall_mem_hexDigits (p := fun c => isLineBreak c = false) (by decide) n

/-- What no decimal digit is does not occur in a number. -/
theorem ne_of_mem_decimal {n : Nat} {c d : Char} (hc : c ∈ decimal n) (hd : d.isDigit = false) :
    c ≠ d := by
  rintro rfl
  rw [Nat.isDigit_of_mem_toDigits (by decide) (by decide) hc] at hd
  cases hd

theorem inline_decimal (n : Nat) : Inline (decimal n) :=
  inline_of_ne fun _ hc => ⟨ne_of_mem_decimal hc rfl, ne_of_mem_decimal hc rfl⟩

/-- Two characters within one line. -/
theorem inline_pair {c d : Char} (hc : isLineBreak c = false) (hd : isLineBreak d = false) :
    Inline [c, d] :=
  .cons hc (.cons hd inline_nil)

/-- A quoted text has no line break of its own. -/
theorem inline_quoted (t : Text) : t.quoted.Inline := by
  refine .cons rfl (.append (inline_flatMap fun c => ?_) (.cons rfl inline_nil))
  unfold quotedChar
  split_ifs with hnul htab hfeed hreturn
  iterate 6 exact inline_pair rfl rfl
  · exact .append (.append (.cons rfl (inline_pair rfl rfl)) (inline_hexDigits _))
      (.cons rfl inline_nil)
  · exact .cons (by simp [isLineBreak, hfeed, hreturn]) inline_nil

/-- A text within one line is its only line. -/
theorem lines_of_inline {t : Text} (h : t.Inline) : t.lines = [t] := by
  have hfeed : '\n' ∉ t := fun hmem => not_inline_of_mem hmem rfl h
  have hreturn : t.getLast? ≠ some '\r' := fun hlast =>
    not_inline_of_mem (List.mem_of_getLast? hlast) rfl h
  rw [lines, List.splitOn_eq_singleton hfeed, List.map_singleton, withoutReturn, if_neg hreturn]

end Text

namespace Json

open Text (inline_nil inline_pair inline_hexDigits inline_flatMap)

theorem inline_writeString (t : Text) : (writeString t).Inline := by
  refine .cons rfl (.append (inline_flatMap fun c => ?_) (.cons rfl inline_nil))
  unfold writeChar
  split_ifs with hquote hbackslash hb hf hfeed hreturn
  iterate 7 exact inline_pair rfl rfl
  · exact .append (.append (.append (inline_pair rfl rfl) (inline_pair rfl rfl))
      (inline_hexDigits _)) (inline_hexDigits _)
  · exact .cons (by simp [isLineBreak, hfeed, hreturn]) inline_nil

theorem inline_writeMember (key : Text) {value : Text} (h : value.Inline) :
    (writeMember key value).Inline :=
  (inline_writeString key).append (.cons rfl h)

theorem inline_intercalate {members : List Text} (h : ∀ m ∈ members, m.Inline) :
    Text.Inline ([','].intercalate members) := by
  induction members with
  | nil => exact inline_nil
  | cons m members ih =>
    obtain ⟨hm, hmembers⟩ := List.forall_mem_cons.1 h
    cases members with
    | nil => rwa [List.intercalate_singleton]
    | cons n members =>
      rw [List.intercalate_cons_cons]
      exact (hm.append (.cons rfl inline_nil)).append (ih hmembers)

theorem inline_writeObject {members : List Text} (h : ∀ m ∈ members, m.Inline) :
    (writeObject members).Inline := by
  exact .cons rfl (.append (inline_intercalate h) (.cons rfl inline_nil))

end Json

namespace Token

/-- The line for reading is one line. -/
theorem inline_line (t : Token) : t.line.Inline := by
  have hname : t.kind.name.Inline := Text.inline_of_ne fun _ hc =>
    ⟨TokenKind.ne_of_mem_name hc rfl, TokenKind.ne_of_mem_name hc rfl⟩
  have hplace : t.span.text.Inline :=
    (Text.inline_decimal _).append (.cons rfl (Text.inline_decimal _))
  exact (hplace.append (.cons rfl hname)).append (.cons rfl (Text.inline_quoted _))

/-- The JSON object is one line. -/
theorem inline_json (t : Token) : t.json.Inline := by
  have hspan : t.span.json.Inline := by
    refine Json.inline_writeObject fun m hm => ?_
    simp only [List.mem_cons, List.not_mem_nil, or_false] at hm
    rcases hm with rfl | rfl | rfl | rfl <;>
      exact Json.inline_writeMember _ (Text.inline_decimal _)
  refine Json.inline_writeObject fun m hm => ?_
  simp only [List.mem_cons, List.not_mem_nil, or_false] at hm
  rcases hm with rfl | rfl | rfl
  · exact Json.inline_writeMember _ (Json.inline_writeString _)
  · exact Json.inline_writeMember _ (Json.inline_writeString _)
  · exact Json.inline_writeMember _ hspan

end Token

/-! ## Tokens in JSON -/

/-- The span that an object describes. -/
def Span.ofValue? (v : Json.Value) : Option Span := do
  let line ← (← v.member? "start_line".toList).natural?
  let column ← (← v.member? "start_column".toList).natural?
  let offset ← (← v.member? "start_offset".toList).natural?
  let endOffset ← (← v.member? "end_offset".toList).natural?
  return ⟨⟨offset, line, column⟩, endOffset⟩

namespace Token

/-- The token that an object describes; its kind is given by name. -/
def ofValue? (v : Json.Value) : Option Token := do
  let kind ← TokenKind.ofName? (← (← v.member? "kind".toList).text?)
  let lexeme ← (← v.member? "lexeme".toList).text?
  let span ← Span.ofValue? (← v.member? "span".toList)
  return ⟨kind, lexeme, span⟩

/-- The token that a JSON text describes. -/
def ofJson? (text : Text) : Option Token :=
  match Json.parse text with
  | .error _ => none
  | .ok v => ofValue? v

end Token

open Json in
/-- A span that was written as JSON is read back. -/
theorem Span.reads_json (s : Span) : ∃ v, Reads s.json v ∧ Span.ofValue? v = some s := by
  have hmember (key : Text) (n : Nat) : WritesMember (writeMember key (Text.decimal n))
      (key, .number false ⟨digitValues n, none, none⟩) := ⟨_, rfl, reads_decimal n⟩
  refine ⟨_, reads_object (.cons (hmember _ _) (.cons (hmember _ _) (.cons (hmember _ _)
    (.cons (hmember _ _) .nil)))), ?_⟩
  show some (Span.mk ⟨digitsValue (digitValues _), digitsValue (digitValues _),
    digitsValue (digitValues _)⟩ (digitsValue (digitValues _))) = some s
  simp only [digitsValue_digitValues]

open Json in
/-- A token that was written as JSON is read back. -/
theorem Token.ofJson?_json (t : Token) : Token.ofJson? t.json = some t := by
  obtain ⟨span, hspan, hvalue⟩ := t.span.reads_json
  have hreads : Reads t.json (.object [("kind".toList, .string t.kind.name),
      ("lexeme".toList, .string t.lexeme), ("span".toList, span)]) :=
    reads_object (.cons ⟨_, rfl, reads_string _⟩ (.cons ⟨_, rfl, reads_string _⟩
      (.cons ⟨_, rfl, hspan⟩ .nil)))
  rw [Token.ofJson?, parse_eq_ok hreads]
  show ((TokenKind.ofName? t.kind.name).bind fun kind => (Span.ofValue? span).bind fun span =>
    some (Token.mk kind t.lexeme span)) = some t
  rw [TokenKind.ofName?_name, hvalue]
  rfl

/-! ## Lines for reading -/

/-- What a line for reading shows of a token: where it begins, its kind and its lexeme. -/
structure Shown where
  line : Nat
  column : Nat
  kind : TokenKind
  lexeme : Text
  deriving DecidableEq, Repr

namespace Shown

/-- What is shown of a token. -/
def ofToken (t : Token) : Shown := ⟨t.span.start.line, t.span.start.column, t.kind, t.lexeme⟩

/-- What a line shows. -/
def ofLine? (text : Text) : Option Shown :=
  let (place, rest) := Text.cut ' ' text
  let (line, column) := Text.cut ':' place
  let (kind, lexeme) := Text.cut ' ' rest
  match TokenKind.ofName? kind, Text.unquote? lexeme with
  | some kind, some lexeme =>
    some ⟨Nat.ofDigitChars 10 line 0, Nat.ofDigitChars 10 column 0, kind, lexeme⟩
  | _, _ => none

/-- A line for reading is read back: its two blanks and its colon are the first ones in it. -/
theorem ofLine?_line (t : Token) : ofLine? t.line = some (ofToken t) := by
  have hnumber (n : Nat) : Nat.ofDigitChars 10 (Text.decimal n) 0 = n :=
    Nat.ofDigitChars_toDigits (by decide) (by decide)
  have hplace : Text.cut ' ' t.line = (t.span.text, t.kind.name ++ ' ' :: t.lexeme.quoted) := by
    rw [Token.line, List.append_assoc]
    refine Text.cut_append (fun c hc => ?_) _
    rcases List.mem_append.1 hc with hc | hc
    · exact Text.ne_of_mem_decimal hc rfl
    rcases List.mem_cons.1 hc with rfl | hc
    · decide
    · exact Text.ne_of_mem_decimal hc rfl
  have hline : Text.cut ':' t.span.text =
      (Text.decimal t.span.start.line, Text.decimal t.span.start.column) :=
    Text.cut_append (fun c hc => Text.ne_of_mem_decimal hc rfl) _
  have hkind : Text.cut ' ' (t.kind.name ++ ' ' :: t.lexeme.quoted) =
      (t.kind.name, t.lexeme.quoted) :=
    Text.cut_append (fun c hc => TokenKind.ne_of_mem_name hc rfl) _
  simp only [ofLine?, hplace, hline, hkind, TokenKind.ofName?_name, Text.unquote?_quoted, hnumber,
    ofToken]

end Shown

/-! ## Whole dumps -/

namespace Command.Output

/-- Messages within one line each are the lines that are written. -/
theorem lines_of_inline {messages : List Text} (h : ∀ m ∈ messages, m.Inline) :
    lines messages = messages := by
  induction messages with
  | nil => rfl
  | cons m messages ih =>
    obtain ⟨hm, hmessages⟩ := List.forall_mem_cons.1 h
    have hlines := ih hmessages
    rw [lines] at hlines ⊢
    rw [List.flatMap_cons, Text.lines_of_inline hm, hlines]
    rfl

end Command.Output

namespace Listing

/-- The text of which JSON lines are the dump, if they are one. -/
def sourceOfJson? (lines : List Text) : Option Text := (lines.mapM Token.ofJson?).map lexemes

theorem sourceOfJson?_json (tokens : List Token) :
    sourceOfJson? (tokens.map Token.json) = some (lexemes tokens) := by
  have hread : (tokens.map Token.json).mapM Token.ofJson? = some tokens := by
    induction tokens with
    | nil => rfl
    | cons t tokens ih =>
      rw [List.map_cons, List.mapM_cons, Token.ofJson?_json, ih]
      rfl
  rw [sourceOfJson?, hread, Option.map_some]

/-- **Dumps are lines, and they are read back.**  Neither form of a token has a line break, so a
dump has one line for each token.  The JSON line of a token is read back as the token: its kind by
name, its lexeme and the four numbers of its span.  Tokens whose lines for reading are the same
have the same kind and the same lexeme at the same line and column.  So the JSON lines of a scan
that hands out trivia give back the text that was scanned, without its mark. -/
theorem dump_read_back :
    (∀ t : Token, t.line.Inline ∧ t.json.Inline ∧ Token.ofJson? t.json = some t) ∧
    (∀ t u : Token, t.line = u.line →
      t.span.start.line = u.span.start.line ∧ t.span.start.column = u.span.start.column ∧
        t.kind = u.kind ∧ t.lexeme = u.lexeme) ∧
    ∀ config origin source l, ofText config origin source = .ok l →
      Command.Output.lines (l.tokens.map Token.line) = l.tokens.map Token.line ∧
      Command.Output.lines (l.tokens.map Token.json) = l.tokens.map Token.json ∧
      (config.skipTrivia = false →
        sourceOfJson? (Command.Output.lines (l.tokens.map Token.json)) =
          some source.withoutMark) := by
  refine ⟨fun t => ⟨t.inline_line, t.inline_json, t.ofJson?_json⟩, fun t u h => ?_, ?_⟩
  · have hshown : some (Shown.ofToken t) = some (Shown.ofToken u) := by
      rw [← Shown.ofLine?_line, h, Shown.ofLine?_line]
    simpa [Shown.ofToken] using hshown
  · intro config origin source l h
    have hlines := Command.Output.lines_of_inline
      (List.forall_mem_map.2 fun t (_ : t ∈ l.tokens) => t.inline_line)
    have hjson := Command.Output.lines_of_inline
      (List.forall_mem_map.2 fun t (_ : t ∈ l.tokens) => t.inline_json)
    refine ⟨hlines, hjson, fun hshow => ?_⟩
    rw [hjson, sourceOfJson?_json, ← Scanner.reconstruct_of_listing h hshow, reconstruct]

/-- A marked text that ends in an open verbatim string with a control character, a backslash,
a line break, two quotes and what looks like an escape; and two blanks that lie at different
offsets although their lines for reading are the same. -/
theorem dump_read_back_open_verbatim :
    let text : Text := ['\uFEFF', 'a', '\n', ' ', '"', '"', '"', '\x01', '\\', 'u', '{', '1', '}',
      '\r', '\n', '"', '"']
    let blank (offset : Nat) : Token :=
      ⟨.lexical (.rule .whiteSpace), [' '], ⟨⟨offset, 2, 1⟩, offset + 1⟩⟩
    (∃ l, ofText {} none text = .ok l ∧
      sourceOfJson? (Command.Output.lines (l.tokens.map Token.json)) = some text.withoutMark) ∧
    blank 2 ≠ blank 3 ∧ (blank 2).line = (blank 3).line ∧ (blank 2).lexeme = (blank 3).lexeme := by
  intro text blank
  have hok : (ofText {} none text).isOk = true := by decide +kernel
  have hline : (blank 2).line = (blank 3).line := rfl
  refine ⟨?_, by decide, hline, (dump_read_back.2.1 _ _ hline).2.2.2⟩
  cases h : ofText {} none text with
  | error e => rw [h] at hok; cases hok
  | ok l => exact ⟨l, rfl, (dump_read_back.2.2 {} none text l h).2.2 rfl⟩

end Listing
end LayoutLexer

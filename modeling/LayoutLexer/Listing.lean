import LayoutLexer.Scanner

/-! # Listings and their dumps

A listing is a whole scan: the tokens of a text and the diagnostics that go with them, under
one configuration and one label.  It is dumped token by token, each on one line, for reading or as
JSON.
-/
namespace LayoutLexer

/-- The outcome of scanning one text to its end. -/
structure Listing where
  origin : Option Text
  tokens : List Token
  diagnostics : List Diagnostic
  deriving DecidableEq, Repr

namespace Listing

/-- The scanner from which a listing is made. -/
def scanner (config : Config) (origin : Option Text) (source : Text) : Scanner :=
  { Scanner.ofText source with config, origin }

/-- Scans a text to its end. -/
def ofText (config : Config) (origin : Option Text) (source : Text) : Except Overflow Listing :=
  match (scanner config origin source).drain with
  | .error e => .error e
  | .ok (tokens, last) => .ok ⟨origin, tokens, last.diagnostics⟩

/-- The kinds of the tokens. -/
def kinds (l : Listing) : List TokenKind := l.tokens.map Token.kind

/-- Whether anything was reported. -/
def hasErrors (l : Listing) : Bool := !l.diagnostics.isEmpty

/-- The text that the tokens stand for. -/
def reconstruct (l : Listing) : Text := lexemes l.tokens

/-- The tokens, or the first diagnostic if there is one. -/
def result (l : Listing) : Except Diagnostic (List Token) :=
  match l.diagnostics with
  | [] => .ok l.tokens
  | d :: _ => .error d

end Listing

/-! ## Writing JSON

Compact JSON text: no white space, members in the order given.  In a string the quote, the
backslash and the characters below U+0020 are escaped, all others stand as they are.
-/

namespace Json

/-- How one character is written in a string. -/
def writeChar (c : Char) : Text :=
  if c = '"' then ['\\', '"']
  else if c = '\\' then ['\\', '\\']
  else if c = '\x08' then ['\\', 'b']
  else if c = '\x0c' then ['\\', 'f']
  else if c = '\n' then ['\\', 'n']
  else if c = '\r' then ['\\', 'r']
  else if c = '\t' then ['\\', 't']
  else if c.toNat < 0x20 then
    ['\\', 'u', '0', '0'] ++ Nat.toDigits 16 (c.toNat / 16) ++ Nat.toDigits 16 (c.toNat % 16)
  else [c]

/-- A string. -/
def writeString (t : Text) : Text := '"' :: (t.flatMap writeChar ++ ['"'])

/-- A member of an object. -/
def writeMember (key : Text) (value : Text) : Text := writeString key ++ ':' :: value

/-- An object with the given members. -/
def writeObject (members : List Text) : Text :=
  '{' :: ([','].intercalate members ++ ['}'])

end Json

/-! ## Tokens as lines

A token is shown on one line, for reading or as JSON.  The line for reading has the place, the
kind and the quoted lexeme; the JSON object has the kind, the lexeme and the span.
-/

/-- A span as a JSON object. -/
def Span.json (s : Span) : Text :=
  Json.writeObject
    [Json.writeMember "start_line".toList (Text.decimal s.start.line),
     Json.writeMember "start_column".toList (Text.decimal s.start.column),
     Json.writeMember "start_offset".toList (Text.decimal s.start.offset),
     Json.writeMember "end_offset".toList (Text.decimal s.endOffset)]

/-- The name of a kind as JSON. -/
def TokenKind.json (k : TokenKind) : Text := Json.writeString k.name

namespace Token

/-- A token as a line for reading. -/
def line (t : Token) : Text := t.span.text ++ ' ' :: t.kind.name ++ ' ' :: t.lexeme.quoted

/-- A token as a JSON object. -/
def json (t : Token) : Text :=
  Json.writeObject
    [Json.writeMember "kind".toList t.kind.json,
     Json.writeMember "lexeme".toList (Json.writeString t.lexeme),
     Json.writeMember "span".toList t.span.json]

end Token

end LayoutLexer

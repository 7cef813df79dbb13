import LayoutLexer.Keyword
import LayoutLexer.Position
import LayoutLexer.Symbol

/-! # Tokens

A token is a lexeme with its kind and its span.  A kind is either a pattern of the lexicon, a
layout kind, the end of the text, or an error kind.  Layout tokens, the end of the text and the
error of an inconsistent indentation are synthetic: they stand between lexemes and have an
empty one of their own.  Every kind has a name, and names are read back.
-/
namespace LayoutLexer

/-- A lexical rule that accepts more than one text. -/
inductive Rule where
  | characterLiteral | stringLiteral | verbatimStringLiteral
  | integerLiteral | floatLiteral
  | lowerIdentifier | upperIdentifier | dummyIdentifier
  | whiteSpace | lineFeed | comment
  deriving DecidableEq, Repr

/-- A pattern of the lexicon: a rule, or the one text of a keyword or a symbol. -/
inductive Pattern where
  | rule (rule : Rule)
  | keyword (keyword : Keyword)
  | symbol (symbol : Symbol)
  deriving DecidableEq, Repr

/-- What is wrong with the lexeme of an error token. -/
inductive ErrorKind where
  | identifier | character | literal | number | indentation
  deriving DecidableEq, Repr

/-- The kind of a token. -/
inductive TokenKind where
  | lexical (pattern : Pattern)
  | indent
  | dedent
  | endOfFile
  | error (error : ErrorKind)
  deriving DecidableEq, Repr

namespace Rule

/-- All rules, in the order of their names below. -/
def all : List Rule :=
  [.characterLiteral, .stringLiteral, .verbatimStringLiteral, .integerLiteral, .floatLiteral,
   .lowerIdentifier, .upperIdentifier, .dummyIdentifier, .whiteSpace, .lineFeed, .comment]

/-- The name of the kind that a rule accepts. -/
def name : Rule → Text
  | .characterLiteral => "CHARACTER_LITERAL".toList
  | .stringLiteral => "STRING_LITERAL".toList
  | .verbatimStringLiteral => "VERBATIM_STRING_LITERAL".toList
  | .integerLiteral => "INTEGER_LITERAL".toList
  | .floatLiteral => "FLOAT_LITERAL".toList
  | .lowerIdentifier => "IDENTIFIER".toList
  | .upperIdentifier => "UPPER_IDENTIFIER".toList
  | .dummyIdentifier => "DUMMY_IDENTIFIER".toList
  | .whiteSpace => "WHITE_SPACE".toList
  | .lineFeed => "END_OF_LINE".toList
  | .comment => "COMMENT".toList

/-- Whether the rule accepts text without meaning. -/
def isTrivia : Rule → Bool
  | .whiteSpace | .lineFeed | .comment => true
  | _ => false

end Rule

namespace ErrorKind

/-- All error kinds. -/
def all : List ErrorKind := [.identifier, .character, .literal, .number, .indentation]

/-- The name of an error kind. -/
def name : ErrorKind → Text
  | .identifier => "ERR_IDENTIFIER".toList
  | .character => "ERR_CHARACTER".toList
  | .literal => "ERR_LITERAL".toList
  | .number => "ERR_NUMBER".toList
  | .indentation => "ERR_INDENTATION".toList

end ErrorKind

namespace Pattern

/-- The name of the kind that a pattern accepts. -/
def name : Pattern → Text
  | .rule r => r.name
  | .keyword k => k.name
  | .symbol s => s.name

end Pattern

namespace TokenKind

/-- The name of a kind. -/
def name : TokenKind → Text
  | .lexical p => p.name
  | .indent => "INDENT".toList
  | .dedent => "DEDENT".toList
  | .endOfFile => "EOF".toList
  | .error e => e.name

/-- The kinds whose names are neither those of keywords nor of symbols. -/
def named : List TokenKind :=
  Rule.all.map (fun r => .lexical (.rule r)) ++ [.indent, .dedent, .endOfFile] ++
    ErrorKind.all.map .error

/-- The kind that has a name.  Only the names of keywords leave a choice of case. -/
def ofName? (name : Text) : Option TokenKind :=
  (named.find? fun kind => kind.name == name).or
    (((Keyword.ofName? name).map fun k => .lexical (.keyword k)).or
      ((Symbol.ofName? name).map fun s => .lexical (.symbol s)))

/-- The pattern that accepts the lexemes of a kind; there is none for synthetic and error
kinds. -/
def pattern? : TokenKind → Option Pattern
  | .lexical p => some p
  | _ => none

/-- Whether tokens of this kind have an empty lexeme. -/
def isSynthetic : TokenKind → Bool
  | .indent | .dedent | .endOfFile | .error .indentation => true
  | _ => false

/-- Whether tokens of this kind carry no meaning. -/
def isTrivia : TokenKind → Bool
  | .lexical (.rule r) => r.isTrivia
  | _ => false

/-- Whether tokens of this kind stand for something malformed. -/
def isError : TokenKind → Bool
  | .error _ => true
  | _ => false

/-- Whether tokens of this kind are layout: the beginning or end of a block, or a failed
attempt at one. -/
def isLayout : TokenKind → Bool
  | .indent | .dedent | .error .indentation => true
  | _ => false

end TokenKind

/-- A lexeme with its kind and its place. -/
structure Token where
  kind : TokenKind
  lexeme : Text
  span : Span
  deriving DecidableEq, Repr

namespace Token

/-- The token of a lexeme that begins at a place. -/
def ofLexeme (kind : TokenKind) (p : Position) (lexeme : Text) : Token :=
  ⟨kind, lexeme, .ofText p lexeme⟩

/-- A token without a lexeme. -/
def synthetic (kind : TokenKind) (p : Position) : Token := ofLexeme kind p []

/-- Whether the token carries no meaning. -/
def isTrivia (t : Token) : Bool := t.kind.isTrivia

end Token

/-- The text that tokens stand for: their lexemes one after the other. -/
def lexemes (tokens : List Token) : Text := tokens.flatMap Token.lexeme

@[simp] theorem lexemes_nil : lexemes [] = [] := rfl

@[simp] theorem lexemes_cons (t : Token) (tokens : List Token) :
    lexemes (t :: tokens) = t.lexeme ++ lexemes tokens := rfl

@[simp] theorem lexemes_append (ts us : List Token) :
    lexemes (ts ++ us) = lexemes ts ++ lexemes us :=
  List.flatMap_append

end LayoutLexer

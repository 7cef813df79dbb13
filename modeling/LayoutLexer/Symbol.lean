import LayoutLexer.Text

/-! # Symbols

Punctuation and operators.  Twelve operators also exist in a circled form, between parentheses,
and in a boxed form, between brackets.  No two symbols are written alike, but many begin with
another symbol, so which one stands at a place is decided by length.
-/
namespace LayoutLexer

/-- An operator that has a circled and a boxed form. -/
inductive FramedOperator where
  | eq | lt | gt | leq | geq | neq | cross | plus | minus | multiply | divide | dot
  deriving DecidableEq, Repr

namespace FramedOperator

/-- All operators with framed forms, in the order in which the lexicon tries them. -/
def all : List FramedOperator :=
  [.eq, .lt, .gt, .leq, .geq, .neq, .cross, .plus, .minus, .multiply, .divide, .dot]

/-- How the operator is written between its brackets. -/
def text : FramedOperator → Text
  | .eq => ['=']
  | .lt => ['<']
  | .gt => ['>']
  | .leq => ['<', '=']
  | .geq => ['>', '=']
  | .neq => ['<', '>']
  | .cross => ['>', '<']
  | .plus => ['+']
  | .minus => ['-']
  | .multiply => ['*']
  | .divide => ['/']
  | .dot => ['.']

/-- The operator's part of a framed symbol's name. -/
def name : FramedOperator → Text
  | .eq => "EQ".toList
  | .lt => "LT".toList
  | .gt => "GT".toList
  | .leq => "LEQ".toList
  | .geq => "GEQ".toList
  | .neq => "NEQ".toList
  | .cross => "CROSS".toList
  | .plus => "PLUS".toList
  | .minus => "MINUS".toList
  | .multiply => "MULTIPLY".toList
  | .divide => "DIVIDE".toList
  | .dot => "DOT".toList

end FramedOperator

/-- A punctuation mark or an operator. -/
inductive Symbol where
  | leftParenthesis | rightParenthesis | leftBracket | rightBracket | leftBrace | rightBrace
  | comma | colon | dot | dotDot | ellipsis | rightArrow | semicolon | commercialAt
  | exclamationMark | ampersand | percent | dollar | eq | lt | gt | leq | geq | neq | assign
  | cross | plus | minus | multiply | divide | plusAssign | minusAssign | multiplyAssign
  | divideAssign | exponent
  | circled (operator : FramedOperator)
  | boxed (operator : FramedOperator)
  | parentheses | brackets | braces
  deriving DecidableEq, Repr

namespace Symbol

/-- All symbols, in the order in which the lexicon tries them. -/
def all : List Symbol :=
  [.leftParenthesis, .rightParenthesis, .leftBracket, .rightBracket, .leftBrace, .rightBrace,
  .comma, .colon, .dot, .dotDot, .ellipsis, .rightArrow, .semicolon, .commercialAt,
  .exclamationMark, .ampersand, .percent, .dollar, .eq, .lt, .gt, .leq, .geq, .neq, .assign,
  .cross, .plus, .minus, .multiply, .divide, .plusAssign, .minusAssign, .multiplyAssign,
  .divideAssign, .exponent] ++
    FramedOperator.all.map .circled ++ FramedOperator.all.map .boxed ++
      [.parentheses, .brackets, .braces]

/-- How a symbol is written. -/
def text : Symbol → Text
  | .leftParenthesis => ['(']
  | .rightParenthesis => [')']
  | .leftBracket => ['[']
  | .rightBracket => [']']
  | .leftBrace => ['{']
  | .rightBrace => ['}']
  | .comma => [',']
  | .colon => [':']
  | .dot => ['.']
  | .dotDot => ['.', '.']
  | .ellipsis => ['.', '.', '.']
  | .rightArrow => ['-', '>']
  | .semicolon => [';']
  | .commercialAt => ['@']
  | .exclamationMark => ['!']
  | .ampersand => ['&']
  | .percent => ['%']
  | .dollar => ['$']
  | .eq => ['=']
  | .lt => ['<']
  | .gt => ['>']
  | .leq => ['<', '=']
  | .geq => ['>', '=']
  | .neq => ['<', '>']
  | .assign => [':', '=']
  | .cross => ['>', '<']
  | .plus => ['+']
  | .minus => ['-']
  | .multiply => ['*']
  | .divide => ['/']
  | .plusAssign => ['+', '=']
  | .minusAssign => ['-', '=']
  | .multiplyAssign => ['*', '=']
  | .divideAssign => ['/', '=']
  | .exponent => ['^']
  | .circled o => '(' :: (o.text ++ [')'])
  | .boxed o => '[' :: (o.text ++ [']'])
  | .parentheses => ['(', ')']
  | .brackets => ['[', ']']
  | .braces => ['{', '}']

/-- The name of a symbol; symbols without a use yet are named as reserved. -/
def name : Symbol → Text
  | .leftParenthesis => "LEFT_PARENTHESIS".toList
  | .rightParenthesis => "RIGHT_PARENTHESIS".toList
  | .leftBracket => "LEFT_BRACKET".toList
  | .rightBracket => "RIGHT_BRACKET".toList
  | .leftBrace => "LEFT_BRACE".toList
  | .rightBrace => "RIGHT_BRACE".toList
  | .comma => "COMMA".toList
  | .colon => "COLON".toList
  | .dot => "DOT".toList
  | .dotDot => "DOTDOT".toList
  | .ellipsis => "ELLIPSIS".toList
  | .rightArrow => "RIGHT_ARROW".toList
  | .semicolon => "RESERVED_SEMICOLON".toList
  | .commercialAt => "RESERVED_COMMERCIAL_AT".toList
  | .exclamationMark => "RESERVED_EXCLAMATION_MARK".toList
  | .ampersand => "RESERVED_AMPERSAND".toList
  | .percent => "RESERVED_PERCENT".toList
  | .dollar => "RESERVED_DOLLAR".toList
  | .eq => "OP_EQ".toList
  | .lt => "OP_LT".toList
  | .gt => "OP_GT".toList
  | .leq => "OP_LEQ".toList
  | .geq => "OP_GEQ".toList
  | .neq => "OP_NEQ".toList
  | .assign => "OP_ASSIGN".toList
  | .cross => "OP_CROSS".toList
  | .plus => "OP_PLUS".toList
  | .minus => "OP_MINUS".toList
  | .multiply => "OP_MULTIPLY".toList
  | .divide => "OP_DIVIDE".toList
  | .plusAssign => "OP_PLUS_ASSIGN".toList
  | .minusAssign => "OP_MINUS_ASSIGN".toList
  | .multiplyAssign => "OP_MULTIPLY_ASSIGN".toList
  | .divideAssign => "OP_DIVIDE_ASSIGN".toList
  | .exponent => "OP_EXPONENT".toList
  | .circled o => "OP_CIRCLED_".toList ++ o.name
  | .boxed o => "OP_BOXED_".toList ++ o.name
  | .parentheses => "OP_PARENTHESES".toList
  | .brackets => "OP_BRACKETS".toList
  | .braces => "OP_BRACES".toList

/-- The symbol that has a name. -/
def ofName? (name : Text) : Option Symbol := all.find? fun symbol => symbol.name == name

/-- The symbol that is written so. -/
def ofText? (t : Text) : Option Symbol := all.find? fun symbol => symbol.text == t

theorem mem_all (s : Symbol) : s ∈ all := by
  cases s with
  | circled o => cases o <;> decide
  | boxed o => cases o <;> decide
  | _ => decide

theorem ofName?_name (s : Symbol) : ofName? s.name = some s := by
  cases s with
  | circled o => cases o <;> decide
  | boxed o => cases o <;> decide
  | _ => decide

theorem ofText?_text (s : Symbol) : ofText? s.text = some s := by
  cases s with
  | circled o => cases o <;> decide
  | boxed o => cases o <;> decide
  | _ => decide

/-- No two symbols are written alike. -/
theorem text_injective {s t : Symbol} (h : s.text = t.text) : s = t :=
  Option.some.inj (by rw [← ofText?_text s, h, ofText?_text t])

end Symbol
end LayoutLexer

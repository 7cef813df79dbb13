import LayoutLexer.Rule
import LayoutLexer.Text.Quoted
import LayoutLexer.Token

/-! # The lexicon

Every pattern has a recognizer, and the lexicon lists the patterns by priority.  At a place of
a text all patterns are tried and the longest match wins; of equally long ones the earliest
pattern wins.  So a reserved word is a keyword and not an identifier, while a longer word that
begins like a keyword is an identifier.
-/
namespace LayoutLexer

/-- The recognizer of a rule. -/
def Rule.recognizer : Rule → Recognizer
  | .characterLiteral => Literal.character
  | .stringLiteral => Literal.string
  | .verbatimStringLiteral => Literal.verbatim
  | .integerLiteral => Number.integer
  | .floatLiteral => Number.float
  | .lowerIdentifier => Identifier.lower
  | .upperIdentifier => Identifier.upper
  | .dummyIdentifier => Identifier.dummy
  | .whiteSpace => Trivia.whiteSpace
  | .lineFeed => Trivia.lineFeed
  | .comment => Trivia.comment

namespace Pattern

/-- The only text a pattern accepts, if it accepts only one. -/
def text? : Pattern → Option Text
  | .rule _ => none
  | .keyword k => some k.text
  | .symbol s => some s.text

/-- The recognizer of a pattern. -/
def recognizer : Pattern → Recognizer
  | .rule r => r.recognizer
  | .keyword k => Recognizer.exactly k.text
  | .symbol s => Recognizer.exactly s.text

/-- The number of bytes that a pattern accepts at the front of a text. -/
def matchLength? (p : Pattern) (s : Text) : Option Nat :=
  (p.recognizer s).map fun (m, _) => m.byteLength

/-- Whether a pattern accepts a text as a whole. -/
def accepts (p : Pattern) (t : Text) : Bool := p.matchLength? t == some t.byteLength

/-- The name of a pattern, with the text of one that accepts only that. -/
def description (p : Pattern) : Text :=
  "Pattern(".toList ++ p.name ++
    (match p.text? with
      | none => []
      | some t => " = ".toList ++ t.quoted) ++ [')']

/-- Whether lexemes of this pattern must end where a word ends. -/
def isWord : Pattern → Bool
  | .keyword _ => true
  | .rule .lowerIdentifier | .rule .upperIdentifier | .rule .dummyIdentifier => true
  | _ => false

/-- Whether lexemes of this pattern are numbers. -/
def isNumber : Pattern → Bool
  | .rule .integerLiteral | .rule .floatLiteral => true
  | _ => false

end Pattern

/-- A pattern with the part of a text that it accepts and the rest. -/
structure Match where
  pattern : Pattern
  lexeme : Text
  rest : Text
  deriving DecidableEq, Repr

namespace Lexicon

/-- All patterns by priority: literals, numbers, keywords, identifiers, trivia, symbols. -/
def patterns : List Pattern :=
  [.rule .characterLiteral, .rule .stringLiteral, .rule .verbatimStringLiteral,
   .rule .integerLiteral, .rule .floatLiteral] ++
    Keyword.all.map .keyword ++
      [.rule .lowerIdentifier, .rule .upperIdentifier, .rule .dummyIdentifier,
       .rule .whiteSpace, .rule .lineFeed, .rule .comment] ++
        Symbol.all.map .symbol

/-- The nonempty match of a pattern at the front of a text. -/
def matchOf? (s : Text) (p : Pattern) : Option Match :=
  match p.recognizer s with
  | some (c :: m, rest) => some ⟨p, c :: m, rest⟩
  | _ => none

/-- The better of the best match so far and the next one, which has to be longer. -/
def better (best : Option Match) (next : Match) : Option Match :=
  match best with
  | none => some next
  | some m => if m.lexeme.length < next.lexeme.length then some next else some m

/-- The longest match at the front of a text, the earliest of equally long ones. -/
def longestMatch (s : Text) : Option Match :=
  (patterns.filterMap (matchOf? s)).foldl better none

/-! ## What a match is -/

theorem splits_recognizer (p : Pattern) : p.recognizer.Splits := by
  cases p with
  | rule r =>
    cases r with
    | characterLiteral => exact Literal.splits_character
    | stringLiteral => exact Literal.splits_string
    | verbatimStringLiteral => exact Literal.splits_verbatim
    | integerLiteral => exact Number.splits_integer
    | floatLiteral => exact Number.splits_float
    | lowerIdentifier => exact Identifier.splits_lower
    | upperIdentifier => exact Identifier.splits_upper
    | dummyIdentifier => exact Identifier.splits_dummy
    | whiteSpace => exact Trivia.splits_whiteSpace
    | lineFeed => exact Trivia.splits_lineFeed
    | comment => exact Trivia.splits_comment
  | keyword k => exact Recognizer.splits_exactly _
  | symbol s => exact Recognizer.splits_exactly _

theorem matchOf?_eq_some_iff {s : Text} {p : Pattern} {m : Match} :
    matchOf? s p = some m ↔
      p.recognizer s = some (m.lexeme, m.rest) ∧ m.pattern = p ∧ m.lexeme ≠ [] := by
  obtain ⟨q, l, r⟩ := m
  unfold matchOf?
  split
  · next c m rest h =>
    simp only [Option.some.injEq, Match.mk.injEq, h, Prod.mk.injEq]
    constructor
    · rintro ⟨rfl, rfl, rfl⟩; simp
    · rintro ⟨⟨rfl, rfl⟩, rfl, _⟩; simp
  · next h =>
    simp only [reduceCtorEq, false_iff]
    rintro ⟨hs, rfl, hl⟩
    cases l with
    | nil => exact hl rfl
    | cons c l => exact h c l r hs

theorem better_eq_or (best : Option Match) (next : Match) :
    better best next = best ∨ better best next = some next := by
  unfold better
  split
  · exact .inr rfl
  · split
    · exact .inr rfl
    · exact .inl rfl

theorem foldl_better_mem {ms : List Match} {best : Option Match} {m : Match}
    (h : ms.foldl better best = some m) : best = some m ∨ m ∈ ms := by
  induction ms generalizing best with
  | nil => exact .inl h
  | cons n ms ih =>
    rcases ih h with h | h
    · rcases better_eq_or best n with hb | hb
      · exact .inl (hb ▸ h)
      · rw [hb] at h
        cases h
        exact .inr List.mem_cons_self
    · exact .inr (List.mem_cons_of_mem _ h)

/-- The longest match is the match of one of the patterns. -/
theorem matchOf?_of_longestMatch {s : Text} {m : Match} (h : longestMatch s = some m) :
    m.pattern ∈ patterns ∧ matchOf? s m.pattern = some m := by
  rcases foldl_better_mem h with h | h
  · cases h
  · obtain ⟨p, hp, hm⟩ := List.mem_filterMap.1 h
    obtain ⟨_, rfl, _⟩ := matchOf?_eq_some_iff.1 hm
    exact ⟨hp, hm⟩

theorem longestMatch_append {s : Text} {m : Match} (h : longestMatch s = some m) :
    m.lexeme ++ m.rest = s :=
  splits_recognizer _ (matchOf?_eq_some_iff.1 (matchOf?_of_longestMatch h).2).1

theorem longestMatch_ne_nil {s : Text} {m : Match} (h : longestMatch s = some m) :
    m.lexeme ≠ [] :=
  (matchOf?_eq_some_iff.1 (matchOf?_of_longestMatch h).2).2.2

end Lexicon
end LayoutLexer

import LayoutLexer.Lexicon
import LayoutLexer.Proofs.Grammar.Literal
import LayoutLexer.Proofs.Grammar.Number

/-! # The words of the patterns

Every pattern of the lexicon has a language, and its recognizer takes the longest word of it
(`Pattern.takesLongest`).  The languages of two patterns have no word in common, except that a
keyword is written like a lower identifier (`Pattern.eq_of_mem_words`): most patterns are told
apart by the first character of their words (`Lead`), strings from verbatim strings by the third
one, and integers from floats by the characters only one of them has.
-/
namespace LayoutLexer

open scoped Computability
open CharClass Recognizer Words

/-! ## Identifiers -/

namespace Identifier

/-- An underscore and a run. -/
def joinedRunWords : Language Char := oneOf (· == '_') * someOf isIdentifierContinue

/-- A letter, a run and joined runs. -/
def beginningWithWords (isStart : Char → Bool) : Language Char :=
  oneOf isStart * (anyOf isIdentifierContinue * joinedRunWords∗)

/-- Joined runs, or the underscore alone. -/
def dummyWords : Language Char := joinedRunWords * joinedRunWords∗ + {['_']}

theorem begins_joinedRunWords : Begins (· == '_') joinedRunWords := begins_oneOf.mul

theorem takesLongest_joinedRun : TakesLongest joinedRun joinedRunWords :=
  (takesLongest_char _).andThen (takesLongest_run1 _) prefixFree_oneOf.separated

/-- An underscore does not continue an identifier, so runs do not flow into each other. -/
theorem separated_joinedRunWords : Separated joinedRunWords joinedRunWords :=
  Separated.mul prefixFree_oneOf
    (separated_of_only only_someOf begins_joinedRunWords.heads (ne_of_class (by decide)))

theorem takesLongest_joinedRuns : TakesLongest joinedRuns joinedRunWords∗ :=
  takesLongest_joinedRun.many_of_separated _ begins_joinedRunWords.nil_notMem
    separated_joinedRunWords

theorem takesLongest_beginningWith (isStart : Char → Bool) :
    TakesLongest (beginningWith isStart) (beginningWithWords isStart) := by
  refine (takesLongest_char _).andThen ?_ prefixFree_oneOf.separated
  refine (takesLongest_run _).andThen takesLongest_joinedRuns ?_
  exact separated_of_only only_anyOf begins_joinedRunWords.heads.kstar (ne_of_class (by decide))

theorem takesLongest_dummy : TakesLongest dummy dummyWords := by
  refine (takesLongest_joinedRun.andThen takesLongest_joinedRuns ?_).orElse
    (takesLongest_exactly _) ?_
  · refine Separated.mul prefixFree_oneOf ?_
    exact separated_of_only only_someOf begins_joinedRunWords.heads.kstar (ne_of_class (by decide))
  · -- joined runs are longer than the underscore alone
    rintro _ v ⟨_, ⟨_, ⟨c, _, rfl⟩, y, ⟨hne, _⟩, rfl⟩, b, _, rfl⟩ hv
    have := congrArg List.length (show ([c] ++ y) ++ b ++ v = ['_'] from hv)
    have hpos := List.length_pos_iff.2 hne
    simp only [List.length_append, List.length_singleton] at this
    omega

end Identifier

/-! ## Trivia -/

namespace Trivia

/-- Runs of spaces and tabs. -/
def whiteSpaceWords : Language Char := someOf isHorizontalSpace

/-- The three line breaks. -/
def lineFeedWords : Language Char := {['\r', '\n']} + ({['\r']} + {['\n']})

/-- A number sign and characters of one line. -/
def commentWords : Language Char := oneOf (· == '#') * anyOf fun c => !isLineBreak c

theorem takesLongest_lineFeed : TakesLongest lineFeed lineFeedWords := by
  refine (takesLongest_exactly _).orElse
    ((takesLongest_exactly _).orElse (takesLongest_exactly _) ?_) ?_
  · rintro _ v rfl hv
    cases hv
  · rintro _ v rfl (hv | hv) <;> cases hv

theorem takesLongest_comment : TakesLongest comment commentWords :=
  (takesLongest_char _).andThen (takesLongest_run _) prefixFree_oneOf.separated

end Trivia

/-! ## Patterns -/

/-- The words of a rule. -/
def Rule.words : Rule → Language Char
  | .characterLiteral => Literal.characterWords
  | .stringLiteral => Literal.stringWords
  | .verbatimStringLiteral => Literal.verbatimWords
  | .integerLiteral => Number.integerWords
  | .floatLiteral => Number.floatWords
  | .lowerIdentifier => Identifier.beginningWithWords isLowerStart
  | .upperIdentifier => Identifier.beginningWithWords isUpperStart
  | .dummyIdentifier => Identifier.dummyWords
  | .whiteSpace => Trivia.whiteSpaceWords
  | .lineFeed => Trivia.lineFeedWords
  | .comment => Trivia.commentWords

namespace Pattern

/-- The words of a pattern. -/
def words : Pattern → Language Char
  | .rule r => r.words
  | .keyword k => {k.text}
  | .symbol s => {s.text}

/-- The recognizer of a pattern takes the longest of its words. -/
theorem takesLongest (p : Pattern) : TakesLongest p.recognizer p.words := by
  cases p with
  | rule r =>
    cases r with
    | characterLiteral => exact Literal.takesLongest_character
    | stringLiteral => exact Literal.takesLongest_string
    | verbatimStringLiteral => exact Literal.takesLongest_verbatim
    | integerLiteral => exact Number.takesLongest_integer
    | floatLiteral => exact Number.takesLongest_float
    | lowerIdentifier => exact Identifier.takesLongest_beginningWith _
    | upperIdentifier => exact Identifier.takesLongest_beginningWith _
    | dummyIdentifier => exact Identifier.takesLongest_dummy
    | whiteSpace => exact takesLongest_run1 _
    | lineFeed => exact Trivia.takesLongest_lineFeed
    | comment => exact Trivia.takesLongest_comment
  | keyword k => exact takesLongest_exactly _
  | symbol s => exact takesLongest_exactly _

/-- A pattern accepts its words and nothing else. -/
theorem accepts_iff {p : Pattern} {t : Text} : p.accepts t = true ↔ t ∈ p.words := by
  rw [p.takesLongest.mem_iff, accepts, matchLength?, beq_iff_eq, Option.map_eq_some_iff]
  constructor
  · rintro ⟨⟨m, rest⟩, hr, hlen⟩
    have happ := p.takesLongest.splits hr
    have hrest : rest = [] := by
      rw [← Text.byteLength_eq_zero_iff]
      have := congrArg Text.byteLength happ
      rw [Text.byteLength_append] at this
      dsimp only at hlen
      omega
    rw [hrest, List.append_nil] at happ
    rw [hr, happ, hrest]
  · intro hr
    exact ⟨_, hr, rfl⟩

end Pattern

/-! ## First characters -/

/-- What the first character of a word tells about its pattern. -/
inductive Lead where
  | quote | doubleQuote | digit | upper | lower | underscore | space | lineBreak | numberSign
  | other
  deriving DecidableEq, Repr

namespace Lead

/-- What a first character tells. -/
def ofChar (c : Char) : Lead :=
  if c = '\'' then .quote
  else if c = '"' then .doubleQuote
  else if c = '_' then .underscore
  else if c = '#' then .numberSign
  else if isHorizontalSpace c then .space
  else if isLineBreak c then .lineBreak
  else if isDecimalDigit c then .digit
  else if isUpperStart c then .upper
  else if isAlphabetic c then .lower
  else .other

/-- What the words of a pattern begin with. -/
def ofPattern : Pattern → Lead
  | .rule .characterLiteral => .quote
  | .rule .stringLiteral | .rule .verbatimStringLiteral => .doubleQuote
  | .rule .integerLiteral | .rule .floatLiteral => .digit
  | .rule .lowerIdentifier | .keyword _ => .lower
  | .rule .upperIdentifier => .upper
  | .rule .dummyIdentifier => .underscore
  | .rule .whiteSpace => .space
  | .rule .lineFeed => .lineBreak
  | .rule .comment => .numberSign
  | .symbol _ => .other

/-- A character of a class without special characters is told by digits and letters. -/
theorem ofChar_of_class {p : Char → Bool}
    (h : ['\'', '"', '_', '#', ' ', '\t', '\r', '\n'].all (fun d => !p d) = true) {c : Char}
    (hc : p c = true) :
    ofChar c =
      if isDecimalDigit c then .digit
      else if isUpperStart c then .upper
      else if isAlphabetic c then .lower
      else .other := by
  have hne {d : Char} (hd : d ∈ ['\'', '"', '_', '#', ' ', '\t', '\r', '\n']) : c ≠ d :=
    beq_eq_false_iff_ne.1 (ne_of_class (by simpa using List.all_eq_true.1 h d hd) c hc)
  have hspace : isHorizontalSpace c = false := by
    simp [isHorizontalSpace, hne]
  have hbreak : isLineBreak c = false := by
    simp [isLineBreak, hne]
  rw [ofChar, if_neg (hne (by simp)), if_neg (hne (by simp)), if_neg (hne (by simp)),
    if_neg (hne (by simp)), hspace, hbreak]
  rfl

/-- Decimal digits stand before all letters. -/
theorem not_letter_of_isDecimalDigit {c : Char} (h : isDecimalDigit c = true) :
    isAlphabetic c = false ∧ isUpperStart c = false := by
  have hlast : c.toNat ≤ 57 := (isDecimalDigit_iff.1 h).2
  have hlt : c.toNat < 0x41 := by omega
  exact ⟨Unicode.RangeTable.covers_of_lt hlt, Unicode.RangeTable.covers_of_lt hlt⟩

theorem ofChar_of_isDecimalDigit {c : Char} (h : isDecimalDigit c = true) :
    ofChar c = .digit := by
  rw [ofChar_of_class rfl h, if_pos h]

theorem ofChar_of_isUpperStart {c : Char} (h : isUpperStart c = true) : ofChar c = .upper := by
  have hdigit : ¬ isDecimalDigit c = true := by
    intro hd
    rw [(not_letter_of_isDecimalDigit hd).2] at h
    cases h
  rw [ofChar_of_class rfl h, if_neg hdigit, if_pos h]

theorem ofChar_of_isLowerStart {c : Char} (h : isLowerStart c = true) : ofChar c = .lower := by
  obtain ⟨halpha, hupper⟩ : isAlphabetic c = true ∧ isUpperStart c = false := by
    simpa [isLowerStart] using h
  have hdigit : ¬ isDecimalDigit c = true := by
    intro hd
    rw [(not_letter_of_isDecimalDigit hd).1] at halpha
    cases halpha
  rw [ofChar_of_class rfl h, if_neg hdigit, hupper, if_pos halpha]
  rfl

theorem ofChar_of_isHorizontalSpace {c : Char} (h : isHorizontalSpace c = true) :
    ofChar c = .space := by
  rw [isHorizontalSpace, Bool.or_eq_true, beq_iff_eq, beq_iff_eq] at h
  rcases h with rfl | rfl <;> rfl

end Lead

namespace Pattern

theorem lead_of_begins {p : Char → Bool} {L : Language Char} {l : Lead} (hL : Begins p L)
    (hp : ∀ c, p c = true → Lead.ofChar c = l) {t : Text} (ht : t ∈ L) :
    t.head?.map Lead.ofChar = some l := by
  obtain ⟨c, u, rfl, hc⟩ := hL ht
  exact congrArg some (hp c hc)

/-- The first character of a word tells the pattern's lead. -/
theorem lead_of_mem_words {p : Pattern} {t : Text} (ht : t ∈ p.words) :
    t.head?.map Lead.ofChar = some (Lead.ofPattern p) := by
  have hchar (d c : Char) (h : (c == d) = true) : Lead.ofChar c = Lead.ofChar d := by
    rw [eq_of_beq h]
  cases p with
  | rule r =>
    cases r with
    | characterLiteral | stringLiteral | comment =>
      exact lead_of_begins begins_oneOf.mul (hchar _) ht
    | verbatimStringLiteral =>
      obtain ⟨_, rfl, b, _, rfl⟩ := ht
      rfl
    | integerLiteral =>
      exact lead_of_begins Number.begins_integerWords (fun _ => Lead.ofChar_of_isDecimalDigit) ht
    | floatLiteral =>
      exact lead_of_begins Number.begins_floatWords (fun _ => Lead.ofChar_of_isDecimalDigit) ht
    | lowerIdentifier =>
      exact lead_of_begins begins_oneOf.mul (fun _ => Lead.ofChar_of_isLowerStart) ht
    | upperIdentifier =>
      exact lead_of_begins begins_oneOf.mul (fun _ => Lead.ofChar_of_isUpperStart) ht
    | dummyIdentifier =>
      rcases ht with ht | rfl
      · exact lead_of_begins Identifier.begins_joinedRunWords.mul (hchar _) ht
      · rfl
    | whiteSpace =>
      exact lead_of_begins begins_someOf (fun _ => Lead.ofChar_of_isHorizontalSpace) ht
    | lineFeed => rcases ht with rfl | rfl | rfl <;> rfl
  | keyword k =>
    obtain rfl : t = k.text := ht
    cases k <;> decide
  | symbol s =>
    obtain rfl : t = s.text := ht
    cases s with
    | circled o => rfl
    | boxed o => rfl
    | _ => decide

theorem ne_nil_of_mem_words {p : Pattern} {t : Text} (ht : t ∈ p.words) : t ≠ [] := by
  rintro rfl
  cases lead_of_mem_words ht

/-! ## Words in common -/

/-- Rules whose words begin alike are the same, two of strings or two of numbers. -/
theorem rule_cases {r r' : Rule} (h : Lead.ofPattern (.rule r) = Lead.ofPattern (.rule r')) :
    r = r' ∨ r = .stringLiteral ∧ r' = .verbatimStringLiteral ∨
      r = .verbatimStringLiteral ∧ r' = .stringLiteral ∨
      r = .integerLiteral ∧ r' = .floatLiteral ∨ r = .floatLiteral ∧ r' = .integerLiteral := by
  revert h
  cases r <;> cases r' <;> decide

theorem eq_of_lead_quote {p : Pattern} (h : Lead.ofPattern p = .quote) :
    p = .rule .characterLiteral := by
  cases p with
  | rule r => cases r <;> first | rfl | cases h
  | keyword k => cases h
  | symbol s => cases h

theorem eq_of_lead_doubleQuote {p : Pattern} (h : Lead.ofPattern p = .doubleQuote) :
    p = .rule .stringLiteral ∨ p = .rule .verbatimStringLiteral := by
  cases p with
  | rule r => cases r <;> first | exact .inl rfl | exact .inr rfl | cases h
  | keyword k => cases h
  | symbol s => cases h

theorem eq_of_lead_digit {p : Pattern} (h : Lead.ofPattern p = .digit) :
    p = .rule .integerLiteral ∨ p = .rule .floatLiteral := by
  cases p with
  | rule r => cases r <;> first | exact .inl rfl | exact .inr rfl | cases h
  | keyword k => cases h
  | symbol s => cases h

theorem exists_symbol_of_lead {p : Pattern} (h : Lead.ofPattern p = .other) :
    ∃ s, p = .symbol s := by
  cases p with
  | rule r => cases r <;> cases h
  | keyword k => cases h
  | symbol s => exact ⟨s, rfl⟩

/-- A word of two rules is a word of one. -/
theorem eq_of_mem_rule_words {r r' : Rule} {t : Text} (ht : t ∈ r.words) (ht' : t ∈ r'.words) :
    r = r' := by
  have hlead : Lead.ofPattern (.rule r) = Lead.ofPattern (.rule r') :=
    Option.some.inj ((lead_of_mem_words (p := .rule r) ht).symm.trans
      (lead_of_mem_words (p := .rule r') ht'))
  rcases rule_cases hlead with h | ⟨rfl, rfl⟩ | ⟨rfl, rfl⟩ | ⟨rfl, rfl⟩ | ⟨rfl, rfl⟩
  · exact h
  · exact absurd ht (Literal.verbatimWords_notMem_stringWords ht')
  · exact absurd ht' (Literal.verbatimWords_notMem_stringWords ht)
  · exact absurd ht (Number.floatWords_notMem_integerWords ht')
  · exact absurd ht' (Number.floatWords_notMem_integerWords ht)

/-- A keyword is written like a lower identifier. -/
theorem keyword_mem_lower_words (k : Keyword) :
    k.text ∈ (Pattern.rule .lowerIdentifier).words := by
  have hletters : k.text.head?.any isLowerStart = true ∧
      k.text.tail.all isIdentifierContinue = true := by
    cases k <;> decide
  obtain ⟨hhead, htail⟩ := hletters
  cases heq : k.text with
  | nil =>
    rw [heq] at hhead
    cases hhead
  | cons c t =>
    rw [heq] at hhead htail
    exact ⟨[c], ⟨c, hhead, rfl⟩, t ++ [],
      ⟨t, List.all_eq_true.1 htail, [], Language.nil_mem_kstar _, rfl⟩, by simp⟩

/-- **Two patterns have no word in common, except that a keyword is a lower identifier.** -/
theorem eq_of_mem_words {p q : Pattern} {t : Text} (hp : t ∈ p.words) (hq : t ∈ q.words) :
    p = q ∨ (∃ k, p = .keyword k) ∧ q = .rule .lowerIdentifier ∨
      p = .rule .lowerIdentifier ∧ ∃ k, q = .keyword k := by
  have hlead : Lead.ofPattern p = Lead.ofPattern q :=
    Option.some.inj ((lead_of_mem_words hp).symm.trans (lead_of_mem_words hq))
  cases p with
  | rule r =>
    cases q with
    | rule r' => exact .inl (congrArg _ (eq_of_mem_rule_words hp hq))
    | keyword k => cases r <;> first | exact .inr (.inr ⟨rfl, k, rfl⟩) | cases hlead
    | symbol s => cases r <;> cases hlead
  | keyword k =>
    cases q with
    | rule r => cases r <;> first | exact .inr (.inl ⟨⟨k, rfl⟩, rfl⟩) | cases hlead
    | keyword k' => exact .inl (congrArg _ (Keyword.text_injective (hp.symm.trans hq)))
    | symbol s => cases hlead
  | symbol s =>
    cases q with
    | rule r => cases r <;> cases hlead
    | keyword k => cases hlead
    | symbol s' => exact .inl (congrArg _ (Symbol.text_injective (hp.symm.trans hq)))

end Pattern
end LayoutLexer

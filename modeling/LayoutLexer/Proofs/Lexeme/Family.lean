import LayoutLexer.Proofs.Lexeme.Number
import LayoutLexer.Proofs.Lexeme.Word

/-! # Families of lexemes

The first character of a text tells the family of the lexeme there, whatever follows it: words,
numbers, literals, the three kinds of trivia and symbols begin differently, and a malformed lexeme
belongs to the family that it begins like.  A character at which no family begins is a lexeme of
its own, and an invalid one (`Scanner.emits_family`).

All patterns are tried everywhere, so this needs two things of them.  What a pattern accepts begins
like the family of the pattern (`Family.begins_of_mem_words`); for upper identifiers this says that
every uppercase letter is a letter.  And what begins like a family has a match, so that recovery
decides about the end of a lexeme and never about its family.
-/
namespace LayoutLexer

open CharClass Words

/-! ## First characters -/

/-- A family of lexemes. -/
inductive Family where
  | word | number | literal | whiteSpace | lineBreak | comment | symbol
  deriving DecidableEq, Repr

namespace Family

/-- The characters at which the lexemes of a family begin. -/
def Begins (c : Char) : Family → Prop
  | .word => isAlphabetic c = true ∨ c = '_'
  | .number => isDecimalDigit c = true
  | .literal => c = '\'' ∨ c = '"'
  | .whiteSpace => c = ' ' ∨ c = '\t'
  | .lineBreak => c = '\r' ∨ c = '\n'
  | .comment => c = '#'
  | .symbol => ∃ s : Symbol, s.text.head? = some c

/-- The family of a pattern. -/
def ofPattern : Pattern → Family
  | .rule .characterLiteral | .rule .stringLiteral | .rule .verbatimStringLiteral => .literal
  | .rule .integerLiteral | .rule .floatLiteral => .number
  | .rule .lowerIdentifier | .rule .upperIdentifier | .rule .dummyIdentifier => .word
  | .rule .whiteSpace => .whiteSpace
  | .rule .lineFeed => .lineBreak
  | .rule .comment => .comment
  | .keyword _ => .word
  | .symbol _ => .symbol

/-- The family of a kind, if its lexemes belong to one. -/
def ofKind? : TokenKind → Option Family
  | .lexical p => some (ofPattern p)
  | .error .identifier => some .word
  | .error .number => some .number
  | .error .literal => some .literal
  | _ => none

theorem ofPattern_of_isWord {p : Pattern} (h : p.isWord = true) : ofPattern p = .word := by
  cases p with
  | rule r => cases r <;> first | rfl | cases h
  | keyword k => rfl
  | symbol s => cases h

variable {c : Char} {u : Text}

/-- What a pattern accepts begins like its family. -/
theorem begins_of_mem_words {p : Pattern} (h : c :: u ∈ p.words) : (ofPattern p).Begins c := by
  have hlower (hc : isLowerStart c = true) : isAlphabetic c = true := by
    rw [isLowerStart, Bool.and_eq_true] at hc
    exact hc.1
  have hfirst {d : Char} {L : Language Char} (h : c :: u ∈ oneOf (· == d) * L) : c = d := by
    obtain ⟨_, _, heq⟩ := mem_char_mul_iff.1 h
    exact (List.cons.inj heq).1
  cases p with
  | rule r =>
    cases r with
    | characterLiteral => exact .inl (hfirst h)
    | stringLiteral => exact .inr (hfirst h)
    | verbatimStringLiteral =>
      obtain ⟨y, hy⟩ := Literal.exists_of_mem_verbatimWords h
      exact .inr (List.cons.inj hy).1
    | integerLiteral => exact Number.begins_integerWords.heads h
    | floatLiteral => exact Number.begins_floatWords.heads h
    | lowerIdentifier => exact .inl (hlower (begins_oneOf.mul.heads h))
    | upperIdentifier => exact .inl (isAlphabetic_of_isUpperStart (begins_oneOf.mul.heads h))
    | dummyIdentifier =>
      right
      rcases h with h | h
      · exact eq_of_beq (Identifier.begins_joinedRunWords.mul.heads h)
      · exact (List.cons.inj h).1
    | whiteSpace =>
      have hc : isHorizontalSpace c = true := begins_someOf.heads h
      exact (by simpa [isHorizontalSpace] using hc : c = ' ' ∨ c = '\t')
    | lineFeed =>
      rcases h with h | h | h
      · exact .inl (List.cons.inj h).1
      · exact .inl (List.cons.inj h).1
      · exact .inr (List.cons.inj h).1
    | comment => exact hfirst h
  | keyword k =>
    have hmem := Pattern.keyword_mem_lower_words k
    rw [← show c :: u = k.text from h] at hmem
    exact .inl (hlower (begins_oneOf.mul.heads hmem))
  | symbol s => exact ⟨s, congrArg List.head? (show s.text = c :: u from Eq.symm h)⟩

/-- The longest match begins like its family. -/
theorem begins_of_longestMatch {m : Match} {rest : Text}
    (hm : Lexicon.longestMatch (c :: rest) = some m) : (ofPattern m.pattern).Begins c := by
  have hmem := Lexeme.mem_words_of_longestMatch hm
  have happ := Lexicon.longestMatch_append hm
  cases hlexeme : m.lexeme with
  | nil => exact absurd hlexeme (Lexicon.longestMatch_ne_nil hm)
  | cons d u =>
    rw [hlexeme] at hmem happ
    rw [← (List.cons.inj happ).1]
    exact begins_of_mem_words hmem

end Family

/-- The first character of a symbol is a symbol itself. -/
theorem Symbol.exists_text_eq_head {s : Symbol} {c : Char} (h : s.text.head? = some c) :
    ∃ t : Symbol, t.text = [c] := by
  have hfirst : ∃ t ∈ all, t.text = s.text.head?.toList := by
    cases s with
    | circled o => exact ⟨.leftParenthesis, by decide, rfl⟩
    | boxed o => exact ⟨.leftBracket, by decide, rfl⟩
    | _ => decide
  obtain ⟨t, _, ht⟩ := hfirst
  exact ⟨t, by rw [ht, h]; rfl⟩

namespace Lexeme

open Identifier Lexicon

variable {c : Char} {rest : Text}

/-! ## What each family is read as -/

/-- Where a letter or an underscore stands, a word matches. -/
theorem exists_match_of_beginsWord (hc : BeginsWord c) (rest : Text) :
    ∃ m, longestMatch (c :: rest) = some m := by
  have hname {isStart : Char → Bool} (h : isStart c = true) : IsName isStart [c] :=
    ⟨c, [], [], h, nofun, nofun, rfl⟩
  have hword : ∃ p : Pattern, [c] ∈ p.words := by
    rcases hc with hc | rfl
    · by_cases hupper : isUpperStart c = true
      · exact ⟨.rule .upperIdentifier, mem_beginningWithWords_iff.2 (hname hupper)⟩
      · have hlower : isLowerStart c = true := by simp [isLowerStart, hc, hupper]
        exact ⟨.rule .lowerIdentifier, mem_beginningWithWords_iff.2 (hname hlower)⟩
    · exact ⟨.rule .dummyIdentifier, mem_dummyWords_iff.2 (.inl rfl)⟩
  obtain ⟨p, hp⟩ := hword
  exact exists_match_of_first hp rest

theorem exists_opening?_of_quote (hc : c = '\'' ∨ c = '"') (rest : Text) :
    ∃ kind, LiteralKind.opening? (c :: rest) = some kind := by
  rcases hc with rfl | rfl
  · exact ⟨.character, rfl⟩
  · by_cases htriple : Literal.tripleQuote <+: '"' :: rest
    · exact ⟨.verbatim, opening?_eq_verbatim_iff.2 htriple⟩
    · exact ⟨.string, opening?_of_not_triple htriple⟩

/-- Where a symbol begins, the lexeme is a symbol. -/
theorem kind_read_of_symbol {s : Symbol} (hs : s.text.head? = some c) (rest : Text) :
    ∃ t : Symbol, (read c rest).kind = .lexical (.symbol t) := by
  obtain ⟨t, ht⟩ := Symbol.exists_text_eq_head hs
  have hmem : [c] ∈ (Pattern.symbol t).words := ht.symm
  have hlead : Lead.ofChar c = .other := Option.some.inj (Pattern.lead_of_mem_words hmem)
  have hopen : LiteralKind.opening? (c :: rest) = none := by
    apply opening?_eq_none <;> rintro rfl <;> cases hlead
  obtain ⟨m, hm⟩ := exists_match_of_first hmem rest
  obtain ⟨u, hu⟩ := Pattern.exists_symbol_of_lead ((lead_of_longestMatch hm).trans hlead)
  refine ⟨u, ?_⟩
  rw [read_of_plain hopen hm (by rw [hu]; rfl) (by rw [hu]; rfl), ← hu]
  rfl

/-- Of the symbols at the front of the text the lexeme is the longest. -/
theorem kind_read_eq_symbol_iff {s : Symbol} :
    (read c rest).kind = .lexical (.symbol s) ↔
      s.text <+: c :: rest ∧
        ∀ t : Symbol, t.text <+: c :: rest → t.text.length ≤ s.text.length := by
  have hforward {s : Symbol} (h : (read c rest).kind = .lexical (.symbol s)) :
      s.text <+: c :: rest ∧
        ∀ t : Symbol, t.text <+: c :: rest → t.text.length ≤ s.text.length := by
    have htext : (read c rest).text = s.text := mem_words_of_kind_read h
    obtain ⟨m, hm, hread, _⟩ := exists_match_of_kind_read h
    refine ⟨⟨(read c rest).rest, by rw [← htext]; exact (fronts_read c rest).1⟩, ?_⟩
    intro t ht
    obtain ⟨n, hn, hle⟩ := le_longestMatch (p := .symbol t) rfl ht
    cases hm.symm.trans hn
    rwa [← htext, hread]
  constructor
  · exact hforward
  · rintro ⟨hfront, hlongest⟩
    have hhead : s.text.head? = some c := by
      cases heq : s.text with
      | nil => exact absurd heq (Pattern.ne_nil_of_mem_words (p := .symbol s) rfl)
      | cons d u =>
        rw [heq] at hfront
        exact congrArg some (List.cons_prefix_cons.1 hfront).1
    obtain ⟨t, ht⟩ := kind_read_of_symbol hhead rest
    obtain ⟨hfront', hlongest'⟩ := hforward ht
    have hlength := Nat.le_antisymm (hlongest' s hfront) (hlongest t hfront')
    have hsame : s.text = t.text :=
      (List.prefix_of_prefix_length_le hfront hfront' hlength.le).eq_of_length hlength
    rw [ht, Symbol.text_injective hsame]

/-- Where a family begins, the lexeme belongs to it. -/
theorem ofKind?_read_of_begins {f : Family} (hf : f.Begins c) (rest : Text) :
    Family.ofKind? (read c rest).kind = some f := by
  cases f with
  | word =>
    rcases kind_read_of_beginsWord hf rest with ⟨p, hword, hp, _⟩ | ⟨herror, _⟩
    · rw [hp, Family.ofKind?, Family.ofPattern_of_isWord hword]
    · rw [herror]
      rfl
  | number => rcases (readsNumber_read hf rest).kind with h | h | h <;> rw [h] <;> rfl
  | literal =>
    obtain ⟨kind, hopen⟩ := exists_opening?_of_quote hf rest
    rcases kind_read_of_opening? hopen with h | h
    · rw [h]
      cases kind <;> rfl
    · rw [h]
      rfl
  | whiteSpace =>
    have hc : c = ' ' ∨ c = '\t' := hf
    rw [kind_read_eq_whiteSpace_iff.2 (by simpa [isHorizontalSpace] using hc)]
    rfl
  | lineBreak =>
    have hc : c = '\r' ∨ c = '\n' := hf
    rw [kind_read_eq_lineFeed_iff.2 (by simpa [isLineBreak] using hc)]
    rfl
  | comment =>
    rw [kind_read_eq_comment_iff.2 hf]
    rfl
  | symbol =>
    obtain ⟨s, hs⟩ := hf
    obtain ⟨t, ht⟩ := kind_read_of_symbol hs rest
    rw [ht]
    rfl

/-- An invalid character begins no family. -/
theorem not_begins_of_invalid (h : (read c rest).kind = .error .character) (f : Family) :
    ¬ f.Begins c := by
  intro hf
  have hkind := ofKind?_read_of_begins hf rest
  rw [h] at hkind
  cases hkind

/-- Where no family begins, the lexeme is the character alone. -/
theorem read_of_no_family (h : ∀ f : Family, ¬ f.Begins c) :
    read c rest = invalidCharacter c rest := by
  have hopen : LiteralKind.opening? (c :: rest) = none :=
    opening?_eq_none (fun hc => h .literal (.inr hc)) (fun hc => h .literal (.inl hc))
  have hletter : ¬ (isAlphabetic c || c == '_') = true := by
    intro hc
    exact h .word (by simpa using hc : isAlphabetic c = true ∨ c = '_')
  rw [read, hopen]
  dsimp only
  rw [unquoted]
  cases hm : longestMatch (c :: rest) with
  | some m => exact absurd (Family.begins_of_longestMatch hm) (h _)
  | none => exact if_neg hletter

/-! ## Which family it is -/

/-- What the lexeme at a character is. -/
structure ReadsFamily (l : Lexeme) (c : Char) (rest : Text) : Prop where
  family : ∀ f, Family.ofKind? l.kind = some f ↔ f.Begins c
  /-- It is an invalid character in every other case. -/
  invalid : l.kind = .error .character ↔ ∀ f : Family, ¬ f.Begins c
  /-- An invalid character stands alone. -/
  alone : l.kind = .error .character → l.text = [c] ∧ l.rest = rest
  /-- White space is all of it that stands here. -/
  whiteSpace : l.kind = .lexical (.rule .whiteSpace) →
    l.text = (c :: rest).takeWhile isHorizontalSpace ∧
      l.rest = (c :: rest).dropWhile isHorizontalSpace
  /-- A comment goes on up to a line break or the end. -/
  comment : l.kind = .lexical (.rule .comment) →
    l.text = (c :: rest).takeWhile (fun d => !isLineBreak d) ∧
      l.rest = (c :: rest).dropWhile (fun d => !isLineBreak d)
  /-- A symbol is the longest one that stands here. -/
  symbol : ∀ s : Symbol, l.kind = .lexical (.symbol s) ↔
    s.text <+: c :: rest ∧ ∀ t : Symbol, t.text <+: c :: rest → t.text.length ≤ s.text.length
  symbolText : ∀ s : Symbol, l.kind = .lexical (.symbol s) → l.text = s.text

theorem readsFamily_read (c : Char) (rest : Text) : (read c rest).ReadsFamily c rest where
  family f := by
    constructor
    · intro h
      by_contra hno
      by_cases hany : ∃ g : Family, g.Begins c
      · -- the lexeme would belong to two families
        obtain ⟨g, hg⟩ := hany
        rw [ofKind?_read_of_begins hg rest] at h
        cases h
        exact hno hg
      · rw [read_of_no_family fun g hg => hany ⟨g, hg⟩] at h
        cases h
    · intro hf
      exact ofKind?_read_of_begins hf rest
  invalid := by
    constructor
    · exact not_begins_of_invalid
    · intro h
      rw [read_of_no_family h]
      rfl
  alone := by
    intro h
    rw [read_of_no_family (not_begins_of_invalid h)]
    exact ⟨rfl, rfl⟩
  whiteSpace := text_of_whiteSpace
  comment := text_of_comment
  symbol _ := kind_read_eq_symbol_iff
  symbolText _ h := mem_words_of_kind_read h

end Lexeme

/-- **The first character decides the family**: whatever follows it, the scanner emits a lexeme of
the family that begins with it, or the character alone if there is none.  Where nothing matches no
word begins, so recovery has no word to take there. -/
theorem Scanner.emits_family {c : Char} {rest : Text} {s : Scanner} (hs : s.rest = c :: rest) :
    s.Emits (Lexeme.read c rest) ∧ (Lexeme.read c rest).ReadsFamily c rest ∧
      (Lexicon.longestMatch (c :: rest) = none → ¬ Family.word.Begins c) := by
  refine ⟨emits_read hs, Lexeme.readsFamily_read c rest, ?_⟩
  intro hnone hword
  obtain ⟨m, hm⟩ := Lexeme.exists_match_of_beginsWord hword rest
  rw [hnone] at hm
  cases hm

/-- A digit that is none of ASCII may continue a word but begins no family, so it stands alone,
though a letter follows. -/
theorem Scanner.emits_family_arabic_digit :
    let text : Text := ['\u0663', 'a']
    let l := Lexeme.read '\u0663' text.tail
    (ofText text).Emits l ∧ isWordChar '\u0663' = true ∧ (∀ f : Family, ¬ f.Begins '\u0663') ∧
      l.text = ['\u0663'] ∧ l.rest = ['a'] := by
  intro text l
  have hs : (ofText text).rest = '\u0663' :: text.tail := rfl
  obtain ⟨hemits, hreads, _⟩ := emits_family hs
  have hkind : l.kind = .error .character := by decide +kernel
  obtain ⟨htext, hrest⟩ := hreads.alone hkind
  exact ⟨hemits, by decide +kernel, hreads.invalid.1 hkind, htext, hrest⟩

end LayoutLexer

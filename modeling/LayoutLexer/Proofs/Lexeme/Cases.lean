import LayoutLexer.Proofs.Classification

/-! # What the lexeme at the front of a text can be

Reading a lexeme has six outcomes (`Lexeme.Reads`): the longest match as it is, a word that goes
on after its match, a number that runs into a word, a character that begins nothing, and the two
forms of a broken literal.  `Lexeme.reads` says that there are no others; what is proved of every
lexeme is proved of these six.

A kind that is a pattern can be told from the lexeme alone: it is a keyword if the lexeme is its
text, and a rule if the rule accepts the lexeme and no keyword does.  At an opening quote only the
rule of the opened literal matters: the lexeme is its match, or a broken literal where it has none.

The trivia are told by the first character of the text alone: a space or a tab begins white
space, a carriage return or a line feed a line break, and a number sign a comment.
-/
namespace LayoutLexer
namespace CharClass

/-- A character at which a word begins: a letter or an underscore. -/
def BeginsWord (c : Char) : Prop := isAlphabetic c = true ∨ c = '_'

theorem isWordChar_of_beginsWord {c : Char} (hc : BeginsWord c) : isWordChar c = true := by
  rcases hc with hc | rfl
  · rw [isAlphabetic] at hc
    simp [isWordChar, isIdentifierContinue, isAlphanumeric, hc]
  · rfl

end CharClass

namespace Lexeme

open CharClass Identifier Lexicon

/-- A number and the word that it runs into, as one malformed lexeme. -/
def malformedNumber (m : Match) : Lexeme :=
  malformed .number (m.lexeme ++ (wordRun m.rest).1) (wordRun m.rest).2
    (.malformedNumber (m.lexeme ++ (wordRun m.rest).1))

/-- The outcomes of reading the lexeme at the front of a text. -/
inductive Reads (c : Char) (rest : Text) : Lexeme → Prop
  /-- The longest match is the lexeme. -/
  | matched {m : Match} : longestMatch (c :: rest) = some m → Reads c rest (ofMatch m)
  /-- A word stands at the front and no pattern accepts all of it. -/
  | word : (wordRun (c :: rest)).1 ≠ [] → Reads c rest (malformedIdentifier (c :: rest))
  /-- The longest match is a number, and a word begins where it ends. -/
  | number {m : Match} : longestMatch (c :: rest) = some m → m.pattern.isNumber = true →
      (wordRun m.rest).1 ≠ [] → Reads c rest (malformedNumber m)
  /-- Nothing matches. -/
  | character : longestMatch (c :: rest) = none → Reads c rest (invalidCharacter c rest)
  /-- A triple quote opens a verbatim string that has no end. -/
  | verbatim : LiteralKind.opening? (c :: rest) = some .verbatim →
      (∀ m, longestMatch (c :: rest) = some m → m.pattern ≠ .rule .verbatimStringLiteral) →
      Reads c rest (brokenVerbatim (c :: rest))
  /-- A quote opens a literal of one line that its rule does not accept. -/
  | quoted {kind : LiteralKind} : kind ≠ .verbatim →
      LiteralKind.opening? (c :: rest) = some kind →
      (∀ m, longestMatch (c :: rest) = some m → m.pattern ≠ .rule kind.rule) →
      Reads c rest (brokenQuoted kind c rest)

variable {c : Char} {rest : Text}

theorem reads_literal {kind : LiteralKind} (hopen : LiteralKind.opening? (c :: rest) = some kind) :
    Reads c rest (literal kind c rest) := by
  have hbroken (hother : ∀ m, longestMatch (c :: rest) = some m → m.pattern ≠ .rule kind.rule) :
      Reads c rest (brokenLiteral kind c rest) := by
    cases kind with
    | verbatim => exact .verbatim hopen hother
    | string => exact .quoted (by decide) hopen hother
    | character => exact .quoted (by decide) hopen hother
  unfold literal
  cases hm : longestMatch (c :: rest) with
  | none => exact hbroken fun m h => by rw [hm] at h; cases h
  | some m =>
    dsimp only
    by_cases hrule : m.pattern = .rule kind.rule
    · rw [if_pos hrule]
      exact .matched hm
    · rw [if_neg hrule]
      refine hbroken fun n hn => ?_
      rw [hm] at hn
      cases hn
      exact hrule

theorem reads_word {m : Match} (hm : longestMatch (c :: rest) = some m) :
    Reads c rest (word (c :: rest) m) := by
  unfold word
  by_cases hlt : m.lexeme.length < (wordRun (c :: rest)).1.length
  · rw [if_pos hlt]
    refine .word ?_
    intro hnil
    rw [hnil] at hlt
    exact Nat.not_lt_zero _ hlt
  · rw [if_neg hlt]
    exact .matched hm

/-- A matched number is the lexeme, unless it runs into a word. -/
theorem number_eq (m : Match) :
    number m = if (wordRun m.rest).1 = [] then ofMatch m else malformedNumber m := by
  unfold number malformedNumber
  split
  · next hrun => rw [hrun, if_pos rfl]
  · next hne hrun => rw [hrun, if_neg hne]

theorem text_number (m : Match) : (number m).text = m.lexeme ++ (wordRun m.rest).1 := by
  rw [number_eq]
  split
  · next hnil => rw [hnil, List.append_nil]; rfl
  · rfl

theorem reads_number {m : Match} (hm : longestMatch (c :: rest) = some m)
    (hnumber : m.pattern.isNumber = true) : Reads c rest (number m) := by
  rw [number_eq]
  split
  · exact .matched hm
  · next hne => exact .number hm hnumber hne

/-- **Reading has no other outcomes.** -/
theorem reads (c : Char) (rest : Text) : Reads c rest (read c rest) := by
  unfold read
  cases hopen : LiteralKind.opening? (c :: rest) with
  | some kind => exact reads_literal hopen
  | none =>
    dsimp only
    unfold unquoted
    cases hm : longestMatch (c :: rest) with
    | some m =>
      dsimp only
      by_cases hword : m.pattern.isWord = true
      · rw [if_pos hword]
        exact reads_word hm
      · rw [if_neg hword]
        by_cases hnumber : m.pattern.isNumber = true
        · rw [if_pos hnumber]
          exact reads_number hm hnumber
        · rw [if_neg hnumber]
          exact .matched hm
    | none =>
      dsimp only
      by_cases hletter : (isAlphabetic c || c == '_') = true
      · rw [if_pos hletter]
        have hc : BeginsWord c := by simpa [BeginsWord] using hletter
        exact .word (wordRun_ne_nil (isWordChar_of_beginsWord hc))
      · rw [if_neg hletter]
        exact .character hm

/-- A lexeme whose kind is a pattern is the longest match. -/
theorem exists_match_of_kind_read {p : Pattern} (h : (read c rest).kind = .lexical p) :
    ∃ m, longestMatch (c :: rest) = some m ∧ read c rest = ofMatch m ∧ m.pattern = p := by
  rcases read_cases c rest with ⟨m, hm, hread⟩ | ⟨e, he, _⟩
  · rw [hread] at h
    cases h
    exact ⟨m, hm, hread, rfl⟩
  · rw [h] at he
    cases he

/-- Where a pattern accepts the first character, there is a match. -/
theorem exists_match_of_first {p : Pattern} (h : [c] ∈ p.words) (rest : Text) :
    ∃ m, longestMatch (c :: rest) = some m := by
  obtain ⟨m, hm, _⟩ := le_longestMatch h (s := c :: rest) ⟨rest, rfl⟩
  exact ⟨m, hm⟩

/-- What is left after the lexeme is what stands after it in the text. -/
theorem rest_read_of_text {t after : Text} (htext : (read c rest).text = t)
    (happ : c :: rest = t ++ after) : (read c rest).rest = after := by
  have hall := (fronts_read c rest).1
  rw [htext, happ] at hall
  exact List.append_cancel_left hall

/-- Where no literal opens, a match that is neither a word nor a number is the lexeme. -/
theorem read_of_plain {m : Match} (hopen : LiteralKind.opening? (c :: rest) = none)
    (hm : longestMatch (c :: rest) = some m) (hword : m.pattern.isWord = false)
    (hnumber : m.pattern.isNumber = false) : read c rest = ofMatch m := by
  rw [read, hopen]
  dsimp only
  rw [unquoted, hm]
  dsimp only
  rw [hword, hnumber]
  rfl

/-! ## The kind by the lexeme -/

theorem mem_words_of_kind_read {p : Pattern} (h : (read c rest).kind = .lexical p) :
    (read c rest).text ∈ p.words :=
  p.takesLongest.mem (recognizer_of_kind_read h)

/-- A pattern that accepts the lexeme gives its kind, unless the lexeme is a keyword. -/
theorem kind_read_of_mem_words {p : Pattern} (h : (read c rest).text ∈ p.words) :
    (read c rest).kind = .lexical p ∨
      (∃ k, (read c rest).kind = .lexical (.keyword k)) ∧ p = .rule .lowerIdentifier := by
  rcases kind_read c rest with ⟨q, hq⟩ | ⟨e, he, _⟩
  · obtain ⟨m, hm, hread, rfl⟩ := exists_match_of_kind_read hq
    rw [hread] at h
    rcases (accepts_longestMatch_iff hm p).1 (Pattern.accepts_iff.2 h) with rfl | ⟨⟨k, hk⟩, hp⟩
    · exact .inl hq
    · exact .inr ⟨⟨k, by rw [hq, hk]⟩, hp⟩
  · exact absurd h (notMem_words_of_error he p)

/-- The kind of a lexeme is a keyword just if the lexeme is its text. -/
theorem kind_read_eq_keyword_iff {k : Keyword} :
    (read c rest).kind = .lexical (.keyword k) ↔ (read c rest).text = k.text := by
  constructor
  · intro h
    exact mem_words_of_kind_read h
  · intro htext
    have hmem : (read c rest).text ∈ (Pattern.keyword k).words := htext
    rcases kind_read_of_mem_words hmem with h | ⟨_, h⟩
    · exact h
    · cases h

/-- The kind of a lexeme is a rule just if the rule accepts the lexeme and no keyword does. -/
theorem kind_read_eq_rule_iff {r : Rule} :
    (read c rest).kind = .lexical (.rule r) ↔
      (∀ k : Keyword, (read c rest).text ≠ k.text) ∧ (read c rest).text ∈ r.words := by
  constructor
  · intro h
    refine ⟨fun k hk => ?_, mem_words_of_kind_read h⟩
    rw [kind_read_eq_keyword_iff.2 hk] at h
    cases h
  · rintro ⟨hno, hmem⟩
    have hmem : (read c rest).text ∈ (Pattern.rule r).words := hmem
    rcases kind_read_of_mem_words hmem with h | ⟨⟨k, hk⟩, _⟩
    · exact h
    · exact absurd (kind_read_eq_keyword_iff.1 hk) (hno k)

/-! ## At an opening quote -/

/-- Only quotes open literals. -/
theorem opening?_eq_none (hdouble : c ≠ '"') (hsingle : c ≠ '\'') :
    LiteralKind.opening? (c :: rest) = none := by
  cases hopen : LiteralKind.opening? (c :: rest) with
  | none => rfl
  | some kind =>
    rcases quote_of_opening? hopen with h | h
    · exact absurd h hdouble
    · exact absurd h hsingle

section Opening

variable {kind : LiteralKind} {m after : Text}

/-- What the rule of a literal accepts at its opening quote is the longest match. -/
theorem longestMatch_of_opening? (hopen : LiteralKind.opening? (c :: rest) = some kind)
    (h : kind.rule.recognizer (c :: rest) = some (m, after)) :
    longestMatch (c :: rest) = some ⟨.rule kind.rule, m, after⟩ := by
  have hlongest := (Pattern.rule kind.rule).takesLongest
  have hmem : m ∈ (Pattern.rule kind.rule).words := hlongest.mem h
  obtain ⟨best, hbest, hle⟩ := le_longestMatch hmem ⟨after, hlongest.splits h⟩
  have hrule : best.pattern = .rule kind.rule := by
    rcases pattern_of_opening? hopen hbest with hrule | ⟨rfl, hlt⟩
    · exact hrule
    · -- a verbatim string is longer than two quotes
      obtain ⟨y, rfl⟩ := Literal.exists_of_mem_verbatimWords hmem
      rw [List.length_append, show Literal.tripleQuote.length = 3 from rfl] at hle
      omega
  obtain ⟨hr, _, _⟩ := matchOf?_eq_some_iff.1 (matchOf?_of_longestMatch hbest).2
  obtain ⟨pattern, lexeme, tail⟩ := best
  obtain rfl : pattern = .rule kind.rule := hrule
  cases h.symm.trans hr
  exact hbest

/-- Where the rule of the opened literal accepts, its match is the lexeme. -/
theorem read_of_accepted (hopen : LiteralKind.opening? (c :: rest) = some kind)
    (h : kind.rule.recognizer (c :: rest) = some (m, after)) :
    read c rest = ofMatch ⟨.rule kind.rule, m, after⟩ := by
  rw [read, hopen]
  dsimp only
  rw [literal, longestMatch_of_opening? hopen h]
  exact if_pos rfl

/-- Where it fails, the lexeme is what recovery takes. -/
theorem read_of_rejected (hopen : LiteralKind.opening? (c :: rest) = some kind)
    (h : kind.rule.recognizer (c :: rest) = none) :
    read c rest = brokenLiteral kind c rest := by
  rw [read, hopen]
  dsimp only
  rw [literal]
  cases hm : longestMatch (c :: rest) with
  | none => rfl
  | some best =>
    apply if_neg
    intro hrule
    have hr := (matchOf?_eq_some_iff.1 (matchOf?_of_longestMatch hm).2).1
    rw [hrule] at hr
    cases h.symm.trans hr

/-- The lexeme at an opening quote is the opened literal, or a broken one. -/
theorem kind_read_of_opening? (hopen : LiteralKind.opening? (c :: rest) = some kind) :
    (read c rest).kind = .lexical (.rule kind.rule) ∨ (read c rest).kind = .error .literal := by
  cases hr : kind.rule.recognizer (c :: rest) with
  | some split =>
    left
    rw [read_of_accepted hopen hr]
    rfl
  | none =>
    right
    rw [read_of_rejected hopen hr]
    cases kind <;> rfl

end Opening

/-! ## Trivia by the first character -/

/-- The kind of a lexeme tells the first character. -/
theorem lead_of_kind_read {p : Pattern} (h : (read c rest).kind = .lexical p) :
    Lead.ofChar c = Lead.ofPattern p := by
  obtain ⟨m, hm, _, rfl⟩ := exists_match_of_kind_read h
  exact (lead_of_longestMatch hm).symm

theorem rule_of_isTrivia {r : Rule} (h : r.isTrivia = true) :
    r = .whiteSpace ∨ r = .lineFeed ∨ r = .comment := by
  revert h
  cases r <;> decide

/-- The words of no other pattern begin like those of a rule for trivia. -/
theorem eq_rule_of_lead {r : Rule} (htrivia : r.isTrivia = true) {p : Pattern}
    (h : Lead.ofPattern p = Lead.ofPattern (.rule r)) : p = .rule r := by
  have hcases := rule_of_isTrivia htrivia
  cases p with
  | rule r' =>
    rcases Pattern.rule_cases h with heq | ⟨_, rfl⟩ | ⟨_, rfl⟩ | ⟨_, rfl⟩ | ⟨_, rfl⟩
    · rw [heq]
    all_goals cases htrivia
  | keyword k => rcases hcases with rfl | rfl | rfl <;> cases h
  | symbol s => rcases hcases with rfl | rfl | rfl <;> cases h

/-- A quote begins no trivia, so they open no literal. -/
theorem opening?_of_trivia {r : Rule} (htrivia : r.isTrivia = true)
    (h : Lead.ofChar c = Lead.ofPattern (.rule r)) :
    LiteralKind.opening? (c :: rest) = none := by
  apply opening?_eq_none
  · rintro rfl
    rcases rule_of_isTrivia htrivia with rfl | rfl | rfl <;> cases h
  · rintro rfl
    rcases rule_of_isTrivia htrivia with rfl | rfl | rfl <;> cases h

/-- A rule for trivia that accepts the first character gives the kind of the lexeme. -/
theorem kind_read_of_trivia {r : Rule} (htrivia : r.isTrivia = true)
    (hc : [c] ∈ (Pattern.rule r).words) : (read c rest).kind = .lexical (.rule r) := by
  have hlead : Lead.ofChar c = Lead.ofPattern (.rule r) :=
    Option.some.inj (Pattern.lead_of_mem_words hc)
  obtain ⟨m, hm⟩ := exists_match_of_first hc rest
  have hpattern : m.pattern = .rule r :=
    eq_rule_of_lead htrivia ((lead_of_longestMatch hm).trans hlead)
  have hplain : (Pattern.rule r).isWord = false ∧ (Pattern.rule r).isNumber = false := by
    rcases rule_of_isTrivia htrivia with rfl | rfl | rfl <;> exact ⟨rfl, rfl⟩
  rw [← hpattern] at hplain
  rw [read_of_plain (opening?_of_trivia htrivia hlead) hm hplain.1 hplain.2]
  exact congrArg TokenKind.lexical hpattern

/-- White space is what begins with a space or a tab. -/
theorem kind_read_eq_whiteSpace_iff :
    (read c rest).kind = .lexical (.rule .whiteSpace) ↔ isHorizontalSpace c = true := by
  constructor
  · intro h
    have hlead : Lead.ofChar c = .space := lead_of_kind_read h
    by_contra hne
    unfold Lead.ofChar at hlead
    rw [if_neg hne] at hlead
    split_ifs at hlead
  · intro hc
    exact kind_read_of_trivia rfl ⟨List.cons_ne_nil _ _, by simpa using hc⟩

/-- A line break is what begins with a carriage return or a line feed. -/
theorem kind_read_eq_lineFeed_iff :
    (read c rest).kind = .lexical (.rule .lineFeed) ↔ isLineBreak c = true := by
  constructor
  · intro h
    have hlead : Lead.ofChar c = .lineBreak := lead_of_kind_read h
    by_contra hne
    unfold Lead.ofChar at hlead
    rw [if_neg hne] at hlead
    split_ifs at hlead
  · intro hc
    refine kind_read_of_trivia rfl ?_
    rcases (by simpa [isLineBreak] using hc : c = '\r' ∨ c = '\n') with rfl | rfl
    · exact .inr (.inl rfl)
    · exact .inr (.inr rfl)

/-- A comment is what begins with a number sign. -/
theorem kind_read_eq_comment_iff :
    (read c rest).kind = .lexical (.rule .comment) ↔ c = '#' := by
  constructor
  · intro h
    have hlead : Lead.ofChar c = .numberSign := lead_of_kind_read h
    by_contra hne
    unfold Lead.ofChar at hlead
    rw [if_neg hne] at hlead
    split_ifs at hlead
  · rintro rfl
    exact kind_read_of_trivia rfl ⟨['#'], ⟨'#', rfl, rfl⟩, [], nofun, rfl⟩

/-- White space is as long as it can be. -/
theorem text_of_whiteSpace (h : (read c rest).kind = .lexical (.rule .whiteSpace)) :
    (read c rest).text = (c :: rest).takeWhile isHorizontalSpace ∧
      (read c rest).rest = (c :: rest).dropWhile isHorizontalSpace := by
  have hrun : Recognizer.run1 isHorizontalSpace (c :: rest) = some _ := recognizer_of_kind_read h
  obtain ⟨htext, hrest, _⟩ := Recognizer.run1_eq_some_iff.1 hrun
  exact ⟨htext, hrest⟩

/-- A comment goes on up to the end of its line. -/
theorem text_of_comment (h : (read c rest).kind = .lexical (.rule .comment)) :
    (read c rest).text = (c :: rest).takeWhile (fun d => !isLineBreak d) ∧
      (read c rest).rest = (c :: rest).dropWhile (fun d => !isLineBreak d) := by
  have hsign : c = '#' := kind_read_eq_comment_iff.1 h
  have hcomment : Trivia.comment (c :: rest) = some _ := recognizer_of_kind_read h
  rw [hsign] at hcomment ⊢
  have hrun : Trivia.comment ('#' :: rest) =
      some ('#' :: rest.takeWhile (fun d => !isLineBreak d),
        rest.dropWhile fun d => !isLineBreak d) := rfl
  rw [hrun] at hcomment
  obtain ⟨htext, hrest⟩ := Prod.mk.inj (Option.some.inj hcomment)
  exact ⟨htext.symm, hrest.symm⟩

end Lexeme
end LayoutLexer

import LayoutLexer.Proofs.Lexeme.Cases

/-! # Where lexemes hold line breaks

A lexeme lies within one line, unless it is a line break itself or a triple quote opens it
(`Lexeme.inline_read`).  For a well-formed lexeme this is a property of the words of its pattern
(`Pattern.inline_of_mem_words`); for a malformed one it is a property of recovery, which takes
word characters, one invalid character, or the pieces of a literal up to the end of its line.

A carriage return and the line feed after it are never the end of one lexeme and the beginning of
the next (`Lexeme.not_splitsBreak_read`), since the only lexemes that can end with a carriage
return are a line break, which would have taken the line feed too, and a verbatim string that
takes the whole text.
-/
namespace LayoutLexer

open scoped Computability
open CharClass Recognizer Words

/-- A text lies within one line. -/
def Text.Inline (t : Text) : Prop := ∀ c ∈ t, isLineBreak c = false

namespace Text

theorem inline_nil : Inline [] := List.forall_mem_nil _

theorem Inline.cons {c : Char} {t : Text} (hc : isLineBreak c = false) (ht : t.Inline) :
    Inline (c :: t) := by
  intro d hd
  rcases List.mem_cons.1 hd with rfl | hd
  · exact hc
  · exact ht d hd

theorem Inline.append {s t : Text} (hs : s.Inline) (ht : t.Inline) : Inline (s ++ t) := by
  intro c hc
  rcases List.mem_append.1 hc with hc | hc
  · exact hs c hc
  · exact ht c hc

theorem Inline.of_append_left {s t : Text} (h : Inline (s ++ t)) : s.Inline :=
  fun c hc => h c (List.mem_append_left _ hc)

theorem not_inline_of_mem {c : Char} {t : Text} (hc : c ∈ t) (hbreak : isLineBreak c = true) :
    ¬ t.Inline := by
  intro h
  rw [h c hc] at hbreak
  cases hbreak

theorem inline_takeWhile {p : Char → Bool} (hp : ∀ c, p c = true → isLineBreak c = false)
    (t : Text) : Inline (t.takeWhile p) :=
  fun c hc => hp c (List.mem_takeWhile_imp hc)

/-- A cut at this place would divide a carriage return from its line feed. -/
def SplitsBreak (before after : Text) : Prop :=
  before.getLast? = some '\r' ∧ after.head? = some '\n'

/-- Whether a cut divides a line break is decided by what stands right before it. -/
theorem splitsBreak_append_left {s t after : Text} (ht : t ≠ []) :
    SplitsBreak (s ++ t) after ↔ SplitsBreak t after := by
  rw [SplitsBreak, SplitsBreak, List.getLast?_append_of_ne_nil _ ht]

/-- Whether a cut divides a line break is decided by what stands right after it. -/
theorem splitsBreak_append_right {before s t : Text} (hs : s ≠ []) :
    SplitsBreak before (s ++ t) ↔ SplitsBreak before s := by
  obtain ⟨c, u, rfl⟩ := List.exists_cons_of_ne_nil hs
  exact Iff.rfl

theorem Inline.not_splitsBreak {s after : Text} (h : s.Inline) : ¬ SplitsBreak s after := by
  rintro ⟨hlast, _⟩
  cases h '\r' (List.mem_of_getLast? hlast)

end Text

/-- The words of the language lie within one line. -/
def InlineWords (L : Language Char) : Prop := ∀ ⦃t⦄, t ∈ L → Text.Inline t

namespace InlineWords

variable {p : Char → Bool} {L M : Language Char}

theorem of_only (h : Only p L) (hp : ∀ c, p c = true → isLineBreak c = false) : InlineWords L :=
  fun _ ht c hc => hp c (h ht c hc)

theorem add (hL : InlineWords L) (hM : InlineWords M) : InlineWords (L + M) := by
  rintro t (h | h)
  · exact hL h
  · exact hM h

theorem mul (hL : InlineWords L) (hM : InlineWords M) : InlineWords (L * M) := by
  rintro t ⟨a, ha, b, hb, rfl⟩
  exact (hL ha).append (hM hb)

theorem kstar (h : InlineWords L) : InlineWords L∗ := by
  rintro t ⟨parts, rfl, hparts⟩ c hc
  obtain ⟨a, ha, hc⟩ := List.mem_flatten.1 hc
  exact h (hparts a ha) c hc

theorem bind {M : Text → Language Char} (hL : InlineWords L) (hM : ∀ a, InlineWords (M a)) :
    InlineWords (Words.bind L M) := by
  rintro t ⟨a, ha, b, hb, rfl⟩
  exact (hL ha).append (hM a hb)

theorem one : InlineWords 1 := by
  intro t ht c hc
  rw [(Language.mem_one t).1 ht] at hc
  cases hc

end InlineWords

/-- A class without the two characters of line breaks has none that breaks a line. -/
theorem isLineBreak_of_class {p : Char → Bool} (hreturn : p '\r' = false) (hfeed : p '\n' = false)
    (c : Char) (hc : p c = true) : isLineBreak c = false := by
  rw [isLineBreak, ne_of_class hreturn c hc, ne_of_class hfeed c hc]
  rfl

/-! ## The words of the patterns -/

section Patterns

variable {p : Char → Bool} (hreturn : p '\r' = false) (hfeed : p '\n' = false)

include hreturn hfeed in
theorem inlineWords_oneOf : InlineWords (oneOf p) :=
  .of_only only_oneOf (isLineBreak_of_class hreturn hfeed)

include hreturn hfeed in
theorem inlineWords_someOf : InlineWords (someOf p) :=
  .of_only only_someOf (isLineBreak_of_class hreturn hfeed)

end Patterns

theorem Literal.isLineBreak_of_isPlain (quote c : Char) (h : isPlain quote c = true) :
    isLineBreak c = false := by
  simp only [isPlain, Bool.not_eq_true', Bool.or_eq_false_iff] at h
  exact h.2

theorem Literal.inlineWords_escapeTailWords : InlineWords escapeTailWords := by
  have hhex (width : Nat) : InlineWords (hexCodeWords width) :=
    (inlineWords_oneOf rfl rfl).mul
      ((InlineWords.of_only only_times (isLineBreak_of_class (by decide) (by decide))).mul
        (inlineWords_oneOf rfl rfl))
  have hname : InlineWords characterNameWords :=
    .of_only only_characterNameWords (isLineBreak_of_class (by decide) (by decide))
  exact (inlineWords_oneOf (by decide) (by decide)).add
    ((inlineWords_oneOf rfl rfl).mul ((hhex 6).add ((hhex 4).add
      ((hhex 2).add (hname.mul (inlineWords_oneOf rfl rfl))))))

theorem Literal.inlineWords_escapeWords : InlineWords escapeWords :=
  (inlineWords_oneOf rfl rfl).mul inlineWords_escapeTailWords

theorem Literal.inlineWords_characterWords : InlineWords characterWords :=
  (inlineWords_oneOf rfl rfl).mul ((inlineWords_escapeWords.add
    (.of_only only_oneOf (isLineBreak_of_isPlain _))).mul (inlineWords_oneOf rfl rfl))

theorem Literal.inlineWords_stringWords : InlineWords stringWords := by
  have hpart : InlineWords stringPartWords :=
    (InlineWords.of_only only_someOf (isLineBreak_of_isPlain _)).add inlineWords_escapeWords
  exact (inlineWords_oneOf rfl rfl).mul (hpart.kstar.mul (inlineWords_oneOf rfl rfl))

namespace Number

theorem inlineWords_digitGroupsWords {isDigit : Char → Bool} (hreturn : isDigit '\r' = false)
    (hfeed : isDigit '\n' = false) : InlineWords (digitGroupsWords isDigit) :=
  (inlineWords_someOf hreturn hfeed).mul
    ((inlineWords_oneOf rfl rfl).mul (inlineWords_someOf hreturn hfeed)).kstar

theorem inlineWords_decimalGroupsWords : InlineWords decimalGroupsWords :=
  inlineWords_digitGroupsWords (by decide) (by decide)

theorem inlineWords_magnitude : InlineWords (oneOf isMagnitude + 1) :=
  (inlineWords_oneOf (by decide) (by decide)).add .one

theorem inlineWords_digitsOfRadixWords (radix : Nat) :
    InlineWords (digitsOfRadixWords radix) := by
  unfold digitsOfRadixWords
  split
  · refine (inlineWords_digitGroupsWords rfl rfl).mul ?_
    split
    · exact inlineWords_magnitude
    · rintro _ rfl _ hc
      cases hc
  · exact fun _ h => absurd h (Language.notMem_zero _)

theorem inlineWords_integerWords : InlineWords integerWords := by
  have hradix : InlineWords radixIntegerWords :=
    (inlineWords_someOf (by decide) (by decide)).bind fun _ =>
      (inlineWords_oneOf rfl rfl).mul (inlineWords_digitsOfRadixWords _)
  exact hradix.add (inlineWords_decimalGroupsWords.mul inlineWords_magnitude)

theorem inlineWords_floatWords : InlineWords floatWords := by
  have hexponent : InlineWords exponentWords :=
    (inlineWords_oneOf rfl rfl).mul (((inlineWords_oneOf rfl rfl).add .one).mul
      (inlineWords_someOf (by decide) (by decide)))
  have hending : InlineWords floatEndingWords :=
    hexponent.add ((inlineWords_oneOf (by decide) (by decide)).add
      (inlineWords_oneOf (by decide) (by decide)))
  exact (inlineWords_decimalGroupsWords.mul ((inlineWords_oneOf rfl rfl).mul
      (inlineWords_decimalGroupsWords.mul (hending.add .one)))).add
    (inlineWords_decimalGroupsWords.mul (inlineWords_oneOf (by decide) (by decide)))

end Number

namespace Identifier

theorem inlineWords_joinedRunWords : InlineWords joinedRunWords :=
  (inlineWords_oneOf rfl rfl).mul (inlineWords_someOf (by decide) (by decide))

theorem inlineWords_beginningWithWords {isStart : Char → Bool} (hreturn : isStart '\r' = false)
    (hfeed : isStart '\n' = false) : InlineWords (beginningWithWords isStart) :=
  (inlineWords_oneOf hreturn hfeed).mul
    ((InlineWords.of_only only_anyOf (isLineBreak_of_class (by decide) (by decide))).mul
      inlineWords_joinedRunWords.kstar)

theorem inlineWords_dummyWords : InlineWords dummyWords := by
  refine (inlineWords_joinedRunWords.mul inlineWords_joinedRunWords.kstar).add ?_
  rintro _ rfl c hc
  rw [List.mem_singleton.1 hc]
  rfl

end Identifier

theorem Keyword.inline_text (k : Keyword) : k.text.Inline := by
  have hall : k.text.all (fun c => !isLineBreak c) = true := by cases k <;> decide
  intro c hc
  simpa using List.all_eq_true.1 hall c hc

theorem Symbol.inline_text (s : Symbol) : s.text.Inline := by
  have hall : s.text.all (fun c => !isLineBreak c) = true := by
    cases s with
    | circled o => cases o <;> decide
    | boxed o => cases o <;> decide
    | _ => decide
  intro c hc
  simpa using List.all_eq_true.1 hall c hc

/-- The words of a pattern lie within one line, but for line breaks and verbatim strings. -/
theorem Pattern.inline_of_mem_words {p : Pattern} (hfeed : p ≠ .rule .lineFeed)
    (hverbatim : p ≠ .rule .verbatimStringLiteral) {t : Text} (ht : t ∈ p.words) : t.Inline := by
  cases p with
  | rule r =>
    cases r with
    | characterLiteral => exact Literal.inlineWords_characterWords ht
    | stringLiteral => exact Literal.inlineWords_stringWords ht
    | verbatimStringLiteral => exact absurd rfl hverbatim
    | integerLiteral => exact Number.inlineWords_integerWords ht
    | floatLiteral => exact Number.inlineWords_floatWords ht
    | lowerIdentifier => exact Identifier.inlineWords_beginningWithWords (by decide) (by decide) ht
    | upperIdentifier => exact Identifier.inlineWords_beginningWithWords (by decide) (by decide) ht
    | dummyIdentifier => exact Identifier.inlineWords_dummyWords ht
    | whiteSpace => exact inlineWords_someOf rfl rfl ht
    | lineFeed => exact absurd rfl hfeed
    | comment =>
      have hrest : InlineWords (anyOf fun c => !isLineBreak c) :=
        .of_only only_anyOf fun c hc => by simpa using hc
      exact (inlineWords_oneOf rfl rfl).mul hrest ht
  | keyword k =>
    rw [show t = k.text from ht]
    exact k.inline_text
  | symbol s =>
    rw [show t = s.text from ht]
    exact s.inline_text

/-! ## Broken literals -/

namespace BrokenLiteral

variable {quote c : Char} {rest : Text}

theorem inline_invalidTail : (invalidTail quote rest).1.Inline := by
  cases rest with
  | nil => exact Text.inline_nil
  | cons d rest =>
    rw [invalidTail]
    split_ifs with hbreak hbrace
    · exact Text.inline_nil
    · have hopen : isLineBreak d = false := Bool.eq_false_iff.2 hbreak
      split
      · -- a brace ends the escape, and there is no line break before it
        have hinside : Text.Inline (rest.takeWhile (isInsideBraces quote)) := by
          refine Text.inline_takeWhile (fun e he => ?_) rest
          simp only [isInsideBraces, Bool.not_eq_true', Bool.or_eq_false_iff] at he
          exact he.2
        intro e he
        rcases List.mem_cons.1 he with rfl | he
        · exact hopen
        · rcases List.mem_append.1 he with he | he
          · exact hinside e he
          · rw [List.mem_singleton.1 he]
            rfl
      · intro e he
        rw [List.mem_singleton.1 he]
        exact hopen
    · intro e he
      rw [List.mem_singleton.1 he]
      exact Bool.eq_false_iff.2 hbreak

theorem inline_firstPiece (hc : isLineBreak c = false) :
    (firstPiece quote c rest).1.text.Inline := by
  unfold firstPiece
  by_cases hback : c = '\\'
  · rw [if_pos hback]
    cases htail : Literal.escapeTail rest with
    | some split =>
      exact Text.Inline.cons hc
        (Literal.inlineWords_escapeTailWords (Literal.takesLongest_escapeTail.mem htail))
    | none => exact Text.Inline.cons hc inline_invalidTail
  · rw [if_neg hback]
    exact Text.Inline.cons hc Text.inline_nil

/-- The pieces of a literal of one line lie within the line. -/
theorem inline_inside (quote : Char) (s : Text) : (walk quote s).inside.Inline := by
  fun_induction walk quote s with
  | case1 => exact Text.inline_nil
  | case2 c rest h => exact Text.inline_nil
  | case3 rest _ => exact Text.inline_nil
  | case4 c rest hbreak _ tail ih =>
    exact (inline_firstPiece (Bool.eq_false_iff.2 hbreak)).append ih

theorem inline_lexeme (hquote : isLineBreak quote = false) (s : Text) :
    ((walk quote s).lexeme quote).Inline := by
  intro c hc
  rcases List.mem_cons.1 hc with rfl | hc
  · exact hquote
  · rcases List.mem_append.1 hc with hc | hc
    · exact inline_inside quote s c hc
    · unfold Walk.closing at hc
      split at hc
      · rw [List.mem_singleton.1 hc]
        exact hquote
      · cases hc

end BrokenLiteral

/-! ## Lexemes -/

namespace Lexeme

open Identifier Lexicon

variable {c : Char} {rest : Text}

theorem inline_wordRun (s : Text) : (wordRun s).1.Inline :=
  Text.inline_takeWhile (isLineBreak_of_class (by decide) (by decide)) s

/-- The longest match lies within one line, or it is a line break, or a triple quote opens it. -/
theorem inline_match {m : Match} (hm : longestMatch (c :: rest) = some m) :
    m.pattern = .rule .lineFeed ∨ Literal.tripleQuote <+: m.lexeme ∨ m.lexeme.Inline := by
  have hmem := mem_words_of_longestMatch hm
  by_cases hfeed : m.pattern = .rule .lineFeed
  · exact .inl hfeed
  · right
    by_cases hverbatim : m.pattern = .rule .verbatimStringLiteral
    · left
      rw [hverbatim] at hmem
      obtain ⟨y, hy⟩ := Literal.exists_of_mem_verbatimWords hmem
      exact ⟨y, hy.symm⟩
    · exact .inr (Pattern.inline_of_mem_words hfeed hverbatim hmem)

theorem inline_of_isNumber {m : Match} (hm : longestMatch (c :: rest) = some m)
    (hnumber : m.pattern.isNumber = true) : m.lexeme.Inline := by
  refine Pattern.inline_of_mem_words ?_ ?_ (mem_words_of_longestMatch hm)
  · intro hfeed
    rw [hfeed] at hnumber
    cases hnumber
  · intro hverbatim
    rw [hverbatim] at hnumber
    cases hnumber

/-- **A lexeme lies within one line**, unless it is a line break or a triple quote opens it. -/
theorem inline_read (c : Char) (rest : Text) :
    (read c rest).endsLine = true ∨ Literal.tripleQuote <+: (read c rest).text ∨
      (read c rest).text.Inline := by
  have hreads := reads c rest
  generalize read c rest = l at hreads ⊢
  cases hreads with
  | matched hm =>
    rcases inline_match hm with hfeed | hinline
    · left
      rw [endsLine, ofMatch, hfeed]
      rfl
    · exact .inr hinline
  | word => exact .inr (.inr (inline_wordRun _))
  | number hm hnumber =>
    exact .inr (.inr ((inline_of_isNumber hm hnumber).append (inline_wordRun _)))
  | character hm =>
    right
    right
    intro d hd
    -- a character that breaks the line would have matched
    have hbreak : isLineBreak c = false := by
      rw [← Bool.not_eq_true, ← @kind_read_eq_lineFeed_iff c rest]
      intro hkind
      obtain ⟨m, hm', _⟩ := exists_match_of_kind_read hkind
      rw [hm] at hm'
      cases hm'
    rw [List.mem_singleton.1 hd]
    exact hbreak
  | verbatim hopen => exact .inr (.inl (opening?_eq_verbatim_iff.1 hopen))
  | quoted hkind hopen =>
    refine .inr (.inr (BrokenLiteral.inline_lexeme ?_ rest))
    rcases quote_of_opening? hopen with rfl | rfl <;> rfl

/-! ## Where lexemes end -/

/-- A carriage return alone is no line break where a line feed follows it. -/
theorem not_splitsBreak_lineFeed {m : Match} (hm : longestMatch (c :: rest) = some m)
    (hfeed : m.pattern = .rule .lineFeed) : ¬ Text.SplitsBreak m.lexeme m.rest := by
  rintro ⟨hlast, hhead⟩
  have hmem := mem_words_of_longestMatch hm
  rw [hfeed] at hmem
  obtain ⟨after, hafter⟩ := List.head?_eq_some_iff.1 hhead
  rcases hmem with hword | hword | hword <;> rw [show m.lexeme = _ from hword] at hlast
  · cases hlast
  · -- both characters stand at the front, and they are a longer match
    have happ := longestMatch_append hm
    rw [show m.lexeme = ['\r'] from hword, hafter] at happ
    have hpair : ['\r', '\n'] ∈ (Pattern.rule .lineFeed).words := .inl rfl
    obtain ⟨n, hn, hle⟩ := le_longestMatch hpair (s := c :: rest) ⟨after, happ⟩
    rw [hm] at hn
    cases hn
    rw [show m.lexeme = ['\r'] from hword] at hle
    exact absurd hle (by decide)
  · cases hlast

/-- A verbatim string ends with a quote. -/
theorem not_splitsBreak_verbatim {t after : Text} (ht : t ∈ Literal.verbatimWords) :
    ¬ Text.SplitsBreak t after := by
  rintro ⟨hlast, _⟩
  obtain ⟨_, _, b, ⟨⟨u, rfl⟩, _⟩, rfl⟩ := ht
  dsimp only at hlast
  rw [← List.append_assoc, List.getLast?_append] at hlast
  cases hlast

/-- **No lexeme ends between a carriage return and its line feed.** -/
theorem not_splitsBreak_read (c : Char) (rest : Text) :
    ¬ Text.SplitsBreak (read c rest).text (read c rest).rest := by
  have hreads := reads c rest
  have hinline := inline_read c rest
  generalize read c rest = l at hreads hinline ⊢
  cases hreads with
  | @matched m hm =>
    by_cases hfeed : m.pattern = .rule .lineFeed
    · exact not_splitsBreak_lineFeed hm hfeed
    · have hmem := mem_words_of_longestMatch hm
      by_cases hverbatim : m.pattern = .rule .verbatimStringLiteral
      · rw [hverbatim] at hmem
        exact not_splitsBreak_verbatim hmem
      · exact (Pattern.inline_of_mem_words hfeed hverbatim hmem).not_splitsBreak
  | word => exact (inline_wordRun _).not_splitsBreak
  | number hm hnumber =>
    exact ((inline_of_isNumber hm hnumber).append (inline_wordRun _)).not_splitsBreak
  | character =>
    rcases hinline with hends | ⟨after, hquote⟩ | hinline
    · cases hends
    · cases hquote
    · exact hinline.not_splitsBreak
  | verbatim =>
    rintro ⟨_, hhead⟩
    cases hhead
  | quoted _ hopen =>
    refine (BrokenLiteral.inline_lexeme ?_ rest).not_splitsBreak
    rcases quote_of_opening? hopen with rfl | rfl <;> rfl

end Lexeme
end LayoutLexer

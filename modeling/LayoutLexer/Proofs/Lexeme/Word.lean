import LayoutLexer.Proofs.Lexeme.Cases

/-! # Words

Where a letter or an underscore stands, the lexeme is the whole run of word characters, and what
kind it has depends on how this run is written and on nothing else (`Scanner.emits_word`).

Nothing that begins so matches beyond the run, because all patterns of words have word characters
only.  A pattern that matches less than the run does not count, since the lexeme is then malformed;
so the kind is that of a pattern which accepts the run, and of two such patterns the keyword.
-/
namespace LayoutLexer

open scoped Computability
open CharClass Words

/-! ## How identifiers are written -/

namespace Identifier

/-- A letter of a class and identifier characters, in runs joined by single underscores. -/
def IsName (isStart : Char → Bool) (w : Text) : Prop :=
  ∃ c run runs, isStart c = true ∧ (∀ d ∈ run, isIdentifierContinue d = true) ∧
    (∀ next ∈ runs, next ∈ someOf isIdentifierContinue) ∧ w = c :: (run ++ joined runs)

/-- One run or more, each after an underscore, or the underscore alone. -/
def IsDummy (w : Text) : Prop :=
  w = ['_'] ∨
    ∃ runs, runs ≠ [] ∧ (∀ next ∈ runs, next ∈ someOf isIdentifierContinue) ∧ w = joined runs

variable {isStart : Char → Bool} {w : Text}

theorem mem_beginningWithWords_iff : w ∈ beginningWithWords isStart ↔ IsName isStart w := by
  constructor
  · intro h
    obtain ⟨c, _, hc, ⟨run, hrun, _, hjoined, rfl⟩, rfl⟩ := mem_oneOf_mul_iff.1 h
    obtain ⟨runs, hruns, rfl⟩ := mem_kstar_iff_joined.1 hjoined
    exact ⟨c, run, runs, hc, hrun, hruns, rfl⟩
  · rintro ⟨c, run, runs, hc, hrun, hruns, rfl⟩
    exact mem_oneOf_mul_iff.2 ⟨c, run ++ joined runs, hc,
      ⟨run, hrun, joined runs, mem_kstar_iff_joined.2 ⟨runs, hruns, rfl⟩, rfl⟩, rfl⟩

theorem mem_dummyWords_iff : w ∈ dummyWords ↔ IsDummy w := by
  constructor
  · rintro (⟨first, hfirst, more, hmore, rfl⟩ | rfl)
    · obtain ⟨run, hrun, rfl⟩ := mem_char_mul_iff.1 hfirst
      obtain ⟨runs, hruns, rfl⟩ := mem_kstar_iff_joined.1 hmore
      exact .inr ⟨run :: runs, List.cons_ne_nil _ _, List.forall_mem_cons.2 ⟨hrun, hruns⟩, rfl⟩
    · exact .inl rfl
  · rintro (rfl | ⟨runs, hne, hruns, rfl⟩)
    · exact .inr rfl
    · cases runs with
      | nil => exact absurd rfl hne
      | cons run runs =>
        obtain ⟨hrun, hruns⟩ := List.forall_mem_cons.1 hruns
        exact .inl ⟨'_' :: run, mem_char_mul_iff.2 ⟨run, hrun, rfl⟩, joined runs,
          mem_kstar_iff_joined.2 ⟨runs, hruns, rfl⟩, rfl⟩

theorem only_joinedRunWords : Only isWordChar joinedRunWords :=
  (only_oneOf.mono fun c hc => by simp [isWordChar, eq_of_beq hc]).mul
    (only_someOf.mono fun c hc => by simp [isWordChar, hc])

/-- After its first letter an identifier has word characters only. -/
theorem isWordChar_of_mem_beginningWithWords {c d : Char} {u : Text}
    (h : c :: u ∈ beginningWithWords isStart) (hd : d ∈ u) : isWordChar d = true := by
  have htail : Only isWordChar (anyOf isIdentifierContinue * joinedRunWords∗) :=
    (only_anyOf.mono fun c hc => by simp [isWordChar, hc]).mul only_joinedRunWords.kstar
  obtain ⟨_, v, _, hv, heq⟩ := mem_oneOf_mul_iff.1 h
  obtain ⟨_, rfl⟩ := List.cons.inj heq
  exact htail hv d hd

theorem only_dummyWords : Only isWordChar dummyWords := by
  refine (only_joinedRunWords.mul only_joinedRunWords.kstar).add ?_
  rintro _ rfl d hd
  rw [List.mem_singleton.1 hd]
  rfl

end Identifier

/-! ## Where a word begins -/

variable {c : Char} {rest : Text}

/-- The leads of the characters at which a word begins. -/
theorem Lead.ofChar_of_beginsWord (hc : BeginsWord c) :
    Lead.ofChar c = .lower ∨ Lead.ofChar c = .upper ∨ Lead.ofChar c = .underscore := by
  rcases hc with hc | rfl
  · by_cases hupper : isUpperStart c = true
    · exact .inr (.inl (ofChar_of_isUpperStart hupper))
    · exact .inl (ofChar_of_isLowerStart (by simp [isLowerStart, hc, hupper]))
  · exact .inr (.inr rfl)

namespace Pattern

/-- Only the patterns of words begin with letters and underscores. -/
theorem isWord_of_lead {p : Pattern} (h : Lead.ofPattern p = .lower ∨
    Lead.ofPattern p = .upper ∨ Lead.ofPattern p = .underscore) : p.isWord = true := by
  cases p with
  | rule r =>
    revert h
    cases r <;> decide
  | keyword k => rfl
  | symbol s =>
    rcases h with h | h | h <;> cases h

/-- What a pattern of words accepts goes on with word characters. -/
theorem isWordChar_of_mem_words {p : Pattern} (hp : p.isWord = true) {u : Text}
    (h : c :: u ∈ p.words) : ∀ d ∈ u, isWordChar d = true := by
  intro d hd
  cases p with
  | rule r =>
    cases r with
    | lowerIdentifier => exact Identifier.isWordChar_of_mem_beginningWithWords h hd
    | upperIdentifier => exact Identifier.isWordChar_of_mem_beginningWithWords h hd
    | dummyIdentifier => exact Identifier.only_dummyWords h d (List.mem_cons_of_mem c hd)
    | _ => cases hp
  | keyword k =>
    -- a keyword is a lower identifier
    have hlower := keyword_mem_lower_words k
    rw [← show c :: u = k.text from h] at hlower
    exact Identifier.isWordChar_of_mem_beginningWithWords hlower hd
  | symbol s => cases hp

end Pattern

namespace Lexeme

open Identifier Lexicon

/-! ## The lexeme of a word -/

theorem opening?_of_beginsWord (hc : BeginsWord c) :
    LiteralKind.opening? (c :: rest) = none := by
  apply opening?_eq_none <;> rintro rfl <;> rcases hc with hc | hc <;> cases hc

/-- The longest match at a word is the front of the run. -/
theorem match_prefix_of_beginsWord (hc : BeginsWord c) {m : Match}
    (hm : longestMatch (c :: rest) = some m) :
    m.pattern.isWord = true ∧ m.lexeme <+: (wordRun (c :: rest)).1 := by
  have hword : m.pattern.isWord = true := by
    apply Pattern.isWord_of_lead
    rw [lead_of_longestMatch hm]
    exact Lead.ofChar_of_beginsWord hc
  have happ := longestMatch_append hm
  have hmem := mem_words_of_longestMatch hm
  refine ⟨hword, Recognizer.prefix_takeWhile ?_ ⟨m.rest, happ⟩⟩
  intro d hd
  cases hlexeme : m.lexeme with
  | nil => exact absurd hlexeme (longestMatch_ne_nil hm)
  | cons e u =>
    rw [hlexeme] at happ hmem hd
    obtain ⟨rfl, _⟩ := List.cons.inj happ
    rcases List.mem_cons.1 hd with rfl | hd
    · exact isWordChar_of_beginsWord hc
    · exact Pattern.isWordChar_of_mem_words hword hmem d hd

/-- The lexeme is the whole run, as a match or as a malformed identifier. -/
theorem read_of_beginsWord (hc : BeginsWord c) :
    (∃ m : Match, m.pattern.isWord = true ∧ m.lexeme = (wordRun (c :: rest)).1 ∧
        read c rest = ofMatch m) ∨
      read c rest = malformedIdentifier (c :: rest) := by
  rw [read, opening?_of_beginsWord hc]
  dsimp only
  unfold unquoted
  cases hm : longestMatch (c :: rest) with
  | none =>
    right
    dsimp only
    rw [if_pos]
    rcases hc with hc | rfl
    · rw [hc, Bool.true_or]
    · exact Bool.or_true _
  | some m =>
    obtain ⟨hword, hpre⟩ := match_prefix_of_beginsWord hc hm
    dsimp only
    rw [if_pos hword]
    unfold word
    by_cases hlt : m.lexeme.length < (wordRun (c :: rest)).1.length
    · rw [if_pos hlt]
      exact .inr rfl
    · rw [if_neg hlt]
      exact .inl ⟨m, hword, hpre.eq_of_length_le (by omega), rfl⟩

theorem text_read_of_beginsWord (hc : BeginsWord c) (rest : Text) :
    (read c rest).text = (wordRun (c :: rest)).1 ∧
      (read c rest).rest = (wordRun (c :: rest)).2 := by
  have htext : (read c rest).text = (wordRun (c :: rest)).1 := by
    rcases read_of_beginsWord hc with ⟨m, _, hlexeme, hread⟩ | hread
    · rw [hread]
      exact hlexeme
    · rw [hread]
      rfl
  exact ⟨htext, rest_read_of_text htext (wordRun_append (c :: rest)).symm⟩

/-- Its kind is a pattern of words, or it is malformed and its one flaw is about all of it. -/
theorem kind_read_of_beginsWord (hc : BeginsWord c) (rest : Text) :
    (∃ p : Pattern, p.isWord = true ∧ (read c rest).kind = .lexical p ∧
        (read c rest).flaws = []) ∨
      (read c rest).kind = .error .identifier ∧ (read c rest).flaws =
        [⟨.zero, (wordRun (c :: rest)).1, .malformedIdentifier (wordRun (c :: rest)).1⟩] := by
  rcases read_of_beginsWord hc with ⟨m, hword, _, hread⟩ | hread
  · rw [hread]
    exact .inl ⟨m.pattern, hword, rfl, rfl⟩
  · rw [hread]
    exact .inr ⟨rfl, rfl⟩

/-! ## Which kind it has -/

/-- What the lexeme of a word is. -/
structure ReadsWord (l : Lexeme) (word after : Text) : Prop where
  /-- The lexeme is the word, the whole of it and nothing more. -/
  whole : l.text = word ∧ l.rest = after
  keyword : ∀ k, l.kind = .lexical (.keyword k) ↔ word = k.text
  lower : l.kind = .lexical (.rule .lowerIdentifier) ↔
    (∀ k : Keyword, word ≠ k.text) ∧ IsName isLowerStart word
  upper : l.kind = .lexical (.rule .upperIdentifier) ↔
    (∀ k : Keyword, word ≠ k.text) ∧ IsName isUpperStart word
  dummy : l.kind = .lexical (.rule .dummyIdentifier) ↔
    (∀ k : Keyword, word ≠ k.text) ∧ IsDummy word
  /-- It is malformed in every remaining case. -/
  malformed : l.kind = .error .identifier ↔
    (∀ k : Keyword, word ≠ k.text) ∧
      ¬ (IsName isLowerStart word ∨ IsName isUpperStart word ∨ IsDummy word)
  /-- There is one flaw if it is malformed and none otherwise. -/
  flaws : l.flaws =
    if l.kind = .error .identifier then [⟨.zero, word, .malformedIdentifier word⟩] else []

theorem readsWord_read (hc : BeginsWord c) :
    (read c rest).ReadsWord (wordRun (c :: rest)).1 (wordRun (c :: rest)).2 := by
  obtain ⟨htext, hrest⟩ := text_read_of_beginsWord hc rest
  have hcases := kind_read_of_beginsWord hc rest
  have hkeyword (k : Keyword) : (read c rest).kind = .lexical (.keyword k) ↔
      (read c rest).text = k.text := kind_read_eq_keyword_iff
  have hlower := @kind_read_eq_rule_iff c rest .lowerIdentifier
  have hupper := @kind_read_eq_rule_iff c rest .upperIdentifier
  have hdummy := @kind_read_eq_rule_iff c rest .dummyIdentifier
  simp only [Rule.words, mem_beginningWithWords_iff, mem_dummyWords_iff] at hlower hupper hdummy
  rw [← htext]
  refine ⟨⟨rfl, hrest⟩, hkeyword, hlower, hupper, hdummy, ?_, ?_⟩
  · constructor
    · intro herror
      have hno (q : Pattern) := notMem_words_of_error herror q
      refine ⟨fun k => hno (.keyword k), ?_⟩
      rintro (h | h | h)
      · exact hno (.rule .lowerIdentifier) (mem_beginningWithWords_iff.2 h)
      · exact hno (.rule .upperIdentifier) (mem_beginningWithWords_iff.2 h)
      · exact hno (.rule .dummyIdentifier) (mem_dummyWords_iff.2 h)
    · rintro ⟨hno, hshapes⟩
      rcases hcases with ⟨p, hword, hp, _⟩ | ⟨herror, _⟩
      · exfalso
        cases p with
        | rule r =>
          cases r with
          | lowerIdentifier => exact hshapes (.inl (hlower.1 hp).2)
          | upperIdentifier => exact hshapes (.inr (.inl (hupper.1 hp).2))
          | dummyIdentifier => exact hshapes (.inr (.inr (hdummy.1 hp).2))
          | _ => cases hword
        | keyword k => exact hno k ((hkeyword k).1 hp)
        | symbol s => cases hword
      · exact herror
  · rw [htext]
    rcases hcases with ⟨p, _, hp, hflaws⟩ | ⟨herror, hflaws⟩
    · rw [hflaws, hp]
      rfl
    · rw [hflaws, herror]
      rfl

end Lexeme

/-- **Words are never split**: where a letter or an underscore stands, the scanner emits the whole
run of word characters as one lexeme, whose kind is told by how the run is written. -/
theorem Scanner.emits_word {s : Scanner} (hs : s.rest = c :: rest)
    (hc : isAlphabetic c = true ∨ c = '_') :
    s.Emits (Lexeme.read c rest) ∧
      (Lexeme.read c rest).ReadsWord ((c :: rest).takeWhile isWordChar)
        ((c :: rest).dropWhile isWordChar) :=
  ⟨emits_read hs, Lexeme.readsWord_read hc⟩

/-- A keyword before two underscores is no keyword: the word goes on up to the space, it belongs to
no kind of identifier, and all of it is malformed. -/
theorem Scanner.emits_word_keyword_underscores :
    let text : Text := ['i', 'f', '_', '_', '1', ' ', 'x']
    let l := Lexeme.read 'i' text.tail
    (ofText text).Emits l ∧ l.text = ['i', 'f', '_', '_', '1'] ∧ l.rest = [' ', 'x'] ∧
      l.kind = .error .identifier ∧ ¬ Identifier.IsName isLowerStart l.text := by
  intro text l
  have hs : (ofText text).rest = 'i' :: text.tail := rfl
  obtain ⟨hemits, hreads⟩ := emits_word hs (.inl (by decide))
  have hkind : l.kind = .error .identifier := by decide +kernel
  obtain ⟨htext, hrest⟩ := hreads.whole
  refine ⟨hemits, htext, hrest, hkind, fun hname => ?_⟩
  rw [htext] at hname
  exact (hreads.malformed.1 hkind).2 (.inl hname)

end LayoutLexer

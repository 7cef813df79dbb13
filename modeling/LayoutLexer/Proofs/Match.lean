import LayoutLexer.Proofs.Classification
import LayoutLexer.Proofs.Slice
import Mathlib.Order.Bounds.Defs

/-! # The length of a match

A pattern answers with a number of bytes.  The beginnings of a text that it accepts have lengths
too, and its answer is the greatest of them: there is no answer where it accepts none, the answer
cuts the text between two characters, and it does not become smaller when text is appended
(`Pattern.Answers`).  Of all patterns the lexicon chooses the first one that accepts the longest
beginning which any of them accepts (`Lexicon.answers_greatest`).

The rules commit to their first choice, so none of this can be read off a rule.  It holds since
every recognizer takes the longest of its words (`Pattern.takesLongest`).
-/
namespace LayoutLexer

namespace Pattern

/-- The lengths of the beginnings of a text that the pattern accepts. -/
def acceptedLengths (p : Pattern) (s : Text) : Set Nat :=
  {n | ∃ q : Text, q <+: s ∧ p.accepts q = true ∧ q.byteLength = n}

variable {p : Pattern} {s m rest : Text} {n : Nat}

theorem matchLength?_eq_some_iff_recognizer :
    p.matchLength? s = some n ↔ ∃ m rest, p.recognizer s = some (m, rest) ∧ m.byteLength = n := by
  rw [matchLength?, Option.map_eq_some_iff]
  constructor
  · rintro ⟨⟨m, rest⟩, hr, hn⟩
    exact ⟨m, rest, hr, hn⟩
  · rintro ⟨m, rest, hr, hn⟩
    exact ⟨⟨m, rest⟩, hr, hn⟩

/-- What the recognizer takes is accepted, and no longer beginning is. -/
theorem isGreatest_of_recognizer (h : p.recognizer s = some (m, rest)) :
    IsGreatest (p.acceptedLengths s) m.byteLength := by
  constructor
  · exact ⟨m, ⟨rest, p.takesLongest.splits h⟩, accepts_iff.2 (p.takesLongest.mem h), rfl⟩
  · rintro _ ⟨q, hq, haccept, rfl⟩
    obtain ⟨m', rest', hr, hpre⟩ := p.takesLongest.longest (accepts_iff.1 haccept) hq
    rw [h] at hr
    cases hr
    exact Text.byteLength_le_of_prefix hpre

/-- A pattern that accepts some beginning of a text has an answer. -/
theorem exists_matchLength?_of_accepts {q : Text} (hq : q <+: s) (h : p.accepts q = true) :
    ∃ n, p.matchLength? s = some n := by
  obtain ⟨m, rest, hr, _⟩ := p.takesLongest.longest (accepts_iff.1 h) hq
  exact ⟨m.byteLength, matchLength?_eq_some_iff_recognizer.2 ⟨m, rest, hr, rfl⟩⟩

/-- The answer is the greatest length of an accepted beginning. -/
theorem matchLength?_eq_some_iff :
    p.matchLength? s = some n ↔ IsGreatest (p.acceptedLengths s) n := by
  constructor
  · intro h
    obtain ⟨m, rest, hr, rfl⟩ := matchLength?_eq_some_iff_recognizer.1 h
    exact isGreatest_of_recognizer hr
  · intro h
    obtain ⟨q, hq, haccept, _⟩ := h.1
    obtain ⟨n', hn'⟩ := exists_matchLength?_of_accepts hq haccept
    obtain ⟨m, rest, hr, rfl⟩ := matchLength?_eq_some_iff_recognizer.1 hn'
    rw [hn', (isGreatest_of_recognizer hr).unique h]

theorem matchLength?_eq_none_iff :
    p.matchLength? s = none ↔ ∀ q, q <+: s → p.accepts q = false := by
  constructor
  · intro hnone q hq
    cases haccept : p.accepts q with
    | false => rfl
    | true =>
      obtain ⟨n, hn⟩ := exists_matchLength?_of_accepts hq haccept
      rw [hnone] at hn
      cases hn
  · intro h
    cases hn : p.matchLength? s with
    | none => rfl
    | some n =>
      obtain ⟨q, hq, haccept, _⟩ := (matchLength?_eq_some_iff.1 hn).1
      rw [h q hq] at haccept
      cases haccept

/-- The answer of a pattern at the front of a text, in terms of what the pattern accepts. -/
structure Answers (p : Pattern) (s : Text) : Prop where
  /-- The answer is the length of a beginning that is not empty and is accepted. -/
  piece : ∀ n, p.matchLength? s = some n →
    0 < n ∧ n ≤ s.byteLength ∧ ∃ q, s.slice? 0 n = some q ∧ p.accepts q = true
  /-- It is the greatest such length. -/
  greatest : ∀ n, p.matchLength? s = some n ↔ IsGreatest (p.acceptedLengths s) n
  /-- There is none if no beginning is accepted. -/
  nothing : p.matchLength? s = none ↔ ∀ q, q <+: s → p.accepts q = false
  /-- More text neither takes the answer away nor makes it smaller. -/
  grows : ∀ more n, p.matchLength? s = some n →
    ∃ n', p.matchLength? (s ++ more) = some n' ∧ n ≤ n'

theorem answers (p : Pattern) (s : Text) : p.Answers s where
  piece n hn := by
    obtain ⟨q, hq, haccept, rfl⟩ := (matchLength?_eq_some_iff.1 hn).1
    have hne : q.byteLength ≠ 0 := fun hzero =>
      ne_nil_of_mem_words (accepts_iff.1 haccept) (Text.byteLength_eq_zero_iff.1 hzero)
    exact ⟨Nat.pos_of_ne_zero hne, Text.byteLength_le_of_prefix hq, q,
      Text.slice?_zero_eq_some_iff.2 ⟨hq, rfl⟩, haccept⟩
  greatest n := matchLength?_eq_some_iff
  nothing := matchLength?_eq_none_iff
  grows more n hn := by
    obtain ⟨q, hq, haccept, hlen⟩ := (matchLength?_eq_some_iff.1 hn).1
    have hmore : q <+: s ++ more := hq.trans (List.prefix_append s more)
    obtain ⟨n', hn'⟩ := exists_matchLength?_of_accepts hmore haccept
    exact ⟨n', hn', (matchLength?_eq_some_iff.1 hn').2 ⟨q, hmore, haccept, hlen⟩⟩

end Pattern

namespace Lexicon

variable {s q : Text} {m : Match}

/-- The kind and the number of bytes of the longest match at the front of a text. -/
def longestLength? (s : Text) : Option (TokenKind × Nat) :=
  (longestMatch s).map fun m => (.lexical m.pattern, m.lexeme.byteLength)

/-- The first pattern by priority that accepts a text. -/
def firstAccepting? (q : Text) : Option Pattern := patterns.find? fun p => p.accepts q

/-- The lengths of the beginnings of a text that any pattern accepts. -/
def acceptedLengths (s : Text) : Set Nat := {n | ∃ p ∈ patterns, n ∈ p.acceptedLengths s}

/-- No beginning that any pattern accepts is longer than the longest match. -/
theorem isGreatest_longestMatch (hm : longestMatch s = some m) :
    IsGreatest (acceptedLengths s) m.lexeme.byteLength := by
  obtain ⟨hmem, hmatch⟩ := matchOf?_of_longestMatch hm
  have hr := (matchOf?_eq_some_iff.1 hmatch).1
  constructor
  · exact ⟨m.pattern, hmem, (Pattern.isGreatest_of_recognizer hr).1⟩
  · rintro _ ⟨p, _, q, ⟨after, hq⟩, haccept, rfl⟩
    obtain ⟨m', hm', hle⟩ := le_longestMatch (Pattern.accepts_iff.1 haccept) ⟨after, hq⟩
    rw [hm] at hm'
    cases hm'
    have hlt := Text.byteLength_lt_iff ((longestMatch_append hm).trans hq.symm)
    omega

/-- The pattern of the longest match is the first one that accepts it, since the match is longer
than the words of all patterns before it. -/
theorem firstAccepting?_longestMatch (hm : longestMatch s = some m) :
    firstAccepting? m.lexeme = some m.pattern := by
  obtain ⟨before, after, hsplit, hlate⟩ :=
    List.eq_append_cons_of_mem (matchOf?_of_longestMatch hm).1
  have hs : m.lexeme <+: s := ⟨m.rest, longestMatch_append hm⟩
  refine List.find?_eq_some_iff_append.2 ⟨?_, before, after, hsplit, ?_⟩
  · exact Pattern.accepts_iff.2 (Lexeme.mem_words_of_longestMatch hm)
  · intro p hp
    cases haccept : p.accepts m.lexeme with
    | false => rfl
    | true =>
      have hword := Pattern.accepts_iff.1 haccept
      exact absurd (lt_longestMatch hsplit hm hlate hp hword hs) (Nat.lt_irrefl _)

/-- Where a pattern accepts a beginning, there is a longest match. -/
theorem exists_longestMatch_of_mem {n : Nat} (h : n ∈ acceptedLengths s) :
    ∃ m, longestMatch s = some m := by
  obtain ⟨p, _, q, hq, haccept, _⟩ := h
  obtain ⟨m, hm, _⟩ := le_longestMatch (Pattern.accepts_iff.1 haccept) hq
  exact ⟨m, hm⟩

/-- The lexicon chooses the first pattern that accepts the longest beginning. -/
theorem longestLength?_eq_some_iff {k : TokenKind} {n : Nat} :
    longestLength? s = some (k, n) ↔
      IsGreatest (acceptedLengths s) n ∧
        ∃ q, s.slice? 0 n = some q ∧ (firstAccepting? q).map .lexical = some k := by
  have hslice {m : Match} (hm : longestMatch s = some m) :
      s.slice? 0 m.lexeme.byteLength = some m.lexeme :=
    Text.slice?_zero_eq_some_iff.2 ⟨⟨m.rest, longestMatch_append hm⟩, rfl⟩
  rw [longestLength?, Option.map_eq_some_iff]
  constructor
  · rintro ⟨m, hm, heq⟩
    cases heq
    refine ⟨isGreatest_longestMatch hm, m.lexeme, hslice hm, ?_⟩
    rw [firstAccepting?_longestMatch hm]
    rfl
  · rintro ⟨hgreatest, q, hq, hk⟩
    obtain ⟨m, hm⟩ := exists_longestMatch_of_mem hgreatest.1
    have hlen : m.lexeme.byteLength = n := (isGreatest_longestMatch hm).unique hgreatest
    rw [← hlen, hslice hm] at hq
    cases hq
    rw [firstAccepting?_longestMatch hm] at hk
    cases hk
    exact ⟨m, hm, by rw [hlen]⟩

/-- **The length of a match is the greatest there is**: every pattern answers with the greatest
length of a beginning that it accepts, and the lexicon with the greatest length of a beginning
that any pattern accepts, as the kind of the first pattern that accepts this beginning. -/
theorem answers_greatest (s : Text) :
    (∀ p ∈ patterns, p.Answers s) ∧
      ∀ k n, longestLength? s = some (k, n) ↔
        IsGreatest (acceptedLengths s) n ∧
          ∃ q, s.slice? 0 n = some q ∧ (firstAccepting? q).map .lexical = some k :=
  ⟨fun p _ => p.answers s, fun _ _ => longestLength?_eq_some_iff⟩

/-- A radix without digits: the number is the digit before the letter, and a digit after the letter
makes it the whole text. -/
theorem answers_greatest_radix_prefix :
    let text : Text := ['2', 'r']
    let p : Pattern := .rule .integerLiteral
    p.matchLength? text = some 1 ∧ IsGreatest (p.acceptedLengths text) 1 ∧
      IsGreatest (acceptedLengths text) 1 ∧
      (∃ n, p.matchLength? (text ++ ['1']) = some n ∧ 1 ≤ n) ∧
      IsGreatest (p.acceptedLengths (text ++ ['1'])) 3 := by
  intro text p
  have hlen : p.matchLength? text = some 1 := by decide +kernel
  have hlonger : p.matchLength? (text ++ ['1']) = some 3 := by decide +kernel
  have hlongest : longestLength? text = some (.lexical p, 1) := by decide +kernel
  have hp := (answers_greatest text).1 p (mem_patterns p)
  have hmore := (answers_greatest (text ++ ['1'])).1 p (mem_patterns p)
  exact ⟨hlen, (hp.greatest 1).1 hlen, (((answers_greatest text).2 _ 1).1 hlongest).1,
    hp.grows ['1'] 1 hlen, (hmore.greatest 3).1 hlonger⟩

end Lexicon
end LayoutLexer

import LayoutLexer.Proofs.Lexeme.LineBreak
import LayoutLexer.Proofs.Lexeme.Reach

/-! # What follows a line does not matter to its lexemes

Recognizers accept only words within the line, a run of word characters ends with it, and so does
a broken literal.  So the first lexeme of a text with a line break in it ends within the text
whatever follows, and the text reads the same (`Lexeme.read_append`).  There are two exceptions.
An open verbatim string takes the whole text, so it goes on into what follows; and a carriage
return at the end of the text is one line break with a line feed that follows.
-/
namespace LayoutLexer

open CharClass Recognizer Words Identifier Lexicon

variable {s b : Text} {c : Char} {rest : Text}

/-! ## Words within a text -/

/-- A word within one line does not go beyond a text of more than one. -/
theorem Text.Inline.within {w : Text} (hw : w.Inline) (hs : ¬ s.Inline) (h : w <+: s ++ b) :
    w <+: s := by
  rcases List.prefix_or_prefix_of_prefix h (List.prefix_append s b) with hin | ⟨u, rfl⟩
  · exact hin
  · exact absurd hw.of_append_left hs

/-- A run of a class that breaks no line ends with the line. -/
theorem Text.run_append {p : Char → Bool} (hp : ∀ c, p c = true → isLineBreak c = false)
    (hs : ¬ s.Inline) :
    (s ++ b).takeWhile p = s.takeWhile p ∧ (s ++ b).dropWhile p = s.dropWhile p ++ b ∧
      s.dropWhile p ≠ [] := by
  have hstop : s.dropWhile p ≠ [] := by
    intro hnil
    refine hs fun c hc => hp c ?_
    exact List.dropWhile_eq_nil_iff.1 hnil c hc
  obtain ⟨htake, hdrop⟩ := run_append_of_stop (b := b) hstop
  exact ⟨htake, hdrop, hstop⟩

/-! ## Lexemes -/

namespace Lexeme

/-- What opens a literal is decided before the end of the line. -/
theorem opening?_append (hs : ¬ Text.Inline (c :: rest)) :
    LiteralKind.opening? (c :: (rest ++ b)) = LiteralKind.opening? (c :: rest) := by
  have hinline : Literal.tripleQuote.Inline := by
    intro c hc
    rw [List.eq_of_mem_replicate (n := 3) hc]
    rfl
  exact opening?_append_of_triple (hinline.within hs)

/-- A verbatim string that is not open is the longest match. -/
theorem exists_verbatim_of_closed (hopen : LiteralKind.opening? (c :: rest) = some .verbatim)
    (hclosed : read c rest ≠ brokenVerbatim (c :: rest)) :
    ∃ m, longestMatch (c :: rest) = some m ∧ m.lexeme ∈ Literal.verbatimWords := by
  cases hr : Literal.verbatim (c :: rest) with
  | none => exact absurd (read_of_rejected hopen hr) hclosed
  | some split =>
    exact ⟨_, longestMatch_of_opening? hopen hr, Literal.takesLongest_verbatim.mem hr⟩

theorem prefixFree_verbatimWords : PrefixFree Literal.verbatimWords := by
  refine PrefixFree.mul (prefixFree_singleton _) ?_
  intro a v ha hv
  exact List.append_right_eq_self.1 (hv.2 a (List.prefix_append a v) ha.1).symm

/-- A verbatim string that ends beyond the text is an open one in the text. -/
theorem verbatim_within (hs : ¬ Text.Inline (c :: rest))
    (hclosed : read c rest ≠ brokenVerbatim (c :: rest)) {w : Text}
    (hw : w ∈ Literal.verbatimWords) (h : w <+: (c :: rest) ++ b) : w <+: c :: rest := by
  rcases List.prefix_or_prefix_of_prefix h (List.prefix_append (c :: rest) b) with hin | hout
  · exact hin
  · -- the text begins with the quotes of the word, so it opens a verbatim string
    have hopen : LiteralKind.opening? (c :: rest) = some .verbatim := by
      obtain ⟨y, rfl⟩ := Literal.exists_of_mem_verbatimWords hw
      obtain ⟨u, hu⟩ := hout
      rw [← opening?_append (b := u) hs, ← List.cons_append, hu]
      rfl
    obtain ⟨m, hm, hmem⟩ := exists_verbatim_of_closed hopen hclosed
    have hfront : m.lexeme <+: c :: rest := ⟨m.rest, longestMatch_append hm⟩
    obtain ⟨v, rfl⟩ := hfront.trans hout
    rw [prefixFree_verbatimWords hmem hw, List.append_nil]
    exact hfront

/-- No word goes beyond a text that breaks a line, opens no verbatim string without an end, and
does not end within a line break. -/
theorem words_within (hs : ¬ Text.Inline (c :: rest))
    (hclosed : read c rest ≠ brokenVerbatim (c :: rest))
    (hcut : ¬ Text.SplitsBreak (c :: rest) b) (p : Pattern) {w : Text} (hw : w ∈ p.words)
    (h : w <+: (c :: rest) ++ b) : w <+: c :: rest := by
  by_cases hverbatim : p = .rule .verbatimStringLiteral
  · subst hverbatim
    exact verbatim_within hs hclosed hw h
  by_cases hfeed : p = .rule .lineFeed
  · subst hfeed
    rcases hw with hword | hword | hword <;> rw [show w = _ from hword] at h ⊢
    · obtain ⟨hc, h⟩ := List.cons_prefix_cons.1 h
      cases rest with
      | nil =>
        -- the line feed would be what follows the text
        obtain ⟨u, hu⟩ := h
        exact absurd ⟨by rw [← hc]; rfl, by rw [show b = _ from hu.symm]; rfl⟩ hcut
      | cons d rest =>
        obtain ⟨hd, _⟩ := List.cons_prefix_cons.1 (show ['\n'] <+: d :: (rest ++ b) from h)
        rw [hc, hd]
        exact ⟨rest, rfl⟩
    · exact ⟨rest, by rw [(List.cons_prefix_cons.1 h).1]; rfl⟩
    · exact ⟨rest, by rw [(List.cons_prefix_cons.1 h).1]; rfl⟩
  · exact (Pattern.inline_of_mem_words hfeed hverbatim hw).within hs h

/-- Neither does the lexeme at the front. -/
theorem read_within (hs : ¬ Text.Inline (c :: rest))
    (hclosed : read c rest ≠ brokenVerbatim (c :: rest))
    (hcut : ¬ Text.SplitsBreak (c :: rest) b) :
    (read c (rest ++ b)).text <+: c :: rest := by
  have hfront : (read c (rest ++ b)).text <+: (c :: rest) ++ b := ⟨_, (fronts_read _ _).1⟩
  have hreads := reads c (rest ++ b)
  generalize read c (rest ++ b) = l at hreads hfront ⊢
  cases hreads with
  | matched hm => exact words_within hs hclosed hcut _ (mem_words_of_longestMatch hm) hfront
  | word => exact (inline_wordRun _).within hs hfront
  | number hm hnumber =>
    exact ((inline_of_isNumber hm hnumber).append (inline_wordRun _)).within hs hfront
  | character => exact ⟨rest, rfl⟩
  | verbatim hopen hother =>
    -- the string that the text closes would match in the longer text as well
    rw [opening?_append hs] at hopen
    obtain ⟨m, hm, hmem⟩ := exists_verbatim_of_closed hopen hclosed
    have hlexeme : m.lexeme <+: c :: rest := ⟨m.rest, longestMatch_append hm⟩
    obtain ⟨n, hn, hle⟩ := le_longestMatch (p := .rule .verbatimStringLiteral) hmem
      (hlexeme.trans (List.prefix_append (c :: rest) b))
    obtain ⟨y, hy⟩ := Literal.exists_of_mem_verbatimWords hmem
    rw [hy, List.length_append, show Literal.tripleQuote.length = 3 from rfl] at hle
    rcases pattern_of_opening? ((opening?_append hs).trans hopen) hn with hrule | ⟨_, hlt⟩
    · exact absurd hrule (hother n hn)
    · omega
  | quoted _ hopen =>
    refine (BrokenLiteral.inline_lexeme ?_ _).within hs hfront
    rcases quote_of_opening? hopen with rfl | rfl <;> rfl

/-- **A text with a line break in it reads the same whatever follows it**, unless it is an open
verbatim string, or ends within a line break. -/
theorem read_append (hs : ¬ Text.Inline (c :: rest))
    (hclosed : read c rest ≠ brokenVerbatim (c :: rest))
    (hcut : ¬ Text.SplitsBreak (c :: rest) b) :
    read c (rest ++ b) = (read c rest).followedBy b :=
  read_append_of_within (read_within hs hclosed hcut)

end Lexeme
end LayoutLexer

import LayoutLexer.Proofs.Lexeme.Cases

/-! # How far reading looks

A lexeme is chosen with a look ahead: recognizers try longer words, a word run goes on as far as
it can, and an invalid escape searches for its closing brace.  What stands beyond the end of the
lexeme decides only that the lexeme does not go on.  So a lexeme that ends within the first part
of a text is the lexeme of the first part alone (`Lexeme.read_append_of_within`).

Each look ahead has the same property, and the proofs follow the definitions: recognizers by
their longest words, runs by their characters, the walk over a broken literal piece by piece.
-/
namespace LayoutLexer

open CharClass Recognizer Words Identifier Lexicon

variable {s b : Text} {c : Char} {rest : Text}

/-! ## Words and runs -/

/-- A recognizer of which no word goes beyond the text accepts the same whatever follows. -/
theorem Recognizer.TakesLongest.append {r : Recognizer} {L : Language Char} (hr : TakesLongest r L)
    (hin : ∀ w ∈ L, w <+: s ++ b → w <+: s) :
    r (s ++ b) = (r s).map fun (m, rest) => (m, rest ++ b) := by
  cases hs : r s with
  | some split =>
    obtain ⟨m, rest⟩ := split
    have happ := hr.splits hs
    have hms : m <+: s ++ b := ⟨rest ++ b, by rw [← List.append_assoc, happ]⟩
    obtain ⟨m', rest', hm', hle⟩ := hr.longest (hr.mem hs) hms
    -- what is accepted now stands at the front of the text, so it is no longer
    have hfront : m' <+: s := hin m' (hr.mem hm') ⟨rest', hr.splits hm'⟩
    obtain ⟨n, _, hn, hge⟩ := hr.longest (hr.mem hm') hfront
    rw [hs] at hn
    cases hn
    have hsame : m' = m := hge.eq_of_length_le hle.length_le
    have happ' := hr.splits hm'
    rw [hsame, ← happ, List.append_assoc, List.append_cancel_left_eq] at happ'
    rw [hm', hsame, happ']
    rfl
  | none =>
    cases hm : r (s ++ b) with
    | none => rfl
    | some split =>
      obtain ⟨m, rest⟩ := split
      have hfront : m <+: s := hin m (hr.mem hm) ⟨rest, hr.splits hm⟩
      obtain ⟨n, rest', hn, _⟩ := hr.longest (hr.mem hm) hfront
      rw [hs] at hn
      cases hn

/-- It is enough that what the recognizer takes does not go beyond the text. -/
theorem Recognizer.TakesLongest.append_of_within {r : Recognizer} {L : Language Char}
    (hr : TakesLongest r L) (hin : ∀ m after, r (s ++ b) = some (m, after) → m <+: s) :
    r (s ++ b) = (r s).map fun (m, rest) => (m, rest ++ b) := by
  refine hr.append fun w hw hfront => ?_
  obtain ⟨m, after, hm, hwm⟩ := hr.longest hw hfront
  exact hwm.trans (hin m after hm)

/-- A run that comes to its end in a text is the same whatever follows. -/
theorem Text.run_append_of_stop {p : Char → Bool} (hstop : s.dropWhile p ≠ []) :
    (s ++ b).takeWhile p = s.takeWhile p ∧ (s ++ b).dropWhile p = s.dropWhile p ++ b := by
  constructor
  · rw [List.takeWhile_append, if_neg]
    intro hlength
    have hwhole := congrArg List.length (List.takeWhile_append_dropWhile (p := p) (l := s))
    rw [List.length_append, hlength] at hwhole
    exact hstop (List.length_eq_zero_iff.1 (by omega))
  · rw [List.dropWhile_append, if_neg (by simpa using hstop)]

/-- So is a run that does not go beyond the text. -/
theorem Text.run_append_of_within {p : Char → Bool} (h : (s ++ b).takeWhile p <+: s) :
    (s ++ b).takeWhile p = s.takeWhile p ∧ (s ++ b).dropWhile p = s.dropWhile p ++ b := by
  by_cases hnil : s.dropWhile p = []
  · -- the text is a run, and the run stops where the text ends
    have hall : s.takeWhile p = s := by
      have hwhole := List.takeWhile_append_dropWhile (p := p) (l := s)
      rwa [hnil, List.append_nil] at hwhole
    have htake : (s ++ b).takeWhile p = s ++ b.takeWhile p := by
      rw [List.takeWhile_append, if_pos (by rw [hall])]
    have hnone : b.takeWhile p = [] := by
      have hlength := h.length_le
      rw [htake, List.length_append] at hlength
      exact List.length_eq_zero_iff.1 (by omega)
    have hdrop : b.dropWhile p = b := by
      have hwhole := List.takeWhile_append_dropWhile (p := p) (l := b)
      rwa [hnone] at hwhole
    constructor
    · rw [htake, hnone, hall, List.append_nil]
    · rw [List.dropWhile_append, if_pos (by rw [hnil]; rfl), hdrop, hnil, List.nil_append]
  · exact run_append_of_stop hnil

theorem wordRun_append_of_within (h : (wordRun (s ++ b)).1 <+: s) :
    wordRun (s ++ b) = ((wordRun s).1, (wordRun s).2 ++ b) := by
  obtain ⟨htake, hdrop⟩ := Text.run_append_of_within h
  exact Prod.ext htake hdrop

/-! ## The longest match -/

/-- The match, with more text after it. -/
def Match.followedBy (b : Text) (m : Match) : Match := { m with rest := m.rest ++ b }

namespace Lexicon

open Match

/-- The longest match is the same whatever follows, if no word goes beyond the text. -/
theorem longestMatch_followedBy
    (hin : ∀ p : Pattern, ∀ w ∈ p.words, w <+: s ++ b → w <+: s) :
    longestMatch (s ++ b) = (longestMatch s).map (followedBy b) := by
  have hmatch (p : Pattern) : matchOf? (s ++ b) p = (matchOf? s p).map (followedBy b) := by
    unfold matchOf?
    rw [p.takesLongest.append (hin p)]
    cases p.recognizer s with
    | none => rfl
    | some split =>
      obtain ⟨m, rest⟩ := split
      cases m <;> rfl
  have hbetter (best : Option Match) (next : Match) :
      better (best.map (followedBy b)) (followedBy b next) =
        (better best next).map (followedBy b) := by
    cases best with
    | none => rfl
    | some m =>
      by_cases hlt : m.lexeme.length < next.lexeme.length
      · rw [better, if_pos hlt]
        exact if_pos hlt
      · rw [better, if_neg hlt]
        exact if_neg hlt
  have hfold (ms : List Match) (best : Option Match) :
      (ms.map (followedBy b)).foldl better (best.map (followedBy b)) =
        (ms.foldl better best).map (followedBy b) := by
    induction ms generalizing best with
    | nil => rfl
    | cons m ms ih => rw [List.map_cons, List.foldl_cons, List.foldl_cons, hbetter, ih]
  have hall : patterns.filterMap (matchOf? (s ++ b)) =
      (patterns.filterMap (matchOf? s)).map (followedBy b) := by
    rw [List.map_filterMap]
    exact List.filterMap_congr fun p _ => hmatch p
  rw [longestMatch, hall]
  exact hfold _ none

/-- It is enough that the longest match does not go beyond the text. -/
theorem longestMatch_append_of_within
    (hin : ∀ m, longestMatch (s ++ b) = some m → m.lexeme <+: s) :
    longestMatch (s ++ b) = (longestMatch s).map (followedBy b) := by
  refine longestMatch_followedBy fun p w hw hfront => ?_
  obtain ⟨m, hm, hle⟩ := le_longestMatch hw hfront
  exact (List.prefix_of_prefix_length_le hfront ⟨m.rest, longestMatch_append hm⟩ hle).trans
    (hin m hm)

end Lexicon

/-! ## Broken literals -/

namespace BrokenLiteral

variable {quote : Char}

/-- The search for a closing brace finds the same one. -/
theorem invalidTail_append_of_within (h : (invalidTail quote (s ++ b)).1 <+: s) :
    invalidTail quote (s ++ b) = ((invalidTail quote s).1, (invalidTail quote s).2 ++ b) := by
  cases s with
  | nil =>
    have happ := invalidTail_append quote ([] ++ b)
    rw [List.prefix_nil.1 h] at happ
    exact Prod.ext (List.prefix_nil.1 h) happ
  | cons c rest =>
    rw [List.cons_append, invalidTail] at h ⊢
    rw [invalidTail]
    by_cases hbreak : isLineBreak c = true
    · rw [if_pos hbreak, if_pos hbreak]
      rfl
    · rw [if_neg hbreak] at h ⊢
      rw [if_neg hbreak]
      by_cases hbrace : c = '{'
      · rw [if_pos hbrace] at h ⊢
        rw [if_pos hbrace]
        cases hdrop : rest.dropWhile (isInsideBraces quote) with
        | nil =>
          -- a brace beyond the text would make the escape end there
          dsimp only
          split
          · next after heq =>
            rw [heq] at h
            have hin := (List.cons_prefix_cons.1 h).2
            have htake := (Text.run_append_of_within
              ((List.prefix_append _ ['}']).trans hin)).2
            rw [heq, hdrop] at htake
            have hall := List.takeWhile_append_dropWhile
              (p := isInsideBraces quote) (l := rest)
            rw [hdrop, List.append_nil] at hall
            have hlength := hin.length_le
            rw [List.takeWhile_append, if_pos (by rw [hall]), List.length_append,
              List.length_append, List.length_singleton] at hlength
            omega
          · rfl
        | cons d z =>
          have hstop : rest.dropWhile (isInsideBraces quote) ≠ [] := by
            rw [hdrop]
            exact List.cons_ne_nil d z
          obtain ⟨htake, hdrop'⟩ := Text.run_append_of_stop (b := b) hstop
          rw [htake, hdrop', hdrop, List.cons_append]
          by_cases hclose : d = '}'
          · rw [hclose]
            rfl
          · split
            · next heq => exact absurd (List.cons.inj heq).1 hclose
            · split
              · next heq => exact absurd (List.cons.inj heq).1 hclose
              · rfl
      · rw [if_neg hbrace, if_neg hbrace]

theorem firstPiece_append_of_within (h : (firstPiece quote c (rest ++ b)).1.text <+: c :: rest) :
    firstPiece quote c (rest ++ b) =
      ((firstPiece quote c rest).1, (firstPiece quote c rest).2 ++ b) := by
  unfold firstPiece at h ⊢
  by_cases hback : c = '\\'
  · rw [if_pos hback] at h ⊢
    rw [if_pos hback]
    have hescape := Literal.takesLongest_escapeTail.append_of_within (s := rest) (b := b)
      fun m after hm => by rw [hm] at h; exact (List.cons_prefix_cons.1 h).2
    rw [hescape] at h ⊢
    cases hm : Literal.escapeTail rest with
    | some split => rfl
    | none =>
      rw [hm] at h
      rw [Option.map_none]
      dsimp only
      rw [invalidTail_append_of_within (List.cons_prefix_cons.1 h).2]
  · rw [if_neg hback, if_neg hback]

/-- The walk over a literal that ends within a text is the walk over the text. -/
theorem walk_append_of_within
    (h : (walk quote (s ++ b)).inside ++ (walk quote (s ++ b)).closing quote <+: s) :
    walk quote (s ++ b) = { walk quote s with rest := (walk quote s).rest ++ b } := by
  fun_induction walk quote s with
  | case1 =>
    -- there is neither a piece nor a quote, so the line ends here
    have hnil := List.prefix_nil.1 h
    rw [List.nil_append] at hnil ⊢
    cases b with
    | nil => rw [walk]
    | cons d b =>
      rw [walk] at hnil ⊢
      by_cases hbreak : isLineBreak d = true
      · rw [if_pos hbreak]
      · rw [if_neg hbreak] at hnil
        by_cases hquote : d = quote
        · rw [if_pos hquote] at hnil
          cases hnil
        · rw [if_neg hquote] at hnil
          have hpiece := (List.append_eq_nil_iff.1 (List.append_eq_nil_iff.1 hnil).1).1
          exact absurd hpiece (firstPiece_ne_nil quote d b)
  | case2 c rest hbreak => rw [List.cons_append, walk, if_pos hbreak]
  | case3 rest hbreak => rw [List.cons_append, walk, if_neg hbreak, if_pos rfl]
  | case4 c rest hbreak hquote tail ih =>
    rw [List.cons_append, walk, if_neg hbreak, if_neg hquote] at h ⊢
    dsimp only [Walk.inside, Walk.closing] at h
    rw [List.flatMap_cons, List.append_assoc] at h
    have hpiece := firstPiece_append_of_within ((List.prefix_append _ _).trans h)
    rw [hpiece] at h ⊢
    dsimp only at h ⊢
    rw [← firstPiece_append quote c rest, List.prefix_append_right_inj] at h
    rw [ih h]

end BrokenLiteral

/-! ## Lexemes -/

namespace Lexeme

/-- The lexeme, with more text after it. -/
def followedBy (b : Text) (l : Lexeme) : Lexeme := { l with rest := l.rest ++ b }

/-- A lexeme is not shorter than the longest match. -/
theorem longestMatch_length_le_read {m : Match} (hm : longestMatch (c :: rest) = some m) :
    m.lexeme.length ≤ (read c rest).text.length := by
  unfold read
  cases hopen : LiteralKind.opening? (c :: rest) with
  | some kind =>
    dsimp only
    unfold literal
    rw [hm]
    dsimp only
    rcases pattern_of_opening? hopen hm with hrule | ⟨rfl, hlt⟩
    · rw [if_pos hrule]
      exact Nat.le_refl _
    · by_cases hrule : m.pattern = .rule LiteralKind.verbatim.rule
      · rw [if_pos hrule]
        exact Nat.le_refl _
      · rw [if_neg hrule]
        have hwhole := congrArg List.length (longestMatch_append hm)
        rw [List.length_append] at hwhole
        show m.lexeme.length ≤ (c :: rest).length
        omega
  | none =>
    dsimp only
    unfold unquoted
    rw [hm]
    dsimp only
    by_cases hword : m.pattern.isWord = true
    · rw [if_pos hword]
      unfold word
      by_cases hlt : m.lexeme.length < (wordRun (c :: rest)).1.length
      · rw [if_pos hlt]
        exact Nat.le_of_lt hlt
      · rw [if_neg hlt]
        exact Nat.le_refl _
    · rw [if_neg hword]
      by_cases hnumber : m.pattern.isNumber = true
      · rw [if_pos hnumber, text_number, List.length_append]
        exact Nat.le_add_right _ _
      · rw [if_neg hnumber]
        exact Nat.le_refl _

/-- What opens a literal is the same whatever follows, unless it completes a triple quote. -/
theorem opening?_append_of_triple
    (h : Literal.tripleQuote <+: c :: (rest ++ b) → Literal.tripleQuote <+: c :: rest) :
    LiteralKind.opening? (c :: (rest ++ b)) = LiteralKind.opening? (c :: rest) := by
  by_cases htriple : Literal.tripleQuote <+: c :: rest
  · have hlonger : Literal.tripleQuote <+: c :: (rest ++ b) :=
      htriple.trans (List.prefix_append (c :: rest) b)
    rw [opening?_eq_verbatim_iff.2 htriple, opening?_eq_verbatim_iff.2 hlonger]
  · rw [opening?_of_not_triple htriple, opening?_of_not_triple fun hlonger => htriple (h hlonger)]

/-- What a triple quote opens begins with it. -/
theorem tripleQuote_prefix_read (h : LiteralKind.opening? (c :: rest) = some .verbatim) :
    Literal.tripleQuote <+: (read c rest).text := by
  cases hr : Literal.verbatim (c :: rest) with
  | none =>
    rw [read_of_rejected h hr]
    exact opening?_eq_verbatim_iff.1 h
  | some split =>
    obtain ⟨y, hy⟩ := Literal.exists_of_mem_verbatimWords (Literal.takesLongest_verbatim.mem hr)
    rw [read_of_accepted h hr]
    exact ⟨y, hy.symm⟩

theorem brokenQuoted_append_of_within {kind : LiteralKind}
    (h : (brokenQuoted kind c (rest ++ b)).text <+: c :: rest) :
    brokenQuoted kind c (rest ++ b) = (brokenQuoted kind c rest).followedBy b := by
  have hinside := (List.cons_prefix_cons.1 h).2
  unfold brokenQuoted
  rw [BrokenLiteral.walk_append_of_within hinside]
  rfl

theorem brokenLiteral_append_of_within {kind : LiteralKind}
    (h : (brokenLiteral kind c (rest ++ b)).text <+: c :: rest) :
    brokenLiteral kind c (rest ++ b) = (brokenLiteral kind c rest).followedBy b := by
  cases kind with
  | verbatim =>
    -- the literal takes the whole text, so nothing follows
    have hlength : (c :: (rest ++ b)).length ≤ (c :: rest).length := h.length_le
    obtain rfl : b = [] := by
      rw [List.length_cons, List.length_cons, List.length_append] at hlength
      exact List.length_eq_zero_iff.1 (by omega)
    rw [List.append_nil]
    rfl
  | string => exact brokenQuoted_append_of_within h
  | character => exact brokenQuoted_append_of_within h

theorem literal_append_of_within {kind : LiteralKind}
    (hmatch : longestMatch (c :: (rest ++ b)) =
      (longestMatch (c :: rest)).map (Match.followedBy b))
    (h : (literal kind c (rest ++ b)).text <+: c :: rest) :
    literal kind c (rest ++ b) = (literal kind c rest).followedBy b := by
  unfold literal at h ⊢
  rw [hmatch] at h ⊢
  cases hm : longestMatch (c :: rest) with
  | none =>
    rw [hm] at h
    exact brokenLiteral_append_of_within h
  | some m =>
    rw [hm] at h
    dsimp only [Option.map_some] at h ⊢
    rw [show (m.followedBy b).pattern = m.pattern from rfl] at h ⊢
    by_cases hrule : m.pattern = .rule kind.rule
    · rw [if_pos hrule, if_pos hrule]
      rfl
    · rw [if_neg hrule] at h ⊢
      rw [if_neg hrule]
      exact brokenLiteral_append_of_within h

theorem malformedIdentifier_append_of_within (h : (wordRun (s ++ b)).1 <+: s) :
    malformedIdentifier (s ++ b) = (malformedIdentifier s).followedBy b := by
  unfold malformedIdentifier
  rw [wordRun_append_of_within h]
  rfl

theorem word_append_of_within {m : Match} (hm : longestMatch s = some m)
    (h : (word (s ++ b) (m.followedBy b)).text <+: s) :
    word (s ++ b) (m.followedBy b) = (word s m).followedBy b := by
  have hlexeme : (m.followedBy b).lexeme = m.lexeme := rfl
  -- whether the word goes on after its match or not, its run does not go beyond the text
  have hrun : (wordRun (s ++ b)).1 <+: s := by
    unfold word at h
    by_cases hlt : m.lexeme.length < (wordRun (s ++ b)).1.length
    · rw [hlexeme, if_pos hlt] at h
      exact h
    · have hfront : m.lexeme <+: s := ⟨m.rest, longestMatch_append hm⟩
      have hlonger : (wordRun (s ++ b)).1 <+: s ++ b := ⟨_, wordRun_append (s ++ b)⟩
      exact (List.prefix_of_prefix_length_le hlonger (hfront.trans (List.prefix_append s b))
        (Nat.le_of_not_lt hlt)).trans hfront
  unfold word
  rw [malformedIdentifier_append_of_within hrun, wordRun_append_of_within hrun, hlexeme]
  by_cases hlt : m.lexeme.length < (wordRun s).1.length
  · rw [if_pos hlt, if_pos hlt]
  · rw [if_neg hlt, if_neg hlt]
    rfl

theorem number_append_of_within {m : Match} (hm : longestMatch s = some m)
    (h : (number (m.followedBy b)).text <+: s) :
    number (m.followedBy b) = (number m).followedBy b := by
  have hrest : (m.followedBy b).rest = m.rest ++ b := rfl
  have hrun : (wordRun (m.rest ++ b)).1 <+: m.rest := by
    rw [text_number, ← longestMatch_append hm, hrest] at h
    exact (List.prefix_append_right_inj m.lexeme).1 h
  unfold number
  rw [hrest, wordRun_append_of_within hrun]
  obtain ⟨run, after⟩ := wordRun m.rest
  cases run <;> rfl

theorem unquoted_append_of_within
    (hmatch : longestMatch (c :: (rest ++ b)) =
      (longestMatch (c :: rest)).map (Match.followedBy b))
    (h : (unquoted c (rest ++ b)).text <+: c :: rest) :
    unquoted c (rest ++ b) = (unquoted c rest).followedBy b := by
  unfold unquoted at h ⊢
  rw [hmatch] at h ⊢
  cases hm : longestMatch (c :: rest) with
  | none =>
    rw [hm] at h
    dsimp only [Option.map_none] at h ⊢
    by_cases hletter : (isAlphabetic c || c == '_') = true
    · rw [if_pos hletter] at h ⊢
      rw [if_pos hletter]
      exact malformedIdentifier_append_of_within (s := c :: rest) h
    · rw [if_neg hletter, if_neg hletter]
      rfl
  | some m =>
    rw [hm] at h
    dsimp only [Option.map_some] at h ⊢
    rw [show (m.followedBy b).pattern = m.pattern from rfl] at h ⊢
    by_cases hword : m.pattern.isWord = true
    · rw [if_pos hword] at h ⊢
      rw [if_pos hword]
      exact word_append_of_within hm h
    · rw [if_neg hword] at h ⊢
      rw [if_neg hword]
      by_cases hnumber : m.pattern.isNumber = true
      · rw [if_pos hnumber] at h ⊢
        rw [if_pos hnumber]
        exact number_append_of_within hm h
      · rw [if_neg hnumber, if_neg hnumber]
        rfl

/-- **A lexeme that ends within the first part of a text is the lexeme of the first part.** -/
theorem read_append_of_within (h : (read c (rest ++ b)).text <+: c :: rest) :
    read c (rest ++ b) = (read c rest).followedBy b := by
  have hopening : LiteralKind.opening? (c :: (rest ++ b)) = LiteralKind.opening? (c :: rest) :=
    opening?_append_of_triple fun htriple =>
      (tripleQuote_prefix_read (opening?_eq_verbatim_iff.2 htriple)).trans h
  have hmatch : longestMatch (c :: (rest ++ b)) =
      (longestMatch (c :: rest)).map (Match.followedBy b) := by
    refine longestMatch_append_of_within (s := c :: rest) fun m hm => ?_
    have hlexeme : (read c (rest ++ b)).text <+: c :: (rest ++ b) := ⟨_, (fronts_read _ _).1⟩
    exact (List.prefix_of_prefix_length_le ⟨m.rest, longestMatch_append hm⟩ hlexeme
      (longestMatch_length_le_read hm)).trans h
  unfold read at h ⊢
  rw [hopening] at h ⊢
  cases hopen : LiteralKind.opening? (c :: rest) with
  | some kind =>
    rw [hopen] at h
    exact literal_append_of_within hmatch h
  | none =>
    rw [hopen] at h
    exact unquoted_append_of_within hmatch h

end Lexeme
end LayoutLexer

import LayoutLexer.Proofs.Lexeme.Recovery

/-! # Where a quoted lexeme ends

Where a literal ends does not depend on whether its escapes are valid.  From after the opening
quote one may skim over the text without looking at escapes at all: a backslash takes the next
character with it, and the first quote that is met, or the end of the line, is the end of the
lexeme (`Scanner.emits_quoted`).

Rules and recovery jump over whole escapes, and over braced ones they look for the closing brace
across backslashes on the way.  The two walks keep in step all the same: inside the braces stands no
quote and no line break, so skimming goes on to the brace, whether the brace itself has a backslash
before it or not (`BrokenLiteral.skim_braces`).  A verbatim string knows no escapes; it ends at the
first triple quote, or it takes the whole text.
-/
namespace LayoutLexer

open CharClass

namespace Literal

open Words

/-! ## Braced codes -/

/-- A character that may stand in a braced code. -/
def isCodeChar (c : Char) : Bool := c == '#' || isHexDigit c || isNameChar c

variable {t : Text}

theorem exists_body_of_mem_mul {L : Language Char} (hL : Only isCodeChar L)
    (h : t ∈ L * oneOf (· == '}')) :
    ∃ body, t = body ++ ['}'] ∧ ∀ c ∈ body, isCodeChar c = true := by
  obtain ⟨body, hbody, _, ⟨c, hc, rfl⟩, rfl⟩ := h
  exact ⟨body, by rw [eq_of_beq hc], hL hbody⟩

/-- A braced code has nothing between its braces but characters of codes. -/
theorem exists_body_of_mem_characterCodeWords (h : t ∈ characterCodeWords) :
    ∃ body, t = '{' :: (body ++ ['}']) ∧ ∀ c ∈ body, isCodeChar c = true := by
  have hhex (width : Nat) : Only isCodeChar (oneOf (· == '#') * times isHexDigit width) :=
    (only_oneOf.mono fun c hc => by simp [isCodeChar, eq_of_beq hc]).mul
      (only_times.mono fun c hc => by simp [isCodeChar, hc])
  have hname : Only isCodeChar characterNameWords :=
    only_characterNameWords.mono fun c hc => by simp [isCodeChar, hc]
  have hcode (width : Nat) {u : Text} (hu : u ∈ hexCodeWords width) :
      ∃ body, u = body ++ ['}'] ∧ ∀ c ∈ body, isCodeChar c = true := by
    refine exists_body_of_mem_mul (hhex width) ?_
    rw [mul_assoc]
    exact hu
  obtain ⟨u, hu, rfl⟩ := mem_char_mul_iff.1 h
  have hbody : ∃ body, u = body ++ ['}'] ∧ ∀ c ∈ body, isCodeChar c = true := by
    rcases hu with hu | hu | hu | hu
    · exact hcode 6 hu
    · exact hcode 4 hu
    · exact hcode 2 hu
    · exact exists_body_of_mem_mul hname hu
  obtain ⟨body, rfl, hbody⟩ := hbody
  exact ⟨body, rfl, hbody⟩

end Literal

namespace BrokenLiteral

open Literal

/-! ## Skimming -/

/-- Where skimming over the inside of a literal stops. -/
structure Stop where
  /-- What was passed over, with the quote at its end if one was met. -/
  passed : Text
  /-- Whether a quote was met. -/
  closed : Bool
  rest : Text
  deriving DecidableEq, Repr

/-- The same stop, after more text has been passed over. -/
def Stop.past (t : Text) (stop : Stop) : Stop := { stop with passed := t ++ stop.passed }

/-- Skims over a text up to the first quote or the end of the line.  A backslash takes the next
character with it, unless it is the last character of its line. -/
def skim (quote : Char) : Text → Stop
  | [] => ⟨[], false, []⟩
  | c :: rest =>
    if isLineBreak c then ⟨[], false, c :: rest⟩
    else if c = quote then ⟨[c], true, rest⟩
    else if c = '\\' then
      match rest with
      | [] => ⟨[c], false, []⟩
      | d :: after =>
        if isLineBreak d then ⟨[c], false, d :: after⟩ else (skim quote after).past [c, d]
    else (skim quote rest).past [c]

variable {quote c d : Char} {s rest : Text}

theorem Stop.past_past (t u : Text) (stop : Stop) :
    (stop.past u).past t = stop.past (t ++ u) := by
  simp [Stop.past, List.append_assoc]

theorem skim_break (hbreak : isLineBreak c = true) :
    skim quote (c :: rest) = ⟨[], false, c :: rest⟩ := by
  rw [skim.eq_def]
  exact if_pos hbreak

theorem skim_quote (hbreak : isLineBreak quote = false) :
    skim quote (quote :: rest) = ⟨[quote], true, rest⟩ := by
  rw [skim.eq_def]
  dsimp only
  rw [hbreak, if_neg Bool.false_ne_true, if_pos rfl]

theorem skim_plain (hbreak : isLineBreak c = false) (hquote : c ≠ quote) (hback : c ≠ '\\') :
    skim quote (c :: rest) = (skim quote rest).past [c] := by
  rw [skim.eq_def]
  dsimp only
  rw [hbreak, if_neg Bool.false_ne_true, if_neg hquote, if_neg hback]

theorem skim_backslash (hquote : quote ≠ '\\') :
    skim quote ('\\' :: rest) =
      match rest with
      | [] => ⟨['\\'], false, []⟩
      | d :: after =>
        if isLineBreak d then ⟨['\\'], false, d :: after⟩
        else (skim quote after).past ['\\', d] := by
  rw [skim.eq_def]
  dsimp only
  rw [if_neg (by decide), if_neg (Ne.symm hquote), if_pos rfl]
  cases rest <;> rfl

theorem skim_escape (hquote : quote ≠ '\\') (hbreak : isLineBreak d = false) :
    skim quote ('\\' :: d :: rest) = (skim quote rest).past ['\\', d] := by
  rw [skim_backslash hquote]
  dsimp only
  rw [hbreak, if_neg Bool.false_ne_true]

/-- What may stand between the braces of an escape is skimmed over together with the closing
brace. -/
theorem skim_braces (hquote : quote ≠ '\\') (hbrace : quote ≠ '}') (s : Text) {body : Text}
    (hbody : ∀ c ∈ body, isInsideBraces quote c = true) :
    skim quote (body ++ '}' :: s) = (skim quote s).past (body ++ ['}']) := by
  have hinside {c : Char} (hc : isInsideBraces quote c = true) :
      isLineBreak c = false ∧ c ≠ quote := by
    simp only [isInsideBraces, Bool.not_eq_true', Bool.or_eq_false_iff, beq_eq_false_iff_ne] at hc
    exact ⟨hc.2, hc.1.2⟩
  have hclose : skim quote ('}' :: s) = (skim quote s).past ['}'] :=
    skim_plain (by decide) (Ne.symm hbrace) (by decide)
  induction body using List.twoStepInduction with
  | nil => exact hclose
  | singleton c =>
    obtain ⟨hbreak, hne⟩ := hinside (hbody c List.mem_cons_self)
    by_cases hback : c = '\\'
    · -- the closing brace is what the backslash takes with it
      subst hback
      exact skim_escape hquote (by decide)
    · show skim quote (c :: '}' :: s) = _
      rw [skim_plain hbreak hne hback, hclose, Stop.past_past]
  | cons_cons c d body ih ihd =>
    obtain ⟨hc, hbody⟩ := List.forall_mem_cons.1 hbody
    obtain ⟨hd, htail⟩ := List.forall_mem_cons.1 hbody
    obtain ⟨hbreak, hne⟩ := hinside hc
    by_cases hback : c = '\\'
    · subst hback
      show skim quote ('\\' :: d :: (body ++ '}' :: s)) = _
      rw [skim_escape hquote (hinside hd).1, ih htail, Stop.past_past]
      rfl
    · show skim quote (c :: (d :: body ++ '}' :: s)) = _
      rw [skim_plain hbreak hne hback, ihd d hbody, Stop.past_past]
      rfl

/-! ## Skimming keeps in step with the walk -/

/-- What an escape, valid or not, may have after its backslash. -/
inductive Tail (quote : Char) : Text → Text → Prop
  /-- The backslash is the last character of the line. -/
  | last {after : Text} : (∀ c ∈ after.head?, isLineBreak c = true) → Tail quote [] after
  | single {c : Char} {after : Text} : isLineBreak c = false → Tail quote [c] after
  | braced {body after : Text} : (∀ c ∈ body, isInsideBraces quote c = true) →
      Tail quote ('{' :: (body ++ ['}'])) after

theorem skim_tail (hquote : quote ≠ '\\') (hbrace : quote ≠ '}') {tail after : Text}
    (h : Tail quote tail after) :
    skim quote ('\\' :: (tail ++ after)) = (skim quote after).past ('\\' :: tail) := by
  cases h with
  | last hbreak =>
    cases after with
    | nil => exact skim_backslash hquote
    | cons c after =>
      have hc : isLineBreak c = true := hbreak c rfl
      rw [List.nil_append, skim_backslash hquote, skim_break hc]
      exact if_pos hc
  | single hbreak => exact skim_escape hquote hbreak
  | @braced body _ hbody =>
    show skim quote ('\\' :: '{' :: (body ++ ['}'] ++ after)) = _
    rw [skim_escape hquote (by decide), List.append_assoc]
    rw [show ['}'] ++ after = '}' :: after from rfl, skim_braces hquote hbrace after hbody,
      Stop.past_past]
    rfl

theorem tail_of_escapeTail (hquote : quote = '"' ∨ quote = '\'') {tail after : Text}
    (h : escapeTail s = some (tail, after)) : Tail quote tail after := by
  rcases takesLongest_escapeTail.mem h with ⟨c, hc, rfl⟩ | hcode
  · refine .single ?_
    exact isLineBreak_of_class (p := isSimpleEscape) rfl rfl c hc
  · obtain ⟨body, rfl, hbody⟩ := exists_body_of_mem_characterCodeWords hcode
    refine .braced fun c hc => ?_
    have hne {d : Char} (hd : isCodeChar d = false) : (c == d) = false :=
      Words.ne_of_class hd c (hbody c hc)
    have hnotQuote : (c == quote) = false := by
      rcases hquote with rfl | rfl
      · exact hne (by decide)
      · exact hne (by decide)
    rw [isInsideBraces, hne (by decide), hnotQuote,
      isLineBreak_of_class (p := isCodeChar) (by decide) (by decide) c (hbody c hc)]
    rfl

theorem tail_invalidTail (quote : Char) (s : Text) :
    Tail quote (invalidTail quote s).1 (invalidTail quote s).2 := by
  unfold invalidTail
  split
  · refine .last ?_
    rintro _ ⟨⟩
  · next c rest =>
    by_cases hbreak : isLineBreak c = true
    · rw [if_pos hbreak]
      refine .last ?_
      rintro _ ⟨⟩
      exact hbreak
    · rw [if_neg hbreak]
      rw [Bool.not_eq_true] at hbreak
      by_cases hopen : c = '{'
      · rw [if_pos hopen]
        split
        · rw [hopen]
          exact .braced fun d hd => List.mem_takeWhile_imp hd
        · exact .single hbreak
      · rw [if_neg hopen]
        exact .single hbreak

/-- The first piece is skimmed over. -/
theorem skim_firstPiece (hquote : quote = '"' ∨ quote = '\'') (hbreak : isLineBreak c = false)
    (hne : c ≠ quote) :
    skim quote (c :: rest) =
      (skim quote (firstPiece quote c rest).2).past (firstPiece quote c rest).1.text := by
  have hback : quote ≠ '\\' := by rcases hquote with rfl | rfl <;> decide
  have hbrace : quote ≠ '}' := by rcases hquote with rfl | rfl <;> decide
  unfold firstPiece
  by_cases hc : c = '\\'
  · subst hc
    rw [if_pos rfl]
    cases hescape : escapeTail rest with
    | some split =>
      obtain ⟨tail, after⟩ := split
      have hskim := skim_tail hback hbrace (tail_of_escapeTail hquote hescape)
      rw [splits_escapeTail hescape] at hskim
      exact hskim
    | none =>
      have hskim := skim_tail hback hbrace (tail_invalidTail quote rest)
      rw [invalidTail_append] at hskim
      exact hskim
  · rw [if_neg hc]
    exact skim_plain hbreak hne hc

/-- Skimming stops where the walk does, and what it passes over are the pieces of the walk. -/
theorem skim_eq_walk (hquote : quote = '"' ∨ quote = '\'') (s : Text) :
    skim quote s =
      ⟨(walk quote s).inside ++ (walk quote s).closing quote, (walk quote s).closed,
        (walk quote s).rest⟩ := by
  fun_induction walk quote s with
  | case1 => rfl
  | case2 c rest hbreak => exact skim_break hbreak
  | case3 rest hbreak =>
    rw [Bool.not_eq_true] at hbreak
    exact skim_quote hbreak
  | case4 c rest hbreak hne tail ih =>
    rw [Bool.not_eq_true] at hbreak
    rw [skim_firstPiece hquote hbreak hne, ih]
    simp [Stop.past, Walk.inside, Walk.closing, tail]

end BrokenLiteral

/-! ## Verbatim strings -/

namespace Literal

/-- Where no triple quote ends a text, there is none in it. -/
theorem not_infix_of_throughTripleQuote {s : Text} (h : throughTripleQuote s = none) :
    ¬ tripleQuote <:+: s := by
  induction s with
  | nil =>
    intro hin
    cases List.infix_nil.1 hin
  | cons c s ih =>
    rw [throughTripleQuote] at h
    split at h
    · cases h
    · next hafter =>
      intro hin
      rcases List.infix_cons_iff.1 hin with ⟨after, hfront⟩ | hlater
      · rw [← hfront, Text.after?_eq_some_iff.2 rfl] at hafter
        cases hafter
      · exact ih (Option.map_eq_none_iff.1 h) hlater

/-- A triple quote ends the text that is read through it, and no other one does so before. -/
theorem split_of_throughTripleQuote {s m after : Text}
    (h : throughTripleQuote s = some (m, after)) :
    ∃ before, m = before ++ tripleQuote ∧ s = before ++ (tripleQuote ++ after) ∧
      ∀ earlier, earlier ++ tripleQuote <+: s → before.length ≤ earlier.length := by
  obtain ⟨⟨before, rfl⟩, hfirst⟩ := takesLongest_throughTripleQuote.mem h
  have hs := splits_throughTripleQuote h
  refine ⟨before, rfl, by rw [← hs, List.append_assoc], ?_⟩
  intro earlier hearlier
  by_contra hlt
  have hlength : (earlier ++ tripleQuote).length ≤ (before ++ tripleQuote).length := by
    rw [List.length_append, List.length_append]
    omega
  have hin : earlier ++ tripleQuote <+: before ++ tripleQuote :=
    List.prefix_of_prefix_length_le hearlier ⟨after, hs⟩ hlength
  have hsame := congrArg List.length (hfirst _ hin (List.suffix_append earlier tripleQuote))
  rw [List.length_append, List.length_append] at hsame
  omega

end Literal

/-! ## The lexeme at a quote -/

namespace Lexeme

open BrokenLiteral Literal

/-- The lexeme of a literal of one line ends where skimming stops. -/
structure StopsAt (literal : LiteralKind) (quote : Char) (stop : Stop) (l : Lexeme) : Prop where
  kind : l.kind = .lexical (.rule literal.rule) ∨ l.kind = .error .literal
  text : l.text = quote :: stop.passed
  rest : l.rest = stop.rest
  /-- It is reported to have no end just if skimming met no quote. -/
  unterminated : (∃ flaw ∈ l.flaws, flaw.fault = .unterminatedLiteral literal) ↔
    stop.closed = false

/-- The lexeme after a triple quote ends at the next one, or it is the whole text. -/
structure EndsAtTripleQuote (inside : Text) (l : Lexeme) : Prop where
  closed : tripleQuote <:+: inside → ∃ before after,
    inside = before ++ (tripleQuote ++ after) ∧
      (∀ earlier, earlier ++ tripleQuote <+: inside → before.length ≤ earlier.length) ∧
      l = ⟨.lexical (.rule .verbatimStringLiteral), tripleQuote ++ (before ++ tripleQuote), after,
        []⟩
  unterminated : ¬ tripleQuote <:+: inside →
    l = ⟨.error .literal, tripleQuote ++ inside, [],
      [⟨.zero, tripleQuote ++ inside, .unterminatedLiteral .verbatim⟩]⟩

variable {quote : Char} {rest : Text} {kind : LiteralKind}

theorem unterminated_mem_literalFaults {lexeme : Text} {w : Walk} :
    Fault.unterminatedLiteral kind ∈ literalFaults kind lexeme w ↔ w.closed = false := by
  unfold literalFaults
  cases w.closed with
  | false => exact iff_of_true (List.mem_singleton.2 rfl) rfl
  | true =>
    refine iff_of_false ?_ nofun
    intro hmem
    rw [if_neg (by decide)] at hmem
    split at hmem
    · cases List.mem_singleton.1 hmem
    · cases hmem

theorem stopsAt_brokenQuoted (hquote : quote = '"' ∨ quote = '\'') :
    StopsAt kind quote (skim quote rest) (brokenQuoted kind quote rest) := by
  have hopen : Fault.unterminatedLiteral kind ∈
      literalFaults kind ((walk quote rest).lexeme quote) (walk quote rest) ↔
        (walk quote rest).closed = false := unterminated_mem_literalFaults
  rw [skim_eq_walk hquote]
  refine ⟨.inr rfl, rfl, rfl, ?_⟩
  rw [← hopen]
  constructor
  · rintro ⟨flaw, hflaw, hfault⟩
    rcases List.mem_append.1 hflaw with hflaw | hflaw
    · obtain ⟨e, _, rfl⟩ := List.mem_map.1 hflaw
      cases hfault
    · obtain ⟨fault, hmem, rfl⟩ := List.mem_map.1 hflaw
      rwa [← show fault = _ from hfault]
  · intro hmem
    exact ⟨_, List.mem_append_right _ (List.mem_map.2 ⟨_, hmem, rfl⟩), rfl⟩

/-- At the quote of a literal of one line the lexeme ends where skimming stops. -/
theorem stopsAt_read
    (hkind : kind = .string ∧ quote = '"' ∨ kind = .character ∧ quote = '\'')
    (hopen : LiteralKind.opening? (quote :: rest) = some kind) :
    StopsAt kind quote (skim quote rest) (read quote rest) := by
  have hquote : quote = '"' ∨ quote = '\'' := hkind.imp And.right And.right
  cases h : kind.rule.recognizer (quote :: rest) with
  | none =>
    rw [read_of_rejected hopen h]
    have hbroken : brokenLiteral kind quote rest = brokenQuoted kind quote rest := by
      rcases hkind with ⟨rfl, _⟩ | ⟨rfl, _⟩ <;> rfl
    rw [hbroken]
    exact stopsAt_brokenQuoted hquote
  | some split =>
    obtain ⟨m, after⟩ := split
    have hwalk : (walk quote rest).closed = true ∧ (walk quote rest).lexeme quote = m ∧
        (walk quote rest).rest = after := by
      rcases hkind with ⟨rfl, rfl⟩ | ⟨rfl, rfl⟩
      · obtain ⟨hclosed, _, hlexeme, hrest⟩ := string_eq_some_iff.1 h
        exact ⟨hclosed, hlexeme, hrest⟩
      · obtain ⟨hclosed, _, _, hlexeme, hrest⟩ := character_eq_some_iff.1 h
        exact ⟨hclosed, hlexeme, hrest⟩
    obtain ⟨hclosed, rfl, rfl⟩ := hwalk
    rw [read_of_accepted hopen h, skim_eq_walk hquote, hclosed]
    exact ⟨.inl rfl, rfl, rfl, iff_of_false (by rintro ⟨_, ⟨⟩, _⟩) nofun⟩

theorem endsAtTripleQuote_read {inside : Text} (hinside : quote :: rest = tripleQuote ++ inside) :
    EndsAtTripleQuote inside (read quote rest) := by
  have hopen : LiteralKind.opening? (quote :: rest) = some .verbatim :=
    opening?_eq_verbatim_iff.2 ⟨inside, hinside.symm⟩
  have hverbatim : verbatim (quote :: rest) =
      (throughTripleQuote inside).map fun split => (tripleQuote ++ split.1, split.2) := by
    rw [hinside]
    rfl
  cases h : throughTripleQuote inside with
  | none =>
    have hread := read_of_rejected hopen (hverbatim.trans (by rw [h]; rfl))
    refine ⟨fun hin => absurd hin (not_infix_of_throughTripleQuote h), fun _ => ?_⟩
    rw [hread, ← hinside]
    rfl
  | some split =>
    obtain ⟨m, after⟩ := split
    have hread := read_of_accepted hopen (hverbatim.trans (by rw [h]; rfl))
    obtain ⟨before, rfl, hsplit, hfirst⟩ := split_of_throughTripleQuote h
    refine ⟨fun _ => ⟨before, after, hsplit, hfirst, hread⟩, fun hno => ?_⟩
    exact absurd ⟨before, after, by rw [hsplit, List.append_assoc]⟩ hno

end Lexeme

/-- **Where a quoted lexeme ends does not depend on its escapes**: at a single quote, or at a double
quote that begins no triple quote, the scanner emits a lexeme that ends where skimming stops; at a
triple quote it ends after the next triple quote, or it is the whole text if there is none. -/
theorem Scanner.emits_quoted {s : Scanner} {c : Char} {rest : Text} (hs : s.rest = c :: rest) :
    s.Emits (Lexeme.read c rest) ∧
      (c = '\'' → Lexeme.StopsAt .character c (BrokenLiteral.skim c rest) (Lexeme.read c rest)) ∧
      (c = '"' → ¬ Literal.tripleQuote <+: c :: rest →
        Lexeme.StopsAt .string c (BrokenLiteral.skim c rest) (Lexeme.read c rest)) ∧
      ∀ inside, c :: rest = Literal.tripleQuote ++ inside →
        Lexeme.EndsAtTripleQuote inside (Lexeme.read c rest) := by
  refine ⟨emits_read hs, ?_, ?_, fun inside => Lexeme.endsAtTripleQuote_read⟩
  · rintro rfl
    exact Lexeme.stopsAt_read (.inr ⟨rfl, rfl⟩) rfl
  · rintro rfl htriple
    refine Lexeme.stopsAt_read (.inl ⟨rfl, rfl⟩) ?_
    rw [Lexeme.opening?_of_not_triple htriple]
    rfl

/-- In a string with an invalid escape, whose closing brace has a backslash before it, the lexeme
ends at the first quote; two quotes do not end a verbatim string. -/
theorem Scanner.emits_quoted_invalid_escape :
    let inside : Text := ['\\', '{', '#', '\\', '}', '"', 'x', '"']
    let l := Lexeme.read '"' inside
    let opened : Text := ['a', '"', '"']
    (ofText ('"' :: inside)).Emits l ∧ l.text = ['"', '\\', '{', '#', '\\', '}', '"'] ∧
      l.rest = ['x', '"'] ∧ l.kind = .error .literal ∧
      Lexeme.read '"' ('"' :: '"' :: opened) =
        ⟨.error .literal, Literal.tripleQuote ++ opened, [],
          [⟨.zero, Literal.tripleQuote ++ opened, .unterminatedLiteral .verbatim⟩]⟩ := by
  intro inside l opened
  have hs : (ofText ('"' :: inside)).rest = '"' :: inside := rfl
  have hs' : (ofText ('"' :: '"' :: '"' :: opened)).rest = '"' :: '"' :: '"' :: opened := rfl
  obtain ⟨hemits, _, hstring, _⟩ := emits_quoted hs
  obtain ⟨_, _, _, hverbatim⟩ := emits_quoted hs'
  have hstops := hstring rfl (by decide)
  have hskim : BrokenLiteral.skim '"' inside =
      ⟨['\\', '{', '#', '\\', '}', '"'], true, ['x', '"']⟩ := by decide
  rw [hskim] at hstops
  exact ⟨hemits, hstops.text, hstops.rest, by decide +kernel,
    (hverbatim opened rfl).unterminated (by decide)⟩

end LayoutLexer

import LayoutLexer.Proofs.Cursor

/-! # The lexeme at an offset

A cursor that stands before a text (`Cursor.Stands`) scans the lexeme at the front of the text
and moves past it, and nothing on the way is aborted (`Cursor.scanToken_eq`).
-/
namespace LayoutLexer

open CharClass Guarded

/-! ## Matches -/

theorem Pattern.matchBytes?_eq (p : Pattern) (input : Text) :
    p.matchBytes? input = .ok (p.matchLength? input) := by
  have hexactly (t : Text) : (if t.isPrefixOf input then some t.byteLength else none) =
      (Recognizer.exactly t input).map fun split => split.1.byteLength := by
    unfold Recognizer.exactly
    cases hafter : Text.after? t input with
    | some after =>
      rw [if_pos (List.isPrefixOf_iff_prefix.2 ⟨after, (Text.after?_eq_some_iff.1 hafter).symm⟩)]
      rfl
    | none =>
      refine if_neg fun hprefix => ?_
      obtain ⟨after, happ⟩ := List.isPrefixOf_iff_prefix.1 hprefix
      rw [Text.after?_eq_some_iff.2 happ.symm] at hafter
      cases hafter
  unfold matchBytes? matchLength?
  cases p with
  | keyword k => exact congrArg Except.ok (hexactly _)
  | symbol s => exact congrArg Except.ok (hexactly _)
  | rule r =>
    dsimp only [text?]
    cases haccept : (Pattern.rule r).recognizer input with
    | none => rfl
    | some split =>
      obtain ⟨m, after⟩ := split
      -- the part that the rule accepts is what the rest is shorter by
      have happ := Lexicon.splits_recognizer _ haccept
      dsimp only
      rw [← happ, Text.byteLength_append, sub_of_add, ok_bind, slice_prefix]
      rfl

namespace Lexicon

/-- A match as a scan by offsets knows it. -/
def bytes (m : Match) : Pattern × Nat := (m.pattern, m.lexeme.byteLength)

theorem betterBytes_eq {input : Text} {best : Option Match} {next : Match}
    (hbest : ∀ m ∈ best, m.lexeme ++ m.rest = input) (hnext : next.lexeme ++ next.rest = input)
    (hne : next.lexeme ≠ []) :
    betterBytes (best.map bytes) next.pattern next.lexeme.byteLength =
      (better best next).map bytes := by
  unfold betterBytes
  rw [if_neg fun hzero => hne (Text.byteLength_eq_zero_iff.1 hzero)]
  cases best with
  | none => rfl
  | some m =>
    have hlt := Text.byteLength_lt_iff ((hbest m rfl).trans hnext.symm)
    dsimp only [Option.map_some, bytes, better]
    by_cases hlonger : m.lexeme.length < next.lexeme.length
    · rw [if_pos hlonger, if_pos (hlt.2 hlonger)]
      rfl
    · rw [if_neg hlonger, if_neg fun h => hlonger (hlt.1 h)]
      rfl

/-- Trying a pattern keeps the best match. -/
theorem tryBytes_eq {input : Text} {best : Option Match}
    (hbest : ∀ m ∈ best, m.lexeme ++ m.rest = input) (p : Pattern) :
    tryBytes input (best.map bytes) p =
      .ok (((matchOf? input p).toList.foldl better best).map bytes) := by
  rw [tryBytes, Pattern.matchBytes?_eq, ok_bind, Pattern.matchLength?, matchOf?]
  cases haccept : p.recognizer input with
  | none => rfl
  | some split =>
    obtain ⟨m, after⟩ := split
    cases m with
    | nil => rfl
    | cons c m =>
      exact congrArg Except.ok (@betterBytes_eq input best ⟨p, c :: m, after⟩ hbest
        (splits_recognizer p haccept) (List.cons_ne_nil c m))

theorem longestBytes_eq (input : Text) :
    longestBytes input = .ok ((longestMatch input).map bytes) := by
  have hfold (ps : List Pattern) (best : Option Match)
      (hbest : ∀ m ∈ best, m.lexeme ++ m.rest = input) :
      ps.foldlM (tryBytes input) (best.map bytes) =
        .ok (((ps.filterMap (matchOf? input)).foldl better best).map bytes) := by
    induction ps generalizing best with
    | nil => rfl
    | cons p ps ih =>
      rw [List.foldlM_cons, tryBytes_eq hbest, ok_bind, ih, List.filterMap_cons]
      · cases matchOf? input p <;> rfl
      · intro m hm
        rcases foldl_better_mem hm with h | h
        · exact hbest m h
        · obtain ⟨haccept, rfl, _⟩ := matchOf?_eq_some_iff.1 (Option.mem_toList.1 h)
          exact splits_recognizer _ haccept
  exact hfold patterns none (by simp)

end Lexicon

/-! ## Broken literals -/

namespace BrokenLiteral

variable {quote c : Char} {rest : Text}

theorem braceIndex?_eq_some_iff {index found : Nat} :
    braceIndex? quote index rest = some found ↔
      (∃ after, rest.dropWhile (isInsideBraces quote) = '}' :: after) ∧
        found = index + Text.byteLength (rest.takeWhile (isInsideBraces quote)) := by
  induction rest generalizing index with
  | nil => simp [braceIndex?]
  | cons c rest ih =>
    rw [braceIndex?]
    by_cases hbrace : c = '}'
    · have hstop : ¬ isInsideBraces quote c = true := by simp [isInsideBraces, hbrace]
      rw [if_pos hbrace, List.dropWhile_cons_of_neg hstop, List.takeWhile_cons_of_neg hstop]
      simp [hbrace, eq_comm]
    · rw [if_neg hbrace]
      by_cases hend : (isLineBreak c || c == quote) = true
      · have hstop : ¬ isInsideBraces quote c = true := by
          rw [isInsideBraces, Bool.or_assoc, Bool.or_comm (c == quote), hend]
          simp
        rw [if_pos hend, List.dropWhile_cons_of_neg hstop]
        simp [hbrace]
      · have hgo : isInsideBraces quote c = true := by
          rw [Bool.not_eq_true] at hend
          rw [isInsideBraces, Bool.or_assoc, Bool.or_comm (c == quote), hend]
          simp [hbrace]
        rw [if_neg hend, ih, List.dropWhile_cons_of_pos hgo, List.takeWhile_cons_of_pos hgo,
          Text.byteLength_cons, Nat.add_assoc]

theorem invalidTail_of_break (h : isLineBreak c = true) :
    invalidTail quote (c :: rest) = ([], c :: rest) := by
  rw [invalidTail, if_pos h]

theorem invalidTail_of_brace {after : Text}
    (h : rest.dropWhile (isInsideBraces quote) = '}' :: after) :
    invalidTail quote ('{' :: rest) =
      ('{' :: (rest.takeWhile (isInsideBraces quote) ++ ['}']), after) := by
  rw [invalidTail, if_neg (by decide), if_pos rfl, h]
  rfl

theorem invalidTail_of_open (h : ∀ after, rest.dropWhile (isInsideBraces quote) ≠ '}' :: after) :
    invalidTail quote ('{' :: rest) = (['{'], rest) := by
  rw [invalidTail, if_neg (by decide), if_pos rfl]
  split
  · next after hafter => exact absurd hafter (h after)
  · rfl

theorem invalidTail_of_ne (hbreak : ¬ isLineBreak c = true) (hopen : c ≠ '{') :
    invalidTail quote (c :: rest) = ([c], rest) := by
  rw [invalidTail, if_neg hbreak, if_neg hopen]

/-- An invalid escape takes as many bytes as its text. -/
theorem invalidBytes_eq (hshort : rest.byteLength < 2 ^ 63) :
    invalidBytes quote rest = .ok (Text.byteLength ('\\' :: (invalidTail quote rest).1)) := by
  have hone : '\\'.utf8Size = 1 := rfl
  cases rest with
  | nil => rfl
  | cons c rest =>
    rw [Text.byteLength_cons] at hshort
    rw [invalidBytes]
    by_cases hbreak : isLineBreak c = true
    · rw [if_pos hbreak, invalidTail_of_break hbreak]
      rfl
    · rw [if_neg hbreak]
      by_cases hopen : c = '{'
      · subst hopen
        rw [if_pos rfl]
        have hsize : '{'.utf8Size = 1 := rfl
        cases hindex : braceIndex? quote 2 rest with
        | some index =>
          obtain ⟨⟨after, hafter⟩, rfl⟩ := braceIndex?_eq_some_iff.1 hindex
          have hclose : '}'.utf8Size = 1 := rfl
          have hsplit := congrArg Text.byteLength (invalidTail_append quote ('{' :: rest))
          rw [invalidTail_of_brace hafter] at hsplit ⊢
          simp only [Text.byteLength_cons, Text.byteLength_append, Text.byteLength_nil, hsize,
            hclose, hone] at hshort hsplit ⊢
          rw [add_of_lt (by omega)]
          congr 1
          omega
        | none =>
          rw [invalidTail_of_open]
          · rfl
          · intro after hafter
            rw [braceIndex?_eq_some_iff.2 ⟨⟨after, hafter⟩, rfl⟩] at hindex
            cases hindex
      · rw [if_neg hopen, invalidTail_of_ne hbreak hopen, add_of_lt (by omega)]
        simp [hone]

/-- Whether a piece is an invalid escape. -/
def Piece.isInvalid : Piece → Bool
  | .invalidEscape _ => true
  | _ => false

/-- A piece takes as many bytes as its text. -/
theorem pieceBytes_eq (hshort : rest.byteLength < 2 ^ 63) :
    pieceBytes quote c rest =
      .ok ((firstPiece quote c rest).1.text.byteLength, (firstPiece quote c rest).1.isInvalid) := by
  unfold pieceBytes firstPiece
  by_cases hback : c = '\\'
  · subst hback
    rw [if_pos rfl, if_pos rfl]
    have hescape : Literal.escape ('\\' :: rest) =
        (Literal.escapeTail rest).map fun split => ('\\' :: split.1, split.2) := rfl
    rw [hescape]
    cases htail : Literal.escapeTail rest with
    | some split =>
      obtain ⟨m, after⟩ := split
      have hlen : Text.byteLength ('\\' :: rest) =
          Text.byteLength ('\\' :: m) + after.byteLength := by
        rw [← Literal.splits_escapeTail htail, ← List.cons_append, Text.byteLength_append]
      dsimp only [Option.map_some, Piece.text, Piece.isInvalid]
      rw [hlen, sub_of_add]
      rfl
    | none =>
      dsimp only [Option.map_none, Piece.text, Piece.isInvalid]
      rw [invalidBytes_eq hshort]
      rfl
  · rw [if_neg hback, if_neg hback]
    simp [Piece.text, Piece.isInvalid]

/-- Where an invalid escape at a distance begins and ends. -/
def range (e : Distance × Text) : Nat × Nat := (e.1.bytes, e.1.bytes + e.2.byteLength)

theorem append_map_range_invalidFrom {invalid : List (Nat × Nat)} {d : Distance} {p : Piece}
    {pieces : List Piece} :
    (if p.isInvalid then invalid ++ [(d.bytes, d.bytes + p.text.byteLength)] else invalid) ++
        (Walk.invalidFrom (d.past p.text) pieces).map range =
      invalid ++ (Walk.invalidFrom d (p :: pieces)).map range := by
  cases p with
  | plain c => rfl
  | escape t => rfl
  | invalidEscape t => exact List.append_assoc _ _ _

/-- A walk by offsets finds what the walk over the text finds. -/
theorem walkBytes_eq {input before tail : Text} {fuel units : Nat} {d : Distance}
    {invalid : List (Nat × Nat)} (hshort : input.byteLength < 2 ^ 63)
    (hinput : input = before ++ tail) (hplace : before.byteLength = d.bytes)
    (hunits : units ≤ before.length) (hfuel : tail.length < fuel) :
    walkBytes input quote fuel d.bytes units invalid =
      .ok ⟨d.bytes + Text.byteLength ((walk quote tail).inside ++ (walk quote tail).closing quote),
        (walk quote tail).closed, units + (walk quote tail).pieces.length,
        invalid ++ (Walk.invalidFrom d (walk quote tail).pieces).map range⟩ := by
  -- by induction on the fuel: a piece is not empty, so what is left of it is enough
  induction fuel generalizing before tail units d invalid with
  | zero => exact absurd hfuel (Nat.not_lt_zero _)
  | succ fuel ih =>
    have hrest : slice input d.bytes input.byteLength = .ok tail := by
      rw [hinput, ← hplace]
      exact slice_suffix
    rw [walkBytes, hrest, ok_bind]
    cases tail with
    | nil =>
      rw [walk]
      simp [Walk.inside, Walk.closing, Walk.invalidFrom]
    | cons c rest =>
      have htotal : d.bytes + (c.utf8Size + Text.byteLength rest) < 2 ^ 63 := by
        rw [← hplace, ← Text.byteLength_cons, ← Text.byteLength_append, ← hinput]
        exact hshort
      rw [walk]
      dsimp only
      by_cases hbreak : isLineBreak c = true
      · rw [if_pos hbreak, if_pos hbreak]
        simp [Walk.inside, Walk.closing, Walk.invalidFrom]
      · rw [if_neg hbreak, if_neg hbreak]
        by_cases hquote : c = quote
        · rw [if_pos hquote, if_pos hquote, add_of_lt (by omega)]
          simp [Walk.inside, Walk.closing, Walk.invalidFrom, hquote]
        · have hsplit := firstPiece_append quote c rest
          have hne := List.length_pos_iff.2 (firstPiece_ne_nil quote c rest)
          have hle := firstPiece_length_le quote c rest
          rw [if_neg hquote, if_neg hquote, pieceBytes_eq (by omega), ok_bind]
          generalize firstPiece quote c rest = split at hsplit hne hle ⊢
          obtain ⟨piece, after⟩ := split
          have hbytes := congrArg Text.byteLength hsplit
          have hlength := Text.length_le_byteLength before
          have hpos := c.utf8Size_pos
          rw [Text.byteLength_append, Text.byteLength_cons] at hbytes
          rw [List.length_cons] at hfuel
          dsimp only at hsplit hne hle hbytes ⊢
          have hgo := @ih (before ++ piece.text) after (units + 1) (d.past piece.text)
            (if piece.isInvalid then invalid ++ [(d.bytes, d.bytes + piece.text.byteLength)]
              else invalid)
            (by rw [hinput, ← hsplit, List.append_assoc])
            (by rw [Text.byteLength_append, hplace]; rfl)
            (by rw [List.length_append]; omega) (by omega)
          rw [add_of_lt (by omega), ok_bind, add_of_lt (by omega), ok_bind]
          refine hgo.trans ?_
          rw [append_map_range_invalidFrom]
          simp [Walk.inside, Walk.closing, Distance.past, Nat.add_assoc, Nat.add_comm 1]

/-- An invalid escape is a piece of the inside of its literal, at its distance. -/
theorem exists_of_mem_invalidFrom {d : Distance} {pieces : List Piece} {e : Distance × Text}
    (h : e ∈ Walk.invalidFrom d pieces) :
    ∃ before after, pieces.flatMap Piece.text = before ++ (e.2 ++ after) ∧ e.1 = d.past before := by
  obtain ⟨before, after, rfl, hd⟩ := Walk.split_of_mem_invalidFrom h
  refine ⟨before.flatMap Piece.text, after.flatMap Piece.text, ?_, hd⟩
  rw [List.flatMap_append, List.flatMap_cons]
  rfl

/-- An invalid escape is a piece of the literal, at its distance from the quote. -/
theorem exists_of_mem_invalidEscapes {e : Distance × Text}
    (h : e ∈ (walk quote rest).invalidEscapes quote) :
    ∃ before after, quote :: rest = before ++ (e.2 ++ after) ∧ e.1 = .past .zero before := by
  have hwalk := walk_append quote rest
  generalize walk quote rest = w at h hwalk
  obtain ⟨before, after, happ, hd⟩ := exists_of_mem_invalidFrom h
  refine ⟨quote :: before, after ++ (w.closing quote ++ w.rest), ?_, ?_⟩
  · rw [← hwalk, Walk.inside, happ]
    simp
  · rw [hd, ← Distance.past_append]
    rfl

/-- From the opening quote on, a walk by offsets finds the broken literal. -/
theorem walkBytes_quote (hshort : Text.byteLength (quote :: rest) < 2 ^ 63) :
    walkBytes (quote :: rest) quote ((quote :: rest).length + 1) quote.utf8Size 0 [] =
      .ok ⟨((walk quote rest).lexeme quote).byteLength, (walk quote rest).closed,
        (walk quote rest).pieces.length, ((walk quote rest).invalidEscapes quote).map range⟩ := by
  have hstart : quote.utf8Size = (Distance.past .zero [quote]).bytes := by
    simp [Distance.past, Distance.zero]
  have hplace : Text.byteLength [quote] = (Distance.past .zero [quote]).bytes := by
    rw [← hstart]
    simp
  have hfound := @walkBytes_eq quote (quote :: rest) [quote] rest ((quote :: rest).length + 1) 0
    (.past .zero [quote]) [] hshort rfl hplace (Nat.zero_le _) (by rw [List.length_cons]; omega)
  rw [hstart, hfound, ← hstart, Walk.lexeme, Text.byteLength_cons, Nat.zero_add]
  rfl

end BrokenLiteral

/-! ## Places -/

@[simp] theorem Position.along_zero (p : Position) : p.along .zero = p := rfl

namespace Position

/-- Line and column are no greater than the number of bytes before the place, save that they
count from one. -/
def Within (p : Position) : Prop := p.line ≤ p.offset + 1 ∧ p.column ≤ p.offset + 1

variable {p : Position}

theorem Within.step (h : p.Within) (c : Char) (next : Option Char) : (p.step c next).Within := by
  have hpos := c.utf8Size_pos
  obtain ⟨hline, hcolumn⟩ := h
  unfold Within
  rw [step_offset]
  unfold Position.step
  by_cases hreturn : c = '\r' ∧ next = some '\n'
  · rw [if_pos hreturn]
    dsimp only
    omega
  · rw [if_neg hreturn]
    by_cases hbreak : isLineBreak c = true
    · rw [if_pos hbreak]
      dsimp only
      omega
    · rw [if_neg hbreak]
      dsimp only
      omega

theorem Within.advance (h : p.Within) (t : Text) : (p.advance t).Within := by
  induction t generalizing p with
  | nil => exact h
  | cons c t ih => exact ih (h.step c t.head?)

/-- Moving over a text that is short enough counts all its lines and columns. -/
theorem move_eq {t : Text} (h : p.Within) (hshort : p.offset + t.byteLength < 2 ^ 63) :
    p.move t = .ok (p.advance t) := by
  induction t generalizing p with
  | nil => rfl
  | cons c t ih =>
    obtain ⟨hline, hcolumn⟩ := h
    rw [Text.byteLength_cons] at hshort
    have hstep : p.move (c :: t) = (p.step c t.head?).move t := by
      rw [move, add_of_lt (by omega), ok_bind, step]
      by_cases hreturn : c = '\r' ∧ t.head? = some '\n'
      · rw [if_pos hreturn, if_pos hreturn]
      · rw [if_neg hreturn, if_neg hreturn]
        by_cases hbreak : isLineBreak c = true
        · rw [if_pos hbreak, if_pos hbreak, add_of_lt (by omega), ok_bind]
        · rw [if_neg hbreak, if_neg hbreak, add_of_lt (by omega), ok_bind]
    have hwithin : (p.step c t.head?).Within := Within.step ⟨hline, hcolumn⟩ c t.head?
    rw [hstep, advance_cons]
    refine ih hwithin ?_
    rw [step_offset]
    omega

end Position

namespace Cursor

/-- A cursor stands before a text: it is what the source holds from the offset on.  The source
is so short that its offsets, lines and columns can be counted. -/
structure Stands (k : Cursor) (text : Text) : Prop where
  splits : ∃ before, k.source = before ++ text ∧ before.byteLength = k.position.offset
  short : k.source.byteLength < 2 ^ 63
  within : k.position.Within

variable {k : Cursor} {text piece after : Text}

namespace Stands

theorem offset_add_le (h : k.Stands text) :
    k.position.offset + text.byteLength = k.source.byteLength := by
  obtain ⟨before, hsource, hplace⟩ := h.splits
  rw [hsource, Text.byteLength_append, hplace]

theorem rest_eq (h : k.Stands text) : k.rest = .ok text := by
  obtain ⟨before, hsource, hplace⟩ := h.splits
  rw [rest, hsource, ← hplace]
  exact slice_suffix

/-- What is true of the state of a cursor besides its source and place does not matter. -/
theorem congr {k' : Cursor} (h : k.Stands text) (hsource : k'.source = k.source)
    (hposition : k'.position = k.position) : k'.Stands text := by
  obtain ⟨hsplits, hshort, hwithin⟩ := h
  rw [← hposition] at hsplits hwithin
  rw [← hsource] at hsplits hshort
  exact ⟨hsplits, hshort, hwithin⟩

end Stands

/-! ## Tokens -/

/-- The cursor after a piece of the text. -/
def past (k : Cursor) (piece : Text) : Cursor :=
  { k with position := k.position.advance piece }

theorem Stands.past (h : k.Stands (piece ++ after)) : (k.past piece).Stands after := by
  obtain ⟨before, hsource, hplace⟩ := h.splits
  refine ⟨⟨before ++ piece, ?_, ?_⟩, h.short, h.within.advance piece⟩
  · rw [List.append_assoc]
    exact hsource
  · show (before ++ piece).byteLength = (k.position.advance piece).offset
    rw [Position.advance_offset, Text.byteLength_append, hplace]

/-- The next bytes, if they are those of a piece of the text, make a token of the piece. -/
theorem emit_eq (h : k.Stands (piece ++ after)) (kind : TokenKind) :
    k.emit kind piece.byteLength = .ok (.ofLexeme kind k.position piece, k.past piece) := by
  obtain ⟨before, hsource, hplace⟩ := h.splits
  have hlength := h.offset_add_le
  have hshort := h.short
  rw [Text.byteLength_append] at hlength
  rw [emit, add_of_lt (by omega), ok_bind, slice_of_append hsource hplace rfl, ok_bind,
    Position.move_eq h.within (by omega)]
  rfl

/-- What is reported of the flaws of the lexeme at the cursor. -/
def flawReports (k : Cursor) (flaws : List Flaw) : List Diagnostic :=
  flaws.map fun flaw =>
    ⟨k.origin, flaw.fault, .ofText (k.position.along flaw.distance) flaw.piece⟩

/-- The cursor with flaws of its lexeme reported. -/
def reported (k : Cursor) (flaws : List Flaw) : Cursor :=
  { k with diagnostics := k.diagnostics ++ k.flawReports flaws }

/-- The token of the lexeme at the cursor, and the cursor after it. -/
def accepted (k : Cursor) (l : Lexeme) : Token × Cursor :=
  (.ofLexeme l.kind k.position l.text, (k.reported l.flaws).past l.text)

theorem emit_ofMatch {m : Match} (h : k.Stands (m.lexeme ++ m.rest)) :
    k.emit (.lexical m.pattern) m.lexeme.byteLength = .ok (k.accepted (.ofMatch m)) := by
  rw [emit_eq h]
  simp [accepted, reported, flawReports, Lexeme.ofMatch, past]

theorem emitError_eq (h : k.Stands (piece ++ after)) (error : ErrorKind) (fault : Text → Fault) :
    k.emitError error piece.byteLength fault =
      .ok (k.accepted (.malformed error piece after (fault piece))) := by
  rw [emitError, emit_eq h]
  rfl

theorem emitError_word (h : k.Stands text) :
    k.emitError .identifier (Identifier.wordBytes text) .malformedIdentifier =
      .ok (k.accepted (.malformedIdentifier text)) := by
  rw [← Identifier.wordRun_append text] at h
  exact emitError_eq h .identifier .malformedIdentifier

theorem scanNumber_eq {m : Match} (h : k.Stands (m.lexeme ++ m.rest)) :
    k.scanNumber (m.lexeme ++ m.rest) m.pattern m.lexeme.byteLength =
      .ok (k.accepted (.number m)) := by
  have hword := Identifier.wordRun_append m.rest
  rw [scanNumber, slice_suffix, ok_bind, Identifier.wordBytes, Lexeme.number]
  generalize Identifier.wordRun m.rest = split at hword ⊢
  obtain ⟨run, after⟩ := split
  cases run with
  | nil => exact (if_neg (Nat.lt_irrefl 0)).trans (emit_ofMatch h)
  | cons c run =>
    have hpos := c.utf8Size_pos
    have hshort := h.short
    have hlength := h.offset_add_le
    dsimp only at hword
    rw [← hword, ← List.append_assoc] at h
    rw [← hword, Text.byteLength_append, Text.byteLength_append] at hlength
    have hsum : add m.lexeme.byteLength (Text.byteLength (c :: run)) =
        .ok (m.lexeme ++ c :: run).byteLength := by
      rw [Text.byteLength_append]
      exact add_of_lt (by omega)
    dsimp only
    rw [if_pos (by rw [Text.byteLength_cons]; omega), hsum, ok_bind]
    exact emitError_eq h .number .malformedNumber

/-! ## Recovered literals -/

theorem reportEscape_eq {before : Text} (h : k.Stands (before ++ (piece ++ after))) :
    k.reportEscape (BrokenLiteral.range (.past .zero before, piece)) =
      .ok (k.report (.invalidEscape piece)
        (.ofText (k.position.along (.past .zero before)) piece)) := by
  have hlength := h.offset_add_le
  have hshort := h.short
  have hcolumn := h.within.2
  have hbefore := Text.length_le_byteLength before
  rw [Text.byteLength_append, Text.byteLength_append] at hlength
  have hpiece : slice (before ++ (piece ++ after)) before.byteLength
      (before.byteLength + piece.byteLength) = .ok piece :=
    slice_of_append rfl rfl rfl
  simp only [reportEscape, spanAhead, h.rest_eq, ok_bind, BrokenLiteral.range, Distance.past,
    Distance.zero, Nat.zero_add, slice_prefix, hpiece, pure_eq]
  rw [add_of_lt (by omega), ok_bind, add_of_lt (by omega), ok_bind, add_of_lt (by omega), ok_bind]
  simp only [Span.ofText, Position.along, Nat.add_assoc]
  rfl

theorem foldlM_reportEscape {escapes : List (Distance × Text)} (h : k.Stands text)
    (hescapes : ∀ e ∈ escapes, ∃ before after, text = before ++ (e.2 ++ after) ∧
      e.1 = .past .zero before) :
    (escapes.map BrokenLiteral.range).foldlM reportEscape k =
      .ok (k.reported (escapes.map fun (d, t) => ⟨d, t, .invalidEscape t⟩)) := by
  induction escapes generalizing k with
  | nil => simp [reported, flawReports]
  | cons e escapes ih =>
    obtain ⟨d, piece⟩ := e
    obtain ⟨before, after, happ, hd⟩ := hescapes _ List.mem_cons_self
    dsimp only at happ hd
    subst hd
    have hreport := reportEscape_eq (happ ▸ h)
    have hstands : (k.report (.invalidEscape piece)
        (.ofText (k.position.along (.past .zero before)) piece)).Stands text := h.congr rfl rfl
    rw [List.map_cons, List.foldlM_cons, hreport, ok_bind,
      ih hstands fun e he => hescapes e (List.mem_cons_of_mem _ he)]
    simp [reported, flawReports, Cursor.report]

theorem recoverQuoted_eq {quote : Char} {inside : Text} (h : k.Stands (quote :: inside))
    (kind : LiteralKind) :
    k.recoverQuoted kind quote = .ok (k.accepted (.brokenQuoted kind quote inside)) := by
  have hwalk := BrokenLiteral.walk_append quote inside
  have hlength := h.offset_add_le
  have hshort := h.short
  have hfound := @BrokenLiteral.walkBytes_quote quote inside (by omega)
  have hreports := foldlM_reportEscape h fun _ => BrokenLiteral.exists_of_mem_invalidEscapes
  unfold recoverQuoted Lexeme.brokenQuoted
  rw [h.rest_eq, ok_bind, hfound, ok_bind]
  generalize BrokenLiteral.walk quote inside = w at hwalk hreports ⊢
  rw [← hwalk, ← List.cons_append] at h
  have hstands (flaws : List Flaw) : (k.reported flaws).Stands (w.lexeme quote ++ w.rest) :=
    h.congr rfl rfl
  dsimp only
  rw [hreports, ok_bind, emit_eq (hstands _), ok_bind, Lexeme.literalFaults]
  dsimp only
  by_cases hclosed : w.closed = true
  · by_cases hunits : kind = .character ∧ w.pieces.length ≠ 1
    · simp [hclosed, hunits, accepted, reported, flawReports, report, past, Token.ofLexeme]
    · simp [hclosed, hunits, accepted, reported, flawReports, past]
  · simp [hclosed, accepted, reported, flawReports, report, past, Token.ofLexeme]

theorem recoverLiteral_eq {kind : LiteralKind} {c : Char} {inside : Text}
    (h : k.Stands (c :: inside)) (hopen : LiteralKind.opening? (c :: inside) = some kind) :
    k.recoverLiteral kind = .ok (k.accepted (.brokenLiteral kind c inside)) := by
  have hverbatim : k.recoverLiteral .verbatim =
      .ok (k.accepted (.brokenLiteral .verbatim c inside)) := by
    rw [recoverLiteral, h.rest_eq]
    rw [← List.append_nil (c :: inside)] at h
    exact emitError_eq h .literal fun _ => .unterminatedLiteral .verbatim
  unfold LiteralKind.opening? at hopen
  split at hopen
  · cases hopen
    exact hverbatim
  · next hfront =>
    cases hopen
    cases hfront
    exact recoverQuoted_eq h .string
  · next hfront =>
    cases hopen
    cases hfront
    exact recoverQuoted_eq h .character
  · cases hopen

/-! ## The next token -/

/-- Scanning a token by offsets gives the lexeme at the front of the text. -/
theorem scanToken_eq {c : Char} {inside : Text} (h : k.Stands (c :: inside)) :
    k.scanToken c = .ok (k.accepted (Lexeme.read c inside)) := by
  rw [scanToken, h.rest_eq, ok_bind, Lexicon.longestBytes_eq, ok_bind]
  unfold Lexeme.read Lexeme.literal Lexeme.unquoted
  cases hopen : LiteralKind.opening? (c :: inside) with
  | some kind =>
    cases hwinner : Lexicon.longestMatch (c :: inside) with
    | some m =>
      have happ := Lexicon.longestMatch_append hwinner
      dsimp only [Option.map_some, Lexicon.bytes]
      by_cases hrule : m.pattern = .rule kind.rule
      · rw [if_pos hrule, if_pos hrule]
        exact emit_ofMatch (happ ▸ h)
      · rw [if_neg hrule, if_neg hrule]
        exact recoverLiteral_eq h hopen
    | none => exact recoverLiteral_eq h hopen
  | none =>
    cases hwinner : Lexicon.longestMatch (c :: inside) with
    | some m =>
      have happ := Lexicon.longestMatch_append hwinner
      have hword := Identifier.wordRun_append (c :: inside)
      dsimp only [Option.map_some, Lexicon.bytes]
      by_cases hisWord : m.pattern.isWord = true
      · -- bytes tell which of two beginnings of the text is longer, as characters do
        rw [if_pos hisWord, if_pos hisWord, Lexeme.word, Identifier.wordBytes]
        have hlt := Text.byteLength_lt_iff (happ.trans hword.symm)
        by_cases hlonger : m.lexeme.length < (Identifier.wordRun (c :: inside)).1.length
        · rw [if_pos hlonger, if_pos (hlt.2 hlonger)]
          exact emitError_word h
        · rw [if_neg hlonger, if_neg fun hb => hlonger (hlt.1 hb)]
          exact emit_ofMatch (happ ▸ h)
      · rw [if_neg hisWord, if_neg hisWord]
        by_cases hisNumber : m.pattern.isNumber = true
        · rw [if_pos hisNumber, if_pos hisNumber, ← happ]
          exact scanNumber_eq (happ ▸ h)
        · rw [if_neg hisNumber, if_neg hisNumber]
          exact emit_ofMatch (happ ▸ h)
    | none =>
      dsimp only [Option.map_none]
      by_cases hletter : (isAlphabetic c || c == '_') = true
      · rw [if_pos hletter, if_pos hletter]
        exact emitError_word h
      · rw [if_neg hletter, if_neg hletter]
        have hsize : c.utf8Size = Text.byteLength [c] := by simp
        rw [hsize]
        exact @emitError_eq k [c] inside h .character fun _ => .invalidCharacter c

end Cursor

end LayoutLexer

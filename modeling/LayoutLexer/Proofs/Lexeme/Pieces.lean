import LayoutLexer.Proofs.Cursor.Lexeme
import LayoutLexer.Proofs.Lexeme.Recovery

/-! # The pieces of a broken literal

A walk over a literal cuts its inside into pieces, and what a piece is can be told from the piece
and what follows it alone (`Piece.StandsBefore`): a plain character, an escape as its rule reads it
there, or a backslash at which that rule fails, with as much after it as recovery passes over.  No
invalid escape holds the quote, since a backslash and a quote are an escape, nor a line break.

A report names invalid escapes by their bytes.  These are the bytes of the pieces from the opening
quote on (`BrokenLiteral.map_range_invalidFrom`), so they cut no character, and they are in order
(`BrokenLiteral.walk_partitions`).
-/
namespace LayoutLexer
namespace BrokenLiteral

open CharClass

variable {quote c : Char} {rest s t : Text}

/-! ## What pieces are -/

/-- What an invalid escape may be, given what follows it. -/
inductive InvalidEscape (quote : Char) (rest : Text) : Text → Prop
  /-- A backslash that ends its line. -/
  | alone : (∀ c ∈ rest.head?, c = '\r' ∨ c = '\n') → InvalidEscape quote rest ['\\']
  /-- A backslash and a braced code that ends on the line. -/
  | braced {body : Text} : (∀ c ∈ body, c ≠ '}' ∧ c ≠ quote ∧ c ≠ '\r' ∧ c ≠ '\n') →
      InvalidEscape quote rest ('\\' :: '{' :: (body ++ ['}']))
  /-- A backslash and one more character, which opens no braced code that ends on the line. -/
  | pair {c : Char} : c ≠ quote → c ≠ '\r' → c ≠ '\n' →
      (c = '{' → ∀ body after, rest = body ++ '}' :: after →
        ∃ d ∈ body, d = quote ∨ d = '\r' ∨ d = '\n') →
      InvalidEscape quote rest ['\\', c]

/-- What a piece may be, given what follows it. -/
inductive Piece.StandsBefore (quote : Char) (rest : Text) : Piece → Prop
  | plain {c : Char} : c ≠ quote → c ≠ '\\' → c ≠ '\r' → c ≠ '\n' →
      StandsBefore quote rest (.plain c)
  | escape {t : Text} : Literal.escape (t ++ rest) = some (t, rest) →
      StandsBefore quote rest (.escape t)
  | invalidEscape {t : Text} : Literal.escape (t ++ rest) = none → InvalidEscape quote rest t →
      StandsBefore quote rest (.invalidEscape t)

theorem isLineBreak_eq_false_iff : isLineBreak c = false ↔ c ≠ '\r' ∧ c ≠ '\n' := by
  simp [isLineBreak]

theorem isInsideBraces_iff :
    isInsideBraces quote c = true ↔ c ≠ '}' ∧ c ≠ quote ∧ c ≠ '\r' ∧ c ≠ '\n' := by
  simp [isInsideBraces, isLineBreak, and_assoc]

/-- Neither a quote nor a line break stands in an invalid escape. -/
theorem InvalidEscape.clean (hquote : quote = '\'' ∨ quote = '"')
    (h : InvalidEscape quote rest t) : ∀ c ∈ t, c ≠ quote ∧ c ≠ '\r' ∧ c ≠ '\n' := by
  have fixed {c : Char} (hc : c = '\\' ∨ c = '{' ∨ c = '}') :
      c ≠ quote ∧ c ≠ '\r' ∧ c ≠ '\n' := by
    rcases hquote with rfl | rfl <;> rcases hc with rfl | rfl | rfl <;> decide
  intro c hc
  cases h with
  | alone _ => exact fixed (.inl (List.mem_singleton.1 hc))
  | braced hbody =>
    simp only [List.mem_cons, List.mem_append, List.not_mem_nil, or_false] at hc
    rcases hc with hc | hc | hc | hc
    · exact fixed (.inl hc)
    · exact fixed (.inr (.inl hc))
    · exact (hbody c hc).2
    · exact fixed (.inr (.inr hc))
  | pair hne hreturn hfeed _ =>
    rcases List.mem_pair.1 hc with rfl | rfl
    · exact fixed (.inl rfl)
    · exact ⟨hne, hreturn, hfeed⟩

/-- A closing brace is found where neither the quote nor a line break stands before it. -/
theorem exists_dropWhile_isInsideBraces {body after : Text}
    (h : ∀ d ∈ body, d ≠ quote ∧ d ≠ '\r' ∧ d ≠ '\n') :
    ∃ after', (body ++ '}' :: after).dropWhile (isInsideBraces quote) = '}' :: after' := by
  have hclose : ¬ isInsideBraces quote '}' = true := fun h => (isInsideBraces_iff.1 h).1 rfl
  induction body with
  | nil => exact ⟨after, List.dropWhile_cons_of_neg hclose⟩
  | cons d body ih =>
    obtain ⟨hd, hbody⟩ := List.forall_mem_cons.1 h
    by_cases hbrace : d = '}'
    · subst hbrace
      exact ⟨_, List.dropWhile_cons_of_neg hclose⟩
    · rw [List.cons_append, List.dropWhile_cons_of_pos (isInsideBraces_iff.2 ⟨hbrace, hd⟩)]
      exact ih hbody

/-- Where no escape begins, recovery passes over an invalid one. -/
theorem invalidEscape_invalidTail (hquote : quote = '\'' ∨ quote = '"')
    (h : Literal.escapeTail s = none) :
    InvalidEscape quote (invalidTail quote s).2 ('\\' :: (invalidTail quote s).1) := by
  cases s with
  | nil => exact .alone (by simp [invalidTail])
  | cons c rest =>
    cases hbreak : isLineBreak c with
    | true =>
      rw [invalidTail_of_break hbreak]
      refine .alone fun d hd => ?_
      cases hd
      simpa [isLineBreak] using hbreak
    | false =>
      obtain ⟨hreturn, hfeed⟩ := isLineBreak_eq_false_iff.1 hbreak
      have hne : c ≠ quote := by
        -- a backslash and a quote are an escape
        rintro rfl
        rcases hquote with rfl | rfl <;> cases h
      by_cases hopen : c = '{'
      · subst hopen
        by_cases hclosed : ∃ after, rest.dropWhile (isInsideBraces quote) = '}' :: after
        · obtain ⟨after, hafter⟩ := hclosed
          rw [invalidTail_of_brace hafter]
          exact .braced fun d hd => isInsideBraces_iff.1 (List.mem_takeWhile_imp hd)
        · rw [invalidTail_of_open fun after hafter => hclosed ⟨after, hafter⟩]
          refine .pair hne hreturn hfeed fun _ body after hrest => ?_
          by_contra hclean
          subst hrest
          refine hclosed (exists_dropWhile_isInsideBraces fun d hd => ?_)
          have hgood : ¬ (d = quote ∨ d = '\r' ∨ d = '\n') := fun hbad => hclean ⟨d, hd, hbad⟩
          simpa only [not_or] using hgood
      · rw [invalidTail_of_ne (by simp [hbreak]) hopen]
        exact .pair hne hreturn hfeed fun hbrace => absurd hbrace hopen

/-- The first piece is what it may be, given what follows it. -/
theorem standsBefore_firstPiece (rest : Text) (hquote : quote = '\'' ∨ quote = '"')
    (hbreak : isLineBreak c = false) (hne : c ≠ quote) :
    (firstPiece quote c rest).1.StandsBefore quote (firstPiece quote c rest).2 := by
  have happ := firstPiece_append quote c rest
  have hescape : Literal.escape ('\\' :: rest) =
      (Literal.escapeTail rest).map fun split => ('\\' :: split.1, split.2) := rfl
  obtain ⟨hreturn, hfeed⟩ := isLineBreak_eq_false_iff.1 hbreak
  unfold firstPiece at happ ⊢
  by_cases hback : c = '\\'
  · subst hback
    rw [if_pos rfl] at happ ⊢
    cases htail : Literal.escapeTail rest with
    | some split =>
      rw [htail] at happ hescape
      refine .escape ?_
      rw [show '\\' :: split.1 ++ split.2 = '\\' :: rest from happ, hescape]
      rfl
    | none =>
      rw [htail] at happ hescape
      refine .invalidEscape ?_ (invalidEscape_invalidTail hquote htail)
      rw [show '\\' :: (invalidTail quote rest).1 ++ (invalidTail quote rest).2 = '\\' :: rest
        from happ, hescape]
      rfl
  · rw [if_neg hback]
    exact .plain hne hback hreturn hfeed

/-- Each piece of a walk is what it may be, given what follows it. -/
theorem standsBefore_of_walk (hquote : quote = '\'' ∨ quote = '"') (s : Text) :
    ∀ before p after, (walk quote s).pieces = before ++ p :: after →
      p.StandsBefore quote
        (after.flatMap Piece.text ++ ((walk quote s).closing quote ++ (walk quote s).rest)) := by
  fun_induction walk quote s with
  | case1 => simp
  | case2 => simp
  | case3 => simp
  | case4 c rest hbreak hne w ih =>
    intro before p after h
    cases before with
    | nil =>
      obtain ⟨rfl, rfl⟩ := List.cons.inj h
      have hfirst := standsBefore_firstPiece rest hquote (Bool.eq_false_iff.2 hbreak) hne
      rwa [← walk_append quote (firstPiece quote c rest).2, List.append_assoc] at hfirst
    | cons q before => exact ih before p after (List.cons.inj h).2

/-- A walk that finds no closing quote ends at the end of the text or of the line. -/
theorem head?_rest_of_open (h : (walk quote s).closed = false) :
    ∀ c ∈ (walk quote s).rest.head?, c = '\r' ∨ c = '\n' := by
  fun_induction walk quote s with
  | case1 => simp
  | case2 c rest hbreak => simpa [isLineBreak] using hbreak
  | case3 => cases h
  | case4 c rest _ _ w ih => exact ih h

/-! ## Where pieces lie -/

/-- Pieces with the offsets at which they begin and end, the first one beginning at the given
offset. -/
def located (offset : Nat) : List Piece → List (Piece × Nat × Nat)
  | [] => []
  | p :: pieces =>
    (p, offset, offset + p.text.byteLength) :: located (offset + p.text.byteLength) pieces

/-- The offsets of a piece are those of its text. -/
theorem slice?_of_located {before after : Text} {pieces : List Piece} {e : Piece × Nat × Nat}
    (h : e ∈ located before.byteLength pieces) :
    (before ++ (pieces.flatMap Piece.text ++ after)).slice? e.2.1 e.2.2 = some e.1.text := by
  induction pieces generalizing before with
  | nil => cases h
  | cons p pieces ih =>
    rw [List.flatMap_cons, List.append_assoc]
    rcases List.mem_cons.1 h with rfl | h
    · exact Text.slice?_eq_some_iff.2 ⟨before, _, rfl, rfl, rfl⟩
    · rw [← Text.byteLength_append] at h
      rw [← List.append_assoc]
      exact ih h

/-- The invalid escapes lie where they lie among all pieces. -/
theorem map_range_invalidFrom (d : Distance) (pieces : List Piece) :
    (Walk.invalidFrom d pieces).map range =
      ((located d.bytes pieces).filter fun e => e.1.isInvalid).map Prod.snd := by
  induction pieces generalizing d with
  | nil => rfl
  | cons p pieces ih =>
    cases p with
    | plain c => exact ih _
    | escape t => exact ih _
    | invalidEscape t => exact congrArg _ (ih _)

/-- What a walk found, in bytes. -/
def Walk.found (quote : Char) (w : Walk) : Found where
  len := (w.lexeme quote).byteLength
  closed := w.closed
  units := w.pieces.length
  invalid := (w.invalidEscapes quote).map range

/-! ## The partition -/

/-- A text that begins with a quote is cut by a walk, and what the walk found is said of the
pieces. -/
structure Partitioned (quote : Char) (input : Text) (w : Walk) : Prop where
  /-- The quote, the pieces, the closing quote if it was found, and the rest make up the text. -/
  tiles : input = quote :: (w.pieces.flatMap Piece.text ++ (w.closing quote ++ w.rest))
  /-- A piece is not empty, and it is what it may be where it stands. -/
  stands : ∀ before p after, w.pieces = before ++ p :: after → p.text ≠ [] ∧
    p.StandsBefore quote (after.flatMap Piece.text ++ (w.closing quote ++ w.rest))
  /-- From the opening quote on the pieces lie one after the other. -/
  slices : ∀ e ∈ located quote.utf8Size w.pieces, input.slice? e.2.1 e.2.2 = some e.1.text
  /-- All pieces are counted. -/
  units : (w.found quote).units = w.pieces.length
  /-- The invalid pieces are listed, and no other bytes. -/
  invalid : (w.found quote).invalid =
    ((located quote.utf8Size w.pieces).filter fun e => e.1.isInvalid).map Prod.snd
  /-- They are in order, and none begins before the end of the one before it. -/
  ordered : (w.found quote).invalid.Pairwise fun r r' => r.1 < r'.1 ∧ r.2 ≤ r'.1
  /-- They are not empty, and they hold neither the quote nor a line break. -/
  clean : ∀ r ∈ (w.found quote).invalid, r.1 < r.2 ∧
    ∃ t, input.slice? r.1 r.2 = some t ∧ ∀ c ∈ t, c ≠ quote ∧ c ≠ '\r' ∧ c ≠ '\n'
  /-- The literal is closed just if it ends with a quote after the last piece. -/
  closed_iff : (w.found quote).closed = true ↔
    input.slice? (quote.utf8Size + Text.byteLength (w.pieces.flatMap Piece.text))
      (w.found quote).len = some [quote]
  /-- A literal that is not closed ends where the text or its line does. -/
  stops : (w.found quote).closed = false →
    ∃ after, input.slice? (w.found quote).len input.byteLength = some after ∧
      ∀ c ∈ after.head?, c = '\r' ∨ c = '\n'

variable {inside : Text}

/-- An invalid escape that is listed is one of the pieces. -/
theorem mem_pieces_of_mem_invalidEscapes {w : Walk} {e : Distance × Text}
    (h : e ∈ w.invalidEscapes quote) :
    ∃ before after, w.pieces = before ++ .invalidEscape e.2 :: after := by
  obtain ⟨before, after, hpieces, -⟩ := Walk.split_of_mem_invalidFrom h
  exact ⟨before, after, hpieces⟩

theorem byteLength_pos_of_mem_invalidEscapes {e : Distance × Text}
    (h : e ∈ (walk quote inside).invalidEscapes quote) : 0 < e.2.byteLength := by
  obtain ⟨before, after, hpieces⟩ := mem_pieces_of_mem_invalidEscapes h
  have hne : e.2 ≠ [] := @ne_nil_of_mem_pieces quote inside (.invalidEscape e.2) (by simp [hpieces])
  exact Nat.pos_of_ne_zero fun hzero => hne (Text.byteLength_eq_zero_iff.1 hzero)

/-- An invalid escape is the slice that its range says, without a quote or a line break. -/
theorem clean_range (hquote : quote = '\'' ∨ quote = '"') {e : Distance × Text}
    (h : e ∈ (walk quote inside).invalidEscapes quote) :
    Text.slice? (quote :: inside) (range e).1 (range e).2 = some e.2 ∧
      ∀ c ∈ e.2, c ≠ quote ∧ c ≠ '\r' ∧ c ≠ '\n' := by
  constructor
  · obtain ⟨before, after, hinput, hd⟩ := exists_of_mem_invalidEscapes h
    refine Text.slice?_eq_some_iff.2 ⟨before, after, hinput, ?_, rfl⟩
    simp [range, hd, Distance.past, Distance.zero]
  · obtain ⟨before, after, hpieces⟩ := mem_pieces_of_mem_invalidEscapes h
    cases standsBefore_of_walk hquote inside before _ after hpieces with
    | invalidEscape _ hinvalid => exact hinvalid.clean hquote

/-- A walk finds the closing quote just if a quote lies after the last piece and in the literal. -/
theorem closed_iff_slice? (w : Walk)
    (htiles : quote :: inside =
      quote :: (w.pieces.flatMap Piece.text ++ (w.closing quote ++ w.rest))) :
    w.closed = true ↔
      Text.slice? (quote :: inside)
        (quote.utf8Size + Text.byteLength (w.pieces.flatMap Piece.text))
        (w.lexeme quote).byteLength = some [quote] := by
  have hlen : (w.lexeme quote).byteLength = quote.utf8Size +
      Text.byteLength (w.pieces.flatMap Piece.text) + (w.closing quote).byteLength := by
    rw [Walk.lexeme, Text.byteLength_cons, Text.byteLength_append, Nat.add_assoc]
    rfl
  rw [hlen, Text.slice?_eq_some_iff]
  cases hclosed : w.closed with
  | true =>
    have hclosing : w.closing quote = [quote] := if_pos hclosed
    rw [hclosing] at htiles ⊢
    exact iff_of_true rfl ⟨quote :: w.pieces.flatMap Piece.text, w.rest, htiles, by simp, rfl⟩
  | false =>
    have hclosing : w.closing quote = [] := if_neg (Bool.eq_false_iff.1 hclosed)
    rw [hclosing]
    refine iff_of_false Bool.false_ne_true ?_
    rintro ⟨before, after, -, -, hfinish⟩
    have hpos := quote.utf8Size_pos
    rw [Text.byteLength_cons, Text.byteLength_nil] at hfinish
    omega

/-- **A walk over a literal is a partition of it.**  The inside of a literal is cut into pieces
that are not empty, as many as the walk counts: plain characters, escapes as their rule reads
them, and backslashes at which that rule fails.  Of the last sort just the bytes are listed, in
order and without overlap; they cut no character and hold neither the quote nor a line break.  The
literal is closed if and only if a quote follows the last piece, and otherwise it ends where the
text or its line does.  A walk by offsets, all of whose slices and sums could fail, finds the
same. -/
theorem walk_partitions (hquote : quote = '\'' ∨ quote = '"') (inside : Text) :
    Partitioned quote (quote :: inside) (walk quote inside) ∧
    (Text.byteLength (quote :: inside) < 2 ^ 63 →
      walkBytes (quote :: inside) quote ((quote :: inside).length + 1) quote.utf8Size 0 [] =
        .ok ((walk quote inside).found quote)) := by
  have happ := lexeme_append quote inside
  have htiles : quote :: inside = quote :: ((walk quote inside).pieces.flatMap Piece.text ++
      ((walk quote inside).closing quote ++ (walk quote inside).rest)) := by
    rw [← List.append_assoc]
    exact happ.symm
  have hstart : quote.utf8Size = Text.byteLength [quote] := by simp
  refine ⟨⟨htiles,
    fun before p after h => ⟨?_, standsBefore_of_walk hquote inside before p after h⟩,
    fun e he => ?_, rfl, ?_, ?_, fun r hr => ?_, closed_iff_slice? _ htiles, fun hopen => ?_⟩,
    walkBytes_quote⟩
  · exact @ne_nil_of_mem_pieces quote inside p (by simp [h])
  · rw [hstart] at he
    rw [htiles]
    exact slice?_of_located he
  · have hdistance : quote.utf8Size = (Distance.past .zero [quote]).bytes := by
      simp [Distance.past, Distance.zero]
    rw [hdistance]
    exact map_range_invalidFrom _ _
  · refine List.pairwise_map.2 (List.Pairwise.imp_of_mem (fun he _ hle => ⟨?_, hle⟩)
      (pairwise_invalidFrom _ _))
    exact Nat.lt_of_lt_of_le (Nat.lt_add_of_pos_right (byteLength_pos_of_mem_invalidEscapes he)) hle
  · obtain ⟨e, he, rfl⟩ := List.mem_map.1 hr
    exact ⟨Nat.lt_add_of_pos_right (byteLength_pos_of_mem_invalidEscapes he), e.2,
      clean_range hquote he⟩
  · refine ⟨_, ?_, head?_rest_of_open hopen⟩
    rw [← happ]
    exact Text.slice?_append_left _ _

/-- An open string of four pieces, a letter of two bytes, an invalid braced escape, an escaped quote
and an invalid escape before the end of the line: the escaped quote does not close it, and the two
invalid escapes are listed by their bytes. -/
theorem walk_partitions_open_string :
    let inside : Text := ['é', '\\', '{', '!', '}', '\\', '"', '\\', 'q', '\r']
    ('"' = '\'' ∨ '"' = '"') ∧ Text.byteLength ('"' :: inside) < 2 ^ 63 ∧
      walkBytes ('"' :: inside) '"' 12 1 0 [] = .ok ⟨11, false, 4, [(3, 7), (9, 11)]⟩ ∧
      (∀ r ∈ [(3, 7), (9, 11)], ∃ t, Text.slice? ('"' :: inside) r.1 r.2 = some t ∧
        ∀ c ∈ t, c ≠ '"' ∧ c ≠ '\r' ∧ c ≠ '\n') ∧
      ∃ after, Text.slice? ('"' :: inside) 11 (Text.byteLength ('"' :: inside)) = some after ∧
        ∀ c ∈ after.head?, c = '\r' ∨ c = '\n' := by
  intro inside
  have hshort : Text.byteLength ('"' :: inside) < 2 ^ 63 := by decide
  have hfound : (walk '"' inside).found '"' = ⟨11, false, 4, [(3, 7), (9, 11)]⟩ := by
    decide +kernel
  obtain ⟨hparts, hbytes⟩ := walk_partitions (.inr rfl) inside
  have hclean := hparts.clean
  have hstops := hparts.stops
  rw [hfound] at hbytes hclean hstops
  exact ⟨.inr rfl, hshort, hbytes hshort, fun r hr => (hclean r hr).2, hstops rfl⟩

end BrokenLiteral
end LayoutLexer

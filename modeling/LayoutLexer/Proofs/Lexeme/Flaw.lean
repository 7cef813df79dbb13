import LayoutLexer.Proofs.Lexeme.LineBreak

/-! # The flaws of lexemes

A flaw is about a piece of its lexeme, and no line break comes before that piece in the lexeme
(`Lexeme.liesIn_of_mem_flaws`), so the distance of the flaw tells its place.  A lexeme has flaws
if and only if it is malformed.  All malformed lexemes but literals have one flaw, which is about
the whole lexeme; a malformed literal has its invalid escapes in order, none of which overlaps
another, and then at most one flaw about the whole (`Lexeme.flawed_read`).

That a malformed literal has a flaw at all is an agreement of two ways to read a literal: what
recovery walks through without finding an invalid escape up to a closing quote is a word of the
rule (`BrokenLiteral.lexeme_mem_stringWords`), unless it is a character literal that does not hold
exactly one character.
-/
namespace LayoutLexer

open scoped Computability
open CharClass

/-! ## Pieces of a literal -/

namespace BrokenLiteral

open Literal Recognizer Words

variable {quote : Char}

/-- What one piece of a well-formed literal may be. -/
def pieceWords (quote : Char) : Language Char := escapeWords + oneOf (isPlain quote)

/-- A piece is an invalid escape, or it may stand in a well-formed literal. -/
theorem mem_pieces_walk {s : Text} {p : Piece} (h : p ∈ (walk quote s).pieces) :
    (∃ t, p = .invalidEscape t) ∨ p.text ∈ pieceWords quote := by
  fun_induction walk quote s with
  | case1 => cases h
  | case2 => cases h
  | case3 => cases h
  | case4 c rest hbreak hquote tail ih =>
    rcases List.mem_cons.1 h with rfl | h
    · unfold firstPiece
      by_cases hback : c = '\\'
      · rw [if_pos hback]
        cases htail : escapeTail rest with
        | some split =>
          right
          left
          exact ⟨[c], ⟨c, beq_iff_eq.2 hback, rfl⟩, split.1, takesLongest_escapeTail.mem htail, rfl⟩
        | none => exact .inl ⟨_, rfl⟩
      · rw [if_neg hback]
        right
        right
        refine ⟨c, ?_, rfl⟩
        simp [isPlain, hback, hquote, hbreak]
    · exact ih h

/-- Without an invalid escape all pieces may stand in a well-formed literal. -/
theorem text_mem_pieceWords {s : Text} (hvalid : (walk quote s).invalidEscapes quote = [])
    {p : Piece} (hp : p ∈ (walk quote s).pieces) : p.text ∈ pieceWords quote := by
  rcases mem_pieces_walk hp with ⟨t, rfl⟩ | hword
  · -- an invalid escape among the pieces is listed
    exfalso
    unfold Walk.invalidEscapes at hvalid
    generalize Distance.past .zero [quote] = d at hvalid
    generalize (walk quote s).pieces = pieces at hvalid hp
    induction pieces generalizing d with
    | nil => cases hp
    | cons q pieces ih =>
      cases q with
      | plain c => exact ih _ hvalid (by simpa using hp)
      | escape u => exact ih _ hvalid (by simpa using hp)
      | invalidEscape u => cases hvalid
  · exact hword

/-- A closed literal without invalid escapes is a string literal. -/
theorem lexeme_mem_stringWords {s : Text} (hclosed : (walk '"' s).closed = true)
    (hvalid : (walk '"' s).invalidEscapes '"' = []) :
    (walk '"' s).lexeme '"' ∈ stringWords := by
  refine ⟨['"'], ⟨'"', rfl, rfl⟩, _, ⟨(walk '"' s).inside, ?_, ['"'], ⟨'"', rfl, rfl⟩, rfl⟩, ?_⟩
  · refine ⟨(walk '"' s).pieces.map Piece.text, List.flatMap_def .., ?_⟩
    intro t ht
    obtain ⟨p, hp, rfl⟩ := List.mem_map.1 ht
    rcases text_mem_pieceWords hvalid hp with hescape | ⟨c, hc, htext⟩
    · exact .inr hescape
    · left
      rw [htext]
      exact ⟨List.cons_ne_nil _ _, fun d hd => List.mem_singleton.1 hd ▸ hc⟩
  · rw [Walk.lexeme, Walk.closing, if_pos hclosed]
    rfl

/-- A closed literal of one valid piece is a character literal. -/
theorem lexeme_mem_characterWords {s : Text} (hclosed : (walk '\'' s).closed = true)
    (hvalid : (walk '\'' s).invalidEscapes '\'' = []) (hone : (walk '\'' s).pieces.length = 1) :
    (walk '\'' s).lexeme '\'' ∈ characterWords := by
  obtain ⟨p, hp⟩ := List.length_eq_one_iff.1 hone
  have hword : p.text ∈ pieceWords '\'' := text_mem_pieceWords hvalid (by rw [hp]; simp)
  refine ⟨['\''], ⟨'\'', rfl, rfl⟩, _, ⟨p.text, hword, ['\''], ⟨'\'', rfl, rfl⟩, rfl⟩, ?_⟩
  rw [Walk.lexeme, Walk.closing, if_pos hclosed, Walk.inside, hp]
  simp

/-! ## Invalid escapes -/

/-- An invalid escape ends where a later one begins, or before. -/
theorem pairwise_invalidFrom (d : Distance) (pieces : List Piece) :
    (Walk.invalidFrom d pieces).Pairwise
      fun e f => e.1.bytes + e.2.byteLength ≤ f.1.bytes := by
  induction pieces generalizing d with
  | nil => exact .nil
  | cons p pieces ih =>
    cases p with
    | plain c => exact ih _
    | escape t => exact ih _
    | invalidEscape t =>
      refine .cons ?_ (ih _)
      intro f hf
      obtain ⟨before, after, _, hd⟩ := Walk.split_of_mem_invalidFrom hf
      rw [hd]
      exact Nat.le_add_right _ _

/-- The pieces of a walk are not empty. -/
theorem ne_nil_of_mem_pieces {s : Text} {p : Piece} (h : p ∈ (walk quote s).pieces) :
    p.text ≠ [] := by
  fun_induction walk quote s with
  | case1 => cases h
  | case2 => cases h
  | case3 => cases h
  | case4 c rest hbreak hquote tail ih =>
    rcases List.mem_cons.1 h with rfl | h
    · exact firstPiece_ne_nil quote c rest
    · exact ih h

end BrokenLiteral

/-! ## Where flaws lie -/

/-- The piece of the text that a fault names, if it names one. -/
def Fault.piece? : Fault → Option Text
  | .malformedIdentifier lexeme => some lexeme
  | .invalidCharacter c => some [c]
  | .malformedNumber lexeme => some lexeme
  | .unterminatedLiteral _ => none
  | .invalidEscape sequence => some sequence
  | .malformedCharacter lexeme => some lexeme
  | .inconsistentIndentation _ _ => none

/-- The flaw is about a nonempty piece of the lexeme at its distance, with no line break before
it, and names no other piece. -/
structure Flaw.LiesIn (flaw : Flaw) (lexeme : Text) : Prop where
  split : ∃ before after, lexeme = before ++ (flaw.piece ++ after) ∧ before.Inline ∧
    flaw.distance = .past .zero before
  ne_nil : flaw.piece ≠ []
  names : ∀ t ∈ flaw.fault.piece?, t = flaw.piece

/-- A flaw about the whole lexeme. -/
theorem Flaw.liesIn_whole {fault : Fault} {lexeme : Text} (hne : lexeme ≠ [])
    (h : ∀ t ∈ fault.piece?, t = lexeme) : (Flaw.mk .zero lexeme fault).LiesIn lexeme where
  split := ⟨[], [], by simp, Text.inline_nil, rfl⟩
  ne_nil := hne
  names := h

/-- The piece has bytes, and they are among those of the lexeme. -/
theorem Flaw.LiesIn.bytes {flaw : Flaw} {lexeme : Text} (h : flaw.LiesIn lexeme) :
    0 < flaw.piece.byteLength ∧
      flaw.distance.bytes + flaw.piece.byteLength ≤ lexeme.byteLength := by
  obtain ⟨before, after, happ, _, hdistance⟩ := h.split
  have hlength := congrArg Text.byteLength happ
  rw [Text.byteLength_append, Text.byteLength_append] at hlength
  have hbytes : flaw.distance.bytes = before.byteLength := by
    rw [hdistance]
    simp [Distance.past, Distance.zero]
  constructor
  · exact Nat.pos_of_ne_zero fun hzero => h.ne_nil (Text.byteLength_eq_zero_iff.1 hzero)
  · omega

namespace Lexeme

open BrokenLiteral Identifier Lexicon

/-- What the flaws of a lexeme of each kind are. -/
inductive Flawed (lexeme : Text) : TokenKind → List Flaw → Prop
  | wellFormed {p : Pattern} : Flawed lexeme (.lexical p) []
  | identifier : Flawed lexeme (.error .identifier) [⟨.zero, lexeme, .malformedIdentifier lexeme⟩]
  | number : Flawed lexeme (.error .number) [⟨.zero, lexeme, .malformedNumber lexeme⟩]
  | character {c : Char} : lexeme = [c] →
      Flawed lexeme (.error .character) [⟨.zero, lexeme, .invalidCharacter c⟩]
  /-- Invalid escapes after the quote, then what is wrong with the whole. -/
  | literal {escapes : List (Distance × Text)} {whole : List Fault} :
      (∀ e ∈ escapes, 0 < e.1.bytes) →
      escapes.Pairwise (fun e f => e.1.bytes + e.2.byteLength ≤ f.1.bytes) →
      (whole = [] ∨ (∃ kind, whole = [.unterminatedLiteral kind]) ∨
        whole = [.malformedCharacter lexeme]) →
      (escapes = [] → whole ≠ []) →
      Flawed lexeme (.error .literal)
        ((escapes.map fun (d, t) => ⟨d, t, .invalidEscape t⟩) ++
          whole.map fun fault => ⟨.zero, lexeme, fault⟩)

/-- A malformed lexeme has a flaw. -/
theorem Flawed.ne_nil {lexeme : Text} {e : ErrorKind} {flaws : List Flaw}
    (h : Flawed lexeme (.error e) flaws) : flaws ≠ [] := by
  cases h with
  | @literal escapes whole _ _ _ hsome =>
    intro hnil
    obtain ⟨hescapes, hwhole⟩ := List.append_eq_nil_iff.1 hnil
    exact hsome (List.map_eq_nil_iff.1 hescapes) (List.map_eq_nil_iff.1 hwhole)
  | _ => exact List.cons_ne_nil _ _

variable {c : Char} {rest : Text}

/-- The three things that can be wrong with a literal as a whole. -/
theorem literalFaults_cases (kind : LiteralKind) (lexeme : Text) (w : Walk) :
    literalFaults kind lexeme w = [] ∧ w.closed = true ∧
        (kind = .character → w.pieces.length = 1) ∨
      literalFaults kind lexeme w = [.unterminatedLiteral kind] ∨
      literalFaults kind lexeme w = [.malformedCharacter lexeme] := by
  unfold literalFaults
  cases w.closed with
  | false => exact .inr (.inl rfl)
  | true =>
    by_cases hcount : kind = .character ∧ w.pieces.length ≠ 1
    · exact .inr (.inr (if_pos hcount))
    · refine .inl ⟨if_neg hcount, rfl, fun hkind => ?_⟩
      by_contra hne
      exact hcount ⟨hkind, hne⟩

/-- A broken literal is closed, valid in its pieces and of the right size only if its rule
accepts it. -/
theorem mem_words_of_faultless {kind : LiteralKind} (hkind : kind ≠ .verbatim)
    (hopen : LiteralKind.opening? (c :: rest) = some kind)
    (hvalid : (walk c rest).invalidEscapes c = [])
    (hwhole : literalFaults kind ((walk c rest).lexeme c) (walk c rest) = []) :
    (walk c rest).lexeme c ∈ (Pattern.rule kind.rule).words := by
  rcases literalFaults_cases kind ((walk c rest).lexeme c) (walk c rest) with
    ⟨_, hclosed, hone⟩ | hfault | hfault
  · unfold LiteralKind.opening? at hopen
    split at hopen
    · cases hopen
      exact absurd rfl hkind
    · next heq =>
      cases hopen
      obtain ⟨rfl, rfl⟩ := List.cons.inj heq
      exact lexeme_mem_stringWords hclosed hvalid
    · next heq =>
      cases hopen
      obtain ⟨rfl, rfl⟩ := List.cons.inj heq
      exact lexeme_mem_characterWords hclosed hvalid (hone rfl)
    · cases hopen
  · rw [hfault] at hwhole
    cases hwhole
  · rw [hfault] at hwhole
    cases hwhole

theorem flawed_quoted {kind : LiteralKind} (hkind : kind ≠ .verbatim)
    (hopen : LiteralKind.opening? (c :: rest) = some kind)
    (hother : ∀ m, longestMatch (c :: rest) = some m → m.pattern ≠ .rule kind.rule) :
    Flawed (brokenQuoted kind c rest).text (brokenQuoted kind c rest).kind
      (brokenQuoted kind c rest).flaws := by
  refine @Flawed.literal _ ((walk c rest).invalidEscapes c)
    (literalFaults kind ((walk c rest).lexeme c) (walk c rest)) ?_ ?_ ?_ ?_
  · intro e he
    obtain ⟨before, after, hpieces, hd⟩ := Walk.split_of_mem_invalidFrom he
    have hpos := c.utf8Size_pos
    rw [hd]
    simp [Distance.past]
    omega
  · exact pairwise_invalidFrom _ _
  · rcases literalFaults_cases kind ((walk c rest).lexeme c) (walk c rest) with
      ⟨hnone, _⟩ | hopen | hcount
    · exact .inl hnone
    · exact .inr (.inl ⟨kind, hopen⟩)
    · exact .inr (.inr hcount)
  · intro hvalid hwhole
    have hbroken : brokenLiteral kind c rest = brokenQuoted kind c rest := by
      cases kind with
      | verbatim => exact absurd rfl hkind
      | string => rfl
      | character => rfl
    have hno := brokenLiteral_notMem_words hopen hother (.rule kind.rule)
    rw [hbroken] at hno
    exact hno (mem_words_of_faultless hkind hopen hvalid hwhole)

/-- **A lexeme has flaws if and only if it is malformed**, and these flaws. -/
theorem flawed_read (c : Char) (rest : Text) :
    Flawed (read c rest).text (read c rest).kind (read c rest).flaws := by
  have hreads := reads c rest
  generalize read c rest = l at hreads ⊢
  cases hreads with
  | matched => exact .wellFormed
  | word => exact .identifier
  | number => exact .number
  | character => exact .character rfl
  | verbatim =>
    exact @Flawed.literal _ [] [.unterminatedLiteral .verbatim]
      (List.forall_mem_nil _) .nil (.inr (.inl ⟨_, rfl⟩)) fun _ => List.cons_ne_nil _ _
  | quoted hkind hopen hother => exact flawed_quoted hkind hopen hother

/-- A flaw is about a piece of its lexeme, and that piece begins on the line of the lexeme. -/
theorem liesIn_of_mem_flaws {flaw : Flaw} (h : flaw ∈ (read c rest).flaws) :
    flaw.LiesIn (read c rest).text := by
  have hreads := reads c rest
  have hne := (fronts_read c rest).2
  generalize read c rest = l at hreads hne h ⊢
  have hwhole {fault : Fault} {lexeme : Text} (hne : lexeme ≠ [])
      (hflaw : flaw ∈ [Flaw.mk .zero lexeme fault]) (hnames : ∀ t ∈ fault.piece?, t = lexeme) :
      flaw.LiesIn lexeme := by
    rw [List.mem_singleton.1 hflaw]
    exact Flaw.liesIn_whole hne hnames
  cases hreads with
  | matched => cases h
  | word => exact hwhole hne h fun _ ht => (Option.some.inj ht).symm
  | number => exact hwhole hne h fun _ ht => (Option.some.inj ht).symm
  | character => exact hwhole hne h fun _ ht => (Option.some.inj ht).symm
  | verbatim => exact hwhole hne h fun _ ht => absurd ht (Option.not_mem_none _)
  | @quoted kind _ hopen =>
    rcases List.mem_append.1 h with h | h
    · -- the pieces before an invalid escape lie on the line
      obtain ⟨⟨d, t⟩, he, rfl⟩ := List.mem_map.1 h
      obtain ⟨before, after, hpieces, hd⟩ := Walk.split_of_mem_invalidFrom he
      have hinside : (walk c rest).inside = before.flatMap Piece.text ++ (t ++
          after.flatMap Piece.text) := by
        rw [Walk.inside, hpieces, List.flatMap_append, List.flatMap_cons]
        rfl
      have hquote : isLineBreak c = false := by
        rcases quote_of_opening? hopen with rfl | rfl <;> rfl
      have hlexeme : (walk c rest).lexeme c = (c :: before.flatMap Piece.text) ++ (t ++
          (after.flatMap Piece.text ++ (walk c rest).closing c)) := by
        rw [Walk.lexeme, hinside]
        simp
      have hpiece : t ≠ [] :=
        ne_nil_of_mem_pieces (p := .invalidEscape t) (by rw [hpieces]; simp)
      refine ⟨⟨_, _, hlexeme, ?_, ?_⟩, hpiece, fun _ ht => (Option.some.inj ht).symm⟩
      · have hline := inline_lexeme hquote rest
        rw [hlexeme] at hline
        exact hline.of_append_left
      · exact hd.trans (Distance.past_append _ [c] _).symm
    · obtain ⟨fault, hfault, rfl⟩ := List.mem_map.1 h
      refine Flaw.liesIn_whole hne ?_
      rcases literalFaults_cases kind ((walk c rest).lexeme c) (walk c rest) with
        ⟨hall, _⟩ | hall | hall <;> rw [hall] at hfault
      · cases hfault
      · rw [List.mem_singleton.1 hfault]
        exact fun _ ht => absurd ht (Option.not_mem_none _)
      · rw [List.mem_singleton.1 hfault]
        exact fun _ ht => (Option.some.inj ht).symm

end Lexeme
end LayoutLexer

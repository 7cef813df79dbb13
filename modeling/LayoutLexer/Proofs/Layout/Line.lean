import LayoutLexer.Proofs.Reading

/-! # Logical lines

Cut into logical lines, each going through its line break, the tokens of a text tell of each line
the white space that it begins with and whether it has anything besides trivia and the end of the
text.  The scanner decides both before there are any tokens of the line, from the characters ahead
of it: it takes the run of spaces and tabs and looks at the character after it.  Both agree
(`turn_of_readings`), because the kinds of the first two lexemes of a line are told by the
characters at which they begin.
-/
namespace LayoutLexer

open CharClass

/-! ## Cutting a list -/

section SplitAfter

variable {α β : Type} {p : α → Bool} {a : α} {as group : List α} {groups : List (List α)}

/-- Cuts a list after each element with a property. -/
def splitAfter (p : α → Bool) : List α → List (List α)
  | [] => []
  | a :: as =>
    match p a, splitAfter p as with
    | false, group :: groups => (a :: group) :: groups
    | _, groups => [a] :: groups

theorem splitAfter_cons_of_pos (h : p a = true) :
    splitAfter p (a :: as) = [a] :: splitAfter p as := by
  rw [splitAfter, h]

theorem splitAfter_cons_of_neg (h : p a = false) (has : splitAfter p as = group :: groups) :
    splitAfter p (a :: as) = (a :: group) :: groups := by
  rw [splitAfter, h, has]

theorem splitAfter_ne_nil (h : as ≠ []) : splitAfter p as ≠ [] := by
  obtain ⟨a, as, rfl⟩ := List.exists_cons_of_ne_nil h
  rw [splitAfter]
  split <;> exact List.cons_ne_nil _ _

theorem flatten_splitAfter (p : α → Bool) (as : List α) : (splitAfter p as).flatten = as := by
  induction as with
  | nil => rfl
  | cons a as ih =>
    rw [splitAfter]
    split
    · next group groups _ has =>
      rw [has] at ih
      rw [← ih]
      rfl
    · rw [List.flatten_cons, ih]
      rfl

theorem splitAfter_map (f : β → α) (bs : List β) :
    splitAfter p (bs.map f) = (splitAfter (fun b => p (f b)) bs).map (List.map f) := by
  induction bs with
  | nil => rfl
  | cons b bs ih =>
    rw [List.map_cons, splitAfter, splitAfter, ih]
    cases p (f b) <;> cases splitAfter (fun b => p (f b)) bs <;> rfl

end SplitAfter

/-! ## Lines of tokens -/

/-- Whether the token is a line break. -/
def Token.endsLine (t : Token) : Bool := t.kind == .lexical (.rule .lineFeed)

/-- The logical lines of tokens, each with the line break that ends it. -/
def logicalLines (tokens : List Token) : List (List Token) := splitAfter Token.endsLine tokens

/-- Whether a line has anything but trivia and the end of the text. -/
def isSignificant (line : List Token) : Bool :=
  line.any fun t => !t.isTrivia && t.kind != .endOfFile

/-- The white space that a line begins with. -/
def indentation : List Token → Text
  | [] => []
  | first :: _ => if first.kind = .lexical (.rule .whiteSpace) then first.lexeme else []

/-! ## Lines as they read -/

/-- The lines of a text as it reads. -/
def Text.readingLines (origin : Option Text) (p : Position) (t : Text) : List (List Reading) :=
  splitAfter (fun r => r.token.endsLine) (t.readings origin p)

section FirstLine

variable {origin : Option Text} {p : Position} {t rest : Text} {c : Char}
  {first : List Reading} {others : List (List Reading)}

theorem readingLines_ne_nil (origin : Option Text) (p : Position) (t : Text) :
    ∃ first others, t.readingLines origin p = first :: others := by
  have hne : t.readings origin p ≠ [] := by
    cases t with
    | nil => rw [Text.readings_nil]; exact List.cons_ne_nil _ _
    | cons c rest => rw [Text.readings_cons]; exact List.cons_ne_nil _ _
  exact List.exists_cons_of_ne_nil (splitAfter_ne_nil hne)

theorem readingLines_nil :
    Text.readingLines origin p [] = [[⟨.synthetic .endOfFile p, []⟩]] := by
  rw [Text.readingLines, Text.readings_nil]
  rfl

/-- A line break is the last token of its line. -/
theorem readingLines_of_endsLine (h : (Lexeme.read c rest).endsLine = true) :
    Text.readingLines origin p (c :: rest) =
      [(Lexeme.read c rest).reading origin p] ::
        (Lexeme.read c rest).rest.readingLines origin (p.advance (Lexeme.read c rest).text) := by
  rw [Text.readingLines, Text.readings_cons]
  exact splitAfter_cons_of_pos h

/-- Any other lexeme is on the line of what follows it. -/
theorem readingLines_of_not_endsLine (h : (Lexeme.read c rest).endsLine = false)
    (hrest : (Lexeme.read c rest).rest.readingLines origin
      (p.advance (Lexeme.read c rest).text) = first :: others) :
    Text.readingLines origin p (c :: rest) =
      ((Lexeme.read c rest).reading origin p :: first) :: others := by
  rw [Text.readingLines, Text.readings_cons]
  exact splitAfter_cons_of_neg h hrest

/-- The first line of a text that has something begins with its first lexeme. -/
theorem exists_readingLines_cons (origin : Option Text) (p : Position) (c : Char) (rest : Text) :
    ∃ more others, Text.readingLines origin p (c :: rest) =
      ((Lexeme.read c rest).reading origin p :: more) :: others := by
  by_cases hends : (Lexeme.read c rest).endsLine = true
  · exact ⟨[], _, readingLines_of_endsLine hends⟩
  · obtain ⟨first, others, hrest⟩ := readingLines_ne_nil origin
      (p.advance (Lexeme.read c rest).text) (Lexeme.read c rest).rest
    exact ⟨first, others, readingLines_of_not_endsLine (Bool.eq_false_iff.2 hends) hrest⟩

/-- Trivia do not make a line significant, and what is no trivia does. -/
theorem isSignificant_reading_cons (l : Lexeme) (more : List Reading) :
    isSignificant ((l.reading origin p :: more).map Reading.token) =
      (!l.kind.isTrivia && l.kind != .endOfFile || isSignificant (more.map Reading.token)) :=
  rfl

/-- A line at whose front the text ends or the line breaks has nothing significant. -/
theorem isSignificant_of_break (ht : ∀ c ∈ t.head?, isLineBreak c = true)
    (hlines : t.readingLines origin p = first :: others) :
    isSignificant (first.map Reading.token) = false := by
  cases t with
  | nil =>
    rw [readingLines_nil] at hlines
    obtain ⟨rfl, _⟩ := List.cons.inj hlines
    rfl
  | cons c rest =>
    have hkind := (@Lexeme.kind_read_eq_lineFeed_iff c rest).2 (ht c rfl)
    have hends : (Lexeme.read c rest).endsLine = true := by rw [Lexeme.endsLine, hkind]; rfl
    rw [readingLines_of_endsLine hends] at hlines
    obtain ⟨rfl, _⟩ := List.cons.inj hlines
    rw [isSignificant_reading_cons, hkind]
    rfl

/-- A comment goes to the end of the text or to a line break. -/
theorem head_rest_of_comment (hkind : (Lexeme.read c rest).kind = .lexical (.rule .comment)) :
    ∀ d ∈ (Lexeme.read c rest).rest.head?, isLineBreak d = true := by
  rw [(Lexeme.text_of_comment hkind).2]
  intro d hd
  have hstop := List.head?_dropWhile_not (fun d => !isLineBreak d) (c :: rest)
  rw [Option.mem_def.1 hd] at hstop
  simpa using hstop

/-- Where no white space stands at the front of a line, its first character tells whether it is
significant. -/
theorem isSignificant_of_head (ht : ∀ c ∈ t.head?, isHorizontalSpace c = false)
    (hlines : t.readingLines origin p = first :: others) :
    isSignificant (first.map Reading.token) = !Scanner.isInsignificant t := by
  cases t with
  | nil =>
    exact isSignificant_of_break (t := []) (fun _ hc => absurd hc (Option.not_mem_none _)) hlines
  | cons c rest =>
    rw [Scanner.isInsignificant]
    by_cases hbreak : isLineBreak c = true
    · rw [hbreak]
      refine isSignificant_of_break (fun d hd => ?_) hlines
      cases hd
      exact hbreak
    by_cases hcomment : c = '#'
    · have hkind := (@Lexeme.kind_read_eq_comment_iff c rest).2 hcomment
      have hends : (Lexeme.read c rest).endsLine = false := by rw [Lexeme.endsLine, hkind]; rfl
      obtain ⟨more, others', hrest⟩ := readingLines_ne_nil origin
        (p.advance (Lexeme.read c rest).text) (Lexeme.read c rest).rest
      rw [readingLines_of_not_endsLine hends hrest] at hlines
      obtain ⟨rfl, _⟩ := List.cons.inj hlines
      have hmore := isSignificant_of_break (head_rest_of_comment hkind) hrest
      rw [isSignificant_reading_cons, hmore, hkind, beq_iff_eq.2 hcomment, Bool.or_true]
      rfl
    · -- the lexeme is none of the trivia
      have htrivia : (Lexeme.read c rest).kind.isTrivia = false := by
        rcases Lexeme.kind_read c rest with ⟨q, hq⟩ | ⟨e, he, _⟩
        · by_contra hne
          rw [Bool.not_eq_false, hq] at hne
          cases q with
          | rule r =>
            rcases Lexeme.rule_of_isTrivia hne with rfl | rfl | rfl
            · have hspace := Lexeme.kind_read_eq_whiteSpace_iff.1 hq
              rw [ht c rfl] at hspace
              cases hspace
            · exact hbreak (Lexeme.kind_read_eq_lineFeed_iff.1 hq)
            · exact hcomment (Lexeme.kind_read_eq_comment_iff.1 hq)
          | keyword k => cases hne
          | symbol s => cases hne
        · rw [he]
          rfl
      have hend : (Lexeme.read c rest).kind ≠ .endOfFile := by
        intro heq
        have hsynthetic := Lexeme.isSynthetic_kind_read c rest
        rw [heq] at hsynthetic
        cases hsynthetic
      obtain ⟨more, others', hcons⟩ := exists_readingLines_cons origin p c rest
      rw [hcons] at hlines
      obtain ⟨rfl, _⟩ := List.cons.inj hlines
      rw [isSignificant_reading_cons, htrivia, bne_iff_ne.2 hend, beq_eq_false_iff_ne.2 hcomment,
        Bool.eq_false_iff.2 hbreak]
      rfl

/-- **The first tokens of a line tell what the characters ahead tell**: the white space that it
begins with, and whether it is significant. -/
theorem turn_of_readings (hlines : t.readingLines origin p = first :: others) :
    indentation (first.map Reading.token) = t.takeWhile isHorizontalSpace ∧
      isSignificant (first.map Reading.token) =
        !Scanner.isInsignificant (t.dropWhile isHorizontalSpace) := by
  by_cases ht : ∀ c ∈ t.head?, isHorizontalSpace c = false
  · have hdrop : t.dropWhile isHorizontalSpace = t := by
      cases t with
      | nil => rfl
      | cons c rest => rw [List.dropWhile_cons_of_neg (by rw [ht c rfl]; exact Bool.false_ne_true)]
    have htake : t.takeWhile isHorizontalSpace = [] := by
      cases t with
      | nil => rfl
      | cons c rest => rw [List.takeWhile_cons_of_neg (by rw [ht c rfl]; exact Bool.false_ne_true)]
    rw [hdrop, htake]
    refine ⟨?_, isSignificant_of_head ht hlines⟩
    cases t with
    | nil =>
      rw [readingLines_nil] at hlines
      obtain ⟨rfl, _⟩ := List.cons.inj hlines
      rfl
    | cons c rest =>
      have hkind : (Lexeme.read c rest).kind ≠ .lexical (.rule .whiteSpace) := by
        intro hkind
        have hspace := Lexeme.kind_read_eq_whiteSpace_iff.1 hkind
        rw [ht c rfl] at hspace
        cases hspace
      obtain ⟨more, others', hcons⟩ := exists_readingLines_cons origin p c rest
      rw [hcons] at hlines
      obtain ⟨rfl, _⟩ := List.cons.inj hlines
      exact if_neg hkind
  · -- the first lexeme is the white space, and the next one decides
    obtain ⟨c, rest, rfl, hspace⟩ : ∃ c rest, t = c :: rest ∧ isHorizontalSpace c = true := by
      cases t with
      | nil => exact absurd (fun _ hc => absurd hc (Option.not_mem_none _)) ht
      | cons c rest =>
        refine ⟨c, rest, rfl, ?_⟩
        by_contra hne
        refine ht fun d hd => ?_
        cases hd
        exact Bool.eq_false_iff.2 hne
    have hkind := (@Lexeme.kind_read_eq_whiteSpace_iff c rest).2 hspace
    have hends : (Lexeme.read c rest).endsLine = false := by rw [Lexeme.endsLine, hkind]; rfl
    obtain ⟨htext, hdrop⟩ := Lexeme.text_of_whiteSpace hkind
    obtain ⟨more, others', hrest⟩ := readingLines_ne_nil origin
      (p.advance (Lexeme.read c rest).text) (Lexeme.read c rest).rest
    rw [readingLines_of_not_endsLine hends hrest] at hlines
    obtain ⟨rfl, _⟩ := List.cons.inj hlines
    constructor
    · exact (if_pos hkind).trans htext
    · rw [← hdrop, ← isSignificant_of_head ?_ hrest]
      · rw [isSignificant_reading_cons, hkind]
        rfl
      · rw [hdrop]
        intro d hd
        have hstop := List.head?_dropWhile_not isHorizontalSpace (c :: rest)
        rw [Option.mem_def.1 hd] at hstop
        simpa using hstop

/-- A line begins where the text does. -/
theorem start_of_readingLines (hlines : t.readingLines origin p = first :: others) :
    (first.map Reading.token).head?.map (fun u => u.span.start) = some p := by
  cases t with
  | nil =>
    rw [readingLines_nil] at hlines
    obtain ⟨rfl, _⟩ := List.cons.inj hlines
    rfl
  | cons c rest =>
    obtain ⟨more, others', hcons⟩ := exists_readingLines_cons origin p c rest
    rw [hcons] at hlines
    obtain ⟨rfl, _⟩ := List.cons.inj hlines
    rfl

end FirstLine

end LayoutLexer

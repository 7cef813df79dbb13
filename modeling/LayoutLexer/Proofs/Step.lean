import LayoutLexer.Listing

/-! # What one step does

A step of the scanner is the beginning of a line, if one begins, followed by the next lexeme or
by the end of the text.  Each of these is an update of the state with a closed form: the line
queues the layout tokens of one transition of the indentation stack (`indentTo_eq`), a lexeme
queues its own token and moves past its text (`accept_eq`), the end queues the closing of the
open blocks and the end of the text (`finish_eq`).  `step_cases` and `beginLine_cases` say that
nothing else can happen; every invariant of a scan is proved from them.
-/
namespace LayoutLexer

namespace Transition

/-- The kinds of the layout tokens that go with a transition, in the order of the queue. -/
def kinds : Transition → List TokenKind
  | .same => []
  | .indent => [.indent]
  | .dedent blocks => List.replicate blocks .dedent
  | .inconsistent blocks _ => List.replicate blocks .dedent ++ [.error .indentation]

/-- What is reported of a line of the given width that makes a transition. -/
def faults (width : Nat) : Transition → List Fault
  | .inconsistent _ enclosing => [.inconsistentIndentation width enclosing]
  | _ => []

/-- The tokens of a transition are layout and nothing else. -/
theorem isLayout_of_mem_kinds {t : Transition} {k : TokenKind} (h : k ∈ t.kinds) :
    k = .indent ∨ k = .dedent ∨ k = .error .indentation := by
  cases t with
  | same => cases h
  | indent => exact .inl (List.mem_singleton.1 h)
  | dedent n => exact .inr (.inl (List.eq_of_mem_replicate h))
  | inconsistent n e =>
    rcases List.mem_append.1 h with h | h
    · exact .inr (.inl (List.eq_of_mem_replicate h))
    · exact .inr (.inr (List.mem_singleton.1 h))

end Transition

namespace IndentStack

@[simp] theorem blocks_nil : blocks [] = 0 := rfl

theorem blocks_cons (level : Level) (levels : List Level) :
    blocks (level :: levels) = blocks levels + if level.resynchronized then 0 else 1 := by
  unfold blocks
  rw [List.countP_cons]
  cases level.resynchronized <;> rfl

/-- The blocks of the closed levels and those of the kept ones are all blocks. -/
theorem blocks_wider_add_narrowed (s : IndentStack) (width : Nat) :
    blocks (s.wider width) + blocks (s.narrowed width).levels = blocks s.levels := by
  unfold blocks
  rw [← List.countP_append, wider_append_narrowed]

/-- The four things that a line can do to the stack. -/
theorem transition_cases (s : IndentStack) (width : Nat) :
    width = s.current ∧ s.transition width = (.same, s) ∨
      s.current < width ∧ s.transition width = (.indent, s.push ⟨width, false⟩) ∨
      width < s.current ∧ (s.narrowed width).current = width ∧
        s.transition width = (.dedent (blocks (s.wider width)), s.narrowed width) ∨
      width < s.current ∧ (s.narrowed width).current ≠ width ∧
        s.transition width =
          (.inconsistent (blocks (s.wider width)) (s.narrowed width).current,
            (s.narrowed width).push ⟨width, true⟩) := by
  unfold transition
  by_cases hsame : width = s.current
  · exact .inl ⟨hsame, if_pos hsame⟩
  · right
    rw [if_neg hsame]
    by_cases hlt : s.current < width
    · exact .inl ⟨hlt, if_pos hlt⟩
    · right
      rw [if_neg hlt]
      have hwidth : width < s.current := by omega
      by_cases hkept : (s.narrowed width).current = width
      · exact .inl ⟨hwidth, hkept, if_pos hkept⟩
      · exact .inr ⟨hwidth, hkept, if_neg hkept⟩

end IndentStack

namespace Lexeme

/-- Whether the lexeme ends its line. -/
def endsLine (l : Lexeme) : Bool := l.kind == .lexical (.rule .lineFeed)

/-- The lexeme at the front of a text is the longest match, or it is one of the errors that have
a lexeme. -/
theorem read_cases (c : Char) (rest : Text) :
    (∃ m, Lexicon.longestMatch (c :: rest) = some m ∧ read c rest = ofMatch m) ∨
      ∃ e, (read c rest).kind = .error e ∧ e ≠ .indentation := by
  have hbroken (k : LiteralKind) :
      ∃ e, (brokenLiteral k c rest).kind = .error e ∧ e ≠ .indentation := by
    cases k <;> exact ⟨.literal, rfl, by decide⟩
  unfold read
  split
  · unfold literal
    split
    · next m h =>
      split
      · exact .inl ⟨m, h, rfl⟩
      · exact .inr (hbroken _)
    · exact .inr (hbroken _)
  · unfold unquoted
    split
    · next m h =>
      split
      · unfold word
        split
        · exact .inr ⟨.identifier, rfl, by decide⟩
        · exact .inl ⟨m, h, rfl⟩
      · split
        · unfold number
          split
          · exact .inl ⟨m, h, rfl⟩
          · exact .inr ⟨.number, rfl, by decide⟩
        · exact .inl ⟨m, h, rfl⟩
    · split
      · exact .inr ⟨.identifier, rfl, by decide⟩
      · exact .inr ⟨.character, rfl, by decide⟩

/-- A lexeme whose kind is a pattern is what the recognizer of the pattern accepts. -/
theorem recognizer_of_kind_read {c : Char} {rest : Text} {p : Pattern}
    (h : (read c rest).kind = .lexical p) :
    p.recognizer (c :: rest) = some ((read c rest).text, (read c rest).rest) := by
  rcases read_cases c rest with ⟨m, hm, hread⟩ | ⟨e, he, _⟩
  · rw [hread] at h ⊢
    cases h
    exact (Lexicon.matchOf?_eq_some_iff.1 (Lexicon.matchOf?_of_longestMatch hm).2).1
  · rw [h] at he
    cases he

/-- The kind of a lexeme is a pattern or one of the errors that have a lexeme. -/
theorem kind_read (c : Char) (rest : Text) :
    (∃ p, (read c rest).kind = .lexical p) ∨
      ∃ e, (read c rest).kind = .error e ∧ e ≠ .indentation := by
  rcases read_cases c rest with ⟨m, _, hread⟩ | he
  · exact .inl ⟨m.pattern, by rw [hread]; rfl⟩
  · exact .inr he

theorem isSynthetic_kind_read (c : Char) (rest : Text) :
    (read c rest).kind.isSynthetic = false := by
  rcases kind_read c rest with ⟨p, hp⟩ | ⟨e, he, hne⟩
  · rw [hp]; rfl
  · rw [he]
    cases e with
    | indentation => exact absurd rfl hne
    | _ => rfl

end Lexeme

namespace Scanner

/-! ## The three updates -/

theorem reportFlaws_eq (s : Scanner) (flaws : List Flaw) :
    s.reportFlaws flaws =
      { s with diagnostics := s.diagnostics ++
          flaws.map fun flaw => ⟨s.origin, flaw.fault, s.flawSpan flaw⟩ } := by
  unfold reportFlaws
  induction flaws generalizing s with
  | nil => simp
  | cons flaw flaws ih =>
    rw [List.foldl_cons, ih]
    simp only [report, List.map_cons, List.append_assoc, List.singleton_append]
    rfl

/-- A line of a given width changes the stack by one transition, queues its tokens and reports
its faults. -/
theorem indentTo_eq (s : Scanner) (width : Nat) :
    s.indentTo width =
      { s with
        indents := (s.indents.transition width).2
        pending := s.pending ++ (s.indents.transition width).1.kinds.map s.layoutToken
        diagnostics := s.diagnostics ++ ((s.indents.transition width).1.faults width).map
          fun fault => ⟨s.origin, fault, .ofText s.position []⟩ } := by
  unfold indentTo
  cases h : s.indents.transition width with
  | mk t indents =>
    cases t with
    | same => simp [Transition.kinds, Transition.faults]
    | indent => simp [Transition.kinds, Transition.faults, enqueue, layoutToken]
    | dedent n => simp [Transition.kinds, Transition.faults, enqueue, layoutToken]
    | inconsistent n e =>
      simp [Transition.kinds, Transition.faults, enqueue, report, layoutToken, Token.synthetic,
        Token.ofLexeme]

/-- A lexeme is queued as a token, its flaws are reported, and the scan goes on after it. -/
theorem accept_eq (s : Scanner) (l : Lexeme) :
    s.accept l =
      { s with
        pending := s.pending ++ [.ofLexeme l.kind s.position l.text]
        rest := l.rest
        position := s.position.advance l.text
        atLineStart := s.atLineStart || l.endsLine
        diagnostics := s.diagnostics ++
          l.flaws.map fun flaw => ⟨s.origin, flaw.fault, s.flawSpan flaw⟩ } := by
  simp only [accept, reportFlaws_eq, enqueue, Lexeme.endsLine]

/-- The number of blocks that the end of the text closes. -/
def closingBlocks (s : Scanner) : Nat :=
  if s.config.trackIndentation then IndentStack.blocks s.indents.levels else 0

/-- The kinds of the tokens that the end of the text queues. -/
def closingKinds (s : Scanner) : List TokenKind :=
  List.replicate s.closingBlocks .dedent ++ [.endOfFile]

/-- The end of the text closes the open blocks if blocks are tracked. -/
theorem finish_eq (s : Scanner) :
    s.finish =
      { s with
        pending := s.pending ++ s.closingKinds.map s.layoutToken
        indents := if s.config.trackIndentation then .base else s.indents
        finished := true } := by
  unfold finish closingKinds closingBlocks
  cases s.config.trackIndentation <;> simp [enqueue, IndentStack.close]

/-! ## There are no other steps -/

/-- At the beginning of a line either nothing happens, or blocks are tracked, the line is
significant, and the stack moves to its width. -/
theorem beginLine_cases {s t : Scanner} (h : s.beginLine = .ok t) :
    t = { s with atLineStart := false } ∨
      ∃ width, s.atLineStart = true ∧ s.config.trackIndentation = true ∧
        isInsignificant (s.rest.dropWhile CharClass.isHorizontalSpace) = false ∧
        Width.checked s.config.tabWidth (s.rest.takeWhile CharClass.isHorizontalSpace) =
          .ok width ∧
        t = { s with atLineStart := false }.indentTo width := by
  unfold beginLine at h
  split at h
  · next hstart =>
    dsimp only at h
    split at h
    · next htrack =>
      unfold measureLine at h
      dsimp only at h
      split at h
      · cases h
        exact .inl rfl
      · next hsig =>
        split at h
        · cases h
        · next width hwidth =>
          cases h
          exact .inr ⟨width, hstart, htrack, by simpa using hsig, hwidth, rfl⟩
    · cases h
      exact .inl rfl
  · next hstart =>
    cases h
    left
    rw [Bool.not_eq_true] at hstart
    rw [← hstart]

/-- A step begins the line and then ends the text or accepts the next lexeme. -/
theorem step_cases {s s' : Scanner} (h : s.step = .ok s') :
    ∃ t, s.beginLine = .ok t ∧
      (t.rest = [] ∧ s' = t.finish ∨
        ∃ c rest, t.rest = c :: rest ∧ s' = t.accept (Lexeme.read c rest)) := by
  unfold step at h
  split at h
  · cases h
  · next t ht =>
    refine ⟨t, ht, ?_⟩
    split at h
    · next hrest =>
      cases h
      exact .inl ⟨hrest, rfl⟩
    · next c rest hrest =>
      cases h
      exact .inr ⟨c, rest, hrest, rfl⟩

/-- The beginning of a line changes neither the text nor the place nor the settings. -/
theorem beginLine_frame {s t : Scanner} (h : s.beginLine = .ok t) :
    t.source = s.source ∧ t.config = s.config ∧ t.origin = s.origin ∧ t.rest = s.rest ∧
      t.position = s.position ∧ t.atLineStart = false ∧ t.finished = s.finished := by
  rcases beginLine_cases h with rfl | ⟨width, _, _, _, _, rfl⟩
  · exact ⟨rfl, rfl, rfl, rfl, rfl, rfl, rfl⟩
  · rw [indentTo_eq]
    exact ⟨rfl, rfl, rfl, rfl, rfl, rfl, rfl⟩

/-- The next step emits a lexeme.  It fails only where the line cannot begin.  Otherwise, in the
state `t` in which the line has begun, the token of the lexeme goes behind all that is queued, its
flaws are reported after all that has been reported, and the scan goes on after its text; nothing
else changes. -/
structure Emits (s : Scanner) (l : Lexeme) : Prop where
  fails : ∀ e, s.beginLine = .error e → s.step = .error e
  emits : ∀ t, s.beginLine = .ok t →
    s.step = .ok { t with
      pending := t.pending ++ [⟨l.kind, l.text, .ofText s.position l.text⟩]
      diagnostics := t.diagnostics ++ l.flaws.map fun flaw =>
        ⟨s.origin, flaw.fault, .ofText (s.position.along flaw.distance) flaw.piece⟩
      rest := l.rest
      position := s.position.advance l.text
      atLineStart := l.endsLine }

/-- Where the text goes on, the next step emits the lexeme at its front. -/
theorem emits_read {s : Scanner} {c : Char} {rest : Text} (hs : s.rest = c :: rest) :
    s.Emits (Lexeme.read c rest) where
  fails e he := by
    unfold step
    rw [he]
  emits t ht := by
    obtain ⟨_, _, horigin, hrest, hposition, hline, _⟩ := beginLine_frame ht
    have hfront : t.rest = c :: rest := hrest.trans hs
    unfold step
    rw [ht]
    dsimp only
    rw [hfront]
    dsimp only
    simp only [accept_eq, flawSpan, horigin, hposition, hline, Bool.false_or]
    rfl

end Scanner
end LayoutLexer

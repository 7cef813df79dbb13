import LayoutLexer.Proofs.Cursor.Lexeme
import LayoutLexer.Proofs.LineWidth

/-! # A scan by offsets is the scanner's

A scanner without its rest is a cursor (`Scanner.cursor`).  As long as the offset is where the
rest begins and no more levels are open than bytes are scanned (`Scanner.Placed`), each operation
of the cursor does what the scanner does, and it fails just where the scanner fails.  A line that
opens a level is followed by a lexeme, so the bytes keep ahead of the levels.
-/
namespace LayoutLexer

open CharClass Guarded

/-! ## Levels -/

namespace Levels

variable {s : IndentStack} {width : Nat}

/-- The level of width zero that is never closed. -/
def base : Level := ⟨0, false⟩

/-- The levels of a stack with the base below them. -/
def ofStack (s : IndentStack) : List Level := s.levels ++ [base]

theorem current_ofStack : current (ofStack s) = s.current := by
  obtain ⟨levels⟩ := s
  cases levels <;> rfl

theorem narrow_ofStack {levels : List Level} {closed : Nat}
    (hcount : closed + levels.length < 2 ^ 64) :
    narrow width (levels ++ [base]) closed =
      .ok (closed + IndentStack.blocks (IndentStack.wider ⟨levels⟩ width),
        ofStack (IndentStack.narrowed ⟨levels⟩ width)) := by
  induction levels generalizing closed with
  | nil => rfl
  | cons level levels ih =>
    rw [List.length_cons] at hcount
    rw [List.cons_append, narrow]
    by_cases hwider : width < level.width
    · have hwide : IndentStack.wider ⟨level :: levels⟩ width =
          level :: IndentStack.wider ⟨levels⟩ width :=
        List.takeWhile_cons_of_pos (by simpa using hwider)
      have hkept : IndentStack.narrowed ⟨level :: levels⟩ width =
          IndentStack.narrowed ⟨levels⟩ width :=
        congrArg IndentStack.mk (List.dropWhile_cons_of_pos (by simpa using hwider))
      rw [if_pos ⟨by simp, hwider⟩, hwide, hkept, IndentStack.blocks_cons]
      cases level.resynchronized with
      | true => exact ih (by omega)
      | false =>
        -- the level was a block, and there are no more blocks than levels
        have hadd : add closed 1 = .ok (closed + 1) := add_of_lt (by omega)
        have hrest := @ih (closed + 1) (by omega)
        simp only [Bool.false_eq_true, if_false, hadd, ok_bind, hrest]
        congr 2
        omega
    · have hwide : IndentStack.wider ⟨level :: levels⟩ width = [] :=
        List.takeWhile_cons_of_neg (by simpa using hwider)
      have hkept : IndentStack.narrowed ⟨level :: levels⟩ width = ⟨level :: levels⟩ :=
        congrArg IndentStack.mk (List.dropWhile_cons_of_neg (by simpa using hwider))
      rw [if_neg fun h => hwider h.2, hwide, hkept]
      rfl

theorem transition_ofStack (hcount : s.levels.length < 2 ^ 64) :
    transition (ofStack s) width =
      .ok ((s.transition width).1, ofStack (s.transition width).2) := by
  unfold transition IndentStack.transition
  rw [current_ofStack]
  by_cases hsame : width = s.current
  · rw [if_pos hsame, if_pos hsame]
    rfl
  · rw [if_neg hsame, if_neg hsame]
    by_cases hlt : s.current < width
    · rw [if_pos hlt, if_pos hlt, sub_of_add]
      rfl
    · have hnarrow := @narrow_ofStack width s.levels 0 (by omega)
      rw [if_neg hlt, if_neg hlt, ofStack, hnarrow, ok_bind]
      dsimp only
      rw [current_ofStack, Nat.zero_add]
      by_cases hkept : (s.narrowed width).current = width
      · rw [if_pos hkept, if_pos hkept]
        rfl
      · rw [if_neg hkept, if_neg hkept]
        rfl

theorem close_ofStack :
    close (ofStack s) = .ok (IndentStack.blocks s.levels, ofStack .base) := by
  unfold close ofStack
  rw [List.getLast?_concat, List.dropLast_concat]
  rfl

end Levels

/-- A line adds at most one level. -/
theorem IndentStack.length_transition_le (s : IndentStack) (width : Nat) :
    (s.transition width).2.levels.length ≤ s.levels.length + 1 := by
  have hkept : (s.narrowed width).levels.length ≤ s.levels.length :=
    (List.dropWhile_sublist _).length_le
  rcases s.transition_cases width with ⟨_, h⟩ | ⟨_, h⟩ | ⟨_, _, h⟩ | ⟨_, _, h⟩ <;> rw [h]
  · exact Nat.le_succ _
  · exact Nat.le_refl _
  · exact Nat.le_succ_of_le hkept
  · exact Nat.succ_le_succ hkept

/-! ## Cursors of scanners -/

namespace Scanner

/-- The scanner without its rest. -/
def cursor (s : Scanner) : Cursor where
  source := s.source
  origin := s.origin
  config := s.config
  position := s.position
  atLineStart := s.atLineStart
  levels := Levels.ofStack s.indents
  pending := s.pending
  diagnostics := s.diagnostics
  finished := s.finished

/-- The cursor stands before the rest, and for each level that is open or can be opened at the
place a byte has been scanned, save one. -/
structure Placed (s : Scanner) : Prop where
  stands : s.cursor.Stands s.rest
  levels : s.indents.levels.length + (if s.atLineStart then 1 else 0) ≤ s.position.offset + 1

end Scanner

namespace Cursor

variable {k : Cursor} {text : Text}

/-- Tokens without a lexeme are queued at the place of the cursor. -/
theorem foldlM_queueSynthetic (h : k.Stands text) (kinds : List TokenKind) :
    kinds.foldlM queueSynthetic k =
      .ok { k with pending := k.pending ++ kinds.map fun kind => .synthetic kind k.position } := by
  induction kinds generalizing k with
  | nil => simp
  | cons kind kinds ih =>
    have hemit : k.emit kind 0 = .ok (.synthetic kind k.position, k) :=
      @emit_eq k [] text h kind
    have hstands : (k.enqueue (.synthetic kind k.position)).Stands text :=
      h.congr rfl rfl
    rw [List.foldlM_cons, queueSynthetic, hemit, ok_bind]
    dsimp only
    rw [pure_eq, ok_bind, ih hstands]
    simp [enqueue]

end Cursor

namespace Scanner

variable {s : Scanner}

/-- The levels of a placed scanner can be counted. -/
theorem Placed.length_levels_lt (h : s.Placed) : s.indents.levels.length < 2 ^ 64 := by
  have hlevels := h.levels
  have hshort := h.stands.short
  have hoffset := h.stands.offset_add_le
  have hposition : s.cursor.position.offset = s.position.offset := rfl
  omega

theorem cursor_measureLine (h : s.cursor.Stands s.rest)
    (hcount : s.indents.levels.length < 2 ^ 64) :
    s.cursor.measureLine = checked (s.measureLine.map cursor) := by
  have hsplit := @List.takeWhile_append_dropWhile Char isHorizontalSpace s.rest
  unfold Cursor.measureLine measureLine
  rw [h.rest_eq, ok_bind]
  generalize s.rest.takeWhile isHorizontalSpace = run at hsplit ⊢
  generalize s.rest.dropWhile isHorizontalSpace = line at hsplit ⊢
  have hindent : sub s.rest.byteLength (Text.byteLength line) = .ok (Text.byteLength run) := by
    rw [← hsplit, Text.byteLength_append]
    exact sub_of_add
  have hline : slice s.rest (Text.byteLength run) s.rest.byteLength = .ok line := by
    rw [← hsplit]
    exact slice_suffix
  have hrun : slice s.rest 0 (Text.byteLength run) = .ok run := by
    rw [← hsplit]
    exact slice_prefix
  rw [hindent, ok_bind, hline, ok_bind]
  by_cases hsig : isInsignificant line = true
  · rw [if_pos hsig, if_pos hsig]
    rfl
  · have hconfig : Width.checked s.cursor.config.tabWidth run =
        Width.checked s.config.tabWidth run := rfl
    rw [if_neg hsig, if_neg hsig, hrun, ok_bind, hconfig]
    cases Width.checked s.config.tabWidth run with
    | error o => rfl
    | ok width =>
      have htransition := @Levels.transition_ofStack s.indents width hcount
      -- only the levels change before the tokens of the transition are queued
      have hstands : { s.cursor with
          levels := Levels.ofStack (s.indents.transition width).2 : Cursor }.Stands s.rest :=
        h.congr rfl rfl
      dsimp only at hstands
      rw [checked, ok_bind, show s.cursor.levels = Levels.ofStack s.indents from rfl, htransition,
        ok_bind]
      dsimp only
      rw [Cursor.foldlM_queueSynthetic hstands, ok_bind, indentTo_eq]
      cases (s.indents.transition width).1 <;> simp [Transition.faults, cursor] <;> rfl

theorem cursor_beginLine (h : s.Placed) :
    s.cursor.beginLine = checked (s.beginLine.map cursor) := by
  unfold Cursor.beginLine beginLine
  by_cases hstart : s.atLineStart = true
  · rw [if_pos hstart, if_pos (show s.cursor.atLineStart = true from hstart)]
    dsimp only
    by_cases htrack : s.config.trackIndentation = true
    · rw [if_pos htrack, if_pos (show s.cursor.config.trackIndentation = true from htrack)]
      exact @cursor_measureLine { s with atLineStart := false }
        (h.stands.congr rfl rfl) h.length_levels_lt
    · rw [if_neg htrack, if_neg (show ¬ s.cursor.config.trackIndentation = true from htrack)]
      rfl
  · rw [if_neg hstart, if_neg (show ¬ s.cursor.atLineStart = true from hstart)]
    rfl

theorem cursor_finish (h : s.cursor.Stands s.rest) : s.cursor.finish = .ok s.finish.cursor := by
  unfold Cursor.finish
  rw [finish_eq]
  have hqueue (levels : List Level) (kinds : List TokenKind) :=
    @Cursor.foldlM_queueSynthetic { s.cursor with levels } s.rest
      (h.congr rfl rfl) kinds
  by_cases htrack : s.config.trackIndentation = true
  · have hclose : Levels.close s.cursor.levels = _ := @Levels.close_ofStack s.indents
    rw [if_pos (show s.cursor.config.trackIndentation = true from htrack), hclose, ok_bind,
      if_pos htrack]
    dsimp only at hqueue ⊢
    rw [hqueue, closingKinds, closingBlocks, if_pos htrack]
    rfl
  · rw [if_neg (show ¬ s.cursor.config.trackIndentation = true from htrack), pure_eq, ok_bind,
      if_neg htrack]
    dsimp only at hqueue ⊢
    rw [hqueue, closingKinds, closingBlocks, if_neg htrack]
    rfl

namespace Placed

theorem beginLine (h : s.Placed) {t : Scanner} (ht : s.beginLine = .ok t) : t.Placed := by
  have hlevels := h.levels
  rcases beginLine_cases ht with rfl | ⟨width, hstart, _, _, _, rfl⟩
  · refine ⟨h.stands.congr rfl rfl, ?_⟩
    simp only [Bool.false_eq_true, if_false]
    omega
  · -- the line takes the level that the start of a line leaves room for
    have hone := s.indents.length_transition_le width
    rw [if_pos hstart] at hlevels
    rw [indentTo_eq]
    refine ⟨h.stands.congr rfl rfl, ?_⟩
    simp only [Bool.false_eq_true, if_false]
    omega

theorem accept (h : s.Placed) {c : Char} {inside : Text} (hrest : s.rest = c :: inside) :
    (s.accept (Lexeme.read c inside)).Placed := by
  obtain ⟨happ, hne⟩ := Lexeme.fronts_read c inside
  have hpos : (Lexeme.read c inside).text.byteLength ≠ 0 :=
    fun hzero => hne (Text.byteLength_eq_zero_iff.1 hzero)
  have hstands := h.stands
  have hlevels := h.levels
  rw [hrest, ← happ] at hstands
  rw [accept_eq]
  refine ⟨hstands.past.congr rfl rfl, ?_⟩
  -- a lexeme has at least one byte, which pays for the level of the next line
  dsimp only
  rw [Position.advance_offset]
  split <;> omega

end Placed

/-- A step by offsets is the scanner's step, and it fails where that does. -/
theorem cursor_step (h : s.Placed) : s.cursor.step = checked (s.step.map cursor) := by
  unfold Cursor.step step
  rw [cursor_beginLine h]
  cases ht : s.beginLine with
  | error e => rfl
  | ok t =>
    have hplaced := h.beginLine ht
    have hstands := hplaced.stands
    show (t.cursor.rest >>= _) = _
    rw [hstands.rest_eq, ok_bind]
    dsimp only
    cases hrest : t.rest with
    | nil => exact cursor_finish hstands
    | cons c inside =>
      rw [hrest] at hstands
      dsimp only
      rw [Cursor.scanToken_eq hstands, ok_bind, accept_eq]
      rfl

theorem Placed.step (h : s.Placed) {s' : Scanner} (hs : s.step = .ok s') :
    s'.finished = false → s'.Placed := by
  obtain ⟨t, ht, ⟨_, rfl⟩ | ⟨c, inside, hrest, rfl⟩⟩ := step_cases hs
  · intro hf
    rw [finish_eq] at hf
    cases hf
  · exact fun _ => (h.beginLine ht).accept hrest

/-- **Draining by offsets is draining the scanner.**  With more fuel than there is left to scan
no slice is missing, no sum or difference overflows and no loop goes on, and the tokens and the
last cursor are the scanner's; where the width of an indentation overflows, both fail. -/
theorem cursor_drain (h : s.finished = false → s.Placed) {fuel : Nat} (hfuel : s.remaining < fuel) :
    s.cursor.drain fuel =
      checked (s.drain.map fun (tokens, last) => (tokens, last.cursor)) := by
  induction s using drain_induction generalizing fuel with
  | h s ih =>
    obtain ⟨fuel, rfl⟩ := Nat.exists_eq_add_one_of_ne_zero (Nat.ne_of_gt (Nat.zero_lt_of_lt hfuel))
    rw [Cursor.drain]
    by_cases hf : s.finished = true
    · rw [if_pos (show s.cursor.finished = true from hf), drain_of_finished hf]
      rfl
    · rw [if_neg (show ¬ s.cursor.finished = true from hf)]
      rw [Bool.not_eq_true] at hf
      have hplaced : { s with pending := [] : Scanner }.Placed :=
        ⟨(h hf).stands.congr rfl rfl, (h hf).levels⟩
      have hstep := cursor_step hplaced
      rw [drain_of_unfinished hf]
      show ({ s with pending := [] : Scanner }.cursor.step >>= _) = _
      rw [hstep]
      cases hs : { s with pending := [] : Scanner }.step with
      | error e => rfl
      | ok s' =>
        -- the step has left less to scan, so the fuel that is left is enough
        have hlt : s'.remaining < s.remaining :=
          @step_remaining_lt { s with pending := [] } s' hf hs
        have hgo := @ih hf s' hs (hplaced.step hs) fuel (by omega)
        show (s'.cursor.drain fuel >>= _) = _
        rw [hgo]
        dsimp only
        cases s'.drain <;> rfl

/-- A scanner at the start of a short text stands where its cursor does. -/
theorem placed_scanner {config : Config} {origin : Option Text} {source : Text}
    (hshort : source.withoutMark.byteLength < 2 ^ 63) :
    (Listing.scanner config origin source).Placed where
  stands := ⟨⟨[], rfl, rfl⟩, hshort, Nat.le_refl _, Nat.le_refl _⟩
  levels := Nat.le_refl _

end Scanner

namespace Cursor

variable {config : Config} {origin : Option Text} {source : Text}

/-- A scan by offsets makes the listing, and fails only where there is none. -/
theorem listing_eq (hshort : source.byteLength < 2 ^ 63) :
    listing config origin source = checked (Listing.ofText config origin source) := by
  obtain ⟨mark, hmark⟩ := source.isSuffix_withoutMark
  have hbytes : source.withoutMark.byteLength < 2 ^ 63 := by
    rw [← hmark, Text.byteLength_append] at hshort
    omega
  have hfuel : (Listing.scanner config origin source).remaining < source.length + 2 := by
    have hlength := source.isSuffix_withoutMark.length_le
    show source.withoutMark.length + 1 < source.length + 2
    omega
  have hdrain :=
    Scanner.cursor_drain (fun _ => @Scanner.placed_scanner config origin _ hbytes) hfuel
  show (drain (source.length + 2) (Listing.scanner config origin source).cursor >>= _) = _
  rw [hdrain, Listing.ofText]
  cases (Listing.scanner config origin source).drain <;> rfl

/-- **Only an indentation that is too wide aborts a scan.**  Take a text whose bytes can be
counted.  The scan by offsets gives what the scanner gives: no slice reaches out of the text or
cuts a character, no other sum or difference overflows, and every loop ends.  It is aborted if
and only if blocks are tracked and the white space before a significant line is wider than a
number of sixty-four bits can say; otherwise it comes to the end of the text.  It is never
aborted where a tab stop for each character of the text still fits. -/
theorem listing_aborts_iff_unmeasurable (config : Config) (origin : Option Text) (source : Text)
    (hshort : source.byteLength < 2 ^ 63) :
    listing config origin source = checked (Listing.ofText config origin source) ∧
      ((∃ a, listing config origin source = .error a) ↔
        config.trackIndentation = true ∧ ∃ line, LineStart source line ∧ Significant line ∧
          2 ^ 64 ≤ Width.exact config.tabWidth (line.takeWhile isHorizontalSpace)) ∧
      (¬ Unmeasurable config source →
        ∃ l, listing config origin source = .ok l ∧ EndsOnce l.tokens) ∧
      (source.length * max config.tabWidth 1 < 2 ^ 64 →
        ∃ l, listing config origin source = .ok l ∧ EndsOnce l.tokens) := by
  have heq := @listing_eq config origin source hshort
  have hok : ¬ Unmeasurable config source →
      ∃ l, listing config origin source = .ok l ∧ EndsOnce l.tokens := by
    rw [← @Listing.ofText_eq_error_iff config origin, heq]
    intro hnone
    cases hl : Listing.ofText config origin source with
    | error o => exact absurd ⟨o, hl⟩ hnone
    | ok l => exact ⟨l, rfl, Scanner.endsOnce_of_listing hl⟩
  refine ⟨heq, ?_, hok, fun hnarrow => hok (not_unmeasurable hnarrow)⟩
  refine Iff.trans ?_ (@Listing.ofText_eq_error_iff config origin source)
  rw [heq]
  cases Listing.ofText config origin source with
  | error o => exact ⟨fun _ => ⟨o, rfl⟩, fun _ => ⟨_, rfl⟩⟩
  | ok l => simp [checked]

/-- Two tabs of the greatest width abort a scan, unless blocks are not tracked or the tabs are
narrower. -/
theorem listing_aborts_two_widest_tabs :
    let text : Text := ['\t', '\t', 'x']
    text.byteLength < 2 ^ 63 ∧
      (∃ a, listing { tabWidth := 2 ^ 64 - 1 } none text = .error a) ∧
      (∃ l, listing { tabWidth := 2 ^ 64 - 1, trackIndentation := false } none text = .ok l) ∧
      ∃ l, listing { tabWidth := 2 ^ 62 } none text = .ok l := by
  intro text
  have hshort : text.byteLength < 2 ^ 63 := by decide
  refine ⟨hshort, ?_, ?_, ?_⟩
  · have hwide : 2 ^ 64 ≤ Width.exact (2 ^ 64 - 1) ['\t', '\t'] := by decide
    have hsignificant : Significant text := ⟨'x', [], rfl, by decide⟩
    exact (listing_aborts_iff_unmeasurable { tabWidth := 2 ^ 64 - 1 } none text hshort).2.1.2
      ⟨rfl, text, .inl rfl, hsignificant, hwide⟩
  · obtain ⟨_, _, hok, _⟩ := listing_aborts_iff_unmeasurable
      { tabWidth := 2 ^ 64 - 1, trackIndentation := false } none text hshort
    obtain ⟨l, hl, _⟩ := hok fun h => Bool.false_ne_true h.1
    exact ⟨l, hl⟩
  · obtain ⟨_, _, _, hnarrow⟩ := listing_aborts_iff_unmeasurable
      { tabWidth := 2 ^ 62 } none text hshort
    obtain ⟨l, hl, _⟩ := hnarrow (by decide)
    exact ⟨l, hl⟩

end Cursor
end LayoutLexer

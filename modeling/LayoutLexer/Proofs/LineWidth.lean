import LayoutLexer.Proofs.Lossless
import Mathlib.Algebra.Group.Nat.Defs

/-! # Where a scan overflows

The only arithmetic of a scan that can fail is the width of an indentation, and it fails just
where the exact width does not fit: widths only grow along a run, so an intermediate result that
does not fit is never followed by a width that does (`Width.checked_eq_ok_iff`).  A scan that
tracks blocks measures every significant line, and so it fails if and only if one of them is too
wide (`Scanner.drain_eq_error_iff`).  Where the lines begin depends on the text alone, since
neither layout nor the configuration changes a lexeme (`lineStart_iff`).
-/
namespace LayoutLexer

open CharClass

namespace Width

variable {tabWidth width n : Nat} {c : Char} {run : Text}

/-! ## Exact and checked widths -/

theorem exactStep_le : exactStep tabWidth width c ≤ width + tabStop tabWidth := by
  have hpos := tabStop_pos tabWidth
  unfold exactStep
  split
  · rw [Nat.add_mul, Nat.one_mul]
    have := Nat.div_mul_le_self width (tabStop tabWidth)
    omega
  · omega

theorem le_exactStep : width ≤ exactStep tabWidth width c := by
  have hpos := tabStop_pos tabWidth
  unfold exactStep
  split
  · rw [Nat.add_mul, Nat.one_mul]
    have hmod := Nat.mod_lt width hpos
    have hdiv := Nat.div_add_mod width (tabStop tabWidth)
    rw [Nat.mul_comm] at hdiv
    omega
  · omega

/-- A step fails just where its exact result does not fit: the number of the next tab stop is
never greater than its column. -/
theorem checkedStep_eq_ok_iff :
    checkedStep tabWidth width c = .ok n ↔
      exactStep tabWidth width c < Checked.limit ∧ n = exactStep tabWidth width c := by
  have hpos := tabStop_pos tabWidth
  unfold checkedStep exactStep
  split
  · cases hadd : Checked.add (width / tabStop tabWidth) 1 with
    | ok stop =>
      obtain ⟨_, rfl⟩ := Checked.add_eq_ok_iff.1 hadd
      exact Checked.mul_eq_ok_iff
    | error e =>
      have hlarge : ¬ width / tabStop tabWidth + 1 < Checked.limit := by
        intro hlt
        rw [Checked.add, if_pos hlt] at hadd
        cases hadd
      -- the stop itself does not fit, and its column is no smaller
      have := Nat.le_mul_of_pos_right (width / tabStop tabWidth + 1) hpos
      simp only [reduceCtorEq, false_iff]
      omega
  · exact Checked.add_eq_ok_iff

theorem le_foldl_exactStep : width ≤ run.foldl (exactStep tabWidth) width := by
  induction run generalizing width with
  | nil => exact Nat.le_refl _
  | cons c run ih => exact Nat.le_trans le_exactStep ih

theorem checkedFrom_eq_ok_iff (hwidth : width < Checked.limit) :
    checkedFrom tabWidth width run = .ok n ↔
      run.foldl (exactStep tabWidth) width < Checked.limit ∧
        n = run.foldl (exactStep tabWidth) width := by
  induction run generalizing width with
  | nil =>
    rw [checkedFrom_nil, List.foldl_nil]
    constructor
    · intro h
      cases h
      exact ⟨hwidth, rfl⟩
    · rintro ⟨_, rfl⟩
      rfl
  | cons c run ih =>
    rw [checkedFrom, List.foldl_cons]
    cases hstep : checkedStep tabWidth width c with
    | ok next =>
      obtain ⟨hlt, rfl⟩ := checkedStep_eq_ok_iff.1 hstep
      exact ih hlt
    | error e =>
      have hlarge : ¬ exactStep tabWidth width c < Checked.limit := by
        intro hlt
        rw [checkedStep_eq_ok_iff.2 ⟨hlt, rfl⟩] at hstep
        cases hstep
      -- what follows does not make the width smaller again
      have := @le_foldl_exactStep tabWidth (exactStep tabWidth width c) run
      simp only [reduceCtorEq, false_iff]
      omega

/-- The width of a run can be computed just if the exact width fits, and it is the exact one. -/
theorem checked_eq_ok_iff :
    checked tabWidth run = .ok n ↔ exact tabWidth run < Checked.limit ∧ n = exact tabWidth run :=
  checkedFrom_eq_ok_iff (by decide)

/-- A character is at most one tab stop wide. -/
theorem exact_le : exact tabWidth run ≤ run.length * tabStop tabWidth := by
  have hfrom (width : Nat) :
      run.foldl (exactStep tabWidth) width ≤ width + run.length * tabStop tabWidth := by
    induction run generalizing width with
    | nil => exact Nat.le_add_right _ _
    | cons c run ih =>
      have hstep := @exactStep_le tabWidth width c
      have htail := ih (exactStep tabWidth width c)
      rw [List.foldl_cons, List.length_cons, Nat.add_mul, Nat.one_mul]
      omega
  have := hfrom 0
  rwa [Nat.zero_add] at this

end Width

/-! ## Lines -/

/-- The line at the front of a text has something to indent: after its white space comes a
character that neither ends it nor begins a comment. -/
def Significant (line : Text) : Prop :=
  ∃ c rest, line.dropWhile isHorizontalSpace = c :: rest ∧ c ≠ '\r' ∧ c ≠ '\n' ∧ c ≠ '#'

/-- The line at the front of a text is significant, and the width of its white space is no number
of sixty-four bits. -/
def TooWide (tabWidth : Nat) (line : Text) : Prop :=
  Significant line ∧ 2 ^ 64 ≤ Width.exact tabWidth (line.takeWhile isHorizontalSpace)

theorem significant_iff {line : Text} :
    Significant line ↔
      Scanner.isInsignificant (line.dropWhile isHorizontalSpace) = false := by
  unfold Significant
  cases line.dropWhile isHorizontalSpace with
  | nil => simp [Scanner.isInsignificant]
  | cons c rest => simp [Scanner.isInsignificant, isLineBreak, and_assoc]

/-- What follows each line break that is a lexeme of the text. -/
def Text.afterBreaks : Text → List Text
  | [] => []
  | c :: rest =>
    if (Lexeme.read c rest).endsLine then
      (Lexeme.read c rest).rest :: afterBreaks (Lexeme.read c rest).rest
    else afterBreaks (Lexeme.read c rest).rest
termination_by t => t.length
decreasing_by all_goals exact Lexeme.rest_length_lt c rest

/-- A line follows one of the line breaks among some tokens of a text. -/
def FollowsBreak (source : Text) (tokens : List Token) (line : Text) : Prop :=
  ∃ t ∈ tokens, t.kind = .lexical (.rule .lineFeed) ∧
    source.slice? t.span.endOffset source.byteLength = some line

theorem Text.isSuffix_of_mem_afterBreaks {t line : Text} (h : line ∈ t.afterBreaks) :
    line <:+ t := by
  fun_induction Text.afterBreaks t with
  | case1 => cases h
  | case2 c rest _ ih =>
    obtain ⟨happ, _⟩ := Lexeme.fronts_read c rest
    rcases List.mem_cons.1 h with rfl | h
    · exact ⟨_, happ⟩
    · exact (ih h).trans ⟨_, happ⟩
  | case3 c rest _ ih => exact (ih h).trans ⟨_, (Lexeme.fronts_read c rest).1⟩

/-- A text without its mark ends the text. -/
theorem Text.isSuffix_withoutMark (t : Text) : t.withoutMark <:+ t := by
  unfold withoutMark
  split
  · exact List.suffix_cons _ _
  · exact List.suffix_rfl

namespace Scanner

variable {s : Scanner}

/-! ## When draining fails -/

/-- A line that is still to be measured is too wide. -/
def Overflows (s : Scanner) : Prop :=
  s.config.trackIndentation = true ∧
    (s.atLineStart = true ∧ TooWide s.config.tabWidth s.rest ∨
      ∃ line ∈ s.rest.afterBreaks, TooWide s.config.tabWidth line)

/-- Looking at an indentation fails just where the line is too wide. -/
theorem measureLine_eq_error_iff :
    (∃ e, s.measureLine = .error e) ↔ TooWide s.config.tabWidth s.rest := by
  unfold measureLine TooWide
  rw [significant_iff]
  cases hsig : isInsignificant (s.rest.dropWhile isHorizontalSpace) with
  | true => simp
  | false =>
    rw [if_neg Bool.false_ne_true]
    have hlimit : Checked.limit = 2 ^ 64 := rfl
    cases hwidth : Width.checked s.config.tabWidth (s.rest.takeWhile isHorizontalSpace) with
    | ok width =>
      obtain ⟨hlt, _⟩ := Width.checked_eq_ok_iff.1 hwidth
      simp only [reduceCtorEq, exists_false, false_iff]
      omega
    | error e =>
      refine ⟨fun _ => ⟨rfl, Nat.not_lt.1 fun hlt => ?_⟩, fun _ => ⟨e, rfl⟩⟩
      rw [Width.checked_eq_ok_iff.2 ⟨hlt, rfl⟩] at hwidth
      cases hwidth

theorem beginLine_eq_error_iff :
    (∃ e, s.beginLine = .error e) ↔
      s.atLineStart = true ∧ s.config.trackIndentation = true ∧
        TooWide s.config.tabWidth s.rest := by
  unfold beginLine
  cases hstart : s.atLineStart with
  | false => simp
  | true =>
    rw [if_pos rfl]
    dsimp only
    cases htrack : s.config.trackIndentation with
    | false => simp
    | true =>
      rw [if_pos rfl, measureLine_eq_error_iff]
      simp

/-- A step fails where the beginning of a line does. -/
theorem step_eq_error_iff {e : Overflow} : s.step = .error e ↔ s.beginLine = .error e := by
  unfold step
  cases s.beginLine with
  | error e' => rfl
  | ok t =>
    dsimp only
    split <;> simp

/-- A step over a lexeme leaves the lines after it to be measured. -/
theorem overflows_accept_iff {t : Scanner} {c : Char} {rest : Text} (hrest : t.rest = c :: rest)
    (hstart : t.atLineStart = false) :
    (t.accept (Lexeme.read c rest)).Overflows ↔
      t.config.trackIndentation = true ∧
        ∃ line ∈ t.rest.afterBreaks, TooWide t.config.tabWidth line := by
  rw [accept_eq, hrest, Text.afterBreaks]
  unfold Overflows
  dsimp only
  rw [hstart, Bool.false_or]
  by_cases hends : (Lexeme.read c rest).endsLine = true
  · rw [if_pos hends, hends]
    simp
  · rw [if_neg hends]
    simp [hends]

/-- Where a step does not fail, the line that begins at its place, if one does, is not too
wide. -/
theorem overflows_iff_of_step {s' : Scanner} (hs : s.step = .ok s') :
    s.Overflows ↔ s.config.trackIndentation = true ∧
      ∃ line ∈ s.rest.afterBreaks, TooWide s.config.tabWidth line := by
  have hhere : ¬ (s.atLineStart = true ∧ s.config.trackIndentation = true ∧
      TooWide s.config.tabWidth s.rest) := by
    intro hwide
    obtain ⟨e, he⟩ := beginLine_eq_error_iff.2 hwide
    rw [step_eq_error_iff.2 he] at hs
    cases hs
  constructor
  · rintro ⟨htrack, ⟨hstart, hwide⟩ | hlines⟩
    · exact absurd ⟨hstart, htrack, hwide⟩ hhere
    · exact ⟨htrack, hlines⟩
  · rintro ⟨htrack, hlines⟩
    exact ⟨htrack, .inr hlines⟩

/-- Whether draining fails is decided by the lines that are still to be measured. -/
theorem drain_eq_error_iff (s : Scanner) (hf : s.finished = false) :
    (∃ e, s.drain = .error e) ↔ s.Overflows := by
  induction s using drain_induction with
  | h s ih =>
    rw [drain_of_unfinished hf]
    cases hs : { s with pending := [] : Scanner }.step with
    | error e =>
      obtain ⟨hstart, htrack, hwide⟩ := beginLine_eq_error_iff.1 ⟨e, step_eq_error_iff.1 hs⟩
      exact ⟨fun _ => ⟨htrack, .inl ⟨hstart, hwide⟩⟩, fun _ => ⟨e, rfl⟩⟩
    | ok s' =>
      have hlater : s.Overflows ↔ _ := @overflows_iff_of_step { s with pending := [] } s' hs
      obtain ⟨t, ht, hend⟩ := step_cases hs
      obtain ⟨_, hconfig, _, hrest, _, hstart, hfin⟩ := beginLine_frame ht
      dsimp only at hlater hconfig hrest hfin
      have hdrain : (∃ e, s'.drain = .error e) ↔ s.Overflows := by
        rw [hlater, ← hconfig, ← hrest]
        rcases hend with ⟨hnil, rfl⟩ | ⟨c, rest, hcons, rfl⟩
        · -- at the end of the text no line is left, and draining hands out the queue
          rw [drain_of_finished (by rw [finish_eq]), hnil, Text.afterBreaks]
          simp
        · have hunfinished : (t.accept (Lexeme.read c rest)).finished = false := by
            rw [accept_eq]
            exact hfin.trans hf
          rw [ih hf _ hs hunfinished, overflows_accept_iff hcons hstart]
      rw [← hdrain]
      dsimp only
      cases s'.drain <;> simp [Except.map]

/-! ## Lines and tokens -/

/-- Where blocks are not tracked, nothing comes of the beginning of a line. -/
theorem beginLine_untracked (htrack : s.config.trackIndentation = false) :
    s.beginLine = .ok { s with atLineStart := false } := by
  unfold beginLine
  by_cases hstart : s.atLineStart = true
  · rw [if_pos hstart]
    dsimp only
    rw [if_neg (by simp [htrack])]
  · rw [if_neg hstart, Bool.eq_false_iff.2 hstart |>.symm]

theorem step_untracked_nil (htrack : s.config.trackIndentation = false) (hrest : s.rest = []) :
    s.step = .ok { s with atLineStart := false : Scanner }.finish := by
  rw [step, beginLine_untracked htrack]
  dsimp only
  rw [hrest]

theorem step_untracked_cons (htrack : s.config.trackIndentation = false) {c : Char} {rest : Text}
    (hrest : s.rest = c :: rest) :
    s.step = .ok ({ s with atLineStart := false : Scanner }.accept (Lexeme.read c rest)) := by
  rw [step, beginLine_untracked htrack]
  dsimp only
  rw [hrest]

theorem filter_handsOut_of_shows (hshow : s.config.skipTrivia = false) :
    s.pending.filter s.handsOut = s.pending := by
  rw [List.filter_eq_self]
  intro t _
  rw [handsOut, hshow]
  rfl

/-- After the end of the text what it queued is handed out. -/
theorem drain_finish_of_shows (hshow : s.config.skipTrivia = false) :
    s.finish.drain =
      .ok (s.pending ++ s.closingKinds.map s.layoutToken, { s.finish with pending := [] }) := by
  rw [drain_of_finished (by rw [finish_eq]),
    filter_handsOut_of_shows (by rw [finish_eq]; exact hshow), finish_eq]

/-- After the token of a lexeme comes the rest of the text, which is a line if the lexeme is a
line break. -/
theorem followsBreak_cons_iff {before after line : Text} {l : Lexeme} {p : Position}
    {tokens : List Token} (hplace : before.byteLength = p.offset) :
    FollowsBreak (before ++ (l.text ++ after)) (.ofLexeme l.kind p l.text :: tokens) line ↔
      l.endsLine = true ∧ line = after ∨
        FollowsBreak (before ++ (l.text ++ after)) tokens line := by
  have hslice : (before ++ (l.text ++ after)).slice? (p.offset + l.text.byteLength)
      (before ++ (l.text ++ after)).byteLength = some after := by
    have := Text.slice?_append_left (before ++ l.text) after
    rwa [List.append_assoc, Text.byteLength_append before, hplace] at this
  unfold FollowsBreak
  simp only [List.mem_cons, or_and_right, exists_or, exists_eq_left]
  dsimp only [Token.ofLexeme, Span.ofText]
  rw [hslice, Option.some.injEq, Lexeme.endsLine, beq_iff_eq, @eq_comm _ after line]

/-- The line breaks among the tokens of a scan without blocks are those among the lexemes. -/
theorem drain_untracked (s : Scanner) (hf : s.finished = false)
    (htrack : s.config.trackIndentation = false) (hshow : s.config.skipTrivia = false)
    (before : Text) (hsource : s.source = before ++ s.rest)
    (hplace : before.byteLength = s.position.offset) :
    ∃ tokens last, s.drain = .ok (s.pending ++ tokens, last) ∧
      ∀ line, FollowsBreak s.source tokens line ↔ line ∈ s.rest.afterBreaks := by
  induction s using drain_induction generalizing before with
  | h s ih =>
    rw [drain_of_unfinished hf, filter_handsOut_of_shows hshow]
    obtain hrest | ⟨c, rest, hrest⟩ : s.rest = [] ∨ ∃ c rest, s.rest = c :: rest := by
      cases s.rest <;> simp
    · rw [@step_untracked_nil { s with pending := [] } htrack hrest]
      dsimp only
      rw [drain_finish_of_shows (by exact hshow), finish_eq, hrest]
      refine ⟨_, _, rfl, fun line => ?_⟩
      simp [FollowsBreak, closingKinds, closingBlocks, htrack, layoutToken, Token.synthetic,
        Token.ofLexeme, Text.afterBreaks]
    · have hs := @step_untracked_cons { s with pending := [] } htrack c rest hrest
      have happ := (Lexeme.fronts_read c rest).1
      -- the scan goes on after the lexeme, and so does what comes before its place
      have hlength : (before ++ (Lexeme.read c rest).text).byteLength =
          (s.position.advance (Lexeme.read c rest).text).offset := by
        rw [Position.advance_offset, Text.byteLength_append, hplace]
      have htail := ih hf _ hs
      rw [accept_eq] at htail hs
      obtain ⟨tokens, last, hdrain, hlines⟩ :=
        htail hf htrack hshow (before ++ (Lexeme.read c rest).text)
          (by rw [List.append_assoc, happ, ← hrest]; exact hsource) hlength
      rw [hs]
      dsimp only at hdrain hlines ⊢
      rw [hdrain, hrest]
      refine ⟨.ofLexeme (Lexeme.read c rest).kind s.position (Lexeme.read c rest).text :: tokens,
        last, rfl, fun line => ?_⟩
      rw [hrest, ← happ] at hsource
      rw [hsource] at hlines ⊢
      rw [followsBreak_cons_iff hplace, hlines, Text.afterBreaks]
      by_cases hends : (Lexeme.read c rest).endsLine = true
      · rw [if_pos hends, and_iff_right hends, List.mem_cons]
      · rw [if_neg hends, or_iff_right fun h => hends h.1]

end Scanner

/-- A line begins at the start of the text and after each line break among its tokens, as a scan
that tracks no blocks lists them. -/
def LineStart (source line : Text) : Prop :=
  line = source.withoutMark ∨
    ∃ l, Listing.ofText { trackIndentation := false } none source = .ok l ∧
      FollowsBreak source.withoutMark l.tokens line

theorem lineStart_iff {source line : Text} :
    LineStart source line ↔
      line = source.withoutMark ∨ line ∈ source.withoutMark.afterBreaks := by
  obtain ⟨tokens, last, hdrain, hlines⟩ := Scanner.drain_untracked
    (Listing.scanner { trackIndentation := false } none source) rfl rfl rfl [] rfl rfl
  have hlisting : Listing.ofText { trackIndentation := false } none source =
      .ok ⟨none, tokens, last.diagnostics⟩ := by
    rw [Listing.ofText, hdrain]
    rfl
  have hline : FollowsBreak source.withoutMark tokens line ↔
      line ∈ source.withoutMark.afterBreaks := hlines line
  unfold LineStart
  rw [hlisting, ← hline]
  constructor
  · rintro (h | ⟨l, hl, h⟩)
    · exact .inl h
    · cases hl
      exact .inr h
  · rintro (h | h)
    · exact .inl h
    · exact .inr ⟨_, rfl, h⟩

/-! ## Texts that cannot be measured -/

/-- Blocks are tracked, and a line of the text is too wide. -/
def Unmeasurable (config : Config) (source : Text) : Prop :=
  config.trackIndentation = true ∧ ∃ line, LineStart source line ∧ TooWide config.tabWidth line

variable {config : Config} {origin : Option Text} {source : Text}

theorem overflows_scanner_iff :
    (Listing.scanner config origin source).Overflows ↔ Unmeasurable config source := by
  unfold Scanner.Overflows Unmeasurable
  refine and_congr_right fun _ => ?_
  constructor
  · rintro (⟨_, hwide⟩ | ⟨line, hline, hwide⟩)
    · exact ⟨_, lineStart_iff.2 (.inl rfl), hwide⟩
    · exact ⟨line, lineStart_iff.2 (.inr hline), hwide⟩
  · rintro ⟨line, hline, hwide⟩
    rcases lineStart_iff.1 hline with rfl | hline
    · exact .inl ⟨rfl, hwide⟩
    · exact .inr ⟨line, hline, hwide⟩

/-- A text has no listing just if one of its lines cannot be measured. -/
theorem Listing.ofText_eq_error_iff :
    (∃ o, Listing.ofText config origin source = .error o) ↔ Unmeasurable config source := by
  rw [← @overflows_scanner_iff config origin, ← Scanner.drain_eq_error_iff _ rfl, Listing.ofText]
  cases (Listing.scanner config origin source).drain <;> simp

/-- A text of which every line can be measured has a listing. -/
theorem Listing.exists_ofText (origin : Option Text) (h : ¬ Unmeasurable config source) :
    ∃ l, Listing.ofText config origin source = .ok l := by
  cases hl : Listing.ofText config origin source with
  | error o => exact absurd (ofText_eq_error_iff.1 ⟨o, hl⟩) h
  | ok l => exact ⟨l, rfl⟩

/-- Where the tab stops of all characters of the text fit, every line can be measured. -/
theorem not_unmeasurable (h : source.length * Width.tabStop config.tabWidth < 2 ^ 64) :
    ¬ Unmeasurable config source := by
  rintro ⟨_, line, hline, _, hwide⟩
  have hmark := source.isSuffix_withoutMark.length_le
  have hlength : line.length ≤ source.withoutMark.length := by
    rcases lineStart_iff.1 hline with rfl | hline
    · exact Nat.le_refl _
    · exact (Text.isSuffix_of_mem_afterBreaks hline).length_le
  have hrun := (List.takeWhile_prefix (l := line) isHorizontalSpace).length_le
  have hexact := @Width.exact_le config.tabWidth (line.takeWhile isHorizontalSpace)
  have hmul : (line.takeWhile isHorizontalSpace).length * Width.tabStop config.tabWidth ≤
      source.length * Width.tabStop config.tabWidth :=
    Nat.mul_le_mul_right _ (by omega)
  omega

end LayoutLexer

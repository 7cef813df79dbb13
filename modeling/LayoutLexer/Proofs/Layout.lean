import LayoutLexer.Proofs.Layout.Line

/-! # Layout by logical lines

Layout can be told from the finished tokens of a scan without blocks.  Cut them into logical
lines after each line break; a line that has something besides trivia and the end of the text
moves the stack to the width of the white space it begins with, and the layout tokens of that
transition come before its first token; the blocks that are open at the end of the text are
closed directly before it (`Listing.layOut`).

The scanner does this the other way round: it looks at the characters ahead of it before there
are any tokens of the line.  A scan with blocks hands out the lines that are still to be scanned
with their layout, whichever of them it is in (`Scanner.drain_coming`); a move of the scanner
takes from what is to come and adds it to the queue.  So the listing with blocks is the one
without them laid out (`Listing.layout_refines`).  A line break within a verbatim string is no
line break of either.
-/
namespace LayoutLexer

open CharClass

/-! ## Layout from finished tokens -/

/-- What a line does to the open blocks. -/
structure Turn where
  line : List Token
  /-- The width of the indentation of the line. -/
  width : Nat
  transition : Transition
  /-- The stack after the line. -/
  stack : IndentStack

/-- A significant line moves the stack to its width, and any other line leaves it alone. -/
def IndentStack.turn (stack : IndentStack) (tabWidth : Nat) (line : List Token) : Turn :=
  let width := Width.exact tabWidth (indentation line)
  let (transition, stack) :=
    if isSignificant line then stack.transition width else (.same, stack)
  ⟨line, width, transition, stack⟩

@[simp] theorem IndentStack.turn_line (stack : IndentStack) (tabWidth : Nat) (line : List Token) :
    (stack.turn tabWidth line).line = line := rfl

theorem IndentStack.turn_of_significant {stack : IndentStack} {tabWidth : Nat} {line : List Token}
    (h : isSignificant line = true) :
    stack.turn tabWidth line =
      ⟨line, Width.exact tabWidth (indentation line),
        (stack.transition (Width.exact tabWidth (indentation line))).1,
        (stack.transition (Width.exact tabWidth (indentation line))).2⟩ := by
  rw [turn, if_pos h]

theorem IndentStack.turn_of_not_significant {stack : IndentStack} {tabWidth : Nat}
    {line : List Token} (h : isSignificant line = false) :
    stack.turn tabWidth line =
      ⟨line, Width.exact tabWidth (indentation line), .same, stack⟩ := by
  rw [turn, if_neg (by rw [h]; exact Bool.false_ne_true)]

/-- The lines in turn, from a stack on. -/
def turns (tabWidth : Nat) : IndentStack → List (List Token) → List Turn
  | _, [] => []
  | stack, line :: lines =>
    stack.turn tabWidth line :: turns tabWidth (stack.turn tabWidth line).stack lines

/-- A token, and before the end of the text the ends of the blocks of the stack. -/
def IndentStack.closing (stack : IndentStack) (t : Token) : List Token :=
  if t.kind = .endOfFile then
    List.replicate stack.close.1 (.synthetic .dedent t.span.start) ++ [t]
  else [t]

namespace Turn

/-- The layout tokens of the transition, at the place where the line begins. -/
def opening (turn : Turn) : List Token :=
  turn.line.head?.toList.flatMap fun first =>
    turn.transition.kinds.map fun kind => .synthetic kind first.span.start

/-- The line with its layout. -/
def tokens (turn : Turn) : List Token :=
  turn.opening ++ turn.line.flatMap turn.stack.closing

/-- What is reported of the indentation of the line. -/
def reports (origin : Option Text) (turn : Turn) : List Diagnostic :=
  turn.line.head?.toList.flatMap fun first =>
    (turn.transition.faults turn.width).map fun fault =>
      ⟨origin, fault, .ofText first.span.start []⟩

end Turn

/-- Whether the diagnostic begins within a token of the line. -/
def Diagnostic.beginsOn (d : Diagnostic) (line : List Token) : Bool :=
  line.any fun t => decide (t.span.start.offset ≤ d.span.start.offset) &&
    decide (d.span.start.offset < t.span.endOffset)

/-- Whether the fault is that of a line, not of a lexeme. -/
def Fault.isIndentation : Fault → Bool
  | .inconsistentIndentation _ _ => true
  | _ => false

/-- The listing with layout: each line has its layout tokens before it, and what is reported of
its indentation comes before what is reported of its tokens. -/
def Listing.layOut (tabWidth : Nat) (l : Listing) : Listing where
  origin := l.origin
  tokens := (turns tabWidth .base (logicalLines l.tokens)).flatMap Turn.tokens
  diagnostics := (turns tabWidth .base (logicalLines l.tokens)).flatMap fun turn =>
    turn.reports l.origin ++ l.diagnostics.filter fun d => d.beginsOn turn.line

/-! ## Lines that are still to be handed out -/

section Lines

variable (tabWidth : Nat) (origin : Option Text)

/-- The tokens of lines with their layout, from a stack on. -/
def lineTokens (stack : IndentStack) (lines : List (List Reading)) : List Token :=
  (turns tabWidth stack (lines.map (List.map Reading.token))).flatMap Turn.tokens

/-- What is reported of lines and their indentation, from a stack on. -/
def lineReports : IndentStack → List (List Reading) → List Diagnostic
  | _, [] => []
  | stack, line :: lines =>
    (stack.turn tabWidth (line.map Reading.token)).reports origin ++
      (line.flatMap Reading.reports ++
        lineReports (stack.turn tabWidth (line.map Reading.token)).stack lines)

/-- The tokens of lines of which the first one has been looked at. -/
def restTokens (stack : IndentStack) : List (List Reading) → List Token
  | [] => []
  | line :: lines =>
    line.flatMap (fun r => stack.closing r.token) ++ lineTokens tabWidth stack lines

/-- What is reported of lines of which the first one has been looked at. -/
def restReports (stack : IndentStack) : List (List Reading) → List Diagnostic
  | [] => []
  | line :: lines => line.flatMap Reading.reports ++ lineReports tabWidth origin stack lines

variable {tabWidth origin} {stack : IndentStack} {p : Position} {c : Char} {rest : Text}

theorem lineTokens_cons (line : List Reading) (lines : List (List Reading)) :
    lineTokens tabWidth stack (line :: lines) =
      (stack.turn tabWidth (line.map Reading.token)).opening ++
        restTokens tabWidth (stack.turn tabWidth (line.map Reading.token)).stack
          (line :: lines) := by
  have hline (turn : Turn) (h : turn.line = line.map Reading.token) :
      turn.tokens = turn.opening ++ line.flatMap fun r => turn.stack.closing r.token := by
    rw [Turn.tokens, h, List.flatMap_map]
  rw [lineTokens, List.map_cons, turns, List.flatMap_cons, hline _ rfl, List.append_assoc]
  rfl

theorem closing_reading (stack : IndentStack) (p : Position) (c : Char) (rest : Text) :
    stack.closing ((Lexeme.read c rest).reading origin p).token =
      [.ofLexeme (Lexeme.read c rest).kind p (Lexeme.read c rest).text] := by
  refine if_neg fun hend => ?_
  have hsynthetic := Lexeme.isSynthetic_kind_read c rest
  rw [show (Lexeme.read c rest).kind = .endOfFile from hend] at hsynthetic
  cases hsynthetic

/-- After a line break the next line is to be looked at. -/
theorem restTokens_readingLines :
    restTokens tabWidth stack (Text.readingLines origin p (c :: rest)) =
      .ofLexeme (Lexeme.read c rest).kind p (Lexeme.read c rest).text ::
        (if (Lexeme.read c rest).endsLine then lineTokens tabWidth stack
          else restTokens tabWidth stack)
          ((Lexeme.read c rest).rest.readingLines origin
            (p.advance (Lexeme.read c rest).text)) := by
  by_cases hends : (Lexeme.read c rest).endsLine = true
  · rw [readingLines_of_endsLine hends, if_pos hends, restTokens, List.flatMap_singleton,
      closing_reading]
    rfl
  · obtain ⟨first, others, hrest⟩ := readingLines_ne_nil origin
      (p.advance (Lexeme.read c rest).text) (Lexeme.read c rest).rest
    rw [readingLines_of_not_endsLine (Bool.eq_false_iff.2 hends) hrest, if_neg hends, hrest,
      restTokens, restTokens, List.flatMap_cons, closing_reading]
    rfl

theorem restReports_readingLines :
    restReports tabWidth origin stack (Text.readingLines origin p (c :: rest)) =
      ((Lexeme.read c rest).reading origin p).reports ++
        (if (Lexeme.read c rest).endsLine then lineReports tabWidth origin stack
          else restReports tabWidth origin stack)
          ((Lexeme.read c rest).rest.readingLines origin
            (p.advance (Lexeme.read c rest).text)) := by
  by_cases hends : (Lexeme.read c rest).endsLine = true
  · rw [readingLines_of_endsLine hends, if_pos hends, restReports, List.flatMap_singleton]
  · obtain ⟨first, others, hrest⟩ := readingLines_ne_nil origin
      (p.advance (Lexeme.read c rest).text) (Lexeme.read c rest).rest
    rw [readingLines_of_not_endsLine (Bool.eq_false_iff.2 hends) hrest, if_neg hends, hrest,
      restReports, restReports, List.flatMap_cons, List.append_assoc]

end Lines

/-! ## A scan with blocks -/

namespace Scanner

variable {s t last : Scanner} {tokens : List Token}

/-- The lines that are still to be scanned. -/
def readingLines (s : Scanner) : List (List Reading) := s.rest.readingLines s.origin s.position

/-- The tokens that are still to come. -/
def comingTokens (s : Scanner) : List Token :=
  (if s.atLineStart then lineTokens s.config.tabWidth s.indents
    else restTokens s.config.tabWidth s.indents) s.readingLines

/-- What is still to be reported. -/
def comingReports (s : Scanner) : List Diagnostic :=
  (if s.atLineStart then lineReports s.config.tabWidth s.origin s.indents
    else restReports s.config.tabWidth s.origin s.indents) s.readingLines

/-- Looking at the indentation of a line queues and reports what comes first of it. -/
theorem beginLine_coming (htrack : s.config.trackIndentation = true)
    (ht : s.beginLine = .ok t) :
    t.pending ++ t.comingTokens = s.pending ++ s.comingTokens ∧
      t.diagnostics ++ t.comingReports = s.diagnostics ++ s.comingReports := by
  unfold beginLine at ht
  by_cases hstart : s.atLineStart = true
  · obtain ⟨first, others, hlines⟩ := readingLines_ne_nil s.origin s.position s.rest
    obtain ⟨hindentation, hsignificant⟩ := turn_of_readings hlines
    obtain ⟨u, hu, hposition⟩ := Option.map_eq_some_iff.1 (start_of_readingLines hlines)
    -- the turn of the first line, as its tokens tell it
    have hturn (transition : Transition) (width : Nat) (stack : IndentStack)
        (h : s.indents.turn s.config.tabWidth (first.map Reading.token) =
          ⟨first.map Reading.token, width, transition, stack⟩) :
        s.comingTokens = transition.kinds.map s.layoutToken ++
            restTokens s.config.tabWidth stack s.readingLines ∧
          s.comingReports = (transition.faults width).map (fun fault =>
              ⟨s.origin, fault, .ofText s.position []⟩) ++
            restReports s.config.tabWidth s.origin stack s.readingLines := by
      rw [comingTokens, comingReports, if_pos hstart, if_pos hstart, readingLines, hlines,
        lineTokens_cons, lineReports, h, Turn.opening, Turn.reports, hu, ← hposition]
      simp [layoutToken, ← hposition, restReports]
    rw [if_pos hstart] at ht
    dsimp only at ht
    rw [if_pos htrack] at ht
    unfold measureLine at ht
    dsimp only at ht
    by_cases hsig : isInsignificant (s.rest.dropWhile isHorizontalSpace) = true
    · rw [if_pos hsig] at ht
      cases ht
      rw [hsig] at hsignificant
      obtain ⟨htokens, hreports⟩ := hturn _ _ _ (IndentStack.turn_of_not_significant hsignificant)
      rw [htokens, hreports]
      exact ⟨rfl, rfl⟩
    · rw [if_neg hsig] at ht
      rw [Bool.eq_false_iff.2 hsig] at hsignificant
      cases hwidth : Width.checked s.config.tabWidth (s.rest.takeWhile isHorizontalSpace) with
      | error e => rw [hwidth] at ht; cases ht
      | ok width =>
        rw [hwidth] at ht
        cases ht
        obtain ⟨_, rfl⟩ := Width.checked_eq_ok_iff.1 hwidth
        obtain ⟨htokens, hreports⟩ := hturn _ _ _ (IndentStack.turn_of_significant hsignificant)
        rw [hindentation] at htokens hreports
        rw [htokens, hreports, indentTo_eq, ← List.append_assoc, ← List.append_assoc]
        exact ⟨rfl, rfl⟩
  · rw [if_neg hstart] at ht
    cases ht
    exact ⟨rfl, rfl⟩

/-- At the end of the text the open blocks are closed before it. -/
theorem finish_coming (htrack : s.config.trackIndentation = true) (hstart : s.atLineStart = false)
    (hrest : s.rest = []) :
    s.finish.pending = s.pending ++ s.comingTokens ∧ s.comingReports = [] := by
  have hlines : s.readingLines = [[⟨.synthetic .endOfFile s.position, []⟩]] := by
    rw [readingLines, hrest, readingLines_nil]
  rw [comingTokens, comingReports, hstart, hlines, finish_eq]
  refine ⟨congrArg (s.pending ++ ·) ?_, rfl⟩
  simp [restTokens, lineTokens, turns, IndentStack.closing, IndentStack.close, closingKinds,
    closingBlocks, htrack, layoutToken, Token.synthetic, Token.ofLexeme, Span.ofText]

/-- A lexeme is queued, and its flaws are reported. -/
theorem accept_coming (hstart : s.atLineStart = false) {c : Char} {rest : Text}
    (hrest : s.rest = c :: rest) :
    (s.accept (Lexeme.read c rest)).pending ++ (s.accept (Lexeme.read c rest)).comingTokens =
        s.pending ++ s.comingTokens ∧
      (s.accept (Lexeme.read c rest)).diagnostics ++
          (s.accept (Lexeme.read c rest)).comingReports =
        s.diagnostics ++ s.comingReports := by
  have htokens : s.comingTokens = restTokens s.config.tabWidth s.indents
      (Text.readingLines s.origin s.position (c :: rest)) := by
    rw [comingTokens, hstart, readingLines, hrest]
    rfl
  have hreports : s.comingReports = restReports s.config.tabWidth s.origin s.indents
      (Text.readingLines s.origin s.position (c :: rest)) := by
    rw [comingReports, hstart, readingLines, hrest]
    rfl
  rw [restTokens_readingLines] at htokens
  rw [restReports_readingLines] at hreports
  rw [htokens, hreports, accept_eq]
  unfold comingTokens comingReports
  dsimp only
  rw [hstart, Bool.false_or, List.append_assoc, List.append_assoc]
  exact ⟨rfl, rfl⟩

/-- **Draining a scan with blocks hands out the lines with their layout.** -/
theorem drain_coming (s : Scanner) (hf : s.finished = false)
    (htrack : s.config.trackIndentation = true) (hshow : s.config.skipTrivia = false)
    {tokens : List Token} {last : Scanner} (hdrain : s.drain = .ok (tokens, last)) :
    tokens = s.pending ++ s.comingTokens ∧
      last.diagnostics = s.diagnostics ++ s.comingReports := by
  induction s using drain_induction generalizing tokens with
  | h s ih =>
    obtain ⟨s', others, hs, hd, rfl⟩ := step_of_drain hf hdrain
    obtain ⟨t, ht, hend⟩ := step_cases hs
    obtain ⟨_, hconfig, _, hsame, _, hstart, hfin⟩ := beginLine_frame ht
    obtain ⟨htokens, hreports⟩ := @beginLine_coming { s with pending := [] } t htrack ht
    have htokens : t.pending ++ t.comingTokens = s.comingTokens := htokens
    have hreports : t.diagnostics ++ t.comingReports = s.diagnostics ++ s.comingReports := hreports
    rw [filter_handsOut_of_shows hshow, ← htokens, ← hreports]
    rcases hend with ⟨hrest, rfl⟩ | ⟨c, rest, hrest, rfl⟩
    · obtain ⟨hclose, hnone⟩ := finish_coming (by rw [hconfig]; exact htrack) hstart hrest
      rw [drain_finish_of_shows (by rw [hconfig]; exact hshow)] at hd
      cases hd
      rw [hnone, List.append_nil, ← hclose, finish_eq]
      exact ⟨rfl, rfl⟩
    · obtain ⟨hqueue, hreported⟩ := accept_coming hstart hrest
      have hcome := ih hf _ hs (by rw [accept_eq]; exact hfin.trans hf)
        (by rw [accept_eq]; exact hconfig ▸ htrack) (by rw [accept_eq]; exact hconfig ▸ hshow) hd
      rw [hcome.1, hcome.2, ← hqueue, ← hreported]
      exact ⟨rfl, rfl⟩

end Scanner

/-! ## What is reported of a line -/

section Reports

variable {before line after : List Reading}

/-- What is reported of a token begins within it and within no other one. -/
theorem beginsOn_iff (hpair : (before ++ (line ++ after)).Pairwise fun r u =>
      r.token.span.endOffset ≤ u.token.span.start.offset)
    (hbegins : ∀ r ∈ before ++ (line ++ after), ∀ d ∈ r.reports,
      r.token.span.start.offset ≤ d.span.start.offset ∧
        d.span.start.offset < r.token.span.endOffset) :
    (∀ r ∈ line, ∀ d ∈ r.reports, d.beginsOn (line.map Reading.token) = true) ∧
      ∀ r ∈ before ++ after, ∀ d ∈ r.reports, d.beginsOn (line.map Reading.token) = false := by
  have hiff (d : Diagnostic) : d.beginsOn (line.map Reading.token) = true ↔
      ∃ u ∈ line, u.token.span.start.offset ≤ d.span.start.offset ∧
        d.span.start.offset < u.token.span.endOffset := by
    simp [Diagnostic.beginsOn]
  obtain ⟨_, hlater, hbefore⟩ := List.pairwise_append.1 hpair
  obtain ⟨_, _, hafter⟩ := List.pairwise_append.1 hlater
  constructor
  · intro r hr d hd
    exact (hiff d).2 ⟨r, hr, hbegins r (by simp [hr]) d hd⟩
  · intro r hr d hd
    rw [← Bool.not_eq_true, hiff]
    rintro ⟨u, hu, hstart, hend⟩
    rcases List.mem_append.1 hr with hr | hr
    · have hle := hbefore r hr u (List.mem_append_left _ hu)
      have hin := hbegins r (by simp [hr]) d hd
      omega
    · have hle := hafter u hu r hr
      have hin := hbegins r (by simp [hr]) d hd
      omega

/-- Of all that is reported up to a place, what begins on a line is what is reported of its
tokens. -/
theorem filter_beginsOn {origin : Option Text} {p : Position} {t : Text}
    (hpast : before ++ (line ++ after) <+: t.readings origin p) :
    ((before ++ (line ++ after)).flatMap Reading.reports).filter
        (fun d => d.beginsOn (line.map Reading.token)) =
      line.flatMap Reading.reports := by
  have hpair := (Text.pairwise_readings origin p t).sublist hpast.sublist
  have hbegins := fun r hr d hd =>
    @Text.begins_of_mem_reports origin p t r (hpast.subset hr) d hd
  obtain ⟨hon, hoff⟩ := beginsOn_iff hpair hbegins
  rw [List.flatMap_append, List.flatMap_append, List.filter_append, List.filter_append]
  have hnone (rs : List Reading) (hrs : ∀ r ∈ rs, r ∈ before ++ after) :
      (rs.flatMap Reading.reports).filter (fun d => d.beginsOn (line.map Reading.token)) = [] := by
    refine List.filter_eq_nil_iff.2 fun d hd => ?_
    obtain ⟨r, hr, hd⟩ := List.mem_flatMap.1 hd
    rw [hoff r (hrs r hr) d hd]
    exact Bool.false_ne_true
  have hall : (line.flatMap Reading.reports).filter
      (fun d => d.beginsOn (line.map Reading.token)) = line.flatMap Reading.reports := by
    refine List.filter_eq_self.2 fun d hd => ?_
    obtain ⟨r, hr, hd⟩ := List.mem_flatMap.1 hd
    exact hon r hr d hd
  rw [hnone before fun r hr => List.mem_append_left _ hr,
    hnone after fun r hr => List.mem_append_right _ hr, hall, List.nil_append, List.append_nil]

/-- So what is reported of lines and their indentation can be told from all that is reported. -/
theorem flatMap_turns_reports {tabWidth : Nat} {origin : Option Text} {stack : IndentStack}
    {ds : List Diagnostic} {lines : List (List Reading)}
    (hlines : ∀ line ∈ lines, ds.filter (fun d => d.beginsOn (line.map Reading.token)) =
      line.flatMap Reading.reports) :
    (turns tabWidth stack (lines.map (List.map Reading.token))).flatMap (fun turn =>
        turn.reports origin ++ ds.filter fun d => d.beginsOn turn.line) =
      lineReports tabWidth origin stack lines := by
  induction lines generalizing stack with
  | nil => rfl
  | cons line lines ih =>
    rw [List.map_cons, turns, List.flatMap_cons,
      ih fun other hother => hlines other (List.mem_cons_of_mem _ hother), lineReports,
      List.append_assoc, IndentStack.turn_line, hlines line List.mem_cons_self]

/-! ## Nothing else changes -/

/-- A lexeme is no layout, and no flaw of it is about indentation. -/
theorem Lexeme.Flawed.not_layout {lexeme : Text} {kind : TokenKind} {flaws : List Flaw}
    (h : Lexeme.Flawed lexeme kind flaws) :
    kind.isLayout = false ∧ ∀ flaw ∈ flaws, flaw.fault.isIndentation = false := by
  cases h with
  | wellFormed => exact ⟨rfl, List.forall_mem_nil _⟩
  | literal _ _ hwhole _ =>
    refine ⟨rfl, fun flaw hflaw => ?_⟩
    rcases List.mem_append.1 hflaw with hflaw | hflaw
    · obtain ⟨e, _, rfl⟩ := List.mem_map.1 hflaw
      rfl
    · obtain ⟨fault, hfault, rfl⟩ := List.mem_map.1 hflaw
      rcases hwhole with rfl | ⟨kind, rfl⟩ | rfl
      · cases hfault
      · rw [List.mem_singleton.1 hfault]
        rfl
      · rw [List.mem_singleton.1 hfault]
        rfl
  | _ =>
    refine ⟨rfl, fun flaw hflaw => ?_⟩
    rw [List.mem_singleton.1 hflaw]
    rfl

/-- The tokens of a text are no layout, and nothing reported of them is about indentation. -/
theorem not_layout_of_mem_readings {origin : Option Text} {p : Position} {t : Text} {r : Reading}
    (h : r ∈ t.readings origin p) :
    r.token.kind.isLayout = false ∧ ∀ d ∈ r.reports, d.fault.isIndentation = false := by
  fun_induction Text.readings origin p t with
  | case1 p =>
    rw [List.mem_singleton.1 h]
    exact ⟨rfl, List.forall_mem_nil _⟩
  | case2 p c rest ih =>
    rcases List.mem_cons.1 h with rfl | h
    · obtain ⟨hkind, hflaws⟩ := (Lexeme.flawed_read c rest).not_layout
      refine ⟨hkind, fun d hd => ?_⟩
      obtain ⟨flaw, hflaw, rfl⟩ := List.mem_map.1 hd
      exact hflaws flaw hflaw
    · exact ih h

/-- Without the layout the tokens of lines are what they were. -/
theorem filter_lineTokens {tabWidth : Nat} {stack : IndentStack} {lines : List (List Reading)}
    (h : ∀ r ∈ lines.flatten, r.token.kind.isLayout = false) :
    (lineTokens tabWidth stack lines).filter (fun t => !t.kind.isLayout) =
      lines.flatten.map Reading.token := by
  induction lines generalizing stack with
  | nil => rfl
  | cons line lines ih =>
    have hopening (turn : Turn) : turn.opening.filter (fun t => !t.kind.isLayout) = [] := by
      refine List.filter_eq_nil_iff.2 fun t ht => ?_
      obtain ⟨first, _, ht⟩ := List.mem_flatMap.1 ht
      obtain ⟨kind, hkind, rfl⟩ := List.mem_map.1 ht
      rcases Transition.isLayout_of_mem_kinds hkind with rfl | rfl | rfl
      all_goals exact Bool.false_ne_true
    have hclosing (stack : IndentStack) (r : Reading) (hr : r.token.kind.isLayout = false) :
        (stack.closing r.token).filter (fun t => !t.kind.isLayout) = [r.token] := by
      have hdedent : TokenKind.dedent.isLayout = true := rfl
      unfold IndentStack.closing
      split <;> simp [Token.synthetic, Token.ofLexeme, hdedent, hr]
    have hline (stack : IndentStack) : (line.flatMap fun r => stack.closing r.token).filter
        (fun t => !t.kind.isLayout) = line.map Reading.token := by
      have hmem : ∀ r ∈ line, r.token.kind.isLayout = false := fun r hr => h r (by simp [hr])
      clear h ih
      induction line with
      | nil => rfl
      | cons r line ih =>
        rw [List.flatMap_cons, List.filter_append, hclosing stack r (hmem r List.mem_cons_self),
          ih fun u hu => hmem u (List.mem_cons_of_mem _ hu)]
        rfl
    rw [lineTokens_cons, restTokens, List.filter_append, List.filter_append, hopening, hline,
      ih fun r hr => h r (by simp at hr ⊢; exact .inr hr), List.flatten_cons, List.map_append]
    rfl

/-- Without what is said of indentation, what is reported of lines is what it was. -/
theorem filter_lineReports {tabWidth : Nat} {origin : Option Text} {stack : IndentStack}
    {lines : List (List Reading)}
    (h : ∀ r ∈ lines.flatten, ∀ d ∈ r.reports, d.fault.isIndentation = false) :
    (lineReports tabWidth origin stack lines).filter (fun d => !d.fault.isIndentation) =
      lines.flatten.flatMap Reading.reports := by
  induction lines generalizing stack with
  | nil => rfl
  | cons line lines ih =>
    have hturn (turn : Turn) :
        (turn.reports origin).filter (fun d => !d.fault.isIndentation) = [] := by
      refine List.filter_eq_nil_iff.2 fun d hd => ?_
      obtain ⟨first, _, hd⟩ := List.mem_flatMap.1 hd
      obtain ⟨fault, hfault, rfl⟩ := List.mem_map.1 hd
      cases htransition : turn.transition with
      | inconsistent blocks enclosing =>
        rw [htransition] at hfault
        rw [List.mem_singleton.1 hfault]
        exact Bool.false_ne_true
      | _ =>
        rw [htransition] at hfault
        cases hfault
    have hline : (line.flatMap Reading.reports).filter (fun d => !d.fault.isIndentation) =
        line.flatMap Reading.reports := by
      refine List.filter_eq_self.2 fun d hd => ?_
      obtain ⟨r, hr, hd⟩ := List.mem_flatMap.1 hd
      rw [h r (by simp [hr]) d hd]
      rfl
    rw [lineReports, List.filter_append, List.filter_append, hturn, hline,
      ih fun r hr => h r (by simp at hr ⊢; exact .inr hr), List.flatten_cons, List.flatMap_append]
    rfl

end Reports

namespace Listing

variable {tabWidth : Nat} {source : Text}

/-- Laying out the listing without blocks, in terms of what the text reads as. -/
theorem layOut_readings (origin : Option Text) (t : Text) :
    layOut tabWidth ⟨origin, (t.readings origin .start).map Reading.token,
        (t.readings origin .start).flatMap Reading.reports⟩ =
      ⟨origin, lineTokens tabWidth .base (t.readingLines origin .start),
        lineReports tabWidth origin .base (t.readingLines origin .start)⟩ := by
  have hcut : logicalLines ((t.readings origin .start).map Reading.token) =
      (t.readingLines origin .start).map (List.map Reading.token) := splitAfter_map _ _
  have hflatten : (t.readingLines origin .start).flatten = t.readings origin .start :=
    flatten_splitAfter _ _
  rw [layOut]
  dsimp only
  rw [hcut, flatMap_turns_reports]
  · rfl
  · intro line hline
    obtain ⟨front, back, hmem⟩ := List.append_of_mem hline
    have hsplit : t.readings origin .start = front.flatten ++ (line ++ back.flatten) := by
      rw [← hflatten, hmem, List.flatten_append, List.flatten_cons]
    have hpast : front.flatten ++ (line ++ back.flatten) <+: t.readings origin .start :=
      ⟨[], by rw [List.append_nil, hsplit]⟩
    rw [hsplit]
    exact filter_beginsOn hpast

/-- **Layout refines a specification by logical lines.**  Where no line that is to be measured
is too wide, a text has a listing without blocks and one with blocks, and the second is the first
one laid out.  Nothing else changes: without its layout tokens, and without what is reported of
indentation, the second is the first. -/
theorem layout_refines (origin : Option Text)
    (hfits : ¬ Unmeasurable { tabWidth, skipTrivia := false, trackIndentation := true } source) :
    ∃ plain,
      ofText { tabWidth, skipTrivia := false, trackIndentation := false } origin source =
        .ok plain ∧
      ofText { tabWidth, skipTrivia := false, trackIndentation := true } origin source =
        .ok (plain.layOut tabWidth) ∧
      (plain.layOut tabWidth).tokens.filter (fun t => !t.kind.isLayout) = plain.tokens ∧
      (plain.layOut tabWidth).diagnostics.filter (fun d => !d.fault.isIndentation) =
        plain.diagnostics := by
  refine ⟨_, ofText_eq_readings rfl rfl origin source, ?_, ?_⟩
  rotate_left
  · have hflatten : (source.withoutMark.readingLines origin .start).flatten =
        source.withoutMark.readings origin .start := flatten_splitAfter _ _
    rw [layOut_readings]
    dsimp only
    rw [filter_lineTokens, filter_lineReports, hflatten]
    · exact ⟨rfl, rfl⟩
    · rw [hflatten]
      exact fun r hr => (not_layout_of_mem_readings hr).2
    · rw [hflatten]
      exact fun r hr => (not_layout_of_mem_readings hr).1
  obtain ⟨laid, hlaid⟩ := exists_ofText origin hfits
  obtain ⟨tokens, last, hdrain, rfl⟩ := ofText_eq_ok_iff.1 hlaid
  obtain ⟨htokens, hreports⟩ := Scanner.drain_coming _ rfl rfl rfl hdrain
  rw [hlaid, layOut_readings, htokens, hreports]
  rfl

/-- A text of seven logical lines: a block with an empty line, a comment and a verbatim string of
two lines in it, and then a line that is inconsistent with the block. -/
theorem layout_refines_inconsistent :
    let source : Text := ['a', '\n', '\t', 'b', '\r', '\n', '\r', '#', 'c', '\n', '\t', '"', '"',
      '"', '\n', ' ', 'd', '"', '"', '"', '\n', ' ', 'e', '\n', 'f']
    ¬ Unmeasurable { tabWidth := 4, skipTrivia := false, trackIndentation := true } source ∧
      ∃ plain laid,
        ofText { tabWidth := 4, skipTrivia := false, trackIndentation := false } none source =
          .ok plain ∧
        ofText { tabWidth := 4, skipTrivia := false, trackIndentation := true } none source =
          .ok laid ∧
        laid = plain.layOut 4 ∧
        laid.kinds.filter TokenKind.isLayout = [.indent, .dedent, .error .indentation] := by
  intro source
  have hfits : ¬ Unmeasurable { tabWidth := 4, skipTrivia := false, trackIndentation := true }
      source := not_unmeasurable (by decide)
  have hkinds : ((ofText { tabWidth := 4, skipTrivia := false, trackIndentation := true } none
      source).toOption.any fun laid => laid.kinds.filter TokenKind.isLayout ==
        [.indent, .dedent, .error .indentation]) = true := by decide +kernel
  obtain ⟨plain, hplain, hlaid, _, _⟩ := layout_refines none hfits
  rw [hlaid] at hkinds
  exact ⟨hfits, plain, _, hplain, hlaid, rfl, eq_of_beq hkinds⟩

end Listing
end LayoutLexer

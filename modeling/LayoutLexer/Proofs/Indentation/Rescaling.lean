import LayoutLexer.Proofs.Change
import LayoutLexer.Proofs.Indentation.History
import LayoutLexer.Proofs.Layout
import Mathlib.Order.Monotone.Basic

/-! # Layout depends on the order of widths only

A stack compares widths with one another and with the zero of its base, and does nothing else with
them.  So where all widths are changed by a strictly increasing function that keeps zero, it gives
the same answers, the enclosing width of an inconsistent line changed with the others
(`IndentStack.run_map`).

A scan takes its widths from the white space of significant lines.  If two tab widths give all of
them widths that such a function leads from the one to the other, the scans are the same apart from
the widths that they report (`Listing.ofText_rescale`).  Where those lines are indented with tabs
alone, or with spaces alone, the widths under any tab width are such multiples of the widths under
tab width one; hence the tab width does not matter (`Listing.layout_of_order`).
-/
namespace LayoutLexer

open CharClass

/-! ## Stacks -/

section Stack

variable {f : Nat → Nat}

/-- The level with its width changed. -/
def Level.map (f : Nat → Nat) (level : Level) : Level := { level with width := f level.width }

/-- The transition with the widths in it changed. -/
def Transition.map (f : Nat → Nat) : Transition → Transition
  | .inconsistent blocks enclosing => .inconsistent blocks (f enclosing)
  | t => t

theorem Transition.kinds_map (t : Transition) : (t.map f).kinds = t.kinds := by
  cases t <;> rfl

namespace IndentStack

/-- The stack with all widths changed. -/
def map (f : Nat → Nat) (s : IndentStack) : IndentStack := ⟨s.levels.map (Level.map f)⟩

/-- The call with its width changed. -/
def Call.map (f : Nat → Nat) : Call → Call
  | .transition width => .transition (f width)
  | .close => .close

/-- The answer with the widths in it changed. -/
def Answer.map (f : Nat → Nat) : Answer → Answer
  | .transition t => .transition (t.map f)
  | .close blocks => .close blocks

theorem blocks_map (levels : List Level) : blocks (levels.map (Level.map f)) = blocks levels := by
  rw [blocks, List.countP_map]
  rfl

theorem current_map (hzero : f 0 = 0) (s : IndentStack) : (s.map f).current = f s.current := by
  obtain ⟨_ | ⟨level, levels⟩⟩ := s
  · exact hzero.symm
  · rfl

/-- The same levels are wider than a width, before and after the change. -/
theorem wider_map (hf : StrictMono f) (s : IndentStack) (w : Nat) :
    (s.map f).wider (f w) = (s.wider w).map (Level.map f) ∧
      (s.map f).narrowed (f w) = (s.narrowed w).map f := by
  have hwider : (fun level : Level => decide (f w < level.width)) ∘ Level.map f =
      fun level => decide (w < level.width) :=
    funext fun level => decide_eq_decide.2 hf.lt_iff_lt
  constructor
  · rw [wider, map, List.takeWhile_map, hwider]
    rfl
  · rw [narrowed, map, List.dropWhile_map, hwider]
    rfl

/-- A changed width does to the changed stack what it does to the stack. -/
theorem transition_map (hf : StrictMono f) (hzero : f 0 = 0) (s : IndentStack) (w : Nat) :
    (s.map f).transition (f w) = ((s.transition w).1.map f, (s.transition w).2.map f) := by
  obtain ⟨hwider, hnarrowed⟩ := wider_map hf s w
  unfold transition
  dsimp only
  rw [hwider, hnarrowed, current_map hzero, current_map hzero, blocks_map]
  simp only [hf.injective.eq_iff, hf.lt_iff_lt]
  split
  · rfl
  · split
    · rfl
    · split <;> rfl

theorem answer_map (hf : StrictMono f) (hzero : f 0 = 0) (s : IndentStack) (c : Call) :
    (s.map f).answer (c.map f) = ((s.answer c).1.map f, (s.answer c).2.map f) := by
  cases c with
  | transition w =>
    show (Answer.transition ((s.map f).transition (f w)).1, ((s.map f).transition (f w)).2) = _
    rw [transition_map hf hzero]
    rfl
  | close =>
    show (Answer.close (blocks (s.levels.map (Level.map f))), base) = _
    rw [blocks_map]
    rfl

/-- **Calls with changed widths have the same answers**, and so do those that come after them. -/
theorem run_map (hf : StrictMono f) (hzero : f 0 = 0) (s : IndentStack) (calls : List Call) :
    (s.map f).run (calls.map (Call.map f)) =
      ((s.run calls).1.map (Answer.map f), (s.run calls).2.map f) := by
  induction calls generalizing s with
  | nil => rfl
  | cons c calls ih =>
    rw [List.map_cons, run_cons, run_cons, answer_map hf hzero, ih]
    rfl

end IndentStack

/-- The fault with the widths in it changed. -/
def Fault.rescale (f : Nat → Nat) : Fault → Fault
  | .inconsistentIndentation width enclosing => .inconsistentIndentation (f width) (f enclosing)
  | fault => fault

/-- The diagnostic with the widths in it changed. -/
def Diagnostic.rescale (f : Nat → Nat) (d : Diagnostic) : Diagnostic :=
  { d with fault := d.fault.rescale f }

theorem Transition.faults_map (t : Transition) (w : Nat) :
    (t.map f).faults (f w) = (t.faults w).map (Fault.rescale f) := by
  cases t <;> rfl

/-- The diagnostic without the widths in it. -/
def Diagnostic.withoutWidths : Diagnostic → Diagnostic := rescale fun _ => 0

theorem Diagnostic.withoutWidths_rescale (d : Diagnostic) :
    (d.rescale f).withoutWidths = d.withoutWidths := by
  obtain ⟨origin, fault, span⟩ := d
  cases fault <;> rfl

end Stack

namespace Scanner

variable {f : Nat → Nat} {tabWidth : Nat} {s s' : Scanner}

/-! ## Lines that are still to be measured -/

/-- The lines that begin at the place of the scanner or after it. -/
def linesAhead (s : Scanner) : List Text :=
  (if s.atLineStart then [s.rest] else []) ++ s.rest.afterBreaks

/-- The settings are those of before, and no line is ahead after a step that was not ahead before
it. -/
theorem linesAhead_step (h : s.step = .ok s') :
    s'.config = s.config ∧ ∀ line ∈ s'.linesAhead, line ∈ s.linesAhead := by
  obtain ⟨t, ht, hend⟩ := step_cases h
  obtain ⟨_, hconfig, _, hrest, _, hstart, _⟩ := beginLine_frame ht
  have hafter : ∀ line ∈ t.rest.afterBreaks, line ∈ s.linesAhead := fun line hline =>
    List.mem_append_right _ (hrest ▸ hline)
  rcases hend with ⟨hnil, rfl⟩ | ⟨c, rest, hcons, rfl⟩
  · rw [finish_eq]
    refine ⟨hconfig, fun line hline => hafter line ?_⟩
    rw [linesAhead] at hline
    dsimp only at hline
    rwa [hstart] at hline
  · rw [accept_eq]
    refine ⟨hconfig, fun line hline => hafter line ?_⟩
    rw [linesAhead] at hline
    dsimp only at hline
    rw [hstart, Bool.false_or] at hline
    rw [hcons, Text.afterBreaks]
    by_cases hends : (Lexeme.read c rest).endsLine = true
    · rwa [if_pos hends] at hline ⊢
    · rwa [if_neg hends] at hline ⊢

/-! ## A scan with other widths -/

/-- The scanner with another tab width and with all widths changed. -/
def rescaled (f : Nat → Nat) (tabWidth : Nat) (s : Scanner) : Scanner :=
  { s with
    config := { s.config with tabWidth }
    indents := s.indents.map f
    diagnostics := s.diagnostics.map (Diagnostic.rescale f) }

/-- Under the other tab width the line is as wide as the function says. -/
def Rescales (f : Nat → Nat) (tabWidth tabWidth' : Nat) (line : Text) : Prop :=
  Significant line →
    Width.checked tabWidth' (line.takeWhile isHorizontalSpace) =
      (Width.checked tabWidth (line.takeWhile isHorizontalSpace)).map f

/-- Under the other tab width all lines that are still to be measured are as wide as the function
says. -/
def RescalesAhead (f : Nat → Nat) (tabWidth : Nat) (s : Scanner) : Prop :=
  s.config.trackIndentation = true →
    ∀ line ∈ s.linesAhead, Rescales f s.config.tabWidth tabWidth line

theorem lasting_rescalesAhead : Lasting (RescalesAhead f tabWidth) where
  emptied h := h
  step h hs := by
    obtain ⟨hconfig, hlines⟩ := linesAhead_step hs
    intro htrack line hline
    rw [hconfig] at htrack ⊢
    exact h htrack line (hlines line hline)

theorem indentTo_rescaled (hf : StrictMono f) (hzero : f 0 = 0) (width : Nat) :
    (s.rescaled f tabWidth).indentTo (f width) = (s.indentTo width).rescaled f tabWidth := by
  have htransition := IndentStack.transition_map hf hzero s.indents width
  rw [indentTo_eq, indentTo_eq]
  unfold rescaled
  dsimp only
  rw [htransition, Transition.kinds_map, Transition.faults_map, List.map_map, List.map_append,
    List.map_map]
  rfl

/-- What is reported of a lexeme has no widths in it. -/
theorem accept_rescaled (c : Char) (rest : Text) :
    (s.rescaled f tabWidth).accept (Lexeme.read c rest) =
      (s.accept (Lexeme.read c rest)).rescaled f tabWidth := by
  have hflaws : ((Lexeme.read c rest).flaws.map fun flaw =>
        (⟨s.origin, flaw.fault, s.flawSpan flaw⟩ : Diagnostic)).map (Diagnostic.rescale f) =
      (Lexeme.read c rest).flaws.map fun flaw => ⟨s.origin, flaw.fault, s.flawSpan flaw⟩ := by
    rw [List.map_map]
    refine List.map_congr_left fun flaw hflaw => ?_
    have hfault := (Lexeme.flawed_read c rest).not_layout.2 flaw hflaw
    rw [Function.comp_apply, Diagnostic.rescale]
    cases hcause : flaw.fault with
    | inconsistentIndentation width enclosing => rw [hcause] at hfault; cases hfault
    | _ => rfl
  rw [accept_eq, accept_eq]
  unfold rescaled
  dsimp only
  rw [List.map_append, hflaws]
  rfl

theorem finish_rescaled : (s.rescaled f tabWidth).finish = s.finish.rescaled f tabWidth := by
  have hkinds : (s.rescaled f tabWidth).closingKinds = s.closingKinds := by
    unfold closingKinds closingBlocks
    rw [show (s.rescaled f tabWidth).indents.levels = s.indents.levels.map (Level.map f) from rfl,
      IndentStack.blocks_map]
    rfl
  rw [finish_eq, finish_eq, hkinds]
  unfold rescaled
  dsimp only
  cases s.config.trackIndentation <;> rfl

theorem beginLine_rescaled (hf : StrictMono f) (hzero : f 0 = 0) (h : s.RescalesAhead f tabWidth) :
    (s.rescaled f tabWidth).beginLine = s.beginLine.map (rescaled f tabWidth) := by
  refine beginLine_map_width rfl rfl rfl (fun hstart htrack hsig => ?_) rfl
    fun _ => indentTo_rescaled hf hzero
  refine h htrack s.rest ?_ (significant_iff.2 hsig)
  rw [linesAhead, if_pos hstart]
  exact List.mem_cons_self

theorem unnoticed_rescaled (hf : StrictMono f) (hzero : f 0 = 0) :
    Unnoticed (RescalesAhead f tabWidth) (rescaled f tabWidth) where
  finished _ := rfl
  emptied _ := rfl
  step _ h := step_map (beginLine_rescaled hf hzero h) (fun _ => rfl) (fun _ => finish_rescaled)
    fun _ => accept_rescaled

/-- **A scan with other widths in the same order is the same scan.** -/
theorem drain_rescaled (hf : StrictMono f) (hzero : f 0 = 0) (s : Scanner)
    (h : s.RescalesAhead f tabWidth) :
    (s.rescaled f tabWidth).drain = s.drain.map fun (tokens, last) =>
      (tokens, last.rescaled f tabWidth) :=
  (unnoticed_rescaled hf hzero).drain_map (g := fun ts => ts) lasting_rescalesAhead .id
    (fun _ => rfl) (fun _ => rfl) (fun _ _ => rfl) s h

end Scanner

/-! ## Widths of runs of one character -/

namespace Width

variable {tabWidth : Nat} {run : Text}

theorem exact_of_tabs (h : ∀ c ∈ run, c = '\t') :
    exact tabWidth run = run.length * tabStop tabWidth := by
  have hfrom (n : Nat) : run.foldl (exactStep tabWidth) (n * tabStop tabWidth) =
      (n + run.length) * tabStop tabWidth := by
    induction run generalizing n with
    | nil => rfl
    | cons c run ih =>
      obtain rfl := h c List.mem_cons_self
      rw [List.foldl_cons, exactStep, if_pos rfl, Nat.mul_div_cancel _ (tabStop_pos tabWidth),
        ih fun d hd => h d (List.mem_cons_of_mem _ hd), List.length_cons, Nat.add_right_comm,
        Nat.add_assoc]
  have hzero := hfrom 0
  rwa [Nat.zero_mul, Nat.zero_add] at hzero

theorem exact_of_spaces (h : ∀ c ∈ run, c = ' ') : exact tabWidth run = run.length := by
  have hfrom (n : Nat) : run.foldl (exactStep tabWidth) n = n + run.length := by
    induction run generalizing n with
    | nil => rfl
    | cons c run ih =>
      obtain rfl := h c List.mem_cons_self
      rw [List.foldl_cons, exactStep, if_neg (by decide),
        ih fun d hd => h d (List.mem_cons_of_mem _ hd), List.length_cons, Nat.add_right_comm,
        Nat.add_assoc]
  exact (hfrom 0).trans (Nat.zero_add _)

end Width

/-! ## Listings -/

/-- All significant lines of a text are indented with the given character alone. -/
def IndentedWith (c : Char) (source : Text) : Prop :=
  ∀ line, LineStart source line → Significant line →
    ∀ d ∈ line.takeWhile isHorizontalSpace, d = c

namespace Listing

variable {f : Nat → Nat} {config : Config} {tabWidth : Nat} {source : Text}

/-- The listing with the widths that it reports changed. -/
def rescale (f : Nat → Nat) (l : Listing) : Listing :=
  { l with diagnostics := l.diagnostics.map (Diagnostic.rescale f) }

/-- Where a strictly increasing function that keeps zero leads from the widths of all significant
lines to those under another tab width, and these fit, the listing under the other tab width is the
same one apart from the widths that it reports. -/
theorem ofText_rescale (hf : StrictMono f) (hzero : f 0 = 0) (origin : Option Text)
    (hwidths : ∀ line, LineStart source line → Significant line →
      Width.exact tabWidth (line.takeWhile isHorizontalSpace) =
        f (Width.exact config.tabWidth (line.takeWhile isHorizontalSpace)))
    (hfits : ¬ Unmeasurable { config with tabWidth } source) :
    ∃ l, ofText config origin source = .ok l ∧
      ofText { config with tabWidth } origin source = .ok (l.rescale f) := by
  -- a width is no smaller for being changed, so those that are changed fit as well
  have hfits' : ¬ Unmeasurable config source := by
    rintro ⟨htrack, line, hline, hsig, hwide⟩
    refine hfits ⟨htrack, line, hline, hsig, ?_⟩
    rw [hwidths line hline hsig]
    exact Nat.le_trans hwide (hf.le_apply)
  have hahead : (scanner config origin source).RescalesAhead f tabWidth := by
    intro htrack line hmem hsig
    have hline : LineStart source line := lineStart_iff.2 (List.mem_cons.1 hmem)
    have hexact := hwidths line hline hsig
    have hlt : Width.exact tabWidth (line.takeWhile isHorizontalSpace) < Checked.limit :=
      Nat.not_le.1 fun hwide => hfits ⟨htrack, line, hline, hsig, hwide⟩
    have hlt' : Width.exact config.tabWidth (line.takeWhile isHorizontalSpace) < Checked.limit :=
      Nat.not_le.1 fun hwide => hfits' ⟨htrack, line, hline, hsig, hwide⟩
    show Width.checked tabWidth _ = (Width.checked config.tabWidth _).map f
    rw [Width.checked_eq_ok_iff.2 ⟨hlt, rfl⟩, Width.checked_eq_ok_iff.2 ⟨hlt', rfl⟩, hexact]
    rfl
  obtain ⟨l, hl⟩ := exists_ofText origin hfits'
  obtain ⟨tokens, last, hdrain, rfl⟩ := ofText_eq_ok_iff.1 hl
  refine ⟨_, hl, ofText_eq_ok_iff.2 ⟨tokens, last.rescaled f tabWidth, ?_, rfl⟩⟩
  have hscan := Scanner.drain_rescaled hf hzero _ hahead
  rw [hdrain] at hscan
  exact hscan

/-- Under tab width one the widths of runs of one character are their lengths, from which a
strictly increasing function leads to their widths under any tab width. -/
theorem exists_scale (h : IndentedWith '\t' source ∨ IndentedWith ' ' source) (tabWidth : Nat) :
    ∃ f : Nat → Nat, StrictMono f ∧ f 0 = 0 ∧
      ∀ line, LineStart source line → Significant line →
        Width.exact tabWidth (line.takeWhile isHorizontalSpace) =
          f (Width.exact 1 (line.takeWhile isHorizontalSpace)) := by
  rcases h with h | h
  · refine ⟨(· * Width.tabStop tabWidth), fun m n hmn =>
      Nat.mul_lt_mul_of_pos_right hmn (Width.tabStop_pos tabWidth), Nat.zero_mul _, ?_⟩
    intro line hline hsig
    rw [Width.exact_of_tabs (h line hline hsig), Width.exact_of_tabs (h line hline hsig)]
    exact congrArg (· * Width.tabStop tabWidth) (Nat.mul_one _).symm
  · refine ⟨id, strictMono_id, rfl, fun line hline hsig => ?_⟩
    rw [Width.exact_of_spaces (h line hline hsig), Width.exact_of_spaces (h line hline hsig)]
    rfl

/-- **Layout depends on the order of widths only.**  Change all widths that a fresh stack is given
by a strictly increasing function that keeps zero: its answers are the same, the enclosing widths
in them changed with the others.  So where all significant lines of a text are indented with tabs
alone, or all of them with spaces alone, and their widths fit under two tab widths, the text has
the same tokens under both, and the same diagnostics apart from the widths in them. -/
theorem layout_of_order :
    (∀ f : Nat → Nat, StrictMono f → f 0 = 0 → ∀ calls : List IndentStack.Call,
      (IndentStack.base.run (calls.map (IndentStack.Call.map f))).1 =
        (IndentStack.base.run calls).1.map (IndentStack.Answer.map f)) ∧
    ∀ (config : Config) (origin : Option Text) (source : Text) (tabWidth tabWidth' : Nat),
      IndentedWith '\t' source ∨ IndentedWith ' ' source →
      ¬ Unmeasurable { config with tabWidth := tabWidth } source →
      ¬ Unmeasurable { config with tabWidth := tabWidth' } source →
      ∃ l l', ofText { config with tabWidth := tabWidth } origin source = .ok l ∧
        ofText { config with tabWidth := tabWidth' } origin source = .ok l' ∧
        l.tokens = l'.tokens ∧
        l.diagnostics.map Diagnostic.withoutWidths =
          l'.diagnostics.map Diagnostic.withoutWidths := by
  constructor
  · intro f hf hzero calls
    exact congrArg Prod.fst (IndentStack.run_map hf hzero .base calls)
  · intro config origin source tabWidth tabWidth' hindented hfits hfits'
    obtain ⟨f, hf, hzero, hwidths⟩ := exists_scale hindented tabWidth
    obtain ⟨f', hf', hzero', hwidths'⟩ := exists_scale hindented tabWidth'
    obtain ⟨l, hl, hscaled⟩ := @ofText_rescale f { config with tabWidth := 1 } tabWidth source hf
      hzero origin hwidths hfits
    obtain ⟨l', hl', hscaled'⟩ := @ofText_rescale f' { config with tabWidth := 1 } tabWidth' source
      hf' hzero' origin hwidths' hfits'
    rw [hl] at hl'
    cases hl'
    refine ⟨_, _, hscaled, hscaled', rfl, ?_⟩
    have hwithout (g : Nat → Nat) : (l.rescale g).diagnostics.map Diagnostic.withoutWidths =
        l.diagnostics.map Diagnostic.withoutWidths := by
      rw [rescale, List.map_map]
      exact List.map_congr_left fun d _ => d.withoutWidths_rescale
    rw [hwithout, hwithout]

/-- A block of two tabs and a line of one tab that is inconsistent with it: with tabs of no width
and with tabs of width eight the tokens are the same, and the reported widths are not. -/
theorem layout_of_order_inconsistent_tabs :
    let calls : List IndentStack.Call := [.transition 4, .transition 2, .close, .transition 1]
    let source : Text := ['a', '\n', '\t', '\t', 'b', '\n', '\t', 'c']
    StrictMono (fun n : Nat => 3 * n) ∧
      (IndentStack.base.run (calls.map (IndentStack.Call.map fun n => 3 * n))).1 =
        (IndentStack.base.run calls).1.map (IndentStack.Answer.map fun n => 3 * n) ∧
      IndentedWith '\t' source ∧ ¬ Unmeasurable { tabWidth := 0 } source ∧
      ¬ Unmeasurable { tabWidth := 8 } source ∧
      ∃ l l', ofText { tabWidth := 0 } none source = .ok l ∧
        ofText { tabWidth := 8 } none source = .ok l' ∧ l.tokens = l'.tokens ∧
        l.diagnostics ≠ l'.diagnostics ∧
        l.diagnostics.map Diagnostic.withoutWidths =
          l'.diagnostics.map Diagnostic.withoutWidths := by
  intro calls source
  have hf : StrictMono (fun n : Nat => 3 * n) := fun m n hmn => by
    show 3 * m < 3 * n
    omega
  have hlines : ((source.withoutMark :: source.withoutMark.afterBreaks).all fun line =>
      (line.takeWhile isHorizontalSpace).all (· == '\t')) = true := by decide +kernel
  have hindented : IndentedWith '\t' source := fun line hline _ d hd =>
    beq_iff_eq.1 (List.all_eq_true.1
      (List.all_eq_true.1 hlines line (List.mem_cons.2 (lineStart_iff.1 hline))) d hd)
  have hfits : ¬ Unmeasurable { tabWidth := 0 } source := not_unmeasurable (by decide)
  have hfits' : ¬ Unmeasurable { tabWidth := 8 } source := not_unmeasurable (by decide)
  have hdiffer : (match ofText { tabWidth := 0 } none source,
      ofText { tabWidth := 8 } none source with
    | .ok l, .ok l' => l.diagnostics != l'.diagnostics
    | _, _ => false) = true := by decide +kernel
  obtain ⟨l, l', hl, hl', htokens, hreports⟩ :=
    layout_of_order.2 {} none source 0 8 (.inl hindented) hfits hfits'
  refine ⟨hf, layout_of_order.1 _ hf rfl calls, hindented, hfits, hfits', l, l', hl, hl', htokens,
    ?_, hreports⟩
  have hl : ofText { tabWidth := 0 } none source = .ok l := hl
  have hl' : ofText { tabWidth := 8 } none source = .ok l' := hl'
  rw [hl, hl'] at hdiffer
  exact bne_iff_ne.1 hdiffer

end Listing
end LayoutLexer

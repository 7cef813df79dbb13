import LayoutLexer.Proofs.Run
import LayoutLexer.Proofs.Step

/-! # Changes that a scan does not notice

What a step does depends on the text ahead, on how lines are measured and on the open levels, and
on nothing else.  So it commutes with a change of the scanner that leaves these as they are
(`Scanner.step_map`), such as a move of its places, or that changes all widths alike.  A change
may go unnoticed only under a condition, which then has to last from one step to the next.  Two
scanners that are changed from one in such ways take the same steps, and if their queues are handed
out alike, so are all their tokens (`Scanner.Unnoticed.drain_map`).
-/
namespace LayoutLexer
namespace Scanner

variable {s : Scanner} {f : Scanner → Scanner}

/-- The beginning of a line is the same for a scanner that is changed in a way which changes the
width of the line by a function, and with it what comes of that width. -/
theorem beginLine_map_width {g : Nat → Nat} (hstart : (f s).atLineStart = s.atLineStart)
    (htrack : (f s).config.trackIndentation = s.config.trackIndentation)
    (hblank : isInsignificant ((f s).rest.dropWhile CharClass.isHorizontalSpace) =
      isInsignificant (s.rest.dropWhile CharClass.isHorizontalSpace))
    (hwidth : s.atLineStart = true → s.config.trackIndentation = true →
      isInsignificant (s.rest.dropWhile CharClass.isHorizontalSpace) = false →
      Width.checked (f s).config.tabWidth ((f s).rest.takeWhile CharClass.isHorizontalSpace) =
        (Width.checked s.config.tabWidth (s.rest.takeWhile CharClass.isHorizontalSpace)).map g)
    (hbegun : { f s with atLineStart := false } = f { s with atLineStart := false })
    (hindent : ∀ (u : Scanner) width, (f u).indentTo (g width) = f (u.indentTo width)) :
    (f s).beginLine = s.beginLine.map f := by
  unfold beginLine measureLine
  dsimp only
  rw [hstart, htrack, hblank, hbegun]
  by_cases hline : s.atLineStart = true
  · rw [if_pos hline, if_pos hline]
    by_cases htracked : s.config.trackIndentation = true
    · rw [if_pos htracked, if_pos htracked]
      by_cases hnone : isInsignificant (s.rest.dropWhile CharClass.isHorizontalSpace) = true
      · rw [if_pos hnone, if_pos hnone]
        rfl
      · rw [if_neg hnone, if_neg hnone, hwidth hline htracked (Bool.eq_false_iff.2 hnone)]
        cases Width.checked s.config.tabWidth (s.rest.takeWhile CharClass.isHorizontalSpace) with
        | error e => rfl
        | ok width => exact congrArg Except.ok (hindent _ width)
    · rw [if_neg htracked, if_neg htracked]
      rfl
  · rw [if_neg hline, if_neg hline]
    rfl

/-- The beginning of a line is the same for a scanner that is changed in a way which leaves the
line as it is, how its indentation is measured, and with it what comes of its width. -/
theorem beginLine_map {f : Scanner → Scanner} (hstart : (f s).atLineStart = s.atLineStart)
    (htrack : (f s).config.trackIndentation = s.config.trackIndentation)
    (htab : (f s).config.tabWidth = s.config.tabWidth)
    (hblank : isInsignificant ((f s).rest.dropWhile CharClass.isHorizontalSpace) =
      isInsignificant (s.rest.dropWhile CharClass.isHorizontalSpace))
    (hspace : (f s).rest.takeWhile CharClass.isHorizontalSpace =
      s.rest.takeWhile CharClass.isHorizontalSpace)
    (hbegun : { f s with atLineStart := false } = f { s with atLineStart := false })
    (hindent : ∀ (u : Scanner) width, (f u).indentTo width = f (u.indentTo width)) :
    (f s).beginLine = s.beginLine.map f := by
  refine beginLine_map_width (g := id) hstart htrack hblank (fun _ _ _ => ?_) hbegun hindent
  rw [htab, hspace]
  cases Width.checked s.config.tabWidth (s.rest.takeWhile CharClass.isHorizontalSpace) <;> rfl

/-- A step is the same for a scanner that is changed in a way with which the beginning of a line,
the end of the text and the acceptance of a lexeme commute. -/
theorem step_map (hbegin : (f s).beginLine = s.beginLine.map f)
    (hrest : ∀ t, (f t).rest = t.rest) (hfinish : ∀ t, (f t).finish = f t.finish)
    (haccept : ∀ t c rest,
      (f t).accept (Lexeme.read c rest) = f (t.accept (Lexeme.read c rest))) :
    (f s).step = s.step.map f := by
  unfold step
  rw [hbegin]
  cases s.beginLine with
  | error e => rfl
  | ok t =>
    dsimp only [Except.map]
    rw [hrest]
    cases t.rest with
    | nil => exact congrArg Except.ok (hfinish t)
    | cons c rest => exact congrArg Except.ok (haccept t c rest)

/-- A condition that lasts while a scan is drained. -/
structure Lasting (P : Scanner → Prop) : Prop where
  emptied : ∀ {s}, P s → P { s with pending := [] }
  step : ∀ {s s'}, P s → s.step = .ok s' → P s'

theorem lasting_true : Lasting fun _ => True := ⟨fun _ => trivial, fun _ _ => trivial⟩

/-- A change of the scanner that its steps do not notice under a condition. -/
structure Unnoticed (P : Scanner → Prop) (f : Scanner → Scanner) : Prop where
  /-- The scan is at its end or not, as it was. -/
  finished : ∀ s, (f s).finished = s.finished
  /-- An empty queue stays empty. -/
  emptied : ∀ s, { f s with pending := [] } = f { s with pending := [] }
  /-- A step is the same step. -/
  step : ∀ s, P s → (f s).step = s.step.map f

namespace Unnoticed

variable {P : Scanner → Prop}

theorem id : Unnoticed P fun s => s where
  finished _ := rfl
  emptied _ := rfl
  step s _ := by cases s.step <;> rfl

/-- Two scanners changed from one by changes that their steps do not notice hand out the same
tokens, up to what their queues are handed out as, and end in the same state up to the changes. -/
theorem drain_map {f' h : Scanner → Scanner} {g : List Token → List Token} (hP : Lasting P)
    (hf : Unnoticed P f) (hf' : Unnoticed P f') (hchange : ∀ s, f s = h (f' s))
    (hready : ∀ s, (f s).pending.filter (f s).handsOut =
      g ((f' s).pending.filter (f' s).handsOut))
    (happend : ∀ ts us, g (ts ++ us) = g ts ++ g us) (s : Scanner) (hs : P s) :
    (f s).drain = (f' s).drain.map fun (tokens, last) => (g tokens, h last) := by
  induction s using drain_induction with
  | h s ih =>
    have hempty := hP.emptied hs
    by_cases hend : s.finished = true
    · rw [drain_of_finished ((hf.finished s).trans hend),
        drain_of_finished ((hf'.finished s).trans hend), hready, hf.emptied, hf'.emptied, hchange]
      rfl
    · rw [Bool.not_eq_true] at hend
      rw [drain_of_unfinished ((hf.finished s).trans hend),
        drain_of_unfinished ((hf'.finished s).trans hend), hready, hf.emptied, hf'.emptied,
        hf.step _ hempty, hf'.step _ hempty]
      cases hstep : { s with pending := [] : Scanner }.step with
      | error e => rfl
      | ok s' =>
        dsimp only [Except.map]
        rw [ih hend s' hstep (hP.step hempty hstep)]
        cases (f' s').drain with
        | error e => rfl
        | ok r =>
          dsimp only [Except.map]
          rw [happend]

end Unnoticed
end Scanner
end LayoutLexer

import LayoutLexer.Position
import LayoutLexer.Proofs.Lexeme.LineBreak
import Mathlib.Data.List.DropRight

/-! # Places counted from the text before them

A scanner moves its position from lexeme to lexeme, and within a lexeme from character to
character with a look at the next one.  The place it should be at can be said without any of
that: as many bytes as the text before it has, one line more than that text has line breaks, and
one column more than there are characters since the last of them (`Position.after`).

Moving over a text from the beginning leads to the place after it (`Position.advance_start`), and
moving over two texts in turn is moving over both at once, unless the cut divides a carriage
return from its line feed (`Position.advance_append`).
-/
namespace LayoutLexer

open CharClass

namespace Text

/-- The number of line breaks: a carriage return with its line feed is one, and so is either of
them alone. -/
def lineBreaks : Text → Nat
  | [] => 0
  | '\r' :: '\n' :: rest => lineBreaks rest + 1
  | c :: rest => lineBreaks rest + if isLineBreak c then 1 else 0

/-- What follows the last line break. -/
def lastLine (t : Text) : Text := t.rtakeWhile fun c => !isLineBreak c

variable {c : Char} {s t : Text}

/-- A carriage return before a line feed adds nothing to the count. -/
theorem lineBreaks_cons_of_pair (hc : c = '\r') (ht : t.head? = some '\n') :
    lineBreaks (c :: t) = lineBreaks t := by
  obtain ⟨rest, rfl⟩ := List.head?_eq_some_iff.1 ht
  subst hc
  rfl

theorem lineBreaks_cons (h : ¬ (c = '\r' ∧ t.head? = some '\n')) :
    lineBreaks (c :: t) = lineBreaks t + if isLineBreak c then 1 else 0 := by
  rw [lineBreaks.eq_def]
  split
  · next heq => cases heq
  · next rest heq =>
    cases heq
    exact absurd ⟨rfl, rfl⟩ h
  · next heq =>
    cases heq
    rfl

theorem lineBreaks_of_inline (h : t.Inline) : lineBreaks t = 0 := by
  induction t with
  | nil => rfl
  | cons c t ih =>
    have hc : isLineBreak c = false := h c List.mem_cons_self
    have hreturn : c ≠ '\r' := by
      rintro rfl
      cases hc
    rw [lineBreaks_cons fun hpair => hreturn hpair.1, hc,
      ih fun d hd => h d (List.mem_cons_of_mem c hd)]
    rfl

theorem lastLine_of_inline (h : t.Inline) : t.lastLine = t :=
  List.rtakeWhile_eq_self_iff.2 fun c hc => by rw [h c hc]; rfl

theorem lastLine_append_of_inline (h : t.Inline) : (s ++ t).lastLine = s.lastLine ++ t := by
  unfold lastLine List.rtakeWhile
  rw [List.reverse_append, List.takeWhile_append_of_pos, List.reverse_append, List.reverse_reverse]
  intro c hc
  rw [h c (List.mem_reverse.1 hc)]
  rfl

/-- What comes before a line break does not matter to the last line. -/
theorem lastLine_append_of_not_inline (h : ¬ t.Inline) : (s ++ t).lastLine = t.lastLine := by
  obtain ⟨c, hc, hbreak⟩ : ∃ c ∈ t, isLineBreak c = true := by
    by_contra hnone
    exact h fun c hc => Bool.eq_false_iff.2 fun hbreak => hnone ⟨c, hc, hbreak⟩
  unfold lastLine List.rtakeWhile
  rw [List.reverse_append, List.takeWhile_append, if_neg]
  intro hlength
  have hall := List.takeWhile_eq_self_iff.1 (List.takeWhile_prefix _ |>.eq_of_length hlength)
  have := hall c (List.mem_reverse.2 hc)
  simp [hbreak] at this

theorem lastLine_cons_of_not_inline (h : ¬ t.Inline) : lastLine (c :: t) = t.lastLine :=
  lastLine_append_of_not_inline (s := [c]) h

theorem lastLine_cons_of_break (hc : isLineBreak c = true) (h : t.Inline) :
    lastLine (c :: t) = t := by
  have hcut := lastLine_append_of_inline (s := [c]) h
  rw [List.singleton_append] at hcut
  rw [hcut]
  simp [lastLine, List.rtakeWhile, hc]

end Text

namespace Position

open Text

/-- The place after a text. -/
def after (t : Text) : Position := ⟨t.byteLength, 1 + t.lineBreaks, 1 + t.lastLine.length⟩

variable {p : Position} {c : Char} {s t : Text}

/-- Moving over a line break starts the columns anew. -/
theorem advance_of_not_inline (p : Position) (h : ¬ Inline t) :
    p.advance t =
      ⟨p.offset + t.byteLength, p.line + t.lineBreaks, 1 + t.lastLine.length⟩ := by
  induction t generalizing p with
  | nil => exact absurd inline_nil h
  | cons c t ih =>
    rw [advance_cons, byteLength_cons, ← Nat.add_assoc]
    by_cases hpair : c = '\r' ∧ t.head? = some '\n'
    · -- the line feed is still to come and counts for both
      have hfeed : ¬ Inline t := not_inline_of_mem (List.mem_of_mem_head? hpair.2) rfl
      rw [ih _ hfeed, lineBreaks_cons_of_pair hpair.1 hpair.2, lastLine_cons_of_not_inline hfeed,
        step, if_pos hpair]
    · rw [lineBreaks_cons hpair, step, if_neg hpair]
      by_cases hbreak : isLineBreak c = true
      · rw [if_pos hbreak, if_pos hbreak]
        by_cases hinline : Inline t
        · rw [advance_eq_along _ hinline, lineBreaks_of_inline hinline,
            lastLine_cons_of_break hbreak hinline]
          simp [along, Distance.past, Distance.zero]
        · rw [ih _ hinline, lastLine_cons_of_not_inline hinline]
          dsimp only
          rw [Nat.add_assoc p.line, Nat.add_comm 1]
      · have htail : ¬ Inline t := fun hinline => h (hinline.cons (Bool.eq_false_iff.2 hbreak))
        rw [if_neg hbreak, if_neg hbreak, ih _ htail, lastLine_cons_of_not_inline htail]
        rfl

/-- Moving over a text from the beginning leads to the place after it. -/
theorem advance_start (t : Text) : start.advance t = after t := by
  by_cases h : Inline t
  · rw [advance_eq_along _ h, after, lineBreaks_of_inline h, lastLine_of_inline h]
    simp [along, start, Distance.past, Distance.zero]
  · rw [advance_of_not_inline _ h, after]
    simp [start]

/-- Moving over two texts in turn is moving over both at once, unless the cut divides a line
break. -/
theorem advance_append (p : Position) (h : ¬ SplitsBreak s t) :
    p.advance (s ++ t) = (p.advance s).advance t := by
  induction s generalizing p with
  | nil => rfl
  | cons c s ih =>
    rw [List.cons_append, advance_cons, advance_cons]
    by_cases hnil : s = []
    · subst hnil
      have hstep : p.step c t.head? = p.step c none := by
        have hcut : ¬ (c = '\r' ∧ t.head? = some '\n') :=
          fun hpair => h ⟨by rw [hpair.1]; rfl, hpair.2⟩
        simp [step, hcut]
      rw [List.nil_append, hstep]
      rfl
    · have hhead : (s ++ t).head? = s.head? := by
        obtain ⟨d, u, rfl⟩ := List.exists_cons_of_ne_nil hnil
        rfl
      rw [hhead, ih _ fun hsplit => h ((splitsBreak_append_left (s := [c]) hnil).2 hsplit)]

theorem after_append (h : ¬ SplitsBreak s t) : after (s ++ t) = (after s).advance t := by
  rw [← advance_start, advance_append _ h, advance_start]

end Position
end LayoutLexer

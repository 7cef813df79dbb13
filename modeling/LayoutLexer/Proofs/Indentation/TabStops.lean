import LayoutLexer.Proofs.LineWidth
import Mathlib.Data.List.Induction
import Mathlib.Order.Bounds.Basic

/-! # Widths by tab stops

The exact width of a run is told by the tab stops alone (`Width.byStops_iff`): a tab moves to the
least multiple of the tab width beyond the width so far, and any other character one column on.
So widths grow with the run, and after a run that ends on a stop they start afresh
(`Width.exact_append_of_dvd`).

The checked width is computed in sixty-four bits, and a tab step goes through two intermediate
results, the number of the next stop and its column.  Neither is greater than the new width, so
the computation is hindered only by a width that does not fit, and the character at which that
happens tells which operation it was (`Width.checked_eq_error`).
-/
namespace LayoutLexer
namespace Width

variable {tabWidth width base : Nat} {c : Char} {run more : Text}

/-- A width for each run: an empty run has none, a tab moves to the least multiple of the tab
width beyond the width so far, and any other character one column on. -/
structure ByStops (tabWidth : Nat) (W : Text → Nat) : Prop where
  nil : W [] = 0
  tab : ∀ run, IsLeast {stop | W run < stop ∧ max tabWidth 1 ∣ stop} (W (run ++ ['\t']))
  other : ∀ run c, c ≠ '\t' → W (run ++ [c]) = W run + 1

/-- In the computation of the width of a run all intermediate results fit: at a tab the number of
the next stop and its column, at any other character the next column. -/
def Unhindered (tabWidth : Nat) (run : Text) : Prop :=
  ∀ before c after, run = before ++ c :: after →
    if c = '\t' then
      exact tabWidth before / tabStop tabWidth + 1 < 2 ^ 64 ∧
        (exact tabWidth before / tabStop tabWidth + 1) * tabStop tabWidth < 2 ^ 64
    else exact tabWidth before + 1 < 2 ^ 64

/-- The operation that overflows at a character.  Where tabs are one column wide, the number of
the next stop is its column. -/
def overflowAt (tabWidth : Nat) (c : Char) : Overflow :=
  if c = '\t' ∧ tabStop tabWidth ≠ 1 then .multiplication else .addition

/-! ## The exact width -/

theorem exact_append :
    exact tabWidth (run ++ more) = more.foldl (exactStep tabWidth) (exact tabWidth run) :=
  List.foldl_append

theorem exact_concat :
    exact tabWidth (run ++ [c]) = exactStep tabWidth (exact tabWidth run) c :=
  exact_append

theorem exactStep_tab :
    exactStep tabWidth width '\t' = (width / tabStop tabWidth + 1) * tabStop tabWidth :=
  if_pos rfl

theorem exactStep_of_ne (h : c ≠ '\t') : exactStep tabWidth width c = width + 1 := if_neg h

/-- A tab moves to the next stop. -/
theorem isLeast_exactStep_tab :
    IsLeast {stop | width < stop ∧ tabStop tabWidth ∣ stop} (exactStep tabWidth width '\t') := by
  have hpos := tabStop_pos tabWidth
  rw [exactStep_tab]
  constructor
  · refine ⟨?_, Nat.dvd_mul_left _ _⟩
    rw [Nat.mul_comm]
    exact Nat.lt_mul_div_succ width hpos
  · rintro _ ⟨hlt, k, rfl⟩
    -- a stop beyond the width has a greater number than the stop before the width
    have hnumber : width / tabStop tabWidth < k := Nat.div_lt_of_lt_mul hlt
    rw [Nat.mul_comm (tabStop tabWidth)]
    exact Nat.mul_le_mul_right _ hnumber

theorem lt_exactStep : width < exactStep tabWidth width c := by
  by_cases hc : c = '\t'
  · subst hc
    exact isLeast_exactStep_tab.1.1
  · rw [exactStep_of_ne hc]
    exact Nat.lt_succ_self width

/-- From a stop on, steps go as they do from the start of a line. -/
theorem exactStep_add (h : tabStop tabWidth ∣ base) :
    exactStep tabWidth (base + width) c = base + exactStep tabWidth width c := by
  obtain ⟨k, rfl⟩ := h
  by_cases hc : c = '\t'
  · subst hc
    rw [exactStep_tab, exactStep_tab, Nat.mul_add_div (tabStop_pos tabWidth), Nat.add_assoc,
      Nat.add_mul, Nat.mul_comm k]
  · rw [exactStep_of_ne hc, exactStep_of_ne hc, Nat.add_assoc]

/-- A longer run is wider. -/
theorem exact_lt_append (h : more ≠ []) :
    exact tabWidth run < exact tabWidth (run ++ more) := by
  obtain ⟨c, more, rfl⟩ := List.exists_cons_of_ne_nil h
  rw [exact_append, List.foldl_cons]
  exact Nat.lt_of_lt_of_le lt_exactStep le_foldl_exactStep

theorem exact_le_append : exact tabWidth run ≤ exact tabWidth (run ++ more) := by
  rw [exact_append]
  exact le_foldl_exactStep

/-- After a run that ends on a stop widths add up. -/
theorem exact_append_of_dvd (h : tabStop tabWidth ∣ exact tabWidth run) :
    exact tabWidth (run ++ more) = exact tabWidth run + exact tabWidth more := by
  induction more using List.reverseRecOn with
  | nil => simp
  | append_singleton more c ih =>
    rw [← List.append_assoc, exact_concat, exact_concat, ih, exactStep_add h]

theorem byStops_exact : ByStops tabWidth (exact tabWidth) where
  nil := rfl
  tab run := by
    rw [exact_concat]
    exact isLeast_exactStep_tab
  other run c hc := by rw [exact_concat, exactStep_of_ne hc]

/-- The tab stops tell the width of every run. -/
theorem byStops_iff {W : Text → Nat} : ByStops tabWidth W ↔ W = exact tabWidth := by
  constructor
  · intro h
    funext run
    induction run using List.reverseRecOn with
    | nil => exact h.nil
    | append_singleton run c ih =>
      by_cases hc : c = '\t'
      · subst hc
        have htab := h.tab run
        rw [ih] at htab
        exact htab.unique (byStops_exact.tab run)
      · rw [h.other run c hc, byStops_exact.other run c hc, ih]
  · rintro rfl
    exact byStops_exact

/-! ## The checked width -/

/-- If the width of a run fits, so do all intermediate results on the way. -/
theorem unhindered_of_lt (h : exact tabWidth run < 2 ^ 64) : Unhindered tabWidth run := by
  rintro before c after rfl
  have hstep : exactStep tabWidth (exact tabWidth before) c < 2 ^ 64 := by
    refine Nat.lt_of_le_of_lt ?_ h
    rw [← exact_concat, List.append_cons before c after]
    exact exact_le_append
  by_cases hc : c = '\t'
  · subst hc
    rw [if_pos rfl]
    rw [exactStep_tab] at hstep
    have hnumber := Nat.le_mul_of_pos_right (exact tabWidth before / tabStop tabWidth + 1)
      (tabStop_pos tabWidth)
    exact ⟨by omega, hstep⟩
  · rw [if_neg hc, ← exactStep_of_ne hc]
    exact hstep

/-- Where the width of a run does not fit, there is a first character at which it does not. -/
theorem exists_first_overflow (h : 2 ^ 64 ≤ exact tabWidth run) :
    ∃ before c after, run = before ++ c :: after ∧ exact tabWidth before < 2 ^ 64 ∧
      2 ^ 64 ≤ exact tabWidth (before ++ [c]) := by
  induction run using List.reverseRecOn with
  | nil => exact absurd h (by simp)
  | append_singleton run c ih =>
    rcases Nat.lt_or_ge (exact tabWidth run) (2 ^ 64) with hfits | hlarge
    · exact ⟨run, c, [], rfl, hfits, h⟩
    · obtain ⟨before, d, after, rfl, hbefore, hafter⟩ := ih hlarge
      exact ⟨before, d, after ++ [c], by simp, hbefore, hafter⟩

theorem checkedFrom_append {n : Nat} (h : checkedFrom tabWidth width run = .ok n) :
    checkedFrom tabWidth width (run ++ more) = checkedFrom tabWidth n more := by
  induction run generalizing width with
  | nil =>
    cases h
    rfl
  | cons c run ih =>
    rw [checkedFrom] at h
    rw [List.cons_append, checkedFrom]
    cases hstep : checkedStep tabWidth width c with
    | error e =>
      rw [hstep] at h
      cases h
    | ok next =>
      rw [hstep] at h
      exact ih h

/-- At a tab the number of the next stop overflows only where tabs are one column wide, and the
column of the stop everywhere else. -/
theorem checkedStep_eq_error (hfits : width < 2 ^ 64)
    (hlarge : 2 ^ 64 ≤ exactStep tabWidth width c) :
    checkedStep tabWidth width c = .error (overflowAt tabWidth c) := by
  have hlimit : Checked.limit = 2 ^ 64 := rfl
  unfold checkedStep overflowAt
  by_cases hc : c = '\t'
  · subst hc
    rw [exactStep_tab] at hlarge
    rw [if_pos rfl, Checked.add]
    by_cases hone : tabStop tabWidth = 1
    · rw [hone, Nat.div_one, Nat.mul_one] at hlarge
      rw [hone, Nat.div_one, if_neg (by omega), if_neg fun h => h.2 rfl]
    · have hpos := tabStop_pos tabWidth
      have hhalf : width / tabStop tabWidth ≤ width / 2 := Nat.div_le_div_left (by omega) (by omega)
      rw [if_pos (by omega), if_pos ⟨rfl, hone⟩]
      exact if_neg (by omega)
  · rw [exactStep_of_ne hc] at hlarge
    rw [if_neg hc, if_neg fun h => hc h.1, Checked.add, if_neg (by omega)]

/-- The width of a run overflows at the first character that makes it too wide. -/
theorem checked_eq_error {before after : Text} (hfits : exact tabWidth before < 2 ^ 64)
    (hlarge : 2 ^ 64 ≤ exact tabWidth (before ++ [c])) :
    checked tabWidth (before ++ c :: after) = .error (overflowAt tabWidth c) := by
  have hbefore : checkedFrom tabWidth 0 before = .ok (exact tabWidth before) :=
    checked_eq_ok_iff.2 ⟨hfits, rfl⟩
  rw [exact_concat] at hlarge
  rw [checked, checkedFrom_append hbefore, checkedFrom, checkedStep_eq_error hfits hlarge]

/-- **The width of an indentation is exact.**  The exact width is the one that the tab stops tell.
If it fits sixty-four bits, the checked width is computed without a result that does not fit, and
is the same; if it does not, the computation overflows, at the first character that makes the run
too wide.  Widths grow strictly with the run, and they add up after a run that ends on a stop. -/
theorem checked_width_exact (tabWidth : Nat) :
    (∀ W, ByStops tabWidth W ↔ W = exact tabWidth) ∧
    (∀ run, exact tabWidth run < 2 ^ 64 →
      checked tabWidth run = .ok (exact tabWidth run) ∧ Unhindered tabWidth run) ∧
    (∀ run, 2 ^ 64 ≤ exact tabWidth run →
      ∃ before c after, run = before ++ c :: after ∧ exact tabWidth before < 2 ^ 64 ∧
        2 ^ 64 ≤ exact tabWidth (before ++ [c]) ∧
        checked tabWidth run = .error (overflowAt tabWidth c)) ∧
    (∀ run more, more ≠ [] → exact tabWidth run < exact tabWidth (run ++ more)) ∧
    ∀ run more, max tabWidth 1 ∣ exact tabWidth run →
      exact tabWidth (run ++ more) = exact tabWidth run + exact tabWidth more := by
  refine ⟨fun W => byStops_iff, fun run hfits => ?_, fun run hlarge => ?_,
    fun run more => exact_lt_append, fun run more => exact_append_of_dvd⟩
  · exact ⟨checked_eq_ok_iff.2 ⟨hfits, rfl⟩, unhindered_of_lt hfits⟩
  · obtain ⟨before, c, after, rfl, hbefore, hafter⟩ := exists_first_overflow hlarge
    exact ⟨before, c, after, rfl, hbefore, hafter, checked_eq_error hbefore hafter⟩

/-- Where one tab takes half of what fits, a second one overflows in its column; a space after the
first tab is one column more. -/
theorem checked_width_exact_widest_tabs :
    let tabWidth := 2 ^ 63
    exact tabWidth ['\t'] < 2 ^ 64 ∧ checked tabWidth ['\t'] = .ok (2 ^ 63) ∧
      2 ^ 64 ≤ exact tabWidth ['\t', '\t'] ∧
      checked tabWidth ['\t', '\t'] = .error .multiplication ∧
      exact tabWidth [' '] < exact tabWidth [' ', '\t'] ∧
      max tabWidth 1 ∣ exact tabWidth ['\t'] ∧ exact tabWidth ['\t', ' '] = 2 ^ 63 + 1 := by
  intro tabWidth
  obtain ⟨-, hfits, hlarge, hgrows, hadds⟩ := checked_width_exact tabWidth
  have hone : exact tabWidth ['\t'] = 2 ^ 63 := by decide
  have htab : exact tabWidth ['\t'] < 2 ^ 64 := by decide
  have htabs : 2 ^ 64 ≤ exact tabWidth ['\t', '\t'] := by decide
  have hstop : max tabWidth 1 ∣ exact tabWidth ['\t'] := by decide
  have hsum := hadds ['\t'] [' '] hstop
  obtain ⟨before, c, after, hrun, -, -, herror⟩ := hlarge _ htabs
  obtain rfl : c = '\t' := by
    have hmem : c ∈ ['\t', '\t'] := by rw [hrun]; simp
    simpa using hmem
  rw [hone] at hsum
  exact ⟨htab, hone ▸ (hfits _ htab).1, htabs, herror, hgrows [' '] ['\t'] (by decide), hstop, hsum⟩

end Width
end LayoutLexer

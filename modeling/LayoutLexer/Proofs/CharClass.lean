import LayoutLexer.CharClass
import LayoutLexer.Text.Quoted
import Mathlib.Tactic.SplitIfs

/-! # Classes of characters

Looking a character up in a table stops at the first range that begins after it.  That loses
nothing, since the tables are sorted: a character is found just if some range of the table holds
it (`Unicode.contains_iff`).

One class of characters lies within another if every range of its table lies within a range of the
other table.  That is decided in one pass over both tables (`RangeTable.within`), so that a fact
about all characters is a computation on a few hundred ranges.  A class of ASCII characters is
small enough to be looked up one by one.
-/
namespace LayoutLexer

namespace Unicode.RangeTable

/-! ## Sorted tables -/

theorem sorted_cons_iff {low high : Nat} {t : RangeTable} :
    Sorted ((low, high) :: t) = true ↔
      low ≤ high ∧ (∀ next ∈ t.head?, high < next.1) ∧ Sorted t = true := by
  cases t with
  | nil => simp [Sorted]
  | cons next t =>
    obtain ⟨low', high'⟩ := next
    simp [Sorted, and_assoc]

/-- Every range of a sorted table begins after those before it. -/
theorem lt_of_sorted {low high : Nat} {t : RangeTable} (h : Sorted ((low, high) :: t) = true)
    {range : Nat × Nat} (hrange : range ∈ t) : high < range.1 := by
  induction t generalizing low high with
  | nil => cases hrange
  | cons next t ih =>
    obtain ⟨_, hnext, hsorted⟩ := sorted_cons_iff.1 h
    have hfirst : high < next.1 := hnext next rfl
    rcases List.mem_cons.1 hrange with rfl | hlater
    · exact hfirst
    · have hle : next.1 ≤ next.2 := (sorted_cons_iff.1 hsorted).1
      have hlast : next.2 < range.1 := ih hsorted hlater
      omega

/-- A sorted table covers what lies in one of its ranges, and nothing else. -/
theorem covers_iff_of_sorted {t : RangeTable} (h : Sorted t = true) {n : Nat} :
    covers t n = true ↔ ∃ range ∈ t, range.1 ≤ n ∧ n ≤ range.2 := by
  induction t with
  | nil => simp
  | cons first t ih =>
    obtain ⟨low, high⟩ := first
    obtain ⟨hle, _, hsorted⟩ := sorted_cons_iff.1 h
    simp only [covers_cons, List.mem_cons, exists_eq_or_imp]
    by_cases hlow : n < low
    · -- before the first range is before all of them
      rw [if_pos hlow]
      refine iff_of_false Bool.false_ne_true ?_
      rintro (⟨hfirst, _⟩ | ⟨range, hrange, hlater, _⟩)
      · omega
      · have := lt_of_sorted h hrange
        omega
    · have hfirst : low ≤ n := Nat.le_of_not_lt hlow
      rw [if_neg hlow, Bool.or_eq_true, decide_eq_true_eq, ih hsorted]
      simp only [hfirst, true_and]

/-! ## Tables within tables -/

/-- The ranges from the first one that does not end before a code point. -/
def reaching (low : Nat) (u : RangeTable) : RangeTable :=
  u.dropWhile fun range => range.1 ≤ range.2 && range.2 < low

/-- Whether every range lies within one range of the other table. -/
def within : RangeTable → RangeTable → Bool
  | [], _ => true
  | (low, high) :: t, u =>
    match reaching low u with
    | [] => false
    | (low', high') :: u' => low' ≤ low && high ≤ high' && within t ((low', high') :: u')

/-- What ends before a code point does not cover it. -/
theorem covers_of_reaching {low n : Nat} (hlow : low ≤ n) {u : RangeTable}
    (h : covers (reaching low u) n = true) : covers u n = true := by
  induction u with
  | nil => exact h
  | cons range u ih =>
    obtain ⟨first, last⟩ := range
    rw [reaching, List.dropWhile_cons] at h
    split at h
    · next hpass =>
      obtain ⟨hrange, hbefore⟩ : first ≤ last ∧ last < low := by simpa using hpass
      have habove : ¬ n < first := by omega
      rw [covers_cons, if_neg habove, ih h, Bool.or_true]
    · exact h

/-- What a table covers, a table that it lies within covers too. -/
theorem covers_of_within {t u : RangeTable} (h : within t u = true) {n : Nat}
    (hn : covers t n = true) : covers u n = true := by
  induction t generalizing u with
  | nil => cases hn
  | cons range t ih =>
    obtain ⟨low, high⟩ := range
    rw [covers_cons] at hn
    split at hn
    · cases hn
    · next hlow =>
      refine covers_of_reaching (Nat.le_of_not_lt hlow) ?_
      rw [within] at h
      cases hrest : reaching low u with
      | nil =>
        rw [hrest] at h
        cases h
      | cons range' u' =>
        obtain ⟨low', high'⟩ := range'
        rw [hrest] at h
        simp only [Bool.and_eq_true, decide_eq_true_eq] at h
        obtain ⟨⟨hfirst, hlast⟩, hwithin⟩ := h
        rcases (by simpa using hn : n ≤ high ∨ covers t n = true) with hhigh | hcovers
        · have habove : ¬ n < low' := by omega
          have hbelow : n ≤ high' := by omega
          rw [covers_cons, if_neg habove, decide_eq_true hbelow, Bool.true_or]
        · exact ih hwithin hcovers

end Unicode.RangeTable

/-- A character is found in a table just if one of its ranges holds it. -/
theorem Unicode.contains_iff {t : RangeTable} {c : Char}
    (ht : t ∈ [alphabetic, uppercase, numeric, marks, unprintable]) :
    t.contains c = true ↔ ∃ range ∈ t, range.1 ≤ c.toNat ∧ c.toNat ≤ range.2 := by
  have hsorted :
      [alphabetic, uppercase, numeric, marks, unprintable].all RangeTable.Sorted = true := by
    decide +kernel
  exact RangeTable.covers_iff_of_sorted (List.all_eq_true.1 hsorted t ht)

namespace CharClass

open Unicode RangeTable

variable {c : Char}

/-- Every uppercase letter is a letter. -/
theorem isAlphabetic_of_isUpperStart (h : isUpperStart c = true) : isAlphabetic c = true := by
  have hwithin : within uppercase alphabetic = true := by decide +kernel
  exact covers_of_within hwithin h

theorem isDecimalDigit_iff : isDecimalDigit c = true ↔ '0' ≤ c ∧ c ≤ '9' := by
  simp only [isDecimalDigit, Bool.and_eq_true, decide_eq_true_eq]

/-- A decimal digit or an ASCII letter of either case that has a value below the radix; the letters
go on from ten. -/
def IsRadixDigit (radix : Nat) (c : Char) : Prop :=
  ('0' ≤ c ∧ c ≤ '9' ∧ c.toNat - '0'.toNat < radix) ∨
    ('a' ≤ c ∧ c ≤ 'z' ∧ c.toNat - 'a'.toNat + 10 < radix) ∨
    ('A' ≤ c ∧ c ≤ 'Z' ∧ c.toNat - 'A'.toNat + 10 < radix)

theorem isRadixDigit_iff {radix : Nat} : isRadixDigit radix c = true ↔ IsRadixDigit radix c := by
  have hle (a b : Char) : a ≤ b ↔ a.toNat ≤ b.toNat := Iff.rfl
  unfold isRadixDigit digitValue? IsRadixDigit
  simp only [hle, Bool.and_eq_true, decide_eq_true_eq, Char.reduceToNat]
  split_ifs <;> simp only [decide_eq_true_eq, false_iff] <;> omega

/-- The digits of a radix by their codes. -/
theorem isRadixDigit_iff_toNat {radix : Nat} : isRadixDigit radix c = true ↔
    (48 ≤ c.toNat ∧ c.toNat ≤ 57 ∧ c.toNat - 48 < radix) ∨
      (97 ≤ c.toNat ∧ c.toNat ≤ 122 ∧ c.toNat - 97 + 10 < radix) ∨
      (65 ≤ c.toNat ∧ c.toNat ≤ 90 ∧ c.toNat - 65 + 10 < radix) :=
  isRadixDigit_iff

/-- The digits of radix ten are the decimal digits. -/
theorem isRadixDigit_ten : isRadixDigit 10 = isDecimalDigit := by
  funext c
  have hdecimal : '0' ≤ c ∧ c ≤ '9' ↔ 48 ≤ c.toNat ∧ c.toNat ≤ 57 := Iff.rfl
  rw [Bool.eq_iff_iff, isRadixDigit_iff_toNat, isDecimalDigit_iff, hdecimal]
  omega

/-- The digits of a radix are letters and digits of ASCII, and so they are word characters. -/
theorem isWordChar_of_isRadixDigit {radix : Nat} (h : isRadixDigit radix c = true) :
    isWordChar c = true := by
  have hall : ∀ n < 123, isRadixDigit 36 (Char.ofNat n) = true →
      isWordChar (Char.ofNat n) = true := by decide +kernel
  rw [isRadixDigit_iff_toNat] at h
  have hascii : c.toNat < 123 := by omega
  have hwide : isRadixDigit 36 c = true := isRadixDigit_iff_toNat.2 (by omega)
  rw [← Char.ofNat_toNat c] at hwide ⊢
  exact hall c.toNat hascii hwide

/-- The hexadecimal digits have their values. -/
theorem digitValue?_digitChar {k : Nat} (h : k < 16) : digitValue? k.digitChar = some k := by
  revert k; decide

end CharClass
end LayoutLexer

import LayoutLexer.Proofs.Grammar.Number
import Mathlib.Data.Nat.Digits.Defs

/-! # How numbers are written

The declared grammar of integers and floats, form by form, and the rules that read them.  Each
rule answers with the longest beginning of a text that has one of its forms, and fails only if
none has (`Number.numerals_longest`).

A rule tries its forms in order and keeps the first one that succeeds.  What is a letter in one
form may be a digit in another, and a radix that is out of range is no radix at all, so it is the
grammar and not the order of trials that says how far a number goes.
-/
namespace LayoutLexer

open CharClass Recognizer Words

namespace Recognizer

/-- The recognizer answers with the longest beginning of a text that has a form, and fails only
where none has it. -/
structure FindsLongest (r : Recognizer) (Form : Text → Prop) : Prop where
  found : ∀ s m rest, r s = some (m, rest) ↔
    m ++ rest = s ∧ Form m ∧ ∀ t, t <+: s → Form t → t.length ≤ m.length
  nothing : ∀ s, r s = none ↔ ∀ t, t <+: s → ¬ Form t

/-- A recognizer that takes the longest word finds the longest text of the form of its words. -/
theorem TakesLongest.findsLongest {r : Recognizer} {L : Language Char} {Form : Text → Prop}
    (h : TakesLongest r L) (hform : ∀ t, t ∈ L ↔ Form t) : FindsLongest r Form where
  found s m rest := by
    constructor
    · intro hr
      refine ⟨h.splits hr, (hform m).1 (h.mem hr), ?_⟩
      intro t ht htform
      obtain ⟨m', rest', hr', hpre⟩ := h.longest ((hform t).2 htform) ht
      rw [hr] at hr'
      cases hr'
      exact hpre.length_le
    · rintro ⟨rfl, hm, hmax⟩
      obtain ⟨m', rest', hr, hpre⟩ := h.longest ((hform m).2 hm) (List.prefix_append m rest)
      have happ := h.splits hr
      have hle := hmax m' ⟨rest', happ⟩ ((hform m').1 (h.mem hr))
      -- the answer begins with the given text and is no longer
      obtain rfl := hpre.eq_of_length_le hle
      rw [hr, List.append_cancel_left happ]
  nothing s := by
    constructor
    · intro hr t ht htform
      obtain ⟨m, rest, hr', _⟩ := h.longest ((hform t).2 htform) ht
      rw [hr] at hr'
      cases hr'
    · intro hno
      cases hr : r s with
      | none => rfl
      | some split =>
        obtain ⟨m, rest⟩ := split
        exact absurd ((hform m).1 (h.mem hr)) (hno m ⟨rest, h.splits hr⟩)

end Recognizer

namespace Number

/-! ## The forms -/

/-- An ASCII decimal digit. -/
def IsDecimal (c : Char) : Prop := '0' ≤ c ∧ c ≤ '9'

/-- Digits, of which there is at least one. -/
def IsRun (IsDigit : Char → Prop) (t : Text) : Prop := t ≠ [] ∧ ∀ c ∈ t, IsDigit c

/-- Digits in groups: a run, and any number of runs each after an underscore. -/
def Groups (IsDigit : Char → Prop) (t : Text) : Prop :=
  ∃ run runs, IsRun IsDigit run ∧ (∀ next ∈ runs, IsRun IsDigit next) ∧ t = run ++ joined runs

/-- The value of a run of decimal digits, of which the last one counts the units. -/
def valueOf (digits : Text) : Nat :=
  Nat.ofDigits 10 (digits.reverse.map fun c => c.toNat - '0'.toNat)

/-- The letters for kilo, mega, giga, tera and peta. -/
def magnitudes : List Char := ['k', 'M', 'G', 'T', 'P']

/-- The letters for milli, micro, nano, pico, femto and atto. -/
def fractionalMagnitudes : List Char := ['m', 'u', 'n', 'p', 'f', 'a']

/-- One letter of some. -/
def OneOf (letters : List Char) (t : Text) : Prop := ∃ c ∈ letters, t = [c]

/-- Digits of a radix from one to thirty-two, in groups; only radix ten has magnitudes. -/
def IsDigitsOf (radix : Nat) (t : Text) : Prop :=
  (1 ≤ radix ∧ radix ≤ 32) ∧ ∃ digits magnitude, Groups (IsRadixDigit radix) digits ∧
    (magnitude = [] ∨ radix = 10 ∧ OneOf magnitudes magnitude) ∧ t = digits ++ magnitude

/-- What is written as an integer. -/
inductive IsInteger : Text → Prop
  | radix {radix digits : Text} : IsRun IsDecimal radix → IsDigitsOf (valueOf radix) digits →
      IsInteger (radix ++ 'r' :: digits)
  | decimal {digits magnitude : Text} :
      Groups IsDecimal digits → magnitude = [] ∨ OneOf magnitudes magnitude →
      IsInteger (digits ++ magnitude)

/-- What may end a float with a point. -/
inductive IsFloatEnding : Text → Prop
  | exponent {letter : Char} {sign digits : Text} :
      letter = 'E' ∨ letter = 'e' → sign = [] ∨ sign = ['+'] ∨ sign = ['-'] →
      IsRun IsDecimal digits → IsFloatEnding (letter :: (sign ++ digits))
  | magnitude {c : Char} : c ∈ magnitudes → IsFloatEnding [c]
  | fractionalMagnitude {c : Char} : c ∈ fractionalMagnitudes → IsFloatEnding [c]

/-- What is written as a float. -/
inductive IsFloat : Text → Prop
  | point {whole fraction ending : Text} :
      Groups IsDecimal whole → Groups IsDecimal fraction →
      ending = [] ∨ IsFloatEnding ending → IsFloat (whole ++ '.' :: (fraction ++ ending))
  | fractionalMagnitude {digits : Text} {c : Char} :
      Groups IsDecimal digits → c ∈ fractionalMagnitudes → IsFloat (digits ++ [c])

/-! ## The words have these forms -/

variable {isDigit : Char → Bool} {IsDigit : Char → Prop} {t : Text}

/-- The runs of a class are the runs of the digits that it tells. -/
theorem mem_someOf_iff (h : ∀ c, isDigit c = true ↔ IsDigit c) :
    t ∈ someOf isDigit ↔ IsRun IsDigit t :=
  and_congr_right fun _ => forall₂_congr fun c _ => h c

theorem mem_digitGroupsWords_iff (h : ∀ c, isDigit c = true ↔ IsDigit c) :
    t ∈ digitGroupsWords isDigit ↔ Groups IsDigit t := by
  constructor
  · rintro ⟨run, hrun, _, hjoined, rfl⟩
    obtain ⟨runs, hruns, rfl⟩ := mem_kstar_iff_joined.1 hjoined
    exact ⟨run, runs, (mem_someOf_iff h).1 hrun,
      fun next hnext => (mem_someOf_iff h).1 (hruns next hnext), rfl⟩
  · rintro ⟨run, runs, hrun, hruns, rfl⟩
    exact ⟨run, (mem_someOf_iff h).2 hrun, _, mem_kstar_iff_joined.2
      ⟨runs, fun next hnext => (mem_someOf_iff h).2 (hruns next hnext), rfl⟩, rfl⟩

theorem mem_someOf_isDecimalDigit_iff : t ∈ someOf isDecimalDigit ↔ IsRun IsDecimal t :=
  mem_someOf_iff fun _ => isDecimalDigit_iff

theorem mem_decimalGroupsWords_iff : t ∈ decimalGroupsWords ↔ Groups IsDecimal t :=
  mem_digitGroupsWords_iff fun _ => isDecimalDigit_iff

theorem mem_add_one_iff {L : Language Char} : t ∈ L + 1 ↔ t = [] ∨ t ∈ L := by
  rw [Language.mem_add, Language.mem_one]
  exact or_comm

theorem mem_magnitude_iff : t ∈ oneOf isMagnitude + 1 ↔ t = [] ∨ OneOf magnitudes t := by
  rw [mem_add_one_iff]
  exact or_congr_right (exists_congr fun _ => and_congr_left' isMagnitude_iff)

/-- The value that is summed up from the left is the value of the digits from the right. -/
theorem decimalValue_eq_valueOf (digits : Text) : decimalValue digits = valueOf digits := by
  induction digits using List.reverseRecOn with
  | nil => rfl
  | append_singleton digits c ih =>
    have hleft : decimalValue (digits ++ [c]) =
        decimalValue digits * 10 + (c.toNat - '0'.toNat) := List.foldl_append
    have hright : valueOf (digits ++ [c]) = c.toNat - '0'.toNat + 10 * valueOf digits := by
      unfold valueOf
      rw [List.reverse_append, List.reverse_singleton, List.singleton_append, List.map_cons,
        Nat.ofDigits_cons]
    rw [hleft, hright, ih]
    omega

theorem mem_digitsOfRadixWords_iff {radix : Nat} :
    t ∈ digitsOfRadixWords radix ↔ IsDigitsOf radix t := by
  have hdigits (d : Text) : d ∈ digitGroupsWords (isRadixDigit radix) ↔
      Groups (IsRadixDigit radix) d :=
    mem_digitGroupsWords_iff fun _ => isRadixDigit_iff
  have hmagnitude (m : Text) :
      m ∈ (if radix = 10 then oneOf isMagnitude + 1 else {[]}) ↔
        m = [] ∨ radix = 10 ∧ OneOf magnitudes m := by
    by_cases hten : radix = 10
    · rw [if_pos hten, mem_magnitude_iff]
      simp only [hten, true_and]
    · rw [if_neg hten]
      simp only [hten, false_and, or_false]
      rfl
  unfold digitsOfRadixWords
  by_cases hrange : minRadix ≤ radix ∧ radix ≤ maxRadix
  · rw [if_pos hrange, Language.mem_mul]
    constructor
    · rintro ⟨digits, hd, magnitude, hm, rfl⟩
      exact ⟨hrange, digits, magnitude, (hdigits _).1 hd, (hmagnitude _).1 hm, rfl⟩
    · rintro ⟨_, digits, magnitude, hd, hm, rfl⟩
      exact ⟨digits, (hdigits _).2 hd, magnitude, (hmagnitude _).2 hm, rfl⟩
  · rw [if_neg hrange]
    constructor
    · intro h
      exact absurd h (Language.notMem_zero _)
    · rintro ⟨h, _⟩
      exact absurd h hrange

theorem mem_integerWords_iff : t ∈ integerWords ↔ IsInteger t := by
  constructor
  · rintro (⟨radix, hradix, tail, htail, rfl⟩ | ⟨digits, hdigits, magnitude, hmagnitude, rfl⟩)
    · obtain ⟨digits, hdigits, rfl⟩ := mem_char_mul_iff.1 htail
      rw [decimalValue_eq_valueOf, mem_digitsOfRadixWords_iff] at hdigits
      exact .radix (mem_someOf_isDecimalDigit_iff.1 hradix) hdigits
    · exact .decimal (mem_decimalGroupsWords_iff.1 hdigits) (mem_magnitude_iff.1 hmagnitude)
  · intro h
    cases h with
    | @radix radix digits hradix hdigits =>
      left
      refine ⟨radix, mem_someOf_isDecimalDigit_iff.2 hradix, _,
        mem_char_mul_iff.2 ⟨digits, ?_, rfl⟩, rfl⟩
      rw [decimalValue_eq_valueOf, mem_digitsOfRadixWords_iff]
      exact hdigits
    | @decimal digits magnitude hdigits hmagnitude =>
      right
      exact ⟨digits, mem_decimalGroupsWords_iff.2 hdigits, magnitude,
        mem_magnitude_iff.2 hmagnitude, rfl⟩

theorem mem_exponentWords_iff :
    t ∈ exponentWords ↔ ∃ letter sign digits, (letter = 'E' ∨ letter = 'e') ∧
      (sign = [] ∨ sign = ['+'] ∨ sign = ['-']) ∧ IsRun IsDecimal digits ∧
      t = letter :: (sign ++ digits) := by
  have hsign (sign : Text) : sign ∈ oneOf (fun c => c == '+' || c == '-') + 1 ↔
      sign = [] ∨ sign = ['+'] ∨ sign = ['-'] := by
    rw [mem_add_one_iff]
    refine or_congr_right ?_
    constructor
    · rintro ⟨c, hc, rfl⟩
      simpa using hc
    · rintro (rfl | rfl)
      · exact ⟨'+', rfl, rfl⟩
      · exact ⟨'-', rfl, rfl⟩
  unfold exponentWords
  rw [mem_oneOf_mul_iff]
  constructor
  · rintro ⟨letter, u, hletter, ⟨sign, hs, digits, hdigits, rfl⟩, rfl⟩
    exact ⟨letter, sign, digits, by simpa using hletter, (hsign sign).1 hs,
      mem_someOf_isDecimalDigit_iff.1 hdigits, rfl⟩
  · rintro ⟨letter, sign, digits, hletter, hs, hdigits, rfl⟩
    exact ⟨letter, _, by simpa using hletter, ⟨sign, (hsign sign).2 hs, digits,
      mem_someOf_isDecimalDigit_iff.2 hdigits, rfl⟩, rfl⟩

theorem mem_floatEndingWords_iff : t ∈ floatEndingWords ↔ IsFloatEnding t := by
  constructor
  · rintro (h | ⟨c, hc, rfl⟩ | ⟨c, hc, rfl⟩)
    · obtain ⟨letter, sign, digits, hletter, hsign, hdigits, rfl⟩ := mem_exponentWords_iff.1 h
      exact .exponent hletter hsign hdigits
    · exact .magnitude (isMagnitude_iff.1 hc)
    · exact .fractionalMagnitude (isFractionalMagnitude_iff.1 hc)
  · intro h
    cases h with
    | exponent hletter hsign hdigits =>
      exact .inl (mem_exponentWords_iff.2 ⟨_, _, _, hletter, hsign, hdigits, rfl⟩)
    | magnitude hc => exact .inr (.inl ⟨_, isMagnitude_iff.2 hc, rfl⟩)
    | fractionalMagnitude hc => exact .inr (.inr ⟨_, isFractionalMagnitude_iff.2 hc, rfl⟩)

theorem mem_pointFloatWords_iff :
    t ∈ pointFloatWords ↔ ∃ whole fraction ending, Groups IsDecimal whole ∧
      Groups IsDecimal fraction ∧ (ending = [] ∨ IsFloatEnding ending) ∧
      t = whole ++ '.' :: (fraction ++ ending) := by
  have hending (ending : Text) :
      ending ∈ floatEndingWords + 1 ↔ ending = [] ∨ IsFloatEnding ending := by
    rw [mem_add_one_iff, mem_floatEndingWords_iff]
  constructor
  · rintro ⟨whole, hwhole, tail, htail, rfl⟩
    obtain ⟨_, ⟨fraction, hfraction, ending, he, rfl⟩, rfl⟩ := mem_char_mul_iff.1 htail
    exact ⟨whole, fraction, ending, mem_decimalGroupsWords_iff.1 hwhole,
      mem_decimalGroupsWords_iff.1 hfraction, (hending ending).1 he, rfl⟩
  · rintro ⟨whole, fraction, ending, hwhole, hfraction, he, rfl⟩
    exact ⟨whole, mem_decimalGroupsWords_iff.2 hwhole, _, mem_char_mul_iff.2 ⟨fraction ++ ending,
      ⟨fraction, mem_decimalGroupsWords_iff.2 hfraction, ending, (hending ending).2 he, rfl⟩, rfl⟩,
      rfl⟩

theorem mem_floatWords_iff : t ∈ floatWords ↔ IsFloat t := by
  constructor
  · rintro (h | ⟨digits, hdigits, _, ⟨c, hc, rfl⟩, rfl⟩)
    · obtain ⟨whole, fraction, ending, hwhole, hfraction, hending, rfl⟩ :=
        mem_pointFloatWords_iff.1 h
      exact .point hwhole hfraction hending
    · exact .fractionalMagnitude (mem_decimalGroupsWords_iff.1 hdigits)
        (isFractionalMagnitude_iff.1 hc)
  · intro h
    cases h with
    | point hwhole hfraction hending =>
      exact .inl (mem_pointFloatWords_iff.2 ⟨_, _, _, hwhole, hfraction, hending, rfl⟩)
    | @fractionalMagnitude digits c hdigits hc =>
      exact .inr ⟨digits, mem_decimalGroupsWords_iff.2 hdigits, [c],
        ⟨c, isFractionalMagnitude_iff.2 hc, rfl⟩, rfl⟩

/-! ## The rules read these forms -/

/-- **The rules for numbers are their grammar**: each one finds the longest beginning of a text
that is written in one of its forms, and no text is both an integer and a float. -/
theorem numerals_longest :
    FindsLongest integer IsInteger ∧ FindsLongest float IsFloat ∧
      ¬ ∃ t, IsInteger t ∧ IsFloat t := by
  refine ⟨takesLongest_integer.findsLongest fun _ => mem_integerWords_iff,
    takesLongest_float.findsLongest fun _ => mem_floatWords_iff, ?_⟩
  rintro ⟨t, hinteger, hfloat⟩
  exact floatWords_notMem_integerWords (mem_floatWords_iff.2 hfloat)
    (mem_integerWords_iff.2 hinteger)

/-- In radix twenty-one `k` is a digit, in radix twenty it is neither a digit nor a magnitude, and
there is no radix thirty-three. -/
example :
    integer ['2', '1', 'r', '_', 'k'] = some (['2', '1'], ['r', '_', 'k']) ∧
      integer ['2', '1', 'r', 'k'] = some (['2', '1', 'r', 'k'], []) ∧
      integer ['2', '0', 'r', '1', 'k'] = some (['2', '0', 'r', '1'], ['k']) ∧
      integer ['3', '3', 'r', '1'] = some (['3', '3'], ['r', '1']) := by
  decide +kernel

end Number
end LayoutLexer

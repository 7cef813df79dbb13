import LayoutLexer.Proofs.CharClass
import LayoutLexer.Proofs.Longest
import LayoutLexer.Rule

/-! # The words of numbers

The integers and the floats as languages.  Their recognizers take the longest word because what
may follow digits is neither a digit nor an underscore, and because a radix and a point are
written with characters that no other number has: with them the first choice is always the
longer one.  For the same reason no integer is a float.
-/
namespace LayoutLexer

/-! ## Runs joined by underscores

Identifiers and numbers share one shape: a run of characters, and more runs of which each stands
after a single underscore.  As a repetition of languages this is an underscore and a nonempty run,
any number of times; here it is the list of its runs (`Words.mem_kstar_iff_joined`).
-/

namespace Words

open scoped Computability

/-- The runs one after the other, each after an underscore. -/
def joined (runs : List Text) : Text := runs.flatMap fun run => '_' :: run

@[simp] theorem joined_nil : joined [] = [] := rfl

@[simp] theorem joined_cons (run : Text) (runs : List Text) :
    joined (run :: runs) = '_' :: (run ++ joined runs) := rfl

variable {p : Char → Bool} {t : Text}

/-- Repeating an underscore and a nonempty run gives just the lists of joined runs. -/
theorem mem_kstar_iff_joined :
    t ∈ (oneOf (· == '_') * someOf p)∗ ↔
      ∃ runs : List Text, (∀ run ∈ runs, run ∈ someOf p) ∧ t = joined runs := by
  constructor
  · intro ht
    obtain ⟨parts, rfl, hparts⟩ := Language.mem_kstar.1 ht
    clear ht
    induction parts with
    | nil => exact ⟨[], List.forall_mem_nil _, joined_nil.symm⟩
    | cons part parts ih =>
      obtain ⟨hpart, hrest⟩ := List.forall_mem_cons.1 hparts
      obtain ⟨run, hrun, rfl⟩ := mem_char_mul_iff.1 hpart
      obtain ⟨runs, hruns, heq⟩ := ih hrest
      refine ⟨run :: runs, List.forall_mem_cons.2 ⟨hrun, hruns⟩, ?_⟩
      rw [List.flatten_cons, heq, joined_cons, List.cons_append]
  · rintro ⟨runs, hruns, rfl⟩
    induction runs with
    | nil => exact Language.nil_mem_kstar _
    | cons run runs ih =>
      obtain ⟨hrun, hruns⟩ := List.forall_mem_cons.1 hruns
      exact append_mem_kstar (mem_char_mul_iff.2 ⟨run, hrun, rfl⟩) (ih hruns)

end Words

/-! ## The languages -/

namespace Number

open scoped Computability
open CharClass Recognizer Words

variable {isDigit : Char → Bool}

/-- An underscore and digits. -/
def joinedDigitsWords (isDigit : Char → Bool) : Language Char := oneOf (· == '_') * someOf isDigit

/-- Runs of digits, joined by single underscores. -/
def digitGroupsWords (isDigit : Char → Bool) : Language Char :=
  someOf isDigit * (joinedDigitsWords isDigit)∗

/-- Groups of decimal digits. -/
def decimalGroupsWords : Language Char := digitGroupsWords isDecimalDigit

/-- Groups of digits of a radix, with a magnitude if the radix is ten. -/
def digitsOfRadixWords (radix : Nat) : Language Char :=
  if minRadix ≤ radix ∧ radix ≤ maxRadix then
    digitGroupsWords (isRadixDigit radix) * (if radix = 10 then oneOf isMagnitude + 1 else {[]})
  else 0

/-- Integers that name their radix. -/
def radixIntegerWords : Language Char :=
  Words.bind (someOf isDecimalDigit) fun radix =>
    oneOf (· == 'r') * digitsOfRadixWords (decimalValue radix)

/-- Decimal integers. -/
def decimalIntegerWords : Language Char := decimalGroupsWords * (oneOf isMagnitude + 1)

/-- Integers. -/
def integerWords : Language Char := radixIntegerWords + decimalIntegerWords

/-- Exponents. -/
def exponentWords : Language Char :=
  oneOf (fun c => c == 'E' || c == 'e') *
    ((oneOf (fun c => c == '+' || c == '-') + 1) * someOf isDecimalDigit)

/-- What may follow the digits of a float with a point. -/
def floatEndingWords : Language Char :=
  exponentWords + (oneOf isMagnitude + oneOf isFractionalMagnitude)

/-- Floats with a point. -/
def pointFloatWords : Language Char :=
  decimalGroupsWords * (oneOf (· == '.') * (decimalGroupsWords * (floatEndingWords + 1)))

/-- Floats by their fractional magnitude. -/
def fractionalFloatWords : Language Char := decimalGroupsWords * oneOf isFractionalMagnitude

/-- Floats. -/
def floatWords : Language Char := pointFloatWords + fractionalFloatWords

/-! ## Groups of digits -/

/-- A digit or an underscore. -/
def isGroupChar (isDigit : Char → Bool) (c : Char) : Bool := isDigit c || c == '_'

theorem only_digitGroupsWords : Only (isGroupChar isDigit) (digitGroupsWords isDigit) := by
  have hrun : Only (isGroupChar isDigit) (someOf isDigit) :=
    only_someOf.mono fun c hc => by simp [isGroupChar, hc]
  have hjoin : Only (isGroupChar isDigit) (oneOf (· == '_')) :=
    only_oneOf.mono fun c hc => by simp [isGroupChar, eq_of_beq hc]
  exact hrun.mul (hjoin.mul hrun).kstar

theorem begins_digitGroupsWords : Begins isDigit (digitGroupsWords isDigit) := begins_someOf.mul

theorem takesLongest_digitGroups (h : isDigit '_' = false) :
    TakesLongest (digitGroups isDigit) (digitGroupsWords isDigit) := by
  have hbegins : Begins (· == '_') (joinedDigitsWords isDigit) := begins_oneOf.mul
  have hjoined : TakesLongest (joinedDigits isDigit) (joinedDigitsWords isDigit) :=
    (takesLongest_char _).andThen (takesLongest_run1 _) prefixFree_oneOf.separated
  refine (takesLongest_run1 _).andThen
    (hjoined.many_of_separated _ hbegins.nil_notMem ?_) ?_
  · exact Separated.mul prefixFree_oneOf
      (separated_of_only only_someOf hbegins.heads (ne_of_class h))
  · exact separated_of_only only_someOf hbegins.heads.kstar (ne_of_class h)

theorem takesLongest_decimalGroups : TakesLongest decimalGroups decimalGroupsWords :=
  takesLongest_digitGroups (by decide)

/-- What begins with no decimal digit and no underscore may follow groups of decimal digits. -/
theorem separated_decimalGroupsWords {p : Char → Bool} {L : Language Char} (hL : Heads p L)
    (hp : ∀ c, p c = true → isGroupChar isDecimalDigit c = false) :
    Separated decimalGroupsWords L := by
  refine separated_of_only only_digitGroupsWords hL fun c hc => ?_
  by_contra hne
  rw [hp c (by simpa using hne)] at hc
  cases hc

/-! ## Letters after digits -/

theorem isMagnitude_iff {c : Char} : isMagnitude c = true ↔ c ∈ ['k', 'M', 'G', 'T', 'P'] :=
  List.contains_iff_mem

theorem isFractionalMagnitude_iff {c : Char} :
    isFractionalMagnitude c = true ↔ c ∈ ['m', 'u', 'n', 'p', 'f', 'a'] :=
  List.contains_iff_mem

theorem isGroupChar_of_isMagnitude (c : Char) (h : isMagnitude c = true) :
    isGroupChar isDecimalDigit c = false := by
  simp only [isMagnitude_iff, List.mem_cons, List.not_mem_nil, or_false] at h
  rcases h with rfl | rfl | rfl | rfl | rfl <;> decide

theorem isGroupChar_of_isFractionalMagnitude (c : Char) (h : isFractionalMagnitude c = true) :
    isGroupChar isDecimalDigit c = false := by
  simp only [isFractionalMagnitude_iff, List.mem_cons, List.not_mem_nil, or_false] at h
  rcases h with rfl | rfl | rfl | rfl | rfl | rfl <;> decide

/-- A letter that scales a number up or down. -/
def isScale (c : Char) : Bool := isMagnitude c || isFractionalMagnitude c

/-- A character at which the ending of a float begins. -/
def isEndingStart (c : Char) : Bool := (c == 'E' || c == 'e') || isScale c

theorem isGroupChar_of_isEndingStart (c : Char) (h : isEndingStart c = true) :
    isGroupChar isDecimalDigit c = false := by
  simp only [isEndingStart, isScale, Bool.or_eq_true, beq_iff_eq] at h
  rcases h with (rfl | rfl) | h | h
  · decide
  · decide
  · exact isGroupChar_of_isMagnitude c h
  · exact isGroupChar_of_isFractionalMagnitude c h

theorem heads_magnitude : Heads isMagnitude (oneOf isMagnitude + 1) :=
  begins_oneOf.heads.add_one

/-! ## Integers -/

theorem isRadixDigit_underscore (radix : Nat) : isRadixDigit radix '_' = false := rfl

theorem takesLongest_digitsOfRadix (radix : Nat) :
    TakesLongest (digitsOfRadix radix) (digitsOfRadixWords radix) := by
  unfold digitsOfRadix digitsOfRadixWords
  split
  · have hgroups := takesLongest_digitGroups (isRadixDigit_underscore radix)
    split
    · next hten =>
      refine hgroups.andThen (takesLongest_char _).optional ?_
      rw [hten, isRadixDigit_ten]
      exact separated_decimalGroupsWords heads_magnitude isGroupChar_of_isMagnitude
    · refine hgroups.andThen (takesLongest_exactly []) ?_
      exact separated_of_only only_digitGroupsWords (q := fun _ => false) nofun fun _ _ => rfl
  · exact takesLongest_fail

theorem takesLongest_radixInteger : TakesLongest radixInteger radixIntegerWords := by
  refine (takesLongest_run1 _).bind
    (fun _ => (takesLongest_char _).andThen (takesLongest_digitsOfRadix _)
      prefixFree_oneOf.separated) ?_
  -- the digits of the radix go on with digits, and after them comes the letter
  intro a c u _ hu
  constructor
  · intro b hb
    have hr := begins_oneOf.mul.heads hb
    have hc := hu.2 c (by simp)
    rw [eq_of_beq hr] at hc
    cases hc
  · intro hnil
    exact absurd hnil begins_oneOf.mul.nil_notMem

theorem takesLongest_decimalInteger : TakesLongest decimalInteger decimalIntegerWords :=
  takesLongest_decimalGroups.andThen (takesLongest_char _).optional
    (separated_decimalGroupsWords heads_magnitude isGroupChar_of_isMagnitude)

theorem mem_radixIntegerWords {t : Text} (h : t ∈ radixIntegerWords) : 'r' ∈ t := by
  obtain ⟨a, _, b, hb, rfl⟩ := h
  obtain ⟨u, _, rfl⟩ := mem_char_mul_iff.1 hb
  simp

/-- A character of a number that names no radix and has no point. -/
def isPlainNumberChar (c : Char) : Bool :=
  isGroupChar isDecimalDigit c || isScale c

theorem only_decimalIntegerWords : Only isPlainNumberChar decimalIntegerWords := by
  refine (only_digitGroupsWords.mono fun c hc => ?_).mul
    ((only_oneOf.mono fun c hc => ?_).add Only.one)
  · simp [isPlainNumberChar, hc]
  · simp [isPlainNumberChar, isScale, hc]

theorem only_fractionalFloatWords : Only isPlainNumberChar fractionalFloatWords := by
  refine (only_digitGroupsWords.mono fun c hc => ?_).mul (only_oneOf.mono fun c hc => ?_)
  · simp [isPlainNumberChar, hc]
  · simp [isPlainNumberChar, isScale, hc]

theorem takesLongest_integer : TakesLongest integer integerWords :=
  takesLongest_radixInteger.orElse takesLongest_decimalInteger
    (noneBeyond_of_mem (fun _ => mem_radixIntegerWords) only_decimalIntegerWords (by decide))

/-! ## Floats -/

theorem takesLongest_exponent : TakesLongest exponent exponentWords := by
  refine (takesLongest_char _).andThen ?_ prefixFree_oneOf.separated
  refine (takesLongest_char _).optional.andThen (takesLongest_run1 _) ?_
  refine separated_of_only (only_oneOf.add Only.one) begins_someOf.heads fun c hc => ?_
  simp only [Bool.or_eq_true, beq_iff_eq] at hc
  rcases hc with rfl | rfl <;> decide

theorem begins_scale : Begins isScale (oneOf isMagnitude + oneOf isFractionalMagnitude) :=
  (begins_oneOf.mono fun c hc => by simp [isScale, hc]).add
    (begins_oneOf.mono fun c hc => by simp [isScale, hc])

theorem takesLongest_floatEnding : TakesLongest floatEnding floatEndingWords := by
  refine takesLongest_exponent.orElse ((takesLongest_char _).orElse (takesLongest_char _) ?_) ?_
  · refine begins_oneOf.noneBeyond begins_oneOf.heads fun c hc => ?_
    simp only [isMagnitude_iff, List.mem_cons, List.not_mem_nil, or_false] at hc
    rcases hc with rfl | rfl | rfl | rfl | rfl <;> decide
  · refine begins_oneOf.mul.noneBeyond begins_scale.heads fun c hc => ?_
    simp only [Bool.or_eq_true, beq_iff_eq] at hc
    rcases hc with rfl | rfl <;> decide

theorem begins_floatEndingWords : Begins isEndingStart floatEndingWords := by
  refine Begins.add ?_ (begins_scale.mono fun c hc => ?_)
  · exact begins_oneOf.mul.mono fun c hc => by simp [isEndingStart, hc]
  · simp [isEndingStart, hc]

theorem takesLongest_pointFloat : TakesLongest pointFloat pointFloatWords := by
  refine takesLongest_decimalGroups.andThen ((takesLongest_char _).andThen
    (takesLongest_decimalGroups.andThen takesLongest_floatEnding.optional ?_)
    prefixFree_oneOf.separated) ?_
  · exact separated_decimalGroupsWords begins_floatEndingWords.heads.add_one
      isGroupChar_of_isEndingStart
  · refine separated_decimalGroupsWords begins_oneOf.mul.heads fun c hc => ?_
    rw [eq_of_beq hc]
    decide

theorem takesLongest_fractionalFloat : TakesLongest fractionalFloat fractionalFloatWords :=
  takesLongest_decimalGroups.andThen (takesLongest_char _)
    (separated_decimalGroupsWords begins_oneOf.heads isGroupChar_of_isFractionalMagnitude)

theorem mem_pointFloatWords {t : Text} (h : t ∈ pointFloatWords) : '.' ∈ t := by
  obtain ⟨a, _, b, hb, rfl⟩ := h
  obtain ⟨u, _, rfl⟩ := mem_char_mul_iff.1 hb
  simp

theorem takesLongest_float : TakesLongest float floatWords :=
  takesLongest_pointFloat.orElse takesLongest_fractionalFloat
    (noneBeyond_of_mem (fun _ => mem_pointFloatWords) only_fractionalFloatWords (by decide))

/-! ## No integer is a float -/

theorem begins_integerWords : Begins isDecimalDigit integerWords := by
  refine Begins.add ?_ begins_digitGroupsWords.mul
  rintro t ⟨a, ha, b, _, rfl⟩
  obtain ⟨c, u, rfl, hc⟩ := begins_someOf ha
  exact ⟨c, u ++ b, rfl, hc⟩

theorem begins_floatWords : Begins isDecimalDigit floatWords :=
  begins_digitGroupsWords.mul.add begins_digitGroupsWords.mul

/-- An integer has no point. -/
theorem only_integerWords : Only (fun c => !(c == '.')) integerWords := by
  have hmagnitude : Only (fun c => !(c == '.')) (oneOf isMagnitude + 1) :=
    (only_oneOf.avoid (by decide)).add Only.one
  have hgroups (radix : Nat) :
      Only (fun c => !(c == '.')) (digitGroupsWords (isRadixDigit radix)) :=
    only_digitGroupsWords.avoid (show isGroupChar (isRadixDigit radix) '.' = false from rfl)
  refine Only.add ?_ (Only.mul (only_digitGroupsWords.avoid (by decide)) hmagnitude)
  rintro _ ⟨a, ha, b, hb, rfl⟩ c hc
  rcases List.mem_append.1 hc with hc | hc
  · exact only_someOf.avoid (c := '.') (by decide) ha c hc
  · refine ((only_oneOf.avoid (by decide)).mul ?_) hb c hc
    unfold digitsOfRadixWords
    split
    · refine (hgroups _).mul ?_
      split
      · exact hmagnitude
      · rintro _ rfl _ hd
        cases hd
    · exact fun _ h => absurd h (Language.notMem_zero _)

/-- A letter that scales a number down does not scale it up and is no part of groups of digits,
so a decimal integer has none. -/
theorem fractionalMagnitude_notMem {t : Text} (ht : t ∈ decimalIntegerWords) {c : Char}
    (hc : isFractionalMagnitude c = true) : c ∉ t := by
  intro hmem
  have honly : Only (fun d => isGroupChar isDecimalDigit d || isMagnitude d)
      decimalIntegerWords :=
    (only_digitGroupsWords.mono fun d hd => by simp [hd]).mul
      ((only_oneOf.mono fun d hd => by simp [hd]).add Only.one)
  have h : (isGroupChar isDecimalDigit c || isMagnitude c) = true := honly ht c hmem
  rw [isGroupChar_of_isFractionalMagnitude c hc, Bool.false_or] at h
  simp only [isFractionalMagnitude_iff, List.mem_cons, List.not_mem_nil, or_false] at hc
  rcases hc with rfl | rfl | rfl | rfl | rfl | rfl <;> cases h

theorem floatWords_notMem_integerWords {t : Text} (hf : t ∈ floatWords) : t ∉ integerWords := by
  intro hi
  rcases hf with hf | hf
  · have := only_integerWords hi '.' (mem_pointFloatWords hf)
    cases this
  · rcases hi with hi | hi
    · have := only_fractionalFloatWords hf 'r' (mem_radixIntegerWords hi)
      cases this
    · obtain ⟨a, _, _, ⟨c, hc, rfl⟩, rfl⟩ := hf
      exact fractionalMagnitude_notMem hi hc (by simp)

end Number
end LayoutLexer

import LayoutLexer.Proofs.Grammar.Numeral
import LayoutLexer.Proofs.Lexeme.Cases

/-! # Numbers

Where a decimal digit stands, the lexeme is an integer or a float, or it is malformed and then goes
on up to the end of the word that it runs into; in no case does a word character follow
(`Scanner.emits_number`).

Digits and the letter `r` announce a radix, and then the lexeme is all that may belong to the
number: the digits, the letter and every word character after it.  If these are no digits of this
radix, or there is no such radix, the rule for integers falls back to decimal digits and stops
before the letter or within the word.  That loses nothing, since an integer has word characters
only, so the word after it is the rest of what was written.
-/
namespace LayoutLexer

open CharClass Words

/-! ## Runs and what stops them -/

/-- Where two runs of a class are followed by characters outside it, they are the same run. -/
theorem Text.run_unique {p : Char → Bool} {s t : Text} {x y : Char} {u v : Text}
    (hs : ∀ c ∈ s, p c = true) (ht : ∀ c ∈ t, p c = true) (hx : p x = false) (hy : p y = false)
    (h : s ++ x :: u = t ++ y :: v) : s = t ∧ x = y ∧ u = v := by
  have htake {r : Text} {z : Char} {w : Text} (hr : ∀ c ∈ r, p c = true) (hz : p z = false) :
      (r ++ z :: w).takeWhile p = r := by
    rw [List.takeWhile_append_of_pos hr, List.takeWhile_cons_of_neg (by simp [hz]),
      List.append_nil]
  have hsame : s = t := by
    calc s = (s ++ x :: u).takeWhile p := (htake hs hx).symm
      _ = (t ++ y :: v).takeWhile p := by rw [h]
      _ = t := htake ht hy
  rw [hsame, List.append_cancel_left_eq, List.cons.injEq] at h
  exact ⟨hsame, h⟩

/-- A word before the text ends where the text begins: no word character stands at its front. -/
def Text.EndsWord (t : Text) : Prop := ∀ c ∈ t.head?, isWordChar c = false

theorem Identifier.endsWord_wordRun (s : Text) : (wordRun s).2.EndsWord := by
  intro c hc
  have hstop := List.head?_dropWhile_not isWordChar s
  rw [show (s.dropWhile isWordChar).head? = some c from hc] at hstop
  exact hstop

/-- A run of word characters that nothing continues is the word at the front. -/
theorem Identifier.wordRun_eq {w tail : Text} (hw : ∀ c ∈ w, isWordChar c = true)
    (htail : tail.EndsWord) : wordRun (w ++ tail) = (w, tail) := by
  have hstop : tail.takeWhile isWordChar = [] ∧ tail.dropWhile isWordChar = tail := by
    cases tail with
    | nil => exact ⟨rfl, rfl⟩
    | cons c tail =>
      have hc := htail c rfl
      exact ⟨List.takeWhile_cons_of_neg (by simp [hc]), List.dropWhile_cons_of_neg (by simp [hc])⟩
  rw [wordRun, List.takeWhile_append_of_pos hw, List.dropWhile_append_of_pos hw, hstop.1, hstop.2,
    List.append_nil]

namespace Number

/-! ## Numbers with the letter of a radix -/

variable {t radix w : Text}

/-- Decimal digits and the letter make an integer with digits of the radix, and with nothing
else. -/
theorem isInteger_radix_iff (hradix : radix ∈ someOf isDecimalDigit) :
    IsInteger (radix ++ 'r' :: w) ↔ IsDigitsOf (valueOf radix) w := by
  constructor
  · intro h
    generalize heq : radix ++ 'r' :: w = t at h
    cases h with
    | radix hradix' hdigits =>
      -- no other digits stand before the letter
      obtain ⟨rfl, _, rfl⟩ := Text.run_unique hradix.2
        (mem_someOf_isDecimalDigit_iff.2 hradix').2 rfl rfl heq
      exact hdigits
    | @decimal digits magnitude hdigits hmagnitude =>
      have hmem : digits ++ magnitude ∈ decimalIntegerWords :=
        ⟨digits, mem_decimalGroupsWords_iff.2 hdigits, magnitude,
          mem_magnitude_iff.2 hmagnitude, rfl⟩
      have hplain := only_decimalIntegerWords hmem 'r' (by rw [← heq]; simp)
      cases hplain
  · intro hdigits
    exact .radix (mem_someOf_isDecimalDigit_iff.1 hradix) hdigits

/-- A float has a point or a fractional magnitude after groups of digits. -/
theorem exists_groups_of_isFloat (h : IsFloat t) :
    ∃ digits c more, Groups IsDecimal digits ∧ (c = '.' ∨ c ∈ fractionalMagnitudes) ∧
      t = digits ++ c :: more := by
  cases h with
  | point hwhole _ _ => exact ⟨_, _, _, hwhole, .inl rfl, rfl⟩
  | fractionalMagnitude hdigits hc => exact ⟨_, _, _, hdigits, .inr hc, rfl⟩

/-- No float stands where digits and the letter of a radix do. -/
theorem not_isFloat_of_radix {after : Text} (hradix : radix ∈ someOf isDecimalDigit)
    (h : t ++ after = radix ++ 'r' :: w) : ¬ IsFloat t := by
  intro hfloat
  obtain ⟨digits, c, more, hdigits, hc, rfl⟩ := exists_groups_of_isFloat hfloat
  have hgroups : ∀ d ∈ digits, isGroupChar isDecimalDigit d = true :=
    only_digitGroupsWords (mem_decimalGroupsWords_iff.2 hdigits)
  have hrun : ∀ d ∈ radix, isGroupChar isDecimalDigit d = true := by
    intro d hd
    rw [isGroupChar, hradix.2 d hd, Bool.true_or]
  have hstop : isGroupChar isDecimalDigit c = false := by
    rcases hc with rfl | hc
    · rfl
    · exact isGroupChar_of_isFractionalMagnitude c (isFractionalMagnitude_iff.2 hc)
  rw [List.append_assoc, List.cons_append] at h
  obtain ⟨_, rfl, _⟩ := Text.run_unique hgroups hrun hstop (by decide) h
  -- the letter is no point and scales nothing down
  rcases hc with hc | hc
  · cases hc
  · cases isFractionalMagnitude_iff.2 hc

theorem isWordChar_of_isDecimalDigit {c : Char} (h : isDecimalDigit c = true) :
    isWordChar c = true := by
  rw [← isRadixDigit_ten] at h
  exact isWordChar_of_isRadixDigit h

theorem isWordChar_of_groups {IsDigit : Char → Prop}
    (hdigit : ∀ c, IsDigit c → isWordChar c = true) (h : Groups IsDigit t) :
    ∀ c ∈ t, isWordChar c = true := by
  obtain ⟨run, runs, hrun, hruns, rfl⟩ := h
  rw [List.forall_mem_append]
  refine ⟨fun c hc => hdigit c (hrun.2 c hc), fun c hc => ?_⟩
  obtain ⟨next, hnext, hc⟩ := List.mem_flatMap.1 hc
  rcases List.mem_cons.1 hc with rfl | hc
  · rfl
  · exact hdigit c ((hruns next hnext).2 c hc)

theorem isWordChar_of_magnitude (h : OneOf magnitudes t) : ∀ c ∈ t, isWordChar c = true := by
  obtain ⟨d, hd, rfl⟩ := h
  intro c hc
  rw [List.mem_singleton.1 hc]
  simp only [magnitudes, List.mem_cons, List.not_mem_nil, or_false] at hd
  rcases hd with rfl | rfl | rfl | rfl | rfl <;> decide

/-- An integer has word characters only. -/
theorem isWordChar_of_mem_isInteger (h : IsInteger t) : ∀ c ∈ t, isWordChar c = true := by
  have hdecimal (c : Char) (hc : IsDecimal c) : isWordChar c = true :=
    isWordChar_of_isDecimalDigit (isDecimalDigit_iff.2 hc)
  cases h with
  | radix hradix hdigits =>
    obtain ⟨_, digits, magnitude, hdigits, hmagnitude, rfl⟩ := hdigits
    simp only [List.forall_mem_append, List.forall_mem_cons]
    refine ⟨fun c hc => hdecimal c (hradix.2 c hc), by decide,
      isWordChar_of_groups (fun _ hc => isWordChar_of_isRadixDigit (isRadixDigit_iff.2 hc)) hdigits,
      ?_⟩
    rcases hmagnitude with rfl | ⟨_, hmagnitude⟩
    · exact List.forall_mem_nil _
    · exact isWordChar_of_magnitude hmagnitude
  | decimal hdigits hmagnitude =>
    rw [List.forall_mem_append]
    refine ⟨isWordChar_of_groups hdecimal hdigits, ?_⟩
    rcases hmagnitude with rfl | hmagnitude
    · exact List.forall_mem_nil _
    · exact isWordChar_of_magnitude hmagnitude

end Number

namespace Lexeme

open Identifier Lexicon Number

variable {c : Char} {rest : Text}

/-! ## Where a digit stands -/

/-- At a digit a number matches, and the lexeme is that number or begins with it. -/
theorem exists_match_of_isDecimalDigit (hc : isDecimalDigit c = true) (rest : Text) :
    ∃ m, longestMatch (c :: rest) = some m ∧
      (m.pattern = .rule .integerLiteral ∨ m.pattern = .rule .floatLiteral) ∧
      read c rest = number m := by
  have hdigit : [c] ∈ (Pattern.rule .integerLiteral).words := by
    have hgroups : Groups IsDecimal [c] :=
      ⟨[c], [], ⟨List.cons_ne_nil _ _, List.forall_mem_singleton.2 (isDecimalDigit_iff.1 hc)⟩,
        nofun, rfl⟩
    exact mem_integerWords_iff.2 (.decimal hgroups (.inl rfl))
  obtain ⟨m, hm⟩ := exists_match_of_first hdigit rest
  have hpattern : m.pattern = .rule .integerLiteral ∨ m.pattern = .rule .floatLiteral := by
    apply Pattern.eq_of_lead_digit
    rw [lead_of_longestMatch hm]
    exact Lead.ofChar_of_isDecimalDigit hc
  refine ⟨m, hm, hpattern, ?_⟩
  rw [read, opening?_eq_none (by rintro rfl; cases hc) (by rintro rfl; cases hc)]
  dsimp only
  rw [unquoted, hm]
  dsimp only
  rcases hpattern with h | h <;> rw [h] <;> rfl

/-- What the lexeme of a number is. -/
structure ReadsNumber (l : Lexeme) : Prop where
  kind : l.kind = .lexical (.rule .integerLiteral) ∨ l.kind = .lexical (.rule .floatLiteral) ∨
    l.kind = .error .number
  /-- No word goes on after it. -/
  ends : l.rest.EndsWord
  /-- There is one flaw if it is malformed and none otherwise. -/
  flaws : l.flaws =
    if l.kind = .error .number then [⟨.zero, l.text, .malformedNumber l.text⟩] else []

theorem readsNumber_read (hc : isDecimalDigit c = true) (rest : Text) :
    (read c rest).ReadsNumber := by
  obtain ⟨m, _, hpattern, hread⟩ := exists_match_of_isDecimalDigit hc rest
  rw [hread, number_eq]
  have hends := endsWord_wordRun m.rest
  split
  · next hnil =>
    have happ := wordRun_append m.rest
    rw [hnil, List.nil_append] at happ
    rw [happ] at hends
    refine ⟨?_, hends, rfl⟩
    rcases hpattern with h | h
    · exact .inl (congrArg TokenKind.lexical h)
    · exact .inr (.inl (congrArg TokenKind.lexical h))
  · exact ⟨.inr (.inr rfl), hends, rfl⟩

/-! ## Where a radix stands -/

/-- What the lexeme of digits, the letter of a radix and a word is. -/
structure ReadsRadix (l : Lexeme) (radix w tail : Text) : Prop where
  /-- The lexeme is all of them and nothing more. -/
  whole : l.text = radix ++ 'r' :: w ∧ l.rest = tail
  integer : l.kind = .lexical (.rule .integerLiteral) ↔ IsDigitsOf (valueOf radix) w
  malformed : l.kind = .error .number ↔ ¬ IsDigitsOf (valueOf radix) w

variable {radix w tail : Text}

/-- The lexeme goes on through the word after the letter. -/
theorem text_read_of_radix (hc : isDecimalDigit c = true) (hradix : radix ∈ someOf isDecimalDigit)
    (hw : ∀ d ∈ w, isWordChar d = true) (htail : tail.EndsWord)
    (heq : c :: rest = radix ++ 'r' :: (w ++ tail)) :
    (read c rest).text = radix ++ 'r' :: w ∧ (read c rest).rest = tail := by
  obtain ⟨m, hm, hpattern, hread⟩ := exists_match_of_isDecimalDigit hc rest
  have happ := longestMatch_append hm
  have hmem := mem_words_of_longestMatch hm
  have hword : ∀ d ∈ m.lexeme, isWordChar d = true := by
    rcases hpattern with h | h
    · rw [h] at hmem
      exact isWordChar_of_mem_isInteger (mem_integerWords_iff.1 hmem)
    · rw [h] at hmem
      exact absurd (mem_floatWords_iff.1 hmem) (not_isFloat_of_radix hradix (happ.trans heq))
  -- the match and the word after it are the word at the front
  have hwhole : wordRun (c :: rest) = (radix ++ 'r' :: w, tail) := by
    have hfront : ∀ d ∈ radix ++ 'r' :: w, isWordChar d = true := by
      rw [List.forall_mem_append, List.forall_mem_cons]
      exact ⟨fun d hd => isWordChar_of_isDecimalDigit (hradix.2 d hd), by decide, hw⟩
    rw [heq, ← wordRun_eq hfront htail, List.append_assoc, List.cons_append]
  have htext : (read c rest).text = radix ++ 'r' :: w := by
    calc (read c rest).text = m.lexeme ++ (wordRun m.rest).1 := by rw [hread, text_number]
      _ = (wordRun (m.lexeme ++ m.rest)).1 := (List.takeWhile_append_of_pos hword).symm
      _ = radix ++ 'r' :: w := by rw [happ, hwhole]
  refine ⟨htext, rest_read_of_text htext ?_⟩
  rw [heq, List.append_assoc, List.cons_append]

theorem readsRadix_read (hc : isDecimalDigit c = true) (hradix : radix ∈ someOf isDecimalDigit)
    (hw : ∀ d ∈ w, isWordChar d = true) (htail : tail.EndsWord)
    (heq : c :: rest = radix ++ 'r' :: (w ++ tail)) : (read c rest).ReadsRadix radix w tail := by
  have hwhole := text_read_of_radix hc hradix hw htail heq
  have hkind := (readsNumber_read hc rest).kind
  have hinteger : (read c rest).kind = .lexical (.rule .integerLiteral) ↔
      IsDigitsOf (valueOf radix) w := by
    rw [← isInteger_radix_iff hradix, ← mem_integerWords_iff, ← hwhole.1]
    constructor
    · intro h
      exact mem_words_of_kind_read h
    · intro hmem
      have hmem : (read c rest).text ∈ (Pattern.rule .integerLiteral).words := hmem
      rcases kind_read_of_mem_words hmem with h | ⟨_, h⟩
      · exact h
      · cases h
  refine ⟨hwhole, hinteger, ?_⟩
  rw [← hinteger]
  constructor
  · intro herror h
    rw [herror] at h
    cases h
  · intro hno
    rcases hkind with h | h | h
    · exact absurd h hno
    · -- a float would have ended before the letter
      have hmem : (read c rest).text ∈ floatWords := mem_words_of_kind_read h
      rw [hwhole.1] at hmem
      exact absurd (mem_floatWords_iff.1 hmem)
        (not_isFloat_of_radix hradix (List.append_nil _))
    · exact h

end Lexeme

/-- **Numbers are never cut short**: where a digit stands, the scanner emits an integer, a float or
a malformed number, and no word goes on after it.  After the letter of a radix the number is all
of the word, an integer if it has digits of this radix and malformed in every other case. -/
theorem Scanner.emits_number {c : Char} {rest : Text} {s : Scanner} (hs : s.rest = c :: rest)
    (hc : isDecimalDigit c = true) :
    s.Emits (Lexeme.read c rest) ∧ (Lexeme.read c rest).ReadsNumber ∧
      ∀ radix w tail : Text, radix ∈ someOf isDecimalDigit → (∀ d ∈ w, isWordChar d = true) →
        tail.EndsWord → c :: rest = radix ++ 'r' :: (w ++ tail) →
        (Lexeme.read c rest).ReadsRadix radix w tail :=
  ⟨emits_read hs, Lexeme.readsNumber_read hc rest, fun _ _ _ => Lexeme.readsRadix_read hc⟩

/-- A two is no digit of radix two: the number goes on up to the space, and all of it is
malformed. -/
theorem Scanner.emits_number_no_digit :
    let text : Text := ['2', 'r', '1', '0', '2', ' ', 'x']
    let l := Lexeme.read '2' text.tail
    (ofText text).Emits l ∧ l.text = ['2', 'r', '1', '0', '2'] ∧ l.rest = [' ', 'x'] ∧
      l.kind = .error .number ∧ ¬ Number.IsDigitsOf 2 ['1', '0', '2'] := by
  intro text l
  have hs : (ofText text).rest = '2' :: text.tail := rfl
  obtain ⟨hemits, _, hradix⟩ := emits_number hs (by decide)
  have hends : Text.EndsWord [' ', 'x'] := by
    rintro _ ⟨⟩
    rfl
  have htwo : ['2'] ∈ someOf isDecimalDigit := ⟨List.cons_ne_nil _ _, by simp [isDecimalDigit]⟩
  have hword : ['1', '0', '2'].all isWordChar = true := by decide +kernel
  have hreads := hradix ['2'] ['1', '0', '2'] [' ', 'x'] htwo (List.all_eq_true.1 hword) hends rfl
  have hkind : l.kind = .error .number := by decide +kernel
  exact ⟨hemits, hreads.whole.1, hreads.whole.2, hkind, hreads.malformed.1 hkind⟩

end LayoutLexer

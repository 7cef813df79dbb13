import LayoutLexer.Json.Skip
import LayoutLexer.Proofs.CharClass
import Mathlib.Data.List.Forall2

/-! # The grammar of JSON

Which texts are JSON, said without a reader: blanks, strings, numbers, and values that nest to any
depth.  A value is passed over up to its end wherever it stands (`passes_of_derives`).  What follows
it matters for numbers alone, which a digit, a point or an exponent would prolong.

Two things are said about a string.  `StringText` has the strings of the grammar, in which a code
may be half of a surrogate pair that has no other half.  `SpellsText` relates a string to the text
that it stands for, so the codes in it are those of characters.
-/
namespace LayoutLexer
namespace Json

namespace Document

@[simp] theorem ofText_nil : ofText [] = [] := rfl

@[simp] theorem ofText_cons (c : Char) (t : Text) : ofText (c :: t) = some c :: ofText t := rfl

@[simp] theorem ofText_concat (s t : Text) : ofText (s ++ t) = ofText s ++ ofText t :=
  List.map_append

theorem hasBytes_zero (d : Document) : d.hasBytes 0 = true := by cases d <;> rfl

end Document

open Document

/-! ## Blanks -/

/-- Spaces, tabs, carriage returns and line feeds. -/
def Blanks (t : Text) : Prop := ∀ c ∈ t, c = ' ' ∨ c = '\t' ∨ c = '\r' ∨ c = '\n'

/-- A text with blanks around it. -/
def Padded (inner written : Text) : Prop :=
  ∃ before after, Blanks before ∧ Blanks after ∧ written = before ++ (inner ++ after)

instance : DecidablePred Blanks := fun t =>
  List.decidableBAll (fun c => c = ' ' ∨ c = '\t' ∨ c = '\r' ∨ c = '\n') t

/-- There need be no blanks. -/
theorem padded_refl (t : Text) : Padded t t :=
  ⟨[], [], by decide, by decide, (List.append_nil t).symm⟩

theorem isBlank_iff {c : Char} :
    isBlank (some c) = true ↔ c = ' ' ∨ c = '\t' ∨ c = '\r' ∨ c = '\n' := by
  simp [isBlank, or_assoc]

/-- Nothing is skipped before a unit that is no blank. -/
theorem skipBlanks_cons {u : Option Char} {d : Document} (h : isBlank u = false) :
    skipBlanks (u :: d) = u :: d := by
  rw [skipBlanks, List.dropWhile_cons_of_neg (by simp [h])]

theorem skipBlanks_blanks {blanks : Text} (h : Blanks blanks) (d : Document) :
    skipBlanks (ofText blanks ++ d) = skipBlanks d := by
  refine List.dropWhile_append_of_pos fun u hu => ?_
  obtain ⟨c, hc, rfl⟩ := List.mem_map.1 hu
  exact isBlank_iff.2 (h c hc)

/-- Before a text with blanks around it there are only blanks to skip, and blanks are left after
it. -/
theorem Padded.skipBlanks {inner written : Text} (h : Padded inner written) :
    ∃ after, Blanks after ∧ ∀ d, Json.skipBlanks (ofText written ++ d) =
      Json.skipBlanks (ofText inner ++ (ofText after ++ d)) := by
  obtain ⟨before, after, hbefore, hafter, rfl⟩ := h
  refine ⟨after, hafter, fun d => ?_⟩
  rw [ofText_concat, ofText_concat, List.append_assoc, List.append_assoc,
    skipBlanks_blanks hbefore]

/-- A digit is no blank. -/
theorem isBlank_of_isDigit {u : Option Char} (h : isDigit u = true) : isBlank u = false := by
  cases u with
  | none => rfl
  | some c =>
    by_contra hblank
    rcases isBlank_iff.1 (eq_true_of_ne_false hblank) with rfl | rfl | rfl | rfl <;> cases h

/-! ## Strings -/

/-- A hexadecimal digit, in either case, and its value. -/
def HexDigit (c : Char) (n : Nat) : Prop :=
  n < 16 ∧ (c = n.digitChar ∨ c = n.digitChar.toUpper)

/-- Four hexadecimal digits and the number that they denote. -/
inductive FourDigits : Text → Nat → Prop
  | mk {a b c e : Char} {i j k l : Nat} (ha : HexDigit a i) (hb : HexDigit b j)
      (hc : HexDigit c k) (he : HexDigit e l) :
    FourDigits [a, b, c, e] (((i * 16 + j) * 16 + k) * 16 + l)

/-- The escapes of one letter and their characters. -/
def shortEscapes : List (Char × Char) :=
  [('"', '"'), ('\\', '\\'), ('/', '/'), ('b', '\x08'), ('f', '\x0c'), ('n', '\n'), ('r', '\r'),
    ('t', '\t')]

/-- A character that stands in a string as it is. -/
def PlainChar (c : Char) : Prop := c ≠ '"' ∧ c ≠ '\\' ∧ 0x20 ≤ c.toNat

instance : DecidablePred PlainChar := fun c =>
  inferInstanceAs (Decidable (c ≠ '"' ∧ c ≠ '\\' ∧ 0x20 ≤ c.toNat))

/-- A text that needs no escapes. -/
def PlainText (t : Text) : Prop := ∀ c ∈ t, PlainChar c

instance : DecidablePred PlainText := fun t => List.decidableBAll PlainChar t

/-- A part of a string: a character as it is, or an escape. -/
inductive StringPart : Text → Prop
  | plain {c : Char} (h : PlainChar c) : StringPart [c]
  | short {e c : Char} (h : (e, c) ∈ shortEscapes) : StringPart ['\\', e]
  | code {digits : Text} {n : Nat} (h : FourDigits digits n) : StringPart ('\\' :: 'u' :: digits)

/-- A string in its quotes. -/
def StringText (written : Text) : Prop :=
  ∃ parts : List Text, (∀ part ∈ parts, StringPart part) ∧
    written = '"' :: (parts.flatten ++ ['"'])

/-- A way to write a character in a string: as it is, by an escape of one letter, by its code, or
by the codes of its surrogate pair. -/
inductive Spells : Text → Char → Prop
  | plain {c : Char} (h : PlainChar c) : Spells [c] c
  | short {e c : Char} (h : (e, c) ∈ shortEscapes) : Spells ['\\', e] c
  | code {digits : Text} {c : Char} (h : FourDigits digits c.toNat) :
    Spells ('\\' :: 'u' :: digits) c
  | pair {first second : Text} {high low : Nat} {c : Char} (hfirst : FourDigits first high)
      (hsecond : FourDigits second low) (hhigh : 0xd800 ≤ high ∧ high ≤ 0xdbff)
      (hlow : 0xdc00 ≤ low ∧ low ≤ 0xdfff)
      (hc : c.toNat = 0x10000 + (high - 0xd800) * 0x400 + (low - 0xdc00)) :
    Spells ('\\' :: 'u' :: (first ++ '\\' :: 'u' :: second)) c

/-- A string in its quotes and the text that it stands for. -/
def SpellsText (written t : Text) : Prop :=
  ∃ parts : List Text, List.Forall₂ Spells parts t ∧ written = '"' :: (parts.flatten ++ ['"'])

theorem spells_of_plain {t : Text} (h : PlainText t) :
    List.Forall₂ Spells (t.map ([·])) t :=
  List.forall₂_map_left_iff.2 (List.forall₂_same.2 fun c hc => .plain (h c hc))

/-- A text that needs no escapes is written by itself. -/
theorem spellsText_of_plain {t : Text} (h : PlainText t) :
    SpellsText ('"' :: (t ++ ['"'])) t :=
  ⟨_, spells_of_plain h, by rw [← List.flatMap_def, List.flatMap_singleton']⟩

theorem HexDigit.hexValue? {c : Char} {n : Nat} (h : HexDigit c n) :
    hexValue? (some c) = some n := by
  have hall : ∀ n < 16, Json.hexValue? (some n.digitChar) = some n ∧
      Json.hexValue? (some n.digitChar.toUpper) = some n := by decide
  obtain ⟨hn, rfl | rfl⟩ := h
  · exact (hall n hn).1
  · exact (hall n hn).2

theorem HexDigit.utf8Size {c : Char} {n : Nat} (h : HexDigit c n) : c.utf8Size = 1 := by
  have hall : ∀ n < 16, n.digitChar.utf8Size = 1 ∧ n.digitChar.toUpper.utf8Size = 1 := by decide
  obtain ⟨hn, rfl | rfl⟩ := h
  · exact (hall n hn).1
  · exact (hall n hn).2

theorem hexDigit_digitChar {n : Nat} (h : n < 16) : HexDigit n.digitChar n := ⟨h, .inl rfl⟩

theorem FourDigits.length {digits : Text} {n : Nat} (h : FourDigits digits n) :
    (ofText digits).length = 4 := by
  cases h; rfl

/-- Four hexadecimal digits are read as their number. -/
theorem fourHex_digits {digits : Text} {n : Nat} (h : FourDigits digits n) (d : Document) :
    fourHex (ofText digits ++ d) = .ok n := by
  obtain ⟨ha, hb, hc, he⟩ := h
  have hbytes {a b c e : Char} (ha : a.utf8Size = 1) (hb : b.utf8Size = 1) (hc : c.utf8Size = 1)
      (he : e.utf8Size = 1) :
      hasBytes 4 (some a :: some b :: some c :: some e :: d) = true := by
    simp [hasBytes, unitBytes, ha, hb, hc, he, hasBytes_zero]
  simp only [ofText_cons, ofText_nil, List.cons_append, List.nil_append, fourHex,
    hbytes ha.utf8Size hb.utf8Size hc.utf8Size he.utf8Size, ha.hexValue?, hb.hexValue?,
    hc.hexValue?, he.hexValue?, Bool.not_true, Bool.false_eq_true, if_false]

theorem simpleEscape?_of_mem {e c : Char} (h : (e, c) ∈ shortEscapes) :
    simpleEscape? e = some c := by
  have hall : ∀ p ∈ shortEscapes, simpleEscape? p.1 = some p.2 := by decide
  exact hall _ h

theorem ne_u_of_mem {e c : Char} (h : (e, c) ∈ shortEscapes) : e ≠ 'u' := by
  have hall : ∀ p ∈ shortEscapes, p.1 ≠ 'u' := by decide
  exact hall _ h

theorem PlainChar.isControl {c : Char} (h : PlainChar c) : isControl (some c) = false :=
  decide_eq_false (Nat.not_lt.2 h.2.2)

/-! ### Passing over a string -/

/-- A part of a string is passed over, whatever comes after it. -/
theorem skipString_part {part : Text} (h : StringPart part) (d : Document) :
    skipString (ofText part ++ d) = skipString d := by
  cases h with
  | @plain c h =>
    rw [ofText_cons, ofText_nil, List.cons_append, List.nil_append, skipString,
      if_neg (by simpa using h.1), if_neg (by simpa using h.2.1), h.isControl]
    rfl
  | @short e c h =>
    have hescape : skipEscape (some e :: d) = .ok 1 := by
      rw [skipEscape, simpleEscape?_of_mem h]
      · rfl
      · simpa using ne_u_of_mem h
    rw [ofText_cons, List.cons_append, skipString, if_neg (by decide), if_pos rfl]
    simp only [ofText_cons, ofText_nil, List.cons_append, List.nil_append, hescape]
    rfl
  | @code digits n h =>
    have hescape : skipEscape (some 'u' :: (ofText digits ++ d)) = .ok 5 := by
      rw [skipEscape, fourHex_digits h]
    rw [ofText_cons, List.cons_append, skipString, if_neg (by decide), if_pos rfl, ofText_cons,
      List.cons_append, hescape]
    simp only [List.drop_succ_cons, List.drop_left' h.length]

/-- A string is passed over up to its closing quote. -/
theorem skipString_text {parts : List Text} (h : ∀ part ∈ parts, StringPart part) (d : Document) :
    skipString (ofText (parts.flatten ++ ['"']) ++ d) = .ok d := by
  induction parts with
  | nil => rw [List.flatten_nil, List.nil_append, ofText_cons, List.cons_append, skipString,
      if_pos rfl]; rfl
  | cons part parts ih =>
    rw [List.flatten_cons, List.append_assoc, ofText_concat, List.append_assoc,
      skipString_part (h part List.mem_cons_self)]
    exact ih fun part hpart => h part (List.mem_cons_of_mem _ hpart)

/-! ### Reading a string -/

/-- A code that is no surrogate stands for its character. -/
theorem codeEscape_char {digits : Text} {c : Char} (h : FourDigits digits c.toNat) (d : Document) :
    codeEscape (ofText digits ++ d) = .ok (c, 4) := by
  have hvalid : c.toNat < 0xd800 ∨ 0xdfff < c.toNat := c.valid.imp_right And.left
  have hlow : isLowSurrogate c.toNat = false := by simp [isLowSurrogate]; omega
  have hhigh : isHighSurrogate c.toNat = false := by simp [isHighSurrogate]; omega
  simp only [codeEscape, fourHex_digits h, hlow, hhigh, Bool.false_eq_true, if_false,
    Char.ofNat_toNat]

/-- The codes of a surrogate pair stand for one character. -/
theorem codeEscape_pair {first second : Text} {high low : Nat} {c : Char}
    (hfirst : FourDigits first high) (hsecond : FourDigits second low)
    (hhigh : 0xd800 ≤ high ∧ high ≤ 0xdbff) (hlow : 0xdc00 ≤ low ∧ low ≤ 0xdfff)
    (hc : c.toNat = 0x10000 + (high - 0xd800) * 0x400 + (low - 0xdc00)) (d : Document) :
    codeEscape (ofText (first ++ '\\' :: 'u' :: second) ++ d) = .ok (c, 10) := by
  have hnot : isLowSurrogate high = false := by simp [isLowSurrogate]; omega
  have hhigh : isHighSurrogate high = true := by simp [isHighSurrogate]; omega
  have hlow : isLowSurrogate low = true := by simp [isLowSurrogate]; omega
  have hexpect : expect ['\\', 'u'] (some '\\' :: some 'u' :: (ofText second ++ d)) =
      .ok (ofText second ++ d) := rfl
  have hchar : Char.ofNat ((high - 0xd800) * 0x400 + (low - 0xdc00) + 0x10000) = c := by
    rw [show (high - 0xd800) * 0x400 + (low - 0xdc00) + 0x10000 = c.toNat by omega,
      Char.ofNat_toNat]
  simp only [ofText_concat, ofText_cons, List.append_assoc, List.cons_append, codeEscape,
    fourHex_digits hfirst, hnot, hhigh, List.drop_left' hfirst.length, hexpect,
    fourHex_digits hsecond, hlow, hchar, Bool.false_eq_true, if_false, if_true]

/-- A backslash and an escape stand for the character of the escape. -/
theorem readUnits_escape (escape : Text) {c : Char} {d units rest : Document}
    (hescape : readEscape (ofText escape ++ d) = .ok (c, escape.length))
    (h : readUnits d = .ok (units, rest)) :
    readUnits (ofText ('\\' :: escape) ++ d) = .ok (some c :: units, rest) := by
  have hdrop : (ofText escape ++ d).drop escape.length = d :=
    List.drop_left' (List.length_map _)
  rw [ofText_cons, List.cons_append, readUnits, if_neg (by decide), if_pos rfl, hescape]
  simp only [hdrop, h]
  rfl

/-- However a character is written, it is read back, whatever comes after it. -/
theorem readUnits_spells {written : Text} {c : Char} (hspells : Spells written c)
    {d units rest : Document} (h : readUnits d = .ok (units, rest)) :
    readUnits (ofText written ++ d) = .ok (some c :: units, rest) := by
  cases hspells with
  | plain hplain =>
    rw [ofText_cons, ofText_nil, List.cons_append, List.nil_append, readUnits,
      if_neg (by simpa using hplain.1), if_neg (by simpa using hplain.2.1), hplain.isControl,
      if_neg (by decide), h]
    rfl
  | @short e _ hshort =>
    refine readUnits_escape [e] ?_ h
    rw [ofText_cons, List.cons_append, readEscape, simpleEscape?_of_mem hshort]
    · rfl
    · simpa using ne_u_of_mem hshort
  | @code digits _ hcode =>
    refine readUnits_escape ('u' :: digits) ?_ h
    have hlength : digits.length = 4 := by simpa [ofText] using hcode.length
    rw [ofText_cons, List.cons_append, readEscape, codeEscape_char hcode, List.length_cons,
      hlength]
  | @pair first second _ _ _ hfirst hsecond hhigh hlow hc =>
    refine readUnits_escape ('u' :: (first ++ '\\' :: 'u' :: second)) ?_ h
    have hlength : first.length = 4 ∧ second.length = 4 :=
      ⟨by simpa [ofText] using hfirst.length, by simpa [ofText] using hsecond.length⟩
    rw [ofText_cons, List.cons_append, readEscape,
      codeEscape_pair hfirst hsecond hhigh hlow hc]
    simp [hlength]

/-- However a text is written, it is read back up to the closing quote. -/
theorem readString_spells {parts : List Text} {t : Text} (h : List.Forall₂ Spells parts t)
    (rest : Document) :
    readString (ofText (parts.flatten ++ ['"']) ++ rest) = .ok (t, rest) := by
  have hunits :
      readUnits (ofText (parts.flatten ++ ['"']) ++ rest) = .ok (ofText t, rest) := by
    induction h with
    | nil =>
      rw [List.flatten_nil, List.nil_append, ofText_cons, List.cons_append, readUnits, if_pos rfl]
      rfl
    | cons hspells _ ih =>
      rw [List.flatten_cons, List.append_assoc, ofText_concat, List.append_assoc]
      exact readUnits_spells hspells ih
  rw [readString, hunits]
  simp only [text?_ofText]

/-! ## Numbers -/

/-- One or more decimal digits. -/
def Digits (t : Text) : Prop := t ≠ [] ∧ ∀ c ∈ t, c.isDigit = true

/-- The digits before the point: a zero alone, or digits that begin with another one. -/
def WholeText (t : Text) : Prop := t = ['0'] ∨ Digits t ∧ t.head? ≠ some '0'

/-- The point and the digits after it, if there is one. -/
inductive FractionText : Text → Prop
  | none : FractionText []
  | some {digits : Text} (h : Digits digits) : FractionText ('.' :: digits)

/-- The letter, the sign and the digits of the exponent, if there is one. -/
inductive ExponentText : Text → Prop
  | none : ExponentText []
  | some {letter : Char} {sign digits : Text} (hletter : letter = 'e' ∨ letter = 'E')
      (hsign : sign = [] ∨ sign = ['+'] ∨ sign = ['-']) (h : Digits digits) :
    ExponentText (letter :: (sign ++ digits))

/-- A number without a sign. -/
inductive UnsignedText : Text → Prop
  | mk {whole fraction exponent : Text} (hwhole : WholeText whole)
      (hfraction : FractionText fraction) (hexponent : ExponentText exponent) :
    UnsignedText (whole ++ (fraction ++ exponent))

/-- A number. -/
inductive NumberText : Text → Prop
  | positive {t : Text} (h : UnsignedText t) : NumberText t
  | negative {t : Text} (h : UnsignedText t) : NumberText ('-' :: t)

/-- Whether the digits of a number may end before what follows. -/
def DigitsEnd (rest : Document) : Prop := ∀ u ∈ rest.head?, isDigit u = false

/-- Whether a number may end before what follows. -/
def NumberEnds (rest : Document) : Prop :=
  ∀ u ∈ rest.head?, isDigit u = false ∧ u ≠ some '.' ∧ u ≠ some 'e' ∧ u ≠ some 'E'

theorem NumberEnds.digitsEnd {rest : Document} (h : NumberEnds rest) : DigitsEnd rest :=
  fun u hu => (h u hu).1

/-- A number may end before a unit that could not prolong it. -/
theorem numberEnds_cons {u : Option Char} {rest : Document} (hdigit : isDigit u = false)
    (hother : u ≠ some '.' ∧ u ≠ some 'e' ∧ u ≠ some 'E') : NumberEnds (u :: rest) := by
  intro v hv
  cases hv
  exact ⟨hdigit, hother⟩

/-- A number may end before blanks. -/
theorem NumberEnds.blanks {blanks : Text} (hblanks : Blanks blanks) {rest : Document}
    (h : NumberEnds rest) : NumberEnds (ofText blanks ++ rest) := by
  cases blanks with
  | nil => exact h
  | cons c blanks =>
    rcases hblanks c List.mem_cons_self with rfl | rfl | rfl | rfl <;>
      exact numberEnds_cons rfl (by decide)

theorem ne_of_isDigit {u v : Option Char} (hu : isDigit u = true) (hv : isDigit v = false) :
    u ≠ v := by
  rintro rfl
  rw [hu] at hv
  cases hv

theorem isDigit_of_charIsDigit {c : Char} (h : c.isDigit = true) : isDigit (some c) = true := by
  simpa [isDigit, CharClass.isDecimalDigit, Char.isDigit, Char.le_def] using h

theorem Digits.isDigit {t : Text} (h : Digits t) : ∀ u ∈ ofText t, isDigit u = true := by
  intro u hu
  obtain ⟨c, hc, rfl⟩ := List.mem_map.1 hu
  exact isDigit_of_charIsDigit (h.2 c hc)

theorem WholeText.digits {t : Text} (h : WholeText t) : Digits t := by
  obtain rfl | h := h
  · exact ⟨by decide, List.forall_mem_singleton.2 rfl⟩
  · exact h.1

/-- Digits are read up to their end. -/
theorem digits1_text {t : Text} (h : Digits t) {rest : Document} (hend : DigitsEnd rest) :
    digits1 (ofText t ++ rest) = .ok ((ofText t).map digitValue, rest) := by
  have hstop : rest.takeWhile Json.isDigit = [] ∧ rest.dropWhile Json.isDigit = rest := by
    cases rest with
    | nil => exact ⟨rfl, rfl⟩
    | cons u rest => simp [hend u rfl]
  have hrun : digitRun (ofText t ++ rest) = ((ofText t).map digitValue, rest) := by
    rw [digitRun, List.takeWhile_append_of_pos h.isDigit, List.dropWhile_append_of_pos h.isDigit,
      hstop.1, hstop.2, List.append_nil]
  obtain ⟨c, t, rfl⟩ := List.exists_cons_of_ne_nil h.1
  rw [digits1, hrun]
  rfl

/-- Digits without a leading zero are read up to their end. -/
theorem wholeDigits_text {t : Text} (h : WholeText t) {rest : Document} (hend : DigitsEnd rest) :
    wholeDigits (ofText t ++ rest) = .ok ((ofText t).map digitValue, rest) := by
  rw [wholeDigits, digits1_text h.digits hend]
  obtain rfl | ⟨hdigits, hhead⟩ := h
  · rfl
  · obtain ⟨c, t, rfl⟩ := List.exists_cons_of_ne_nil hdigits.1
    have hc : digitValue (some c) ≠ 0 := by
      intro hzero
      have hdigit := hdigits.2 c List.mem_cons_self
      have hle : '0'.toNat ≤ c.toNat := by
        simp only [Char.isDigit, Bool.and_eq_true, decide_eq_true_eq] at hdigit
        exact hdigit.1
      have hsub : c.toNat - '0'.toNat = 0 := hzero
      have heq : c = '0' := Char.toNat_inj.1 (by omega)
      exact hhead (by rw [heq]; rfl)
    rw [ofText_cons, List.map_cons]
    match hd : digitValue (some c) with
    | 0 => exact absurd hd hc
    | _ + 1 => rfl

theorem fractionDigits_none {rest : Document} (h : rest.head? ≠ some (some '.')) :
    fractionDigits rest = .ok (none, rest) := by
  unfold fractionDigits
  split
  · exact absurd rfl h
  · rfl

theorem exponentDigits_none {rest : Document} (h : NumberEnds rest) :
    exponentDigits rest = .ok (none, rest) := by
  unfold exponentDigits
  split
  · exact absurd rfl (h _ rfl).2.2.1
  · exact absurd rfl (h _ rfl).2.2.2
  · rfl

/-- A fraction is read up to its end. -/
theorem fractionDigits_text {t : Text} (h : FractionText t) {rest : Document}
    (hend : DigitsEnd rest) (hpoint : rest.head? ≠ some (some '.')) :
    ∃ ds, fractionDigits (ofText t ++ rest) = .ok (ds, rest) := by
  cases h with
  | none => exact ⟨.none, fractionDigits_none hpoint⟩
  | @some digits h =>
    refine ⟨.some ((ofText digits).map digitValue), ?_⟩
    rw [ofText_cons, List.cons_append, fractionDigits, digits1_text h hend]

/-- The sign of an exponent is read up to the digits. -/
theorem exponentSign_text {sign digits : Text} (hsign : sign = [] ∨ sign = ['+'] ∨ sign = ['-'])
    (h : Digits digits) (rest : Document) :
    (exponentSign (ofText (sign ++ digits) ++ rest)).2 = ofText digits ++ rest := by
  obtain rfl | rfl | rfl := hsign
  · obtain ⟨c, digits, rfl⟩ := List.exists_cons_of_ne_nil h.1
    have hc := h.2 c List.mem_cons_self
    rw [List.nil_append, ofText_cons, List.cons_append]
    unfold exponentSign
    split
    · next heq => cases heq; cases hc
    · next heq => cases heq; cases hc
    · rfl
  · rfl
  · rfl

/-- An exponent is read up to its end. -/
theorem exponentDigits_text {t : Text} (h : ExponentText t) {rest : Document}
    (hend : NumberEnds rest) : ∃ ds, exponentDigits (ofText t ++ rest) = .ok (ds, rest) := by
  cases h with
  | none => exact ⟨.none, exponentDigits_none hend⟩
  | @some letter sign digits hletter hsign h =>
    have hdigits := digits1_text h hend.digitsEnd
    rw [← exponentSign_text hsign h rest] at hdigits
    rw [ofText_cons, List.cons_append]
    refine ⟨.some ((exponentSign (ofText (sign ++ digits) ++ rest)).1,
      (ofText digits).map digitValue), ?_⟩
    obtain rfl | rfl := hletter <;> simp only [exponentDigits, hdigits]

theorem UnsignedText.exists_cons {t : Text} (h : UnsignedText t) :
    ∃ c rest, t = c :: rest ∧ isDigit (some c) = true := by
  obtain ⟨hwhole, -, -⟩ := h
  obtain ⟨c, digits, rfl⟩ := List.exists_cons_of_ne_nil hwhole.digits.1
  exact ⟨c, _, rfl, isDigit_of_charIsDigit (hwhole.digits.2 c List.mem_cons_self)⟩

/-- A number is read up to its end. -/
theorem numberParts_text {t : Text} (h : UnsignedText t) {rest : Document}
    (hend : NumberEnds rest) : ∃ parts, numberParts (ofText t ++ rest) = .ok (parts, rest) := by
  cases h with
  | @mk whole fraction exponent hwhole hfraction hexponent =>
  have hexponentEnd : DigitsEnd (ofText exponent ++ rest) ∧
      (ofText exponent ++ rest).head? ≠ some (some '.') := by
    cases hexponent with
    | none => exact ⟨hend.digitsEnd, fun hu => (hend _ hu).2.1 rfl⟩
    | some hletter =>
      refine ⟨fun u hu => ?_, ?_⟩ <;> obtain rfl | rfl := hletter
      · cases hu; rfl
      · cases hu; rfl
      · simp
      · simp
  have hfractionEnd : DigitsEnd (ofText fraction ++ (ofText exponent ++ rest)) := by
    cases hfraction with
    | none => exact hexponentEnd.1
    | some => intro u hu; cases hu; rfl
  obtain ⟨fractionDs, hfractionDs⟩ :=
    fractionDigits_text hfraction hexponentEnd.1 hexponentEnd.2
  obtain ⟨exponentDs, hexponentDs⟩ := exponentDigits_text hexponent hend
  refine ⟨⟨(ofText whole).map digitValue, fractionDs, exponentDs⟩, ?_⟩
  rw [ofText_concat, ofText_concat, List.append_assoc, List.append_assoc]
  simp only [numberParts, wholeDigits_text hwhole hfractionEnd, hfractionDs, hexponentDs]

/-! ### Decimal digits -/

/-- The values of the decimal digits of a number. -/
def digitValues (n : Nat) : List Nat := (ofText (Text.decimal n)).map digitValue

theorem decimal_eq (n : Nat) :
    Text.decimal n =
      if n < 10 then [n.digitChar] else Text.decimal (n / 10) ++ [(n % 10).digitChar] :=
  Nat.toDigits_eq_if (by decide)

theorem digitValues_eq (n : Nat) :
    digitValues n = if n < 10 then [n] else digitValues (n / 10) ++ [n % 10] := by
  have hvalue {k : Nat} (hk : k < 10) : digitValue (some k.digitChar) = k :=
    Nat.toNat_digitChar_sub_48_of_lt_ten hk
  rw [digitValues, decimal_eq]
  split
  · next h => simp [hvalue h]
  · simp [digitValues, hvalue (Nat.mod_lt n (by decide : 0 < 10))]

/-- The digits of a number denote it. -/
theorem digitsValue_digitValues (n : Nat) : digitsValue (digitValues n) = n := by
  induction n using Nat.strongRecOn with
  | ind n ih =>
    rw [digitValues_eq]
    split
    · simp [digitsValue]
    · next h =>
      have hprev := ih (n / 10) (by omega)
      rw [digitsValue] at hprev ⊢
      rw [List.foldl_append, hprev]
      simp only [List.foldl_cons, List.foldl_nil]
      omega

/-- Digits are all taken in if their number fits sixty-four bits. -/
theorem absorb_of_lt {value : Nat} {ds : List Nat}
    (h : ds.foldl (fun n d => n * 10 + d) value < Checked.limit) :
    absorb value ds = (ds.foldl (fun n d => n * 10 + d) value, []) := by
  have hle (ds : List Nat) (value : Nat) : value ≤ ds.foldl (fun n d => n * 10 + d) value := by
    induction ds generalizing value with
    | nil => exact Nat.le_refl _
    | cons d ds ih =>
      have := ih (value * 10 + d)
      rw [List.foldl_cons]
      omega
  induction ds generalizing value with
  | nil => rfl
  | cons d ds ih =>
    rw [List.foldl_cons] at h ⊢
    rw [absorb, if_pos (Nat.lt_of_le_of_lt (hle ds _) h), ih h]

/-- The decimal digits of a number have no leading zero. -/
theorem wholeText_decimal (n : Nat) : WholeText (Text.decimal n) := by
  have hhead {n : Nat} (hn : n ≠ 0) : (Text.decimal n).head? ≠ some '0' := by
    induction n using Nat.strongRecOn with
    | ind n ih =>
      rw [decimal_eq]
      split
      · next hten =>
        have hall : ∀ k < 10, k ≠ 0 → [k.digitChar].head? ≠ some '0' := by decide
        exact hall n hten hn
      · next hten =>
        have hprev := ih (n / 10) (by omega) (by omega)
        obtain ⟨c, t, ht⟩ := List.exists_cons_of_ne_nil
          (show Text.decimal (n / 10) ≠ [] from Nat.toDigits_ne_nil)
        rw [ht] at hprev ⊢
        exact hprev
  by_cases hn : n = 0
  · exact .inl (by rw [hn]; rfl)
  · exact .inr ⟨⟨Nat.toDigits_ne_nil,
      fun c hc => Nat.isDigit_of_mem_toDigits (by decide) (by decide) hc⟩, hhead hn⟩

theorem unsignedText_decimal (n : Nat) : UnsignedText (Text.decimal n) := by
  have h : UnsignedText (Text.decimal n ++ ([] ++ [])) := ⟨wholeText_decimal n, .none, .none⟩
  rwa [List.append_nil, List.append_nil] at h

/-- Decimal digits are read as a number that has neither a fraction nor an exponent. -/
theorem numberParts_decimal (n : Nat) {rest : Document} (hends : NumberEnds rest) :
    numberParts (ofText (Text.decimal n) ++ rest) = .ok (⟨digitValues n, none, none⟩, rest) := by
  simp only [numberParts, wholeDigits_text (wholeText_decimal n) hends.digitsEnd,
    fractionDigits_none fun hu => (hends _ hu).2.1 rfl, exponentDigits_none hends, digitValues]

/-! ## Values -/

/-- The character that opens a list or an object. -/
def Frame.opening : Frame → Char
  | .list => '['
  | .object => '{'

/-- A list or an object as its elements make it up: between brackets or braces, with commas
between them, or with blanks if there is none. -/
inductive Encloses (frame : Frame) : List Text → Text → Prop
  | none {blanks : Text} (h : Blanks blanks) :
    Encloses frame [] (frame.opening :: (blanks ++ [frame.closing]))
  | some (first : Text) (more : List Text) :
    Encloses frame (first :: more)
      (frame.opening :: ([','].intercalate (first :: more) ++ [frame.closing]))

/-- A member of an object: a key, a colon and a value, with blanks around the key and the value. -/
def Joins (key value written : Text) : Prop :=
  ∃ before after, Padded key before ∧ Padded value after ∧ written = before ++ ':' :: after

/-- A part of the grammar: a value, or an element of a list or of an object. -/
inductive Part where
  | value
  | element (frame : Frame)

/-- A text that the grammar has for a part. -/
inductive Derives : Part → Text → Prop
  | word {t : Text} (h : t = "null".toList ∨ t = "true".toList ∨ t = "false".toList) :
    Derives .value t
  | number {t : Text} (h : NumberText t) : Derives .value t
  | string {t : Text} (h : StringText t) : Derives .value t
  | enclosed {frame : Frame} {elements : List Text} {t : Text}
      (helements : ∀ element ∈ elements, Derives (.element frame) element)
      (h : Encloses frame elements t) : Derives .value t
  | item {value t : Text} (hvalue : Derives .value value) (h : Padded value t) :
    Derives (.element .list) t
  | member {key value t : Text} (hkey : StringText key) (hvalue : Derives .value value)
      (h : Joins key value t) : Derives (.element .object) t

/-- Commas between texts come before all of them but the first. -/
theorem intercalate_comma (first : Text) (more : List Text) :
    [','].intercalate (first :: more) = first ++ more.flatMap (',' :: ·) := by
  induction more generalizing first with
  | nil => simp [List.intercalate_singleton]
  | cons second more ih => simp [List.intercalate_cons_cons, ih second]

theorem ofText_commas_cons (first : Text) (more : List Text) (d : Document) :
    ofText ((first :: more).flatMap (',' :: ·)) ++ d =
      some ',' :: (ofText first ++ (ofText (more.flatMap (',' :: ·)) ++ d)) := by
  rw [List.flatMap_cons, ofText_concat, ofText_cons, List.append_assoc, List.cons_append]

/-! ### Passing over a value -/

/-- The place at the start of a list or of an object, or after a comma in it. -/
def Frame.start : Frame → Bool → Place
  | .list, mayClose => .value mayClose
  | .object, mayClose => .key mayClose

section Skip
variable {frame : Frame} {frames : List Frame} {mayClose : Bool} {u : Option Char}
  {d rest : Document}

/-- Blanks make no difference before a value, before a key, or inside a list or an object. -/
theorem skip_congr {place : Place} {d d' : Document} (hplace : place ≠ .after ∨ frames ≠ [])
    (h : skipBlanks d = skipBlanks d') : skip frames place d = skip frames place d' := by
  cases place with
  | value | key =>
    conv_lhs => rw [skip, h]
    conv_rhs => rw [skip]
  | after =>
    cases frames with
    | nil => simp at hplace
    | cons =>
      conv_lhs => rw [skip, h]
      conv_rhs => rw [skip]

/-- A value that is neither a list nor an object begins with no blank, bracket or brace. -/
theorem starts_of_skipScalar (h : skipScalar u d = .ok rest) :
    isBlank u = false ∧ u ≠ some ']' ∧ u ≠ some '[' ∧ u ≠ some '{' := by
  refine ⟨?_, ?_, ?_, ?_⟩
  · by_contra hblank
    cases u with
    | none => exact hblank rfl
    | some c =>
      rcases isBlank_iff.1 (eq_true_of_ne_false hblank) with rfl | rfl | rfl | rfl <;> cases h
  all_goals
    rintro rfl
    cases h

theorem skip_scalar (h : skipScalar u d = .ok rest) :
    skip frames (.value mayClose) (u :: d) = skip frames .after rest := by
  obtain ⟨hblank, hclose, hlist, hobject⟩ := starts_of_skipScalar h
  conv_lhs => rw [skip, skipBlanks_cons hblank]
  simp only [hclose, hlist, hobject, and_false, if_false]
  split
  · next hs => rw [h] at hs; cases hs
  · next hs => rw [h] at hs; cases hs; rfl

/-- A value that is neither a list nor an object is passed over with the blanks before it. -/
theorem skipValue_of_skipScalar (hb : skipBlanks d = u :: rest) {rest' : Document}
    (h : skipScalar u rest = .ok rest') : skipValue d = .ok rest' := by
  have hu := skipBlanks_cons (d := rest) (starts_of_skipScalar h).1
  rw [skipValue, skip_congr (.inl (by simp)) (hb.trans hu.symm), skip_scalar h, skip]

theorem skip_opening :
    skip frames (.value mayClose) (some frame.opening :: d) =
      skip (frame :: frames) (frame.start true) d := by
  cases frame <;>
  · conv_lhs => rw [skip, skipBlanks_cons rfl]
    simp [Frame.opening, Frame.start]

theorem skip_closing_start :
    skip (frame :: frames) (frame.start true) (some frame.closing :: d) =
      skip frames .after d := by
  cases frame <;>
  · conv_lhs => rw [Frame.start, skip, skipBlanks_cons rfl]
    simp [Frame.closing]

theorem skip_comma :
    skip (frame :: frames) .after (some ',' :: d) =
      skip (frame :: frames) (frame.start false) d := by
  conv_lhs => rw [skip, skipBlanks_cons rfl]
  cases frame <;> rfl

theorem skip_closing :
    skip (frame :: frames) .after (some frame.closing :: d) = skip frames .after d := by
  cases frame <;>
  · conv_lhs => rw [skip, Frame.closing, skipBlanks_cons rfl]
    simp

theorem skip_key (h : skipKey d = .ok rest) :
    skip frames (.key mayClose) (some '"' :: d) = skip frames (.value false) rest := by
  conv_lhs => rw [skip, skipBlanks_cons rfl]
  simp only [Option.some.injEq, Char.reduceEq, and_false, if_false, if_true]
  split
  · next hs => rw [h] at hs; cases hs
  · next hs => rw [h] at hs; cases hs; rfl

end Skip

theorem skipNumber_text {t : Text} (h : UnsignedText t) {d : Document} (hd : NumberEnds d) :
    skipNumber (ofText t ++ d) = .ok d := by
  obtain ⟨parts, hparts⟩ := numberParts_text h hd
  rw [skipNumber, hparts]

/-- What is read as a number is what would be passed over. -/
theorem skipNumber_of_readNumber {negative : Bool} {n : Number} {d rest : Document}
    (h : readNumber negative d = .ok (n, rest)) : skipNumber d = .ok rest := by
  unfold readNumber at h
  split at h
  · cases h
  · next hparts =>
    split at h
    · cases h
    · cases h; rw [skipNumber, hparts]

theorem skipScalar_digit {u : Option Char} (h : isDigit u = true) (d : Document) :
    skipScalar u d = skipNumber (u :: d) := by
  rw [skipScalar, if_neg (ne_of_isDigit h rfl), if_neg (ne_of_isDigit h rfl), if_pos h]

/-- Passing over a part ends where the part ends, whatever is open around it. -/
def Passes : Part → Text → Prop
  | .value, t => ∀ (frames : List Frame) (mayClose : Bool) (d : Document), NumberEnds d →
    skip frames (.value mayClose) (ofText t ++ d) = skip frames .after d
  | .element frame, t => ∀ (frames : List Frame) (mayClose : Bool) (d : Document), NumberEnds d →
    skip (frame :: frames) (frame.start mayClose) (ofText t ++ d) =
      skip (frame :: frames) .after d

/-- A value with blanks around it is passed over with them inside a list or an object. -/
theorem skip_padded {value t : Text} (hvalue : Passes .value value) (h : Padded value t)
    (frame : Frame) (frames : List Frame) (mayClose : Bool) {d : Document} (hd : NumberEnds d) :
    skip (frame :: frames) (.value mayClose) (ofText t ++ d) = skip (frame :: frames) .after d := by
  obtain ⟨after, hafter, hskip⟩ := h.skipBlanks
  rw [skip_congr (.inl (by simp)) (hskip d), hvalue _ _ _ (hd.blanks hafter),
    skip_congr (.inr (by simp)) (skipBlanks_blanks hafter d)]

/-- A number may end where more elements follow, or what follows them if there are none. -/
theorem numberEnds_flatMap (elements : List Text) {d : Document} (hd : NumberEnds d) :
    NumberEnds (ofText (elements.flatMap (',' :: ·)) ++ d) := by
  cases elements with
  | nil => exact hd
  | cons => exact numberEnds_cons rfl (by decide)

/-- Elements are passed over with the commas between them and what closes them. -/
theorem skip_elements {frame : Frame} {first : Text} {more : List Text}
    (hfirst : Passes (.element frame) first)
    (hmore : ∀ element ∈ more, Passes (.element frame) element)
    (frames : List Frame) (mayClose : Bool) (d : Document) :
    skip (frame :: frames) (frame.start mayClose)
        (ofText first ++ (ofText (more.flatMap (',' :: ·)) ++ some frame.closing :: d)) =
      skip frames .after d := by
  induction more generalizing first mayClose with
  | nil =>
    have hends : NumberEnds (some frame.closing :: d) := by
      cases frame <;> exact numberEnds_cons rfl (by decide)
    rw [List.flatMap_nil, ofText_nil, List.nil_append, hfirst frames mayClose _ hends, skip_closing]
  | cons second more ih =>
    rw [ofText_commas_cons, hfirst frames mayClose _ (numberEnds_cons rfl (by decide)), skip_comma]
    exact ih (hmore second List.mem_cons_self)
      (fun element helement => hmore element (List.mem_cons_of_mem _ helement)) false

/-- A key and its colon are passed over with the blanks around the key. -/
theorem skip_joins_key {key t : Text} (hkey : StringText key) (h : Padded key t)
    (frames : List Frame) (mayClose : Bool) (d : Document) :
    skip frames (.key mayClose) (ofText t ++ some ':' :: d) = skip frames (.value false) d := by
  obtain ⟨after, hafter, hskip⟩ := h.skipBlanks
  obtain ⟨parts, hparts, rfl⟩ := hkey
  have hcolon : skipKey (ofText (parts.flatten ++ ['"']) ++ (ofText after ++ some ':' :: d)) =
      .ok d := by
    simp only [skipKey, skipString_text hparts, skipBlanks_blanks hafter,
      skipBlanks_cons (show isBlank (some ':') = false from rfl), if_true]
  rw [skip_congr (.inl (by simp)) (hskip _), ofText_cons, List.cons_append, skip_key hcolon]

/-- Whatever the grammar has for a part is passed over up to its end, however deep it nests. -/
theorem passes_of_derives {part : Part} {t : Text} (h : Derives part t) : Passes part t := by
  induction h with
  | word h =>
    intro frames mayClose d _
    rcases h with rfl | rfl | rfl <;> exact skip_scalar rfl
  | @number t h =>
    intro frames mayClose d hd
    cases h with
    | positive h =>
      have hnumber := skipNumber_text h hd
      obtain ⟨c, rest, rfl, hc⟩ := h.exists_cons
      exact skip_scalar ((skipScalar_digit hc _).trans hnumber)
    | @negative t h =>
      exact skip_scalar (u := some '-') (skipNumber_text h hd)
  | string h =>
    intro frames mayClose d _
    obtain ⟨parts, hparts, rfl⟩ := h
    rw [ofText_cons, List.cons_append]
    exact skip_scalar (by rw [skipScalar, if_pos rfl, skipString_text hparts])
  | @enclosed frame elements t _ h ih =>
    intro frames mayClose d _
    cases h with
    | @none blanks hblanks =>
      rw [ofText_cons, List.cons_append, skip_opening, ofText_concat, List.append_assoc,
        skip_congr (.inl (by cases frame <;> simp [Frame.start])) (skipBlanks_blanks hblanks _)]
      exact skip_closing_start
    | some first more =>
      rw [ofText_cons, List.cons_append, skip_opening, intercalate_comma, ofText_concat,
        ofText_concat, List.append_assoc, List.append_assoc]
      exact skip_elements (ih first List.mem_cons_self)
        (fun element helement => ih element (List.mem_cons_of_mem _ helement)) frames true d
  | item _ h ih =>
    intro frames mayClose d hd
    exact skip_padded ih h .list frames mayClose hd
  | @member key value t hkey _ h ih =>
    intro frames mayClose d hd
    obtain ⟨before, after, hbefore, hafter, rfl⟩ := h
    rw [ofText_concat, ofText_cons, List.append_assoc, List.cons_append, Frame.start,
      skip_joins_key hkey hbefore, skip_padded ih hafter .object frames false hd]

/-- A value is passed over up to its end, however deep it nests. -/
theorem skipValue_of_derives {t : Text} (h : Derives .value t) {d : Document} (hd : NumberEnds d) :
    skipValue (ofText t ++ d) = .ok d := by
  have hskip := passes_of_derives h [] false d hd
  rw [skipValue, hskip, skip]

/-- A value with blanks around it is passed over up to the blanks after it. -/
theorem skipValue_padded {value padded : Text} (hvalue : Derives .value value)
    (h : Padded value padded) {d : Document} (hd : NumberEnds d) :
    ∃ after, Blanks after ∧ skipValue (ofText padded ++ d) = .ok (ofText after ++ d) := by
  obtain ⟨after, hafter, hskip⟩ := h.skipBlanks
  refine ⟨after, hafter, ?_⟩
  rw [skipValue, skip_congr (.inl (by simp)) (hskip d)]
  exact skipValue_of_derives hvalue (hd.blanks hafter)

end Json
end LayoutLexer

import LayoutLexer.Proofs.Lexeme.LineBreak

/-! # How escapes are written

The declared grammar of escapes, form by form, and the rule that reads them.  The rule accepts just
the texts of these forms, and where an escape ends is told by the escape alone, so that what stands
after it in a literal never changes it (`Literal.escapes_selfDelimiting`).

The name of a character is read as a repetition of runs and of runs after a separator.  Two runs
that meet are one run, so what is read is one run and then runs each after one separator
(`Words.mem_kstar_iff_separated`); this is the form in which no separator is doubled and none comes
last.
-/
namespace LayoutLexer

open scoped Computability
open CharClass Recognizer Words

/-! ## Runs after separators -/

namespace Words

/-- Runs one after the other, each after its separator. -/
def separated (parts : List (Text × Text)) : Text := parts.flatMap fun part => part.1 ++ part.2

@[simp] theorem separated_nil : separated [] = [] := rfl

@[simp] theorem separated_cons (separator run : Text) (parts : List (Text × Text)) :
    separated ((separator, run) :: parts) = separator ++ (run ++ separated parts) := by
  rw [separated, List.flatMap_cons, List.append_assoc]
  rfl

/-- A separator and a nonempty run in each part. -/
def IsSeparated (isPart : Char → Bool) (separators : Language Char)
    (parts : List (Text × Text)) : Prop :=
  ∀ part ∈ parts, part.1 ∈ separators ∧ part.2 ∈ someOf isPart

variable {p : Char → Bool} {L : Language Char} {t : Text}

/-- Repeating runs and separated runs gives one run, which may be empty, and separated runs. -/
theorem mem_kstar_iff_separated :
    t ∈ (someOf p + L * someOf p)∗ ↔
      ∃ run parts, (∀ c ∈ run, p c = true) ∧ IsSeparated p L parts ∧
        t = run ++ separated parts := by
  constructor
  · intro ht
    obtain ⟨words, rfl, hwords⟩ := Language.mem_kstar.1 ht
    clear ht
    induction words with
    | nil => exact ⟨[], [], List.forall_mem_nil _, List.forall_mem_nil _, rfl⟩
    | cons word words ih =>
      obtain ⟨hword, hrest⟩ := List.forall_mem_cons.1 hwords
      obtain ⟨run, parts, hrun, hparts, heq⟩ := ih hrest
      rw [List.flatten_cons, heq]
      rcases hword with ⟨_, hword⟩ | ⟨separator, hseparator, first, ⟨hne, hfirst⟩, rfl⟩
      · -- the two runs are one
        refine ⟨word ++ run, parts, ?_, hparts, (List.append_assoc ..).symm⟩
        exact List.forall_mem_append.2 ⟨hword, hrun⟩
      · refine ⟨[], (separator, first ++ run) :: parts, List.forall_mem_nil _,
          List.forall_mem_cons.2 ⟨⟨hseparator, ?_, ?_⟩, hparts⟩, ?_⟩
        · exact List.append_ne_nil_of_left_ne_nil hne run
        · exact List.forall_mem_append.2 ⟨hfirst, hrun⟩
        · simp only [separated_cons, List.nil_append, List.append_assoc]
  · rintro ⟨run, parts, hrun, hparts, rfl⟩
    have hseparated : separated parts ∈ (someOf p + L * someOf p)∗ := by
      induction parts with
      | nil => exact Language.nil_mem_kstar _
      | cons part parts ih =>
        obtain ⟨⟨hseparator, hpart⟩, hparts⟩ := List.forall_mem_cons.1 hparts
        rw [separated, List.flatMap_cons]
        exact append_mem_kstar (.inr ⟨part.1, hseparator, part.2, hpart, rfl⟩) (ih hparts)
    by_cases hnil : run = []
    · rw [hnil]
      exact hseparated
    · exact append_mem_kstar (.inl ⟨hnil, hrun⟩) hseparated

end Words

/-! ## Texts that end by themselves -/

namespace Recognizer

/-- The recognizer accepts just the texts of a form, and no text of the form goes on as another
one. -/
structure SelfDelimiting (r : Recognizer) (Form : Text → Prop) : Prop where
  accepts : ∀ s m rest, r s = some (m, rest) ↔ m ++ rest = s ∧ Form m
  /-- No text of the form is a proper beginning of another. -/
  ends : ∀ m n, Form m → Form n → m <+: n → m = n
  /-- A text begins with one text of the form at most. -/
  unique : ∀ s m n, Form m → Form n → m <+: s → n <+: s → m = n
  /-- What is accepted is accepted before every other text too. -/
  anywhere : ∀ s m rest after, r s = some (m, rest) → r (m ++ after) = some (m, after)

/-- Words of which none goes on as another one are found whatever follows them. -/
theorem TakesLongest.selfDelimiting {r : Recognizer} {L : Language Char} {Form : Text → Prop}
    (h : TakesLongest r L) (hfree : PrefixFree L) (hform : ∀ t, t ∈ L ↔ Form t) :
    SelfDelimiting r Form where
  accepts s m rest := by
    constructor
    · intro hr
      exact ⟨h.splits hr, (hform m).1 (h.mem hr)⟩
    · rintro ⟨rfl, hm⟩
      exact h.append_of_prefixFree hfree ((hform m).2 hm) rest
  ends := by
    rintro m _ hm hn ⟨v, rfl⟩
    rw [hfree ((hform m).2 hm) ((hform _).2 hn), List.append_nil]
  unique := by
    rintro s m n hm hn ⟨v, hv⟩ ⟨w, hw⟩
    exact (hfree.eq_of_append_eq ((hform m).2 hm) ((hform n).2 hn) (hv.trans hw.symm)).1
  anywhere s m rest after hr := h.append_of_prefixFree hfree (h.mem hr) after

end Recognizer

namespace Literal

/-! ## The forms -/

/-- A decimal digit, or a letter up to `f` of either case. -/
def IsHex (c : Char) : Prop :=
  ('0' ≤ c ∧ c ≤ '9') ∨ ('a' ≤ c ∧ c ≤ 'f') ∨ ('A' ≤ c ∧ c ≤ 'F')

/-- The separators in the names of characters. -/
def nameSeparators : List Text := [[' ', '-'], ['-'], ['_'], [' ']]

/-- A letter, then letters and digits, in runs of which each but the first stands after a
separator. -/
def IsCharacterName (t : Text) : Prop :=
  ∃ c run parts, isAlphabetic c = true ∧ (∀ d ∈ run, isAlphanumeric d = true) ∧
    (∀ part ∈ parts, part.1 ∈ nameSeparators ∧ part.2 ∈ someOf isAlphanumeric) ∧
    t = c :: (run ++ separated parts)

/-- What is written as an escape. -/
inductive IsEscape : Text → Prop
  | simple {c : Char} : c ∈ ['b', 't', 'n', 'f', 'r', 'e', '\\', '"', '\'', '\x60', '0'] →
      IsEscape ['\\', c]
  | code {digits : Text} : digits.length = 2 ∨ digits.length = 4 ∨ digits.length = 6 →
      (∀ d ∈ digits, IsHex d) → IsEscape ('\\' :: '{' :: '#' :: (digits ++ ['}']))
  | name {name : Text} : IsCharacterName name → IsEscape ('\\' :: '{' :: (name ++ ['}']))

/-! ## The words have these forms -/

variable {c : Char} {t : Text}

theorem isHexDigit_iff : isHexDigit c = true ↔ IsHex c := by
  have hle (a b : Char) : a ≤ b ↔ a.toNat ≤ b.toNat := Iff.rfl
  rw [isHexDigit, isRadixDigit_iff_toNat]
  simp only [IsHex, hle, Char.reduceToNat]
  omega

theorem isSimpleEscape_iff : isSimpleEscape c = true ↔
    c ∈ ['b', 't', 'n', 'f', 'r', 'e', '\\', '"', '\'', '\x60', '0'] :=
  List.contains_iff_mem

theorem mem_nameSeparatorWords_iff : t ∈ nameSeparatorWords ↔ t ∈ nameSeparators := by
  simp only [nameSeparators, List.mem_cons, List.not_mem_nil, or_false]
  exact Iff.rfl

theorem mem_characterNameWords_iff : t ∈ characterNameWords ↔ IsCharacterName t := by
  unfold characterNameWords nameContinuationWords IsCharacterName
  simp only [mem_oneOf_mul_iff, mem_kstar_iff_separated, IsSeparated, mem_nameSeparatorWords_iff]
  constructor
  · rintro ⟨c, _, hc, ⟨run, parts, hrun, hparts, rfl⟩, rfl⟩
    exact ⟨c, run, parts, hc, hrun, hparts, rfl⟩
  · rintro ⟨c, run, parts, hc, hrun, hparts, rfl⟩
    exact ⟨c, _, hc, ⟨run, parts, hrun, hparts, rfl⟩, rfl⟩

theorem mem_hexCodeWords_iff {width : Nat} : t ∈ hexCodeWords width ↔
    ∃ digits : Text, digits.length = width ∧ (∀ d ∈ digits, IsHex d) ∧
      t = '#' :: (digits ++ ['}']) := by
  unfold hexCodeWords
  rw [mem_char_mul_iff]
  constructor
  · rintro ⟨_, ⟨digits, ⟨hlen, hdigits⟩, _, ⟨c, hc, rfl⟩, rfl⟩, rfl⟩
    refine ⟨digits, hlen, fun d hd => isHexDigit_iff.1 (hdigits d hd), ?_⟩
    rw [eq_of_beq hc]
  · rintro ⟨digits, hlen, hdigits, rfl⟩
    exact ⟨_, ⟨digits, ⟨hlen, fun d hd => isHexDigit_iff.2 (hdigits d hd)⟩, ['}'],
      ⟨'}', rfl, rfl⟩, rfl⟩, rfl⟩

theorem mem_escapeWords_iff : t ∈ escapeWords ↔ IsEscape t := by
  unfold escapeWords
  rw [mem_char_mul_iff]
  constructor
  · rintro ⟨_, ⟨c, hc, rfl⟩ | hcode, rfl⟩
    · exact .simple (isSimpleEscape_iff.1 hc)
    · obtain ⟨_, hbody, rfl⟩ := mem_char_mul_iff.1 hcode
      rcases hbody with h | h | h | ⟨name, hname, _, ⟨c, hc, rfl⟩, rfl⟩
      · obtain ⟨digits, hlen, hdigits, rfl⟩ := mem_hexCodeWords_iff.1 h
        exact .code (.inr (.inr hlen)) hdigits
      · obtain ⟨digits, hlen, hdigits, rfl⟩ := mem_hexCodeWords_iff.1 h
        exact .code (.inr (.inl hlen)) hdigits
      · obtain ⟨digits, hlen, hdigits, rfl⟩ := mem_hexCodeWords_iff.1 h
        exact .code (.inl hlen) hdigits
      · rw [eq_of_beq hc]
        exact .name (mem_characterNameWords_iff.1 hname)
  · intro h
    cases h with
    | simple hc => exact ⟨_, .inl ⟨_, isSimpleEscape_iff.2 hc, rfl⟩, rfl⟩
    | @code digits hlen hdigits =>
      refine ⟨_, .inr (mem_char_mul_iff.2 ⟨_, ?_, rfl⟩), rfl⟩
      rcases hlen with hlen | hlen | hlen
      · exact .inr (.inr (.inl (mem_hexCodeWords_iff.2 ⟨digits, hlen, hdigits, rfl⟩)))
      · exact .inr (.inl (mem_hexCodeWords_iff.2 ⟨digits, hlen, hdigits, rfl⟩))
      · exact .inl (mem_hexCodeWords_iff.2 ⟨digits, hlen, hdigits, rfl⟩)
    | @name name hname =>
      refine ⟨_, .inr (mem_char_mul_iff.2 ⟨_, ?_, rfl⟩), rfl⟩
      exact .inr (.inr (.inr ⟨name, mem_characterNameWords_iff.2 hname, _, ⟨'}', rfl, rfl⟩, rfl⟩))

/-! ## What stands in an escape -/

/-- A quote, with which a literal begins and ends. -/
def isQuote (c : Char) : Bool := c == '"' || c == '\''

/-- A class without the two quotes has none. -/
theorem not_isQuote_of_class {p : Char → Bool} (hdouble : p '"' = false)
    (hsingle : p '\'' = false) (c : Char) (hc : p c = true) : (!isQuote c) = true := by
  rw [isQuote, ne_of_class hdouble c hc, ne_of_class hsingle c hc]
  rfl

/-- No quote stands in a braced code. -/
theorem only_characterCodeWords : Only (fun c => !isQuote c) characterCodeWords := by
  have hbrace : Only (fun c => !isQuote c) (oneOf (· == '}')) :=
    only_oneOf.mono (not_isQuote_of_class rfl rfl)
  have hhex (width : Nat) : Only (fun c => !isQuote c) (hexCodeWords width) :=
    (only_oneOf.mono (not_isQuote_of_class rfl rfl)).mul
      ((only_times.mono (not_isQuote_of_class (by decide) (by decide))).mul hbrace)
  have hname : Only (fun c => !isQuote c) characterNameWords :=
    only_characterNameWords.mono (not_isQuote_of_class (by decide) (by decide))
  exact (only_oneOf.mono (not_isQuote_of_class rfl rfl)).mul
    ((hhex 6).add ((hhex 4).add ((hhex 2).add (hname.mul hbrace))))

/-- A quote in an escape makes the escape with its backslash. -/
theorem eq_of_quote_mem_escapeWords {quote : Char} (hquote : isQuote quote = true)
    (ht : t ∈ escapeWords) (hmem : quote ∈ t) : t = ['\\', quote] := by
  obtain ⟨u, hu, rfl⟩ := mem_char_mul_iff.1 ht
  have hne : quote ≠ '\\' := by
    rintro rfl
    cases hquote
  have htail := (List.mem_cons.1 hmem).resolve_left hne
  rcases hu with ⟨c, _, rfl⟩ | hcode
  · rw [List.mem_singleton.1 htail]
  · have hplain : (!isQuote quote) = true := only_characterCodeWords hcode quote htail
    rw [hquote] at hplain
    cases hplain

/-- What an escape is to the literal around it. -/
structure StandsInLiteral (t : Text) : Prop where
  /-- It lies within one line. -/
  inline : t.Inline
  /-- It has no quote but in its second place. -/
  quotes : ∀ i quote, t[i]? = some quote → isQuote quote = true → i = 1

theorem standsInLiteral_of_mem_escapeWords (ht : t ∈ escapeWords) : StandsInLiteral t := by
  refine ⟨inlineWords_escapeWords ht, ?_⟩
  intro i quote hget hquote
  have heq := eq_of_quote_mem_escapeWords hquote ht (List.mem_of_getElem? hget)
  rw [heq] at hget
  match i, hget with
  | 0, hget =>
    cases hget
    cases hquote
  | 1, _ => rfl

/-! ## The rule reads these forms -/

/-- **Escapes end by themselves**: the rule for them accepts just the texts of their grammar, each
of them whatever follows it, and none of them breaks a line or has a quote but after its
backslash. -/
theorem escapes_selfDelimiting :
    SelfDelimiting escape IsEscape ∧ ∀ m, IsEscape m → StandsInLiteral m :=
  ⟨takesLongest_escape.selfDelimiting prefixFree_escapeWords fun _ => mem_escapeWords_iff,
    fun _ hm => standsInLiteral_of_mem_escapeWords (mem_escapeWords_iff.2 hm)⟩

/-- A space and a hyphen are one separator, two hyphens are none, no separator comes last, and
three hexadecimal digits are no code. -/
example :
    escape ['\\', '{', 'a', ' ', '-', 'b', '}', '"'] =
        some (['\\', '{', 'a', ' ', '-', 'b', '}'], ['"']) ∧
      escape ['\\', '{', 'a', '-', '-', 'b', '}'] = none ∧
      escape ['\\', '{', 'a', '-', '}'] = none ∧
      escape ['\\', '{', '#', '0', '1', '2', '}'] = none := by
  decide +kernel

end Literal
end LayoutLexer

import LayoutLexer.Proofs.Longest
import LayoutLexer.Rule

/-! # The words of quoted literals

Each literal as a language: the same expression as its recognizer, but with union, concatenation
and repetition in place of first choices and greedy runs.  Its recognizer takes the longest word
because of the characters at which its parts meet: a closing brace ends a code and stands nowhere
else in it, a separator in a name is neither letter nor digit, a quote inside a string literal
stands after a backslash.
-/
namespace LayoutLexer
namespace Literal

open scoped Computability
open CharClass Recognizer Words

/-- A number sign, hexadecimal digits and the closing brace. -/
def hexCodeWords (width : Nat) : Language Char :=
  oneOf (· == '#') * (Words.times isHexDigit width * oneOf (· == '}'))

/-- What may stand between two parts of a character's name. -/
def nameSeparatorWords : Language Char := {[' ', '-']} + ({['-']} + ({['_']} + {[' ']}))

/-- A run of a character's name, with a separator before it or without one. -/
def nameContinuationWords : Language Char :=
  someOf isAlphanumeric + nameSeparatorWords * someOf isAlphanumeric

/-- The names of characters. -/
def characterNameWords : Language Char := oneOf isAlphabetic * nameContinuationWords∗

/-- Braced codes. -/
def characterCodeWords : Language Char :=
  oneOf (· == '{') * (hexCodeWords 6 + (hexCodeWords 4 +
    (hexCodeWords 2 + characterNameWords * oneOf (· == '}'))))

/-- What makes an escape after its backslash. -/
def escapeTailWords : Language Char := oneOf isSimpleEscape + characterCodeWords

/-- Escapes. -/
def escapeWords : Language Char := oneOf (· == '\\') * escapeTailWords

/-- An escape or a plain character between single quotes. -/
def characterWords : Language Char :=
  oneOf (· == '\'') * ((escapeWords + oneOf (isPlain '\'')) * oneOf (· == '\''))

/-- A run of plain characters of a string literal, or an escape. -/
def stringPartWords : Language Char := someOf (isPlain '"') + escapeWords

/-- Escapes and plain characters between double quotes. -/
def stringWords : Language Char :=
  oneOf (· == '"') * (stringPartWords∗ * oneOf (· == '"'))

/-- The texts that end with a triple quote and have none before. -/
def throughTripleQuoteWords : Language Char :=
  {t | tripleQuote <:+ t ∧ ∀ u, u <+: t → tripleQuote <:+ u → u = t}

/-- Triple quotes with anything between them but a triple quote. -/
def verbatimWords : Language Char := {tripleQuote} * throughTripleQuoteWords

/-! ## Braced codes -/

theorem takesLongest_hexCode (width : Nat) :
    TakesLongest (hexCode width) (hexCodeWords width) :=
  (takesLongest_char _).andThen
    ((takesLongest_times _ _).andThen (takesLongest_char _) prefixFree_times.separated)
    prefixFree_oneOf.separated

theorem endsAt_hexCodeWords (width : Nat) : EndsAt '}' (hexCodeWords width) :=
  EndsAt.mul (only_oneOf.avoid (by decide)) (EndsAt.mul (only_times.avoid (by decide)) endsAt_oneOf)

/-- A character that may stand in a separator. -/
def isSeparator (c : Char) : Bool := c == ' ' || c == '-' || c == '_'

theorem only_nameSeparatorWords : Only isSeparator nameSeparatorWords := by
  rintro t (rfl | rfl | rfl | rfl) <;> simp [isSeparator]

theorem begins_nameSeparatorWords : Begins isSeparator nameSeparatorWords := by
  rintro t (rfl | rfl | rfl | rfl)
  · exact ⟨_, _, rfl, rfl⟩
  · exact ⟨_, _, rfl, rfl⟩
  · exact ⟨_, _, rfl, rfl⟩
  · exact ⟨_, _, rfl, rfl⟩

/-- A separator is neither a letter nor a digit. -/
theorem isSeparator_of_isAlphanumeric (c : Char) (h : isAlphanumeric c = true) :
    isSeparator c = false := by
  rw [isSeparator, ne_of_class (by decide) c h, ne_of_class (by decide) c h,
    ne_of_class (by decide) c h]
  rfl

theorem isAlphanumeric_of_isSeparator (c : Char) (h : isSeparator c = true) :
    isAlphanumeric c = false := by
  by_contra hne
  rw [isSeparator_of_isAlphanumeric c (by simpa using hne)] at h
  cases h

theorem takesLongest_nameSeparator : TakesLongest nameSeparator nameSeparatorWords := by
  refine (takesLongest_exactly _).orElse ((takesLongest_exactly _).orElse
    ((takesLongest_exactly _).orElse (takesLongest_exactly _) ?_) ?_) ?_
  · rintro _ v rfl hv
    cases hv
  · rintro _ v rfl (hv | hv) <;> cases hv
  · rintro _ v rfl (hv | hv | hv) <;> cases hv

theorem takesLongest_nameContinuation :
    TakesLongest nameContinuation nameContinuationWords := by
  refine (takesLongest_run1 _).orElse
    (takesLongest_nameSeparator.andThen (takesLongest_run1 _) ?_) ?_
  · exact separated_of_only only_nameSeparatorWords begins_someOf.heads
      isAlphanumeric_of_isSeparator
  · exact begins_someOf.noneBeyond begins_nameSeparatorWords.mul.heads
      isSeparator_of_isAlphanumeric

/-- A separated run goes on only as a run. -/
theorem isAlphanumeric_of_separated_append {a v : Text}
    (ha : a ∈ nameSeparatorWords * someOf isAlphanumeric)
    (hv : a ++ v ∈ nameSeparatorWords * someOf isAlphanumeric) :
    ∀ c ∈ v, isAlphanumeric c = true := by
  obtain ⟨x, hx, y, ⟨hne, hy⟩, rfl⟩ := ha
  obtain ⟨x', hx', y', ⟨_, hy'⟩, heq⟩ := hv
  intro c hc
  have heq : x ++ (y ++ v) = x' ++ y' := by rw [← List.append_assoc]; exact heq.symm
  obtain ⟨w, rfl, hw⟩ | ⟨w, rfl, hw⟩ := List.append_eq_append_iff.1 heq
  · cases w with
    | nil =>
      rw [List.nil_append] at hw
      exact hy' c (hw ▸ List.mem_append_right _ hc)
    | cons d w =>
      -- the longer separator would go on with a character of the run
      cases y with
      | nil => exact absurd rfl hne
      | cons e y =>
        obtain ⟨rfl, _⟩ := List.cons.inj hw
        have := isSeparator_of_isAlphanumeric e (hy e List.mem_cons_self)
        rw [only_nameSeparatorWords hx' e (by simp)] at this
        cases this
  · exact hy' c (hw ▸ by simp [hc])

theorem takesLongest_characterName : TakesLongest characterName characterNameWords := by
  refine (takesLongest_char _).andThen ?_ prefixFree_oneOf.separated
  refine takesLongest_nameContinuation.many_runs _ ?_
    fun _ _ => isAlphanumeric_of_separated_append
  refine begins_nameSeparatorWords.mul.mono fun c hc => ?_
  rw [isAlphanumeric_of_isSeparator c hc]
  rfl

/-- A character that may stand in the name of a character. -/
def isNameChar (c : Char) : Bool := isAlphabetic c || isAlphanumeric c || isSeparator c

theorem only_characterNameWords : Only isNameChar characterNameWords := by
  have hrun : Only isNameChar (someOf isAlphanumeric) :=
    only_someOf.mono fun c hc => by simp [isNameChar, hc]
  have hseparator : Only isNameChar nameSeparatorWords :=
    only_nameSeparatorWords.mono fun c hc => by simp [isNameChar, hc]
  refine (only_oneOf.mono fun c hc => ?_).mul (hrun.add (hseparator.mul hrun)).kstar
  simp [isNameChar, hc]

theorem endsAt_codeTails : EndsAt '}' (characterNameWords * oneOf (· == '}')) :=
  EndsAt.mul (only_characterNameWords.avoid (by decide)) endsAt_oneOf

theorem takesLongest_characterCode : TakesLongest characterCode characterCodeWords := by
  have hname : TakesLongest (characterName.andThen (char (· == '}')))
      (characterNameWords * oneOf (· == '}')) :=
    takesLongest_characterName.andThen (takesLongest_char _)
      (separated_of_only only_characterNameWords begins_oneOf.heads (ne_of_class (by decide)))
  have hends (width : Nat) := endsAt_hexCodeWords width
  refine (takesLongest_char _).andThen ?_ prefixFree_oneOf.separated
  refine (takesLongest_hexCode 6).orElse ((takesLongest_hexCode 4).orElse
    ((takesLongest_hexCode 2).orElse hname ?_) ?_) ?_
  · exact (hends 2).noneBeyond endsAt_codeTails
  · exact (hends 4).noneBeyond ((hends 2).add endsAt_codeTails)
  · exact (hends 6).noneBeyond ((hends 4).add ((hends 2).add endsAt_codeTails))

theorem prefixFree_characterCodeWords : PrefixFree characterCodeWords := by
  have hends : EndsAt '}' (hexCodeWords 6 + (hexCodeWords 4 +
      (hexCodeWords 2 + characterNameWords * oneOf (· == '}')))) :=
    (endsAt_hexCodeWords 6).add ((endsAt_hexCodeWords 4).add
      ((endsAt_hexCodeWords 2).add endsAt_codeTails))
  exact PrefixFree.mul prefixFree_oneOf (hends.noneBeyond hends)

/-! ## Escapes -/

theorem begins_characterCodeWords : Begins (· == '{') characterCodeWords := begins_oneOf.mul

/-- A brace after a backslash opens a code. -/
theorem simple_noneBeyond_code : NoneBeyond (oneOf isSimpleEscape) characterCodeWords :=
  begins_oneOf.noneBeyond begins_characterCodeWords.heads (ne_of_class (by decide))

theorem code_noneBeyond_simple : NoneBeyond characterCodeWords (oneOf isSimpleEscape) := by
  refine begins_characterCodeWords.noneBeyond begins_oneOf.heads ?_
  intro c hc
  rw [eq_of_beq hc]
  decide

theorem takesLongest_escapeTail : TakesLongest escapeTail escapeTailWords :=
  (takesLongest_char _).orElse takesLongest_characterCode simple_noneBeyond_code

theorem takesLongest_escape : TakesLongest escape escapeWords :=
  (takesLongest_char _).andThen takesLongest_escapeTail prefixFree_oneOf.separated

theorem prefixFree_escapeTailWords : PrefixFree escapeTailWords :=
  PrefixFree.add prefixFree_oneOf prefixFree_characterCodeWords simple_noneBeyond_code
    code_noneBeyond_simple

theorem prefixFree_escapeWords : PrefixFree escapeWords :=
  PrefixFree.mul prefixFree_oneOf prefixFree_escapeTailWords

theorem begins_escapeWords : Begins (· == '\\') escapeWords := begins_oneOf.mul

/-- A backslash is not plain. -/
theorem isPlain_of_backslash (quote c : Char) (h : (c == '\\') = true) :
    isPlain quote c = false := by
  rw [eq_of_beq h]
  simp [isPlain]

theorem backslash_of_isPlain (quote c : Char) (h : isPlain quote c = true) :
    (c == '\\') = false := by
  simp only [isPlain, Bool.not_eq_true', Bool.or_eq_false_iff] at h
  exact h.1.2

/-! ## The literals -/

theorem takesLongest_character : TakesLongest character characterWords := by
  refine (takesLongest_char _).andThen ?_ prefixFree_oneOf.separated
  have hbeyond : NoneBeyond escapeWords (oneOf (isPlain '\'')) :=
    begins_escapeWords.noneBeyond begins_oneOf.heads (isPlain_of_backslash _)
  have hbeyond' : NoneBeyond (oneOf (isPlain '\'')) escapeWords :=
    begins_oneOf.noneBeyond begins_escapeWords.heads (backslash_of_isPlain _)
  refine (takesLongest_escape.orElse (takesLongest_char _) hbeyond).andThen
    (takesLongest_char _) ?_
  exact (PrefixFree.add prefixFree_escapeWords prefixFree_oneOf hbeyond hbeyond').separated

theorem begins_not_isPlain (quote : Char) : Begins (fun c => !isPlain quote c) escapeWords := by
  refine begins_escapeWords.mono fun c hc => ?_
  rw [isPlain_of_backslash quote c hc]
  rfl

theorem isPlain_of_escape_append (quote : Char) {a v : Text} (ha : a ∈ escapeWords)
    (hv : a ++ v ∈ escapeWords) : ∀ c ∈ v, isPlain quote c = true := by
  rw [prefixFree_escapeWords ha hv]
  nofun

theorem takesLongest_stringPart : TakesLongest stringPart stringPartWords := by
  have h := takesLongest_escape.orElse (takesLongest_run1 (isPlain '"'))
    (begins_escapeWords.noneBeyond begins_someOf.heads (isPlain_of_backslash _))
  rwa [add_comm] at h

/-- A part of a string literal begins with no quote. -/
theorem begins_stringPartWords : Begins (fun c => !(c == '"')) stringPartWords := by
  refine (begins_someOf.mono fun c hc => ?_).add (begins_escapeWords.mono fun c hc => ?_)
  · rw [ne_of_class (by decide) c hc]
    rfl
  · rw [eq_of_beq hc]
    rfl

theorem takesLongest_string : TakesLongest string stringWords := by
  refine (takesLongest_char _).andThen ?_ prefixFree_oneOf.separated
  refine (takesLongest_stringPart.many_runs _ (begins_not_isPlain _)
    fun _ _ => isPlain_of_escape_append _).andThen (takesLongest_char _) ?_
  -- parts that go on do so with whole parts, and no part begins with a quote
  intro a c u b ha hu hb
  have htail : c :: u ∈ stringPartWords∗ :=
    mem_kstar_of_kstar_append (begins_not_isPlain _)
      (fun _ _ => isPlain_of_escape_append _) ha hu
  have hquote := begins_oneOf.heads hb
  simpa [hquote] using begins_stringPartWords.heads.kstar htail

theorem takesLongest_throughTripleQuote :
    TakesLongest throughTripleQuote throughTripleQuoteWords where
  splits := splits_throughTripleQuote
  mem s m rest h := by
    induction s generalizing m rest with
    | nil => cases h
    | cons c s ih =>
      rw [throughTripleQuote] at h
      split at h
      · cases h
        refine ⟨List.suffix_rfl, fun u hu hsuffix => ?_⟩
        exact hu.eq_of_length_le hsuffix.length_le
      · next hafter =>
        simp only [Option.map_eq_some_iff, Prod.mk.injEq, Prod.exists] at h
        obtain ⟨m', rest', h', rfl, rfl⟩ := h
        obtain ⟨hends, hfirst⟩ := ih _ _ h'
        refine ⟨hends.trans (List.suffix_cons c m'), fun u hu hsuffix => ?_⟩
        cases u with
        | nil => cases List.suffix_nil.1 hsuffix
        | cons d u =>
          obtain ⟨rfl, hu'⟩ := List.cons_prefix_cons.1 hu
          rcases List.suffix_cons_iff.1 hsuffix with heq | hsuffix'
          · -- a triple quote at the front would have ended the text
            have hm := splits_throughTripleQuote h'
            obtain ⟨w, rfl⟩ := hu'
            have hfront : d :: (u ++ (w ++ rest')) = tripleQuote ++ (w ++ rest') := by
              rw [heq]
              rfl
            rw [← hm, List.append_assoc, Text.after?_eq_some_iff.2 hfront] at hafter
            cases hafter
          · rw [hfirst u hu' hsuffix']
  longest := by
    intro s t ht hs
    induction s generalizing t with
    | nil =>
      obtain rfl := List.prefix_nil.1 hs
      cases List.suffix_nil.1 ht.1
    | cons c s ih =>
      rw [throughTripleQuote]
      split
      · next after hafter =>
        refine ⟨tripleQuote, after, rfl, ?_⟩
        have hfront : tripleQuote <+: c :: s := ⟨after, (Text.after?_eq_some_iff.1 hafter).symm⟩
        have hle : tripleQuote <+: t :=
          List.prefix_of_prefix_length_le hfront hs ht.1.length_le
        rw [ht.2 tripleQuote hle List.suffix_rfl]
      · next hafter =>
        cases t with
        | nil => cases List.suffix_nil.1 ht.1
        | cons d t =>
          obtain ⟨rfl, hs'⟩ := List.cons_prefix_cons.1 hs
          have ht' : t ∈ throughTripleQuoteWords := by
            refine ⟨?_, fun u hu hsuffix => ?_⟩
            · rcases List.suffix_cons_iff.1 ht.1 with heq | hsuffix
              · obtain ⟨w, hw⟩ := hs
                rw [← hw, ← heq, Text.after?_eq_some_iff.2 rfl] at hafter
                cases hafter
              · exact hsuffix
            · have := ht.2 (d :: u) (List.cons_prefix_cons.2 ⟨rfl, hu⟩)
                (hsuffix.trans (List.suffix_cons d u))
              exact (List.cons.inj this).2
          obtain ⟨m, rest, hm, hpre⟩ := ih ht' hs'
          exact ⟨d :: m, rest, by rw [hm]; rfl, List.cons_prefix_cons.2 ⟨rfl, hpre⟩⟩

theorem takesLongest_verbatim : TakesLongest verbatim verbatimWords :=
  (takesLongest_exactly _).andThen takesLongest_throughTripleQuote
    (prefixFree_singleton _).separated

/-- After two double quotes a string literal has ended. -/
theorem tripleQuote_append_notMem_stringWords (y : Text) : tripleQuote ++ y ∉ stringWords := by
  rintro ⟨_, ⟨d, _, rfl⟩, _, ⟨a, ha, _, ⟨c, _, rfl⟩, rfl⟩, heq⟩
  obtain ⟨_, htail⟩ := List.cons.inj (show d :: (a ++ [c]) = '"' :: '"' :: '"' :: y from heq)
  cases a with
  | nil => cases htail
  | cons e a =>
    obtain ⟨rfl, _⟩ := List.cons.inj htail
    simpa using begins_stringPartWords.heads.kstar ha

theorem exists_of_mem_verbatimWords {t : Text} (h : t ∈ verbatimWords) :
    ∃ y, t = tripleQuote ++ y := by
  obtain ⟨_, rfl, y, _, rfl⟩ := h
  exact ⟨y, rfl⟩

theorem verbatimWords_notMem_stringWords {t : Text} (hv : t ∈ verbatimWords) :
    t ∉ stringWords := by
  obtain ⟨y, rfl⟩ := exists_of_mem_verbatimWords hv
  exact tripleQuote_append_notMem_stringWords y

end Literal
end LayoutLexer

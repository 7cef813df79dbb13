import LayoutLexer.Proofs.Grammar
import LayoutLexer.Proofs.Run
import LayoutLexer.Proofs.Step

/-! # Every lexeme is classified

A token whose kind is a pattern has a lexeme that this pattern accepts alone and no other one
does, a keyword apart, which is written like a lower identifier.  A token whose kind is an error
with a lexeme has one that no pattern accepts, so recovery from an error never swallows what is
well-formed.

Both rest on the longest match being what it is called: if a word of any pattern stands at the
front of a text, the longest match is at least as long (`Lexicon.le_longestMatch`), and it is
longer than the words of all patterns that come earlier (`Lexicon.lt_longestMatch`).  A broken
lexeme is longer than the longest match, or it is a literal that the pattern of its quotes does
not accept.
-/
namespace LayoutLexer

namespace Lexicon

/-! ## The longest match is the longest -/

theorem mem_patterns (p : Pattern) : p ∈ patterns := by
  cases p with
  | rule r => cases r <;> simp [patterns]
  | keyword k => simp [patterns, Keyword.mem_all]
  | symbol s => simp [patterns, Symbol.mem_all]

/-- The best of some matches is not shorter than any of them, and it is longer than the one to
begin with, unless it is that one. -/
theorem foldl_better_spec {ms : List Match} {best : Option Match} {m : Match}
    (h : ms.foldl better best = some m) :
    (∀ n ∈ ms, n.lexeme.length ≤ m.lexeme.length) ∧
      ∀ n ∈ best, n = m ∨ m ∈ ms ∧ n.lexeme.length < m.lexeme.length := by
  induction ms generalizing best with
  | nil =>
    rw [List.foldl_nil] at h
    subst h
    exact ⟨nofun, fun n hn => .inl (Option.some.inj hn).symm⟩
  | cons n ms ih =>
    rw [List.foldl_cons] at h
    obtain ⟨hall, hbest⟩ := ih h
    -- the next match or the best one so far goes on, and it is the longer one
    cases best with
    | none =>
      refine ⟨List.forall_mem_cons.2 ⟨?_, hall⟩, nofun⟩
      rcases hbest n rfl with rfl | ⟨_, hlt⟩
      · exact Nat.le_refl _
      · exact Nat.le_of_lt hlt
    | some b =>
      by_cases hlt : b.lexeme.length < n.lexeme.length
      · have hn := hbest n (by rw [better, if_pos hlt]; rfl)
        have hle : n.lexeme.length ≤ m.lexeme.length := by
          rcases hn with rfl | ⟨_, hlt'⟩ <;> omega
        refine ⟨List.forall_mem_cons.2 ⟨hle, hall⟩, ?_⟩
        rintro _ ⟨⟩
        right
        rcases hn with rfl | ⟨hmem, _⟩
        · exact ⟨List.mem_cons_self, hlt⟩
        · exact ⟨List.mem_cons_of_mem _ hmem, by omega⟩
      · have hb := hbest b (by rw [better, if_neg hlt]; rfl)
        have hle : n.lexeme.length ≤ m.lexeme.length := by
          rcases hb with rfl | ⟨_, hlt'⟩ <;> omega
        refine ⟨List.forall_mem_cons.2 ⟨hle, hall⟩, ?_⟩
        rintro _ ⟨⟩
        rcases hb with rfl | ⟨hmem, hlt'⟩
        · exact .inl rfl
        · exact .inr ⟨List.mem_cons_of_mem _ hmem, hlt'⟩

/-- Among some matches there is a best one. -/
theorem exists_foldl_better {ms : List Match} (h : ms ≠ []) :
    ∃ m, ms.foldl better none = some m := by
  have hsome (b : Match) : ∃ m, ms.tail.foldl better (some b) = some m := by
    induction ms.tail generalizing b with
    | nil => exact ⟨b, rfl⟩
    | cons n ms ih =>
      rw [List.foldl_cons]
      rcases better_eq_or (some b) n with hb | hb
      · rw [hb]
        exact ih b
      · rw [hb]
        exact ih n
  cases ms with
  | nil => exact absurd rfl h
  | cons n ms => exact hsome n

variable {s t : Text} {p : Pattern}

/-- A pattern with a word at the front of a text has a match there that begins with it. -/
theorem matchOf?_of_mem_words (ht : t ∈ p.words) (hs : t <+: s) :
    ∃ m, matchOf? s p = some m ∧ m.pattern = p ∧ t.length ≤ m.lexeme.length := by
  obtain ⟨l, rest, hr, hpre⟩ := p.takesLongest.longest ht hs
  have hne := Pattern.ne_nil_of_mem_words (p.takesLongest.mem hr)
  exact ⟨⟨p, l, rest⟩, matchOf?_eq_some_iff.2 ⟨hr, rfl, hne⟩, rfl, hpre.length_le⟩

/-- The longest match is not shorter than a word at the front of the text. -/
theorem le_longestMatch (ht : t ∈ p.words) (hs : t <+: s) :
    ∃ m, longestMatch s = some m ∧ t.length ≤ m.lexeme.length := by
  obtain ⟨n, hn, _, hle⟩ := matchOf?_of_mem_words ht hs
  have hmem : n ∈ patterns.filterMap (matchOf? s) :=
    List.mem_filterMap.2 ⟨p, mem_patterns p, hn⟩
  obtain ⟨m, hm⟩ := exists_foldl_better (List.ne_nil_of_mem hmem)
  exact ⟨m, hm, Nat.le_trans hle ((foldl_better_spec hm).1 n hmem)⟩

/-- The longest match is longer than the words of patterns that come before its pattern. -/
theorem lt_longestMatch {before after : List Pattern} (hsplit : patterns = before ++ after)
    {m : Match} (hm : longestMatch s = some m) (hlate : m.pattern ∉ before) (hp : p ∈ before)
    (ht : t ∈ p.words) (hs : t <+: s) : t.length < m.lexeme.length := by
  obtain ⟨n, hn, _, hle⟩ := matchOf?_of_mem_words ht hs
  have hmem : n ∈ before.filterMap (matchOf? s) := List.mem_filterMap.2 ⟨p, hp, hn⟩
  rw [longestMatch, hsplit, List.filterMap_append, List.foldl_append] at hm
  obtain ⟨b, hb⟩ := exists_foldl_better (List.ne_nil_of_mem hmem)
  have hnb := (foldl_better_spec hb).1 n hmem
  rcases (foldl_better_spec hm).2 b hb with rfl | ⟨_, hlt⟩
  · -- the best of the earlier matches belongs to an earlier pattern
    rcases foldl_better_mem hb with h | h
    · cases h
    · obtain ⟨q, hq, hbq⟩ := List.mem_filterMap.1 h
      rw [(matchOf?_eq_some_iff.1 hbq).2.1] at hlate
      exact absurd hq hlate
  · omega

end Lexicon

namespace Lexeme

open Lexicon

variable {s t : Text} {m : Match}

/-! ## Well-formed lexemes -/

theorem mem_words_of_longestMatch (hm : longestMatch s = some m) : m.lexeme ∈ m.pattern.words :=
  m.pattern.takesLongest.mem (matchOf?_eq_some_iff.1 (matchOf?_of_longestMatch hm).2).1

/-- An identifier that is the longest match is no keyword, since keywords come first. -/
theorem ne_keyword_of_longestMatch (hm : longestMatch s = some m)
    (hlower : m.pattern = .rule .lowerIdentifier) (k : Keyword) : m.lexeme ≠ k.text := by
  intro heq
  have hs : m.lexeme <+: s := ⟨m.rest, longestMatch_append hm⟩
  have hlt := lt_longestMatch (p := .keyword k) (List.append_assoc _ _ _) hm
    (by rw [hlower]; simp) (by simp [Keyword.mem_all]) heq hs
  exact absurd hlt (Nat.lt_irrefl _)

/-- The patterns that accept the longest match. -/
theorem accepts_longestMatch_iff (hm : longestMatch s = some m) (q : Pattern) :
    q.accepts m.lexeme = true ↔
      q = m.pattern ∨ (∃ k, m.pattern = .keyword k) ∧ q = .rule .lowerIdentifier := by
  have hmem := mem_words_of_longestMatch hm
  rw [Pattern.accepts_iff]
  constructor
  · intro hq
    rcases Pattern.eq_of_mem_words hmem hq with h | h | ⟨hlower, k, rfl⟩
    · exact .inl h.symm
    · exact .inr h
    · exact absurd hq (ne_keyword_of_longestMatch hm hlower k)
  · rintro (rfl | ⟨⟨k, hk⟩, rfl⟩)
    · exact hmem
    · rw [hk] at hmem
      rw [show m.lexeme = k.text from hmem]
      exact Pattern.keyword_mem_lower_words k

/-! ## Malformed lexemes -/

/-- A beginning of a text that is longer than the longest match is no word. -/
theorem notMem_words_of_longer (hs : t <+: s)
    (hlong : ∀ m, longestMatch s = some m → m.lexeme.length < t.length) (q : Pattern) :
    t ∉ q.words := by
  intro hq
  obtain ⟨m, hm, hle⟩ := le_longestMatch hq hs
  have := hlong m hm
  omega

/-- The pattern of the longest match begins like the text. -/
theorem lead_of_longestMatch {c : Char} {rest : Text} (hm : longestMatch (c :: rest) = some m) :
    Lead.ofPattern m.pattern = Lead.ofChar c := by
  have hlead := Pattern.lead_of_mem_words (mem_words_of_longestMatch hm)
  have happ := longestMatch_append hm
  cases heq : m.lexeme with
  | nil => exact absurd heq (longestMatch_ne_nil hm)
  | cons d l =>
    rw [heq] at hlead happ
    obtain ⟨rfl, _⟩ := List.cons.inj happ
    exact (Option.some.inj hlead).symm

/-- What opens a literal is a quote. -/
theorem quote_of_opening? {kind : LiteralKind} {c : Char} {rest : Text}
    (h : LiteralKind.opening? (c :: rest) = some kind) : c = '"' ∨ c = '\'' := by
  unfold LiteralKind.opening? at h
  split at h
  · next heq => exact .inl (List.cons.inj heq).1
  · next heq => exact .inl (List.cons.inj heq).1
  · next heq => exact .inr (List.cons.inj heq).1
  · cases h

theorem opening?_eq_verbatim_iff :
    LiteralKind.opening? s = some .verbatim ↔ Literal.tripleQuote <+: s := by
  constructor
  · intro h
    unfold LiteralKind.opening? at h
    split at h
    · next rest => exact ⟨rest, rfl⟩
    · cases h
    · cases h
    · cases h
  · rintro ⟨rest, rfl⟩
    rfl

theorem opening?_of_not_triple {c : Char} {rest : Text}
    (h : ¬ Literal.tripleQuote <+: c :: rest) :
    LiteralKind.opening? (c :: rest) =
      if c = '"' then some .string else if c = '\'' then some .character else none := by
  unfold LiteralKind.opening?
  split
  · next after heq => exact absurd ⟨after, heq.symm⟩ h
  · next heq => rw [(List.cons.inj heq).1, if_pos rfl]
  · next heq =>
    rw [(List.cons.inj heq).1]
    rfl
  · next hdouble hquote =>
    rw [if_neg fun hc => hdouble rest (by rw [hc]), if_neg fun hc => hquote rest (by rw [hc])]

/-- No string literal begins with a triple quote, so where one stands a string literal is two
quotes. -/
theorem length_lt_of_string (hs : Literal.tripleQuote <+: s) (hm : longestMatch s = some m)
    (hstring : m.pattern = .rule .stringLiteral) : m.lexeme.length < 3 := by
  have hmem := mem_words_of_longestMatch hm
  rw [hstring] at hmem
  by_contra hle
  have hfront : m.lexeme <+: s := ⟨m.rest, longestMatch_append hm⟩
  obtain ⟨y, hy⟩ := List.prefix_of_prefix_length_le hs hfront
    (show Literal.tripleQuote.length ≤ m.lexeme.length from Nat.le_of_not_lt hle)
  rw [← hy] at hmem
  exact Literal.tripleQuote_append_notMem_stringWords y hmem

/-- What matches at an opening quote is the literal that it opens, but for the two quotes at the
front of a triple quote. -/
theorem pattern_of_opening? {kind : LiteralKind} {c : Char} {rest : Text}
    (hopen : LiteralKind.opening? (c :: rest) = some kind)
    (hm : longestMatch (c :: rest) = some m) :
    m.pattern = .rule kind.rule ∨ kind = .verbatim ∧ m.lexeme.length < 3 := by
  have hlead := lead_of_longestMatch hm
  rcases quote_of_opening? hopen with rfl | rfl
  · have hdouble := Pattern.eq_of_lead_doubleQuote hlead
    by_cases htriple : Literal.tripleQuote <+: '"' :: rest
    · obtain rfl : LiteralKind.verbatim = kind :=
        Option.some.inj ((opening?_eq_verbatim_iff.2 htriple).symm.trans hopen)
      rcases hdouble with hp | hp
      · exact .inr ⟨rfl, length_lt_of_string htriple hm hp⟩
      · exact .inl hp
    · obtain rfl : LiteralKind.string = kind :=
        Option.some.inj ((opening?_of_not_triple htriple).symm.trans hopen)
      left
      rcases hdouble with hp | hp
      · exact hp
      · -- a verbatim string would have opened one
        have hmem := mem_words_of_longestMatch hm
        rw [hp] at hmem
        obtain ⟨y, hy⟩ := Literal.exists_of_mem_verbatimWords hmem
        have hfront : Literal.tripleQuote <+: m.lexeme := ⟨y, hy.symm⟩
        exact absurd (hfront.trans ⟨m.rest, longestMatch_append hm⟩) htriple
  · obtain rfl : LiteralKind.character = kind := Option.some.inj hopen
    exact .inl (Pattern.eq_of_lead_quote hlead)

/-- If the longest match at an opening quote has another pattern than the literal it opens, the
broken literal is no word. -/
theorem brokenLiteral_notMem_words {kind : LiteralKind} {quote : Char} {inside : Text}
    (hopen : LiteralKind.opening? (quote :: inside) = some kind)
    (hother : ∀ m, longestMatch (quote :: inside) = some m → m.pattern ≠ .rule kind.rule)
    (q : Pattern) : (brokenLiteral kind quote inside).text ∉ q.words := by
  intro hq
  have hs : (brokenLiteral kind quote inside).text <+: quote :: inside :=
    ⟨_, (fronts_brokenLiteral kind quote inside).1⟩
  obtain ⟨m, hm, hle⟩ := le_longestMatch hq hs
  rcases pattern_of_opening? hopen hm with hpattern | ⟨rfl, hlt⟩
  · exact hother m hm hpattern
  · -- an open verbatim string is the whole text, and so would be the longest match
    have htriple := (opening?_eq_verbatim_iff.1 hopen).length_le
    have hwhole : (quote :: inside).length ≤ m.lexeme.length := hle
    rw [show Literal.tripleQuote.length = 3 from rfl] at htriple
    omega

/-- A malformed word is longer than the longest match. -/
theorem word_notMem_words {s : Text} {m : Match} {e : ErrorKind}
    (hm : longestMatch s = some m) (h : (word s m).kind = .error e) (q : Pattern) :
    (word s m).text ∉ q.words := by
  unfold word at h ⊢
  by_cases hlt : m.lexeme.length < (Identifier.wordRun s).1.length
  · rw [if_pos hlt]
    refine notMem_words_of_longer ⟨_, Identifier.wordRun_append s⟩ ?_ q
    intro n hn
    rw [hm] at hn
    cases hn
    exact hlt
  · rw [if_neg hlt] at h
    cases h

/-- A malformed number is a number and a word after it, so it is longer than the longest match. -/
theorem number_notMem_words {s : Text} {m : Match} {e : ErrorKind}
    (hm : longestMatch s = some m) (h : (number m).kind = .error e) (q : Pattern) :
    (number m).text ∉ q.words := by
  have happ := Identifier.wordRun_append m.rest
  unfold number at h ⊢
  split at h
  · cases h
  · next run after hne hrun =>
    rw [hrun] at happ
    have hpre : m.lexeme ++ run <+: s :=
      ⟨after, by rw [List.append_assoc, happ, longestMatch_append hm]⟩
    refine notMem_words_of_longer hpre ?_ q
    intro n hn
    rw [hm] at hn
    cases hn
    have := List.length_pos_iff.2 hne
    rw [List.length_append]
    omega

/-- A malformed lexeme is no word of any pattern. -/
theorem notMem_words_of_error {c : Char} {rest : Text} {e : ErrorKind}
    (h : (read c rest).kind = .error e) (q : Pattern) : (read c rest).text ∉ q.words := by
  have hnone {t : Text} (hm : longestMatch (c :: rest) = none) (ht : t <+: c :: rest) :
      t ∉ q.words :=
    notMem_words_of_longer ht (fun n hn => by rw [hm] at hn; cases hn) q
  unfold read at h ⊢
  cases hopen : LiteralKind.opening? (c :: rest) with
  | some kind =>
    rw [hopen] at h
    dsimp only at h ⊢
    unfold literal at h ⊢
    cases hm : longestMatch (c :: rest) with
    | some m =>
      rw [hm] at h
      dsimp only at h ⊢
      by_cases hrule : m.pattern = .rule kind.rule
      · rw [if_pos hrule] at h
        cases h
      · rw [if_neg hrule]
        exact brokenLiteral_notMem_words hopen
          (fun n hn => by rw [hm] at hn; cases hn; exact hrule) q
    | none => exact brokenLiteral_notMem_words hopen (fun n hn => by rw [hm] at hn; cases hn) q
  | none =>
    rw [hopen] at h
    dsimp only at h ⊢
    unfold unquoted at h ⊢
    cases hm : longestMatch (c :: rest) with
    | some m =>
      rw [hm] at h
      dsimp only at h ⊢
      by_cases hisWord : m.pattern.isWord = true
      · rw [if_pos hisWord] at h ⊢
        exact word_notMem_words hm h q
      · rw [if_neg hisWord] at h ⊢
        by_cases hisNumber : m.pattern.isNumber = true
        · rw [if_pos hisNumber] at h ⊢
          exact number_notMem_words hm h q
        · rw [if_neg hisNumber] at h
          cases h
    | none =>
      -- nothing matches, so no beginning of the text is a word
      dsimp only
      by_cases hletter : (CharClass.isAlphabetic c || c == '_') = true
      · rw [if_pos hletter]
        exact hnone hm ⟨_, Identifier.wordRun_append (c :: rest)⟩
      · rw [if_neg hletter]
        exact hnone hm ⟨rest, rfl⟩

end Lexeme

/-! ## Classified tokens -/

/-- What the kind of a token says about its lexeme. -/
structure Classified (kind : TokenKind) (lexeme : Text) : Prop where
  /-- Layout, the end of the text and a failed indentation have an empty lexeme. -/
  synthetic : kind = .indent ∨ kind = .dedent ∨ kind = .endOfFile ∨
    kind = .error .indentation → lexeme = []
  /-- The lexeme of any other error is not empty, and no pattern accepts it. -/
  malformed : ∀ e, kind = .error e → e ≠ .indentation →
    lexeme ≠ [] ∧ ∀ q ∈ Lexicon.patterns, q.accepts lexeme = false
  /-- Any other kind is a pattern of the lexicon.  The patterns that accept the lexeme, taken
  alone, are this one and, if this one is a keyword, that of lower identifiers. -/
  wellFormed : kind.isSynthetic = false → kind.isError = false →
    ∃ p ∈ Lexicon.patterns, kind.pattern? = some p ∧ p.accepts lexeme = true ∧
      ∀ q ∈ Lexicon.patterns, q.accepts lexeme = true ↔
        q = p ∨ (∃ k, p = .keyword k) ∧ q = .rule .lowerIdentifier

theorem Classified.of_isSynthetic (kind : TokenKind) (h : kind.isSynthetic = true) :
    Classified kind [] where
  synthetic _ := rfl
  malformed := by
    rintro e rfl hne
    cases e with
    | indentation => exact absurd rfl hne
    | _ => cases h
  wellFormed hno := by
    rw [h] at hno
    cases hno

theorem Lexeme.classified_read (c : Char) (rest : Text) :
    Classified (read c rest).kind (read c rest).text where
  synthetic := by
    have hsynthetic := isSynthetic_kind_read c rest
    rintro (h | h | h | h) <;> rw [h] at hsynthetic <;> cases hsynthetic
  malformed := by
    intro e he _
    refine ⟨(fronts_read c rest).2, fun q _ => ?_⟩
    have hno := notMem_words_of_error he q
    rw [← Pattern.accepts_iff, Bool.not_eq_true] at hno
    exact hno
  wellFormed := by
    intro _ herror
    rcases read_cases c rest with ⟨m, hm, hread⟩ | ⟨e, he, _⟩
    · rw [hread]
      have haccepts := accepts_longestMatch_iff hm
      exact ⟨m.pattern, Lexicon.mem_patterns _, rfl, (haccepts _).2 (.inl rfl),
        fun q _ => haccepts q⟩
    · rw [he] at herror
      cases herror

namespace Scanner

/-! ## The tokens of a run -/

section Everywhere

variable {P : TokenKind → Text → Prop} {s : Scanner} {tokens : List Token}

/-- Tokens without a lexeme may be queued. -/
theorem forall_mem_append_layoutToken {kinds : List TokenKind}
    (hlayout : ∀ k : TokenKind, k.isSynthetic = true → P k [])
    (hs : ∀ t ∈ tokens, P t.kind t.lexeme) (hkinds : ∀ k ∈ kinds, k.isSynthetic = true) :
    ∀ t ∈ tokens ++ kinds.map s.layoutToken, P t.kind t.lexeme := by
  intro t ht
  rcases List.mem_append.1 ht with ht | ht
  · exact hs t ht
  · obtain ⟨k, hk, rfl⟩ := List.mem_map.1 ht
    exact hlayout k (hkinds k hk)

/-- A step queues layout tokens, the end of the text or a lexeme. -/
theorem forall_mem_step (hlayout : ∀ k : TokenKind, k.isSynthetic = true → P k [])
    (hlexeme : ∀ c rest, P (Lexeme.read c rest).kind (Lexeme.read c rest).text)
    {out : List Token} (h : ∀ t ∈ out ++ s.pending, P t.kind t.lexeme) {s' : Scanner}
    (hs : s.step = .ok s') : ∀ t ∈ out ++ s'.pending, P t.kind t.lexeme := by
  obtain ⟨t, ht, hend⟩ := step_cases hs
  have hbegun : ∀ u ∈ out ++ t.pending, P u.kind u.lexeme := by
    rcases beginLine_cases ht with rfl | ⟨width, _, _, _, _, rfl⟩
    · exact h
    · rw [indentTo_eq]
      show ∀ u ∈ out ++ (s.pending ++ _), _
      rw [← List.append_assoc]
      refine forall_mem_append_layoutToken hlayout h fun k hk => ?_
      rcases Transition.isLayout_of_mem_kinds hk with rfl | rfl | rfl <;> rfl
  rcases hend with ⟨_, rfl⟩ | ⟨c, rest, _, rfl⟩
  · rw [finish_eq]
    show ∀ u ∈ out ++ (t.pending ++ _), _
    rw [← List.append_assoc]
    refine forall_mem_append_layoutToken hlayout hbegun fun k hk => ?_
    rcases List.mem_append.1 hk with hk | hk
    · rw [List.eq_of_mem_replicate hk]
      rfl
    · rw [List.mem_singleton.1 hk]
      rfl
  · rw [accept_eq]
    show ∀ u ∈ out ++ (t.pending ++ _), _
    rw [← List.append_assoc]
    intro u hu
    rcases List.mem_append.1 hu with hu | hu
    · exact hbegun u hu
    · rw [List.mem_singleton.1 hu]
      exact hlexeme c rest

/-- What holds of the kind and the lexeme of every layout token, of the end of the text and of
every lexeme holds of all tokens of a run. -/
theorem forall_mem_handed (hlayout : ∀ k : TokenKind, k.isSynthetic = true → P k [])
    (hlexeme : ∀ c rest, P (Lexeme.read c rest).kind (Lexeme.read c rest).text)
    {source : Text} {events : List Event} {answers : List (Option Token)} {last : Scanner}
    (h : (ofText source).run events = .ok (answers, last)) :
    ∀ t ∈ handed answers, P t.kind t.lexeme := by
  have hkept : Kept fun out s => ∀ t ∈ out ++ s.pending, P t.kind t.lexeme := by
    refine ⟨?_, ?_, ?_⟩
    · intro out s s' h _ _ hs
      exact forall_mem_step hlayout hlexeme h hs
    · intro out s t pending h hp _ u hu
      refine h u ?_
      rw [hp]
      simpa using hu
    · intro out s t pending h hp _ u hu
      refine h u ?_
      rw [hp]
      rcases List.mem_append.1 hu with hu | hu
      · exact List.mem_append_left _ hu
      · exact List.mem_append_right _ (List.mem_cons_of_mem _ hu)
  -- at the start no token is in the queue
  have hk := hkept.run (fun _ _ _ _ h => h) (fun _ _ _ h => h)
    (show ∀ t ∈ ([] : List Token) ++ (ofText source).pending, P t.kind t.lexeme from nofun) h
  exact fun t ht => hk t (List.mem_append_left _ ht)

end Everywhere

/-- **Every lexeme is classified, soundly, completely and unambiguously**: take any events on a
fresh scanner, and every token that it hands out is classified. -/
theorem classified_of_run {source : Text} {events : List Event}
    {answers : List (Option Token)} {last : Scanner}
    (hrun : (ofText source).run events = .ok (answers, last)) :
    ∀ t ∈ handed answers, Classified t.kind t.lexeme :=
  forall_mem_handed Classified.of_isSynthetic Lexeme.classified_read hrun

/-- A run over a keyword, a longer word, a number that runs into a word and a broken literal, in
which blocks are not tracked: its eight tokens are classified. -/
theorem classified_of_run_broken_number :
    let text : Text := ['i', 'f', ' ', 'i', 'f', 'x', ' ', '1', 'x', ' ', '\'', 'a']
    let events := .withConfig { trackIndentation := false } :: List.replicate 8 Event.next
    ∃ answers last, (ofText text).run events = .ok (answers, last) ∧
      (handed answers).length = 8 ∧ ∀ t ∈ handed answers, Classified t.kind t.lexeme := by
  intro text events
  have hok : (match (ofText text).run events with
    | .error _ => false
    | .ok (answers, _) => (handed answers).length == 8) = true := by decide +kernel
  cases hrun : (ofText text).run events with
  | error e => rw [hrun] at hok; cases hok
  | ok r =>
    obtain ⟨answers, last⟩ := r
    rw [hrun] at hok
    exact ⟨answers, last, rfl, eq_of_beq hok, classified_of_run hrun⟩

end Scanner
end LayoutLexer

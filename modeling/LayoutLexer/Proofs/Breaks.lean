import LayoutLexer.Proofs.Layout.Line
import LayoutLexer.Proofs.Lossless
import LayoutLexer.Proofs.Place

/-! # Line breaks and the tokens that stand for them

The line breaks of a text outside its verbatim strings are the lexemes of its line-break tokens, in
the same order and at the same places (`Scanner.breaks_of_run`).  So whatever counts lines may count
tokens, and no recovery from an error reaches beyond its line.

Two facts make this true.  A token other than a line break has none in its lexeme, unless a triple
quote opens it (`KeepsBreaks`).  And no token ends between a carriage return and its line feed, so
that the line breaks of the tokens, each taken alone, are those of the text
(`Text.breaks_append`).
-/
namespace LayoutLexer

open CharClass

/-! ## The line breaks of a text -/

namespace Text

/-- The line breaks of a text that begins at an offset, each with the offset at which it begins.  A
carriage return with its line feed is one. -/
def breaks (offset : Nat) : Text → List (Nat × Text)
  | [] => []
  | '\r' :: '\n' :: rest => (offset, ['\r', '\n']) :: breaks (offset + 2) rest
  | c :: rest =>
    if isLineBreak c then (offset, [c]) :: breaks (offset + c.utf8Size) rest
    else breaks (offset + c.utf8Size) rest

variable {c : Char} {s t : Text} {offset : Nat}

theorem byteLength_pair (t : Text) : byteLength ('\r' :: '\n' :: t) = 2 + t.byteLength := by
  rw [byteLength_cons, byteLength_cons, ← Nat.add_assoc]
  rfl

theorem breaks_cons (h : ¬ (c = '\r' ∧ t.head? = some '\n')) :
    breaks offset (c :: t) =
      (if isLineBreak c then [(offset, [c])] else []) ++ breaks (offset + c.utf8Size) t := by
  rw [breaks.eq_def]
  split
  · next heq => cases heq
  · next rest heq =>
    cases heq
    exact absurd ⟨rfl, rfl⟩ h
  · next heq =>
    cases heq
    split <;> rfl

/-- A cut that divides a line break does so however the text before it begins. -/
theorem SplitsBreak.cons (h : SplitsBreak s t) : SplitsBreak (c :: s) t := by
  have hne : s ≠ [] := by
    rintro rfl
    cases h.1
  exact (splitsBreak_append_left (s := [c]) hne).2 h

/-- The line breaks of two texts are those of both, unless the cut divides one. -/
theorem breaks_append (h : ¬ SplitsBreak s t) :
    breaks offset (s ++ t) = breaks offset s ++ breaks (offset + s.byteLength) t := by
  induction offset, s using breaks.induct with
  | case1 => rfl
  | case2 offset rest ih =>
    rw [List.cons_append, List.cons_append, breaks, breaks, ih fun hrest => h hrest.cons.cons,
      byteLength_pair, List.cons_append, Nat.add_assoc]
  | case3 offset c rest hpair _ ih | case4 offset c rest hpair _ ih =>
    have hhead : ¬ (c = '\r' ∧ rest.head? = some '\n') := by
      rintro ⟨hc, hhead⟩
      obtain ⟨rest', hrest⟩ := List.head?_eq_some_iff.1 hhead
      exact hpair rest' hc hrest
    have hlonger : ¬ (c = '\r' ∧ (rest ++ t).head? = some '\n') := by
      rintro ⟨rfl, hfeed⟩
      cases rest with
      | nil => exact h ⟨rfl, hfeed⟩
      | cons d rest => exact hhead ⟨rfl, hfeed⟩
    rw [List.cons_append, breaks_cons hlonger, breaks_cons hhead, ih fun hrest => h hrest.cons,
      byteLength_cons, List.append_assoc, Nat.add_assoc]

theorem breaks_of_inline (h : t.Inline) : breaks offset t = [] := by
  induction t generalizing offset with
  | nil => rfl
  | cons c t ih =>
    have hc : isLineBreak c = false := h c List.mem_cons_self
    have hpair : ¬ (c = '\r' ∧ t.head? = some '\n') := by
      rintro ⟨rfl, _⟩
      cases hc
    rw [breaks_cons hpair, hc, ih fun d hd => h d (List.mem_cons_of_mem c hd)]
    rfl

/-- A line break is its own only one. -/
theorem breaks_of_lineBreak (h : t = ['\r', '\n'] ∨ t = ['\r'] ∨ t = ['\n']) :
    breaks offset t = [(offset, t)] := by
  rcases h with rfl | rfl | rfl <;> rfl

/-- The line breaks of a text lie in it. -/
theorem offset_of_mem_breaks {b : Nat × Text} (h : b ∈ breaks offset t) :
    offset ≤ b.1 ∧ b.1 < offset + t.byteLength := by
  fun_induction breaks offset t with
  | case1 => cases h
  | case2 offset rest ih =>
    rw [byteLength_pair]
    rcases List.mem_cons.1 h with rfl | h
    · omega
    · obtain ⟨hle, hlt⟩ := ih h
      omega
  | case3 offset c rest _ _ ih =>
    have hpos := c.utf8Size_pos
    rw [byteLength_cons]
    rcases List.mem_cons.1 h with rfl | h
    · omega
    · obtain ⟨hle, hlt⟩ := ih h
      omega
  | case4 offset c rest _ _ ih =>
    obtain ⟨hle, hlt⟩ := ih h
    rw [byteLength_cons]
    omega

end Text

/-! ## What tokens hold of them -/

/-- Whether a lexeme stands between triple quotes: it is a verbatim string, or a literal that a
triple quote opens and nothing closes. -/
def tripleQuoted (kind : TokenKind) (lexeme : Text) : Bool :=
  kind == .lexical (.rule .verbatimStringLiteral) ||
    (kind == .error .literal && Literal.tripleQuote.isPrefixOf lexeme)

/-- What a token has of the line breaks of the text. -/
structure KeepsBreaks (kind : TokenKind) (lexeme : Text) : Prop where
  /-- A line break is one and nothing else. -/
  lineBreak : kind = .lexical (.rule .lineFeed) →
    lexeme = ['\r', '\n'] ∨ lexeme = ['\r'] ∨ lexeme = ['\n']
  /-- No other token has any, unless it stands between triple quotes. -/
  inline : kind ≠ .lexical (.rule .lineFeed) → tripleQuoted kind lexeme = false → lexeme.Inline

theorem KeepsBreaks.of_isSynthetic (kind : TokenKind) (h : kind.isSynthetic = true) :
    KeepsBreaks kind [] where
  lineBreak := by
    rintro rfl
    cases h
  inline _ _ := Text.inline_nil

/-- What begins with a triple quote is a verbatim string or an open one. -/
theorem Lexeme.tripleQuoted_read {c : Char} {rest : Text}
    (h : Literal.tripleQuote <+: (read c rest).text) :
    tripleQuoted (read c rest).kind (read c rest).text = true := by
  have hfront : Literal.tripleQuote <+: c :: rest := h.trans ⟨_, (fronts_read c rest).1⟩
  unfold tripleQuoted
  rcases kind_read_of_opening? (opening?_eq_verbatim_iff.2 hfront) with hkind | hkind
  · rw [hkind]
    rfl
  · rw [hkind, List.isPrefixOf_iff_prefix.2 h]
    rfl

theorem Lexeme.keepsBreaks_read (c : Char) (rest : Text) :
    KeepsBreaks (read c rest).kind (read c rest).text where
  lineBreak h := mem_words_of_kind_read h
  inline := by
    intro hother hquoted
    rcases inline_read c rest with hends | htriple | hinline
    · exact absurd (eq_of_beq hends) hother
    · rw [tripleQuoted_read htriple] at hquoted
      cases hquoted
    · exact hinline

/-! ## Tokens that lie side by side -/

/-- Whether an offset lies in a token that stands between triple quotes. -/
def inTripleQuotes (tokens : List Token) (offset : Nat) : Bool :=
  tokens.any fun t =>
    tripleQuoted t.kind t.lexeme && t.span.start.offset ≤ offset && offset < t.span.endOffset

/-- No cut between tokens divides a line break. -/
def Undivided (tokens : List Token) : Prop :=
  ∀ before after, tokens = before ++ after → ¬ Text.SplitsBreak (lexemes before) (lexemes after)

variable {t : Token} {tokens : List Token} {offset n : Nat}

theorem Undivided.head (h : Undivided (t :: tokens)) :
    ¬ Text.SplitsBreak t.lexeme (lexemes tokens) := by
  have hcut := h [t] tokens rfl
  rwa [lexemes_cons, lexemes_nil, List.append_nil] at hcut

theorem Undivided.tail (h : Undivided (t :: tokens)) : Undivided tokens := by
  rintro before after rfl hsplit
  have hne : lexemes before ≠ [] := by
    intro hnil
    rw [hnil] at hsplit
    cases hsplit.1
  apply h (t :: before) after rfl
  rwa [lexemes_cons, Text.splitsBreak_append_left hne]

theorem Tiles.le_start (h : Tiles offset tokens) : ∀ u ∈ tokens, offset ≤ u.span.start.offset := by
  induction tokens generalizing offset with
  | nil => exact List.forall_mem_nil _
  | cons t tokens ih =>
    obtain ⟨hstart, hend, hrest⟩ := h
    refine List.forall_mem_cons.2 ⟨hstart.ge, ?_⟩
    intro u hu
    have hle := ih hrest u hu
    omega

/-- Before tokens that begin later nothing stands between their triple quotes. -/
theorem inTripleQuotes_of_lt (h : Tiles offset tokens) (hn : n < offset) :
    inTripleQuotes tokens n = false := by
  rw [inTripleQuotes, List.any_eq_false]
  intro u hu
  have hle := h.le_start u hu
  simp only [Bool.and_eq_true, decide_eq_true_eq]
  omega

/-- **The line breaks outside triple quotes are the line-break tokens**, for tokens that lie side by
side and divide no line break. -/
theorem breaks_of_tiles (htiles : Tiles offset tokens) (hcuts : Undivided tokens)
    (hkeeps : ∀ t ∈ tokens, KeepsBreaks t.kind t.lexeme) :
    ((lexemes tokens).breaks offset).filter (fun b => !inTripleQuotes tokens b.1) =
      (tokens.filter Token.endsLine).map fun t => (t.span.start.offset, t.lexeme) := by
  induction tokens generalizing offset with
  | nil => rfl
  | cons t tokens ih =>
    obtain ⟨hstart, hend, hrest⟩ := htiles
    obtain ⟨hkeep, hkeeps⟩ := List.forall_mem_cons.1 hkeeps
    have hlater : ((lexemes tokens).breaks t.span.endOffset).filter
        (fun b => !inTripleQuotes (t :: tokens) b.1) =
          (tokens.filter Token.endsLine).map fun t => (t.span.start.offset, t.lexeme) := by
      rw [← ih hrest hcuts.tail hkeeps]
      apply List.filter_congr
      intro b hb
      -- the token ends where they begin
      have hbelow : ¬ b.1 < t.span.endOffset := Nat.not_lt.2 (Text.offset_of_mem_breaks hb).1
      rw [inTripleQuotes, List.any_cons, decide_eq_false hbelow, Bool.and_false, Bool.false_or]
      rfl
    have hhere : ∀ b ∈ t.lexeme.breaks offset,
        inTripleQuotes (t :: tokens) b.1 = tripleQuoted t.kind t.lexeme := by
      intro b hb
      obtain ⟨hle, hlt⟩ := Text.offset_of_mem_breaks hb
      have hafter : inTripleQuotes tokens b.1 = false :=
        inTripleQuotes_of_lt hrest (by omega)
      have hin : t.span.start.offset ≤ b.1 ∧ b.1 < t.span.endOffset := by omega
      rw [inTripleQuotes, List.any_cons, decide_eq_true hin.1, decide_eq_true hin.2, Bool.and_true,
        Bool.and_true]
      exact (congrArg _ hafter).trans (Bool.or_false _)
    rw [lexemes_cons, Text.breaks_append hcuts.head, List.filter_append, ← hend, hlater,
      List.filter_cons]
    by_cases hends : t.kind = .lexical (.rule .lineFeed)
    · have hbreak : t.lexeme.breaks offset = [(offset, t.lexeme)] :=
        Text.breaks_of_lineBreak (hkeep.lineBreak hends)
      have hplain : tripleQuoted t.kind t.lexeme = false := by rw [hends]; rfl
      have hkept := hhere (offset, t.lexeme) (by rw [hbreak]; exact List.mem_cons_self)
      rw [hbreak, List.filter_cons_of_pos (by rw [hkept, hplain]; rfl), List.filter_nil,
        if_pos (by rw [Token.endsLine, hends]; rfl), List.map_cons, hstart]
      rfl
    · have hnone : (t.lexeme.breaks offset).filter
          (fun b => !inTripleQuotes (t :: tokens) b.1) = [] := by
        cases hquoted : tripleQuoted t.kind t.lexeme with
        | true =>
          rw [List.filter_eq_nil_iff]
          intro b hb
          rw [hhere b hb, hquoted]
          exact Bool.false_ne_true
        | false => rw [Text.breaks_of_inline (hkeep.inline hends hquoted), List.filter_nil]
      rw [hnone, if_neg (by rwa [Token.endsLine, beq_iff_eq])]
      rfl

/-! ## The tokens of a run -/

namespace Scanner

variable {text : Text} {s : Scanner} {out before after : List Token}

/-- Where tokens and the place of the scan divide no line break, no cut between them does. -/
theorem Stream.not_splitsBreak (h : Stream text out s) (hlocated : Located text s)
    (hstarts : ∀ t ∈ out ++ s.pending, t.span.start.In text)
    (hsplit : out ++ s.pending = before ++ after) :
    ¬ Text.SplitsBreak (lexemes before) (lexemes after ++ s.rest) := by
  have hcovers : lexemes before ++ (lexemes after ++ s.rest) = text := by
    rw [← h.covers, hsplit, lexemes_append, List.append_assoc]
  have hplace : ∃ p : Position, p.In text ∧ p.offset = (lexemes before).byteLength := by
    cases after with
    | nil =>
      have hoffset := h.place
      rw [hsplit, List.append_nil] at hoffset
      exact ⟨s.position, hlocated.position_in, hoffset⟩
    | cons t after =>
      have htiles := h.tiles
      rw [hsplit, tiles_append, Nat.zero_add] at htiles
      exact ⟨t.span.start, hstarts t (by rw [hsplit]; simp), htiles.2.1⟩
  obtain ⟨_, ⟨b, a, htext, hcut, rfl⟩, hoffset⟩ := hplace
  obtain ⟨rfl, rfl⟩ := Text.eq_of_byteLength_eq (htext.symm.trans hcovers.symm) hoffset
  exact hcut

/-- **No recovery takes a line break away.**  Take any events on a fresh scanner of which none turns
the handing out of trivia off.  Of its tokens a line break is one of the three, and no other one has
any, unless it stands between triple quotes.  No token ends between a carriage return and its line
feed.  So the line breaks of what is handed out, of those outside triple quotes, are the line-break
tokens in their order, each where its token begins; and what is handed out is the whole text once a
request has been answered with nothing. -/
theorem breaks_of_run {source : Text} {events : List Event} {answers : List (Option Token)}
    {last : Scanner} (hrun : (ofText source).run events = .ok (answers, last))
    (hshow : ∀ config, .withConfig config ∈ events → config.skipTrivia = false) :
    (∀ t ∈ handed answers, KeepsBreaks t.kind t.lexeme) ∧
      (∀ before after, handed answers = before ++ after →
        ∃ more, source.withoutMark = lexemes before ++ more ∧
          ¬ Text.SplitsBreak (lexemes before) more) ∧
      ((lexemes (handed answers)).breaks 0).filter
          (fun b => !inTripleQuotes (handed answers) b.1) =
        ((handed answers).filter Token.endsLine).map (fun t => (t.span.start.offset, t.lexeme)) ∧
      (none ∈ answers → lexemes (handed answers) = source.withoutMark) := by
  have hstream := Stream.of_run hrun hshow
  have hsound := sound_of_run (P := fun t => t.span.start.In source.withoutMark)
    (R := fun _ => True) (fun _ h _ => h.position_in) (fun _ h _ _ _ => h.position_in)
    (fun _ _ _ _ _ => trivial) (fun _ _ _ _ _ _ _ => trivial) rfl hrun
  have hkeeps := forall_mem_handed KeepsBreaks.of_isSynthetic Lexeme.keepsBreaks_read hrun
  have hcuts : ∀ before after, handed answers = before ++ after →
      ∃ more, source.withoutMark = lexemes before ++ (lexemes after ++ more) ∧
        ¬ Text.SplitsBreak (lexemes before) (lexemes after ++ more) := by
    intro before after hsplit
    have hall : handed answers ++ last.pending = before ++ (after ++ last.pending) := by
      rw [hsplit, List.append_assoc]
    have hcut := hstream.not_splitsBreak hsound.located hsound.tokens hall
    refine ⟨lexemes last.pending ++ last.rest, ?_, ?_⟩
    · rw [← hstream.covers, hall]
      simp only [lexemes_append, List.append_assoc]
    · rwa [lexemes_append, List.append_assoc] at hcut
  refine ⟨hkeeps, ?_, ?_, ?_⟩
  · intro before after hsplit
    obtain ⟨more, htext, hcut⟩ := hcuts before after hsplit
    exact ⟨_, htext, hcut⟩
  · refine breaks_of_tiles (tiles_append.1 hstream.tiles).1 ?_ hkeeps
    rintro before after hsplit ⟨hlast, hhead⟩
    obtain ⟨more, _, hcut⟩ := hcuts before after hsplit
    refine hcut ⟨hlast, ?_⟩
    rw [List.head?_append, hhead]
    rfl
  · intro hnone
    obtain ⟨k, hanswers, _, hend⟩ := run_answers hrun
    have hk : k ≠ 0 := by
      rintro rfl
      rw [hanswers] at hnone
      simp at hnone
    obtain ⟨hfinished, hpending⟩ := hend hk
    have hcovers := hstream.covers
    rwa [hpending, List.append_nil, hstream.ended hfinished, List.append_nil] at hcovers

/-- A run over the three kinds of line break, one of them after an open escape in an open string,
and one more in an open verbatim string: three of the four are tokens. -/
theorem breaks_of_run_open_literals :
    let text : Text := ['"', '\\', '\r', '\n', 'a', '\r', ' ', '\n', '"', '"', '"', '\n', 'b']
    let events := List.replicate 12 Event.next
    (∀ config, .withConfig config ∈ events → config.skipTrivia = false) ∧
      ∃ answers last, (ofText text).run events = .ok (answers, last) ∧ none ∈ answers ∧
        (text.breaks 0).filter (fun b => !inTripleQuotes (handed answers) b.1) =
          ((handed answers).filter Token.endsLine).map (fun t => (t.span.start.offset, t.lexeme)) ∧
        (text.breaks 0).length = 4 ∧ ((handed answers).filter Token.endsLine).length = 3 := by
  intro text events
  have hshow : ∀ config, .withConfig config ∈ events → config.skipTrivia = false := by
    simp [events]
  have hok : (((ofText text).run events).toOption.any fun r =>
      r.1.contains none && ((handed r.1).filter Token.endsLine).length == 3) = true := by
    decide +kernel
  refine ⟨hshow, ?_⟩
  cases hrun : (ofText text).run events with
  | error e => rw [hrun] at hok; cases hok
  | ok r =>
    obtain ⟨answers, last⟩ := r
    rw [hrun] at hok
    simp only [Except.toOption, Option.any_some, Bool.and_eq_true, beq_iff_eq,
      List.contains_iff_mem] at hok
    obtain ⟨_, _, hbreaks, hwhole⟩ := breaks_of_run hrun hshow
    rw [hwhole hok.1] at hbreaks
    exact ⟨answers, last, rfl, hok.1, hbreaks, by decide +kernel, hok.2⟩

end Scanner
end LayoutLexer

import LayoutLexer.Proofs.Lexeme.Local
import LayoutLexer.Proofs.Place
import LayoutLexer.Proofs.Reading
import LayoutLexer.Proofs.Shift

/-! # Scanning text below text

A text is made of whole lines if its last lexeme is a line break (`Text.WholeLines`).  A scan of
such a text does not look beyond it: with more text below, every step is the same
(`Scanner.step_followedBy`).  So the scanner comes to the end of the lines with the same tokens
handed out, and there it stands where a scanner of the text below would begin, apart from the
places, which are moved, and the open blocks (`Listing.ofText_append`).
-/
namespace LayoutLexer

open Text CharClass

/-! ## Whole lines -/

/-- A text is made of whole lines: it is empty, or its last lexeme is a line break. -/
inductive Text.WholeLines : Text → Prop
  | nil : WholeLines []
  | cons {c : Char} {rest : Text} :
    ((Lexeme.read c rest).rest = [] → (Lexeme.read c rest).endsLine = true) →
      WholeLines (Lexeme.read c rest).rest → WholeLines (c :: rest)

namespace Text.WholeLines

variable {t : Text} {c : Char} {rest : Text}

/-- The last character of whole lines breaks a line. -/
theorem getLast (h : t.WholeLines) (hne : t ≠ []) :
    ∃ before c, t = before ++ [c] ∧ isLineBreak c = true := by
  induction h with
  | nil => exact absurd rfl hne
  | @cons c rest hend _ ih =>
    have happ := (Lexeme.fronts_read c rest).1
    by_cases hnil : (Lexeme.read c rest).rest = []
    · have hkind : (Lexeme.read c rest).kind = .lexical (.rule .lineFeed) :=
        beq_iff_eq.1 (hend hnil)
      rw [← happ, hnil, List.append_nil]
      rcases Lexeme.mem_words_of_kind_read hkind with hword | hword | hword
      · exact ⟨['\r'], '\n', hword, rfl⟩
      · exact ⟨[], '\r', hword, rfl⟩
      · exact ⟨[], '\n', hword, rfl⟩
    · obtain ⟨before, d, hrest, hbreak⟩ := ih hnil
      exact ⟨(Lexeme.read c rest).text ++ before, d, by rw [List.append_assoc, ← hrest, happ],
        hbreak⟩

theorem not_inline (h : t.WholeLines) (hne : t ≠ []) : ¬ t.Inline := by
  obtain ⟨before, c, rfl, hbreak⟩ := h.getLast hne
  exact not_inline_of_mem (by simp) hbreak

/-- Nothing comes after the last line break of whole lines. -/
theorem lastLine_eq_nil (h : t.WholeLines) : t.lastLine = [] := by
  by_cases hne : t = []
  · rw [hne]
    rfl
  · obtain ⟨before, c, rfl, hbreak⟩ := h.getLast hne
    have hlast : ¬ Inline [c] := not_inline_of_mem List.mem_cons_self hbreak
    rw [lastLine_append_of_not_inline hlast, lastLine_cons_of_break hbreak inline_nil]

/-- No verbatim string is open at the end of whole lines. -/
theorem read_ne_brokenVerbatim (h : WholeLines (c :: rest)) :
    Lexeme.read c rest ≠ Lexeme.brokenVerbatim (c :: rest) := by
  intro hread
  obtain _ | ⟨hend, _⟩ := h
  rw [hread] at hend
  cases hend rfl

/-- A text with a line break for its last lexeme is made of whole lines. -/
theorem of_readings (origin : Option Text) (p : Position)
    (h : ∀ u ∈ (Scanner.lexical ((readings origin p t).map Reading.token)).getLast?,
      u.kind = .lexical (.rule .lineFeed)) : t.WholeLines := by
  fun_induction readings origin p t with
  | case1 => exact .nil
  | case2 p c rest ih =>
    rw [Scanner.lexical_reading_cons] at h
    refine .cons ?_ (ih fun u hu => h u ?_)
    · intro hnil
      rw [hnil, readings_nil] at h
      exact beq_iff_eq.2 (h _ rfl)
    · rw [Option.mem_def] at hu ⊢
      rw [List.getLast?_cons, hu]
      rfl

end Text.WholeLines

/-! ## More text below -/

namespace Scanner

variable {b : Text} {s s' : Scanner}

/-- The scanner with more text below its own. -/
def followedBy (b : Text) (s : Scanner) : Scanner :=
  { s with source := s.source ++ b, rest := s.rest ++ b }

theorem indentTo_followedBy (width : Nat) :
    (s.followedBy b).indentTo width = (s.indentTo width).followedBy b := by
  rw [indentTo_eq, indentTo_eq]
  rfl

theorem accept_followedBy (l : Lexeme) :
    (s.followedBy b).accept (l.followedBy b) = (s.accept l).followedBy b := by
  rw [accept_eq, accept_eq]
  rfl

/-- The indentation of a line is seen before its end. -/
theorem beginLine_followedBy (h : ¬ s.rest.Inline) :
    (s.followedBy b).beginLine = s.beginLine.map (followedBy b) := by
  obtain ⟨htake, hdrop, hne⟩ := run_append (b := b) (p := isHorizontalSpace)
    (isLineBreak_of_class (by decide) (by decide)) h
  refine beginLine_map rfl rfl rfl ?_ htake rfl fun _ => indentTo_followedBy
  obtain ⟨c, rest, hrest⟩ := List.exists_cons_of_ne_nil hne
  show isInsignificant ((s.rest ++ b).dropWhile isHorizontalSpace) = _
  rw [hdrop, hrest]
  rfl

/-- **Within whole lines a step does not depend on the text below.** -/
theorem step_followedBy (h : s.rest.WholeLines) (hne : s.rest ≠ [])
    (hcut : ¬ SplitsBreak s.rest b) :
    (s.followedBy b).step = s.step.map (followedBy b) := by
  unfold step
  rw [beginLine_followedBy (h.not_inline hne)]
  cases ht : s.beginLine with
  | error e => rfl
  | ok t =>
    obtain ⟨_, _, _, hrest, _⟩ := beginLine_frame ht
    obtain ⟨c, rest, hcons⟩ := List.exists_cons_of_ne_nil hne
    rw [hcons] at h hcut hrest
    dsimp only [Except.map]
    rw [show (t.followedBy b).rest = c :: (rest ++ b) by rw [followedBy, hrest]; rfl, hrest]
    dsimp only
    rw [Lexeme.read_append (h.not_inline (List.cons_ne_nil c rest)) h.read_ne_brokenVerbatim hcut,
      accept_followedBy]

/-! ## Handing out -/

/-- The next requests are answered with these tokens, and lead to that scanner. -/
def Hands (s : Scanner) (tokens : List Token) (s' : Scanner) : Prop :=
  s.run (List.replicate tokens.length .next) = .ok (tokens.map some, s')

namespace Hands

variable {tokens others : List Token} {t : Scanner}

theorem nil (s : Scanner) : Hands s [] s := rfl

theorem cons {token : Token} (hnext : s.next = .ok (some token, t)) (h : Hands t tokens s') :
    Hands s (token :: tokens) s' :=
  run_next_eq_ok_iff.2 ⟨some token, t, _, hnext, h, rfl⟩

theorem append (h : Hands s tokens t) (h' : Hands t others s') :
    Hands s (tokens ++ others) s' := by
  unfold Hands
  rw [List.length_append, List.replicate_add, List.map_append]
  exact run_append_eq_ok_iff.2 ⟨_, t, _, h, h', rfl⟩

/-- A scanner that shows trivia hands out its queue. -/
theorem queue (hshow : s.config.skipTrivia = false) :
    Hands s s.pending { s with pending := [] } := by
  obtain ⟨pending, hp⟩ : ∃ pending, s.pending = pending := ⟨_, rfl⟩
  rw [hp]
  induction pending generalizing s with
  | nil =>
    have hsame : { s with pending := [] } = s := by rw [← hp]
    rw [hsame]
    exact nil s
  | cons token pending ih =>
    have hout : s.handsOut token = true := by rw [handsOut, hshow]; rfl
    refine cons ?_ (ih (s := { s with pending }) hshow rfl)
    rw [next, takePending_hand hp hout]

/-- Once its queue is empty, a scanner hands out what a step queues. -/
theorem step (hp : s.pending = []) (hf : s.finished = false) (hs : s.step = .ok s')
    (hshow : s'.config.skipTrivia = false) (hqueued : s'.pending ≠ []) :
    Hands s s'.pending { s' with pending := [] } := by
  have hnext : s.next = s'.next := by
    rw [next, takePending_nil hp]
    dsimp only
    rw [dif_neg (by simp [hf])]
    split
    · next hs' => rw [hs] at hs'; cases hs'
    · next hs' => rw [hs] at hs'; cases hs'; rfl
  have hqueue := queue hshow
  obtain ⟨token, pending, htoken⟩ := List.exists_cons_of_ne_nil hqueued
  rw [htoken] at hqueue ⊢
  obtain ⟨answer, t, answers, hanswer, hrun, hall⟩ := run_next_eq_ok_iff.1 hqueue
  exact run_next_eq_ok_iff.2 ⟨answer, t, answers, hnext.trans hanswer, hrun, hall⟩

/-- Draining hands out the same tokens first. -/
theorem drain (h : Hands s tokens s') {all : List Token} {last : Scanner}
    (hdrain : s.drain = .ok (all, last)) :
    ∃ others, s'.drain = .ok (others, last) ∧ all = tokens ++ others := by
  induction tokens generalizing s all with
  | nil =>
    cases h
    exact ⟨all, hdrain, rfl⟩
  | cons token tokens ih =>
    obtain ⟨answer, t, answers, hnext, hrun, hall⟩ := run_next_eq_ok_iff.1 h
    cases hall
    rcases next_of_drain hdrain with ⟨hnone, _⟩ | ⟨u, t', all', hsome, hdrain', rfl⟩
    · rw [hnext] at hnone
      cases hnone
    · rw [hnext] at hsome
      cases hsome
      obtain ⟨others, hothers, rfl⟩ := ih hrun hdrain'
      exact ⟨others, hothers, rfl⟩

end Hands

/-! ## To the end of the lines -/

/-- Where draining does not fail, it goes on with a step once the queue is empty. -/
theorem exists_step_of_drain (hp : s.pending = []) (hf : s.finished = false) {tokens : List Token}
    {last : Scanner} (hdrain : s.drain = .ok (tokens, last)) :
    ∃ s', s.step = .ok s' ∧ s'.drain = .ok (tokens, last) := by
  have hsame : { s with pending := [] } = s := by rw [← hp]
  obtain ⟨s', others, hs, hd, rfl⟩ := step_of_drain hf hdrain
  rw [hsame] at hs
  rw [hp]
  exact ⟨s', hs, hd⟩

/-- The tokens of the next lexeme of whole lines are handed out whatever is below. -/
theorem hands_lexeme {c : Char} {rest : Text} (hrest : s.rest = c :: rest)
    (h : WholeLines (c :: rest)) (hcut : ¬ SplitsBreak (c :: rest) b) (hp : s.pending = [])
    (hf : s.finished = false) (hshow : s.config.skipTrivia = false)
    (hdrain : ∃ r, s.drain = .ok r) :
    ∃ layout token t, Hands s (layout ++ [token]) t ∧
      Hands (s.followedBy b) (layout ++ [token]) (t.followedBy b) ∧
      token.kind = (Lexeme.read c rest).kind ∧
      t = { s with
        rest := (Lexeme.read c rest).rest
        position := t.position
        atLineStart := (Lexeme.read c rest).endsLine
        indents := t.indents
        diagnostics := t.diagnostics } := by
  obtain ⟨r, hdrain⟩ := hdrain
  obtain ⟨s', hs, _⟩ := exists_step_of_drain hp hf hdrain
  have hbelow : (s.followedBy b).step = .ok (s'.followedBy b) := by
    rw [step_followedBy (hrest ▸ h) (by simp [hrest]) (hrest ▸ hcut), hs]
    rfl
  obtain ⟨t, ht, hlast⟩ := step_cases hs
  obtain ⟨hsource, hconfig, horigin, hsameRest, _, hstart, hfin⟩ := beginLine_frame ht
  obtain ⟨hnil, _⟩ | ⟨c', rest', hcons, rfl⟩ := hlast
  · rw [hsameRest, hrest] at hnil
    cases hnil
  rw [hsameRest, hrest] at hcons
  cases hcons
  rw [accept_eq] at hs hbelow
  have hshow' : t.config.skipTrivia = false := by rw [hconfig, hshow]
  refine ⟨t.pending, _, _, Hands.step hp hf hs hshow' (by simp),
    Hands.step (s := s.followedBy b) hp hf hbelow hshow' (by simp [followedBy]), rfl, ?_⟩
  simp [hsource, hconfig, horigin, hfin, hstart, hp]

/-- A scanner that comes to the end of whole lines hands out the same tokens whatever is below,
the last of them a line break, and there begins a line. -/
theorem hands_wholeLines (h : s.rest.WholeLines) (hne : s.rest ≠ [])
    (hcut : ¬ SplitsBreak s.rest b) (hp : s.pending = []) (hf : s.finished = false)
    (hshow : s.config.skipTrivia = false)
    (hdrain : ∃ r, s.drain = .ok r) :
    ∃ front feed t, Hands s (front ++ [feed]) t ∧
      Hands (s.followedBy b) (front ++ [feed]) (t.followedBy b) ∧
      feed.kind = .lexical (.rule .lineFeed) ∧
      t = { s with
        rest := []
        position := t.position
        atLineStart := true
        indents := t.indents
        diagnostics := t.diagnostics } := by
  obtain ⟨text, hrest⟩ : ∃ text, s.rest = text := ⟨_, rfl⟩
  rw [hrest] at h hcut
  -- along the lexemes: what is left after one of them is whole lines again
  induction h generalizing s with
  | nil => exact absurd hrest hne
  | @cons c rest hend htail ih =>
    obtain ⟨layout, token, t, hout, hbelow, hkind, ht⟩ :=
      hands_lexeme hrest (.cons hend htail) hcut hp hf hshow hdrain
    by_cases hnil : (Lexeme.read c rest).rest = []
    · rw [hnil, hend hnil] at ht
      exact ⟨layout, token, t, hout, hbelow, hkind.trans (beq_iff_eq.1 (hend hnil)), ht⟩
    · have htrest : t.rest = (Lexeme.read c rest).rest := by rw [ht]
      obtain ⟨r, hdrain⟩ := hdrain
      obtain ⟨others, hdrain', _⟩ := hout.drain hdrain
      rw [← (Lexeme.fronts_read c rest).1, splitsBreak_append_left hnil] at hcut
      obtain ⟨front, feed, u, hout', hbelow', hfeed, hu⟩ :=
        ih (htrest ▸ hnil) (by rw [ht]; exact hp) (by rw [ht]; exact hf) (by rw [ht]; exact hshow)
          ⟨_, hdrain'⟩ hcut htrest
      refine ⟨layout ++ [token] ++ front, feed, u, ?_, ?_, hfeed, ?_⟩
      · rw [List.append_assoc]
        exact hout.append hout'
      · rw [List.append_assoc]
        exact hbelow.append hbelow'
      · rw [hu, ht]

/-- At the end of the text the open blocks are closed, and nothing is reported. -/
theorem closing_of_drain (hrest : s.rest = []) (hp : s.pending = []) (hf : s.finished = false)
    (hshow : s.config.skipTrivia = false) {tokens : List Token} {last : Scanner}
    (hdrain : s.drain = .ok (tokens, last)) :
    tokens = s.closingKinds.map s.layoutToken ∧ last.diagnostics = s.diagnostics := by
  obtain ⟨s', hs, hdrain⟩ := exists_step_of_drain hp hf hdrain
  obtain ⟨t, ht, hlast⟩ := step_cases hs
  -- no line begins at the end of the text
  obtain rfl | ⟨_, _, _, hsignificant, _⟩ := beginLine_cases ht
  · obtain ⟨_, rfl⟩ | ⟨_, _, hcons, _⟩ := hlast
    · rw [drain_finish_of_shows (by exact hshow), finish_eq] at hdrain
      cases hdrain
      exact ⟨by rw [hp]; rfl, rfl⟩
    · rw [show s.rest = _ from hcons] at hrest
      cases hrest
  · rw [hrest] at hsignificant
    cases hsignificant

end Scanner

namespace Listing

open Scanner

variable {config : Config} {origin : Option Text} {a b : Text}

theorem withoutMark_of_head (ha : a.head? ≠ some '\uFEFF') : a.withoutMark = a := by
  unfold withoutMark
  split
  · exact absurd rfl ha
  · rfl

/-- Without a byte-order mark the scanner begins with the text as it is. -/
theorem scanner_of_head (ha : a.head? ≠ some '\uFEFF') :
    scanner config origin a = { scanner config origin [] with source := a, rest := a } := by
  rw [scanner, Scanner.ofText, withoutMark_of_head ha]
  rfl

theorem scanner_append (ha : a.head? ≠ some '\uFEFF') (hne : a ≠ []) :
    scanner config origin (a ++ b) = (scanner config origin a).followedBy b := by
  have happ : (a ++ b).head? ≠ some '\uFEFF' := by
    obtain ⟨c, t, rfl⟩ := List.exists_cons_of_ne_nil hne
    exact ha
  rw [scanner_of_head happ, scanner_of_head ha]
  rfl

/-- The end of whole lines is where a scanner of the text below begins. -/
theorem followedBy_eq_shift (ha : a.head? ≠ some '\uFEFF') (hb : b.head? ≠ some '\uFEFF')
    (hlast : a.lastLine = []) (indents : IndentStack) (diagnostics : List Diagnostic) :
    Scanner.followedBy b { scanner config origin a with
      rest := []
      position := .after a
      atLineStart := true
      indents
      diagnostics } =
      { scanner config origin b with indents : Scanner }.shift a diagnostics := by
  rw [Position.after_eq_shift_start hlast, scanner_of_head ha, scanner_of_head hb]
  simp [Scanner.followedBy, Scanner.shift, scanner, Scanner.ofText]

/-- A scanner that comes to the end of its text stands at the place after it. -/
theorem position_of_hands {tokens : List Token} {s : Scanner}
    (h : (scanner config origin a).Hands tokens s) (hrest : s.rest = []) :
    s.position = .after a.withoutMark := by
  have hrun : (Scanner.ofText a).run
      (setup config origin ++ List.replicate tokens.length .next) = .ok (tokens.map some, s) :=
    run_append_eq_ok_iff.2 ⟨[], _, _, run_setup config origin a, h, rfl⟩
  have hsound := sound_of_run (P := fun _ => True) (R := fun _ => True) (fun _ _ _ => trivial)
    (fun _ _ _ _ _ => trivial) (fun _ _ _ _ _ => trivial) (fun _ _ _ _ _ _ _ => trivial) rfl hrun
  obtain ⟨before, htext, _, hposition⟩ := hsound.located
  rw [hrest, List.append_nil] at htext
  rw [hposition, htext]

/-- The tokens of whole lines are those up to the last line break and the end of the open blocks;
where the former are handed out, a scanner of the text below begins. -/
theorem exists_boundary (ha : a.head? ≠ some '\uFEFF') (hb : b.head? ≠ some '\uFEFF')
    (hlines : a.WholeLines) (hne : a ≠ []) (hcut : ¬ SplitsBreak a b)
    (hshow : config.skipTrivia = false) {all : List Token} {last : Scanner}
    (hdrain : (scanner config origin a).drain = .ok (all, last)) :
    ∃ front feed closing s, all = front ++ [feed] ++ closing ∧
      feed.kind = .lexical (.rule .lineFeed) ∧
      (∀ t ∈ closing, t.kind = .dedent ∨ t.kind = .endOfFile) ∧
      (scanner config origin a).Hands (front ++ [feed]) s ∧ s.diagnostics = last.diagnostics ∧
      (scanner config origin (a ++ b)).Hands (front ++ [feed])
        ({ scanner config origin b with indents := s.indents : Scanner }.shift a
          last.diagnostics) := by
  have hrest : (scanner config origin a).rest = a := by rw [scanner_of_head ha]
  obtain ⟨front, feed, s, hout, hbelow, hkind, hs⟩ := hands_wholeLines (b := b)
    (hrest.symm ▸ hlines) (hrest.symm ▸ hne) (hrest.symm ▸ hcut) rfl rfl hshow ⟨_, hdrain⟩
  have hposition := position_of_hands hout (by rw [hs])
  rw [withoutMark_of_head ha] at hposition
  rw [hposition] at hs
  obtain ⟨closing, hclosing, rfl⟩ := hout.drain hdrain
  obtain ⟨htokens, hdiagnostics⟩ := closing_of_drain (by rw [hs]) (by rw [hs]; rfl)
    (by rw [hs]; rfl) (by rw [hs]; exact hshow) hclosing
  refine ⟨front, feed, closing, s, rfl, hkind, ?_, hout, hdiagnostics.symm, ?_⟩
  · intro t ht
    rw [htokens] at ht
    obtain ⟨kind, hmem, rfl⟩ := List.mem_map.1 ht
    rcases List.mem_append.1 hmem with hmem | hmem
    · exact .inl (List.eq_of_mem_replicate hmem)
    · exact .inr (List.mem_singleton.1 hmem)
  · rw [scanner_append ha hne, hdiagnostics,
      ← followedBy_eq_shift ha hb hlines.lastLine_eq_nil s.indents s.diagnostics, ← hs]
    exact hbelow

/-- A text is made of lines if the last token with a lexeme is a line break. -/
theorem wholeLines_of_drain (ha : a.head? ≠ some '\uFEFF') (hshow : config.skipTrivia = false)
    {all : List Token} {last : Scanner} {feed : Token}
    (hdrain : (scanner config origin a).drain = .ok (all, last))
    (hlast : (lexical all).getLast? = some feed) (hfeed : feed.kind = .lexical (.rule .lineFeed)) :
    a.WholeLines ∧ a ≠ [] := by
  have hread : lexical all = lexical ((a.readings origin .start).map Reading.token) := by
    rw [lexical_drain _ rfl hshow hdrain, scanner_of_head ha]
    rfl
  rw [hread] at hlast
  constructor
  · refine .of_readings origin .start fun t ht => ?_
    rw [hlast] at ht
    cases ht
    exact hfeed
  · rintro rfl
    rw [readings_nil] at hlast
    cases hlast

/-- The closing of the blocks has no lexeme. -/
theorem getLast?_lexical {front closing : List Token} {feed : Token} {p : Pattern}
    (hfeed : feed.kind = .lexical p)
    (hclosing : ∀ t ∈ closing, t.kind = .dedent ∨ t.kind = .endOfFile) :
    (lexical (front ++ [feed] ++ closing)).getLast? = some feed := by
  have hnone : lexical closing = [] := by
    refine List.filter_eq_nil_iff.2 fun t ht => ?_
    rcases hclosing t ht with hkind | hkind <;> rw [hkind] <;> decide
  have hone : lexical [feed] = [feed] := by
    rw [lexical, List.filter_singleton, hfeed]
    rfl
  rw [lexical_append, lexical_append, hnone, hone, List.append_nil, List.getLast?_concat]

/-- Whether widths overflow does not depend on the open blocks. -/
theorem exists_listing_of_drain {indents : IndentStack} {r : List Token × Scanner}
    (h : { scanner config origin b with indents : Scanner }.drain = .ok r) :
    ∃ l, ofText config origin b = .ok l := by
  cases hl : ofText config origin b with
  | ok l => exact ⟨l, rfl⟩
  | error e =>
    have hwide : (scanner config origin b).Overflows :=
      overflows_scanner_iff.2 (ofText_eq_error_iff.1 ⟨e, hl⟩)
    have hresumed : { scanner config origin b with indents : Scanner }.Overflows := hwide
    obtain ⟨e', he⟩ := (drain_eq_error_iff _ rfl).2 hresumed
    rw [he] at h
    cases h

/-- **Scanning is compositional at line boundaries.**  Let the last lexeme of a text be a line
break, and put it above another text.  Where no width overflows, the scan of both hands out the
tokens of the upper text up to that line break and reports what is reported there; what it hands
out and reports then is what a scanner at the beginning of the lower text does, if it has the open
blocks of the upper one, with every place moved by the bytes and the line breaks of the upper text.
The lexemes of the lower text are those that it has by itself. -/
theorem ofText_append {la : Listing} {feed : Token} (hshow : config.skipTrivia = false)
    (ha : a.head? ≠ some '\uFEFF') (hb : b.head? ≠ some '\uFEFF')
    (hcut : ¬ (a.getLast? = some '\r' ∧ b.head? = some '\n'))
    (hfits : ¬ Unmeasurable config (a ++ b)) (hla : ofText config origin a = .ok la)
    (hlast : (la.tokens.filter fun t => !t.kind.isSynthetic).getLast? = some feed)
    (hfeed : feed.kind = .lexical (.rule .lineFeed)) :
    ∃ front closing s tokens last lb,
      la.tokens = front ++ [feed] ++ closing ∧
      (∀ t ∈ closing, t.kind = .dedent ∨ t.kind = .endOfFile) ∧
      (scanner config origin a).run (List.replicate (front ++ [feed]).length .next) =
        .ok ((front ++ [feed]).map some, s) ∧
      s.diagnostics = la.diagnostics ∧
      { scanner config origin b with indents := s.indents : Scanner }.drain = .ok (tokens, last) ∧
      ofText config origin (a ++ b) =
        .ok ⟨origin, front ++ [feed] ++ tokens.map (Token.shift a),
          la.diagnostics ++ last.diagnostics.map (Diagnostic.shift a)⟩ ∧
      ofText config origin b = .ok lb ∧
      (tokens.filter fun t => !t.kind.isSynthetic) =
        lb.tokens.filter fun t => !t.kind.isSynthetic := by
  obtain ⟨all, last, hdrain, rfl⟩ := ofText_eq_ok_iff.1 hla
  dsimp only at hlast ⊢
  obtain ⟨hlines, hne⟩ := wholeLines_of_drain ha hshow hdrain hlast hfeed
  obtain ⟨front, feed', closing, s, rfl, hkind, hclosing, hout, hdiagnostics, hbelow⟩ :=
    exists_boundary ha hb hlines hne hcut hshow hdrain
  -- the last token with a lexeme is the one before the closing
  obtain rfl : feed' = feed := Option.some.inj ((getLast?_lexical hkind hclosing).symm.trans hlast)
  obtain ⟨l, hl⟩ := exists_ofText origin hfits
  obtain ⟨both, end_b, hboth, hl'⟩ := ofText_eq_ok_iff.1 hl
  obtain ⟨below, hshifted, rfl⟩ := hbelow.drain hboth
  rw [drain_shift] at hshifted
  cases hresumed : { scanner config origin b with indents := s.indents : Scanner }.drain with
  | error e => rw [hresumed] at hshifted; cases hshifted
  | ok r =>
    obtain ⟨tokens, last_b⟩ := r
    rw [hresumed] at hshifted
    cases hshifted
    obtain ⟨lb, hlb⟩ := exists_listing_of_drain hresumed
    refine ⟨front, closing, s, tokens, last_b, lb, rfl, hclosing, hout, hdiagnostics, hresumed,
      ?_, hlb, ?_⟩
    · rw [hl, hl']
      rfl
    · obtain ⟨all_b, _, hdrain_b, rfl⟩ := ofText_eq_ok_iff.1 hlb
      exact (lexical_drain _ rfl hshow hresumed).trans (lexical_drain _ rfl hshow hdrain_b).symm

/-- An open string with an invalid escape in an indented line, above a line that is inconsistent
with the block. -/
theorem ofText_append_open_string :
    let a : Text := ['a', '\n', '\t', '"', 'é', '\\', 'q', '\r']
    let b : Text := [' ', 'c']
    ∃ la front feed closing s tokens last,
      ofText {} none a = .ok la ∧ la.diagnostics.length = 2 ∧
      la.tokens = front ++ [feed] ++ closing ∧
      (scanner {} none a).run (List.replicate (front ++ [feed]).length .next) =
        .ok ((front ++ [feed]).map some, s) ∧
      { scanner {} none b with indents := s.indents : Scanner }.drain = .ok (tokens, last) ∧
      last.diagnostics.length = 1 ∧
      ofText {} none (a ++ b) =
        .ok ⟨none, front ++ [feed] ++ tokens.map (Token.shift a),
          la.diagnostics ++ last.diagnostics.map (Diagnostic.shift a)⟩ := by
  intro a b
  have hupper : ((ofText {} none a).toOption.any fun la => la.diagnostics.length == 2 &&
      (la.tokens.filter fun t => !t.kind.isSynthetic).getLast?.any fun feed =>
        feed.kind == .lexical (.rule .lineFeed)) = true := by decide +kernel
  have hboth : ((ofText {} none (a ++ b)).toOption.any fun l => l.diagnostics.length == 3) =
      true := by decide +kernel
  cases hla : ofText {} none a with
  | error e => rw [hla] at hupper; cases hupper
  | ok la =>
    rw [hla] at hupper
    simp only [Except.toOption, Option.any_some, Bool.and_eq_true, beq_iff_eq,
      Option.any_eq_true] at hupper
    obtain ⟨htwo, feed, hlast, hfeed⟩ := hupper
    obtain ⟨front, closing, s, tokens, last, _, htokens, _, hrun, _, hdrain, hl, _⟩ :=
      ofText_append (b := b) rfl (by decide) (by decide) (by decide)
        (not_unmeasurable (by decide)) hla hlast hfeed
    rw [hl] at hboth
    have hthree : (la.diagnostics ++ last.diagnostics.map (Diagnostic.shift a)).length = 3 :=
      eq_of_beq hboth
    rw [List.length_append, List.length_map, htwo] at hthree
    exact ⟨la, front, feed, closing, s, tokens, last, rfl, htwo, htokens, hrun, hdrain, by omega,
      hl⟩

end Listing
end LayoutLexer

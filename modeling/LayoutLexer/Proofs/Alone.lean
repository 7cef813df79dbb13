import LayoutLexer.Proofs.Content
import LayoutLexer.Proofs.Lexeme.Reach

/-! # Tokens that are scanned alone

A token is chosen with the whole text after it in view.  Scanned alone its lexeme is the same
token again, with the same faults at the same places of the lexeme (`Scanner.alone_of_run`): a
lexeme that ends within the first part of a text is the lexeme of the first part
(`Lexeme.read_append_of_within`), and here the first part is the lexeme itself.  This holds of
malformed lexemes too, whatever cut them off.

One lexeme is an exception.  At the front of a text a byte-order mark is dropped, so the mark that
is an invalid character elsewhere is nothing when it stands alone.  No other lexeme begins with
it.
-/
namespace LayoutLexer

/-! ## Places within a piece of text -/

/-- The place in a text that is at `q` in a piece of it which begins at `p`. -/
def Position.within (p q : Position) : Position where
  offset := p.offset + q.offset
  line := p.line + (q.line - 1)
  column := if q.line = 1 then p.column + (q.column - 1) else q.column

/-- The span in a text of what has a span in a piece of it that begins at `p`. -/
def Span.within (p : Position) (s : Span) : Span := ⟨p.within s.start, p.offset + s.endOffset⟩

/-- The diagnostic of a text for one of a piece of it that begins at `p`. -/
def Diagnostic.within (p : Position) (d : Diagnostic) : Diagnostic :=
  { d with span := d.span.within p }

theorem Position.within_along (p : Position) (d : Distance) :
    p.within (start.along d) = p.along d := by
  have hline : (start.along d).line = 1 := rfl
  rw [within, if_pos hline]
  simp only [along, start, Position.mk.injEq]
  omega

theorem Span.within_ofText (p : Position) (d : Distance) (t : Text) :
    (ofText (Position.start.along d) t).within p = ofText (p.along d) t := by
  have hplace := Position.within_along p d
  rw [Span.within, ofText, ofText, ← hplace]
  simp only [Position.within, Nat.add_assoc]

/-! ## The lexeme alone -/

namespace Lexeme

open Lexicon

variable {c : Char} {rest u : Text}

/-- The lexeme at the front of a text is the lexeme of its own text, and nothing follows it. -/
theorem read_of_text (h : (read c rest).text = c :: u) :
    read c u = { read c rest with rest := [] } := by
  have hfronts := (fronts_read c rest).1
  rw [h] at hfronts
  obtain ⟨b, hb⟩ : ∃ b, (read c rest).rest = b := ⟨_, rfl⟩
  rw [hb] at hfronts
  obtain rfl : u ++ b = rest := (List.cons.inj hfronts).2
  have hread : read c (u ++ b) = (read c u).followedBy b :=
    read_append_of_within (by rw [h])
  have htext : (read c u).text = c :: u := by
    rw [← h, hread]
    rfl
  -- the lexeme is all of its text
  have hnone : (read c u).rest = [] := by
    have halone := (fronts_read c u).1
    rw [htext] at halone
    exact List.append_right_eq_self.1 halone
  rw [hread, followedBy, ← hnone]

/-- No pattern matches at a byte-order mark. -/
theorem longestMatch_mark (rest : Text) : longestMatch ('\uFEFF' :: rest) = none := by
  cases hm : longestMatch ('\uFEFF' :: rest) with
  | none => rfl
  | some m =>
    have hlead := lead_of_longestMatch hm
    rw [show Lead.ofChar '\uFEFF' = .other by decide +kernel] at hlead
    obtain ⟨s, hs⟩ := Pattern.exists_symbol_of_lead hlead
    have hmem := mem_words_of_longestMatch hm
    rw [hs] at hmem
    have happ := longestMatch_append hm
    rw [show m.lexeme = s.text from hmem] at happ
    have hhead := congrArg List.head? happ
    exfalso
    cases s with
    | circled o => cases hhead
    | boxed o => cases hhead
    | _ => exact absurd hhead (by simp [Symbol.text])

/-- A byte-order mark is a lexeme by itself. -/
theorem text_read_mark (rest : Text) : (read '\uFEFF' rest).text = ['\uFEFF'] := by
  have hopen : LiteralKind.opening? ('\uFEFF' :: rest) = none := rfl
  have hletter : (CharClass.isAlphabetic '\uFEFF' || '\uFEFF' == '_') = false := by decide +kernel
  rw [read, hopen]
  dsimp only
  rw [unquoted, longestMatch_mark]
  dsimp only
  rw [hletter]
  rfl

/-- No lexeme but the byte-order mark loses anything at the front of a text. -/
theorem withoutMark_text (h : (read c rest).text ≠ ['\uFEFF']) :
    (read c rest).text.withoutMark = (read c rest).text := by
  obtain ⟨happ, hne⟩ := fronts_read c rest
  unfold Text.withoutMark
  split
  · next u htext =>
    rw [htext] at happ
    obtain rfl := (List.cons.inj happ).1
    exact absurd (text_read_mark rest) h
  · rfl

end Lexeme

namespace Text

variable {origin : Option Text} {p : Position} {t : Text}

/-- A reading is that of a lexeme at some place, or of the end of the text. -/
theorem exists_read_of_mem_readings {r : Reading} (h : r ∈ readings origin p t) :
    (∃ q, r = ⟨.synthetic .endOfFile q, []⟩) ∨
      ∃ q c rest, r = (Lexeme.read c rest).reading origin q := by
  fun_induction readings origin p t with
  | case1 p => exact .inl ⟨p, List.mem_singleton.1 h⟩
  | case2 p c rest ih =>
    rcases List.mem_cons.1 h with rfl | h
    · exact .inr ⟨p, c, rest, rfl⟩
    · exact ih h

/-- The text of a lexeme reads as that lexeme and the end of the text. -/
theorem readings_text (c : Char) (rest : Text) :
    (Lexeme.read c rest).text.readings origin p =
      [(Lexeme.read c rest).reading origin p,
        ⟨.synthetic .endOfFile (p.advance (Lexeme.read c rest).text), []⟩] := by
  obtain ⟨happ, hne⟩ := Lexeme.fronts_read c rest
  cases htext : (Lexeme.read c rest).text with
  | nil => exact absurd htext hne
  | cons d u =>
    rw [htext] at happ
    obtain rfl := (List.cons.inj happ).1
    rw [readings_cons, Lexeme.read_of_text htext, htext]
    dsimp only
    rw [readings_nil]
    rfl

end Text

/-- What a lexeme reads as at a place is what it reads as alone, moved to that place. -/
theorem Lexeme.reports_reading (origin : Option Text) (p : Position) (l : Lexeme) :
    (l.reading none p).reports =
      (l.reading origin .start).reports.map fun d => (d.within p).unlabelled := by
  simp only [reading, List.map_map]
  refine List.map_congr_left fun flaw _ => ?_
  simp only [Function.comp, Diagnostic.within, Diagnostic.unlabelled, Span.within_ofText]

/-! ## Tokens of a run -/

/-- Whether the diagnostic is reported of the token: it is about a lexeme and begins within this
one. -/
def Diagnostic.isOf (t : Token) (d : Diagnostic) : Bool := !d.fault.isIndentation && d.beginsOn [t]

namespace Scanner

variable {source : Text} {events : List Event} {answers : List (Option Token)} {last : Scanner}

/-- What a run reports of a token with a lexeme is what is reported of its reading. -/
theorem Tells.reports_of {past : List Reading} {out : List Token} {s : Scanner}
    (h : Tells source past out s) {r : Reading} (hr : r ∈ past) :
    (s.diagnostics.filter (Diagnostic.isOf r.token)).map Diagnostic.unlabelled = r.reports := by
  obtain ⟨before, after, rfl⟩ := List.append_of_mem hr
  have hpast : before ++ ([r] ++ after) <+: source.withoutMark.readings none .start :=
    ⟨s.ahead, h.split.symm⟩
  have hfilter := filter_beginsOn hpast
  rw [List.flatMap_singleton, List.map_singleton] at hfilter
  have hreports : lexicalReports s.diagnostics =
      (before ++ ([r] ++ after)).flatMap Reading.reports := h.reports
  rw [← hfilter, ← hreports, lexicalReports, List.filter_map, List.filter_filter]
  refine congrArg (List.map Diagnostic.unlabelled) (List.filter_congr fun d _ => ?_)
  exact Bool.and_comm _ _

/-- **Every token scans to itself.**  Take any events on a fresh scanner, and any token with a
lexeme that it hands out, trivia and errors included, other than a lone byte-order mark.  The
lexeme scanned alone, with nothing hidden and blocks not tracked, is this one token and the end of
the text; and what is then reported is what the run reported of the token, moved to where the
token begins. -/
theorem alone_of_run (hrun : (ofText source).run events = .ok (answers, last)) {t : Token}
    (ht : t ∈ handed answers) (hlexeme : t.kind.isSynthetic = false)
    (hmark : t.lexeme ≠ ['\uFEFF']) (tabWidth : Nat) (origin : Option Text) :
    ∃ ds, Listing.ofText { tabWidth, skipTrivia := false, trackIndentation := false } origin
        t.lexeme =
          .ok ⟨origin, [.ofLexeme t.kind .start t.lexeme,
            .synthetic .endOfFile (Position.start.advance t.lexeme)], ds⟩ ∧
      ds.map (fun d => (d.within t.span.start).unlabelled) =
        (last.diagnostics.filter (Diagnostic.isOf t)).map Diagnostic.unlabelled := by
  obtain ⟨past, htells⟩ := tells_of_run hrun
  have hmem : t ∈ lexical (handed answers ++ last.pending) :=
    List.mem_filter.2 ⟨List.mem_append_left _ ht, by rw [hlexeme]; rfl⟩
  obtain ⟨r, hr, rfl⟩ := List.mem_map.1 (htells.lexemes t hmem)
  have hread : r ∈ source.withoutMark.readings none .start := by
    rw [htells.split]
    exact List.mem_append_left _ hr
  rcases Text.exists_read_of_mem_readings hread with ⟨q, rfl⟩ | ⟨p, c, rest, rfl⟩
  · cases hlexeme
  · refine ⟨((Lexeme.read c rest).reading origin .start).reports, ?_, ?_⟩
    · rw [Listing.ofText_eq_readings rfl rfl]
      have hwhole : ((Lexeme.read c rest).reading none p).token.lexeme.withoutMark =
          (Lexeme.read c rest).text := Lexeme.withoutMark_text hmark
      rw [hwhole, Text.readings_text]
      simp only [List.flatMap_cons, List.flatMap_nil, List.append_nil]
      rfl
    · rw [htells.reports_of hr, Lexeme.reports_reading origin]
      rfl

/-- A literal that the end of its line cuts off, with an invalid escape whose brace is closed
beyond the line: alone the seven characters are the same token, and the two faults have the same
places in it. -/
theorem alone_of_run_open_escape :
    let text : Text := ['a', '\n', ' ', '"', 'b', '\\', '{', 'c', '\n', '}']
    let lexeme : Text := ['"', 'b', '\\', '{', 'c']
    let events := .withOrigin ['f'] :: List.replicate 12 Event.next
    let place : Position := ⟨3, 2, 2⟩
    ∃ answers last ds, (ofText text).run events = .ok (answers, last) ∧ ds.length = 2 ∧
      Listing.ofText { trackIndentation := false } none lexeme =
        .ok ⟨none, [.ofLexeme (.error .literal) .start lexeme, .synthetic .endOfFile ⟨5, 1, 6⟩],
          ds⟩ ∧
      ds.map (fun d => (d.within place).unlabelled) =
        (last.diagnostics.filter (Diagnostic.isOf (.ofLexeme (.error .literal) place lexeme))).map
          Diagnostic.unlabelled := by
  intro text lexeme events place
  have hok : (match (ofText text).run events with
    | .ok (answers, _) => (handed answers).contains (.ofLexeme (.error .literal) place lexeme)
    | .error _ => false) = true := by decide +kernel
  cases hrun : (ofText text).run events with
  | error e => rw [hrun] at hok; cases hok
  | ok r =>
    obtain ⟨answers, last⟩ := r
    rw [hrun] at hok
    obtain ⟨ds, hds, hreports⟩ :=
      alone_of_run hrun (List.contains_iff_mem.1 hok) rfl (by decide) 8 none
    have hlength : (Listing.ofText { trackIndentation := false } none lexeme).toOption.map
        (fun l => l.diagnostics.length) = some 2 := by decide +kernel
    rw [show Listing.ofText { trackIndentation := false } none lexeme = _ from hds] at hlength
    exact ⟨answers, last, ds, rfl, Option.some.inj hlength, hds, hreports⟩

end Scanner
end LayoutLexer

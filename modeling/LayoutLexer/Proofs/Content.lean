import LayoutLexer.Proofs.Layout

/-! # What a scan says of its text, whatever its settings

A scan may be given other settings and another label at any time, and its tokens are taken when
its owner asks for them.  None of this reaches what it says of the text: settings decide how a
line is measured, whether blocks are closed at the end and which tokens of the queue are handed
out, so they reach layout and trivia only.

The invariant is that the scan has gone past some readings of the text and has the others ahead
(`Scanner.Tells`).  Of the readings it has gone past, all essential tokens have been handed out or
are in the queue, and all that is reported of them has been reported.  At the end these are the
readings of the whole text, in which neither the settings nor the label occur, so two runs to the
end agree (`Scanner.content_of_runs`).
-/
namespace LayoutLexer

/-- Whether the token is neither trivia nor layout. -/
def Token.isEssential (t : Token) : Bool := !t.isTrivia && !t.kind.isLayout

/-- The tokens that are neither trivia nor layout. -/
def essential (tokens : List Token) : List Token := tokens.filter Token.isEssential

/-- The diagnostic without its label. -/
def Diagnostic.unlabelled (d : Diagnostic) : Diagnostic := { d with origin := none }

/-- What is reported of lexemes, not of indentation, without labels. -/
def lexicalReports (ds : List Diagnostic) : List Diagnostic :=
  (ds.filter fun d => !d.fault.isIndentation).map Diagnostic.unlabelled

theorem essential_append (ts us : List Token) :
    essential (ts ++ us) = essential ts ++ essential us :=
  List.filter_append ..

theorem lexicalReports_append (ds es : List Diagnostic) :
    lexicalReports (ds ++ es) = lexicalReports ds ++ lexicalReports es := by
  rw [lexicalReports, List.filter_append, List.map_append]
  rfl

namespace Scanner

variable {source : Text} {past : List Reading} {out : List Token} {s t : Scanner}

/-- What the scan has ahead of it. -/
def ahead (s : Scanner) : List Reading :=
  if s.finished then [] else s.rest.readings none s.position

/-- Layout tokens are not essential. -/
theorem essential_map_layoutToken {kinds : List TokenKind}
    (h : ∀ kind ∈ kinds, kind.isLayout = true) : essential (kinds.map s.layoutToken) = [] := by
  refine List.filter_eq_nil_iff.2 fun u hu => ?_
  obtain ⟨kind, hkind, rfl⟩ := List.mem_map.1 hu
  simp [Token.isEssential, layoutToken, Token.synthetic, Token.ofLexeme, h kind hkind]

/-- What is reported of a lexeme at the place of the scanner is its reading's reports. -/
theorem lexicalReports_flaws (c : Char) (rest : Text) :
    lexicalReports ((Lexeme.read c rest).flaws.map fun flaw =>
        ⟨s.origin, flaw.fault, s.flawSpan flaw⟩) =
      ((Lexeme.read c rest).reading none s.position).reports := by
  have hall := (Lexeme.flawed_read c rest).not_layout.2
  rw [lexicalReports, List.filter_eq_self.2, List.map_map]
  · rfl
  · intro d hd
    obtain ⟨flaw, hflaw, rfl⟩ := List.mem_map.1 hd
    rw [hall flaw hflaw]
    rfl

/-- The tokens handed out and those in the queue, and what has been reported, tell what the text
reads as up to where the scan is. -/
structure Tells (source : Text) (past : List Reading) (out : List Token) (s : Scanner) : Prop where
  /-- What the scan has gone past and what it has ahead are what the text reads as. -/
  split : source.withoutMark.readings none .start = past ++ s.ahead
  /-- No essential token is missing. -/
  tokens : essential (out ++ s.pending) = essential (past.map Reading.token)
  /-- No token with a lexeme has been added. -/
  lexemes : ∀ t ∈ lexical (out ++ s.pending), t ∈ past.map Reading.token
  /-- What has been reported of lexemes is what is reported of their readings. -/
  reports : lexicalReports s.diagnostics = past.flatMap Reading.reports

namespace Tells

theorem ofText (source : Text) : Tells source [] [] (Scanner.ofText source) where
  split := rfl
  tokens := rfl
  lexemes := nofun
  reports := rfl

/-- The beginning of a line adds layout, and reports about indentation. -/
theorem beginLine (h : Tells source past out s) (ht : s.beginLine = .ok t) :
    Tells source past out t := by
  have hlexemes := h.lexemes
  rw [lexical_append, ← lexical_beginLine ht, ← lexical_append] at hlexemes
  rcases beginLine_cases ht with rfl | ⟨width, _, _, _, _, rfl⟩
  · exact ⟨h.split, h.tokens, h.lexemes, h.reports⟩
  · have hlayout : ∀ kind ∈ (s.indents.transition width).1.kinds, kind.isLayout = true := by
      intro kind hkind
      rcases Transition.isLayout_of_mem_kinds hkind with rfl | rfl | rfl <;> rfl
    have hfaults : lexicalReports (((s.indents.transition width).1.faults width).map
        fun fault => (⟨s.origin, fault, .ofText s.position []⟩ : Diagnostic)) = [] := by
      cases (s.indents.transition width).1 <;> rfl
    rw [indentTo_eq] at hlexemes ⊢
    refine ⟨h.split, ?_, hlexemes, ?_⟩
    · dsimp only
      rw [← List.append_assoc, essential_append, essential_map_layoutToken hlayout,
        List.append_nil]
      exact h.tokens
    · dsimp only
      rw [lexicalReports_append, hfaults, List.append_nil]
      exact h.reports

/-- Accepting a lexeme goes past its reading. -/
theorem accept (h : Tells source past out s) (hf : s.finished = false) {c : Char} {rest : Text}
    (hrest : s.rest = c :: rest) :
    Tells source (past ++ [(Lexeme.read c rest).reading none s.position]) out
      (s.accept (Lexeme.read c rest)) := by
  have hahead := h.split
  rw [ahead, hf, hrest, Text.readings_cons] at hahead
  rw [accept_eq]
  refine ⟨?_, ?_, ?_, ?_⟩
  · rw [ahead, List.append_assoc]
    dsimp only
    rw [hf]
    exact hahead
  · dsimp only
    rw [← List.append_assoc, essential_append, h.tokens, List.map_append, essential_append]
    rfl
  · dsimp only
    rw [← List.append_assoc, lexical_append, List.map_append]
    intro u hu
    rcases List.mem_append.1 hu with hu | hu
    · exact List.mem_append_left _ (h.lexemes u hu)
    · exact List.mem_append_right _ (List.mem_of_mem_filter hu)
  · dsimp only
    rw [lexicalReports_append, h.reports, lexicalReports_flaws, List.flatMap_append,
      List.flatMap_singleton]

/-- The end of the text is the last reading. -/
theorem finish (h : Tells source past out s) (hf : s.finished = false) (hrest : s.rest = []) :
    Tells source (past ++ [⟨.synthetic .endOfFile s.position, []⟩]) out s.finish := by
  have hahead := h.split
  rw [ahead, hf, hrest, Text.readings_nil] at hahead
  have hclosing : essential (s.closingKinds.map s.layoutToken) =
      [.synthetic .endOfFile s.position] := by
    rw [closingKinds, List.map_append, essential_append, essential_map_layoutToken]
    · rfl
    · intro kind hkind
      rw [List.eq_of_mem_replicate hkind]
      rfl
  rw [finish_eq]
  refine ⟨?_, ?_, ?_, ?_⟩
  · rw [ahead, List.append_assoc]
    exact hahead
  · dsimp only
    rw [← List.append_assoc, essential_append, h.tokens, List.map_append, essential_append]
    exact congrArg _ hclosing
  · dsimp only
    rw [← List.append_assoc, lexical_append, lexical_closing, List.append_nil, List.map_append]
    exact fun u hu => List.mem_append_left _ (h.lexemes u hu)
  · dsimp only
    rw [h.reports, List.flatMap_append]
    exact (List.append_nil _).symm

/-- Every move of the scanner keeps that it tells what it has gone past. -/
theorem kept (source : Text) : Kept fun out s => ∃ past, Tells source past out s where
  step {out s s'} h _ hf hs := by
    obtain ⟨past, h⟩ := h
    obtain ⟨t, ht, hend⟩ := step_cases hs
    have hft : t.finished = false := (beginLine_frame ht).2.2.2.2.2.2.trans hf
    rcases hend with ⟨hrest, rfl⟩ | ⟨c, rest, hrest, rfl⟩
    · exact ⟨_, (h.beginLine ht).finish hft hrest⟩
    · exact ⟨_, (h.beginLine ht).accept hft hrest⟩
  hand {out s t pending} h hp _ := by
    obtain ⟨past, h⟩ := h
    have hqueue : out ++ [t] ++ pending = out ++ s.pending := by
      rw [hp, List.append_assoc]
      rfl
    exact ⟨past, h.split, by rw [hqueue]; exact h.tokens, by rw [hqueue]; exact h.lexemes,
      h.reports⟩
  pass {out s t pending} h hp ht := by
    obtain ⟨past, h⟩ := h
    -- a token that is passed over is trivia
    have htrivia : t.isEssential = false := by
      have hboth : s.config.skipTrivia = true ∧ t.isTrivia = true := by
        simpa [handsOut] using ht
      rw [Token.isEssential, hboth.2]
      rfl
    refine ⟨past, h.split, ?_, ?_, h.reports⟩
    · rw [← h.tokens, hp, essential_append, essential_append]
      exact congrArg _ (List.filter_cons_of_neg (by rw [htrivia]; exact Bool.false_ne_true)).symm
    · intro u hu
      obtain ⟨hmem, hlexeme⟩ := List.mem_filter.1 hu
      refine h.lexemes u (List.mem_filter.2 ⟨?_, hlexeme⟩)
      rw [hp]
      rcases List.mem_append.1 hmem with hmem | hmem
      · exact List.mem_append_left _ hmem
      · exact List.mem_append_right _ (List.mem_cons_of_mem _ hmem)

end Tells

/-! ## Along a run -/

variable {events events' : List Event} {answers answers' : List (Option Token)}
  {last last' : Scanner}

/-- Whatever its events are, a run tells what the text reads as up to where it is. -/
theorem tells_of_run (hrun : (ofText source).run events = .ok (answers, last)) :
    ∃ past, Tells source past (handed answers) last := by
  have hother (config : Config) (out : List Token) (s : Scanner)
      (h : ∃ past, Tells source past out s) :
      ∃ past, Tells source past out (s.withConfig config) := by
    obtain ⟨past, h⟩ := h
    exact ⟨past, h.split, h.tokens, h.lexemes, h.reports⟩
  have hlabel (origin : Text) (out : List Token) (s : Scanner)
      (h : ∃ past, Tells source past out s) :
      ∃ past, Tells source past out (s.withOrigin origin) := by
    obtain ⟨past, h⟩ := h
    exact ⟨past, h.split, h.tokens, h.lexemes, h.reports⟩
  have hk := (Tells.kept source).run (fun config _ => hother config) hlabel
    ⟨[], Tells.ofText source⟩ hrun
  rwa [List.nil_append] at hk

/-- Once a request has been answered with nothing, the run has told all that the text reads
as. -/
theorem content_of_run (hrun : (ofText source).run events = .ok (answers, last))
    (hend : none ∈ answers) :
    essential (handed answers) =
        essential ((source.withoutMark.readings none .start).map Reading.token) ∧
      lexicalReports last.diagnostics =
        (source.withoutMark.readings none .start).flatMap Reading.reports := by
  obtain ⟨past, h⟩ := tells_of_run hrun
  obtain ⟨k, hanswers, _, hk⟩ := run_answers hrun
  have hdone : last.Exhausted := by
    apply hk
    rintro rfl
    rw [hanswers] at hend
    simp at hend
  have hall : source.withoutMark.readings none .start = past := by
    rw [h.split, ahead, hdone.1]
    exact List.append_nil past
  have htokens := h.tokens
  rw [hdone.2, List.append_nil] at htokens
  rw [hall]
  exact ⟨htokens, h.reports⟩

/-- **Settings never alter the lexical content.**  Take two runs on one text that ask for tokens
until there are none, each replacing settings and label at its own times.  Their tokens that are
neither trivia nor layout are the same, with their places and the end of the text, and apart from
its label all that they report is the same, inconsistent indentation excepted. -/
theorem content_of_runs (hrun : (ofText source).run events = .ok (answers, last))
    (hend : none ∈ answers) (hrun' : (ofText source).run events' = .ok (answers', last'))
    (hend' : none ∈ answers') :
    essential (handed answers) = essential (handed answers') ∧
      lexicalReports last.diagnostics = lexicalReports last'.diagnostics := by
  obtain ⟨htokens, hreports⟩ := content_of_run hrun hend
  obtain ⟨htokens', hreports'⟩ := content_of_run hrun' hend'
  exact ⟨htokens.trans htokens'.symm, hreports.trans hreports'.symm⟩

/-- A block with a broken literal above an inconsistent line.  One run tracks blocks, the other
stops tracking them within the block, skips trivia and replaces the label: they hand out a
different number of tokens and report a different number of faults. -/
theorem content_of_runs_reconfigured :
    let text : Text := ['a', '\n', ' ', ' ', '\'', 'b', '\n', ' ', 'c']
    let plain := List.replicate 16 Event.next
    let schedule := [.next, .next, .next, .withOrigin ['f'],
      .withConfig { skipTrivia := true, trackIndentation := false }] ++ List.replicate 12 Event.next
    ∃ answers last answers' last', (ofText text).run plain = .ok (answers, last) ∧
      (ofText text).run schedule = .ok (answers', last') ∧
      (handed answers).length ≠ (handed answers').length ∧
      last.diagnostics.length ≠ last'.diagnostics.length ∧
      essential (handed answers) = essential (handed answers') ∧
      lexicalReports last.diagnostics = lexicalReports last'.diagnostics := by
  intro text plain schedule
  have hok : (match (ofText text).run plain, (ofText text).run schedule with
    | .ok (answers, last), .ok (answers', last') =>
      answers.contains none && answers'.contains none &&
        (handed answers).length != (handed answers').length &&
        last.diagnostics.length != last'.diagnostics.length
    | _, _ => false) = true := by decide +kernel
  cases hrun : (ofText text).run plain with
  | error e => rw [hrun] at hok; cases hok
  | ok r =>
    obtain ⟨answers, last⟩ := r
    cases hrun' : (ofText text).run schedule with
    | error e => rw [hrun, hrun'] at hok; cases hok
    | ok r' =>
      obtain ⟨answers', last'⟩ := r'
      rw [hrun, hrun'] at hok
      simp only [Bool.and_eq_true, List.contains_iff_mem, bne_iff_ne] at hok
      obtain ⟨⟨⟨hend, hend'⟩, htokens⟩, hreports⟩ := hok
      exact ⟨answers, last, answers', last', rfl, rfl, htokens, hreports,
        content_of_runs hrun hend hrun' hend'⟩

end Scanner
end LayoutLexer

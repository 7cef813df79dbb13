import LayoutLexer.Proofs.Lexeme.Flaw
import LayoutLexer.Proofs.Position
import LayoutLexer.Proofs.Run

/-! # Positions are a function of the text

Whatever its owner does with a scanner, every token it hands out and every diagnostic it reports
is at the place that the text before its offset determines (`Scanner.places_of_run`).  The
scanner itself stands at such a place between two steps (`Scanner.Located`), because no lexeme
ends between a carriage return and its line feed.  An invalid escape is measured ahead of that
place, along the line, and there is no line break between the two.
-/
namespace LayoutLexer

open Text

/-- The position is that of a cut of the text which divides no line break. -/
def Position.In (p : Position) (text : Text) : Prop :=
  ∃ before after, text = before ++ after ∧ ¬ SplitsBreak before after ∧ p = .after before

namespace Scanner

/-- The scanner stands in the text where what it has yet to scan begins. -/
def Located (text : Text) (s : Scanner) : Prop :=
  ∃ before, text = before ++ s.rest ∧ ¬ SplitsBreak before s.rest ∧ s.position = .after before

variable {text : Text} {s : Scanner}

namespace Located

theorem ofText (source : Text) : Located source.withoutMark (Scanner.ofText source) :=
  ⟨[], rfl, by rintro ⟨⟨⟩, _⟩, rfl⟩

theorem position_in (h : Located text s) : s.position.In text := by
  obtain ⟨before, happ, hcut, hposition⟩ := h
  exact ⟨before, s.rest, happ, hcut, hposition⟩

/-- The cut before a part of the rest, at its distance along the line. -/
theorem along_in (h : Located text s) {piece rest : Text} (hrest : s.rest = piece ++ rest)
    (hinline : piece.Inline) (hcut : ¬ SplitsBreak piece rest) :
    (s.position.along (.past .zero piece)).In text := by
  obtain ⟨before, happ, hhere, hposition⟩ := h
  rw [hrest] at happ hhere
  by_cases hnil : piece = []
  · subst hnil
    exact ⟨before, rest, happ, hhere, hposition⟩
  · rw [splitsBreak_append_right hnil] at hhere
    refine ⟨before ++ piece, rest, by rw [happ, List.append_assoc], ?_, ?_⟩
    · rwa [splitsBreak_append_left hnil]
    · rw [hposition, ← Position.advance_eq_along _ hinline, Position.after_append hhere]

/-- A flaw of the next lexeme begins at a place of the text. -/
theorem flawSpan_in (h : Located text s) {c : Char} {rest : Text} (hrest : s.rest = c :: rest)
    {flaw : Flaw} (hflaw : flaw ∈ (Lexeme.read c rest).flaws) :
    (s.flawSpan flaw).start.In text := by
  obtain ⟨before, after, hsplit, hinline, hdistance⟩ := (Lexeme.liesIn_of_mem_flaws hflaw).split
  have happ := (Lexeme.fronts_read c rest).1
  rw [hsplit, List.append_assoc] at happ
  show (s.position.along flaw.distance).In text
  rw [hdistance]
  exact h.along_in (hrest.trans happ.symm) hinline hinline.not_splitsBreak

theorem beginLine (h : Located text s) {t : Scanner} (ht : s.beginLine = .ok t) :
    Located text t := by
  obtain ⟨_, _, _, hrest, hposition, _, _⟩ := beginLine_frame ht
  obtain ⟨before, happ, hcut, hplace⟩ := h
  rw [← hrest] at happ hcut
  exact ⟨before, happ, hcut, hposition.trans hplace⟩

theorem accept (h : Located text s) {c : Char} {rest : Text} (hrest : s.rest = c :: rest) :
    Located text (s.accept (Lexeme.read c rest)) := by
  obtain ⟨happ, hne⟩ := Lexeme.fronts_read c rest
  obtain ⟨before, htext, hhere, hposition⟩ := h
  rw [hrest, ← happ, splitsBreak_append_right hne] at hhere
  rw [accept_eq]
  refine ⟨before ++ (Lexeme.read c rest).text, ?_, ?_, ?_⟩
  · rw [htext, hrest, ← happ, List.append_assoc]
  · rw [splitsBreak_append_left hne]
    exact Lexeme.not_splitsBreak_read c rest
  · show s.position.advance _ = _
    rw [hposition, Position.after_append hhere]

end Located

/-! ## What holds of tokens and diagnostics wherever they are made -/

section Everywhere

variable {P : Token → Prop} {R : Diagnostic → Prop}

/-- The scanner is located, and everything that it has queued or reported so far is as it should
be. -/
structure Sound (text : Text) (P : Token → Prop) (R : Diagnostic → Prop) (out : List Token)
    (s : Scanner) : Prop where
  located : Located text s
  tokens : ∀ t ∈ out ++ s.pending, P t
  diagnostics : ∀ d ∈ s.diagnostics, R d

variable {out : List Token}
variable (hlayout : ∀ s, Located text s → ∀ kind, P (s.layoutToken kind))
variable (hlexeme : ∀ s, Located text s → ∀ c rest, s.rest = c :: rest →
  P (.ofLexeme (Lexeme.read c rest).kind s.position (Lexeme.read c rest).text))
variable (hindent : ∀ s, Located text s → ∀ width fault,
  fault ∈ (s.indents.transition width).1.faults width →
    R ⟨s.origin, fault, .ofText s.position []⟩)
variable (hflaw : ∀ s, Located text s → ∀ c rest, s.rest = c :: rest →
  ∀ flaw ∈ (Lexeme.read c rest).flaws, R ⟨s.origin, flaw.fault, s.flawSpan flaw⟩)

/-- Tokens are queued after those that are there. -/
theorem forall_mem_queue {queued tokens : List Token} (h : ∀ t ∈ out ++ queued, P t)
    (htokens : ∀ t ∈ tokens, P t) : ∀ t ∈ out ++ (queued ++ tokens), P t := by
  intro t ht
  rw [← List.append_assoc] at ht
  rcases List.mem_append.1 ht with ht | ht
  · exact h t ht
  · exact htokens t ht

include hlayout hindent in
theorem Sound.beginLine (h : Sound text P R out s) {t : Scanner} (ht : s.beginLine = .ok t) :
    Sound text P R out t := by
  refine ⟨h.located.beginLine ht, ?_, ?_⟩
  all_goals
    rcases beginLine_cases ht with rfl | ⟨width, _, _, _, _, rfl⟩
  · exact h.tokens
  · rw [indentTo_eq]
    refine forall_mem_queue h.tokens fun t ht => ?_
    obtain ⟨kind, _, rfl⟩ := List.mem_map.1 ht
    exact hlayout s h.located kind
  · exact h.diagnostics
  · rw [indentTo_eq]
    intro d hd
    rcases List.mem_append.1 hd with hd | hd
    · exact h.diagnostics d hd
    · obtain ⟨fault, hfault, rfl⟩ := List.mem_map.1 hd
      exact hindent s h.located width fault hfault

include hlexeme hflaw in
theorem Sound.accept (h : Sound text P R out s) {c : Char} {rest : Text}
    (hrest : s.rest = c :: rest) : Sound text P R out (s.accept (Lexeme.read c rest)) := by
  refine ⟨h.located.accept hrest, ?_, ?_⟩
  all_goals rw [accept_eq]
  · refine forall_mem_queue h.tokens fun t ht => ?_
    rw [List.mem_singleton.1 ht]
    exact hlexeme s h.located c rest hrest
  · intro d hd
    rcases List.mem_append.1 hd with hd | hd
    · exact h.diagnostics d hd
    · obtain ⟨flaw, hmem, rfl⟩ := List.mem_map.1 hd
      exact hflaw s h.located c rest hrest flaw hmem

include hlayout in
theorem Sound.finish (h : Sound text P R out s) : Sound text P R out s.finish := by
  rw [finish_eq]
  refine ⟨h.located, forall_mem_queue h.tokens fun t ht => ?_, h.diagnostics⟩
  obtain ⟨kind, _, rfl⟩ := List.mem_map.1 ht
  exact hlayout s h.located kind

include hlayout hlexeme hindent hflaw in
/-- What holds of layout, of lexemes, of inconsistent lines and of flaws at every place holds of
all that a scanner queues and reports. -/
theorem kept_sound : Kept (Sound text P R) where
  step {out s s'} h _ _ hs := by
    obtain ⟨t, ht, ⟨_, rfl⟩ | ⟨c, rest, hrest, rfl⟩⟩ := step_cases hs
    · exact (h.beginLine hlayout hindent ht).finish hlayout
    · exact (h.beginLine hlayout hindent ht).accept hlexeme hflaw hrest
  hand {out s t pending} h hp _ := by
    refine ⟨h.located, fun u hu => h.tokens u ?_, h.diagnostics⟩
    rw [hp]
    simpa using hu
  pass {out s t pending} h hp _ := by
    refine ⟨h.located, fun u hu => h.tokens u ?_, h.diagnostics⟩
    rw [hp]
    rcases List.mem_append.1 hu with hu | hu
    · exact List.mem_append_left _ hu
    · exact List.mem_append_right _ (List.mem_cons_of_mem _ hu)

include hlayout hlexeme hindent hflaw in
/-- So it holds of all tokens of a run and of all its diagnostics. -/
theorem sound_of_run {source : Text} (htext : text = source.withoutMark) {events : List Event}
    {answers : List (Option Token)} {last : Scanner}
    (hrun : (Scanner.ofText source).run events = .ok (answers, last)) :
    Sound text P R (handed answers) last := by
  subst htext
  have hk := (kept_sound hlayout hlexeme hindent hflaw).run
    (fun _ _ _ _ h => ⟨h.located, h.tokens, h.diagnostics⟩)
    (fun _ _ _ h => ⟨h.located, h.tokens, h.diagnostics⟩)
    (show Sound source.withoutMark P R [] (Scanner.ofText source) from
      ⟨.ofText source, List.forall_mem_nil _, List.forall_mem_nil _⟩) hrun
  rwa [List.nil_append] at hk

end Everywhere

/-- **Positions are a function of the text alone.**  Take any events on a fresh scanner.  Every
token that it hands out and everything that it reports begins at a cut of the text that divides
no carriage return from its line feed: the offset counts the bytes before the cut, the line is
one more than the line breaks before it, and the column is one more than the characters between
the last of them and the cut. -/
theorem places_of_run {source : Text} {events : List Event} {answers : List (Option Token)}
    {last : Scanner} (hrun : (ofText source).run events = .ok (answers, last)) :
    ∀ p ∈ (handed answers).map (fun t => t.span.start) ++
        last.diagnostics.map (fun d => d.span.start),
      ∃ before after, source.withoutMark = before ++ after ∧ ¬ SplitsBreak before after ∧
        p.offset = before.byteLength ∧ p.line = 1 + before.lineBreaks ∧
        p.column = 1 + before.lastLine.length := by
  have hsound := sound_of_run (P := fun t => t.span.start.In source.withoutMark)
    (R := fun d => d.span.start.In source.withoutMark) (fun _ h _ => h.position_in)
    (fun _ h _ _ _ => h.position_in) (fun _ h _ _ _ => h.position_in)
    (fun _ h _ _ hrest _ hflaw => h.flawSpan_in hrest hflaw) rfl hrun
  have hin : ∀ p ∈ (handed answers).map (fun t => t.span.start) ++
      last.diagnostics.map (fun d => d.span.start), p.In source.withoutMark := by
    intro p hp
    rcases List.mem_append.1 hp with hp | hp
    · obtain ⟨t, ht, rfl⟩ := List.mem_map.1 hp
      exact hsound.tokens t (List.mem_append_left _ ht)
    · obtain ⟨d, hd, rfl⟩ := List.mem_map.1 hp
      exact hsound.diagnostics d hd
  intro p hp
  obtain ⟨before, after, happ, hcut, rfl⟩ := hin p hp
  exact ⟨before, after, happ, hcut, rfl, rfl, rfl⟩

/-- A run over a verbatim string of two lines, an inconsistent line and an invalid escape, with
the three kinds of line break: ten tokens and two diagnostics. -/
theorem places_of_run_verbatim :
    let text : Text := ['"', '"', '"', '\r', '\n', 'é', '"', '"', '"', '\r', ' ', ' ', 'a', '\n',
      ' ', '"', '\\', 'q', '"']
    let events := List.replicate 10 Event.next
    ∃ answers last, (ofText text).run events = .ok (answers, last) ∧
      (handed answers).length = 10 ∧ last.diagnostics.length = 2 ∧
      ∀ p ∈ (handed answers).map (fun t => t.span.start) ++
          last.diagnostics.map (fun d => d.span.start),
        ∃ before after, text.withoutMark = before ++ after ∧ ¬ SplitsBreak before after ∧
          p.offset = before.byteLength ∧ p.line = 1 + before.lineBreaks ∧
          p.column = 1 + before.lastLine.length := by
  intro text events
  have hok : (((ofText text).run events).toOption.any fun r =>
      (handed r.1).length == 10 && r.2.diagnostics.length == 2) = true := by decide +kernel
  cases hrun : (ofText text).run events with
  | error e => rw [hrun] at hok; cases hok
  | ok r =>
    obtain ⟨answers, last⟩ := r
    rw [hrun] at hok
    simp only [Except.toOption, Option.any_some, Bool.and_eq_true, beq_iff_eq] at hok
    exact ⟨answers, last, rfl, hok.1, hok.2, places_of_run hrun⟩

end Scanner
end LayoutLexer

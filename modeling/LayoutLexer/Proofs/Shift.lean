import LayoutLexer.Proofs.Change
import LayoutLexer.Proofs.Position

/-! # A scan below other lines

Put lines before a text, and every place in it moves: by the bytes of those lines, and by their
line breaks.  A scanner looks at its place only to say where a token is, so it does the same
things when its places are moved.  Each of its updates commutes with the move, hence so does a
step (`Scanner.step_shift`) and with it the whole scan (`Scanner.drain_shift`).
-/
namespace LayoutLexer

variable {a t : Text}

/-- The place when the lines of a text come before it. -/
def Position.shift (a : Text) (p : Position) : Position :=
  ⟨a.byteLength + p.offset, a.lineBreaks + p.line, p.column⟩

/-- The span when the lines of a text come before it. -/
def Span.shift (a : Text) (s : Span) : Span := ⟨s.start.shift a, a.byteLength + s.endOffset⟩

/-- The token when the lines of a text come before it. -/
def Token.shift (a : Text) (t : Token) : Token := { t with span := t.span.shift a }

/-- The diagnostic when the lines of a text come before it. -/
def Diagnostic.shift (a : Text) (d : Diagnostic) : Diagnostic := { d with span := d.span.shift a }

namespace Position

variable {p : Position}

theorem shift_step (c : Char) (next : Option Char) :
    (p.shift a).step c next = (p.step c next).shift a := by
  unfold step
  by_cases hpair : c = '\r' ∧ next = some '\n'
  · rw [if_pos hpair, if_pos hpair]
    simp [shift, Nat.add_assoc]
  · rw [if_neg hpair, if_neg hpair]
    by_cases hbreak : CharClass.isLineBreak c = true
    · rw [if_pos hbreak, if_pos hbreak]
      simp [shift, Nat.add_assoc]
    · rw [if_neg hbreak, if_neg hbreak]
      simp [shift, Nat.add_assoc]

theorem shift_advance : (p.shift a).advance t = (p.advance t).shift a := by
  induction t generalizing p with
  | nil => rfl
  | cons c t ih => rw [advance_cons, advance_cons, shift_step, ih]

theorem shift_along (d : Distance) : (p.shift a).along d = (p.along d).shift a := by
  simp [along, shift, Nat.add_assoc]

/-- The place after some lines is the beginning of what comes below them. -/
theorem after_eq_shift_start (h : a.lastLine = []) : after a = start.shift a := by
  simp [after, shift, start, h, Nat.add_comm]

end Position

theorem Span.shift_ofText (p : Position) : ofText (p.shift a) t = (ofText p t).shift a := by
  simp [ofText, shift, Position.shift, Nat.add_assoc]

theorem Token.shift_ofLexeme (kind : TokenKind) (p : Position) (lexeme : Text) :
    ofLexeme kind (p.shift a) lexeme = (ofLexeme kind p lexeme).shift a := by
  simp [ofLexeme, shift, Span.shift_ofText]

namespace Scanner

/-- The scanner when the lines of a text come before its own, with what was reported there. -/
def shift (a : Text) (earlier : List Diagnostic) (s : Scanner) : Scanner :=
  { s with
    source := a ++ s.source
    position := s.position.shift a
    pending := s.pending.map (Token.shift a)
    diagnostics := earlier ++ s.diagnostics.map (Diagnostic.shift a) }

variable {earlier : List Diagnostic} {s : Scanner}

theorem layoutToken_shift :
    (s.shift a earlier).layoutToken = fun kind => (s.layoutToken kind).shift a :=
  funext fun kind => Token.shift_ofLexeme kind s.position []

theorem flawSpan_shift (flaw : Flaw) :
    (s.shift a earlier).flawSpan flaw = (s.flawSpan flaw).shift a := by
  unfold flawSpan
  rw [← Span.shift_ofText, ← Position.shift_along]
  rfl

theorem indentTo_shift (width : Nat) :
    (s.shift a earlier).indentTo width = (s.indentTo width).shift a earlier := by
  rw [indentTo_eq, indentTo_eq, layoutToken_shift]
  simp only [shift, List.map_append, List.map_map, List.append_assoc, Function.comp_def,
    Diagnostic.shift, Span.shift_ofText]

theorem accept_shift (l : Lexeme) :
    (s.shift a earlier).accept l = (s.accept l).shift a earlier := by
  rw [accept_eq, accept_eq]
  simp only [flawSpan_shift]
  simp only [shift, List.map_append, List.map_map, List.append_assoc, Function.comp_def,
    List.map_cons, List.map_nil, Diagnostic.shift, Token.shift_ofLexeme, Position.shift_advance]

theorem finish_shift : (s.shift a earlier).finish = s.finish.shift a earlier := by
  have hkinds : (s.shift a earlier).closingKinds = s.closingKinds := rfl
  rw [finish_eq, finish_eq, layoutToken_shift, hkinds]
  simp only [shift, List.map_append, List.map_map, Function.comp_def]
  rfl

theorem beginLine_shift :
    (s.shift a earlier).beginLine = s.beginLine.map (shift a earlier) :=
  beginLine_map rfl rfl rfl rfl rfl rfl fun _ => indentTo_shift

/-- A step below other lines is the same step, moved. -/
theorem step_shift : (s.shift a earlier).step = s.step.map (shift a earlier) :=
  step_map beginLine_shift (fun _ => rfl) (fun _ => finish_shift) fun _ _ _ => accept_shift _

theorem unnoticed_shift : Unnoticed (fun _ => True) (shift a earlier) where
  finished _ := rfl
  emptied _ := rfl
  step _ _ := step_shift

/-- **A scan below other lines is the same scan, moved.** -/
theorem drain_shift (s : Scanner) :
    (s.shift a earlier).drain = s.drain.map fun (tokens, last) =>
      (tokens.map (Token.shift a), last.shift a earlier) :=
  unnoticed_shift.drain_map lasting_true .id (fun _ => rfl) (fun _ => List.filter_map)
    (fun _ _ => List.map_append) s trivial

end Scanner
end LayoutLexer

import LayoutLexer.Indentation
import LayoutLexer.Lexeme

/-! # The scanner

A scanner walks a text once and hands out its tokens one by one.  Each step looks at one place:
at the start of a line it first measures the indentation, which may queue layout tokens, then
it queues the token of the next lexeme or, at the end of the text, closes the open blocks and
queues the end of the text.  Tokens are taken from the queue, where trivia are passed over if
the configuration says so.  Configuration and origin may be replaced at any time.

The only thing that can fail is the width of an indentation.  Main statements: a step makes
progress, so a scanner comes to its end; draining it is taking tokens until there are none.
-/
namespace LayoutLexer

/-- The settings of a scan. -/
structure Config where
  /-- A tab moves the indentation to the next multiple of this width. -/
  tabWidth : Nat := 8
  /-- Whether white space, line breaks and comments are left out of the tokens handed out. -/
  skipTrivia : Bool := false
  /-- Whether the indentation of lines opens and closes blocks. -/
  trackIndentation : Bool := true
  deriving DecidableEq, Repr

/-- The state of a scan. -/
structure Scanner where
  /-- The whole text, without a leading byte-order mark. -/
  source : Text
  /-- The label of the text in diagnostics. -/
  origin : Option Text
  config : Config
  /-- The part of the text that is not scanned yet. -/
  rest : Text
  /-- The place where the rest begins. -/
  position : Position
  /-- Whether the indentation of the line at this place has yet to be looked at. -/
  atLineStart : Bool
  indents : IndentStack
  /-- Tokens that are scanned but not handed out. -/
  pending : List Token
  /-- What has been reported so far, the oldest first. -/
  diagnostics : List Diagnostic
  /-- Whether the end of the text has been queued. -/
  finished : Bool
  deriving DecidableEq, Repr

/-- The text after a leading byte-order mark, of which one is dropped. -/
def Text.withoutMark (t : Text) : Text :=
  match t with
  | '\uFEFF' :: rest => rest
  | _ => t

namespace Scanner

/-- A scanner at the start of a text, with the default configuration and no origin. -/
def ofText (t : Text) : Scanner where
  source := t.withoutMark
  origin := none
  config := {}
  rest := t.withoutMark
  position := .start
  atLineStart := true
  indents := .base
  pending := []
  diagnostics := []
  finished := false

/-- The scanner with another configuration from here on. -/
def withConfig (s : Scanner) (config : Config) : Scanner := { s with config }

/-- The scanner with another label for what it reports from here on. -/
def withOrigin (s : Scanner) (origin : Text) : Scanner := { s with origin := some origin }

/-! ## One step -/

/-- Reports a fault. -/
def report (s : Scanner) (fault : Fault) (span : Span) : Scanner :=
  { s with diagnostics := s.diagnostics ++ [⟨s.origin, fault, span⟩] }

/-- Queues tokens. -/
def enqueue (s : Scanner) (tokens : List Token) : Scanner :=
  { s with pending := s.pending ++ tokens }

/-- A synthetic token at this place. -/
def layoutToken (s : Scanner) (kind : TokenKind) : Token := .synthetic kind s.position

/-- Whether a line that goes on like this after its white space has nothing to indent: it is
empty or a comment. -/
def isInsignificant : Text → Bool
  | [] => true
  | c :: _ => CharClass.isLineBreak c || c == '#'

/-- Queues the layout tokens of a line of the given width. -/
def indentTo (s : Scanner) (width : Nat) : Scanner :=
  let (transition, indents) := s.indents.transition width
  let s := { s with indents }
  match transition with
  | .same => s
  | .indent => s.enqueue [s.layoutToken .indent]
  | .dedent blocks => s.enqueue (List.replicate blocks (s.layoutToken .dedent))
  | .inconsistent blocks enclosing =>
    let token := s.layoutToken (.error .indentation)
    (s.enqueue (List.replicate blocks (s.layoutToken .dedent) ++ [token])).report
      (.inconsistentIndentation width enclosing) token.span

/-- Looks at the indentation of the line that begins here. -/
def measureLine (s : Scanner) : Except Overflow Scanner :=
  if isInsignificant (s.rest.dropWhile CharClass.isHorizontalSpace) then .ok s
  else
    match Width.checked s.config.tabWidth (s.rest.takeWhile CharClass.isHorizontalSpace) with
    | .error e => .error e
    | .ok width => .ok (s.indentTo width)

/-- At the start of a line, looks at its indentation if blocks are tracked. -/
def beginLine (s : Scanner) : Except Overflow Scanner :=
  if s.atLineStart then
    let s := { s with atLineStart := false }
    if s.config.trackIndentation then s.measureLine else .ok s
  else .ok s

/-- The span of a flaw of the lexeme at this place, which lies on the line of the place. -/
def flawSpan (s : Scanner) (flaw : Flaw) : Span :=
  .ofText (s.position.along flaw.distance) flaw.piece

/-- Reports the flaws of the lexeme at this place. -/
def reportFlaws (s : Scanner) (flaws : List Flaw) : Scanner :=
  flaws.foldl (fun s flaw => s.report flaw.fault (s.flawSpan flaw)) s

/-- Queues the token of a lexeme and moves past it. -/
def accept (s : Scanner) (l : Lexeme) : Scanner :=
  let s := s.reportFlaws l.flaws
  { s.enqueue [.ofLexeme l.kind s.position l.text] with
    rest := l.rest
    position := s.position.advance l.text
    atLineStart := s.atLineStart || l.kind == .lexical (.rule .lineFeed) }

/-- Closes the open blocks if blocks are tracked, and queues the end of the text. -/
def finish (s : Scanner) : Scanner :=
  let (blocks, indents) := if s.config.trackIndentation then s.indents.close else (0, s.indents)
  { s.enqueue (List.replicate blocks (s.layoutToken .dedent) ++ [s.layoutToken .endOfFile]) with
    indents
    finished := true }

/-- Scans the next place of the text. -/
def step (s : Scanner) : Except Overflow Scanner :=
  match s.beginLine with
  | .error e => .error e
  | .ok s =>
    match s.rest with
    | [] => .ok s.finish
    | c :: rest => .ok (s.accept (Lexeme.read c rest))

/-! ## A step makes progress -/

/-- What there is left to scan, the end of the text included. -/
def remaining (s : Scanner) : Nat := if s.finished then 0 else s.rest.length + 1

@[simp] theorem finished_reportFlaws (s : Scanner) (flaws : List Flaw) :
    (s.reportFlaws flaws).finished = s.finished := by
  unfold reportFlaws
  induction flaws generalizing s with
  | nil => rfl
  | cons flaw flaws ih => rw [List.foldl_cons, ih]; rfl

theorem indentTo_rest_finished (s : Scanner) (width : Nat) :
    (s.indentTo width).rest = s.rest ∧ (s.indentTo width).finished = s.finished := by
  unfold indentTo
  dsimp only
  split <;> exact ⟨rfl, rfl⟩

/-- Looking at an indentation consumes nothing. -/
theorem beginLine_rest_finished {s s' : Scanner} (h : s.beginLine = .ok s') :
    s'.rest = s.rest ∧ s'.finished = s.finished := by
  unfold beginLine at h
  split at h
  · dsimp only at h
    split at h
    · unfold measureLine at h
      split at h
      · cases h; exact ⟨rfl, rfl⟩
      · split at h
        · cases h
        · cases h; exact indentTo_rest_finished _ _
    · cases h; exact ⟨rfl, rfl⟩
  · cases h; exact ⟨rfl, rfl⟩

/-- A step of an unfinished scan leaves less to scan. -/
theorem step_remaining_lt {s s' : Scanner} (hf : s.finished = false) (h : s.step = .ok s') :
    s'.remaining < s.remaining := by
  unfold step at h
  split at h
  · cases h
  · next t ht =>
    obtain ⟨hrest, hfin⟩ := beginLine_rest_finished ht
    split at h
    · cases h
      simp [remaining, finish, hf]
    · next c rest hc =>
      cases h
      have hlt := Lexeme.rest_length_lt c rest
      rw [← hc, hrest] at hlt
      simp only [remaining, accept, enqueue, finished_reportFlaws, hfin, hf]
      simp
      exact hlt

/-! ## Handing out tokens -/

/-- Whether the configuration lets a token be handed out. -/
def handsOut (s : Scanner) (t : Token) : Bool := !(s.config.skipTrivia && t.isTrivia)

/-- Takes the first token of the queue that may be handed out, with those before it. -/
def takePending (s : Scanner) : Option Token × Scanner :=
  match s.pending.dropWhile fun t => !s.handsOut t with
  | [] => (none, { s with pending := [] })
  | t :: pending => (some t, { s with pending })

theorem takePending_remaining (s : Scanner) : s.takePending.2.remaining = s.remaining := by
  unfold takePending
  split <;> rfl

/-- The next token; there is none after the end of the text. -/
def next (s : Scanner) : Except Overflow (Option Token × Scanner) :=
  match s.takePending.1 with
  | some t => .ok (some t, s.takePending.2)
  | none =>
    if _hf : s.takePending.2.finished then .ok (none, s.takePending.2)
    else
      match _hs : s.takePending.2.step with
      | .error e => .error e
      | .ok s' => next s'
termination_by s.remaining
decreasing_by
  rw [← takePending_remaining s]
  exact step_remaining_lt (by simpa using _hf) _hs

/-- All tokens that are left, and the scanner at its end. -/
def drain (s : Scanner) : Except Overflow (List Token × Scanner) :=
  let ready := s.pending.filter s.handsOut
  if _hf : s.finished then .ok (ready, { s with pending := [] })
  else
    match _hs : { s with pending := [] : Scanner }.step with
    | .error e => .error e
    | .ok s' => (drain s').map fun (tokens, last) => (ready ++ tokens, last)
termination_by s.remaining
decreasing_by
  exact step_remaining_lt (s := { s with pending := [] }) (by simpa using _hf) _hs

/-! ## Draining is taking tokens until there are none -/

theorem filter_dropWhile_not {α : Type} (p : α → Bool) (l : List α) :
    (l.dropWhile fun a => !p a).filter p = l.filter p := by
  induction l with
  | nil => rfl
  | cons a l ih => by_cases h : p a <;> simp [h, ih]

theorem takePending_none {s : Scanner} (h : s.takePending.1 = none) :
    s.pending.filter s.handsOut = [] ∧ s.takePending.2 = { s with pending := [] } := by
  unfold takePending at h ⊢
  split at h
  · next hd =>
    exact ⟨by rw [← filter_dropWhile_not, hd]; rfl, rfl⟩
  · cases h

theorem takePending_some {s : Scanner} {t : Token} (h : s.takePending.1 = some t) :
    ∃ pending, s.pending.filter s.handsOut = t :: pending.filter s.handsOut ∧
      s.takePending.2 = { s with pending } := by
  unfold takePending at h ⊢
  split at h
  · cases h
  · next pending hd =>
    cases h
    refine ⟨pending, ?_, rfl⟩
    have hout := List.head?_dropWhile_not (fun t => !s.handsOut t) s.pending
    rw [hd] at hout
    rw [← filter_dropWhile_not, hd, List.filter_cons_of_pos (by simpa using hout)]

theorem drain_of_takePending_some {s : Scanner} {t : Token} (h : s.takePending.1 = some t) :
    s.drain = s.takePending.2.drain.map fun (tokens, last) => (t :: tokens, last) := by
  obtain ⟨pending, hready, heq⟩ := takePending_some h
  have hsame : ({ s with pending } : Scanner).handsOut = s.handsOut := rfl
  rw [heq, drain, drain]
  dsimp only
  rw [hready, hsame]
  split
  · rfl
  · split
    · rfl
    · next s' _ => cases s'.drain <;> rfl

/-- Draining with nothing to hand out first goes on with a step. -/
theorem drain_of_takePending_none {s : Scanner} (h : s.takePending.1 = none) :
    s.drain =
      if s.takePending.2.finished then .ok ([], s.takePending.2)
      else
        match s.takePending.2.step with
        | .error e => .error e
        | .ok s' => s'.drain := by
  obtain ⟨hready, heq⟩ := takePending_none h
  rw [heq, drain]
  dsimp only
  rw [hready]
  split
  · rfl
  · split
    · next hs => rw [hs]
    · next s' hs =>
      rw [hs]
      dsimp only
      cases s'.drain <;> rfl

/-- Draining takes the next token, if there is one, and drains what is left. -/
theorem drain_eq_next (s : Scanner) :
    s.drain =
      match s.next with
      | .error e => .error e
      | .ok (none, last) => .ok ([], last)
      | .ok (some t, s') => s'.drain.map fun (tokens, last) => (t :: tokens, last) := by
  fun_induction next s with
  | case1 s t h => exact drain_of_takePending_some h
  | case2 s h hf => rw [drain_of_takePending_none h, if_pos hf]
  | case3 s h hf e hs => rw [drain_of_takePending_none h, if_neg hf, hs]
  | case4 s h hf s' hs ih => rw [drain_of_takePending_none h, if_neg hf, hs]; exact ih

end Scanner
end LayoutLexer

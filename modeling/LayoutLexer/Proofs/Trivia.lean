import LayoutLexer.Proofs.Change

/-! # Trivia are passed over, nothing else

Whether trivia are handed out is asked when a token is taken from the queue, and nowhere else: a
line is measured by its white space and begins after a line break all the same.  So a step is the
same step under both settings (`Scanner.step_skipping`), although the steps fall between other
requests, and a scan that skips trivia is the whole scan with the trivia taken out of its tokens
(`Scanner.drain_skipping`, `Listing.ofText_skipTrivia`).
-/
namespace LayoutLexer

namespace TokenKind

/-- The kinds of tokens that carry no meaning. -/
def triviaKinds : List TokenKind :=
  [.lexical (.rule .whiteSpace), .lexical (.rule .lineFeed), .lexical (.rule .comment)]

theorem isTrivia_iff {k : TokenKind} : k.isTrivia = true ↔ k ∈ triviaKinds := by
  constructor
  · intro h
    cases k with
    | lexical p =>
      cases p with
      | rule r => cases r <;> first | decide | cases h
      | keyword _ => cases h
      | symbol _ => cases h
    | _ => cases h
  · have hall : ∀ k ∈ triviaKinds, k.isTrivia = true := by decide
    exact hall k

end TokenKind

namespace Scanner

variable {s : Scanner} {skip : Bool}

/-- The scanner with trivia skipped or not. -/
def skipping (skip : Bool) (s : Scanner) : Scanner :=
  { s with config := { s.config with skipTrivia := skip } }

theorem indentTo_skipping (width : Nat) :
    (s.skipping skip).indentTo width = (s.indentTo width).skipping skip := by
  rw [indentTo_eq, indentTo_eq]
  rfl

theorem accept_skipping (l : Lexeme) :
    (s.skipping skip).accept l = (s.accept l).skipping skip := by
  rw [accept_eq, accept_eq]
  rfl

theorem beginLine_skipping :
    (s.skipping skip).beginLine = s.beginLine.map (skipping skip) :=
  beginLine_map rfl rfl rfl rfl rfl rfl fun _ => indentTo_skipping

/-- A step does not ask whether trivia are skipped. -/
theorem step_skipping : (s.skipping skip).step = s.step.map (skipping skip) :=
  step_map beginLine_skipping (fun _ => rfl) (fun _ => rfl) fun _ _ _ => accept_skipping _

theorem unnoticed_skipping : Unnoticed (fun _ => True) (skipping skip) where
  finished _ := rfl
  emptied _ := rfl
  step _ _ := step_skipping

/-- The queue is handed out but for its trivia. -/
theorem filter_handsOut_skipping :
    (s.skipping true).pending.filter (s.skipping true).handsOut =
      ((s.skipping false).pending.filter (s.skipping false).handsOut).filter
        fun t => !t.isTrivia := by
  have hall : (s.skipping false).pending.filter (s.skipping false).handsOut = s.pending :=
    List.filter_eq_self.2 fun t _ => rfl
  rw [hall]
  exact List.filter_congr fun t _ => rfl

/-- **A scan that skips trivia is the scan without its trivia**: it reports the same and ends
in the same state, or fails where the other one does. -/
theorem drain_skipping (s : Scanner) :
    (s.skipping true).drain = (s.skipping false).drain.map fun (tokens, last) =>
      (tokens.filter fun t => !t.isTrivia, last.skipping true) :=
  unnoticed_skipping.drain_map lasting_true unnoticed_skipping (fun _ => rfl)
    (fun _ => filter_handsOut_skipping) (fun _ _ => List.filter_append ..) s trivial

end Scanner

namespace Listing

/-- A listing with trivia skipped or not is made by draining its scanner. -/
theorem ofText_skipping (config : Config) (origin : Option Text) (source : Text) (skip : Bool) :
    ofText { config with skipTrivia := skip } origin source =
      ((scanner config origin source).skipping skip).drain.map fun (tokens, last) =>
        ⟨origin, tokens, last.diagnostics⟩ := by
  have hscanner : scanner { config with skipTrivia := skip } origin source =
      (scanner config origin source).skipping skip := rfl
  rw [ofText, hscanner]
  cases ((scanner config origin source).skipping skip).drain <;> rfl

/-- **Skipping trivia is a filter**: under any configuration, the listing of a text with trivia
skipped is its listing with trivia shown, less the white space, the line breaks and the comments
among its tokens.  Its other tokens are the same with their places, its diagnostics are the same,
and where an indentation is too wide for one listing it is too wide for the other. -/
theorem ofText_skipTrivia (config : Config) (origin : Option Text) (source : Text) :
    ofText { config with skipTrivia := true } origin source =
      (ofText { config with skipTrivia := false } origin source).map fun l =>
        { l with tokens := l.tokens.filter fun t => t.kind ∉ TokenKind.triviaKinds } := by
  have hfilter (tokens : List Token) : (tokens.filter fun t => !t.isTrivia) =
      tokens.filter fun t => t.kind ∉ TokenKind.triviaKinds := by
    refine List.filter_congr fun t _ => ?_
    rw [Bool.eq_iff_iff, decide_eq_true_eq, ← TokenKind.isTrivia_iff]
    simp [Token.isTrivia]
  rw [ofText_skipping, ofText_skipping, Scanner.drain_skipping]
  cases ((scanner config origin source).skipping false).drain with
  | error e => rfl
  | ok r =>
    dsimp only [Except.map]
    rw [hfilter]
    rfl

/-- A block below a comment is found with its lines and their white space hidden. -/
example :
    (ofText { skipTrivia := true } none ['a', ' ', '#', '\n', ' ', 'b']).toOption.map kinds =
      some [.lexical (.rule .lowerIdentifier), .indent, .lexical (.rule .lowerIdentifier),
        .dedent, .endOfFile] := by
  decide +kernel

end Listing
end LayoutLexer

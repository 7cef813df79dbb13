import LayoutLexer.Proofs.Place
import LayoutLexer.Proofs.Slice

/-! # Diagnostics and error tokens

Reporting a fault and queueing an error token are two things that a scanner does one after the
other, yet neither happens without the other: each error token has its block of diagnostics
(`Block`), and the blocks in the order of the tokens are all that has been reported, whatever the
owner of the scanner did so far (`Scanner.reports_of_run`).  So a listing without diagnostics is
one without error tokens, and the strict result exists for no other.

Of a lexeme this is `Lexeme.flawed_read`, of a line it is the shape of a transition; the rest is
that error tokens are never passed over, since they are no trivia.
-/
namespace LayoutLexer

/-- What is reported of an error token.  Every kind but that of literals has one diagnostic, with
the span of the token.  A literal has its invalid escapes in the order of the text, each within
the token and after its quote, none of them empty and no two overlapping; then at most one
diagnostic with the span of the token; and at least one of them all. -/
inductive Block (t : Token) : List Diagnostic → Prop
  | identifier {origin : Option Text} {lexeme : Text} : t.kind = .error .identifier →
      Block t [⟨origin, .malformedIdentifier lexeme, t.span⟩]
  | number {origin : Option Text} {lexeme : Text} : t.kind = .error .number →
      Block t [⟨origin, .malformedNumber lexeme, t.span⟩]
  | character {origin : Option Text} {c : Char} : t.kind = .error .character →
      Block t [⟨origin, .invalidCharacter c, t.span⟩]
  | indentation {origin : Option Text} {width enclosing : Nat} : t.kind = .error .indentation →
      Block t [⟨origin, .inconsistentIndentation width enclosing, t.span⟩]
  | literal {escapes whole : List Diagnostic} : t.kind = .error .literal →
      (∀ d ∈ escapes, (∃ sequence, d.fault = .invalidEscape sequence) ∧
        t.span.start.offset < d.span.start.offset ∧ d.span.start.offset < d.span.endOffset ∧
        d.span.endOffset ≤ t.span.endOffset) →
      escapes.Pairwise (fun d e => d.span.endOffset ≤ e.span.start.offset) →
      whole.length ≤ 1 →
      (∀ d ∈ whole, d.span = t.span ∧ ((∃ kind, d.fault = .unterminatedLiteral kind) ∨
        ∃ lexeme, d.fault = .malformedCharacter lexeme)) →
      escapes ++ whole ≠ [] →
      Block t (escapes ++ whole)

theorem Block.ne_nil {t : Token} {ds : List Diagnostic} (h : Block t ds) : ds ≠ [] := by
  cases h with
  | literal _ _ _ _ _ hne => exact hne
  | _ => exact List.cons_ne_nil _ _

/-! ## Accounts -/

/-- The tokens that stand for something malformed. -/
def errors (tokens : List Token) : List Token := tokens.filter fun t => t.kind.isError

/-- The diagnostics are the blocks of the error tokens, one after the other. -/
def Accounts (tokens : List Token) (ds : List Diagnostic) : Prop :=
  ∃ blocks, List.Forall₂ Block (errors tokens) blocks ∧ ds = blocks.flatten

namespace Accounts

variable {ts us : List Token} {ds es : List Diagnostic}

theorem append (ht : Accounts ts ds) (hu : Accounts us es) : Accounts (ts ++ us) (ds ++ es) := by
  obtain ⟨blocks, hblocks, rfl⟩ := ht
  obtain ⟨blocks', hblocks', rfl⟩ := hu
  refine ⟨blocks ++ blocks', ?_, List.flatten_append.symm⟩
  rw [errors, List.filter_append]
  exact List.rel_append hblocks hblocks'

/-- Tokens without an error among them need no diagnostic. -/
theorem of_no_error (h : ∀ t ∈ ts, t.kind.isError = false) : Accounts ts [] := by
  refine ⟨[], ?_, rfl⟩
  rw [errors, List.filter_eq_nil_iff.2 fun t ht => by simp [h t ht]]
  exact .nil

theorem of_block {t : Token} (h : t.kind.isError = true) (hblock : Block t ds) :
    Accounts [t] ds := by
  refine ⟨[ds], ?_, by simp⟩
  have hself : errors [t] = [t] := by simp [errors, h]
  rw [hself]
  exact .cons hblock .nil

/-- Something is reported if and only if some token is an error. -/
theorem eq_nil_iff (h : Accounts ts ds) : ds = [] ↔ ∀ t ∈ ts, t.kind.isError = false := by
  obtain ⟨blocks, hblocks, rfl⟩ := h
  constructor
  · intro hnil t ht
    by_contra herror
    have hmem : t ∈ errors ts := List.mem_filter.2 ⟨ht, by simpa using herror⟩
    -- the block of this token is one of those that make up nothing
    obtain ⟨block, hblock, hreported⟩ : ∃ block ∈ blocks, Block t block := by
      generalize errors ts = tokens at hblocks hmem
      induction hblocks with
      | nil => cases hmem
      | cons hhead _ ih =>
        rcases List.mem_cons.1 hmem with rfl | hmem
        · exact ⟨_, List.mem_cons_self, hhead⟩
        · obtain ⟨block, hblock, hreported⟩ :=
            ih (List.flatten_eq_nil_iff.2 fun l hl =>
              List.flatten_eq_nil_iff.1 hnil l (List.mem_cons_of_mem _ hl)) hmem
          exact ⟨block, List.mem_cons_of_mem _ hblock, hreported⟩
    exact hreported.ne_nil (List.flatten_eq_nil_iff.1 hnil block hblock)
  · intro hnone
    have hempty : errors ts = [] := List.filter_eq_nil_iff.2 fun t ht => by simp [hnone t ht]
    rw [hempty] at hblocks
    cases hblocks
    rfl

end Accounts

/-! ## What a step reports -/

namespace Scanner

variable (s : Scanner)

/-- The diagnostic of a flaw of the lexeme at this place. -/
def flawDiagnostic (flaw : Flaw) : Diagnostic := ⟨s.origin, flaw.fault, s.flawSpan flaw⟩

variable {s}

/-- The place of a flaw among the bytes of the text. -/
theorem flawSpan_offsets (flaw : Flaw) :
    (s.flawSpan flaw).start.offset = s.position.offset + flaw.distance.bytes ∧
      (s.flawSpan flaw).endOffset =
        s.position.offset + flaw.distance.bytes + flaw.piece.byteLength :=
  ⟨rfl, rfl⟩

/-- The flaws of a lexeme are the block of its token. -/
theorem block_of_flawed {kind : TokenKind} {lexeme : Text} {flaws : List Flaw}
    (h : Lexeme.Flawed lexeme kind flaws) (hlies : ∀ flaw ∈ flaws, flaw.LiesIn lexeme)
    (herror : kind.isError = true) :
    Block (.ofLexeme kind s.position lexeme) (flaws.map s.flawDiagnostic) := by
  cases h with
  | wellFormed => cases herror
  | identifier => exact .identifier rfl
  | number => exact .number rfl
  | character _ => exact .character rfl
  | @literal escapes whole hescapes hpairwise hwhole hsome =>
    rw [List.map_append, List.map_map, List.map_map]
    refine .literal rfl ?_ ?_ ?_ ?_ ?_
    · intro d hd
      obtain ⟨⟨distance, piece⟩, he, rfl⟩ := List.mem_map.1 hd
      have hquote : 0 < distance.bytes := hescapes _ he
      have hflaw : Flaw.mk distance piece (.invalidEscape piece) ∈
          (escapes.map fun e => Flaw.mk e.1 e.2 (.invalidEscape e.2)) ++
            whole.map fun fault => ⟨.zero, lexeme, fault⟩ :=
        List.mem_append_left _ (List.mem_map.2 ⟨_, he, rfl⟩)
      have hbytes := (hlies _ hflaw).bytes
      dsimp only at hbytes
      refine ⟨⟨piece, rfl⟩, ?_, ?_, ?_⟩
      · show s.position.offset < s.position.offset + distance.bytes
        omega
      · show s.position.offset + distance.bytes <
          s.position.offset + distance.bytes + piece.byteLength
        omega
      · show s.position.offset + distance.bytes + piece.byteLength ≤
          s.position.offset + lexeme.byteLength
        omega
    · refine hpairwise.map _ ?_
      intro e f hef
      show s.position.offset + e.1.bytes + e.2.byteLength ≤ s.position.offset + f.1.bytes
      omega
    · rw [List.length_map]
      rcases hwhole with rfl | ⟨kind, rfl⟩ | rfl
      · exact Nat.zero_le _
      · exact Nat.le_refl _
      · exact Nat.le_refl _
    · intro d hd
      obtain ⟨fault, hfault, rfl⟩ := List.mem_map.1 hd
      refine ⟨rfl, ?_⟩
      rcases hwhole with rfl | ⟨kind, rfl⟩ | rfl
      · cases hfault
      · exact .inl ⟨kind, List.mem_singleton.1 hfault⟩
      · exact .inr ⟨lexeme, List.mem_singleton.1 hfault⟩
    · intro hnil
      rw [List.append_eq_nil_iff, List.map_eq_nil_iff, List.map_eq_nil_iff] at hnil
      exact hsome hnil.1 hnil.2

/-- The token of a lexeme and what is reported of it. -/
theorem accounts_lexeme (c : Char) (rest : Text) :
    Accounts [.ofLexeme (Lexeme.read c rest).kind s.position (Lexeme.read c rest).text]
      ((Lexeme.read c rest).flaws.map s.flawDiagnostic) := by
  have hflawed := Lexeme.flawed_read c rest
  by_cases herror : (Lexeme.read c rest).kind.isError = true
  · exact .of_block herror
      (block_of_flawed hflawed (fun _ => Lexeme.liesIn_of_mem_flaws) herror)
  · have hnone : (Lexeme.read c rest).flaws = [] := by
      generalize (Lexeme.read c rest).kind = kind at hflawed herror
      generalize (Lexeme.read c rest).flaws = flaws at hflawed
      cases hflawed with
      | wellFormed => rfl
      | _ => exact absurd rfl herror
    rw [hnone]
    refine .of_no_error fun t ht => ?_
    rw [List.mem_singleton.1 ht]
    exact Bool.eq_false_iff.2 herror

/-- The layout tokens of a line and what is reported of it. -/
theorem accounts_transition (transition : Transition) (width : Nat) :
    Accounts (transition.kinds.map s.layoutToken)
      ((transition.faults width).map fun fault => ⟨s.origin, fault, .ofText s.position []⟩) := by
  have hdedents (n : Nat) :
      Accounts ((List.replicate n TokenKind.dedent).map s.layoutToken) [] := by
    refine .of_no_error fun t ht => ?_
    obtain ⟨kind, hkind, rfl⟩ := List.mem_map.1 ht
    rw [List.eq_of_mem_replicate hkind]
    rfl
  cases transition with
  | same => exact .of_no_error (List.forall_mem_nil _)
  | indent =>
    refine .of_no_error fun t ht => ?_
    rw [List.mem_singleton.1 ht]
    rfl
  | dedent blocks => exact hdedents blocks
  | inconsistent blocks enclosing =>
    have hblock : Accounts [s.layoutToken (.error .indentation)]
        [⟨s.origin, .inconsistentIndentation width enclosing, .ofText s.position []⟩] :=
      .of_block rfl (.indentation rfl)
    have hboth := (hdedents blocks).append hblock
    rwa [← List.map_singleton, ← List.map_append] at hboth

/-! ## Along a run -/

/-- The diagnostics so far account for the tokens handed out and those in the queue. -/
def Accounted (out : List Token) (s : Scanner) : Prop := Accounts (out ++ s.pending) s.diagnostics

namespace Accounted

variable {out : List Token}

/-- Tokens are queued and diagnostics reported after those that are there. -/
theorem queue (h : Accounted out s) {tokens : List Token} {ds : List Diagnostic}
    (hboth : Accounts tokens ds) :
    Accounts (out ++ (s.pending ++ tokens)) (s.diagnostics ++ ds) := by
  rw [← List.append_assoc]
  exact Accounts.append h hboth

theorem beginLine (h : Accounted out s) {t : Scanner} (ht : s.beginLine = .ok t) :
    Accounted out t := by
  rcases beginLine_cases ht with rfl | ⟨width, _, _, _, _, rfl⟩
  · exact h
  · rw [indentTo_eq]
    exact h.queue (accounts_transition _ width)

theorem accept (h : Accounted out s) (c : Char) (rest : Text) :
    Accounted out (s.accept (Lexeme.read c rest)) := by
  rw [accept_eq]
  exact h.queue (accounts_lexeme c rest)

theorem finish (h : Accounted out s) : Accounted out s.finish := by
  have hclosing : Accounts (s.closingKinds.map s.layoutToken) [] := by
    refine .of_no_error fun t ht => ?_
    obtain ⟨kind, hkind, rfl⟩ := List.mem_map.1 ht
    rcases List.mem_append.1 hkind with hkind | hkind
    · rw [List.eq_of_mem_replicate hkind]
      rfl
    · rw [List.mem_singleton.1 hkind]
      rfl
  have hboth := h.queue hclosing
  rw [List.append_nil] at hboth
  rw [finish_eq]
  exact hboth

/-- A token that is passed over is no error. -/
theorem isError_of_not_handsOut {t : Token} (h : s.handsOut t = false) :
    t.kind.isError = false := by
  obtain ⟨_, htrivia⟩ : s.config.skipTrivia = true ∧ t.isTrivia = true := by
    simpa [handsOut] using h
  unfold Token.isTrivia at htrivia
  cases hkind : t.kind with
  | error e => rw [hkind] at htrivia; cases htrivia
  | _ => rfl

/-- Every move of the scanner keeps the account. -/
theorem kept : Kept Accounted where
  step {out s s'} h _ _ hs := by
    obtain ⟨t, ht, ⟨_, rfl⟩ | ⟨c, rest, _, rfl⟩⟩ := step_cases hs
    · exact (h.beginLine ht).finish
    · exact (h.beginLine ht).accept c rest
  hand {out s t pending} h hp _ := by
    unfold Accounted at h ⊢
    rw [hp] at h
    rwa [List.append_assoc, List.singleton_append]
  pass {out s t pending} h hp ht := by
    obtain ⟨blocks, hblocks, hds⟩ := h
    refine ⟨blocks, ?_, hds⟩
    rw [hp] at hblocks
    simpa [errors, List.filter_cons, isError_of_not_handsOut ht] using hblocks

end Accounted

/-- What a fault names is the slice of the text between the offsets of its span. -/
theorem Located.slice {text : Text} (h : Located text s) {c : Char} {rest : Text}
    (hrest : s.rest = c :: rest) {flaw : Flaw} (hflaw : flaw ∈ (Lexeme.read c rest).flaws)
    {piece : Text} (hpiece : piece ∈ flaw.fault.piece?) :
    text.slice? (s.flawSpan flaw).start.offset (s.flawSpan flaw).endOffset = some piece := by
  obtain ⟨before, htext, _, hposition⟩ := h
  have hlies := Lexeme.liesIn_of_mem_flaws hflaw
  obtain ⟨inside, after, happ, _, hdistance⟩ := hlies.split
  have hread := (Lexeme.fronts_read c rest).1
  rw [happ] at hread
  rw [hlies.names piece hpiece]
  refine Text.slice?_eq_some_iff.2
    ⟨before ++ inside, after ++ (Lexeme.read c rest).rest, ?_, ?_, ?_⟩
  · rw [htext, hrest, ← hread]
    simp
  · rw [(flawSpan_offsets flaw).1, hposition, hdistance, Text.byteLength_append]
    simp [Position.after, Distance.past, Distance.zero]
  · rw [(flawSpan_offsets flaw).1, (flawSpan_offsets flaw).2]

/-- Whatever a scanner has reported names slices of the text. -/
theorem slices_of_run {source : Text} {events : List Event} {answers : List (Option Token)}
    {last : Scanner} (hrun : (ofText source).run events = .ok (answers, last)) :
    ∀ d ∈ last.diagnostics, ∀ piece ∈ d.fault.piece?,
      source.withoutMark.slice? d.span.start.offset d.span.endOffset = some piece := by
  refine (sound_of_run (P := fun _ => True) (fun _ _ _ => trivial) (fun _ _ _ _ _ => trivial)
    ?_ ?_ rfl hrun).diagnostics
  · intro s _ width fault hfault piece hpiece
    -- an inconsistent line names widths only
    cases htransition : (s.indents.transition width).1 with
    | inconsistent blocks enclosing =>
      rw [htransition] at hfault
      rw [List.mem_singleton.1 hfault] at hpiece
      cases hpiece
    | _ =>
      rw [htransition] at hfault
      cases hfault
  · intro s h c rest hrest flaw hflaw piece hpiece
    exact h.slice hrest hflaw hpiece

/-- The account of a run. -/
theorem accounted_of_run {source : Text} {events : List Event} {answers : List (Option Token)}
    {last : Scanner} (hrun : (ofText source).run events = .ok (answers, last)) :
    Accounts (handed answers ++ last.pending) last.diagnostics := by
  have hstart : Accounted [] (ofText source) := .of_no_error (List.forall_mem_nil _)
  have hk := Accounted.kept.run (fun _ _ _ _ h => h) (fun _ _ _ h => h) hstart hrun
  rwa [List.nil_append] at hk

end Scanner

/-! ## Whole scans -/

namespace Listing

variable {config : Config} {origin : Option Text} {source : Text} {l : Listing}

/-- The diagnostics of a listing account for its tokens. -/
theorem accounts (h : ofText config origin source = .ok l) :
    Accounts l.tokens l.diagnostics := by
  obtain ⟨last, hrun, hdiagnostics, hlast⟩ := run_of_listing h
  have haccounts := Scanner.accounted_of_run hrun
  rwa [Scanner.handed_map_some_append_replicate, hlast.2, List.append_nil, hdiagnostics]
    at haccounts

/-- There is something to report if and only if a token is an error. -/
theorem hasErrors_iff (h : ofText config origin source = .ok l) :
    l.hasErrors = true ↔ ∃ t ∈ l.tokens, t.kind.isError = true := by
  have hnil := (accounts h).eq_nil_iff
  unfold hasErrors
  rw [Bool.not_eq_true', List.isEmpty_eq_false_iff, Ne, hnil]
  simp

/-- The strict result is the tokens if no token is an error, and otherwise there is none. -/
theorem result_eq_ok_iff (h : ofText config origin source = .ok l) {tokens : List Token} :
    l.result = .ok tokens ↔ tokens = l.tokens ∧ ∀ t ∈ l.tokens, t.kind.isError = false := by
  rw [← (accounts h).eq_nil_iff]
  unfold result
  cases l.diagnostics with
  | nil => simp [eq_comm]
  | cons d ds => simp

end Listing

namespace Scanner

/-- **Diagnostics and error tokens correspond.**  After any events on a fresh scanner, the
diagnostics are the blocks of the error tokens among those handed out and those in the queue, in
their order and with nothing else; and what a diagnostic names is the slice of the text between
the offsets of its span.  So a whole scan has errors if and only if one of its tokens is an error,
and it has a strict result, which is its tokens, if and only if none is. -/
theorem reports_of_run (source : Text) :
    (∀ events answers last, (ofText source).run events = .ok (answers, last) →
      (∃ blocks, List.Forall₂ Block
          ((handed answers ++ last.pending).filter fun t => t.kind.isError) blocks ∧
        last.diagnostics = blocks.flatten) ∧
      ∀ d ∈ last.diagnostics, ∀ piece, d.fault.piece? = some piece →
        source.withoutMark.slice? d.span.start.offset d.span.endOffset = some piece) ∧
    ∀ config origin l, Listing.ofText config origin source = .ok l →
      (l.hasErrors = true ↔ ∃ t ∈ l.tokens, t.kind.isError = true) ∧
      ∀ tokens, l.result = .ok tokens ↔
        tokens = l.tokens ∧ ∀ t ∈ l.tokens, t.kind.isError = false := by
  constructor
  · intro events answers last hrun
    exact ⟨accounted_of_run hrun, fun d hd piece hpiece => slices_of_run hrun d hd piece hpiece⟩
  · intro config origin l hl
    exact ⟨Listing.hasErrors_iff hl, fun tokens => Listing.result_eq_ok_iff hl⟩

/-- A text with an invalid escape in an open literal, an inconsistent line and a number that runs
into a word, scanned without trivia after the label has been replaced: three error tokens with
four diagnostics between them. -/
theorem reports_of_run_open_literal :
    let text : Text := [' ', ' ', '"', '\\', 'q', 'a', '\n', ' ', 'b', '\n', '1', 'x']
    let events := [.next, .withOrigin ['f'], .withConfig { skipTrivia := true }] ++
      List.replicate 8 Event.next
    ∃ answers last blocks, (ofText text).run events = .ok (answers, last) ∧
      blocks.length = 3 ∧ last.diagnostics.length = 4 ∧
      List.Forall₂ Block ((handed answers ++ last.pending).filter fun t => t.kind.isError) blocks ∧
      last.diagnostics = blocks.flatten := by
  intro text events
  have hok : (((ofText text).run events).toOption.any fun r =>
      (errors (handed r.1 ++ r.2.pending)).length == 3 && r.2.diagnostics.length == 4) = true := by
    decide +kernel
  cases hrun : (ofText text).run events with
  | error e => rw [hrun] at hok; cases hok
  | ok r =>
    obtain ⟨answers, last⟩ := r
    rw [hrun] at hok
    obtain ⟨⟨blocks, hblocks, hflatten⟩, _⟩ := (reports_of_run text).1 events answers last hrun
    simp only [Except.toOption, Option.any_some, Bool.and_eq_true, beq_iff_eq] at hok
    exact ⟨answers, last, blocks, rfl, hblocks.length_eq.symm.trans hok.1, hok.2, hblocks, hflatten⟩

end Scanner
end LayoutLexer

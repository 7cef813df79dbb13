import LayoutLexer.Proofs.Lexeme.Flaw
import LayoutLexer.Proofs.LineWidth

/-! # What a text reads as

Where blocks are not tracked, a scan is a function of the text: at each place comes the token of
the lexeme there with what is reported of it, and at last the end of the text (`Text.readings`).
Draining a scanner hands out these tokens and reports these diagnostics
(`Scanner.drain_eq_readings`).  The tokens lie in the order of the text, and what is reported of
one begins within it.  Where blocks are tracked the tokens with a lexeme are still these
(`Scanner.lexical_drain`).
-/
namespace LayoutLexer

/-- A token and what is reported of it. -/
structure Reading where
  token : Token
  reports : List Diagnostic

/-- What a lexeme reads as at a place. -/
def Lexeme.reading (origin : Option Text) (p : Position) (l : Lexeme) : Reading where
  token := .ofLexeme l.kind p l.text
  reports := l.flaws.map fun flaw =>
    ⟨origin, flaw.fault, .ofText (p.along flaw.distance) flaw.piece⟩

namespace Text

/-- What a text reads as from a place on. -/
def readings (origin : Option Text) (p : Position) : Text → List Reading
  | [] => [⟨.synthetic .endOfFile p, []⟩]
  | c :: rest =>
    (Lexeme.read c rest).reading origin p ::
      readings origin (p.advance (Lexeme.read c rest).text) (Lexeme.read c rest).rest
termination_by t => t.length
decreasing_by exact Lexeme.rest_length_lt c rest

variable {origin : Option Text} {p : Position} {t : Text}

theorem readings_nil : readings origin p [] = [⟨.synthetic .endOfFile p, []⟩] := by
  rw [readings]

theorem readings_cons (c : Char) (rest : Text) :
    readings origin p (c :: rest) =
      (Lexeme.read c rest).reading origin p ::
        readings origin (p.advance (Lexeme.read c rest).text) (Lexeme.read c rest).rest := by
  rw [readings]

/-- No token begins before the place. -/
theorem le_start_of_mem_readings {r : Reading} (h : r ∈ readings origin p t) :
    p.offset ≤ r.token.span.start.offset := by
  fun_induction readings origin p t with
  | case1 p =>
    rw [List.mem_singleton.1 h]
    exact Nat.le_refl _
  | case2 p c rest ih =>
    rcases List.mem_cons.1 h with rfl | h
    · exact Nat.le_refl _
    · have hle := ih h
      rw [Position.advance_offset] at hle
      omega

/-- A token ends where a later one begins, or before. -/
theorem pairwise_readings (origin : Option Text) (p : Position) (t : Text) :
    (readings origin p t).Pairwise fun r u =>
      r.token.span.endOffset ≤ u.token.span.start.offset := by
  fun_induction readings origin p t with
  | case1 p => exact List.pairwise_singleton _ _
  | case2 p c rest ih =>
    refine .cons ?_ ih
    intro u hu
    have hle := le_start_of_mem_readings hu
    rwa [Position.advance_offset] at hle

/-- What is reported of a token begins within it. -/
theorem begins_of_mem_reports {r : Reading} (h : r ∈ readings origin p t) {d : Diagnostic}
    (hd : d ∈ r.reports) :
    r.token.span.start.offset ≤ d.span.start.offset ∧
      d.span.start.offset < r.token.span.endOffset := by
  fun_induction readings origin p t with
  | case1 p =>
    rw [List.mem_singleton.1 h] at hd
    cases hd
  | case2 p c rest ih =>
    rcases List.mem_cons.1 h with rfl | h
    · obtain ⟨flaw, hflaw, rfl⟩ := List.mem_map.1 hd
      have hbytes := (Lexeme.liesIn_of_mem_flaws hflaw).bytes
      show p.offset ≤ p.offset + flaw.distance.bytes ∧
        p.offset + flaw.distance.bytes < p.offset + (Lexeme.read c rest).text.byteLength
      omega
    · exact ih h

end Text

namespace Scanner

/-- **A scan without blocks is what the text reads as.** -/
theorem drain_eq_readings (s : Scanner) (hf : s.finished = false)
    (htrack : s.config.trackIndentation = false) (hshow : s.config.skipTrivia = false) :
    ∃ last, s.drain =
        .ok (s.pending ++ (s.rest.readings s.origin s.position).map Reading.token, last) ∧
      last.diagnostics =
        s.diagnostics ++ (s.rest.readings s.origin s.position).flatMap Reading.reports := by
  induction s using drain_induction with
  | h s ih =>
    rw [drain_of_unfinished hf, filter_handsOut_of_shows hshow]
    obtain hrest | ⟨c, rest, hrest⟩ : s.rest = [] ∨ ∃ c rest, s.rest = c :: rest := by
      cases s.rest <;> simp
    · rw [@step_untracked_nil { s with pending := [] } htrack hrest]
      dsimp only
      rw [drain_finish_of_shows (by exact hshow), finish_eq, hrest, Text.readings_nil]
      refine ⟨_, congrArg Except.ok (Prod.ext ?_ rfl), (List.append_nil _).symm⟩
      simp [closingKinds, closingBlocks, htrack, layoutToken]
    · have hs := @step_untracked_cons { s with pending := [] } htrack c rest hrest
      have htail := ih hf _ hs
      rw [accept_eq] at htail hs
      obtain ⟨last, hdrain, hlast⟩ := htail hf htrack hshow
      rw [hs]
      dsimp only at hdrain hlast ⊢
      rw [hdrain, hrest, Text.readings_cons]
      refine ⟨last, rfl, ?_⟩
      rw [hlast, List.flatMap_cons, List.append_assoc]
      rfl

/-! ## The tokens with a lexeme -/

/-- The tokens with a lexeme; the others are synthetic. -/
def lexical (tokens : List Token) : List Token := tokens.filter fun t => !t.kind.isSynthetic

theorem lexical_append (ts us : List Token) : lexical (ts ++ us) = lexical ts ++ lexical us :=
  List.filter_append ..

theorem lexical_reading_cons (origin : Option Text) (p : Position) (c : Char) (rest : Text)
    (more : List Reading) :
    lexical (((Lexeme.read c rest).reading origin p :: more).map Reading.token) =
      ((Lexeme.read c rest).reading origin p).token :: lexical (more.map Reading.token) :=
  List.filter_cons_of_pos (by
    simp [Lexeme.reading, Token.ofLexeme, Lexeme.isSynthetic_kind_read])

variable {s t : Scanner}

theorem lexical_map_layoutToken {kinds : List TokenKind}
    (h : ∀ kind ∈ kinds, kind.isSynthetic = true) : lexical (kinds.map s.layoutToken) = [] := by
  refine List.filter_eq_nil_iff.2 fun u hu => ?_
  obtain ⟨kind, hkind, rfl⟩ := List.mem_map.1 hu
  simp [layoutToken, Token.synthetic, Token.ofLexeme, h kind hkind]

/-- The beginning of a line queues no token with a lexeme. -/
theorem lexical_beginLine (ht : s.beginLine = .ok t) : lexical t.pending = lexical s.pending := by
  rcases beginLine_cases ht with rfl | ⟨width, _, _, _, _, rfl⟩
  · rfl
  · have hsynthetic : ∀ kind ∈ (s.indents.transition width).1.kinds, kind.isSynthetic = true := by
      intro kind hkind
      rcases Transition.isLayout_of_mem_kinds hkind with rfl | rfl | rfl <;> rfl
    rw [indentTo_eq]
    refine (lexical_append ..).trans ?_
    rw [show lexical (_ : List Token) = [] from lexical_map_layoutToken hsynthetic,
      List.append_nil]

/-- Neither does the end of the text. -/
theorem lexical_closing : lexical (s.closingKinds.map s.layoutToken) = [] := by
  refine lexical_map_layoutToken fun kind hkind => ?_
  rcases List.mem_append.1 hkind with hkind | hkind
  · rw [List.eq_of_mem_replicate hkind]
    rfl
  · rw [List.mem_singleton.1 hkind]
    rfl

/-- Whether blocks are tracked or not, the tokens with a lexeme are what the text reads as. -/
theorem lexical_drain (s : Scanner) (hf : s.finished = false) (hshow : s.config.skipTrivia = false)
    {tokens : List Token} {last : Scanner} (hdrain : s.drain = .ok (tokens, last)) :
    lexical tokens = lexical s.pending ++
      lexical ((s.rest.readings s.origin s.position).map Reading.token) := by
  induction s using drain_induction generalizing tokens with
  | h s ih =>
    obtain ⟨s', others, hs, hd, rfl⟩ := step_of_drain hf hdrain
    rw [filter_handsOut_of_shows hshow, lexical_append]
    refine congrArg (lexical s.pending ++ ·) ?_
    obtain ⟨t, ht, hend⟩ := step_cases hs
    obtain ⟨_, hconfig, horigin, hrest, hposition, _, hfin⟩ := beginLine_frame ht
    have hnone : lexical t.pending = [] := lexical_beginLine ht
    dsimp only at hconfig horigin hrest hposition hfin
    rw [← hrest, ← horigin, ← hposition]
    rcases hend with ⟨hnil, rfl⟩ | ⟨c, rest, hcons, rfl⟩
    · rw [drain_finish_of_shows (by rw [hconfig]; exact hshow)] at hd
      cases hd
      rw [lexical_append, hnone, lexical_closing, hnil, Text.readings_nil]
      rfl
    · have htail := ih hf _ hs (by rw [accept_eq]; exact hfin.trans hf)
        (by rw [accept_eq]; exact hconfig ▸ hshow) hd
      rw [htail, accept_eq, hcons, Text.readings_cons, List.map_cons]
      dsimp only
      rw [lexical_append, hnone, List.nil_append]
      exact (lexical_append [_] _).symm

end Scanner

/-- The listing without blocks is what the text reads as. -/
theorem Listing.ofText_eq_readings {config : Config} (htrack : config.trackIndentation = false)
    (hshow : config.skipTrivia = false) (origin : Option Text) (source : Text) :
    ofText config origin source =
      .ok ⟨origin, (source.withoutMark.readings origin .start).map Reading.token,
        (source.withoutMark.readings origin .start).flatMap Reading.reports⟩ := by
  obtain ⟨last, hdrain, hlast⟩ :=
    (scanner config origin source).drain_eq_readings rfl htrack hshow
  rw [ofText, hdrain]
  dsimp only
  rw [hlast]
  rfl

end LayoutLexer

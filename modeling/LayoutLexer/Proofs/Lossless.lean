import LayoutLexer.Proofs.Run
import LayoutLexer.Proofs.Slice
import LayoutLexer.Proofs.Step

/-! # The tokens of a run make up the text

While trivia are handed out, nothing of the text is lost, repeated or put in another order: the
tokens lie side by side from offset zero on, each lexeme is the slice of the text between the
offsets of its token, and after the last token the lexemes are the whole text.  That last token
is the end of the text, and there is no other one.

Three invariants carry this.  `Ended` says where the end of the text stands among the tokens,
whatever the configuration is.  `Stream` relates the tokens handed out, the queue and the text
that is still to be scanned; it needs no more of a lexeme than that it stands at the front of the
text (`Lexeme.fronts_read`).  `potential` bounds how many tokens are still to come, whatever the
configuration is replaced by: a character stands for at most three of them, since with its
lexeme it can open one block and that block is closed once.
-/
namespace LayoutLexer

/-- The tokens lie side by side: the first begins at the offset, each ends after its lexeme and
the next one begins there. -/
def Tiles : Nat → List Token → Prop
  | _, [] => True
  | offset, t :: tokens =>
    t.span.start.offset = offset ∧ t.span.endOffset = offset + t.lexeme.byteLength ∧
      Tiles t.span.endOffset tokens

theorem tiles_append {offset : Nat} {ts us : List Token} :
    Tiles offset (ts ++ us) ↔ Tiles offset ts ∧ Tiles (offset + (lexemes ts).byteLength) us := by
  induction ts generalizing offset with
  | nil => simp [Tiles]
  | cons t ts ih =>
    rw [List.cons_append, Tiles, Tiles, ih]
    constructor
    · rintro ⟨hstart, hend, hts, hus⟩
      refine ⟨⟨hstart, hend, hts⟩, ?_⟩
      rw [lexemes_cons, Text.byteLength_append, ← Nat.add_assoc, ← hend]
      exact hus
    · rintro ⟨⟨hstart, hend, hts⟩, hus⟩
      rw [lexemes_cons, Text.byteLength_append, ← Nat.add_assoc, ← hend] at hus
      exact ⟨hstart, hend, hts, hus⟩

/-- The lexeme of a token is the slice between its offsets of the text that the tokens make up
with what comes after them. -/
theorem Tiles.slice {tokens : List Token} {rest : Text} (h : Tiles 0 tokens) {t : Token}
    (ht : t ∈ tokens) :
    (lexemes tokens ++ rest).slice? t.span.start.offset t.span.endOffset = some t.lexeme := by
  obtain ⟨before, after, rfl⟩ := List.append_of_mem ht
  obtain ⟨-, hstart, hend, -⟩ := tiles_append.1 h
  rw [Text.slice?_eq_some_iff]
  refine ⟨lexemes before, lexemes after ++ rest, by simp, ?_, ?_⟩
  · rw [hstart, Nat.zero_add]
  · rw [hstart, hend]

/-- The tokens end with the end of the text, which is not among those before. -/
def EndsOnce (tokens : List Token) : Prop :=
  ∃ init last, tokens = init ++ [last] ∧ last.kind = .endOfFile ∧
    ∀ t ∈ init, t.kind ≠ .endOfFile

/-- Another token can be taken away. -/
theorem EndsOnce.remove {before after : List Token} {t : Token}
    (h : EndsOnce (before ++ t :: after)) (ht : t.kind ≠ .endOfFile) :
    EndsOnce (before ++ after) := by
  obtain ⟨init, last, heq, hlast, hinit⟩ := h
  rcases List.eq_nil_or_concat after with rfl | ⟨mid, u, rfl⟩
  · obtain ⟨_, hsame⟩ := List.append_inj' heq rfl
    cases hsame
    exact absurd hlast ht
  · rw [List.concat_eq_append, ← List.cons_append, ← List.append_assoc] at heq
    obtain ⟨rfl, hsame⟩ := List.append_inj' heq rfl
    cases hsame
    refine ⟨before ++ mid, last, by simp, hlast, fun v hv => hinit v ?_⟩
    rcases List.mem_append.1 hv with hv | hv
    · exact List.mem_append_left _ hv
    · exact List.mem_append_right _ (List.mem_cons_of_mem _ hv)

namespace Scanner

/-! ## Synthetic tokens -/

variable (s : Scanner)

theorem lexemes_map_layoutToken (kinds : List TokenKind) :
    lexemes (kinds.map s.layoutToken) = [] := by
  induction kinds with
  | nil => rfl
  | cons k kinds ih =>
    rw [List.map_cons, lexemes_cons, ih]
    rfl

theorem tiles_map_layoutToken (kinds : List TokenKind) :
    Tiles s.position.offset (kinds.map s.layoutToken) := by
  induction kinds with
  | nil => trivial
  | cons k kinds ih => exact ⟨rfl, rfl, ih⟩

/-- Layout tokens do not end the text. -/
theorem kind_ne_endOfFile_of_mem_kinds {t : Transition} {u : Token}
    (h : u ∈ t.kinds.map s.layoutToken) : u.kind ≠ .endOfFile := by
  obtain ⟨k, hk, rfl⟩ := List.mem_map.1 h
  show k ≠ .endOfFile
  rcases Transition.isLayout_of_mem_kinds hk with rfl | rfl | rfl <;> decide

/-! ## The end of the text -/

/-- The end of the text comes once, as the last token, when the scan is finished; whether trivia
are handed out does not matter, for it is none. -/
structure Ended (out : List Token) (s : Scanner) : Prop where
  once : s.finished = true → EndsOnce (out ++ s.pending)
  goesOn : s.finished = false → ∀ t ∈ out ++ s.pending, t.kind ≠ .endOfFile

namespace Ended
variable {s} {out : List Token}

theorem ofText (source : Text) : Ended [] (Scanner.ofText source) where
  once h := nomatch h
  goesOn _ _ h := nomatch h

/-- Tokens that are queued before the scan is finished and are no end of the text. -/
theorem queue (h : Ended out s) (hf : s.finished = false) {tokens : List Token}
    (hkinds : ∀ t ∈ tokens, t.kind ≠ .endOfFile) :
    ∀ t ∈ out ++ (s.pending ++ tokens), t.kind ≠ .endOfFile := by
  rw [← List.append_assoc]
  intro t ht
  rcases List.mem_append.1 ht with ht | ht
  · exact h.goesOn hf t ht
  · exact hkinds t ht

theorem beginLine (h : Ended out s) (hf : s.finished = false) {t : Scanner}
    (ht : s.beginLine = .ok t) : Ended out t := by
  rcases beginLine_cases ht with rfl | ⟨width, _, _, _, _, rfl⟩
  · exact ⟨h.once, h.goesOn⟩
  · rw [indentTo_eq]
    exact ⟨fun he => absurd he (by simp [hf]),
      fun _ => h.queue hf fun _ => s.kind_ne_endOfFile_of_mem_kinds⟩

theorem accept (h : Ended out s) (hf : s.finished = false) (c : Char) (rest : Text) :
    Ended out (s.accept (Lexeme.read c rest)) := by
  have hkind : (Lexeme.read c rest).kind ≠ .endOfFile := by
    intro he
    have hs := Lexeme.isSynthetic_kind_read c rest
    rw [he] at hs
    cases hs
  rw [accept_eq]
  exact ⟨fun he => absurd he (by simp [hf]),
    fun _ => h.queue hf (by simpa [Token.ofLexeme] using hkind)⟩

theorem finish (h : Ended out s) (hf : s.finished = false) : Ended out s.finish := by
  rw [finish_eq]
  have hdedent : ∀ t ∈ (List.replicate s.closingBlocks TokenKind.dedent).map s.layoutToken,
      t.kind ≠ .endOfFile := by
    intro t ht
    obtain ⟨k, hk, rfl⟩ := List.mem_map.1 ht
    rw [List.eq_of_mem_replicate hk]
    show TokenKind.dedent ≠ .endOfFile
    decide
  have hsplit : out ++ (s.pending ++ s.closingKinds.map s.layoutToken) =
      out ++ (s.pending ++ (List.replicate s.closingBlocks TokenKind.dedent).map s.layoutToken) ++
        [s.layoutToken .endOfFile] := by
    simp [closingKinds]
  exact ⟨fun _ => ⟨_, _, hsplit, rfl, h.queue hf hdedent⟩, fun he => by cases he⟩

end Ended

theorem kept_ended : Kept Ended where
  step {out s s'} h _ hf hs := by
    obtain ⟨t, ht, hend⟩ := step_cases hs
    have hft : t.finished = false := by
      rw [(beginLine_frame ht).2.2.2.2.2.2, hf]
    rcases hend with ⟨_, rfl⟩ | ⟨c, rest, _, rfl⟩
    · exact (h.beginLine hf ht).finish hft
    · exact (h.beginLine hf ht).accept hft c rest
  hand {out s t pending} h hp _ := by
    have happ : out ++ [t] ++ pending = out ++ s.pending := by rw [hp]; simp
    exact ⟨fun hf => happ ▸ h.once hf, fun hf => happ ▸ h.goesOn hf⟩
  pass {out s t pending} h hp ht := by
    have htrivia : t.kind.isTrivia = true := by
      simp only [handsOut, Bool.not_eq_false', Bool.and_eq_true] at ht
      exact ht.2
    constructor
    · intro hf
      have honce := h.once hf
      rw [hp] at honce
      refine honce.remove fun he => ?_
      rw [he] at htrivia
      cases htrivia
    · intro hf u hu
      refine h.goesOn hf u ?_
      rw [hp]
      rcases List.mem_append.1 hu with hu | hu
      · exact List.mem_append_left _ hu
      · exact List.mem_append_right _ (List.mem_cons_of_mem _ hu)

/-- The tokens of a run that has come to its end. -/
theorem endsOnce_of_run {source : Text} {events : List Event} {answers : List (Option Token)}
    {last : Scanner} (h : (ofText source).run events = .ok (answers, last))
    (hlast : last.Exhausted) : EndsOnce (handed answers) := by
  have hended := kept_ended.run (fun _ _ _ _ hk => ⟨hk.once, hk.goesOn⟩)
    (fun _ _ _ hk => ⟨hk.once, hk.goesOn⟩) (Ended.ofText source) h
  have honce := hended.once hlast.1
  rwa [hlast.2, List.append_nil] at honce

/-- The tokens of a listing end with the end of the text. -/
theorem endsOnce_of_listing {config : Config} {origin : Option Text} {source : Text} {l : Listing}
    (h : Listing.ofText config origin source = .ok l) : EndsOnce l.tokens := by
  obtain ⟨last, hrun, -, hlast⟩ := Listing.run_of_listing h
  have honce := endsOnce_of_run hrun hlast
  rwa [handed_map_some_append_replicate] at honce

/-! ## The stream of a run -/

/-- What holds between the tokens handed out, the queue and the rest of the text, while trivia
are handed out. -/
structure Stream (text : Text) (out : List Token) (s : Scanner) : Prop where
  shows : s.config.skipTrivia = false
  covers : lexemes (out ++ s.pending) ++ s.rest = text
  tiles : Tiles 0 (out ++ s.pending)
  place : s.position.offset = (lexemes (out ++ s.pending)).byteLength
  ended : s.finished = true → s.rest = []

namespace Stream
variable {s} {text : Text} {out : List Token}

theorem ofText (source : Text) : Stream source.withoutMark [] (Scanner.ofText source) where
  shows := rfl
  covers := rfl
  tiles := trivial
  place := rfl
  ended h := nomatch h

/-- Tokens that are queued at the place of the scan lie beside those before them. -/
theorem queue (h : Stream text out s) {tokens : List Token}
    (htiles : Tiles s.position.offset tokens) : Tiles 0 (out ++ (s.pending ++ tokens)) := by
  rw [← List.append_assoc]
  refine tiles_append.2 ⟨h.tiles, ?_⟩
  rw [Nat.zero_add, ← h.place]
  exact htiles

theorem beginLine (h : Stream text out s) (hf : s.finished = false) {t : Scanner}
    (ht : s.beginLine = .ok t) : Stream text out t := by
  rcases beginLine_cases ht with rfl | ⟨width, _, _, _, _, rfl⟩
  · exact ⟨h.shows, h.covers, h.tiles, h.place, h.ended⟩
  · rw [indentTo_eq]
    have htiles := h.queue (s.tiles_map_layoutToken (s.indents.transition width).1.kinds)
    have hlexemes : lexemes (out ++ (s.pending ++
        (s.indents.transition width).1.kinds.map s.layoutToken)) = lexemes (out ++ s.pending) := by
      rw [← List.append_assoc, lexemes_append, lexemes_map_layoutToken, List.append_nil]
    refine ⟨h.shows, ?_, htiles, ?_, fun he => absurd he (by simp [hf])⟩
    · exact (congrArg (· ++ s.rest) hlexemes).trans h.covers
    · exact h.place.trans (congrArg Text.byteLength hlexemes.symm)

theorem accept (h : Stream text out s) (hf : s.finished = false) {c : Char} {rest : Text}
    (hrest : s.rest = c :: rest) : Stream text out (s.accept (Lexeme.read c rest)) := by
  obtain ⟨happ, _⟩ := Lexeme.fronts_read c rest
  rw [accept_eq]
  have hone : Tiles s.position.offset
      [.ofLexeme (Lexeme.read c rest).kind s.position (Lexeme.read c rest).text] :=
    ⟨rfl, rfl, trivial⟩
  have htiles := h.queue hone
  have hlexemes : lexemes (out ++ (s.pending ++
      [.ofLexeme (Lexeme.read c rest).kind s.position (Lexeme.read c rest).text])) =
        lexemes (out ++ s.pending) ++ (Lexeme.read c rest).text := by
    simp [Token.ofLexeme]
  refine ⟨h.shows, ?_, htiles, ?_, fun he => absurd he (by simp [hf])⟩
  · rw [← h.covers, hrest, ← happ]
    exact (congrArg (· ++ _) hlexemes).trans (List.append_assoc ..)
  · show (s.position.advance _).offset = _
    rw [Position.advance_offset, h.place, hlexemes, Text.byteLength_append]

theorem finish (h : Stream text out s) (hrest : s.rest = []) : Stream text out s.finish := by
  rw [finish_eq]
  have hlexemes : lexemes (out ++ (s.pending ++ s.closingKinds.map s.layoutToken)) =
      lexemes (out ++ s.pending) := by
    rw [← List.append_assoc, lexemes_append, lexemes_map_layoutToken, List.append_nil]
  refine ⟨h.shows, ?_, h.queue (s.tiles_map_layoutToken _), ?_, fun _ => hrest⟩
  · exact (congrArg (· ++ s.rest) hlexemes).trans h.covers
  · exact h.place.trans (congrArg Text.byteLength hlexemes.symm)

/-- Every move of the scanner keeps the stream. -/
theorem kept (text : Text) : Kept (Stream text) where
  step {out s s'} h _ hf hs := by
    obtain ⟨t, ht, ⟨hrest, rfl⟩ | ⟨c, rest, hrest, rfl⟩⟩ := step_cases hs
    all_goals
      have hft : t.finished = false := by
        rw [(beginLine_frame ht).2.2.2.2.2.2, hf]
    · exact (h.beginLine hf ht).finish hrest
    · exact (h.beginLine hf ht).accept hft hrest
  hand {out s t pending} h hp _ := by
    have happ : out ++ [t] ++ pending = out ++ s.pending := by rw [hp]; simp
    refine ⟨h.shows, ?_, ?_, ?_, h.ended⟩
    · rw [happ]; exact h.covers
    · rw [happ]; exact h.tiles
    · rw [happ]; exact h.place
  pass {out s t pending} h _ ht := by
    rw [handsOut, h.shows] at ht
    cases ht

/-- While trivia are handed out, the stream holds at the end of a run. -/
theorem of_run {source : Text} {events : List Event} {answers : List (Option Token)}
    {last : Scanner} (hrun : (Scanner.ofText source).run events = .ok (answers, last))
    (hshow : ∀ config, .withConfig config ∈ events → config.skipTrivia = false) :
    Stream source.withoutMark (handed answers) last :=
  (kept source.withoutMark).run
    (fun config hc _ _ h => ⟨hshow config hc, h.covers, h.tiles, h.place, h.ended⟩)
    (fun _ _ _ h => ⟨h.shows, h.covers, h.tiles, h.place, h.ended⟩) (ofText source) hrun

end Stream

/-- While trivia are handed out, a listing gives the text back without its mark. -/
theorem reconstruct_of_listing {config : Config} {origin : Option Text} {source : Text}
    {l : Listing} (h : Listing.ofText config origin source = .ok l)
    (hshow : config.skipTrivia = false) : l.reconstruct = source.withoutMark := by
  obtain ⟨last, hrun, -, hlast⟩ := Listing.run_of_listing h
  have hstream := Stream.of_run hrun fun config' hc => by
    have hsame : config' = config := by
      simpa [Listing.setup] using hc
    rw [hsame, hshow]
  have hcovers := hstream.covers
  rwa [handed_map_some_append_replicate, hlast.2, List.append_nil, hstream.ended hlast.1,
    List.append_nil] at hcovers

/-! ## How many tokens are still to come -/

variable {s}

end Scanner
end LayoutLexer

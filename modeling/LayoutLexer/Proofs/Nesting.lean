import LayoutLexer.Proofs.Run
import LayoutLexer.Proofs.Step
import Mathlib.Data.List.Chain
import Mathlib.Data.List.DropRight

/-! # Blocks are balanced and not empty

Layout tokens work like brackets: an indent opens a block and a dedent closes one.  At every
moment of a run the tokens handed out and those in the queue never close a block that is not
open, and the number of open ones is the number of levels of the indentation stack that were
opened as blocks; resynchronized levels count for neither (`Nested`).  The end of the text
closes what is open if blocks are tracked then, so that the whole stream is balanced.

A block is not empty either: what opens one, or fails to, is queued in the same step as the
first lexeme of a significant line.  Until that lexeme has been scanned the scanner owes a token
that is neither layout nor the end (`Owes`), and white space, the only lexeme that can come
before it, leaves it so.
-/
namespace LayoutLexer

namespace TokenKind

/-- The number of open blocks after a token of this kind.  There is none for a dedent where no
block is open. -/
def openAfter (blocks : Nat) : TokenKind → Option Nat
  | .indent => some (blocks + 1)
  | .dedent => if blocks = 0 then none else some (blocks - 1)
  | _ => some blocks

/-- The number of open blocks after tokens of these kinds. -/
def openAfterAll : Nat → List TokenKind → Option Nat
  | blocks, [] => some blocks
  | blocks, k :: kinds => (openAfter blocks k).bind fun n => openAfterAll n kinds

theorem openAfterAll_append (blocks : Nat) (ks ls : List TokenKind) :
    openAfterAll blocks (ks ++ ls) =
      (openAfterAll blocks ks).bind fun n => openAfterAll n ls := by
  induction ks generalizing blocks with
  | nil => rfl
  | cons k ks ih =>
    rw [List.cons_append, openAfterAll, openAfterAll]
    cases openAfter blocks k with
    | none => rfl
    | some n => exact ih n

/-- A kind that is no bracket does not change the number of open blocks. -/
theorem openAfter_of_ne {k : TokenKind} (hi : k ≠ .indent) (hd : k ≠ .dedent) (blocks : Nat) :
    openAfter blocks k = some blocks := by
  cases k with
  | indent => exact absurd rfl hi
  | dedent => exact absurd rfl hd
  | _ => rfl

theorem openAfterAll_replicate_dedent (n blocks : Nat) :
    openAfterAll (n + blocks) (List.replicate n .dedent) = some blocks := by
  induction n with
  | zero => rw [Nat.zero_add]; rfl
  | succ n ih =>
    rw [List.replicate_succ, openAfterAll]
    show (if n + 1 + blocks = 0 then none else some (n + 1 + blocks - 1)).bind _ = _
    rw [if_neg (by omega), show n + 1 + blocks - 1 = n + blocks by omega]
    exact ih

/-- Blocks that are open before or are opened are open after or are closed. -/
theorem count_of_openAfterAll {blocks n : Nat} {kinds : List TokenKind}
    (h : openAfterAll blocks kinds = some n) :
    blocks + kinds.count .indent = n + kinds.count .dedent := by
  induction kinds generalizing blocks with
  | nil =>
    cases h
    rfl
  | cons k kinds ih =>
    rw [openAfterAll] at h
    obtain ⟨m, hm, htail⟩ := Option.bind_eq_some_iff.1 h
    have hcount := ih htail
    -- no kind but these two changes the number of open blocks
    by_cases hi : k = .indent
    · subst hi
      cases hm
      rw [List.count_cons_self, List.count_cons_of_ne (by decide)]
      omega
    · by_cases hd : k = .dedent
      · subst hd
        simp only [openAfter] at hm
        split at hm
        · cases hm
        · next hpos =>
          cases hm
          rw [List.count_cons_self, List.count_cons_of_ne (by decide)]
          omega
      · rw [openAfter_of_ne hi hd] at hm
        cases hm
        rw [List.count_cons_of_ne hi, List.count_cons_of_ne hd]
        exact hcount

/-- Kinds that never close a block that is not open do so in no prefix either. -/
theorem openAfterAll_of_prefix {blocks n : Nat} {before kinds : List TokenKind}
    (h : openAfterAll blocks kinds = some n) (hpre : before <+: kinds) :
    ∃ m, openAfterAll blocks before = some m := by
  obtain ⟨after, rfl⟩ := hpre
  rw [openAfterAll_append] at h
  obtain ⟨m, hm, _⟩ := Option.bind_eq_some_iff.1 h
  exact ⟨m, hm⟩

/-- Whether a token of this kind begins a block or fails to. -/
def announces : TokenKind → Bool
  | .indent | .error .indentation => true
  | _ => false

/-- Whether a token of this kind is neither layout nor the end of the text. -/
def isContent (k : TokenKind) : Prop := k.isLayout = false ∧ k ≠ .endOfFile

end TokenKind

open TokenKind

/-- The tokens that a transition queues open and close just the blocks by which the stack
changes. -/
theorem IndentStack.openAfterAll_kinds (s : IndentStack) (width : Nat) :
    openAfterAll (blocks s.levels) (s.transition width).1.kinds =
      some (blocks (s.transition width).2.levels) := by
  have hsplit := s.blocks_wider_add_narrowed width
  rcases s.transition_cases width with ⟨_, h⟩ | ⟨_, h⟩ | ⟨_, _, h⟩ | ⟨_, _, h⟩ <;> rw [h]
  · rfl
  · show some (blocks s.levels + 1) = some (blocks (⟨width, false⟩ :: s.levels))
    rw [blocks_cons]
    rfl
  · rw [← hsplit]
    exact openAfterAll_replicate_dedent _ _
  · rw [← hsplit, Transition.kinds, openAfterAll_append, openAfterAll_replicate_dedent]
    simp [openAfterAll, openAfter, push, blocks_cons]

namespace Scanner

variable {s : Scanner}

/-- The kinds of tokens in their order. -/
def kinds (tokens : List Token) : List TokenKind := tokens.map Token.kind

theorem kinds_append (ts us : List Token) : kinds (ts ++ us) = kinds ts ++ kinds us :=
  List.map_append

theorem kinds_map_layoutToken (s : Scanner) (ks : List TokenKind) :
    kinds (ks.map s.layoutToken) = ks := by
  rw [kinds, List.map_map]
  exact List.map_id ks

/-! ## Balance -/

/-- The tokens handed out and those in the queue are properly nested, and the blocks they leave
open are those of the stack. -/
def Nested (out : List Token) (s : Scanner) : Prop :=
  openAfterAll 0 (kinds (out ++ s.pending)) = some (IndentStack.blocks s.indents.levels)

namespace Nested
variable {out : List Token}

/-- Queued tokens keep the nesting if they open and close just the blocks by which the stack
changes. -/
theorem queue (h : Nested out s) {tokens : List Token} {n : Nat}
    (hq : openAfterAll (IndentStack.blocks s.indents.levels) (kinds tokens) = some n) :
    openAfterAll 0 (kinds (out ++ (s.pending ++ tokens))) = some n := by
  rw [← List.append_assoc, kinds_append, openAfterAll_append, h]
  exact hq

theorem beginLine (h : Nested out s) {t : Scanner} (ht : s.beginLine = .ok t) :
    Nested out t := by
  rcases beginLine_cases ht with rfl | ⟨width, _, _, _, _, rfl⟩
  · exact h
  · rw [indentTo_eq]
    refine h.queue ?_
    rw [kinds_map_layoutToken]
    exact IndentStack.openAfterAll_kinds _ _

theorem accept (h : Nested out s) (c : Char) (rest : Text) :
    Nested out (s.accept (Lexeme.read c rest)) := by
  rw [accept_eq]
  refine h.queue ?_
  have hne : (Lexeme.read c rest).kind ≠ .indent ∧ (Lexeme.read c rest).kind ≠ .dedent := by
    rcases Lexeme.kind_read c rest with ⟨p, hp⟩ | ⟨e, he, _⟩
    · rw [hp]; exact ⟨nofun, nofun⟩
    · rw [he]; exact ⟨nofun, nofun⟩
  show (openAfter _ (Lexeme.read c rest).kind).bind _ = _
  rw [openAfter_of_ne hne.1 hne.2]
  rfl

theorem finish (h : Nested out s) : Nested out s.finish := by
  rw [finish_eq]
  refine h.queue ?_
  rw [kinds_map_layoutToken, closingKinds, openAfterAll_append, closingBlocks]
  dsimp only
  cases s.config.trackIndentation with
  | true =>
    rw [if_pos rfl, if_pos rfl]
    have hall := openAfterAll_replicate_dedent (IndentStack.blocks s.indents.levels) 0
    rw [Nat.add_zero] at hall
    rw [hall]
    rfl
  | false => rfl

end Nested

theorem kept_nested : Kept Nested where
  step h _ _ hs := by
    obtain ⟨t, ht, ⟨_, rfl⟩ | ⟨c, rest, _, rfl⟩⟩ := step_cases hs
    · exact (h.beginLine ht).finish
    · exact (h.beginLine ht).accept c rest
  hand {out s t pending} h hp _ := by
    have happ : out ++ [t] ++ pending = out ++ s.pending := by rw [hp]; simp
    show openAfterAll 0 (kinds (out ++ [t] ++ pending)) = _
    rw [happ]
    exact h
  pass {out s t pending} h hp ht := by
    -- only trivia are passed over, and they are no brackets
    have htrivia : t.kind.isTrivia = true := by
      simp only [handsOut, Bool.not_eq_false', Bool.and_eq_true] at ht
      exact ht.2
    have hne : t.kind ≠ .indent ∧ t.kind ≠ .dedent := by
      constructor <;> intro he <;> rw [he] at htrivia <;> cases htrivia
    have hq : openAfterAll 0 (kinds (out ++ s.pending)) = _ := h
    rw [hp, kinds_append, openAfterAll_append] at hq
    show openAfterAll 0 (kinds (out ++ pending)) = _
    rw [kinds_append, openAfterAll_append, ← hq]
    congr 1
    funext n
    show _ = (openAfter n t.kind).bind _
    rw [openAfter_of_ne hne.1 hne.2]
    rfl

/-- **A run is properly nested.** -/
theorem nested_of_run {source : Text} {events : List Event} {answers : List (Option Token)}
    {last : Scanner} (h : (ofText source).run events = .ok (answers, last)) :
    Nested (handed answers) last :=
  kept_nested.run (fun _ _ _ _ hk => hk) (fun _ _ _ hk => hk)
    (show Nested [] (ofText source) from rfl) h

/-! ## The end closes what is open -/

theorem indents_of_next_finished {t : Option Token} {u : Scanner} (hf : s.finished = false)
    (htrack : s.config.trackIndentation = true) (h : s.next = .ok (t, u))
    (hu : u.finished = true) : u.indents = .base := by
  have hkept : Kept fun _ s => s.config.trackIndentation = true ∧
      (s.finished = true → s.indents = .base) := by
    refine ⟨?_, fun h _ _ => h, fun h _ _ => h⟩
    rintro _ s s' ⟨htrack, _⟩ _ hf hs
    obtain ⟨t, ht, hend⟩ := step_cases hs
    obtain ⟨_, hconfig, _, _, _, _, hfin⟩ := beginLine_frame ht
    rcases hend with ⟨_, rfl⟩ | ⟨c, rest, _, rfl⟩
    · rw [finish_eq]
      exact ⟨hconfig ▸ htrack, fun _ => if_pos (hconfig ▸ htrack)⟩
    · rw [accept_eq]
      exact ⟨hconfig ▸ htrack, fun he => absurd he (by simp [hfin, hf])⟩
  have hstart : s.config.trackIndentation = true ∧ (s.finished = true → s.indents = .base) :=
    ⟨htrack, fun he => absurd he (by simp [hf])⟩
  exact (@Kept.next _ hkept [] s u t hstart h).2 hu

/-- After the end of the text has been queued the stack does not change any more. -/
theorem indents_of_run_finished {events : List Event} {answers : List (Option Token)}
    {last : Scanner} (hf : s.finished = true) (h : s.run events = .ok (answers, last)) :
    last.indents = s.indents := by
  have hkept : Kept fun _ t => t.finished = true ∧ t.indents = s.indents :=
    ⟨fun h _ hf _ => absurd h.1 (by simp [hf]), fun h _ _ => h, fun h _ _ => h⟩
  exact (@Kept.run _ hkept events [] s last answers (fun _ _ _ _ hk => hk)
    (fun _ _ _ hk => hk) ⟨hf, rfl⟩ h).2

/-! ## What is announced comes -/

/-- The kinds of the tokens that are no trivia. -/
def visible (tokens : List Token) : List TokenKind :=
  (kinds tokens).filter fun k => !k.isTrivia

theorem visible_append (ts us : List Token) :
    visible (ts ++ us) = visible ts ++ visible us := by
  rw [visible, kinds_append, List.filter_append]
  rfl

/-- The scanner is inside a significant line of which no more than white space is scanned. -/
def Owes (s : Scanner) : Prop :=
  s.finished = false ∧ s.atLineStart = false ∧
    isInsignificant (s.rest.dropWhile CharClass.isHorizontalSpace) = false

theorem Owes.rest_ne_nil (h : s.Owes) : s.rest ≠ [] := by
  intro hnil
  have hsig := h.2.2
  rw [hnil] at hsig
  cases hsig

/-- The only trivia at the front of what is owed are white space, which leaves it owed. -/
theorem Owes.accept (h : s.Owes) {c : Char} {rest : Text} (hrest : s.rest = c :: rest)
    (htrivia : (Lexeme.read c rest).kind.isTrivia = true) :
    (s.accept (Lexeme.read c rest)).Owes := by
  obtain ⟨hf, hstart, hsig⟩ := h
  rw [hrest] at hsig
  -- a line break or a comment at the front would make the line insignificant
  have hfront (hc : CharClass.isLineBreak c = true ∨ c = '#') : False := by
    have hspace : CharClass.isHorizontalSpace c = false := by
      rcases hc with hc | rfl
      · rcases (by simpa [CharClass.isLineBreak] using hc : c = '\r' ∨ c = '\n') with
          rfl | rfl <;> rfl
      · rfl
    rw [List.dropWhile_cons_of_neg (by simp [hspace])] at hsig
    simp only [isInsignificant, Bool.or_eq_false_iff, beq_eq_false_iff_ne] at hsig
    rcases hc with hc | rfl
    · rw [hc] at hsig
      cases hsig.1
    · exact hsig.2 rfl
  rcases Lexeme.kind_read c rest with ⟨p, hp⟩ | ⟨e, he, _⟩
  · have hrec := Lexeme.recognizer_of_kind_read hp
    rw [hp] at htrivia
    cases p with
    | keyword k => cases htrivia
    | symbol t => cases htrivia
    | rule r =>
      cases r with
      | whiteSpace =>
        have hrun : Recognizer.run1 CharClass.isHorizontalSpace (c :: rest) = _ := hrec
        obtain ⟨_, hdrop, _⟩ := Recognizer.run1_eq_some_iff.1 hrun
        rw [accept_eq]
        refine ⟨hf, ?_, ?_⟩
        · show (s.atLineStart || (Lexeme.read c rest).endsLine) = false
          rw [hstart, Lexeme.endsLine, hp]
          rfl
        · show isInsignificant ((Lexeme.read c rest).rest.dropWhile _) = false
          rw [hdrop, List.dropWhile_idempotent]
          simpa using hsig
      | lineFeed =>
        refine absurd (hfront (.inl ?_)) id
        simp only [Pattern.recognizer, Rule.recognizer, Trivia.lineFeed,
          Recognizer.orElse_eq_some_iff, Recognizer.exactly_eq_some_iff] at hrec
        rcases hrec with ⟨_, hcons⟩ | ⟨_, ⟨_, hcons⟩ | ⟨_, _, hcons⟩⟩ <;>
          · rw [(List.cons.inj hcons).1]
            rfl
      | comment =>
        refine absurd (hfront (.inr ?_)) id
        obtain ⟨a, _, _, hchar, _⟩ := Recognizer.andThen_eq_some_iff.1 hrec
        obtain ⟨d, hd, _, hcons⟩ := Recognizer.char_eq_some_iff.1 hchar
        cases hcons
        simpa using hd
      | _ => cases htrivia
  · rw [he] at htrivia
    cases htrivia

/-- Among the tokens that are no trivia, whatever announces content is followed by it, or is the
last one and the scanner owes the content. -/
structure Announced (out : List Token) (s : Scanner) : Prop where
  follows : (visible (out ++ s.pending)).IsChain fun k l => k.announces = true → l.isContent
  owed : ∀ k ∈ (visible (out ++ s.pending)).getLast?, k.announces = true → s.Owes

/-- Among the tokens of a transition nothing announces content but the last one. -/
theorem isChain_kinds (t : Transition) :
    t.kinds.IsChain fun k l => k.announces = true → l.isContent := by
  have hdedents (n : Nat) : (List.replicate n TokenKind.dedent).IsChain
      fun k l => k.announces = true → l.isContent :=
    List.isChain_replicate_of_rel n nofun
  cases t with
  | same => exact .nil
  | indent => exact .singleton _
  | dedent n => exact hdedents n
  | inconsistent n e =>
    refine (hdedents n).append (.singleton _) ?_
    intro k hk l _ hannounces
    rw [List.eq_of_mem_replicate (List.mem_of_getLast? hk)] at hannounces
    cases hannounces

namespace Announced
variable {out : List Token}

theorem beginLine (h : Announced out s) (hf : s.finished = false) {t : Scanner}
    (ht : s.beginLine = .ok t) : Announced out t := by
  rcases beginLine_cases ht with rfl | ⟨width, hstart, _, hsig, _, rfl⟩
  · exact ⟨h.follows, fun k hk ha => ⟨hf, rfl, (h.owed k hk ha).2.2⟩⟩
  · -- the line has yet to begin, so nothing is owed before it
    have hquiet : ∀ k ∈ (visible (out ++ s.pending)).getLast?, k.announces = false := by
      intro k hk
      rw [← Bool.not_eq_true]
      intro ha
      have := (h.owed k hk ha).2.1
      rw [hstart] at this
      cases this
    rw [indentTo_eq]
    refine ⟨?_, fun _ _ _ => ⟨hf, rfl, hsig⟩⟩
    have hvisible : visible (out ++ (s.pending ++
        (s.indents.transition width).1.kinds.map s.layoutToken)) =
          visible (out ++ s.pending) ++ (s.indents.transition width).1.kinds := by
      rw [← List.append_assoc, visible_append]
      congr 1
      rw [visible, kinds_map_layoutToken, List.filter_eq_self]
      intro k hk
      rcases Transition.isLayout_of_mem_kinds hk with rfl | rfl | rfl <;> rfl
    show (visible (out ++ (s.pending ++
      (s.indents.transition width).1.kinds.map s.layoutToken))).IsChain _
    rw [hvisible]
    refine h.follows.append (isChain_kinds _) ?_
    intro k hk l _ ha
    rw [hquiet k hk] at ha
    cases ha

theorem accept (h : Announced out s) {c : Char} {rest : Text} (hrest : s.rest = c :: rest) :
    Announced out (s.accept (Lexeme.read c rest)) := by
  have hpending : (s.accept (Lexeme.read c rest)).pending =
      s.pending ++ [.ofLexeme (Lexeme.read c rest).kind s.position (Lexeme.read c rest).text] := by
    rw [accept_eq]
  have hvisible : visible (out ++ (s.accept (Lexeme.read c rest)).pending) =
      visible (out ++ s.pending) ++
        [(Lexeme.read c rest).kind].filter fun k => !k.isTrivia := by
    rw [hpending, ← List.append_assoc, visible_append]
    rfl
  cases htrivia : (Lexeme.read c rest).kind.isTrivia with
  | true =>
    rw [List.filter_cons_of_neg (by simp [htrivia]), List.filter_nil, List.append_nil] at hvisible
    exact ⟨hvisible ▸ h.follows, fun k hk ha =>
      (h.owed k (hvisible ▸ hk) ha).accept hrest htrivia⟩
  | false =>
    rw [List.filter_cons_of_pos (by simp [htrivia]), List.filter_nil] at hvisible
    -- the lexeme is the content that the last visible token may have announced
    have hkind : (Lexeme.read c rest).kind.isContent ∧
        (Lexeme.read c rest).kind.announces = false := by
      rcases Lexeme.kind_read c rest with ⟨p, hp⟩ | ⟨e, he, hne⟩
      · rw [hp]
        exact ⟨⟨rfl, nofun⟩, rfl⟩
      · rw [he]
        cases e with
        | indentation => exact absurd rfl hne
        | _ => exact ⟨⟨rfl, nofun⟩, rfl⟩
    refine ⟨hvisible ▸ h.follows.append (.singleton _) ?_, ?_⟩
    · intro k _ l hl _
      cases hl
      exact hkind.1
    · intro k hk ha
      rw [hvisible, List.getLast?_concat] at hk
      cases hk
      rw [hkind.2] at ha
      cases ha

theorem finish (h : Announced out s) (hrest : s.rest = []) : Announced out s.finish := by
  -- where no text is left nothing is owed
  have hquiet : ∀ k ∈ (visible (out ++ s.pending)).getLast?, ¬ k.announces = true :=
    fun k hk ha => (h.owed k hk ha).rest_ne_nil hrest
  have hpending : s.finish.pending = s.pending ++ s.closingKinds.map s.layoutToken := by
    rw [finish_eq]
  have hclosing : ∀ k ∈ s.closingKinds, k = .dedent ∨ k = .endOfFile := by
    intro k hk
    rcases List.mem_append.1 hk with hk | hk
    · exact .inl (List.eq_of_mem_replicate hk)
    · exact .inr (List.mem_singleton.1 hk)
  have hvisible : visible (out ++ s.finish.pending) =
      visible (out ++ s.pending) ++ s.closingKinds := by
    rw [hpending, ← List.append_assoc, visible_append]
    congr 1
    rw [visible, kinds_map_layoutToken, List.filter_eq_self]
    intro k hk
    rcases hclosing k hk with rfl | rfl <;> rfl
  refine ⟨?_, ?_⟩
  · rw [hvisible]
    refine h.follows.append ?_ fun k hk l _ ha => absurd ha (hquiet k hk)
    refine (List.isChain_replicate_of_rel _ nofun).append (.singleton _) ?_
    intro k hk l _ ha
    rw [List.eq_of_mem_replicate (List.mem_of_getLast? hk)] at ha
    cases ha
  · intro k hk ha
    rw [hvisible, closingKinds, ← List.append_assoc, List.getLast?_concat] at hk
    cases hk
    cases ha

end Announced

theorem kept_announced : Kept Announced where
  step h _ hf hs := by
    obtain ⟨t, ht, ⟨hrest, rfl⟩ | ⟨c, rest, hrest, rfl⟩⟩ := step_cases hs
    · exact (h.beginLine hf ht).finish hrest
    · exact (h.beginLine hf ht).accept hrest
  hand {out s t pending} h hp _ := by
    have happ : out ++ [t] ++ pending = out ++ s.pending := by rw [hp]; simp
    exact ⟨happ ▸ h.follows, fun k hk => h.owed k (happ ▸ hk)⟩
  pass {out s t pending} h hp ht := by
    have htrivia : t.kind.isTrivia = true := by
      simp only [handsOut, Bool.not_eq_false', Bool.and_eq_true] at ht
      exact ht.2
    have hvisible : visible (out ++ pending) = visible (out ++ s.pending) := by
      rw [hp, visible_append, visible_append]
      congr 1
      show _ = (t.kind :: kinds pending).filter _
      rw [List.filter_cons_of_neg (by simp [htrivia])]
      rfl
    exact ⟨hvisible ▸ h.follows, fun k hk => h.owed k (hvisible ▸ hk)⟩

/-- What announces content is followed by it, unless it is the last visible token of a scan that
has not come to its end. -/
theorem Announced.content {out : List Token} (h : Announced out s) {before after : List TokenKind}
    {k : TokenKind} (heq : visible (out ++ s.pending) = before ++ k :: after)
    (hk : k.announces = true) :
    (∃ l after', after = l :: after' ∧ l.isContent) ∨ after = [] ∧ s.finished = false := by
  cases after with
  | nil =>
    have hlast : k ∈ (visible (out ++ s.pending)).getLast? := by
      rw [heq, List.getLast?_concat]
      rfl
    exact .inr ⟨rfl, (h.owed k hlast hk).1⟩
  | cons l after =>
    have hchain := h.follows
    rw [heq] at hchain
    exact .inl ⟨l, after, rfl,
      List.isChain_iff_forall_rel_of_append_cons_cons.1 hchain rfl hk⟩

/-! ## Balanced runs -/

/-- Blocks are tracked at the request that comes to the end of the text. -/
def TracksEnd (s : Scanner) (events : List Event) : Prop :=
  ∃ early late answers t answer u, events = early ++ .next :: late ∧
    s.run early = .ok (answers, t) ∧ t.finished = false ∧ t.config.trackIndentation = true ∧
    t.next = .ok (answer, u) ∧ u.finished = true

/-- Whether the request after some events comes to the end of the text while blocks are
tracked. -/
def endsTracking (s : Scanner) (early : List Event) : Bool :=
  match s.run early with
  | .error _ => false
  | .ok (_, t) =>
    match t.next with
    | .error _ => false
    | .ok (_, u) => !t.finished && t.config.trackIndentation && u.finished

theorem tracksEnd_of_endsTracking {early : List Event} (h : s.endsTracking early = true)
    (late : List Event) : s.TracksEnd (early ++ .next :: late) := by
  unfold endsTracking at h
  cases hearly : s.run early with
  | error e => simp [hearly] at h
  | ok r =>
    obtain ⟨answers, t⟩ := r
    cases hnext : t.next with
    | error e => simp [hearly, hnext] at h
    | ok r =>
      obtain ⟨answer, u⟩ := r
      simp only [hearly, hnext, Bool.and_eq_true, Bool.not_eq_true'] at h
      obtain ⟨⟨hf, htrack⟩, hu⟩ := h
      exact ⟨early, late, answers, t, answer, u, rfl, hearly, hf, htrack, hnext, hu⟩

/-- The stack of a scan that tracks blocks at the end of the text is empty afterwards. -/
theorem TracksEnd.indents {events : List Event} (h : s.TracksEnd events)
    {answers : List (Option Token)} {last : Scanner} (hrun : s.run events = .ok (answers, last)) :
    last.indents = .base := by
  obtain ⟨early, late, as, t, answer, u, rfl, hearly, hf, htrack, hnext, hu⟩ := h
  obtain ⟨_, _, _, hearly', hlate, _⟩ := run_append_eq_ok_iff.1 hrun
  rw [hearly] at hearly'
  cases hearly'
  obtain ⟨_, _, _, hnext', hlate, _⟩ := run_next_eq_ok_iff.1 hlate
  rw [hnext] at hnext'
  cases hnext'
  rw [indents_of_run_finished hu hlate]
  exact indents_of_next_finished hf htrack hnext hu

/-- **Blocks are balanced and not empty.**  Take any events on a fresh scanner.  Among the tokens
handed out and those in the queue there are as many indents as dedents and open blocks, and in no
prefix of those handed out are there more dedents than indents.  If blocks are tracked at the end
of the text, there are as many indents as dedents.  Apart from trivia, an indent and a failed
indentation come right before a token that is neither layout nor the end of the text; only where
the scan has not come to its end they can be the last tokens.  Where a request has been answered
with nothing, the scan has come to its end and the queue is empty. -/
theorem run_balanced {source : Text} {events : List Event} {answers : List (Option Token)}
    {last : Scanner} (hrun : (ofText source).run events = .ok (answers, last)) :
    let stream := handed answers ++ last.pending
    (kinds stream).count .indent =
        (kinds stream).count .dedent + IndentStack.blocks last.indents.levels ∧
      (∀ front, front <+: handed answers →
        (kinds front).count .dedent ≤ (kinds front).count .indent) ∧
      ((ofText source).TracksEnd events →
        (kinds stream).count .indent = (kinds stream).count .dedent) ∧
      (∀ before k after, visible stream = before ++ k :: after → k.announces = true →
        (∃ l after', after = l :: after' ∧ l.isContent) ∨ after = [] ∧ last.finished = false) ∧
      (none ∈ answers → last.finished = true ∧ last.pending = []) := by
  intro stream
  have hnested : Nested (handed answers) last := nested_of_run hrun
  have hcount : (kinds stream).count .indent =
      (kinds stream).count .dedent + IndentStack.blocks last.indents.levels := by
    rw [Nat.add_comm, ← count_of_openAfterAll hnested, Nat.zero_add]
  refine ⟨hcount, ?_, ?_, ?_, ?_⟩
  · rintro front ⟨back, hfront⟩
    have hprefix : kinds front <+: kinds stream := by
      refine ⟨kinds (back ++ last.pending), ?_⟩
      rw [← kinds_append, ← List.append_assoc, hfront]
    obtain ⟨n, hn⟩ := openAfterAll_of_prefix hnested hprefix
    have := count_of_openAfterAll hn
    omega
  · intro htracks
    have hbase : IndentStack.blocks last.indents.levels = 0 := by
      rw [htracks.indents hrun]
      rfl
    rw [hbase] at hcount
    exact hcount
  · intro before k after heq hk
    have hstart : Announced [] (ofText source) := ⟨.nil, nofun⟩
    have hannounced : Announced (handed answers) last := kept_announced.run
      (fun _ _ _ _ h => ⟨h.follows, h.owed⟩) (fun _ _ _ h => ⟨h.follows, h.owed⟩) hstart hrun
    exact hannounced.content heq hk
  · intro hnone
    obtain ⟨k, hanswers, _, hend⟩ := run_answers hrun
    refine hend ?_
    rintro rfl
    rw [hanswers] at hnone
    simp at hnone

/-- A run with a line that closes a block and fails to return to one, while trivia are passed
over: blocks are tracked at the end, so its indents and dedents are equal in number. -/
theorem run_balanced_inconsistent_line :
    let text : Text := ['a', '\n', ' ', ' ', 'b', '\n', ' ', 'c']
    let early := .withConfig { skipTrivia := true } :: List.replicate 6 Event.next
    let events := early ++ .next :: [.next]
    ∃ answers last, (ofText text).run events = .ok (answers, last) ∧
      (ofText text).TracksEnd events ∧
      (kinds (handed answers ++ last.pending)).count .indent =
        (kinds (handed answers ++ last.pending)).count .dedent := by
  intro text early events
  have hok : ((ofText text).run events).isOk = true := by decide +kernel
  have htracks : (ofText text).TracksEnd events :=
    tracksEnd_of_endsTracking (by decide +kernel) [.next]
  cases hrun : (ofText text).run events with
  | error e => rw [hrun] at hok; cases hok
  | ok r =>
    obtain ⟨answers, last⟩ := r
    exact ⟨answers, last, rfl, htracks, (run_balanced hrun).2.2.1 htracks⟩

end Scanner
end LayoutLexer

import LayoutLexer.Listing

/-! # Runs of a scanner

Who owns a scanner may ask for the next token, replace the configuration and replace the label,
in any order.  A run is a list of such events with the answers to its requests.  Between two
requests the scanner makes moves of three kinds: it steps when its queue is empty, it hands out
the first token of the queue, or it passes over it.  A relation between the tokens handed out
and the state that all moves keep (`Kept`) holds throughout every run (`Kept.run`).

Once a request has been answered with nothing, every later one is, whatever comes in between
(`run_of_exhausted`); so the answers of a run are tokens and then nothing (`run_answers`).
Draining a scanner is a run (`run_of_drain`), and so is making a listing (`run_of_listing`).
-/
namespace LayoutLexer

/-- What the owner of a scanner can do. -/
inductive Event where
  /-- Asks for the next token. -/
  | next
  /-- Replaces the configuration. -/
  | withConfig (config : Config)
  /-- Replaces the label of diagnostics. -/
  | withOrigin (origin : Text)
  deriving DecidableEq, Repr

namespace Scanner

/-- The answers to the requests among some events, and the scanner after them. -/
def run (s : Scanner) : List Event → Except Overflow (List (Option Token) × Scanner)
  | [] => .ok ([], s)
  | .next :: events =>
    match s.next with
    | .error e => .error e
    | .ok (answer, s') => (s'.run events).map fun (answers, last) => (answer :: answers, last)
  | .withConfig config :: events => (s.withConfig config).run events
  | .withOrigin origin :: events => (s.withOrigin origin).run events

/-- The tokens among the answers of a run. -/
def handed (answers : List (Option Token)) : List Token := answers.filterMap id

@[simp] theorem handed_nil : handed [] = [] := rfl

theorem handed_cons (answer : Option Token) (answers : List (Option Token)) :
    handed (answer :: answers) = answer.toList ++ handed answers := by
  cases answer <;> rfl

/-- The tokens among answers that are tokens and then nothing. -/
theorem handed_map_some_append_replicate (tokens : List Token) (k : Nat) :
    handed (tokens.map some ++ List.replicate k none) = tokens := by
  simp [handed, List.filterMap_append, List.filterMap_map]

theorem run_next_eq_ok_iff {s last : Scanner} {events : List Event}
    {answers : List (Option Token)} :
    s.run (.next :: events) = .ok (answers, last) ↔
      ∃ answer s' answers', s.next = .ok (answer, s') ∧ s'.run events = .ok (answers', last) ∧
        answers = answer :: answers' := by
  rw [run]
  cases s.next with
  | error e => simp
  | ok r =>
    obtain ⟨answer, s'⟩ := r
    dsimp only
    cases h : s'.run events with
    | error e => simp [Except.map, h]
    | ok r =>
      obtain ⟨answers', last'⟩ := r
      simp only [Except.map, Except.ok.injEq, Prod.mk.injEq]
      constructor
      · rintro ⟨rfl, rfl⟩
        exact ⟨answer, s', answers', ⟨rfl, rfl⟩, h, rfl⟩
      · rintro ⟨a, t, as, ⟨rfl, rfl⟩, hrun, rfl⟩
        rw [h] at hrun
        cases hrun
        exact ⟨rfl, rfl⟩

/-- A run over two lists of events is a run over the first and one over the second. -/
theorem run_append_eq_ok_iff {s last : Scanner} {events events' : List Event}
    {answers : List (Option Token)} :
    s.run (events ++ events') = .ok (answers, last) ↔
      ∃ as t bs, s.run events = .ok (as, t) ∧ t.run events' = .ok (bs, last) ∧
        answers = as ++ bs := by
  induction events generalizing s answers with
  | nil =>
    rw [List.nil_append]
    constructor
    · intro h
      exact ⟨[], s, answers, rfl, h, rfl⟩
    · rintro ⟨as, t, bs, hnil, h, rfl⟩
      cases hnil
      exact h
  | cons event events ih =>
    cases event with
    | next =>
      rw [List.cons_append, run_next_eq_ok_iff]
      constructor
      · rintro ⟨a, s', as', hnext, hrun, rfl⟩
        obtain ⟨as, t, bs, has, hbs, rfl⟩ := ih.1 hrun
        exact ⟨a :: as, t, bs, run_next_eq_ok_iff.2 ⟨a, s', as, hnext, has, rfl⟩, hbs, rfl⟩
      · rintro ⟨as, t, bs, has, hbs, rfl⟩
        obtain ⟨a, s', as', hnext, hrun, rfl⟩ := run_next_eq_ok_iff.1 has
        exact ⟨a, s', as' ++ bs, hnext, ih.2 ⟨as', t, bs, hrun, hbs, rfl⟩, rfl⟩
    | withConfig c => exact ih
    | withOrigin o => exact ih

/-! ## Handing out, move by move -/

theorem takePending_nil {s : Scanner} (h : s.pending = []) : s.takePending = (none, s) := by
  unfold takePending
  rw [h, List.dropWhile_nil]
  dsimp only
  rw [← h]

theorem takePending_hand {s : Scanner} {t : Token} {pending : List Token}
    (h : s.pending = t :: pending) (ht : s.handsOut t = true) :
    s.takePending = (some t, { s with pending }) := by
  unfold takePending
  rw [h, List.dropWhile_cons_of_neg (by simp [ht])]

theorem takePending_pass {s : Scanner} {t : Token} {pending : List Token}
    (h : s.pending = t :: pending) (ht : s.handsOut t = false) :
    s.takePending = { s with pending : Scanner }.takePending := by
  unfold takePending
  rw [h, List.dropWhile_cons_of_pos (by simp [ht])]
  rfl

/-- A relation between the tokens handed out so far and the state that every move of the
scanner keeps. -/
structure Kept (I : List Token → Scanner → Prop) : Prop where
  /-- The scanner steps when its queue is empty. -/
  step : ∀ {out s s'}, I out s → s.pending = [] → s.finished = false → s.step = .ok s' →
    I out s'
  /-- The first token of the queue is handed out. -/
  hand : ∀ {out s t pending}, I out s → s.pending = t :: pending → s.handsOut t = true →
    I (out ++ [t]) { s with pending }
  /-- The first token of the queue is passed over. -/
  pass : ∀ {out s t pending}, I out s → s.pending = t :: pending → s.handsOut t = false →
    I out { s with pending }

namespace Kept
variable {I : List Token → Scanner → Prop}

theorem takePending (hI : Kept I) {out : List Token} {s : Scanner} (h : I out s) :
    I (out ++ s.takePending.1.toList) s.takePending.2 := by
  obtain ⟨pending, hp⟩ : ∃ pending, s.pending = pending := ⟨_, rfl⟩
  induction pending generalizing s with
  | nil =>
    rw [takePending_nil hp]
    simpa using h
  | cons t pending ih =>
    cases ht : s.handsOut t with
    | true =>
      rw [takePending_hand hp ht]
      exact hI.hand h hp ht
    | false =>
      rw [takePending_pass hp ht]
      exact ih (hI.pass h hp ht) rfl

/-- Answering a request keeps the relation. -/
theorem next (hI : Kept I) {out : List Token} {s s' : Scanner} {answer : Option Token}
    (h : I out s) (hn : s.next = .ok (answer, s')) : I (out ++ answer.toList) s' := by
  fun_induction Scanner.next s with
  | case1 s t ht =>
    have hk := hI.takePending h
    rw [ht] at hk
    cases hn
    exact hk
  | case2 s ht hf =>
    have hk := hI.takePending h
    rw [ht] at hk
    cases hn
    exact hk
  | case3 s ht hf e hs => cases hn
  | case4 s ht hf s' hs ih =>
    have hk := hI.takePending h
    rw [ht, Option.toList_none, List.append_nil] at hk
    refine ih (hI.step hk ?_ (by simpa using hf) hs) hn
    rw [(takePending_none ht).2]

/-- What every move and every event of a run keeps holds after the run. -/
theorem run (hI : Kept I) {events : List Event} {out : List Token} {s last : Scanner}
    {answers : List (Option Token)}
    (hconfig : ∀ config, .withConfig config ∈ events → ∀ out s, I out s →
      I out (s.withConfig config))
    (horigin : ∀ origin out s, I out s → I out (s.withOrigin origin))
    (h : I out s) (hrun : s.run events = .ok (answers, last)) :
    I (out ++ handed answers) last := by
  induction events generalizing out s answers with
  | nil =>
    cases hrun
    simpa using h
  | cons event events ih =>
    have htail : ∀ config, .withConfig config ∈ events → ∀ out s, I out s →
        I out (s.withConfig config) :=
      fun config hc => hconfig config (List.mem_cons_of_mem _ hc)
    cases event with
    | next =>
      obtain ⟨answer, s', answers', hnext, hrest, rfl⟩ := run_next_eq_ok_iff.1 hrun
      have hk := ih htail (hI.next h hnext) hrest
      rwa [List.append_assoc, ← handed_cons] at hk
    | withConfig config =>
      exact ih htail (hconfig config List.mem_cons_self _ _ h) hrun
    | withOrigin origin => exact ih htail (horigin origin _ _ h) hrun

end Kept

/-! ## The end of the tokens -/

/-- Nothing is left: the end of the text has been queued and handed out. -/
def Exhausted (s : Scanner) : Prop := s.finished = true ∧ s.pending = []

theorem exhausted_of_next_none {s s' : Scanner} (h : s.next = .ok (none, s')) :
    s'.Exhausted := by
  fun_induction Scanner.next s with
  | case1 s t ht => simp at h
  | case2 s ht hf =>
    cases h
    exact ⟨hf, by rw [(takePending_none ht).2]⟩
  | case3 s ht hf e hs => cases h
  | case4 s ht hf t hs ih => exact ih h

theorem Exhausted.next {s : Scanner} (h : s.Exhausted) : s.next = .ok (none, s) := by
  rw [Scanner.next, takePending_nil h.2]
  simp [h.1]

/-- Once nothing is left, every request is answered with nothing, whatever the configuration
and the label are replaced by. -/
theorem run_of_exhausted {s : Scanner} (h : s.Exhausted) (events : List Event) :
    ∃ last, s.run events = .ok (List.replicate (events.count .next) none, last) ∧
      last.Exhausted := by
  induction events generalizing s with
  | nil => exact ⟨s, rfl, h⟩
  | cons event events ih =>
    cases event with
    | next =>
      obtain ⟨last, hrun, hlast⟩ := ih h
      refine ⟨last, run_next_eq_ok_iff.2 ⟨none, s, _, h.next, hrun, ?_⟩, hlast⟩
      rw [List.count_cons_self, List.replicate_succ]
    | withConfig config =>
      obtain ⟨last, hrun, hlast⟩ := ih (show (s.withConfig config).Exhausted from h)
      exact ⟨last, by rw [run, hrun, List.count_cons_of_ne (by simp)], hlast⟩
    | withOrigin origin =>
      obtain ⟨last, hrun, hlast⟩ := ih (show (s.withOrigin origin).Exhausted from h)
      exact ⟨last, by rw [run, hrun, List.count_cons_of_ne (by simp)], hlast⟩

/-- The answers of a run are tokens and then nothing, and once there is nothing the scanner is
exhausted. -/
theorem run_answers {s last : Scanner} {events : List Event} {answers : List (Option Token)}
    (h : s.run events = .ok (answers, last)) :
    ∃ k, answers = (handed answers).map some ++ List.replicate k none ∧
      events.count .next = (handed answers).length + k ∧ (k ≠ 0 → last.Exhausted) := by
  induction events generalizing s answers with
  | nil =>
    cases h
    exact ⟨0, rfl, rfl, fun h => absurd rfl h⟩
  | cons event events ih =>
    cases event with
    | next =>
      obtain ⟨answer, s', answers', hnext, hrun, rfl⟩ := run_next_eq_ok_iff.1 h
      cases answer with
      | some t =>
        obtain ⟨k, hanswers, hcount, hk⟩ := ih hrun
        refine ⟨k, ?_, ?_, hk⟩
        · rw [handed_cons, Option.toList_some, List.singleton_append, List.map_cons,
            List.cons_append, ← hanswers]
        · rw [handed_cons, List.count_cons_self, hcount]
          simp; omega
      | none =>
        -- from here on the run is known
        obtain ⟨last', hrun', hlast⟩ :=
          run_of_exhausted (exhausted_of_next_none hnext) events
        rw [hrun] at hrun'
        cases hrun'
        have hnone := handed_map_some_append_replicate [] (events.count .next + 1)
        rw [List.map_nil, List.nil_append, List.replicate_succ] at hnone
        refine ⟨events.count .next + 1, ?_, ?_, fun _ => hlast⟩
        · rw [hnone]
          rfl
        · rw [hnone, List.count_cons_self]
          simp
    | withConfig config =>
      obtain ⟨k, hanswers, hcount, hk⟩ := ih h
      exact ⟨k, hanswers, by rw [List.count_cons_of_ne (by simp), hcount], hk⟩
    | withOrigin origin =>
      obtain ⟨k, hanswers, hcount, hk⟩ := ih h
      exact ⟨k, hanswers, by rw [List.count_cons_of_ne (by simp), hcount], hk⟩

/-! ## Draining is stepping -/

theorem drain_of_finished {s : Scanner} (hf : s.finished = true) :
    s.drain = .ok (s.pending.filter s.handsOut, { s with pending := [] }) := by
  rw [drain, dif_pos hf]

/-- Draining an unfinished scan hands out the queue and goes on after a step. -/
theorem drain_of_unfinished {s : Scanner} (hf : s.finished = false) :
    s.drain =
      match { s with pending := [] : Scanner }.step with
      | .error e => .error e
      | .ok s' => s'.drain.map fun (tokens, last) =>
          (s.pending.filter s.handsOut ++ tokens, last) := by
  rw [drain, dif_neg (by simp [hf])]
  dsimp only
  split
  · next hs => rw [hs]
  · next hs => rw [hs]

/-- What draining hands out is the queue, and then what is handed out after a step. -/
theorem step_of_drain {s last : Scanner} {tokens : List Token} (hf : s.finished = false)
    (h : s.drain = .ok (tokens, last)) :
    ∃ s' others, { s with pending := [] : Scanner }.step = .ok s' ∧
      s'.drain = .ok (others, last) ∧ tokens = s.pending.filter s.handsOut ++ others := by
  rw [drain_of_unfinished hf] at h
  cases hs : { s with pending := [] : Scanner }.step with
  | error e => rw [hs] at h; cases h
  | ok s' =>
    rw [hs] at h
    dsimp only at h
    cases hd : s'.drain with
    | error e => rw [hd] at h; cases h
    | ok r =>
      rw [hd] at h
      cases h
      exact ⟨s', r.1, rfl, hd, rfl⟩

/-- Induction along the steps by which a scan is drained. -/
theorem drain_induction {P : Scanner → Prop}
    (h : ∀ s : Scanner, (s.finished = false → ∀ s',
      { s with pending := [] : Scanner }.step = .ok s' → P s') → P s) (s : Scanner) : P s := by
  induction hn : s.remaining using Nat.strongRecOn generalizing s with
  | ind n ih =>
    refine h s fun hf s' hs => ?_
    have hlt := @step_remaining_lt { s with pending := [] } s' hf hs
    exact ih _ (hn ▸ hlt) s' rfl

/-! ## Draining is a run -/

/-- Draining ends when there is no next token, and otherwise goes on after it. -/
theorem next_of_drain {s last : Scanner} {tokens : List Token}
    (h : s.drain = .ok (tokens, last)) :
    s.next = .ok (none, last) ∧ tokens = [] ∨
      ∃ t s' tokens', s.next = .ok (some t, s') ∧ s'.drain = .ok (tokens', last) ∧
        tokens = t :: tokens' := by
  rw [drain_eq_next] at h
  cases hn : s.next with
  | error e => rw [hn] at h; cases h
  | ok r =>
    obtain ⟨answer, s'⟩ := r
    rw [hn] at h
    cases answer with
    | none =>
      cases h
      exact .inl ⟨rfl, rfl⟩
    | some t =>
      cases hd : s'.drain with
      | error e => simp [hd, Except.map] at h
      | ok r =>
        simp only [hd, Except.map, Except.ok.injEq, Prod.mk.injEq] at h
        obtain ⟨rfl, rfl⟩ := h
        exact .inr ⟨t, s', r.1, rfl, hd, rfl⟩

theorem run_of_drain {s last : Scanner} {tokens : List Token}
    (h : s.drain = .ok (tokens, last)) :
    s.run (List.replicate (tokens.length + 1) .next) = .ok (tokens.map some ++ [none], last) := by
  induction tokens generalizing s with
  | nil =>
    rcases next_of_drain h with ⟨hn, _⟩ | ⟨t, s', tokens', _, _, hcons⟩
    · exact run_next_eq_ok_iff.2 ⟨none, last, [], hn, rfl, rfl⟩
    · cases hcons
  | cons t tokens ih =>
    rcases next_of_drain h with ⟨_, hnil⟩ | ⟨u, s', tokens', hn, hd, hcons⟩
    · cases hnil
    · cases hcons
      exact run_next_eq_ok_iff.2 ⟨some t, s', _, hn, ih hd, rfl⟩

end Scanner

namespace Listing

/-- The events that set up the scanner of a listing. -/
def setup (config : Config) (origin : Option Text) : List Event :=
  .withConfig config :: (origin.map Event.withOrigin).toList

theorem run_setup (config : Config) (origin : Option Text) (source : Text) :
    (Scanner.ofText source).run (setup config origin) =
      .ok ([], scanner config origin source) := by
  cases origin <;> rfl

/-- A listing has what draining its scanner hands out and reports. -/
theorem ofText_eq_ok_iff {config : Config} {origin : Option Text} {source : Text} {l : Listing} :
    ofText config origin source = .ok l ↔
      ∃ tokens last, (scanner config origin source).drain = .ok (tokens, last) ∧
        l = ⟨origin, tokens, last.diagnostics⟩ := by
  unfold ofText
  cases (scanner config origin source).drain with
  | error e => simp
  | ok r => simp [Prod.ext_iff, eq_comm, and_assoc]

/-- A listing is made by a run that sets the scanner up and asks for tokens until there are
none; then the scanner is exhausted. -/
theorem run_of_listing {config : Config} {origin : Option Text} {source : Text} {l : Listing}
    (h : ofText config origin source = .ok l) :
    ∃ last, (Scanner.ofText source).run
        (setup config origin ++ List.replicate (l.tokens.length + 1) .next) =
          .ok (l.tokens.map some ++ List.replicate 1 none, last) ∧
      last.diagnostics = l.diagnostics ∧ last.Exhausted := by
  obtain ⟨tokens, last, hdrain, rfl⟩ := ofText_eq_ok_iff.1 h
  have hrun := Scanner.run_append_eq_ok_iff.2
    ⟨[], _, _, run_setup config origin source, Scanner.run_of_drain hdrain, rfl⟩
  refine ⟨last, hrun, rfl, ?_⟩
  obtain ⟨k, hanswers, -, hend⟩ := Scanner.run_answers hrun
  refine hend ?_
  rintro rfl
  rw [List.nil_append, ← List.replicate_one, Scanner.handed_map_some_append_replicate] at hanswers
  simp at hanswers

end Listing
end LayoutLexer

import LayoutLexer.Recognizer
import Mathlib.Computability.Language
import Mathlib.Data.List.TakeWhile

/-! # Recognizers that take the longest word

A recognizer commits to its first choice and never looks back, yet what it accepts is a language
in the ordinary sense, built by union, concatenation and repetition.  It takes the longest word
of its language that stands at the front of a text, and it fails only where there is none
(`Recognizer.TakesLongest`).  Two things follow that a scanner needs: whether a text is a word
can be told from the text alone, and what comes after a word never makes it shorter.

The combinators keep this property only under conditions, since a greedy choice can miss a word.
A part may be followed by another one if no word of the first goes on with a character at which
a word of the second begins (`Words.Separated`); a second choice may not have words that go
beyond one of the first choice (`Words.NoneBeyond`); a repetition may take in one part what
several parts would take, if the rest can then be repeated all the same.
-/
namespace LayoutLexer

open scoped Computability

/-! ## Languages -/

namespace Words

/-- The words of one character of a class. -/
def oneOf (p : Char → Bool) : Language Char := {t | ∃ c, p c = true ∧ t = [c]}

/-- The words of characters of a class. -/
def anyOf (p : Char → Bool) : Language Char := {t | ∀ c ∈ t, p c = true}

/-- The words of at least one character of a class. -/
def someOf (p : Char → Bool) : Language Char := {t | t ≠ [] ∧ ∀ c ∈ t, p c = true}

/-- The words of a fixed number of characters of a class. -/
def times (p : Char → Bool) (n : Nat) : Language Char :=
  {t | t.length = n ∧ ∀ c ∈ t, p c = true}

/-- A word of `L` followed by one of the language that goes with it. -/
def bind (L : Language Char) (M : Text → Language Char) : Language Char :=
  {t | ∃ a ∈ L, ∃ b ∈ M a, t = a ++ b}

/-- No word of `L` goes on with a character at which a word of `M` begins. -/
def Separated (L M : Language Char) : Prop :=
  ∀ ⦃a c u b⦄, a ∈ L → a ++ c :: u ∈ L → c :: b ∉ M

/-- A word of `M` that begins with a word of `L` is that word. -/
def NoneBeyond (L M : Language Char) : Prop := ∀ ⦃a v⦄, a ∈ L → a ++ v ∈ M → v = []

/-- No word goes on as another word. -/
def PrefixFree (L : Language Char) : Prop := NoneBeyond L L

/-- The words begin with a character of a class. -/
def Begins (p : Char → Bool) (L : Language Char) : Prop :=
  ∀ ⦃t⦄, t ∈ L → ∃ c u, t = c :: u ∧ p c = true

/-- The words begin with a character of a class, if they are not empty. -/
def Heads (p : Char → Bool) (L : Language Char) : Prop := ∀ ⦃c u⦄, c :: u ∈ L → p c = true

/-- The words have only characters of a class. -/
def Only (p : Char → Bool) (L : Language Char) : Prop := ∀ ⦃t⦄, t ∈ L → ∀ c ∈ t, p c = true

/-- The words have a mark at their end and nowhere else. -/
def EndsAt (c : Char) (L : Language Char) : Prop := ∀ ⦃t⦄, t ∈ L → ∃ w, t = w ++ [c] ∧ c ∉ w

variable {p q : Char → Bool} {L M N : Language Char}

/-! ### Repetition -/

theorem append_mem_kstar {a t : Text} (ha : a ∈ L) (ht : t ∈ L∗) : a ++ t ∈ L∗ := by
  obtain ⟨parts, rfl, hparts⟩ := Language.mem_kstar.1 ht
  refine Language.mem_kstar.2 ⟨a :: parts, rfl, ?_⟩
  intro y hy
  rcases List.mem_cons.1 hy with rfl | hy
  · exact ha
  · exact hparts y hy

/-- A nonempty repetition begins with a nonempty word. -/
theorem cons_mem_kstar_iff {c : Char} {t : Text} :
    c :: t ∈ L∗ ↔ ∃ u v, t = u ++ v ∧ c :: u ∈ L ∧ v ∈ L∗ := by
  constructor
  · intro h
    obtain ⟨parts, heq, hparts⟩ := Language.mem_kstar_iff_exists_nonempty.1 h
    cases parts with
    | nil => cases heq
    | cons a parts =>
      obtain ⟨ha, hne⟩ := hparts a List.mem_cons_self
      cases a with
      | nil => exact absurd rfl hne
      | cons d u =>
        cases heq
        exact ⟨u, parts.flatten, rfl, ha,
          Language.join_mem_kstar fun y hy => (hparts y (List.mem_cons_of_mem _ hy)).1⟩
  · rintro ⟨u, v, rfl, hu, hv⟩
    exact append_mem_kstar hu hv

/-! ### First characters -/

theorem mem_oneOf_mul_iff {t : Text} :
    t ∈ oneOf p * L ↔ ∃ c u, p c = true ∧ u ∈ L ∧ t = c :: u := by
  constructor
  · rintro ⟨_, ⟨c, hc, rfl⟩, u, hu, rfl⟩
    exact ⟨c, u, hc, hu, rfl⟩
  · rintro ⟨c, u, hc, hu, rfl⟩
    exact ⟨[c], ⟨c, hc, rfl⟩, u, hu, rfl⟩

/-- A given character followed by a word. -/
theorem mem_char_mul_iff {c : Char} {t : Text} :
    t ∈ oneOf (· == c) * L ↔ ∃ u ∈ L, t = c :: u := by
  rw [mem_oneOf_mul_iff]
  constructor
  · rintro ⟨d, u, hd, hu, rfl⟩
    exact ⟨u, hu, by rw [eq_of_beq hd]⟩
  · rintro ⟨u, hu, rfl⟩
    exact ⟨c, u, beq_self_eq_true c, hu, rfl⟩

theorem begins_oneOf : Begins p (oneOf p) := by
  rintro t ⟨c, hc, rfl⟩
  exact ⟨c, [], rfl, hc⟩

theorem begins_someOf : Begins p (someOf p) := by
  intro t h
  cases t with
  | nil => exact absurd rfl h.1
  | cons c t => exact ⟨c, t, rfl, h.2 c List.mem_cons_self⟩

theorem Begins.mono (h : Begins p L) (hpq : ∀ c, p c = true → q c = true) : Begins q L := by
  intro t ht
  obtain ⟨c, u, rfl, hc⟩ := h ht
  exact ⟨c, u, rfl, hpq c hc⟩

theorem Begins.add (hL : Begins p L) (hM : Begins p M) : Begins p (L + M) := by
  rintro t (h | h)
  · exact hL h
  · exact hM h

theorem Begins.mul (hL : Begins p L) : Begins p (L * M) := by
  rintro t ⟨a, ha, b, _, rfl⟩
  obtain ⟨c, u, rfl, hc⟩ := hL ha
  exact ⟨c, u ++ b, rfl, hc⟩

theorem Begins.nil_notMem (h : Begins p L) : [] ∉ L := by
  intro hnil
  obtain ⟨c, u, heq, _⟩ := h hnil
  cases heq

theorem Begins.heads (h : Begins p L) : Heads p L := by
  intro c u ht
  obtain ⟨d, v, heq, hd⟩ := h ht
  cases heq
  exact hd

theorem Heads.add_one (hL : Heads p L) : Heads p (L + 1) := by
  rintro c u (h | h)
  · exact hL h
  · cases h

theorem Heads.kstar (h : Heads p L) : Heads p L∗ := by
  intro c t ht
  obtain ⟨u, _, _, hu, _⟩ := cons_mem_kstar_iff.1 ht
  exact h hu

/-! ### Characters -/

theorem only_oneOf : Only p (oneOf p) := by
  rintro t ⟨c, hc, rfl⟩ d hd
  rwa [List.mem_singleton.1 hd]

theorem only_anyOf : Only p (anyOf p) := fun _ h => h

theorem only_someOf : Only p (someOf p) := fun _ h => h.2

theorem Only.mono (h : Only p L) (hpq : ∀ c, p c = true → q c = true) : Only q L :=
  fun _ ht c hc => hpq c (h ht c hc)

theorem Only.add (hL : Only p L) (hM : Only p M) : Only p (L + M) := by
  rintro t (h | h)
  · exact hL h
  · exact hM h

theorem Only.mul (hL : Only p L) (hM : Only p M) : Only p (L * M) := by
  rintro t ⟨a, ha, b, hb, rfl⟩ c hc
  rcases List.mem_append.1 hc with hc | hc
  · exact hL ha c hc
  · exact hM hb c hc

theorem Only.kstar (h : Only p L) : Only p L∗ := by
  rintro t ⟨parts, rfl, hparts⟩ c hc
  obtain ⟨a, ha, hc⟩ := List.mem_flatten.1 hc
  exact h (hparts a ha) c hc

theorem Only.one : Only p 1 := by
  intro t ht c hc
  rw [(Language.mem_one t).1 ht] at hc
  cases hc

theorem only_times {n : Nat} : Only p (times p n) := fun _ h => h.2

/-- A character outside the class is in no word. -/
theorem Only.avoid (h : Only p L) {c : Char} (hc : p c = false) :
    Only (fun d => !(d == c)) L := by
  refine h.mono fun d hd => ?_
  rw [Bool.not_eq_true', beq_eq_false_iff_ne]
  rintro rfl
  rw [hc] at hd
  cases hd

theorem ne_of_class {c : Char} (hc : p c = false) (d : Char) (hd : p d = true) :
    (d == c) = false := by
  rw [beq_eq_false_iff_ne]
  rintro rfl
  rw [hc] at hd
  cases hd

/-! ### Words that do not go on -/

theorem NoneBeyond.add (hM : NoneBeyond L M) (hN : NoneBeyond L N) : NoneBeyond L (M + N) := by
  rintro a v ha (h | h)
  · exact hM ha h
  · exact hN ha h

/-- Words that begin differently do not begin with each other. -/
theorem Begins.noneBeyond (hL : Begins p L) (hM : Heads q M)
    (hpq : ∀ c, p c = true → q c = false) : NoneBeyond L M := by
  intro a v ha hv
  obtain ⟨c, u, rfl, hc⟩ := hL ha
  have := hpq c hc
  rw [hM hv] at this
  cases this

/-- Words with a character that the others do not have are not where others begin. -/
theorem noneBeyond_of_mem {c : Char} (hL : ∀ a ∈ L, c ∈ a) (hM : Only p M)
    (hc : p c = false) : NoneBeyond L M := by
  intro a v ha hv
  have := hM hv c (List.mem_append_left _ (hL a ha))
  rw [hc] at this
  cases this

theorem PrefixFree.add (hL : PrefixFree L) (hM : PrefixFree M) (hLM : NoneBeyond L M)
    (hML : NoneBeyond M L) : PrefixFree (L + M) := by
  rintro a v (ha | ha) (hv | hv)
  · exact hL ha hv
  · exact hLM ha hv
  · exact hML ha hv
  · exact hM ha hv

/-- Where one text begins with two words, they are the same. -/
theorem PrefixFree.eq_of_append_eq (hL : PrefixFree L) {x x' y y' : Text} (hx : x ∈ L)
    (hx' : x' ∈ L) (h : x ++ y = x' ++ y') : x = x' ∧ y = y' := by
  have hsame : x = x' := by
    obtain ⟨w, rfl, _⟩ | ⟨w, rfl, _⟩ := List.append_eq_append_iff.1 h
    · rw [hL hx hx', List.append_nil]
    · rw [hL hx' hx, List.append_nil]
  refine ⟨hsame, ?_⟩
  rwa [hsame, List.append_cancel_left_eq] at h

theorem PrefixFree.mul (hL : PrefixFree L) (hM : PrefixFree M) : PrefixFree (L * M) := by
  rintro _ v ⟨a, ha, b, hb, rfl⟩ ⟨a', ha', b', hb', heq⟩
  obtain ⟨_, rfl⟩ := hL.eq_of_append_eq ha' ha (heq.trans (List.append_assoc ..))
  exact hM hb hb'

theorem prefixFree_of_length {n : Nat} (h : ∀ t ∈ L, t.length = n) : PrefixFree L := by
  intro a v ha hv
  have := h _ hv
  rw [List.length_append, h a ha] at this
  exact List.length_eq_zero_iff.1 (by omega)

theorem prefixFree_oneOf : PrefixFree (oneOf p) := by
  refine prefixFree_of_length (n := 1) ?_
  rintro t ⟨c, _, rfl⟩
  rfl

theorem prefixFree_singleton (t : Text) : PrefixFree {t} := by
  refine prefixFree_of_length (n := t.length) ?_
  rintro _ rfl
  rfl

theorem prefixFree_times {n : Nat} : PrefixFree (times p n) :=
  prefixFree_of_length fun _ h => h.1

theorem EndsAt.add {c : Char} (hL : EndsAt c L) (hM : EndsAt c M) : EndsAt c (L + M) := by
  rintro t (h | h)
  · exact hL h
  · exact hM h

theorem EndsAt.mul {c : Char} (hL : Only (fun d => !(d == c)) L) (hM : EndsAt c M) :
    EndsAt c (L * M) := by
  rintro t ⟨a, ha, b, hb, rfl⟩
  obtain ⟨w, rfl, hw⟩ := hM hb
  refine ⟨a ++ w, by simp, ?_⟩
  intro hmem
  rcases List.mem_append.1 hmem with hmem | hmem
  · have := hL ha c hmem
    simp at this
  · exact hw hmem

theorem endsAt_oneOf {c : Char} : EndsAt c (oneOf (· == c)) := by
  rintro t ⟨d, hd, rfl⟩
  exact ⟨[], by simpa using hd, List.not_mem_nil⟩

/-- Words with a mark at their end and nowhere else do not go on. -/
theorem EndsAt.noneBeyond {c : Char} (hL : EndsAt c L) (hM : EndsAt c M) : NoneBeyond L M := by
  intro a v ha hv
  obtain ⟨w, rfl, _⟩ := hL ha
  obtain ⟨w', heq, hw'⟩ := hM hv
  rcases List.eq_nil_or_concat v with rfl | ⟨u, d, rfl⟩
  · rfl
  · rw [List.concat_eq_append, ← List.append_assoc] at heq
    have hmem : c ∈ w' := by
      rw [← (List.append_inj' heq rfl).1]
      simp
    exact absurd hmem hw'

/-! ### Words that go on with other characters -/

theorem PrefixFree.separated (h : PrefixFree L) : Separated L M := by
  intro a c u b ha hu _
  cases h ha hu

/-- Where a first part does not go on, the second part decides. -/
theorem Separated.mul (hL : PrefixFree L) (hM : Separated M N) : Separated (L * M) N := by
  rintro _ c u b ⟨x, hx, y, hy, rfl⟩ ⟨x', hx', y', hy', heq⟩
  obtain ⟨_, rfl⟩ := hL.eq_of_append_eq hx' hx (heq.trans (List.append_assoc ..))
  exact hM hy hy'

/-- Words of a class go on with its characters only. -/
theorem separated_of_only (hL : Only p L) (hM : Heads q M)
    (hpq : ∀ c, p c = true → q c = false) : Separated L M := by
  intro a c u b _ hu hb
  have := hpq c (hL hu c (by simp))
  rw [hM hb] at this
  cases this

/-! ### Runs between other words -/

section Runs
variable (hbegins : Begins (fun c => !p c) M)

include hbegins in
/-- From the front of a repetition of runs and other words, characters of the runs can be taken
away. -/
theorem mem_kstar_of_run_append {v t : Text} (hv : ∀ c ∈ v, p c = true)
    (h : v ++ t ∈ (someOf p + M)∗) : t ∈ (someOf p + M)∗ := by
  induction v with
  | nil => exact h
  | cons c v ih =>
    refine ih (fun d hd => hv d (List.mem_cons_of_mem _ hd)) ?_
    rw [List.cons_append] at h
    obtain ⟨u, w, heq, hu, hw⟩ := cons_mem_kstar_iff.1 h
    rw [heq]
    rcases hu with hu | hu
    · cases u with
      | nil => exact hw
      | cons d u =>
        have hrun : d :: u ∈ someOf p :=
          ⟨List.cons_ne_nil _ _, fun e he => hu.2 e (List.mem_cons_of_mem _ he)⟩
        exact append_mem_kstar (.inl hrun) hw
    · have := hbegins.heads hu
      simp [hv c List.mem_cons_self] at this

variable (hbeyond : ∀ ⦃a v⦄, a ∈ M → a ++ v ∈ M → ∀ c ∈ v, p c = true)

include hbegins hbeyond in
/-- Words can be taken away from the front of a repetition, if the other words go on only with
characters of the runs. -/
theorem mem_kstar_of_append {a t : Text} (ha : a ∈ someOf p + M)
    (h : a ++ t ∈ (someOf p + M)∗) : t ∈ (someOf p + M)∗ := by
  rcases ha with ha | ha
  · exact mem_kstar_of_run_append hbegins ha.2 h
  · obtain ⟨c, a, rfl, hc⟩ := hbegins ha
    obtain ⟨u, w, heq, hu, hw⟩ := cons_mem_kstar_iff.1 h
    rcases hu with hu | hu
    · simp [begins_someOf.heads hu] at hc
    · -- both words begin the repetition, and one begins with the other
      obtain ⟨v, rfl, hv⟩ | ⟨v, rfl, hv⟩ := List.append_eq_append_iff.1 heq
      · rw [hv]
        by_cases hnil : v = []
        · rw [hnil]
          exact hw
        · have hrun : v ∈ someOf p := ⟨hnil, hbeyond ha hu⟩
          exact append_mem_kstar (.inl hrun) hw
      · rw [hv] at hw
        exact mem_kstar_of_run_append hbegins (hbeyond hu ha) hw

include hbegins hbeyond in
/-- Repetitions can be taken away from the front of a repetition. -/
theorem mem_kstar_of_kstar_append {a t : Text} (ha : a ∈ (someOf p + M)∗)
    (h : a ++ t ∈ (someOf p + M)∗) : t ∈ (someOf p + M)∗ := by
  obtain ⟨parts, rfl, hparts⟩ := Language.mem_kstar.1 ha
  clear ha
  induction parts with
  | nil => exact h
  | cons b parts ih =>
    refine ih (fun y hy => hparts y (List.mem_cons_of_mem _ hy)) ?_
    rw [List.flatten_cons, List.append_assoc] at h
    exact mem_kstar_of_append hbegins hbeyond (hparts b List.mem_cons_self) h

end Runs
end Words

/-! ## Recognizers -/

namespace Recognizer

open Words

/-- The recognizer accepts words of the language, and of those at the front of a text the longest
one. -/
structure TakesLongest (r : Recognizer) (L : Language Char) : Prop where
  splits : r.Splits
  mem : ∀ ⦃s m rest⦄, r s = some (m, rest) → m ∈ L
  longest : ∀ ⦃s t⦄, t ∈ L → t <+: s → ∃ m rest, r s = some (m, rest) ∧ t <+: m

variable {r q : Recognizer} {L M : Language Char} {p : Char → Bool}

namespace TakesLongest

/-- The words are just the texts that are accepted as a whole. -/
theorem mem_iff (h : TakesLongest r L) {t : Text} : t ∈ L ↔ r t = some (t, []) := by
  constructor
  · intro ht
    obtain ⟨m, rest, hr, hm⟩ := h.longest ht List.prefix_rfl
    have happ := h.splits hr
    obtain rfl : t = m := hm.eq_of_length_le (by rw [← happ]; simp)
    rw [hr, List.append_right_eq_self.1 happ]
  · intro ht
    exact h.mem ht

/-- Of words that do not go on, the one at the front of a text is taken whatever follows. -/
theorem append_of_prefixFree (h : TakesLongest r L) (hL : PrefixFree L) {t : Text} (ht : t ∈ L)
    (s : Text) : r (t ++ s) = some (t, s) := by
  obtain ⟨m, rest, hr, v, rfl⟩ := h.longest ht (List.prefix_append t s)
  have hv : v = [] := hL ht (h.mem hr)
  have happ := h.splits hr
  rw [hv, List.append_nil] at hr happ
  rw [hr, List.append_cancel_left happ]

end TakesLongest

theorem takesLongest_char (p : Char → Bool) : TakesLongest (char p) (oneOf p) where
  splits := splits_char p
  mem s m rest h := by
    obtain ⟨c, hc, rfl, _⟩ := char_eq_some_iff.1 h
    exact ⟨c, hc, rfl⟩
  longest := by
    rintro _ _ ⟨c, hc, rfl⟩ ⟨rest, rfl⟩
    exact ⟨[c], rest, char_eq_some_iff.2 ⟨c, hc, rfl, rfl⟩, List.prefix_rfl⟩

theorem takesLongest_exactly (t : Text) : TakesLongest (exactly t) {t} where
  splits := splits_exactly t
  mem s m rest h := (exactly_eq_some_iff.1 h).1
  longest := by
    rintro _ _ rfl ⟨rest, rfl⟩
    exact ⟨_, rest, exactly_eq_some_iff.2 ⟨rfl, rfl⟩, List.prefix_rfl⟩

/-- A beginning whose characters are of a class is part of the longest run. -/
theorem prefix_takeWhile {s t : Text} (ht : ∀ c ∈ t, p c = true) (hs : t <+: s) :
    t <+: s.takeWhile p := by
  obtain ⟨rest, rfl⟩ := hs
  rw [List.takeWhile_append_of_pos ht]
  exact List.prefix_append _ _

theorem takesLongest_run (p : Char → Bool) : TakesLongest (run p) (anyOf p) where
  splits := splits_run p
  mem s m rest h := by
    cases h
    exact fun c hc => List.mem_takeWhile_imp hc
  longest s t ht hs := ⟨s.takeWhile p, s.dropWhile p, rfl, prefix_takeWhile ht hs⟩

theorem takesLongest_run1 (p : Char → Bool) : TakesLongest (run1 p) (someOf p) where
  splits := splits_run1 p
  mem s m rest h := by
    obtain ⟨rfl, _, hne⟩ := run1_eq_some_iff.1 h
    exact ⟨hne, fun c hc => List.mem_takeWhile_imp hc⟩
  longest s t ht hs := by
    have hpre := prefix_takeWhile ht.2 hs
    refine ⟨s.takeWhile p, s.dropWhile p, run1_eq_some_iff.2 ⟨rfl, rfl, ?_⟩, hpre⟩
    intro hnil
    rw [hnil] at hpre
    exact ht.1 (List.prefix_nil.1 hpre)

theorem takesLongest_fail : TakesLongest fail 0 where
  splits := splits_fail
  mem _ _ _ h := nomatch h
  longest _ _ h := absurd h (Language.notMem_zero _)

theorem takesLongest_times (p : Char → Bool) (n : Nat) :
    TakesLongest (Recognizer.times p n) (Words.times p n) where
  splits := splits_times p n
  mem s m rest h := by
    induction n generalizing s m rest with
    | zero =>
      cases h
      exact ⟨rfl, nofun⟩
    | succ n ih =>
      cases s with
      | nil => cases h
      | cons c s =>
        simp only [Recognizer.times] at h
        split at h
        · next hc =>
          simp only [Option.map_eq_some_iff, Prod.mk.injEq, Prod.exists] at h
          obtain ⟨m', rest', h', rfl, rfl⟩ := h
          obtain ⟨hlen, hall⟩ := ih _ _ _ h'
          exact ⟨congrArg Nat.succ hlen, List.forall_mem_cons.2 ⟨hc, hall⟩⟩
        · cases h
  longest := by
    rintro _ t ⟨hlen, hall⟩ ⟨rest, rfl⟩
    refine ⟨t, rest, ?_, List.prefix_rfl⟩
    induction t generalizing n with
    | nil =>
      cases hlen
      rfl
    | cons c t ih =>
      cases hlen
      obtain ⟨hc, hall⟩ := List.forall_mem_cons.1 hall
      show (if p c then (Recognizer.times p t.length (t ++ rest)).map _ else none) = _
      rw [if_pos hc, ih t.length rfl hall]
      rfl

namespace TakesLongest

/-- A part followed by a part that depends on it. -/
theorem bind {q : Text → Recognizer} {M : Text → Language Char} (hr : TakesLongest r L)
    (hq : ∀ a, TakesLongest (q a) (M a))
    (hsep : ∀ ⦃a c u⦄, a ∈ L → a ++ c :: u ∈ L →
      (∀ b, c :: b ∉ M a) ∧ ([] ∈ M a → [] ∈ M (a ++ c :: u))) :
    TakesLongest (r.bind q) (Words.bind L M) where
  splits := hr.splits.bind fun a => (hq a).splits
  mem s m rest h := by
    obtain ⟨a, b, mid, ha, hb, rfl⟩ := bind_eq_some_iff.1 h
    exact ⟨a, hr.mem ha, b, (hq a).mem hb, rfl⟩
  longest := by
    rintro s _ ⟨a, ha, b, hb, rfl⟩ hs
    obtain ⟨m, mid, hm, v, rfl⟩ := hr.longest ha ((List.prefix_append a b).trans hs)
    have happ := hr.splits hm
    rw [← happ, List.append_assoc, List.prefix_append_right_inj] at hs
    cases v with
    | nil =>
      rw [List.append_nil] at hm
      obtain ⟨n, rest, hn, hpre⟩ := (hq a).longest hb hs
      exact ⟨a ++ n, rest, bind_eq_some_iff.2 ⟨a, n, mid, hm, hn, rfl⟩,
        (List.prefix_append_right_inj a).2 hpre⟩
    | cons c u =>
      -- the first part took more than `a`, so nothing of `b` can be left
      obtain ⟨hcons, hnil⟩ := hsep ha (hr.mem hm)
      cases b with
      | nil =>
        obtain ⟨n, rest, hn, _⟩ := (hq (a ++ c :: u)).longest (hnil hb) List.nil_prefix
        refine ⟨a ++ c :: u ++ n, rest, bind_eq_some_iff.2 ⟨_, n, mid, hm, hn, rfl⟩, ?_⟩
        rw [List.append_nil, List.append_assoc]
        exact List.prefix_append _ _
      | cons d b =>
        rw [List.cons_append, List.cons_prefix_cons] at hs
        rw [hs.1] at hb
        exact absurd hb (hcons b)

/-- A part followed by another one. -/
theorem andThen (hr : TakesLongest r L) (hq : TakesLongest q M) (hsep : Separated L M) :
    TakesLongest (r.andThen q) (L * M) := by
  have h := hr.bind (q := fun _ => q) (M := fun _ => M) (fun _ => hq)
    fun _ _ _ ha hu => ⟨fun _ hb => hsep ha hu hb, id⟩
  have hwords : Words.bind L (fun _ => M) = L * M := by
    refine Language.ext fun t => ?_
    constructor
    · rintro ⟨a, ha, b, hb, rfl⟩
      exact ⟨a, ha, b, hb, rfl⟩
    · rintro ⟨a, ha, b, hb, rfl⟩
      exact ⟨a, ha, b, hb, rfl⟩
  rwa [hwords] at h

/-- A choice. -/
theorem orElse (hr : TakesLongest r L) (hq : TakesLongest q M) (hbeyond : NoneBeyond L M) :
    TakesLongest (r.orElse q) (L + M) where
  splits := hr.splits.orElse hq.splits
  mem s m rest h := by
    rcases orElse_eq_some_iff.1 h with h | ⟨_, h⟩
    · exact .inl (hr.mem h)
    · exact .inr (hq.mem h)
  longest := by
    rintro s t (ht | ht) hs
    · obtain ⟨m, rest, hm, hpre⟩ := hr.longest ht hs
      exact ⟨m, rest, orElse_eq_some_iff.2 (.inl hm), hpre⟩
    · cases hm : r s with
      | none =>
        obtain ⟨m, rest, hn, hpre⟩ := hq.longest ht hs
        exact ⟨m, rest, orElse_eq_some_iff.2 (.inr ⟨hm, hn⟩), hpre⟩
      | some split =>
        obtain ⟨m, rest⟩ := split
        refine ⟨m, rest, orElse_eq_some_iff.2 (.inl hm), ?_⟩
        -- both stand at the front, and the word does not go beyond what was taken
        have hms : m <+: s := ⟨rest, hr.splits hm⟩
        rcases List.prefix_or_prefix_of_prefix hs hms with hpre | ⟨v, rfl⟩
        · exact hpre
        · rw [hbeyond (hr.mem hm) ht, List.append_nil]

/-- A part or nothing. -/
theorem optional (hr : TakesLongest r L) : TakesLongest r.optional (L + 1) :=
  hr.orElse
    { splits := fun _ _ _ h => by cases h; rfl
      mem := fun _ _ _ h => by cases h; rfl
      longest := by
        rintro s _ rfl _
        exact ⟨[], s, rfl, List.prefix_rfl⟩ }
    fun _ _ _ hv => (List.append_eq_nil_iff.1 hv).2

/-- A repetition.  The first part may be longer than the first part of the word that is looked
for; what the word has after it must be a repetition nevertheless. -/
theorem many (hr : TakesLongest r L) (hsplits : r.Splits) (hnil : [] ∉ L)
    (hrest : ∀ ⦃a v t⦄, a ∈ L → a ++ v ∈ L → v ++ t ∈ L∗ → t ∈ L∗) :
    TakesLongest (r.many hsplits) L∗ where
  splits := hsplits.many
  mem s m rest h := by
    fun_induction Recognizer.many r hsplits s generalizing m rest with
    | case1 => cases h; exact Language.nil_mem_kstar _
    | case2 => cases h; exact Language.nil_mem_kstar _
    | case3 s c a mid ha ih =>
      simp only [Option.map_eq_some_iff, Prod.mk.injEq, Prod.exists] at h
      obtain ⟨b, rest', h', rfl, rfl⟩ := h
      exact append_mem_kstar (hr.mem ha) (ih _ _ h')
  longest s t ht hs := by
    have hfirst : ∀ {c t s}, c :: t ∈ L∗ → c :: t <+: s → ∃ a m rest t',
        a ∈ L ∧ t' ∈ L∗ ∧ c :: t = a ++ t' ∧ r s = some (m, rest) ∧ a <+: m := by
      intro c t s ht hs
      obtain ⟨u, v, rfl, hu, hv⟩ := cons_mem_kstar_iff.1 ht
      obtain ⟨m, rest, hm, hpre⟩ :=
        hr.longest hu ((List.prefix_append (c :: u) v).trans hs)
      exact ⟨c :: u, m, rest, v, hu, hv, rfl, hm, hpre⟩
    fun_induction Recognizer.many r hsplits s generalizing t with
    | case1 s hs' =>
      cases t with
      | nil => exact ⟨[], s, rfl, List.prefix_rfl⟩
      | cons c t =>
        obtain ⟨_, _, _, _, _, _, _, hm, _⟩ := hfirst ht hs
        rw [hs'] at hm
        cases hm
    | case2 s rest hs' => exact absurd (hr.mem hs') hnil
    | case3 s c m mid hm ih =>
      cases t with
      | nil =>
        obtain ⟨n, rest, hn, _⟩ := ih _ (Language.nil_mem_kstar L) List.nil_prefix
        exact ⟨c :: m ++ n, rest, by rw [hn]; rfl, List.nil_prefix⟩
      | cons d t =>
        obtain ⟨a, _, _, t', ha, ht', heq, hm', v, hv⟩ := hfirst ht hs
        rw [hm] at hm'
        cases hm'
        have happ := hsplits hm
        rw [heq, ← happ, ← hv, List.append_assoc, List.prefix_append_right_inj] at hs
        -- what follows `a` in the word ends within the first part or goes beyond it
        rcases List.prefix_or_prefix_of_prefix hs (List.prefix_append v mid) with hin | ⟨w, rfl⟩
        · obtain ⟨n, rest, hn, _⟩ := ih _ (Language.nil_mem_kstar L) List.nil_prefix
          refine ⟨c :: m ++ n, rest, by rw [hn]; rfl, ?_⟩
          rw [heq]
          exact (((List.prefix_append_right_inj a).2 hin).trans (hv ▸ List.prefix_rfl)).trans
            (List.prefix_append _ _)
        · rw [List.prefix_append_right_inj] at hs
          obtain ⟨n, rest, hn, hpre⟩ := ih _ (hrest ha (hv ▸ hr.mem hm) ht') hs
          refine ⟨c :: m ++ n, rest, by rw [hn]; rfl, ?_⟩
          rw [heq, ← List.append_assoc, hv]
          exact (List.prefix_append_right_inj _).2 hpre

/-- A repetition of words that no word follows where they go on. -/
theorem many_of_separated (hr : TakesLongest r L) (hsplits : r.Splits) (hnil : [] ∉ L)
    (hsep : Separated L L) : TakesLongest (r.many hsplits) L∗ := by
  refine hr.many hsplits hnil ?_
  intro a v t ha hv ht
  cases v with
  | nil => exact ht
  | cons c v =>
    obtain ⟨u, _, _, hu, _⟩ := cons_mem_kstar_iff.1 ht
    exact absurd hu (hsep ha hv)

/-- A repetition of runs and other words, which go on only with characters of the runs. -/
theorem many_runs (hr : TakesLongest r (someOf p + M)) (hsplits : r.Splits)
    (hbegins : Begins (fun c => !p c) M)
    (hbeyond : ∀ ⦃a v⦄, a ∈ M → a ++ v ∈ M → ∀ c ∈ v, p c = true) :
    TakesLongest (r.many hsplits) (someOf p + M)∗ := by
  refine hr.many hsplits ?_ ?_
  · rintro (h | h)
    · exact begins_someOf.nil_notMem h
    · exact hbegins.nil_notMem h
  · intro a v t ha hv ht
    refine mem_kstar_of_append hbegins hbeyond hv ?_
    rw [List.append_assoc]
    exact append_mem_kstar ha ht

end TakesLongest
end Recognizer
end LayoutLexer

import LayoutLexer.Text

/-! # Recognizers

A recognizer looks at the front of a text and either fails or splits the text into the part it
accepts and the rest.  The combinators below commit to the first choice that succeeds and
repeat as often as they can; none of them looks back.  Each keeps the property `Splits`: the
accepted part followed by the rest is the text that was given.
-/
namespace LayoutLexer

/-- Splits off an accepted beginning of a text, or fails. -/
abbrev Recognizer := Text → Option (Text × Text)

namespace Recognizer

/-- Accepts one character of a class. -/
def char (p : Char → Bool) : Recognizer
  | [] => none
  | c :: rest => if p c then some ([c], rest) else none

/-- Accepts one given text. -/
def exactly (t : Text) : Recognizer := fun s => (Text.after? t s).map fun rest => (t, rest)

/-- Accepts the longest run of characters of a class, which may be empty. -/
def run (p : Char → Bool) : Recognizer := fun s => some (s.takeWhile p, s.dropWhile p)

/-- Accepts the longest run of characters of a class if it is not empty. -/
def run1 (p : Char → Bool) : Recognizer
  | [] => none
  | c :: rest => if p c then some (c :: rest.takeWhile p, rest.dropWhile p) else none

/-- Accepts a fixed number of characters of a class. -/
def times (p : Char → Bool) : Nat → Recognizer
  | 0, s => some ([], s)
  | _ + 1, [] => none
  | n + 1, c :: rest =>
    if p c then (times p n rest).map fun (m, rest) => (c :: m, rest) else none

/-- Accepts what `r` accepts followed by what the recognizer chosen for it accepts. -/
def bind (r : Recognizer) (q : Text → Recognizer) : Recognizer := fun s =>
  match r s with
  | none => none
  | some (m, rest) => (q m rest).map fun (n, rest) => (m ++ n, rest)

/-- Accepts a part for `r` followed by a part for `q`. -/
def andThen (r q : Recognizer) : Recognizer := r.bind fun _ => q

/-- Accepts what `r` accepts, and what `q` accepts where `r` fails. -/
def orElse (r q : Recognizer) : Recognizer := fun s =>
  match r s with
  | some split => some split
  | none => q s

/-- Accepts what `r` accepts, and nothing where `r` fails. -/
def optional (r : Recognizer) : Recognizer := r.orElse fun s => some ([], s)

/-- Accepts nothing at all. -/
def fail : Recognizer := fun _ => none

/-! ## The parts make up the text -/

/-- Whatever `r` accepts, followed by the rest, is the text it was given. -/
def Splits (r : Recognizer) : Prop := ∀ ⦃s m rest : Text⦄, r s = some (m, rest) → m ++ rest = s

theorem char_eq_some_iff {p : Char → Bool} {s m rest : Text} :
    char p s = some (m, rest) ↔ ∃ c, p c ∧ m = [c] ∧ s = c :: rest := by
  cases s with
  | nil => simp [char]
  | cons d s =>
    by_cases h : p d
    · simp only [char, h, if_true, Option.some.injEq, Prod.mk.injEq]
      constructor
      · rintro ⟨rfl, rfl⟩; exact ⟨d, h, rfl, rfl⟩
      · rintro ⟨c, _, rfl, hs⟩; cases hs; exact ⟨rfl, rfl⟩
    · simp only [char, h]
      constructor
      · simp
      · rintro ⟨c, hc, _, hs⟩; cases hs; exact absurd hc h

theorem exactly_eq_some_iff {t s m rest : Text} :
    exactly t s = some (m, rest) ↔ m = t ∧ s = t ++ rest := by
  simp only [exactly, Option.map_eq_some_iff, Text.after?_eq_some_iff, Prod.mk.injEq]
  constructor
  · rintro ⟨r, rfl, rfl, rfl⟩; exact ⟨rfl, rfl⟩
  · rintro ⟨rfl, rfl⟩; exact ⟨rest, rfl, rfl, rfl⟩

theorem run1_eq_some_iff {p : Char → Bool} {s m rest : Text} :
    run1 p s = some (m, rest) ↔ m = s.takeWhile p ∧ rest = s.dropWhile p ∧ m ≠ [] := by
  cases s with
  | nil =>
    simp only [run1, List.takeWhile_nil, List.dropWhile_nil, reduceCtorEq, false_iff]
    exact fun h => h.2.2 h.1
  | cons c s =>
    by_cases h : p c
    · simp only [run1, h, if_true, Option.some.injEq, Prod.mk.injEq, List.takeWhile_cons_of_pos,
        List.dropWhile_cons_of_pos]
      constructor
      · rintro ⟨rfl, rfl⟩; simp
      · rintro ⟨rfl, rfl, _⟩; simp
    · simp only [run1, h, List.takeWhile_cons, List.dropWhile_cons]
      simp only [Bool.false_eq_true, if_false, false_iff, reduceCtorEq]
      rintro ⟨rfl, _, hm⟩
      exact hm rfl

theorem bind_eq_some_iff {r : Recognizer} {q : Text → Recognizer} {s m rest : Text} :
    r.bind q s = some (m, rest) ↔
      ∃ a b mid, r s = some (a, mid) ∧ q a mid = some (b, rest) ∧ m = a ++ b := by
  unfold bind
  cases h : r s with
  | none => simp
  | some split =>
    obtain ⟨a, mid⟩ := split
    simp only [Option.map_eq_some_iff, Prod.mk.injEq, Prod.exists, Option.some.injEq]
    constructor
    · rintro ⟨b, t, hq, rfl, rfl⟩; exact ⟨a, b, mid, ⟨rfl, rfl⟩, hq, rfl⟩
    · rintro ⟨a', b, mid', ⟨rfl, rfl⟩, hq, rfl⟩; exact ⟨b, rest, hq, rfl, rfl⟩

theorem andThen_eq_some_iff {r q : Recognizer} {s m rest : Text} :
    r.andThen q s = some (m, rest) ↔
      ∃ a b mid, r s = some (a, mid) ∧ q mid = some (b, rest) ∧ m = a ++ b :=
  bind_eq_some_iff

theorem orElse_eq_some_iff {r q : Recognizer} {s m rest : Text} :
    r.orElse q s = some (m, rest) ↔
      r s = some (m, rest) ∨ r s = none ∧ q s = some (m, rest) := by
  unfold orElse
  cases h : r s <;> simp

theorem splits_char (p : Char → Bool) : (char p).Splits := by
  intro s m rest h
  obtain ⟨c, _, rfl, rfl⟩ := char_eq_some_iff.1 h
  rfl

theorem splits_exactly (t : Text) : (exactly t).Splits := by
  intro s m rest h
  obtain ⟨rfl, rfl⟩ := exactly_eq_some_iff.1 h
  rfl

theorem splits_run (p : Char → Bool) : (run p).Splits := by
  intro s m rest h
  simp only [run, Option.some.injEq, Prod.mk.injEq] at h
  obtain ⟨rfl, rfl⟩ := h
  exact List.takeWhile_append_dropWhile

theorem splits_run1 (p : Char → Bool) : (run1 p).Splits := by
  intro s m rest h
  obtain ⟨rfl, rfl, _⟩ := run1_eq_some_iff.1 h
  exact List.takeWhile_append_dropWhile

theorem splits_times (p : Char → Bool) (n : Nat) : (times p n).Splits := by
  induction n with
  | zero =>
    intro s m rest h
    simp only [times, Option.some.injEq, Prod.mk.injEq] at h
    obtain ⟨rfl, rfl⟩ := h
    rfl
  | succ n ih =>
    intro s m rest h
    cases s with
    | nil => simp [times] at h
    | cons c s =>
      by_cases hc : p c
      · simp only [times, hc, if_true, Option.map_eq_some_iff, Prod.mk.injEq, Prod.exists] at h
        obtain ⟨m', rest', h', rfl, rfl⟩ := h
        simp [ih h']
      · simp [times, hc] at h

theorem Splits.bind {r : Recognizer} {q : Text → Recognizer} (hr : r.Splits)
    (hq : ∀ m, (q m).Splits) : (r.bind q).Splits := by
  intro s m rest h
  obtain ⟨a, b, mid, ha, hb, rfl⟩ := bind_eq_some_iff.1 h
  rw [List.append_assoc, hq a hb, hr ha]

theorem Splits.andThen {r q : Recognizer} (hr : r.Splits) (hq : q.Splits) :
    (r.andThen q).Splits := hr.bind fun _ => hq

theorem Splits.orElse {r q : Recognizer} (hr : r.Splits) (hq : q.Splits) :
    (r.orElse q).Splits := by
  intro s m rest h
  rcases orElse_eq_some_iff.1 h with h | ⟨_, h⟩
  · exact hr h
  · exact hq h

theorem Splits.optional {r : Recognizer} (hr : r.Splits) : r.optional.Splits :=
  hr.orElse fun _ _ _ h => by cases h; rfl

theorem splits_fail : fail.Splits := fun _ _ _ h => nomatch h

/-- A split leaves no more than there was. -/
theorem Splits.length_le {r : Recognizer} (hr : r.Splits) {s m rest : Text}
    (h : r s = some (m, rest)) : rest.length ≤ s.length := by
  rw [← hr h]; simp

/-- A nonempty split leaves less than there was. -/
theorem Splits.length_lt {r : Recognizer} (hr : r.Splits) {s m rest : Text}
    (h : r s = some (m, rest)) (hm : m ≠ []) : rest.length < s.length := by
  rw [← hr h]
  have := List.length_pos_iff.2 hm
  simp; omega

/-! ## Repetition -/

/-- Accepts parts for `r` as long as there are nonempty ones.  Each part leaves less of the
text, because with its rest it makes up the text. -/
def many (r : Recognizer) (hr : r.Splits) : Recognizer := fun s =>
  match _h : r s with
  | none | some ([], _) => some ([], s)
  | some (c :: m, rest) => (many r hr rest).map fun (n, rest) => (c :: m ++ n, rest)
termination_by s => s.length
decreasing_by exact hr.length_lt _h (List.cons_ne_nil c m)

theorem Splits.many {r : Recognizer} (hr : r.Splits) : (r.many hr).Splits := by
  intro s m rest h
  fun_induction Recognizer.many r hr s generalizing m rest with
  | case1 => cases h; rfl
  | case2 => cases h; rfl
  | case3 s c a mid ha ih =>
    simp only [Option.map_eq_some_iff, Prod.mk.injEq, Prod.exists] at h
    obtain ⟨b, rest', h', rfl, rfl⟩ := h
    rw [List.append_assoc, ih h', hr ha]

end Recognizer
end LayoutLexer

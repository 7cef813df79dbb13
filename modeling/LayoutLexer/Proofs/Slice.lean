import LayoutLexer.Text

/-! # Slices by byte offsets

Tokens and diagnostics name a piece of the text by the number of bytes before its first
character and before its end.  Taking such a piece can fail: an offset may lie behind the end
of the text, within a character, or the end may come before the start.  A slice exists exactly
where the text falls into three parts whose lengths are the two offsets (`slice?_eq_some_iff`),
so a proof about offsets is a proof about how a text is put together.
-/
namespace LayoutLexer
namespace Text

/-- The beginning of a text with a given number of bytes and what follows it.  There is none if
the text is shorter or a character goes on at that place. -/
def splitAt? : Text → Nat → Option (Text × Text)
  | s, 0 => some ([], s)
  | [], _ + 1 => none
  | c :: s, n + 1 =>
    if c.utf8Size ≤ n + 1 then
      (splitAt? s (n + 1 - c.utf8Size)).map fun (before, after) => (c :: before, after)
    else none

/-- The piece of a text from one offset to another. -/
def slice? (t : Text) (start finish : Nat) : Option Text :=
  if start ≤ finish then
    (t.splitAt? start).bind fun (_, after) => (after.splitAt? (finish - start)).map Prod.fst
  else none

theorem splitAt?_eq_some_iff {t : Text} {n : Nat} {before after : Text} :
    t.splitAt? n = some (before, after) ↔ t = before ++ after ∧ before.byteLength = n := by
  induction t generalizing n before with
  | nil =>
    cases n with
    | zero =>
      simp only [splitAt?, Option.some.injEq, Prod.mk.injEq, List.nil_eq_append_iff]
      constructor
      · rintro ⟨rfl, rfl⟩
        simp
      · rintro ⟨⟨rfl, rfl⟩, _⟩
        simp
    | succ n =>
      simp only [splitAt?, reduceCtorEq, List.nil_eq_append_iff, false_iff]
      rintro ⟨⟨rfl, rfl⟩, hn⟩
      simp at hn
  | cons c t ih =>
    have hpos := c.utf8Size_pos
    cases n with
    | zero =>
      simp only [splitAt?, Option.some.injEq, Prod.mk.injEq, byteLength_eq_zero_iff]
      constructor
      · rintro ⟨rfl, rfl⟩
        simp
      · rintro ⟨h, rfl⟩
        exact ⟨rfl, h⟩
    | succ n =>
      rw [splitAt?]
      constructor
      · intro h
        split at h
        · next hle =>
          simp only [Option.map_eq_some_iff, Prod.mk.injEq, Prod.exists] at h
          obtain ⟨b, a, hb, rfl, rfl⟩ := h
          obtain ⟨rfl, hlen⟩ := ih.1 hb
          exact ⟨rfl, by rw [byteLength_cons]; omega⟩
        · cases h
      · rintro ⟨h, hlen⟩
        cases before with
        | nil => simp at hlen
        | cons d before =>
          -- the character at the front is the first of the beginning
          cases h
          rw [byteLength_cons] at hlen
          rw [if_pos (by omega), ih.2 ⟨rfl, show byteLength before = n + 1 - c.utf8Size by omega⟩]
          rfl

/-- A slice is the middle of three parts of the text, of which the first and the first two
together are as long as the offsets say. -/
theorem slice?_eq_some_iff {t : Text} {start finish : Nat} {m : Text} :
    t.slice? start finish = some m ↔
      ∃ before after, t = before ++ (m ++ after) ∧ before.byteLength = start ∧
        start + m.byteLength = finish := by
  unfold slice?
  constructor
  · intro h
    split at h
    · next hle =>
      simp only [Option.bind_eq_some_iff, Option.map_eq_some_iff, Prod.exists] at h
      obtain ⟨before, rest, hbefore, m', after, hm, rfl⟩ := h
      obtain ⟨rfl, hstart⟩ := splitAt?_eq_some_iff.1 hbefore
      obtain ⟨rfl, hlen⟩ := splitAt?_eq_some_iff.1 hm
      exact ⟨before, after, rfl, hstart, by omega⟩
    · cases h
  · rintro ⟨before, after, rfl, rfl, rfl⟩
    have hm : (m ++ after).splitAt? (before.byteLength + m.byteLength - before.byteLength) =
        some (m, after) :=
      splitAt?_eq_some_iff.2 ⟨rfl, by omega⟩
    rw [if_pos (Nat.le_add_right _ _), splitAt?_eq_some_iff.2 ⟨rfl, rfl⟩, Option.bind_some]
    show Option.map Prod.fst ((m ++ after).splitAt? _) = some m
    rw [hm]
    rfl

/-- The part after a beginning is the slice from its length on. -/
theorem slice?_append_left (before after : Text) :
    (before ++ after).slice? before.byteLength (before ++ after).byteLength = some after :=
  slice?_eq_some_iff.2 ⟨before, [], by simp, rfl, by simp⟩

/-- A slice within a character does not exist: `é` takes two bytes. -/
example : slice? ['é', 'a'] 1 3 = none ∧ slice? ['é', 'a'] 2 3 = some ['a'] := by decide

/-! ## Beginnings of a text -/

/-- Of two beginnings of a text the one with fewer bytes is the one with fewer characters. -/
theorem byteLength_lt_iff {a b x y : Text} (h : a ++ x = b ++ y) :
    a.byteLength < b.byteLength ↔ a.length < b.length := by
  rcases List.append_eq_append_iff.1 h with ⟨e, rfl, _⟩ | ⟨e, rfl, _⟩
  · have hzero := @byteLength_eq_zero_iff e
    rw [← List.length_eq_zero_iff] at hzero
    rw [byteLength_append, List.length_append]
    omega
  · rw [byteLength_append, List.length_append]
    omega

/-- A beginning of a text is told by its number of bytes. -/
theorem eq_of_byteLength_eq {a b x y : Text} (h : a ++ x = b ++ y)
    (hlength : a.byteLength = b.byteLength) : a = b ∧ x = y := by
  have ha : splitAt? (a ++ x) b.byteLength = some (a, x) := splitAt?_eq_some_iff.2 ⟨rfl, hlength⟩
  have hb : splitAt? (a ++ x) b.byteLength = some (b, y) := splitAt?_eq_some_iff.2 ⟨h, rfl⟩
  exact Prod.mk.inj (Option.some.inj (ha.symm.trans hb))

theorem byteLength_le_of_prefix {q s : Text} (h : q <+: s) : q.byteLength ≤ s.byteLength := by
  obtain ⟨rest, rfl⟩ := h
  rw [byteLength_append]
  exact Nat.le_add_right _ _

/-- The beginning of a text with a number of bytes is a slice. -/
theorem slice?_zero_eq_some_iff {s q : Text} {n : Nat} :
    s.slice? 0 n = some q ↔ q <+: s ∧ q.byteLength = n := by
  rw [slice?_eq_some_iff]
  constructor
  · rintro ⟨before, after, rfl, hzero, hn⟩
    obtain rfl := byteLength_eq_zero_iff.1 hzero
    exact ⟨⟨after, rfl⟩, by omega⟩
  · rintro ⟨⟨after, rfl⟩, hn⟩
    exact ⟨[], after, rfl, rfl, by omega⟩

end Text
end LayoutLexer

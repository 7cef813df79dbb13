import LayoutLexer.Listing
import LayoutLexer.Proofs.Json.Grammar
import LayoutLexer.Proofs.Json.Value
import Mathlib.Tactic.SplitIfs

/-! # Reading back what was written

What the writer writes is read back by the grammar: a string is read as its text, decimal digits
as their number, an object as its members.  `Reads` says so of one written value wherever it
stands.  What follows it matters for numbers alone, which a digit, a point or an exponent would
prolong.
-/
namespace LayoutLexer
namespace Json

open Document

/-! ## Strings -/

/-- What the writer writes for a character stands for it. -/
theorem spells_writeChar (c : Char) : Spells (writeChar c) c := by
  unfold writeChar
  split_ifs with hquote hbackslash hb hf hn hr ht hcode
  iterate 7 subst c; exact .short (by decide)
  · have hhigh : c.toNat / 16 < 16 := by omega
    have hlow : c.toNat % 16 < 16 := by omega
    have hdigits : FourDigits ['0', '0', (c.toNat / 16).digitChar, (c.toNat % 16).digitChar]
        (((0 * 16 + 0) * 16 + c.toNat / 16) * 16 + c.toNat % 16) :=
      ⟨hexDigit_digitChar (n := 0) (by decide), hexDigit_digitChar (n := 0) (by decide),
        hexDigit_digitChar hhigh, hexDigit_digitChar hlow⟩
    rw [show ((0 * 16 + 0) * 16 + c.toNat / 16) * 16 + c.toNat % 16 = c.toNat by omega] at hdigits
    rw [Nat.toDigits_of_lt_base hhigh, Nat.toDigits_of_lt_base hlow]
    exact .code hdigits
  · exact .plain ⟨hquote, hbackslash, Nat.not_lt.1 hcode⟩

/-- The text of a string is read back up to its closing quote. -/
theorem readString_flatMap (t : Text) (rest : Document) :
    readString (ofText (t.flatMap writeChar ++ ['"']) ++ rest) = .ok (t, rest) := by
  have hparts : List.Forall₂ Spells (t.map writeChar) t :=
    List.forall₂_map_left_iff.2 (List.forall₂_same.2 fun c _ => spells_writeChar c)
  rw [List.flatMap_def]
  exact readString_spells hparts rest

/-! ## Values -/

/-- A written text is read as a value wherever it stands. -/
def Reads (written : Text) (v : Value) : Prop :=
  ∀ (opened : List Opened) (rest : Document), NumberEnds rest →
    read opened .value (ofText written ++ rest) = read opened (.after v) rest

/-- A value that is neither a list nor an object is read at once. -/
theorem read_scalar {opened : List Opened} {u : Option Char} {d rest : Document} {v : Value}
    (hblank : isBlank u = false) (hlist : u ≠ some '[') (hobject : u ≠ some '{')
    (h : readScalar u d = .ok (v, rest)) :
    read opened .value (u :: d) = read opened (.after v) rest := by
  rw [read]
  split
  · next hb => rw [skipBlanks_cons hblank] at hb; cases hb
  · next hb =>
    rw [skipBlanks_cons hblank] at hb
    cases hb
    rw [if_neg hlist, if_neg hobject]
    split
    · next hs => rw [h] at hs; cases hs
    · next hs => rw [h] at hs; cases hs; rfl

theorem reads_string (t : Text) : Reads (writeString t) (.string t) := by
  intro opened rest _
  rw [writeString, ofText_cons, List.cons_append]
  refine read_scalar (by decide) (by decide) (by decide) ?_
  rw [readScalar, if_pos rfl]
  exact Reader.map_eq_ok_iff.2 ⟨t, readString_flatMap t rest, rfl⟩

theorem reads_decimal (n : Nat) :
    Reads (Text.decimal n) (.number false ⟨digitValues n, none, none⟩) := by
  intro opened rest hends
  have hparts := numberParts_decimal n hends
  obtain ⟨c, ds, hn, hc⟩ := (unsignedText_decimal n).exists_cons
  rw [hn, ofText_cons, List.cons_append] at hparts ⊢
  refine read_scalar (isBlank_of_isDigit hc) (ne_of_isDigit hc rfl) (ne_of_isDigit hc rfl) ?_
  rw [readScalar, if_neg (ne_of_isDigit hc rfl), if_neg (ne_of_isDigit hc rfl), if_pos hc]
  exact Reader.map_eq_ok_iff.2 ⟨_, hparts, rfl⟩

/-! ## Objects -/

/-- A member of an object is written so, under its key and with its value. -/
def WritesMember (written : Text) (member : Text × Value) : Prop :=
  ∃ value, written = writeMember member.1 value ∧ Reads value member.2

/-- A written key and its colon are read back. -/
theorem readKey_writeMember (key value : Text) (rest : Document) :
    readKey (ofText (writeMember key value) ++ rest) = .ok (key, ofText value ++ rest) := by
  have hshape : ofText (writeMember key value) ++ rest =
      some '"' :: (ofText (key.flatMap writeChar ++ ['"']) ++
        some ':' :: (ofText value ++ rest)) := by
    simp [writeMember, writeString]
  rw [hshape, readKey, skipBlanks_cons rfl]
  simp only [readString_flatMap, skipBlanks_cons (show isBlank (some ':') = false from rfl)]

theorem read_key {opened : List Opened} {members : List (Text × Value)} {d rest : Document}
    {key : Text} (h : readKey d = .ok (key, rest)) :
    read opened (.key members) d = read (.object members key :: opened) .value rest := by
  conv_lhs => rw [read]
  split
  · next hk => rw [h] at hk; cases hk
  · next hk => rw [h] at hk; cases hk; rfl

section After
variable (outer : List Opened) (members : List (Text × Value)) (key : Text) (v : Value)
  (rest : Document)

theorem read_comma :
    read (.object members key :: outer) (.after v) (some ',' :: rest) =
      read outer (.key (members ++ [(key, v)])) rest := by
  conv_lhs => rw [read, skipBlanks_cons rfl]
  rfl

theorem read_brace :
    read (.object members key :: outer) (.after v) (some '}' :: rest) =
      read outer (.after (.object (members ++ [(key, v)]))) rest := by
  conv_lhs => rw [read, skipBlanks_cons rfl]
  rfl

end After

/-- Written members, with commas between them and a brace at the end, are read into their
object, after the members that were read before. -/
theorem read_members {written : Text} {member : Text × Value} {more : List Text}
    {members : List (Text × Value)} (hmember : WritesMember written member)
    (hmembers : List.Forall₂ WritesMember more members) (opened : List Opened)
    (done : List (Text × Value)) (rest : Document) :
    read opened (.key done) (ofText ([','].intercalate (written :: more) ++ ['}']) ++ rest) =
      read opened (.after (.object (done ++ member :: members))) rest := by
  induction hmembers generalizing written member done with
  | nil =>
    obtain ⟨value, rfl, hvalue⟩ := hmember
    rw [List.intercalate_singleton, ofText_concat, List.append_assoc,
      read_key (readKey_writeMember member.1 value _), ofText_cons, List.cons_append,
      hvalue _ _ (numberEnds_cons (u := some '}') rfl (by decide))]
    exact read_brace opened done member.1 member.2 rest
  | @cons next member' more members hnext _ ih =>
    obtain ⟨value, rfl, hvalue⟩ := hmember
    rw [List.intercalate_cons_cons, List.append_assoc, List.append_assoc, ofText_concat,
      List.append_assoc, read_key (readKey_writeMember member.1 value _), List.singleton_append,
      ofText_cons, List.cons_append, hvalue _ _ (numberEnds_cons (u := some ',') rfl (by decide)),
      read_comma, ih hnext, List.append_assoc]
    rfl

/-- Members that are read back make up an object that is. -/
theorem reads_object {written : List Text} {members : List (Text × Value)}
    (h : List.Forall₂ WritesMember written members) :
    Reads (writeObject written) (.object members) := by
  intro opened rest _
  rw [writeObject, ofText_cons, List.cons_append]
  cases h with
  | nil =>
    conv_lhs => rw [read, skipBlanks_cons rfl]
    rfl
  | @cons first member more members hfirst hmore =>
    obtain ⟨tail, htail⟩ : ∃ tail, [','].intercalate (first :: more) ++ ['}'] = '"' :: tail := by
      obtain ⟨value, rfl, -⟩ := hfirst
      rw [writeMember, writeString, List.cons_append, List.intercalate_cons_cons_left]
      exact ⟨_, rfl⟩
    have hopen : read opened .value (some '{' :: (ofText ([','].intercalate (first :: more) ++
        ['}']) ++ rest)) =
          read opened (.key []) (ofText ([','].intercalate (first :: more) ++ ['}']) ++ rest) := by
      rw [htail, ofText_cons, List.cons_append]
      conv_lhs => rw [read, skipBlanks_cons rfl]
      rfl
    rw [hopen, read_members hfirst hmore opened [] rest]
    rfl

/-- A written value alone is a document with that value. -/
theorem parse_eq_ok {written : Text} {v : Value} (h : Reads written v) :
    parse written = .ok v := by
  have hread := h [] [] (by intro u hu; cases hu)
  rw [List.append_nil] at hread
  rw [parse, hread, read]
  rfl

end Json
end LayoutLexer

import LayoutLexer.Proofs.CharClass
import LayoutLexer.Text.Quoted
import Mathlib.Tactic.SplitIfs

/-! # Quoted texts are read back

A text that is shown between double quotes can be read back, whatever characters it has: an
escape tells its character and where it ends, every other character stands for itself, and the
closing quote is the first one that belongs to no escape.  So no two texts are shown alike,
and no text, however it looks, passes for the escapes of another one.
-/
namespace LayoutLexer
namespace Text

open CharClass (digitValue? digitValue?_digitChar)

/-! ## Hexadecimal digits -/

/-- The number that hexadecimal digits denote. -/
def hexNumber (digits : Text) : Nat :=
  digits.foldl (fun n c => n * 16 + (digitValue? c).getD 0) 0

/-- The hexadecimal digits of a number are read back as the number. -/
theorem hexNumber_toDigits (n : Nat) : hexNumber (Nat.toDigits 16 n) = n := by
  induction n using Nat.strongRecOn with
  | ind n ih =>
    rw [Nat.toDigits_eq_if (by decide)]
    split
    · next h => simp [hexNumber, digitValue?_digitChar h]
    · next h =>
      have hprev := ih (n / 16) (by omega)
      have hlast := digitValue?_digitChar (Nat.mod_lt n (by decide : 0 < 16))
      rw [hexNumber] at hprev ⊢
      rw [List.foldl_append, hprev]
      simp only [List.foldl_cons, List.foldl_nil, hlast, Option.getD_some]
      omega

/-- What holds of the sixteen digits holds of all hexadecimal digits of a number. -/
theorem forall_mem_hexDigits {p : Char → Prop} (h : ∀ k < 16, p k.digitChar) (n : Nat) :
    ∀ c ∈ Nat.toDigits 16 n, p c := by
  induction n using Nat.strongRecOn with
  | ind n ih =>
    rw [Nat.toDigits_eq_if (by decide)]
    split
    · next hn => simpa using h n hn
    · next hn =>
      intro c hc
      rcases List.mem_append.1 hc with hc | hc
      · exact ih (n / 16) (by omega) c hc
      · rw [List.mem_singleton.1 hc]
        exact h _ (Nat.mod_lt n (by decide))

/-! ## Characters -/

/-- What stands before the first occurrence of a character, and what stands after it. -/
def cut (c : Char) (t : Text) : Text × Text := (t.takeWhile (· != c), (t.dropWhile (· != c)).tail)

theorem cut_append {c : Char} {s : Text} (h : ∀ d ∈ s, d ≠ c) (t : Text) :
    cut c (s ++ c :: t) = (s, t) := by
  have hs : ∀ d ∈ s, (d != c) = true := fun d hd => bne_iff_ne.2 (h d hd)
  rw [cut, List.takeWhile_append_of_pos hs, List.dropWhile_append_of_pos hs]
  simp

/-- The character with which a shown text begins, and what is shown after it. -/
def shownChar? : Text → Option (Char × Text)
  | [] => none
  | ['\\'] => none
  | '\\' :: '0' :: rest => some ('\x00', rest)
  | '\\' :: 't' :: rest => some ('\t', rest)
  | '\\' :: 'n' :: rest => some ('\n', rest)
  | '\\' :: 'r' :: rest => some ('\r', rest)
  | '\\' :: 'u' :: '{' :: rest => some (.ofNat (hexNumber (cut '}' rest).1), (cut '}' rest).2)
  | '\\' :: c :: rest => some (c, rest)
  | c :: rest => some (c, rest)

/-- A character is read back as it is shown, whatever is shown after it. -/
theorem shownChar?_quotedChar (c : Char) (rest : Text) :
    shownChar? (quotedChar '"' c ++ rest) = some (c, rest) := by
  unfold quotedChar
  split_ifs with hnul htab hfeed hreturn hbackslash hquote hcode
  iterate 6 subst c; rfl
  · have hcut := cut_append (c := '}') (forall_mem_hexDigits (by decide) c.toNat) rest
    rw [List.append_assoc, List.append_assoc]
    show some (Char.ofNat (hexNumber (cut '}' (Nat.toDigits 16 c.toNat ++ '}' :: rest)).1),
      (cut '}' (Nat.toDigits 16 c.toNat ++ '}' :: rest)).2) = some (c, rest)
    rw [hcut, hexNumber_toDigits, Char.ofNat_toNat]
  · rw [List.singleton_append]
    unfold shownChar?
    split <;> simp_all

/-- What is shown of a character takes room. -/
theorem length_shownChar?_lt {s rest : Text} {c : Char} (h : shownChar? s = some (c, rest)) :
    rest.length < s.length := by
  unfold shownChar? at h
  split at h <;> cases h
  case h_7 rest =>
    have hle := (List.dropWhile_sublist (l := rest) (· != '}')).length_le
    simp only [cut, List.length_tail, List.length_cons]
    omega
  all_goals simp only [List.length_cons]; omega

/-! ## Texts -/

/-- The text that is shown up to a closing quote, after which there must be nothing. -/
def shownText? (s : Text) : Option Text :=
  if s = ['"'] then some []
  else if s.head? = some '"' then none
  else
    match _h : shownChar? s with
    | none => none
    | some (c, rest) => (shownText? rest).map (c :: ·)
termination_by s.length
decreasing_by exact length_shownChar?_lt _h

/-- A character that is shown before a text belongs to it: no closing quote begins so. -/
theorem shownText?_quotedChar (c : Char) {s t : Text} (h : shownText? s = some t) :
    shownText? (quotedChar '"' c ++ s) = some (c :: t) := by
  have hhead : (quotedChar '"' c ++ s).head? ≠ some '"' := by
    unfold quotedChar
    split_ifs <;> simp_all
  have hclose : quotedChar '"' c ++ s ≠ ['"'] := by
    intro heq
    rw [heq] at hhead
    exact hhead rfl
  have hchar := shownChar?_quotedChar c s
  rw [shownText?, if_neg hclose, if_neg hhead]
  split
  · next hnone => rw [hchar] at hnone; cases hnone
  · next hsome => rw [hchar] at hsome; cases hsome; rw [h]; rfl

/-- The text between double quotes. -/
def unquote? : Text → Option Text
  | '"' :: rest => shownText? rest
  | _ => none

/-- A quoted text is read back. -/
theorem unquote?_quoted (t : Text) : unquote? t.quoted = some t := by
  show shownText? (t.flatMap (quotedChar '"') ++ ['"']) = some t
  induction t with
  | nil => rw [shownText?]; rfl
  | cons c t ih =>
    rw [List.flatMap_cons, List.append_assoc]
    exact shownText?_quotedChar c ih

end Text
end LayoutLexer

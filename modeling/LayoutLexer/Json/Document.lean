import LayoutLexer.Text

/-! # Documents

A document is what a reader of JSON sees: characters, and bytes that are part of no character.
A text has only characters.  A sequence of bytes is decoded as UTF-8; each byte at which no
well-formed sequence begins is kept as a stray byte, so that a reader can pass over it where
it does not matter.
-/
namespace LayoutLexer
namespace Json

/-- Characters, and `none` for each stray byte. -/
abbrev Document := List (Option Char)

namespace Document

/-- A text as a document. -/
def ofText (t : Text) : Document := t.map some

/-- The text of a document without stray bytes. -/
def text? : Document → Option Text
  | [] => some []
  | none :: _ => none
  | some c :: rest => (text? rest).map (c :: ·)

/-- The number of bytes of one unit. -/
def unitBytes : Option Char → Nat
  | some c => c.utf8Size
  | none => 1

/-- Whether a document has at least a number of bytes. -/
def hasBytes : Nat → Document → Bool
  | 0, _ => true
  | _ + 1, [] => false
  | n + 1, u :: rest => hasBytes (n + 1 - unitBytes u) rest

/-- The bits of a continuation byte. -/
def continuation? (b : Nat) : Option Nat :=
  if 0x80 ≤ b ∧ b < 0xc0 then some (b - 0x80) else none

/-- The bits of all bytes if they are continuation bytes, after leading bits. -/
def continued? (leading : Nat) : List Nat → Option Nat
  | [] => some leading
  | b :: rest => (continuation? b).bind fun bits => continued? (leading * 64 + bits) rest

/-- The number of continuation bytes after a leading byte, its bits, and the least code point
that needs so many bytes. -/
def leading? (b : Nat) : Option (Nat × Nat × Nat) :=
  if b < 0x80 then some (0, b, 0)
  else if 0xc0 ≤ b ∧ b < 0xe0 then some (1, b - 0xc0, 0x80)
  else if 0xe0 ≤ b ∧ b < 0xf0 then some (2, b - 0xe0, 0x800)
  else if 0xf0 ≤ b ∧ b < 0xf8 then some (3, b - 0xf0, 0x10000)
  else none

/-- The character that a leading byte begins, and how many bytes it takes after that byte. -/
def character? (b : Nat) (rest : List Nat) : Option (Char × Nat) :=
  match leading? b with
  | none => none
  | some (count, bits, least) =>
    if rest.length < count then none
    else
      match continued? bits (rest.take count) with
      | none => none
      | some n => if least ≤ n ∧ n.isValidChar then some (Char.ofNat n, count) else none

/-- Bytes as a document. -/
def ofBytes : List Nat → Document
  | [] => []
  | b :: rest =>
    match character? b rest with
    | none => none :: ofBytes rest
    | some (c, count) => some c :: ofBytes (rest.drop count)
termination_by bytes => bytes.length

theorem text?_ofText (t : Text) : (ofText t).text? = some t := by
  induction t with
  | nil => rfl
  | cons c t ih =>
    simp only [ofText] at ih
    simp [ofText, text?, ih]

end Document
end Json
end LayoutLexer

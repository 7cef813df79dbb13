import LayoutLexer.CharClass
import LayoutLexer.Json.Reader

/-! # Strings in JSON

A string that is wanted is decoded: its escapes stand for characters, a code beyond the basic
plane is a pair of escapes, and a stray byte makes it malformed once it has ended.  A string
that is passed over may hold unpaired surrogates and stray bytes.
-/
namespace LayoutLexer
namespace Json

/-- The character of an escape of one letter. -/
def simpleEscape? (c : Char) : Option Char :=
  if c = '"' ∨ c = '\\' ∨ c = '/' then some c
  else if c = 'b' then some '\x08'
  else if c = 'f' then some '\x0c'
  else if c = 'n' then some '\n'
  else if c = 'r' then some '\r'
  else if c = 't' then some '\t'
  else none

/-- The value of a hexadecimal digit. -/
def hexValue? : Option Char → Option Nat
  | some c => (CharClass.digitValue? c).bind fun n => if n < 16 then some n else none
  | none => none

/-- The value of four hexadecimal digits, which take four bytes. -/
def fourHex (d : Document) : Except ReadError Nat :=
  if !d.hasBytes 4 then .error .endOfInput
  else
    match d with
    | a :: b :: c :: e :: _ =>
      match hexValue? a, hexValue? b, hexValue? c, hexValue? e with
      | some a, some b, some c, some e => .ok (((a * 16 + b) * 16 + c) * 16 + e)
      | _, _, _, _ => .error .malformed
    | _ => .error .malformed

/-- Whether a code unit is the first half of a surrogate pair. -/
def isHighSurrogate (n : Nat) : Bool := 0xd800 ≤ n && n ≤ 0xdbff

/-- Whether a code unit is the second half of a surrogate pair. -/
def isLowSurrogate (n : Nat) : Bool := 0xdc00 ≤ n && n ≤ 0xdfff

/-- The character of a code escape whose digits begin the document, and the number of units
that the escape takes from there.  A surrogate stands only in a pair of escapes. -/
def codeEscape (d : Document) : Except ReadError (Char × Nat) :=
  match fourHex d with
  | .error e => .error e
  | .ok high =>
    if isLowSurrogate high then .error .malformed
    else if isHighSurrogate high then
      match expect ['\\', 'u'] (d.drop 4) with
      | .error e => .error e
      | .ok rest =>
        match fourHex rest with
        | .error e => .error e
        | .ok low =>
          if isLowSurrogate low then
            .ok (Char.ofNat ((high - 0xd800) * 0x400 + (low - 0xdc00) + 0x10000), 10)
          else .error .malformed
    else .ok (Char.ofNat high, 4)

/-- The character of an escape, and the number of units it takes after its backslash. -/
def readEscape : Document → Except ReadError (Char × Nat)
  | [] => .error .endOfInput
  | some 'u' :: rest =>
    match codeEscape rest with
    | .error e => .error e
    | .ok (c, n) => .ok (c, n + 1)
  | some c :: _ =>
    match simpleEscape? c with
    | some c => .ok (c, 1)
    | none => .error .malformed
  | none :: _ => .error .malformed

/-- The number of units that an escape takes after its backslash, if only its form counts. -/
def skipEscape : Document → Except ReadError Nat
  | [] => .error .endOfInput
  | some 'u' :: rest =>
    match fourHex rest with
    | .error e => .error e
    | .ok _ => .ok 5
  | some c :: _ => if (simpleEscape? c).isSome then .ok 1 else .error .malformed
  | none :: _ => .error .malformed

/-- Whether a unit may not stand in a string as it is. -/
def isControl : Option Char → Bool
  | some c => c.toNat < 0x20
  | none => false

/-- The units of a string after its opening quote. -/
def readUnits : Reader Document
  | [] => .error .endOfInput
  | u :: rest =>
    if u = some '"' then .ok ([], rest)
    else if u = some '\\' then
      match readEscape rest with
      | .error e => .error e
      | .ok (c, n) =>
        (readUnits (rest.drop n)).map fun (units, rest) => (some c :: units, rest)
    else if isControl u then .error .malformed
    else (readUnits rest).map fun (units, rest) => (u :: units, rest)
termination_by d => d.length

/-- A string after its opening quote; stray bytes are malformed once it has ended. -/
def readString : Reader Text := fun d =>
  match readUnits d with
  | .error e => .error e
  | .ok (units, rest) =>
    match units.text? with
    | some t => .ok (t, rest)
    | none => .error .malformed

/-- Passes over a string after its opening quote. -/
def skipString : Document → Except ReadError Document
  | [] => .error .endOfInput
  | u :: rest =>
    if u = some '"' then .ok rest
    else if u = some '\\' then
      match skipEscape rest with
      | .error e => .error e
      | .ok n => skipString (rest.drop n)
    else if isControl u then .error .malformed
    else skipString rest
termination_by d => d.length

/-! ## What is left is less -/

theorem length_readUnits_le {d units rest : Document} (h : readUnits d = .ok (units, rest)) :
    rest.length ≤ d.length := by
  fun_induction readUnits d generalizing units rest with
  | case1 => cases h
  | case2 => cases h; simp
  | case3 => cases h
  | case4 rest' c n he _ ih =>
    cases hr : readUnits (rest'.drop n) with
    | error e => rw [hr] at h; cases h
    | ok r =>
      rw [hr] at h
      cases h
      have := ih hr
      simp at this ⊢; omega
  | case5 => cases h
  | case6 u rest' _ _ _ ih =>
    cases hr : readUnits rest' with
    | error e => rw [hr] at h; cases h
    | ok r =>
      rw [hr] at h
      cases h
      have := ih hr
      simp at this ⊢; omega

theorem length_readString_le {d rest : Document} {t : Text} (h : readString d = .ok (t, rest)) :
    rest.length ≤ d.length := by
  unfold readString at h
  split at h
  · cases h
  · next hu =>
    split at h
    · cases h; exact length_readUnits_le hu
    · cases h

theorem length_skipString_le {d rest : Document} (h : skipString d = .ok rest) :
    rest.length ≤ d.length := by
  fun_induction skipString d with
  | case1 => cases h
  | case2 => cases h; simp
  | case3 => cases h
  | case4 rest' _ n _ ih => have := ih h; simp at this ⊢; omega
  | case5 => cases h
  | case6 u rest' _ _ _ ih => have := ih h; simp; omega

end Json
end LayoutLexer

import LayoutLexer.Json.Skip

/-! # The value of a document

Reading a document by the grammar gives its value.  Nothing is interpreted beyond the grammar:
a number keeps its digits, an object keeps its members in order.  As in passing over a value,
the open lists and objects form a stack, but here each of them holds what was read of it, so that
the place between its parts needs no flag: after an opening bracket or brace the reader looks
whether it closes at once, and after a comma there is no such look.
-/
namespace LayoutLexer
namespace Json

/-- A value as the grammar has it. -/
inductive Value where
  | null
  | boolean (b : Bool)
  | number (negative : Bool) (parts : NumberParts)
  | string (t : Text)
  | list (items : List Value)
  | object (members : List (Text × Value))

namespace Value

/-- The value of the first member with a key. -/
def member? (key : Text) : Value → Option Value
  | .object members => (members.find? fun member => member.1 == key).map Prod.snd
  | _ => none

/-- The text of a string. -/
def text? : Value → Option Text
  | .string t => some t
  | _ => none

/-- The number that digits alone denote. -/
def natural? : Value → Option Nat
  | .number false ⟨digits, none, none⟩ => some (digitsValue digits)
  | _ => none

end Value

/-- An open list with its items so far, or an open object with its members so far and the key
whose value comes next. -/
inductive Opened where
  | list (items : List Value)
  | object (members : List (Text × Value)) (key : Text)

/-- What comes next: a value, a key of an object with its members so far, or what may follow a
value that was just read. -/
inductive Stage where
  | value
  | key (members : List (Text × Value))
  | after (v : Value)

/-- A value that is neither a list nor an object, given its first unit. -/
def readScalar (u : Option Char) (rest : Document) : Except ReadError (Value × Document) :=
  if u = some '"' then readString.map .string rest
  else if u = some '-' then Reader.map (.number true) numberParts rest
  else if isDigit u then Reader.map (.number false) numberParts (u :: rest)
  else if u = some 'n' then (expect ['u', 'l', 'l'] rest).map (.null, ·)
  else if u = some 't' then (expect ['r', 'u', 'e'] rest).map (.boolean true, ·)
  else if u = some 'f' then (expect ['a', 'l', 's', 'e'] rest).map (.boolean false, ·)
  else .error .malformed

/-- A key in its quotes and the colon after it. -/
def readKey : Reader Text := fun d =>
  match skipBlanks d with
  | some '"' :: rest =>
    match readString rest with
    | .error e => .error e
    | .ok (key, rest) =>
      match skipBlanks rest with
      | some ':' :: rest => .ok (key, rest)
      | rest => .error (unexpected rest)
  | rest => .error (unexpected rest)

theorem length_readScalar_lt {u : Option Char} {rest rest' : Document} {v : Value}
    (h : readScalar u rest = .ok (v, rest')) : rest'.length < rest.length + 1 := by
  have word {v' : Value} {letters : Text}
      (h : (expect letters rest).map (v', ·) = .ok (v, rest')) :
      rest'.length < rest.length + 1 := by
    cases he : expect letters rest with
    | error e => rw [he] at h; cases h
    | ok r =>
      rw [he] at h
      cases h
      exact Nat.lt_succ_of_le (length_expect_le he)
  unfold readScalar at h
  split at h
  · obtain ⟨t, ht, -⟩ := Reader.map_eq_ok_iff.1 h
    exact Nat.lt_succ_of_le (length_readString_le ht)
  split at h
  · obtain ⟨p, hp, -⟩ := Reader.map_eq_ok_iff.1 h
    exact Nat.lt_succ_of_lt (length_numberParts_lt hp)
  split at h
  · obtain ⟨p, hp, -⟩ := Reader.map_eq_ok_iff.1 h
    exact length_numberParts_lt hp
  split at h
  · exact word h
  split at h
  · exact word h
  split at h
  · exact word h
  · cases h

theorem length_readKey_lt {d rest : Document} {key : Text} (h : readKey d = .ok (key, rest)) :
    rest.length < d.length := by
  unfold readKey at h
  split at h
  · next hopen =>
    split at h
    · cases h
    · next hs =>
      split at h
      · next hcolon =>
        cases h
        have := length_of_skipBlanks hopen
        have := length_readString_le hs
        have := length_of_skipBlanks hcolon
        omega
      · cases h
  · cases h

/-- Reads on from a stage, inside the lists and objects that are open. -/
def read (opened : List Opened) (stage : Stage) (d : Document) :
    Except ReadError (Value × Document) :=
  match stage with
  | .value =>
    match _hb : skipBlanks d with
    | [] => .error .endOfInput
    | u :: rest =>
      if u = some '[' then
        match _hc : skipBlanks rest with
        | some ']' :: rest' => read opened (.after (.list [])) rest'
        | _ => read (.list [] :: opened) .value rest
      else if u = some '{' then
        match _hc : skipBlanks rest with
        | some '}' :: rest' => read opened (.after (.object [])) rest'
        | _ => read opened (.key []) rest
      else
        match _hs : readScalar u rest with
        | .error e => .error e
        | .ok (v, rest') => read opened (.after v) rest'
  | .key members =>
    match _hk : readKey d with
    | .error e => .error e
    | .ok (key, rest) => read (.object members key :: opened) .value rest
  | .after v =>
    match opened with
    | [] => .ok (v, d)
    | .list items :: outer =>
      match _hb : skipBlanks d with
      | some ',' :: rest => read (.list (items ++ [v]) :: outer) .value rest
      | some ']' :: rest => read outer (.after (.list (items ++ [v]))) rest
      | rest => .error (unexpected rest)
    | .object members key :: outer =>
      match _hb : skipBlanks d with
      | some ',' :: rest => read outer (.key (members ++ [(key, v)])) rest
      | some '}' :: rest => read outer (.after (.object (members ++ [(key, v)]))) rest
      | rest => .error (unexpected rest)
termination_by d.length
decreasing_by
  · have := length_of_skipBlanks _hb; have := length_of_skipBlanks _hc; omega
  · exact length_of_skipBlanks _hb
  · have := length_of_skipBlanks _hb; have := length_of_skipBlanks _hc; omega
  · exact length_of_skipBlanks _hb
  · have := length_of_skipBlanks _hb; have := length_readScalar_lt _hs; omega
  · exact length_readKey_lt _hk
  all_goals exact length_of_skipBlanks _hb

/-- The value of a document that holds one and nothing else but blanks. -/
def parse (t : Text) : Except ReadError Value :=
  match read [] .value (.ofText t) with
  | .error e => .error e
  | .ok (v, rest) => if skipBlanks rest = [] then .ok v else .error .malformed

end Json
end LayoutLexer

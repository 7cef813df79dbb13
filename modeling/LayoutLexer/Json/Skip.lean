import LayoutLexer.Json.Number
import LayoutLexer.Json.String

/-! # Passing over values

A value that nobody wants is passed over whatever it is, however deep it nests.  The open lists
and objects form a stack, and at each place the grammar says what may come next: a value, a
key, or what follows a value.
-/
namespace LayoutLexer
namespace Json

/-- An open list or object. -/
inductive Frame where
  | list | object
  deriving DecidableEq, Repr

/-- A place between the parts of a value. -/
inductive Place where
  /-- Before a value; after an opening bracket the list may close at once. -/
  | value (mayClose : Bool)
  /-- Before a key; after an opening brace the object may close at once. -/
  | key (mayClose : Bool)
  /-- After a value. -/
  | after
  deriving DecidableEq, Repr

namespace Frame

/-- The character that closes a list or an object. -/
def closing : Frame → Char
  | .list => ']'
  | .object => '}'

/-- The place after a comma. -/
def afterComma : Frame → Place
  | .list => .value false
  | .object => .key false

end Frame

/-- Passes over a value that is neither a list nor an object, given its first unit. -/
def skipScalar (u : Option Char) (rest : Document) : Except ReadError Document :=
  if u = some '"' then skipString rest
  else if u = some '-' then skipNumber rest
  else if isDigit u then skipNumber (u :: rest)
  else if u = some 'n' then expect ['u', 'l', 'l'] rest
  else if u = some 't' then expect ['r', 'u', 'e'] rest
  else if u = some 'f' then expect ['a', 'l', 's', 'e'] rest
  else .error .malformed

/-- Passes over a key after its opening quote, and over the colon after it. -/
def skipKey (d : Document) : Except ReadError Document :=
  match skipString d with
  | .error e => .error e
  | .ok rest =>
    match skipBlanks rest with
    | [] => .error .endOfInput
    | u :: rest => if u = some ':' then .ok rest else .error .malformed

theorem length_skipScalar_lt {u : Option Char} {rest rest' : Document}
    (h : skipScalar u rest = .ok rest') : rest'.length < rest.length + 1 := by
  unfold skipScalar at h
  split at h
  · exact Nat.lt_succ_of_le (length_skipString_le h)
  split at h
  · exact Nat.lt_succ_of_lt (length_skipNumber_lt h)
  split at h
  · exact length_skipNumber_lt h
  split at h
  · exact Nat.lt_succ_of_le (length_expect_le h)
  split at h
  · exact Nat.lt_succ_of_le (length_expect_le h)
  split at h
  · exact Nat.lt_succ_of_le (length_expect_le h)
  · cases h

theorem length_of_skipBlanks {d rest : Document} {u : Option Char}
    (h : skipBlanks d = u :: rest) : rest.length < d.length := by
  have := length_skipBlanks_le d
  rw [h] at this
  exact this

theorem length_skipKey_le {d rest : Document} (h : skipKey d = .ok rest) :
    rest.length ≤ d.length := by
  unfold skipKey at h
  split at h
  · cases h
  · next hs =>
    split at h
    · cases h
    · next hb =>
      split at h
      · cases h
        have := length_skipString_le hs
        have := length_of_skipBlanks hb
        omega
      · cases h

/-- Passes over what is left of the open lists and objects from a place on. -/
def skip (frames : List Frame) (place : Place) (d : Document) : Except ReadError Document :=
  match place with
  | .value mayClose =>
    match _hb : skipBlanks d with
    | [] => .error .endOfInput
    | u :: rest =>
      if mayClose = true ∧ u = some ']' then skip frames.tail .after rest
      else if u = some '[' then skip (.list :: frames) (.value true) rest
      else if u = some '{' then skip (.object :: frames) (.key true) rest
      else
        match _hs : skipScalar u rest with
        | .error e => .error e
        | .ok rest' => skip frames .after rest'
  | .key mayClose =>
    match _hb : skipBlanks d with
    | [] => .error .endOfInput
    | u :: rest =>
      if mayClose = true ∧ u = some '}' then skip frames.tail .after rest
      else if u = some '"' then
        match _hk : skipKey rest with
        | .error e => .error e
        | .ok rest' => skip frames (.value false) rest'
      else .error .malformed
  | .after =>
    match frames with
    | [] => .ok d
    | frame :: outer =>
      match _hb : skipBlanks d with
      | [] => .error .endOfInput
      | u :: rest =>
        if u = some ',' then skip (frame :: outer) frame.afterComma rest
        else if u = some frame.closing then skip outer .after rest
        else .error .malformed
termination_by d.length
decreasing_by
  all_goals have := length_of_skipBlanks _hb
  · omega
  · omega
  · omega
  · have := length_skipScalar_lt _hs; omega
  · omega
  · have := length_skipKey_le _hk; omega
  · omega
  · omega

/-- Passes over one value. -/
def skipValue (d : Document) : Except ReadError Document := skip [] (.value false) d

theorem length_skip_le {frames : List Frame} {place : Place} {d rest : Document}
    (h : skip frames place d = .ok rest) : rest.length ≤ d.length := by
  fun_induction skip frames place d generalizing rest <;> try cases h
  case case6 ih =>
    have := ih h
    have := length_of_skipBlanks ‹skipBlanks _ = _›
    have := length_skipScalar_lt ‹skipScalar _ _ = _›
    omega
  case case10 ih =>
    have := ih h
    have := length_of_skipBlanks ‹skipBlanks _ = _›
    have := length_skipKey_le ‹skipKey _ = _›
    omega
  case case12 => exact Nat.le_refl _
  all_goals
    rename_i ih
    have := ih h
    have := length_of_skipBlanks ‹skipBlanks _ = _›
    omega

theorem length_skipValue_le {d rest : Document} (h : skipValue d = .ok rest) :
    rest.length ≤ d.length :=
  length_skip_le h

end Json
end LayoutLexer

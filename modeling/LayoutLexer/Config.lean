import LayoutLexer.Json.Skip
import LayoutLexer.Scanner

/-! # Reading a configuration

A configuration is a JSON object whose known members are settings, in any order; what it does
not name keeps its default, unknown members are passed over, and a known one may stand only
once.  It may also be an array of the settings in their order, of which the last ones may be
missing.  Nothing but blanks may follow it.
-/
namespace LayoutLexer
namespace Config

open Json

/-- A setting of a configuration, in the order of an array. -/
inductive Field where
  | tabWidth | skipTrivia | trackIndentation
  deriving DecidableEq, Repr

namespace Field

/-- All settings. -/
def all : List Field := [.tabWidth, .skipTrivia, .trackIndentation]

/-- The key of a setting. -/
def name : Field → Text
  | .tabWidth => "tab_width".toList
  | .skipTrivia => "skip_trivia".toList
  | .trackIndentation => "track_indentation".toList

/-- The setting that has a key. -/
def ofName? (key : Text) : Option Field := all.find? fun field => field.name == key

theorem ofName?_name (f : Field) : ofName? f.name = some f := by cases f <;> decide

end Field

/-- The settings that have been read so far. -/
structure Draft where
  tabWidth : Option Nat := none
  skipTrivia : Option Bool := none
  trackIndentation : Option Bool := none
  deriving DecidableEq, Repr

namespace Draft

/-- Whether a setting has been read. -/
def has (draft : Draft) : Field → Bool
  | .tabWidth => draft.tabWidth.isSome
  | .skipTrivia => draft.skipTrivia.isSome
  | .trackIndentation => draft.trackIndentation.isSome

/-- The configuration with defaults for what has not been read. -/
def config (draft : Draft) : Config :=
  let default : Config := {}
  { tabWidth := draft.tabWidth.getD default.tabWidth
    skipTrivia := draft.skipTrivia.getD default.skipTrivia
    trackIndentation := draft.trackIndentation.getD default.trackIndentation }

end Draft

/-! ## Values -/

/-- What a whole configuration is called in messages. -/
def expectedConfig : Text := "struct ScanConfig".toList

/-- What a tab width is called in messages. -/
def expectedWidth : Text := "usize".toList

/-- What a switch is called in messages. -/
def expectedSwitch : Text := "a boolean".toList

/-- The failure of a word that is something else than expected. -/
def wordMismatch (found : Found) (expected word : Text) (rest : Document) : ReadError :=
  match expect word rest with
  | .error e => e
  | .ok _ => .mismatch (.wrongType found expected)

/-- The failure of a number that is something else than expected. -/
def numberMismatch (expected : Text) (negative : Bool) (d : Document) : ReadError :=
  match readNumber negative d with
  | .error e => e
  | .ok (n, _) => .mismatch (.wrongType n.found expected)

/-- The failure of a string that is something else than expected. -/
def stringMismatch (expected : Text) (d : Document) : ReadError :=
  match readString d with
  | .error e => e
  | .ok (t, _) => .mismatch (.wrongType (.string t) expected)

/-- The failure of a value that is not what is expected: a word, a number or a string is read
first, a list or an object only begun. -/
def mismatch (expected : Text) (u : Option Char) (rest : Document) : ReadError :=
  if u = some 'n' then wordMismatch .null expected ['u', 'l', 'l'] rest
  else if u = some 't' then wordMismatch (.boolean true) expected ['r', 'u', 'e'] rest
  else if u = some 'f' then wordMismatch (.boolean false) expected ['a', 'l', 's', 'e'] rest
  else if u = some '-' then numberMismatch expected true rest
  else if isDigit u then numberMismatch expected false (u :: rest)
  else if u = some '"' then stringMismatch expected rest
  else if u = some '[' then .mismatch (.wrongType .sequence expected)
  else if u = some '{' then .mismatch (.wrongType .map expected)
  else .malformed

/-- The tab width that a number is. -/
def widthOf : Number → Except ReadError Nat
  | .integer n =>
    if n < 0 then .error (.mismatch (.negative n expectedWidth)) else .ok n.toNat
  | .float negative b => .error (.mismatch (.wrongType (.float negative b) expectedWidth))

/-- A tab width after the sign of its number. -/
def readWidthAfterSign (negative : Bool) : Reader Nat := fun d =>
  match readNumber negative d with
  | .error e => .error e
  | .ok (n, rest) =>
    match widthOf n with
    | .error e => .error e
    | .ok width => .ok (width, rest)

/-- A tab width. -/
def readWidth : Reader Nat := fun d =>
  match skipBlanks d with
  | [] => .error .endOfInput
  | u :: rest =>
    if u = some '-' then readWidthAfterSign true rest
    else if isDigit u then readWidthAfterSign false (u :: rest)
    else .error (mismatch expectedWidth u rest)

/-- A switch. -/
def readSwitch : Reader Bool := fun d =>
  match skipBlanks d with
  | [] => .error .endOfInput
  | u :: rest =>
    if u = some 't' then (expect ['r', 'u', 'e'] rest).map fun rest => (true, rest)
    else if u = some 'f' then (expect ['a', 'l', 's', 'e'] rest).map fun rest => (false, rest)
    else .error (mismatch expectedSwitch u rest)

/-- The value of a setting, into the draft. -/
def readSetting (draft : Draft) : Field → Reader Draft
  | .tabWidth => Reader.map (fun width => { draft with tabWidth := some width }) readWidth
  | .skipTrivia => Reader.map (fun b => { draft with skipTrivia := some b }) readSwitch
  | .trackIndentation =>
    Reader.map (fun b => { draft with trackIndentation := some b }) readSwitch

/-! ## Objects -/

/-- Goes to the key of the next member, past its opening quote, if there is a next member; else
past the closing brace. -/
def nextKey (first : Bool) : Reader Bool := fun d =>
  match skipBlanks d with
  | [] => .error .endOfInput
  | u :: rest =>
    if u = some '}' then .ok (false, rest)
    else if first then if u = some '"' then .ok (true, rest) else .error .malformed
    else if u = some ',' then
      match skipBlanks rest with
      | [] => .error .endOfInput
      | u :: rest => if u = some '"' then .ok (true, rest) else .error .malformed
    else .error .malformed

/-- Goes past the colon after a key. -/
def skipColon (d : Document) : Except ReadError Document :=
  match skipBlanks d with
  | [] => .error .endOfInput
  | u :: rest => if u = some ':' then .ok rest else .error .malformed

/-- The value of a member with the given key, from its colon on. -/
def readValueOf (key : Text) (draft : Draft) : Reader Draft := fun d =>
  match Field.ofName? key with
  | some field =>
    if draft.has field then .error (.mismatch (.duplicateField field.name))
    else
      match skipColon d with
      | .error e => .error e
      | .ok rest => readSetting draft field rest
  | none =>
    match skipColon d with
    | .error e => .error e
    | .ok rest => (skipValue rest).map fun rest => (draft, rest)

/-- A member after the opening quote of its key. -/
def readMember (draft : Draft) : Reader Draft := fun d =>
  match readString d with
  | .error e => .error e
  | .ok (key, rest) => readValueOf key draft rest

theorem length_nextKey_lt {first more : Bool} {d rest : Document}
    (h : nextKey first d = .ok (more, rest)) : rest.length < d.length := by
  unfold nextKey at h
  split at h
  · cases h
  · next hb =>
    have := length_of_skipBlanks hb
    split at h
    · cases h; assumption
    split at h
    · split at h
      · cases h; assumption
      · cases h
    split at h
    · split at h
      · cases h
      · next hb' =>
        have := length_of_skipBlanks hb'
        split at h
        · cases h; omega
        · cases h
    · cases h

theorem length_skipColon_le {d rest : Document} (h : skipColon d = .ok rest) :
    rest.length ≤ d.length := by
  unfold skipColon at h
  split at h
  · cases h
  · next hb =>
    split at h
    · cases h; exact Nat.le_of_lt (length_of_skipBlanks hb)
    · cases h

theorem length_readWidth_le {d rest : Document} {n : Nat} (h : readWidth d = .ok (n, rest)) :
    rest.length ≤ d.length := by
  have hsign {negative : Bool} {d rest : Document} {n : Nat}
      (h : readWidthAfterSign negative d = .ok (n, rest)) : rest.length < d.length := by
    unfold readWidthAfterSign at h
    split at h
    · cases h
    · next hn =>
      split at h
      · cases h
      · cases h; exact length_readNumber_lt hn
  unfold readWidth at h
  split at h
  · cases h
  · next hb =>
    have := length_of_skipBlanks hb
    split at h
    · have := hsign h; omega
    split at h
    · have := hsign h; simp at this; omega
    · cases h

theorem length_readSwitch_le {d rest : Document} {b : Bool} (h : readSwitch d = .ok (b, rest)) :
    rest.length ≤ d.length := by
  unfold readSwitch at h
  split at h
  · cases h
  · next u rest' hb =>
    have := length_of_skipBlanks hb
    have hword {word : Text} {v : Bool}
        (h : ((expect word rest').map fun rest => (v, rest)) = .ok (b, rest)) :
        rest.length ≤ d.length := by
      cases he : expect word rest' with
      | error e => rw [he] at h; cases h
      | ok r =>
        rw [he] at h
        cases h
        have := length_expect_le he
        omega
    split at h
    · exact hword h
    split at h
    · exact hword h
    · cases h

theorem length_readSetting_le {draft draft' : Draft} {f : Field} {d rest : Document}
    (h : readSetting draft f d = .ok (draft', rest)) : rest.length ≤ d.length := by
  cases f with
  | tabWidth =>
    obtain ⟨_, h, _⟩ := Reader.map_eq_ok_iff.1 h
    exact length_readWidth_le h
  | skipTrivia =>
    obtain ⟨_, h, _⟩ := Reader.map_eq_ok_iff.1 h
    exact length_readSwitch_le h
  | trackIndentation =>
    obtain ⟨_, h, _⟩ := Reader.map_eq_ok_iff.1 h
    exact length_readSwitch_le h

theorem length_readMember_le {draft draft' : Draft} {d rest : Document}
    (h : readMember draft d = .ok (draft', rest)) : rest.length ≤ d.length := by
  unfold readMember at h
  split at h
  · cases h
  · next hk =>
    have := length_readString_le hk
    unfold readValueOf at h
    split at h
    · split at h
      · cases h
      · split at h
        · cases h
        · next hc =>
          have := length_skipColon_le hc
          have := length_readSetting_le h
          omega
    · split at h
      · cases h
      · next rest' hc =>
        have := length_skipColon_le hc
        cases hs : skipValue rest' with
        | error e => rw [hs] at h; cases h
        | ok r =>
          rw [hs] at h
          cases h
          have := length_skipValue_le hs
          omega

/-- The members of an object and its closing brace. -/
def readMembers (first : Bool) (draft : Draft) : Reader Draft := fun d =>
  match _hk : nextKey first d with
  | .error e => .error e
  | .ok (false, rest) => .ok (draft, rest)
  | .ok (true, rest) =>
    match _hm : readMember draft rest with
    | .error e => .error e
    | .ok (draft, rest) => readMembers false draft rest
termination_by d => d.length
decreasing_by
  have := length_nextKey_lt _hk
  have := length_readMember_le _hm
  omega

/-! ## Arrays -/

/-- Goes to the next element if there is one; else the closing bracket comes next. -/
def nextElement (first : Bool) : Reader Bool := fun d =>
  match skipBlanks d with
  | [] => .error .endOfInput
  | u :: rest =>
    if u = some ']' then .ok (false, u :: rest)
    else if first then .ok (true, u :: rest)
    else if u = some ',' then
      match skipBlanks rest with
      | [] => .error .endOfInput
      | u :: rest => if u = some ']' then .error .malformed else .ok (true, u :: rest)
    else .error .malformed

/-- The elements of an array as the given settings. -/
def readElements (first : Bool) (draft : Draft) : List Field → Reader Draft
  | [] => fun d => .ok (draft, d)
  | field :: fields => fun d =>
    match nextElement first d with
    | .error e => .error e
    | .ok (false, rest) => .ok (draft, rest)
    | .ok (true, rest) =>
      match readSetting draft field rest with
      | .error e => .error e
      | .ok (draft, rest) => readElements false draft fields rest

/-- Goes past the closing bracket of an array. -/
def endArray (d : Document) : Except ReadError Document :=
  match skipBlanks d with
  | [] => .error .endOfInput
  | u :: rest => if u = some ']' then .ok rest else .error .malformed

/-- An array of settings after its opening bracket. -/
def readArray : Reader Draft := fun d =>
  match readElements true {} Field.all d with
  | .error e => .error e
  | .ok (draft, rest) => (endArray rest).map fun rest => (draft, rest)

/-! ## Documents -/

/-- The settings of an object or an array. -/
def readDraft : Reader Draft := fun d =>
  match skipBlanks d with
  | [] => .error .endOfInput
  | u :: rest =>
    if u = some '{' then readMembers true {} rest
    else if u = some '[' then readArray rest
    else .error (mismatch expectedConfig u rest)

/-- The configuration that a document holds. -/
def ofDocument (d : Document) : Except ReadError Config :=
  match readDraft d with
  | .error e => .error e
  | .ok (draft, rest) =>
    match skipBlanks rest with
    | [] => .ok draft.config
    | _ :: _ => .error .malformed

/-- The configuration that a text holds. -/
def ofText (t : Text) : Except ReadError Config := ofDocument (.ofText t)

end Config

end LayoutLexer

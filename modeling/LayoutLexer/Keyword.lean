import LayoutLexer.Text

/-! # Keywords

The reserved words of the language.  A keyword is written in lowercase; its name is `KW_` and
its letters in uppercase, and reading a name back ignores the case of those letters.
-/
namespace LayoutLexer

/-- A reserved word. -/
inductive Keyword where
  | kwAnd | kwAs | kwAssert | kwAxiom | kwCase | kwDiv | kwElse | kwEmit | kwEnum | kwExtends
  | kwFinally | kwFn | kwForward | kwForwarder | kwFrom | kwGiven | kwIf | kwImport | kwIn
  | kwInv | kwInitially | kwLemma | kwLet | kwMod | kwNew | kwNot | kwOf | kwOp | kwOr | kwProc
  | kwPure | kwReturn | kwSpawn | kwSwitch | kwTheorem | kwThen | kwType | kwVar | kwVariant
  | kwWhere | kwWhile | kwXor
  deriving DecidableEq, Repr

namespace Keyword

/-- All keywords, in the order in which the lexicon tries them. -/
def all : List Keyword :=
  [.kwAnd, .kwAs, .kwAssert, .kwAxiom, .kwCase, .kwDiv, .kwElse, .kwEmit, .kwEnum, .kwExtends,
  .kwFinally, .kwFn, .kwForward, .kwForwarder, .kwFrom, .kwGiven, .kwIf, .kwImport, .kwIn,
  .kwInv, .kwInitially, .kwLemma, .kwLet, .kwMod, .kwNew, .kwNot, .kwOf, .kwOp, .kwOr, .kwProc,
  .kwPure, .kwReturn, .kwSpawn, .kwSwitch, .kwTheorem, .kwThen, .kwType, .kwVar, .kwVariant,
  .kwWhere, .kwWhile, .kwXor]

/-- The letters of a keyword. -/
def text : Keyword → Text
  | .kwAnd => ['a', 'n', 'd']
  | .kwAs => ['a', 's']
  | .kwAssert => ['a', 's', 's', 'e', 'r', 't']
  | .kwAxiom => ['a', 'x', 'i', 'o', 'm']
  | .kwCase => ['c', 'a', 's', 'e']
  | .kwDiv => ['d', 'i', 'v']
  | .kwElse => ['e', 'l', 's', 'e']
  | .kwEmit => ['e', 'm', 'i', 't']
  | .kwEnum => ['e', 'n', 'u', 'm']
  | .kwExtends => ['e', 'x', 't', 'e', 'n', 'd', 's']
  | .kwFinally => ['f', 'i', 'n', 'a', 'l', 'l', 'y']
  | .kwFn => ['f', 'n']
  | .kwForward => ['f', 'o', 'r', 'w', 'a', 'r', 'd']
  | .kwForwarder => ['f', 'o', 'r', 'w', 'a', 'r', 'd', 'e', 'r']
  | .kwFrom => ['f', 'r', 'o', 'm']
  | .kwGiven => ['g', 'i', 'v', 'e', 'n']
  | .kwIf => ['i', 'f']
  | .kwImport => ['i', 'm', 'p', 'o', 'r', 't']
  | .kwIn => ['i', 'n']
  | .kwInv => ['i', 'n', 'v']
  | .kwInitially => ['i', 'n', 'i', 't', 'i', 'a', 'l', 'l', 'y']
  | .kwLemma => ['l', 'e', 'm', 'm', 'a']
  | .kwLet => ['l', 'e', 't']
  | .kwMod => ['m', 'o', 'd']
  | .kwNew => ['n', 'e', 'w']
  | .kwNot => ['n', 'o', 't']
  | .kwOf => ['o', 'f']
  | .kwOp => ['o', 'p']
  | .kwOr => ['o', 'r']
  | .kwProc => ['p', 'r', 'o', 'c']
  | .kwPure => ['p', 'u', 'r', 'e']
  | .kwReturn => ['r', 'e', 't', 'u', 'r', 'n']
  | .kwSpawn => ['s', 'p', 'a', 'w', 'n']
  | .kwSwitch => ['s', 'w', 'i', 't', 'c', 'h']
  | .kwTheorem => ['t', 'h', 'e', 'o', 'r', 'e', 'm']
  | .kwThen => ['t', 'h', 'e', 'n']
  | .kwType => ['t', 'y', 'p', 'e']
  | .kwVar => ['v', 'a', 'r']
  | .kwVariant => ['v', 'a', 'r', 'i', 'a', 'n', 't']
  | .kwWhere => ['w', 'h', 'e', 'r', 'e']
  | .kwWhile => ['w', 'h', 'i', 'l', 'e']
  | .kwXor => ['x', 'o', 'r']

/-- What every keyword's name begins with. -/
def nameStart : Text := ['K', 'W', '_']

/-- The name of a keyword: `KW_` and its letters in uppercase. -/
def name (k : Keyword) : Text := nameStart ++ k.text.map Char.toUpper

/-- The keyword that a name belongs to; the case of the letters after `KW_` is ignored. -/
def ofName? (name : Text) : Option Keyword :=
  match Text.after? nameStart name with
  | none => none
  | some letters => all.find? fun k => k.text.map Char.toLower == letters.map Char.toLower

/-- The keyword that is written so. -/
def ofText? (t : Text) : Option Keyword := all.find? fun k => k.text == t

theorem mem_all (k : Keyword) : k ∈ all := by cases k <;> decide

theorem ofName?_name (k : Keyword) : ofName? k.name = some k := by cases k <;> rfl

theorem ofText?_text (k : Keyword) : ofText? k.text = some k := by cases k <;> rfl

/-- No two keywords are written alike. -/
theorem text_injective {j k : Keyword} (h : j.text = k.text) : j = k :=
  Option.some.inj (by rw [← ofText?_text j, h, ofText?_text k])

end Keyword
end LayoutLexer

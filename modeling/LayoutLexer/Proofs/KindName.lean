import LayoutLexer.Token

/-! # Names of kinds

Every kind is told by its name, although the names of keywords are read without regard to case:
no other name begins as theirs do.  Names are made of capital letters and underscores, so they can
stand between blanks, and those of errors are the ones that begin with `ERR_`.

There are finitely many kinds (`TokenKind.mem_all`), and each of these facts is checked on the list
of them.
-/
namespace LayoutLexer
namespace TokenKind

/-- All kinds: those with names of their own, then the keywords and the symbols. -/
def all : List TokenKind :=
  named ++ Keyword.all.map (fun k => .lexical (.keyword k)) ++
    Symbol.all.map (fun s => .lexical (.symbol s))

theorem mem_all (k : TokenKind) : k ∈ all := by
  have hnamed {k : TokenKind} (h : k ∈ named) : k ∈ all :=
    List.mem_append_left _ (List.mem_append_left _ h)
  cases k with
  | lexical p =>
    cases p with
    | rule r => exact hnamed (by cases r <;> decide)
    | keyword k =>
      exact List.mem_append_left _ (List.mem_append_right _ (List.mem_map_of_mem k.mem_all))
    | symbol s => exact List.mem_append_right _ (List.mem_map_of_mem s.mem_all)
  | error e => exact hnamed (by cases e <;> decide)
  | _ => exact hnamed (by decide)

/-- Every kind is told by its name. -/
theorem ofName?_name (k : TokenKind) : ofName? k.name = some k := by
  have hall : ∀ k ∈ all, ofName? k.name = some k := by decide +kernel
  exact hall k k.mem_all

/-- A capital letter or an underscore. -/
def isNameChar (c : Char) : Bool := c.isUpper || c == '_'

/-- Names consist of capital letters and underscores. -/
theorem isNameChar_of_mem_name {k : TokenKind} {c : Char} (hc : c ∈ k.name) :
    isNameChar c = true := by
  have hall : ∀ k ∈ all, k.name.all isNameChar = true := by decide +kernel
  exact List.all_eq_true.1 (hall k k.mem_all) c hc

theorem ne_of_mem_name {k : TokenKind} {c d : Char} (hc : c ∈ k.name) (hd : isNameChar d = false) :
    c ≠ d := by
  rintro rfl
  rw [isNameChar_of_mem_name hc] at hd
  cases hd

end TokenKind
end LayoutLexer

import LayoutLexer.Overflow

/-! # Indentation

The white space before a line has a width, and the widths of the lines open and close levels on a
stack.
-/
namespace LayoutLexer

/-! ## The width of an indentation

A tab moves to the next multiple of the tab width and any other character moves one column; a
tab width of zero counts as one.  The exact width is a natural number.  The checked width is
computed in sixty-four bits and fails where an intermediate result does not fit: in a tab step
first the number of the next stop, then its column.
-/

namespace Width

/-- The distance of two tab stops, which is never zero. -/
def tabStop (tabWidth : Nat) : Nat := max tabWidth 1

/-- The exact width after one more character. -/
def exactStep (tabWidth width : Nat) (c : Char) : Nat :=
  if c = '\t' then (width / tabStop tabWidth + 1) * tabStop tabWidth else width + 1

/-- The exact width of a run. -/
def exact (tabWidth : Nat) (run : Text) : Nat := run.foldl (exactStep tabWidth) 0

/-- The width after one more character, if the computation fits. -/
def checkedStep (tabWidth width : Nat) (c : Char) : Except Overflow Nat :=
  if c = '\t' then
    match Checked.add (width / tabStop tabWidth) 1 with
    | .error e => .error e
    | .ok stop => Checked.mul stop (tabStop tabWidth)
  else Checked.add width 1

/-- The width of the rest of a run after a given width. -/
def checkedFrom (tabWidth width : Nat) : Text → Except Overflow Nat
  | [] => .ok width
  | c :: rest =>
    match checkedStep tabWidth width c with
    | .error e => .error e
    | .ok next => checkedFrom tabWidth next rest

/-- The width of a run, if the computation fits. -/
def checked (tabWidth : Nat) (run : Text) : Except Overflow Nat := checkedFrom tabWidth 0 run

@[simp] theorem exact_nil (tabWidth : Nat) : exact tabWidth [] = 0 := rfl

@[simp] theorem checkedFrom_nil (tabWidth width : Nat) :
    checkedFrom tabWidth width [] = .ok width := rfl

theorem tabStop_pos (tabWidth : Nat) : 0 < tabStop tabWidth := by unfold tabStop; omega

end Width

/-! ## The indentation stack

The stack holds the widths of the open levels above a base of width zero.  A line that is
wider than the innermost level opens a block; a narrower one closes the levels that are wider
than it.  If its width is then no open width, the indentation is inconsistent and the stack
takes the width as a resynchronized level: such a level was never opened as a block, so
closing it ends none.
-/

/-- An open level of indentation. -/
structure Level where
  width : Nat
  /-- Whether the level was taken over from an inconsistent line instead of opening a block. -/
  resynchronized : Bool
  deriving DecidableEq, Repr

/-- What a new line does to the open blocks. -/
inductive Transition where
  | same
  | indent
  | dedent (blocks : Nat)
  | inconsistent (blocks enclosing : Nat)
  deriving DecidableEq, Repr

/-- The open levels above the base, the innermost first. -/
structure IndentStack where
  levels : List Level
  deriving DecidableEq, Repr

namespace IndentStack

/-- No level is open. -/
def base : IndentStack := ⟨[]⟩

/-- The width of the innermost level; the base has width zero. -/
def current (s : IndentStack) : Nat :=
  match s.levels with
  | [] => 0
  | level :: _ => level.width

/-- The number of levels above the base. -/
def depth (s : IndentStack) : Nat := s.levels.length

/-- The number of levels that were opened as blocks. -/
def blocks (levels : List Level) : Nat := levels.countP fun level => !level.resynchronized

/-- The stack with one more level. -/
def push (s : IndentStack) (level : Level) : IndentStack := ⟨level :: s.levels⟩

/-- The levels that are wider than a width; they are the innermost ones. -/
def wider (s : IndentStack) (width : Nat) : List Level :=
  s.levels.takeWhile fun level => width < level.width

/-- The stack without the levels that are wider than a width. -/
def narrowed (s : IndentStack) (width : Nat) : IndentStack :=
  ⟨s.levels.dropWhile fun level => width < level.width⟩

/-- What a line of the given width does, and the stack after it. -/
def transition (s : IndentStack) (width : Nat) : Transition × IndentStack :=
  if width = s.current then (.same, s)
  else if s.current < width then (.indent, s.push ⟨width, false⟩)
  else
    let closed := blocks (s.wider width)
    let kept := s.narrowed width
    if kept.current = width then (.dedent closed, kept)
    else (.inconsistent closed kept.current, kept.push ⟨width, true⟩)

/-- The number of blocks that are still open, and the stack without any. -/
def close (s : IndentStack) : Nat × IndentStack := (blocks s.levels, base)

@[simp] theorem current_base : base.current = 0 := rfl

@[simp] theorem current_push (s : IndentStack) (level : Level) :
    (s.push level).current = level.width := rfl

@[simp] theorem depth_push (s : IndentStack) (level : Level) :
    (s.push level).depth = s.depth + 1 := rfl

/-- After a line its width is the width of the innermost level. -/
theorem current_transition (s : IndentStack) (width : Nat) :
    (s.transition width).2.current = width := by
  unfold transition
  split
  · next h => exact h.symm
  · split
    · rfl
    · dsimp only
      split
      · next h => exact h
      · rfl

/-- The levels that a narrower line closes and those it keeps make up the stack. -/
theorem wider_append_narrowed (s : IndentStack) (width : Nat) :
    s.wider width ++ (s.narrowed width).levels = s.levels :=
  List.takeWhile_append_dropWhile

end IndentStack

end LayoutLexer

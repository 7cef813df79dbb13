import LayoutLexer.Json.Document

/-! # Files

A file system answers what a path leads to: the bytes of a file, a directory, or a failure.
A directory is a small file system of its own: files and empty subdirectories under their
names.  A path is followed part by part; a part after a file fails, and so does a name that is
not there or longer than any name may be.
-/
namespace LayoutLexer

/-- Why a file cannot be opened or read. -/
inductive FileError where
  | notFound
  | notADirectory
  | isADirectory
  | nameTooLong
  | nulInPath
  | notUtf8
  /-- Any other failure, with its message. -/
  | other (message : Text)
  deriving DecidableEq, Repr

namespace FileError

/-- The message of a failure. -/
def message : FileError → Text
  | .notFound => "No such file or directory (os error 2)".toList
  | .notADirectory => "Not a directory (os error 20)".toList
  | .isADirectory => "Is a directory (os error 21)".toList
  | .nameTooLong => "File name too long (os error 36)".toList
  | .nulInPath => "file name contained an unexpected NUL byte".toList
  | .notUtf8 => "stream did not contain valid UTF-8".toList
  | .other message => message

end FileError

/-- What a path leads to. -/
inductive Entry where
  | file (bytes : List Nat)
  | directory
  deriving DecidableEq, Repr

/-- What each path leads to. -/
abbrev FileSystem := Text → Except FileError Entry

namespace FileSystem

/-- The text of a file, which must be well-formed UTF-8. -/
def readText (fs : FileSystem) (path : Text) : Except FileError Text :=
  match fs path with
  | .error e => .error e
  | .ok .directory => .error .isADirectory
  | .ok (.file bytes) =>
    match (Json.Document.ofBytes bytes).text? with
    | some t => .ok t
    | none => .error .notUtf8

end FileSystem

/-- The entries of a directory under their names. -/
abbrev Directory := List (Text × Entry)

namespace Directory

/-- Where a path has led so far. -/
inductive Place where
  /-- In the directory itself. -/
  | here
  /-- In one of its subdirectories, which are empty. -/
  | inside
  /-- In a directory that is not below it. -/
  | outside
  deriving DecidableEq, Repr

/-- The entry with a name. -/
def find? (d : Directory) (name : Text) : Option Entry :=
  (List.find? (fun entry => entry.1 == name) d).map Prod.snd

/-- The parts of a path between its slashes. -/
def parts (path : Text) : List Text := path.splitOn '/'

/-- The greatest number of bytes in a name. -/
def maxNameLength : Nat := 255

/-- Follows the parts of a path from a place. -/
def follow (d : Directory) : Place → List Text → Except FileError Entry
  | _, [] => .ok .directory
  | place, part :: rest =>
    if part = [] ∨ part = ['.'] then follow d place rest
    else if part = ['.', '.'] then
      follow d (match place with | .inside => .here | _ => .outside) rest
    else if maxNameLength < part.byteLength then .error .nameTooLong
    else
      match place, d.find? part with
      | .here, some .directory => follow d .inside rest
      | .here, some (.file bytes) =>
        if rest = [] then .ok (.file bytes) else .error .notADirectory
      | _, _ => .error .notFound

/-- What a path leads to.  An empty path stays in the directory, one that begins with a slash
leaves it, and no path holds a NUL. -/
def lookup (d : Directory) : FileSystem := fun path =>
  if path.contains '\x00' then .error .nulInPath
  else
    match path with
    | '/' :: rest => d.follow .outside (parts rest)
    | _ => d.follow .here (parts path)

end Directory
end LayoutLexer

import LayoutLexer.Config
import LayoutLexer.FileSystem

/-! # Failures

What can go wrong with a request as a whole: a file, a configuration, the name of a kind, or a
diagnostic where a text without any is wanted.  A configuration comes from a file: loading it fails
if there is no such file, if what is there cannot be read although it is there, or if its content
is no configuration.
-/
namespace LayoutLexer

/-- Why a request has no answer. -/
inductive Failure where
  | file (e : FileError)
  /-- A document is no configuration; the parser adds something of its own to the reason. -/
  | config (e : Json.ReadError) (added : Text)
  /-- What was opened as a configuration cannot be read. -/
  | unreadableConfig (e : FileError)
  | unknownKind (name : Text)
  | lexical (d : Diagnostic)
  deriving DecidableEq, Repr

namespace Failure

/-- What a message about a configuration begins with. -/
def configStart : Text := "Config error".toList

/-- The message of a failure. -/
def message : Failure → Text
  | .file e => "IO error: ".toList ++ e.message
  | .config e added => configStart ++ ": ".toList ++ e.text added
  | .unreadableConfig e => configStart ++ ": ".toList ++ e.message
  | .unknownKind name => "Unknown token kind: ".toList ++ name
  | .lexical d => "Lex error: ".toList ++ d.text

end Failure

/-- The kind that has a name. -/
def TokenKind.ofName (name : Text) : Except Failure TokenKind :=
  match TokenKind.ofName? name with
  | some kind => .ok kind
  | none => .error (.unknownKind name)

/-- The configuration in a file, read by a parser of the given wording. -/
def Config.load (wording : Json.Wording) (fs : FileSystem) (path : Text) :
    Except Failure Config :=
  match fs path with
  | .error e => .error (.file e)
  | .ok .directory => .error (.unreadableConfig .isADirectory)
  | .ok (.file bytes) =>
    let d := Json.Document.ofBytes bytes
    match ofDocument d with
    | .error e => .error (.config e (wording d e))
    | .ok config => .ok config

end LayoutLexer

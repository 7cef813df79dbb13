import LayoutLexer.Command.Options
import LayoutLexer.Failure
import LayoutLexer.Listing

/-! # Dumping files

A run dumps the tokens of its files one after the other and reports their diagnostics.  A file
that cannot be read is reported and the others go on; a configuration that cannot be loaded
ends the run before any file is read.  The run fails if a file could not be read, or if it is
strict and anything was reported.  A file whose indentation overflows breaks the run off: what
was written for the files before it stays written, and nothing follows.
-/
namespace LayoutLexer
namespace Command

/-- How a run ends. -/
inductive Ending where
  /-- All went well. -/
  | success
  /-- The run came to its end, but something failed on the way. -/
  | failure
  /-- The run was broken off by an overflow. -/
  | overflow (o : Overflow)
  deriving DecidableEq, Repr

namespace Ending

/-- The exit status. -/
def status : Ending → Nat
  | .success => 0
  | .failure => 1
  | .overflow _ => 101

end Ending

/-- What a run writes, message by message, and how it ends. -/
structure Output where
  stdout : List Text := []
  stderr : List Text := []
  ending : Ending := .success
  deriving DecidableEq, Repr

namespace Output

/-- One output after another.  After an overflow there is no other; else both are written, and
a failure is not made good by a success. -/
def append (a b : Output) : Output :=
  match a.ending with
  | .overflow _ => a
  | .success => ⟨a.stdout ++ b.stdout, a.stderr ++ b.stderr, b.ending⟩
  | .failure =>
    ⟨a.stdout ++ b.stdout, a.stderr ++ b.stderr,
      if b.ending = .success then .failure else b.ending⟩

/-- The lines of messages, each of which ends its last line. -/
def lines (messages : List Text) : List Text := messages.flatMap Text.lines

end Output

/-- The exit status of a run whose arguments are not well formed. -/
def usageStatus : Nat := 2

/-- What every line about a failure begins with. -/
def errorStart : Text := "Error: ".toList

/-- The configuration of a run. -/
def loadConfig (wording : Json.Wording) (fs : FileSystem) (o : Options) : Except Failure Config :=
  let loaded : Except Failure Config :=
    match o.config with
    | none => .ok {}
    | some path => Config.load wording fs path
  loaded.map fun config =>
    if o.skipTrivia then { config with skipTrivia := true } else config

/-- A token as it is dumped. -/
def tokenLine (o : Options) (t : Token) : Text := if o.json then t.json else t.line

/-- The dump of a text that was read from a path. -/
def dumpText (o : Options) (config : Config) (path source : Text) : Output :=
  match Listing.ofText config (some path) source with
  | .error e => { ending := .overflow e }
  | .ok listing =>
    { stdout := listing.tokens.map (tokenLine o)
      stderr := listing.diagnostics.map Diagnostic.text
      ending := if o.strict && listing.hasErrors then .failure else .success }

/-- The dump of one file, or the report that it cannot be read. -/
def dumpFile (fs : FileSystem) (o : Options) (config : Config) (path : Text) : Output :=
  match fs.readText path with
  | .ok source => dumpText o config path source
  | .error e =>
    { stderr := [errorStart ++ path ++ ": ".toList ++ (Failure.file e).message]
      ending := .failure }

/-- The dumps of several files, one after the other. -/
def dumpFiles (fs : FileSystem) (o : Options) (config : Config) : List Text → Output
  | [] => {}
  | path :: paths => (dumpFile fs o config path).append (dumpFiles fs o config paths)

/-- A whole run. -/
def run (wording : Json.Wording) (fs : FileSystem) (o : Options) : Output :=
  match loadConfig wording fs o with
  | .error e => { stderr := [errorStart ++ e.message], ending := .failure }
  | .ok config => dumpFiles fs o config o.files

end Command
end LayoutLexer

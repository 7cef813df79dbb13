import LayoutLexer.Command.Run

/-! # The program

Reads the files that the arguments name, runs the command on them and writes what it answers.
-/
namespace LayoutLexer
namespace Command

/-- The line that says how the program is used. -/
def usage : Text :=
  "usage: [-c FILE] [--json] [--skip-trivia] [--strict] [-v] FILE...".toList

/-- What the parser of the program says of a document. -/
def wording : Json.Wording
  | _, .endOfInput => "the document ends too early".toList
  | _, .malformed => "the document is malformed".toList
  | _, .mismatch _ => []

/-- What a path leads to. -/
def openPath (path : Text) : IO (Except FileError Entry) := do
  try
    let bytes ← IO.FS.readBinFile (String.ofList path)
    pure (.ok (.file (bytes.toList.map UInt8.toNat)))
  catch e =>
    match e with
    | .noFileOrDirectory .. => pure (.error .notFound)
    | .inappropriateType _ code _ =>
      if code = 21 then pure (.ok .directory) else pure (.error .notADirectory)
    | e => pure (.error (.other (toString e).toList))

/-- A file system in which the given paths have been opened. -/
def openPaths (paths : List Text) : IO FileSystem := do
  let opened ← paths.mapM fun path => do pure (path, ← openPath path)
  pure fun path => ((opened.find? fun entry => entry.1 == path).map Prod.snd).getD
    (.error .notFound)

/-- Opens what a run needs: no file is opened if the configuration cannot be loaded. -/
def openAll (o : Options) : IO FileSystem := do
  let settings ← openPaths o.config.toList
  match loadConfig wording settings o with
  | .error _ => pure settings
  | .ok _ => openPaths (o.config.toList ++ o.files)

end Command
end LayoutLexer

open LayoutLexer in
/-- Dumps the files that the arguments name. -/
def main (arguments : List String) : IO UInt32 := do
  match Command.Options.ofArguments? (arguments.map String.toList) with
  | none =>
    IO.eprintln (String.ofList Command.usage)
    pure Command.usageStatus.toUInt32
  | some o =>
    let output := Command.run Command.wording (← Command.openAll o) o
    for message in output.stdout do
      IO.println (String.ofList message)
    for message in output.stderr do
      IO.eprintln (String.ofList message)
    if let .overflow e := output.ending then
      IO.eprintln (String.ofList e.message)
    pure output.ending.status.toUInt32

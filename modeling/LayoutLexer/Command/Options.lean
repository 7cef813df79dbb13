import LayoutLexer.Text

/-! # Command line arguments

Options may stand anywhere before `--`; everything after it is a file, as is a lone hyphen.
Switches of one letter combine, and an option with a value takes it from the rest of its
argument, with or without an equals sign, or from the next argument.  Nothing may be given
twice, no value may be empty, and at least one file is wanted.
-/
namespace LayoutLexer
namespace Command

/-- What the arguments ask for. -/
structure Options where
  /-- The file of the configuration. -/
  config : Option Text := none
  /-- Whether tokens are shown as JSON. -/
  json : Bool := false
  /-- Whether trivia are left out whatever the configuration says. -/
  skipTrivia : Bool := false
  /-- Whether a diagnostic makes the whole run fail. -/
  strict : Bool := false
  /-- Whether the run may say more about itself. -/
  verbose : Bool := false
  /-- The files, in their order. -/
  files : List Text := []
  deriving DecidableEq, Repr

/-- A switch. -/
inductive Switch where
  | json | skipTrivia | strict | verbose
  deriving DecidableEq, Repr

/-- A piece of the command line. -/
inductive Piece where
  | switch (s : Switch)
  | config (path : Text)
  | file (path : Text)
  deriving DecidableEq, Repr

/-- The switch with a long name. -/
def longSwitch? (name : Text) : Option Switch :=
  if name = "json".toList then some .json
  else if name = "skip-trivia".toList then some .skipTrivia
  else if name = "strict".toList then some .strict
  else if name = "verbose".toList then some .verbose
  else none

/-- The long name of the option with a value. -/
def configName : Text := "config".toList

/-- What an argument turns out to be: a list of pieces, which may end in an option that still
wants its value. -/
structure Argument where
  pieces : List Piece
  wantsValue : Bool
  deriving DecidableEq, Repr

/-- A long option after its two hyphens. -/
def longOption? (body : Text) : Option Argument :=
  match body.span (· != '=') with
  | (name, []) =>
    if name = configName then some ⟨[], true⟩
    else (longSwitch? name).map fun s => ⟨[.switch s], false⟩
  | (name, _ :: value) => if name = configName then some ⟨[.config value], false⟩ else none

/-- The letters of short options after their hyphen. -/
def shortOptions? : Text → Option Argument
  | [] => some ⟨[], false⟩
  | 'c' :: [] => some ⟨[], true⟩
  | 'c' :: '=' :: value => some ⟨[.config value], false⟩
  | 'c' :: value => some ⟨[.config value], false⟩
  | 'v' :: rest =>
    (shortOptions? rest).map fun a => { a with pieces := .switch .verbose :: a.pieces }
  | _ => none

/-- Whether an argument is an option and not a value or a file. -/
def isOption : Text → Bool
  | '-' :: _ :: _ => true
  | _ => false

/-- The pieces of a command line. -/
def pieces? : List Text → Option (List Piece)
  | [] => some []
  | ['-', '-'] :: rest => some (rest.map .file)
  | argument :: rest =>
    let reading :=
      match argument with
      | '-' :: '-' :: body => longOption? body
      | '-' :: c :: letters => shortOptions? (c :: letters)
      | path => some ⟨[.file path], false⟩
    match reading, rest with
    | none, _ => none
    | some ⟨pieces, false⟩, rest => (pieces? rest).map (pieces ++ ·)
    | some ⟨_, true⟩, [] => none
    | some ⟨pieces, true⟩, value :: rest =>
      if isOption value then none
      else (pieces? rest).map fun more => pieces ++ .config value :: more

/-- Whether a switch is on. -/
def Options.has (o : Options) : Switch → Bool
  | .json => o.json
  | .skipTrivia => o.skipTrivia
  | .strict => o.strict
  | .verbose => o.verbose

/-- The options with a switch on. -/
def Options.set (o : Options) : Switch → Options
  | .json => { o with json := true }
  | .skipTrivia => { o with skipTrivia := true }
  | .strict => { o with strict := true }
  | .verbose => { o with verbose := true }

/-- The options with one more piece, unless it is empty or given twice. -/
def Options.add? (o : Options) : Piece → Option Options
  | .switch s => if o.has s then none else some (o.set s)
  | .config path =>
    if path = [] ∨ o.config.isSome then none else some { o with config := some path }
  | .file path => if path = [] then none else some { o with files := o.files ++ [path] }

/-- The options that arguments give, if they are well formed. -/
def Options.ofArguments? (arguments : List Text) : Option Options :=
  match (pieces? arguments).bind fun pieces => pieces.foldlM Options.add? {} with
  | none => none
  | some o => if o.files = [] then none else some o

end Command
end LayoutLexer

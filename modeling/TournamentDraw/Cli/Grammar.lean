import TournamentDraw.Text.Quote

/-!
# The grammar of a command line

A program has options of its own and commands; a command has options. An option is written
`--name value` or `--name=value`, a switch `--name` alone (or its negative spelling). Values
are texts, integers, integers within bounds, or one of a list of names. The help and version
options show a page or the version and end the run.

A command line that breaks the grammar is refused with a usage error. Its message names the
fault: an unknown option (with the close spellings that exist), an option without its value,
a switch given a value, a value of the wrong kind, a required option left out, arguments
left over, an unknown command, no command at all. Option names in messages are quoted with
single quotes, and values as texts are quoted.
-/

namespace TournamentDraw.Cli

/-- What an option's value must be. -/
inductive Kind where
  /-- Any text. -/
  | text
  /-- An integer. -/
  | integer
  /-- An integer from `lo` to `hi`, both included. -/
  | bounded (lo hi : Int)
  /-- One of the names, in any case. -/
  | choice (names : List String)
  /-- A switch: its own spelling turns it on, the negative spelling (if any) off. -/
  | switch (off : Option String)
  deriving Repr, DecidableEq

/-- What giving an option does besides setting a value. -/
inductive Effect where
  /-- Nothing more. -/
  | none
  /-- Shows the help page and ends the run. -/
  | help
  /-- Shows the version and ends the run. -/
  | version
  deriving Repr, DecidableEq

/-- A value given on the command line, after its kind has been checked. -/
inductive Given where
  | text (s : String)
  | int (n : Int)
  | flag (b : Bool)
  deriving Repr, DecidableEq

/-- An option: the key its value is found by, its spelling, its kind, whether it must be
given, its value when left out, its help text, and its effect. -/
structure Opt where
  key : String
  long : String
  kind : Kind
  required : Bool := false
  default : Option Given := none
  help : String
  effect : Effect := .none
  deriving Repr

namespace Opt

/-- Whether the option reads a value after its name. -/
def takesValue (o : Opt) : Bool :=
  match o.kind with
  | .switch _ => false
  | _ => true

/-- The spellings of the option: its name, then its negative spelling. -/
def spellings (o : Opt) : List String :=
  match o.kind with
  | .switch (some off) => [o.long, off]
  | _ => [o.long]

/-- The option as named in a usage error: its name in single quotes. -/
def hint (o : Opt) : String :=
  "'" ++ o.long ++ "'"

end Opt

/-- The option that shows a help page. -/
def helpOpt : Opt :=
  { key := "help", long := "--help", kind := .switch none,
    help := "Show this message and exit.", effect := .help }

/-- A command: its name, its description (the first sentence is its summary), and its
options, the help option last. -/
structure Command where
  name : String
  doc : String
  opts : List Opt
  deriving Repr

/-- A program: its name, version, description, options and commands. -/
structure Program where
  name : String
  version : String
  doc : String
  opts : List Opt
  commands : List Command
  deriving Repr

/-- How a command line breaks the grammar. -/
inductive UsageError where
  /-- An option that does not exist, with the close spellings that do. -/
  | noSuchOption (name : String) (close : List String)
  /-- An option given without its value. -/
  | needsValue (name : String)
  /-- A switch given a value. -/
  | takesNoValue (name : String)
  /-- A value that is not an integer; `kind` names what was expected. -/
  | notInteger (hint value kind : String)
  /-- An integer out of bounds. -/
  | outOfRange (hint : String) (value lo hi : Int)
  /-- A value that is none of the names. -/
  | notAChoice (hint value : String) (names : List String)
  /-- A required option left out; a choice lists its names. -/
  | missing (hint : String) (names : Option (List String))
  /-- Arguments that no option or command takes. -/
  | extraArguments (args : List String)
  /-- A command that does not exist. -/
  | noSuchCommand (name : String)
  /-- No command given. -/
  | missingCommand
  deriving Repr, DecidableEq

/-- Whether a usage error is shown under the usage line. Errors found while splitting the
words into options (a value missing or a value given to a switch) are shown alone. -/
def UsageError.showsUsage : UsageError → Bool
  | .needsValue _ | .takesNoValue _ => false
  | _ => true

/-- The names of a choice, each quoted, separated by commas. -/
def quotedNames (names : List String) : String :=
  ", ".intercalate (names.map Text.quote)

/-- The message of a usage error. -/
def UsageError.message : UsageError → String
  | .noSuchOption name [] => "No such option: " ++ name
  | .noSuchOption name [c] => "No such option: " ++ name ++ " Did you mean " ++ c ++ "?"
  | .noSuchOption name cs =>
    "No such option: " ++ name ++ " (Possible options: " ++
      ", ".intercalate (cs.mergeSort fun a b => decide (a ≤ b)) ++ ")"
  | .needsValue name => "Option " ++ Text.quote name ++ " requires an argument."
  | .takesNoValue name => "Option " ++ Text.quote name ++ " does not take a value."
  | .notInteger hint v kind =>
    "Invalid value for " ++ hint ++ ": " ++ Text.quote v ++ " is not a valid " ++ kind ++ "."
  | .outOfRange hint v lo hi =>
    "Invalid value for " ++ hint ++ ": " ++ toString v ++ " is not in the range " ++
      toString lo ++ "<=x<=" ++ toString hi ++ "."
  | .notAChoice hint v [n] =>
    "Invalid value for " ++ hint ++ ": " ++ Text.quote v ++ " is not " ++ Text.quote n ++ "."
  | .notAChoice hint v names =>
    "Invalid value for " ++ hint ++ ": " ++ Text.quote v ++ " is not one of " ++
      quotedNames names ++ "."
  | .missing hint none => "Missing option " ++ hint ++ "."
  | .missing hint (some names) =>
    "Missing option " ++ hint ++ ". Choose from:\n\t" ++ ",\n\t".intercalate names
  | .extraArguments [a] => "Got unexpected extra argument (" ++ a ++ ")"
  | .extraArguments args => "Got unexpected extra arguments (" ++ " ".intercalate args ++ ")"
  | .noSuchCommand name => "No such command " ++ Text.quote name ++ "."
  | .missingCommand => "Missing command."

end TournamentDraw.Cli

import TournamentDraw.Cli.Parse
import TournamentDraw.Cli.Help
import TournamentDraw.Cli.Program
import TournamentDraw.Cli.Workspace
import TournamentDraw.Bracket.Generate
import TournamentDraw.Bracket.Outline
import TournamentDraw.Service.Pots

/-!
# Running the command line

A run ends in one of four ways. A command that succeeds writes its report to standard output
and exits with 0; so do the help page and the version. A usage error writes the usage line, a
hint to ask for help and the error to standard error, and exits with 2. A command that fails
writes `[ERROR]` and the reason, then `Aborted!`, to standard error and exits with 1: bad
settings, a competition that cannot be generated, a refused draw. A fault outside the
command's own reports (a database that cannot be used, a file that cannot be read) ends the
run with 1 and no report.

Without arguments the program shows its help page. A command name that is not known but
starts like an option makes the program read the rest of the line as its own options first.
-/

namespace TournamentDraw.Cli

/-- What a run leaves: its exit status, what it wrote to standard output and to standard
error, and the fault that ended it, if one did. -/
structure Outcome where
  status : Nat
  out : String := ""
  err : String := ""
  fault : Option Fault := none
  deriving Repr

/-- A page or message shown on standard output, ending the run normally. -/
def shown (text : String) : Outcome :=
  { status := 0, out := text ++ "\n" }

/-- Lines reported on standard output by a command that succeeded. -/
def reported (lines : List String) : Outcome :=
  { status := 0, out := String.join (lines.map (· ++ "\n")) }

/-- A command that failed for a reason it states. -/
def aborted (reason : String) : Outcome :=
  { status := 1, err := "[ERROR] " ++ reason ++ "\nAborted!\n" }

/-- A run ended by a fault. -/
def faulted (f : Fault) : Outcome :=
  { status := 1, fault := some f }

/-- A usage error as shown: the usage line and the hint to ask for help at the path, if the
error shows them, then the error. -/
def usageReport (usage path : String) (e : UsageError) : Outcome :=
  let head := if e.showsUsage then usage ++ "\nTry '" ++ path ++ " --help' for help.\n\n" else ""
  { status := 2, err := head ++ "Error: " ++ e.message ++ "\n" }

/-- The settings a command runs with, or the outcome that ends it. -/
def Workspace.setup (w : Workspace) (path : Option String) : Except Outcome Settings :=
  match w.settings path with
  | .ok s => .ok s
  | .error (.refused e) =>
    if e.reported then .error (aborted ("Configuration Error: " ++ e.message))
    else .error (faulted (.settings e))
  | .error (.fault f) => .error (faulted f)

/-- Print the outline of a competition. Options left out take the settings' values; a
competition without a seed takes the next one. -/
def runPreview (w : Workspace) (vs : List (String × Given)) : Outcome × Workspace :=
  match w.setup (textOf vs "config") with
  | .error o => (o, w)
  | .ok cfg =>
    let advancing : Value := match intOf vs "advancing" with
      | some 0 | none => .int cfg.advancing
      | some n => .int n
    let legs : Value := match intOf vs "legs" with
      | some 0 | none => cfg.legs
      | some n => .int n
    let plan : Plan :=
      { teams := (intOf vs "teams").getD 0, groupCount := intOf vs "groups",
        advancing := advancing,
        thirdPlace := .bool ((flagOf vs "third_place").getD cfg.thirdPlace),
        seed := textOf vs "seed", legs := legs }
    let (r, n) := Bracket.generate ((textOf vs "type").getD "") plan w.issued.competition
    let w := { w with issued := { w.issued with competition := n } }
    match r with
    | .error e =>
      if e.isInvalidValue then (aborted e.message, w)
      else (faulted (.service (ServiceError.ofStep e).kind), w)
    | .ok b => (reported b.outline, w)

/-- Create the tables of the settings' database. -/
def runInitDb (w : Workspace) (vs : List (String × Given)) : Outcome × Workspace :=
  match w.setup (textOf vs "config") with
  | .error o => (o, w)
  | .ok cfg =>
    match w.createTables cfg.databaseUrl with
    | .error f => (faulted f, w)
    | .ok w => (reported ["[SUCCESS] Tables created in " ++ cfg.databaseUrl], w)

/-- Whether a refusal is one the draw reports itself: an unknown tournament, an act not
allowed, or an invalid request. -/
def isReportedKind : ErrorKind → Bool
  | .notFound | .forbidden | .validation => true
  | _ => false

/-- Draw a tournament's groups from its pots and list each group's clubs. -/
def runPotDraw (w : Workspace) (vs : List (String × Given)) : Outcome × Workspace :=
  match w.setup (textOf vs "config") with
  | .error o => (o, w)
  | .ok cfg =>
    let actor : Actor := { user := textOf vs "user", role := textOf vs "role" }
    match w.openStore cfg.databaseUrl with
    | (.error f, w) => (faulted f, w)
    | (.ok s, w) =>
      let draw := Txn.potDraw ((textOf vs "tournament").getD "") (.int ((intOf vs "groups").getD 0))
        cfg.strictPots actor
      match Txn.exec draw s w.issued with
      | (.ok gs, s, i) =>
        let club (rid : String) : String := ((s.registration? rid).map (·.club)).getD rid
        let lines := s!"[SUCCESS] Drew {gs.length} groups" ::
          gs.flatMap fun g => ["", s!"  Group {g.letter}:"] ++ g.teams.map ("     " ++ club ·)
        (reported lines, { w.saveStore cfg.databaseUrl s with issued := i })
      | (.error e, _, i) =>
        let w := { w with issued := i }
        if isReportedKind e.kind then (aborted e.message, w) else (faulted (.service e.kind), w)

/-- Run the body of a command with its options' values. The web server is not available. -/
def runBody (name : String) (w : Workspace) (vs : List (String × Given)) : Outcome × Workspace :=
  match name with
  | "preview" => runPreview w vs
  | "init-db" => runInitDb w vs
  | "pot-draw" => runPotDraw w vs
  | _ => (faulted .serverMissing, w)

/-- Run a command, reached at a path, on its arguments. -/
def Command.run (c : Command) (path : String) (w : Workspace) (args : List String) :
    Outcome × Workspace :=
  match readCommand c args with
  | .error e => (usageReport (usageLine path "[OPTIONS]") path e, w)
  | .ok (.values vs) => runBody c.name w vs
  | .ok _ => (shown (c.page path), w)

/-- Whether a word starts like an option: with a character that is not a letter or digit. -/
def startsLikeOption (s : String) : Bool :=
  match s.toList with
  | c :: _ => !(c.isAlphanum || 128 ≤ c.toNat)
  | [] => false

/-- The settings path a command line gives, for a caller that reads files before a run. -/
def settingsPath? : List String → Option String
  | "--config" :: p :: _ => some p
  | a :: rest => if a.startsWith "--config=" then some (String.ofList (a.toList.drop 9))
    else settingsPath? rest
  | [] => none

/-- Run the program on its arguments. -/
def Program.run (p : Program) (w : Workspace) (args : List String) : Outcome × Workspace :=
  let usage := usageLine p.name "[OPTIONS] COMMAND [ARGS]..."
  let refuse (e : UsageError) : Outcome × Workspace := (usageReport usage p.name e, w)
  let page : Outcome × Workspace := (shown p.page, w)
  let version : Outcome × Workspace := (shown (p.name ++ ", version " ++ p.version), w)
  if args.isEmpty then page else
    match readProgram p args with
    | .error e => refuse e
    | .ok (.help, _) => page
    | .ok (.version, _) => version
    | .ok (.values _, []) => refuse .missingCommand
    | .ok (.values _, name :: rest) =>
      match p.commands.find? (·.name == name) with
      | some c => c.run (p.name ++ " " ++ name) w rest
      | none =>
        if !startsLikeOption name then refuse (.noSuchCommand name)
        else if rest.isEmpty then page
        else
          match readProgram p rest with
          | .error e => refuse e
          | .ok (.help, _) => page
          | .ok (.version, _) => version
          | .ok _ => refuse (.noSuchCommand name)

end TournamentDraw.Cli

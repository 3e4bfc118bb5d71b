import TournamentDraw.Cli.Run

/-!
# The command-line program

The program reads its arguments and the settings file they name, runs, and writes what the
run wrote to standard output and standard error; its exit status is the run's. Databases
last for one run.
-/

open TournamentDraw.Cli

/-- Run the program on the command line. -/
def main (args : List String) : IO UInt32 := do
  let files ← match settingsPath? args with
    | some p =>
      try
        let text ← IO.FS.readFile p
        pure [(p, text)]
      catch _ => pure []
    | none => pure []
  let (o, _) := (program "ftdraw").run (Workspace.ofFiles files) args
  IO.print o.out
  IO.eprint o.err
  if let some f := o.fault then IO.eprintln ("Error: " ++ f.describe)
  pure o.status.toUInt32

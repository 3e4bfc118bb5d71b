import TournamentDraw.Cli.Grammar
import TournamentDraw.Release
import TournamentDraw.Bracket.Basic

/-!
# The commands of the program

The program has four commands: `init-db` creates the database tables, `preview` prints the
outline of a competition without saving anything, `pot-draw` draws a tournament's groups from
its pots, and `serve` starts the web server. Each takes `--config`, the path of a settings
file; without it the default settings apply. The program itself takes `--version`.
-/

namespace TournamentDraw.Cli

/-- The version of the program. -/
def programVersion : String := releaseVersion

/-- The settings file option that every command takes. -/
def configOpt : Opt :=
  { key := "config", long := "--config", kind := .text,
    help := "Path to config YAML file (defaults apply when omitted)" }

/-- The command that creates the database tables. -/
def initDbCommand : Command :=
  { name := "init-db",
    doc := "Create the database tables.\n\nExample:\n    ftdraw init-db --config config/ftdraw.yaml",
    opts := [configOpt, helpOpt] }

/-- The command that prints a competition's outline. -/
def previewCommand : Command :=
  { name := "preview",
    doc := "Print the structure of a bracket without saving anything.\n\nExample:\n" ++
      "    ftdraw preview --type SINGLE_ELIMINATION --teams 6 --third-place",
    opts := [
      { key := "type", long := "--type", kind := .choice (Format.all.map Format.name),
        required := true, help := "Competition format" },
      { key := "teams", long := "--teams", kind := .integer, required := true,
        help := "Number of teams" },
      { key := "groups", long := "--groups", kind := .integer,
        help := "Number of groups (group formats)" },
      { key := "advancing", long := "--advancing", kind := .integer,
        help := "Teams per group reaching the knockout stage" },
      { key := "third_place", long := "--third-place", kind := .switch (some "--no-third-place"),
        help := "Add a third place match" },
      { key := "legs", long := "--legs", kind := .bounded 1 2, help := "League legs" },
      { key := "seed", long := "--seed", kind := .text, help := "Seed stored with the bracket" },
      configOpt, helpOpt] }

/-- The command that draws a tournament's groups from its pots. -/
def potDrawCommand : Command :=
  { name := "pot-draw",
    doc := "Run the pot-based draw of a tournament.\n\nExample:\n" ++
      "    ftdraw pot-draw --tournament 3f2a... --groups 4 --user 42",
    opts := [
      { key := "tournament", long := "--tournament", kind := .text, required := true,
        help := "Tournament ID" },
      { key := "groups", long := "--groups", kind := .integer, required := true,
        help := "Number of groups" },
      { key := "user", long := "--user", kind := .text, required := true,
        help := "Acting user ID" },
      { key := "role", long := "--role", kind := .text, default := some (.text "ORGANIZER"),
        help := "Acting user role" },
      configOpt, helpOpt] }

/-- The command that starts the web server. -/
def serveCommand : Command :=
  { name := "serve",
    doc := "Launch the JSON API.\n\nExample:\n    ftdraw serve --port 8000 --config config/ftdraw.yaml",
    opts := [
      { key := "host", long := "--host", kind := .text, default := some (.text "127.0.0.1"),
        help := "Host to bind to" },
      { key := "port", long := "--port", kind := .integer, default := some (.int 8000),
        help := "Port to bind to" },
      configOpt, helpOpt] }

/-- The program, run under a name. -/
def program (name : String) : Program :=
  { name := name, version := programVersion,
    doc := "ftdraw - group draws and brackets for football tournaments.",
    opts := [{ key := "version", long := "--version", kind := .switch none,
               help := "Show the version and exit.", effect := .version }, helpOpt],
    commands := [initDbCommand, previewCommand, potDrawCommand, serveCommand] }

end TournamentDraw.Cli

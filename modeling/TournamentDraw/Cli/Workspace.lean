import TournamentDraw.Store.Basic
import TournamentDraw.Settings.Check
import TournamentDraw.Service.Error
import TournamentDraw.Seed

/-!
# The workspace of a command

A command runs in a workspace: the text files of its working directory, the database files
in it, and the counters that hand out row ids and seeds. A database is reached by an address
such as `sqlite:///data/cup.sqlite`: an engine name, `://`, an optional host, and after the
next slash the database's path. An SQLite address without a path, or with `:memory:`, leads
to a database in memory, which every command starts afresh; any other path leads to a file,
which is created, empty, the first time the database is opened. Other engines are known but
their drivers are not available; unknown engines are refused.

Paths are compared in their plain form (`a/./b` is `a/b`, `a/../b` is `b`), and the files
listed are those inside the working directory, in the order of their paths.
-/

namespace TournamentDraw.Cli

/-- A database file: created and still empty, or holding the tables. -/
inductive Database where
  | blank
  | tables (t : Tables)
  deriving Repr

/-- Where a database address leads. -/
inductive Location where
  | memory
  | file (path : String)
  deriving Repr, DecidableEq

/-- Faults that end a command outside its own reports. -/
inductive Fault where
  /-- The database address cannot be read. -/
  | badAddress
  /-- No engine is known by the address's name. -/
  | unknownEngine
  /-- The engine's driver is not available. -/
  | missingDriver
  /-- The database file holds something else. -/
  | notADatabase
  /-- The database file cannot be opened. -/
  | cannotOpen
  /-- The database has no tables. -/
  | noTables
  /-- A file to read is a directory. -/
  | isDirectory
  /-- A file to read is not text. -/
  | notText
  /-- A service failure that is not a refusal. -/
  | service (kind : ErrorKind)
  /-- The web server is not available. -/
  | serverMissing
  /-- The settings file cannot be loaded or checked for a reason that is no complaint about
  the settings. -/
  | settings (e : SettingsError)
  deriving Repr, DecidableEq

/-- What a fault means, in words. -/
def Fault.describe : Fault → String
  | .badAddress => "the database address cannot be read"
  | .unknownEngine => "no database engine has that name"
  | .missingDriver => "the database driver is not installed"
  | .notADatabase => "the file is not a database"
  | .cannotOpen => "the database file cannot be opened"
  | .noTables => "the database has no tables"
  | .isDirectory => "the settings path is a directory"
  | .notText => "the settings file is not text"
  | .service _ => "the request failed"
  | .serverMissing => "the web server is not installed"
  | .settings e => e.message

/-- A workspace: text files and database files by path, row counters, and seeds issued. -/
structure Workspace where
  files : List (String × String) := []
  databases : List (String × Database) := []
  counters : Counters := {}
  issued : Seed.Issued := {}
  deriving Repr

/-- The plain form of a path: empty and `.` segments dropped, `..` taking back the segment
before it. An absolute path keeps its leading slash, and a relative path that climbs out of
the directory keeps its leading `..` segments. -/
def normalPath (p : String) : String :=
  let absolute := p.startsWith "/"
  let segs := (p.splitOn "/").foldl (fun acc s =>
    if s = "" ∨ s = "." then acc
    else if s = ".." then
      match acc.getLast? with
      | some ".." => acc ++ [".."]
      | some _ => acc.dropLast
      | none => if absolute then [] else [".."]
    else acc ++ [s]) []
  (if absolute then "/" else "") ++ "/".intercalate segs

/-- Whether a plain path lies inside the working directory. -/
def isInside (key : String) : Bool :=
  !(key.isEmpty || key.startsWith "/" || key = ".." || key.startsWith "../")

/-- Whether a character may stand in an engine name: a letter, digit, underscore or plus. -/
def isEngineChar (c : Char) : Bool :=
  c.isAlphanum || c = '_' || c = '+' || 128 ≤ c.toNat

/-- Engines whose drivers are known but not available. -/
def driverlessEngines : List String :=
  ["postgresql", "mysql", "mariadb", "oracle", "mssql"]

/-- Where a database address leads. -/
def Location.ofAddress (url : String) : Except Fault Location :=
  match url.splitOn "://" with
  | name :: after :: more =>
    if name.isEmpty || !name.all isEngineChar then .error .badAddress else
      let rest := "://".intercalate (after :: more)
      let (engine, driver) := match name.splitOn "+" with
        | e :: d :: ds => (e, some ("+".intercalate (d :: ds)))
        | _ => (name, none)
      if engine = "sqlite" then
        match driver with
        | none | some "pysqlite" =>
          let afterHost := rest.toList.dropWhile fun c => c ≠ '/' && c ≠ '?'
          match afterHost with
          | '/' :: path =>
            let db := String.ofList (path.takeWhile (· ≠ '?'))
            if db.isEmpty || db = ":memory:" then .ok .memory else .ok (.file db)
          | _ => .ok .memory
        | some "aiosqlite" | some "pysqlcipher" => .error .missingDriver
        | some _ => .error .unknownEngine
      else if driverlessEngines.contains engine then .error .missingDriver
      else .error .unknownEngine
  | _ => .error .badAddress

namespace Workspace

/-- A workspace holding the given text files. -/
def ofFiles (files : List (String × String)) : Workspace :=
  { files := files.map fun (p, t) => (normalPath p, t) }

/-- Whether a plain path names a directory: the working directory, its parent, the root, or
a directory holding a file. -/
def isDirectory (w : Workspace) (key : String) : Bool :=
  key.isEmpty || key = "/" || key = ".." ||
    (w.files.map (·.1) ++ w.databases.map (·.1)).any (·.startsWith (key ++ "/"))

/-- The paths of the files inside the working directory, in order. -/
def listing (w : Workspace) : List String :=
  ((w.files.map (·.1) ++ w.databases.map (·.1)).filter isInside).eraseDups.mergeSort
    fun a b => decide (a ≤ b)

/-- The workspace with the database at a plain path set. -/
def setDatabase (w : Workspace) (key : String) (d : Database) : Workspace :=
  { w with databases := assocSet w.databases key d }

/-- Open the database file at a plain path: a directory cannot be opened and a text file with
content is no database; a missing or empty file becomes an empty database. -/
def touch (w : Workspace) (key : String) : Except Fault Database × Workspace :=
  if w.isDirectory key then (.error .cannotOpen, w) else
    match w.databases.lookup key with
    | some d => (.ok d, w)
    | none =>
      match w.files.lookup key with
      | some text =>
        if text.isEmpty then
          (.ok .blank, { w with files := w.files.filter (·.1 ≠ key),
                                databases := w.databases ++ [(key, .blank)] })
        else (.error .notADatabase, w)
      | none => (.ok .blank, { w with databases := w.databases ++ [(key, .blank)] })

/-- Create the tables of the database at an address, keeping those that exist. -/
def createTables (w : Workspace) (url : String) : Except Fault Workspace := do
  match ← Location.ofAddress url with
  | .memory => pure w
  | .file p =>
    let key := normalPath p
    match w.touch key with
    | (.error f, _) => throw f
    | (.ok .blank, w) => pure (w.setDatabase key (.tables {}))
    | (.ok (.tables _), w) => pure w

/-- The store of the database at an address, for a command that reads it. The file is
created if it is missing, so the workspace changes even when the database has no tables. -/
def openStore (w : Workspace) (url : String) : Except Fault Store × Workspace :=
  match Location.ofAddress url with
  | .error f => (.error f, w)
  | .ok .memory => (.error .noTables, w)
  | .ok (.file p) =>
    match w.touch (normalPath p) with
    | (.error f, w) => (.error f, w)
    | (.ok .blank, w) => (.error .noTables, w)
    | (.ok (.tables t), w) => (.ok { tables := t, counters := w.counters }, w)

/-- The workspace after a store was changed: its counters, and its tables if the database is
a file. -/
def saveStore (w : Workspace) (url : String) (s : Store) : Workspace :=
  let w := { w with counters := s.counters }
  match Location.ofAddress url with
  | .ok (.file p) => w.setDatabase (normalPath p) (.tables s.tables)
  | _ => w

/-- Run requests against the database at an address after creating its tables; the
requests share the workspace's counters and seeds. -/
def session {α : Type} (w : Workspace) (url : String)
    (run : Store → Seed.Issued → α × Store × Seed.Issued) : Except Fault (α × Workspace) := do
  let w ← w.createTables url
  let tables : Tables := match Location.ofAddress url with
    | .ok (.file p) =>
      match w.databases.lookup (normalPath p) with
      | some (.tables t) => t
      | _ => {}
    | _ => {}
  let (a, s, i) := run { tables := tables, counters := w.counters } w.issued
  pure (a, { w.saveStore url s with issued := i })

/-- Why a command cannot take its settings. -/
inductive SetupFailure where
  | refused (e : SettingsError)
  | fault (f : Fault)
  deriving Repr

/-- The settings a command runs with: the defaults without a settings file, else those of
the file, which must exist, be text and hold valid settings. -/
def settings (w : Workspace) : Option String → Except SetupFailure Settings
  | none => (Settings.checkValue (.obj [])).mapError .refused
  | some path =>
    let key := normalPath path
    if w.isDirectory key then .error (.fault .isDirectory) else
      match w.files.lookup key, w.databases.lookup key with
      | some text, _ => (Settings.load text).mapError .refused
      | none, some .blank => (Settings.load "").mapError .refused
      | none, some (.tables _) => .error (.fault .notText)
      | none, none => .error (.refused (.fileMissing path))

end Workspace

end TournamentDraw.Cli

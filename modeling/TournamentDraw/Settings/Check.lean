import TournamentDraw.Yaml.Load
import TournamentDraw.Yaml.Datum.Key
import TournamentDraw.Text.Case
import TournamentDraw.Service.Settings
import TournamentDraw.Value.Sort

/-!
# Checking settings

Settings are checked field by field, in a fixed order, and the first field that is wrong is
reported: the database address must be a non-empty text, the default group size an integer
of at least 2, the qualifiers per group a positive integer, the third-place match a truth
value, the league legs 1 or 2, the pot draw an object whose `strict_pots` is a truth value,
and the log level, upper-cased, one of the five levels. A field left out takes its default;
unknown fields are ignored, but they must be texts that can be listed in order. They are
gathered into a hash table, read from it in slot order and sorted, so when keys of kinds with
no order between them meet, the slot order decides which pair is reported. Values are shown in
messages as `Yaml.Datum.text` shows them.
-/

namespace TournamentDraw

/-- A fault of checking a value that is not settings-shaped at all, outside the settings'
own complaints. -/
inductive CheckFault where
  /-- The settings are a value whose members cannot be listed. -/
  | notIterable (typeName : String)
  /-- A member of listed settings cannot be a key. -/
  | unhashable (typeName : String)
  /-- Two unknown keys cannot be put in order. -/
  | unordered (fault : Yaml.OrderFault)
  /-- An unknown key, in sorted order at `index`, is not a text. -/
  | notText (index : Nat) (typeName : String)
  /-- The settings are no mapping, so no field can be looked up. -/
  | noFields (typeName : String)
  deriving Repr, DecidableEq

/-- The message of a checking fault. -/
def CheckFault.message : CheckFault → String
  | .notIterable t => "'" ++ t ++ "' object is not iterable"
  | .unhashable t => "unhashable type: '" ++ t ++ "'"
  | .unordered f => f.message
  | .notText i t => "sequence item " ++ toString i ++ ": expected str instance, " ++ t ++ " found"
  | .noFields t => "'" ++ t ++ "' object has no attribute 'get'"

/-- Why settings are refused. -/
inductive SettingsError where
  | fileMissing (path : String)
  | yaml (fault : Yaml.LoadFault)
  | empty
  | notMapping
  | unchecked (fault : CheckFault)
  | databaseUrl
  | groupSize (shown : String)
  | advancing
  | thirdPlace
  | legs (shown : String)
  | potDraw
  | strictPots
  | logLevel (shown : String)
  deriving Repr, DecidableEq

/-- The log levels, from the most verbose. -/
def logLevels : List String := ["DEBUG", "INFO", "WARNING", "ERROR", "CRITICAL"]

/-- The log levels as listed in a message. -/
def logLevelList : String := ", ".intercalate logLevels

/-- Whether a refusal is a complaint about the settings, reported as such; the others are
faults of loading or checking that end the run. -/
def SettingsError.reported : SettingsError → Bool
  | .yaml .malformed => true
  | .yaml _ | .unchecked _ => false
  | _ => true

/-- The message of a refusal. -/
def SettingsError.message : SettingsError → String
  | .fileMissing p => s!"Config file not found: {p}"
  | .yaml .malformed => "Invalid YAML in config file"
  | .yaml f => f.message
  | .empty => "Config file is empty"
  | .notMapping => "Config file must contain a mapping"
  | .unchecked f => f.message
  | .databaseUrl => "database_url must be a non-empty string"
  | .groupSize v => s!"default_group_size must be an integer >= 2, got {v}"
  | .advancing => "advancing_per_group must be a positive integer"
  | .thirdPlace => "third_place_match must be true or false"
  | .legs v => s!"league_legs must be 1 or 2, got {v}"
  | .potDraw => "pot_draw must be a dictionary"
  | .strictPots => "pot_draw.strict_pots must be true or false"
  | .logLevel v => s!"log_level must be one of {logLevelList}, got '{v}'"

/-- Checked settings. The league legs keep the number as written (`1` or `1.0`). -/
structure Settings where
  databaseUrl : String := "sqlite:///.ftdraw/ftdraw.sqlite"
  groupSize : Int := 4
  advancing : Int := 2
  thirdPlace : Bool := false
  legs : Value := .int 2
  strictPots : Bool := false
  logLevel : String := "INFO"
  deriving Repr, Inhabited

namespace Settings

/-- Checked settings as an object. -/
def toValue (s : Settings) : Value :=
  .obj [("database_url", .str s.databaseUrl), ("default_group_size", .int s.groupSize),
    ("advancing_per_group", .int s.advancing), ("third_place_match", .bool s.thirdPlace),
    ("league_legs", s.legs), ("pot_draw", .obj [("strict_pots", .bool s.strictPots)]),
    ("log_level", .str s.logLevel)]

/-- Whether a value equals the number `n`: an integer, or a binary64 value, but no truth value. -/
def isNumber (v : Value) (n : Int) : Bool :=
  match v with
  | .int k => k == n
  | .float (.finite x) => let (a, b) := x.toFraction; a == n * (b : Int)
  | .float .negZero => n == 0
  | _ => false

/-- The names of the settings' fields. -/
def fieldNames : List String :=
  ["database_url", "default_group_size", "advancing_per_group", "third_place_match",
    "league_legs", "pot_draw", "log_level"]

open Yaml in
/-- The members of settings given as some value, gathered into a hash table as its unknown
keys are looked for: the keys of a mapping, the items of a list, the characters of a text. -/
def listedKeys : Datum → Except CheckFault (Hash.Table Datum)
  | .dict es => .ok (Hash.Table.ofMapping Datum.sameKey Datum.keyHash (es.map (·.1)))
  | .list xs | .set xs =>
    match xs.find? (!·.hashable) with
    | some x => .error (.unhashable x.typeName)
    | none => .ok (Hash.Table.ofList Datum.sameKey Datum.keyHash xs)
  | .str s => .ok (Hash.Table.ofList Datum.sameKey Datum.keyHash (s.toList.map fun c => .str c.toString))
  | d => .error (.notIterable d.typeName)

open Yaml in
/-- Check that the unknown keys, read in slot order from a table without the known fields, can
be sorted and then joined as texts. -/
def unknownKeysListed (keys : Hash.Table Datum) : Except CheckFault Unit := do
  let known (k : Datum) : Bool := fieldNames.any fun n => Datum.sameKey k (.str n)
  let unknown := (keys.without Datum.sameKey known fieldNames.length).keys
  let sorted ← (sortWith Datum.lessThan unknown).mapError .unordered
  match sorted.zipIdx.find? fun (k, _) => !(k matches .str _) with
  | none => pure ()
  | some (k, i) => throw (.notText i k.typeName)

mutual

/-- A JSON value as a loaded value. -/
def datumOfValue : Value → Yaml.Datum
  | .null => .none
  | .bool b => .bool b
  | .int n => .int n
  | .float x => .float x
  | .str s => .str s
  | .list xs => .list (datumsOfValues xs)
  | .obj fs => .dict (entriesOfFields fs)

/-- JSON values as loaded values. -/
def datumsOfValues : List Value → List Yaml.Datum
  | [] => []
  | x :: xs => datumOfValue x :: datumsOfValues xs

/-- The members of a JSON object as the entries of a mapping. -/
def entriesOfFields : List (String × Value) → List (Yaml.Datum × Yaml.Datum)
  | [] => []
  | (k, v) :: fs => (.str k, datumOfValue v) :: entriesOfFields fs

end

open Yaml in
/-- The value given for field `k` of settings given as `entries`. A mark of a mapping met again
inside itself can, at the top, only be the settings themselves, and stands for them. -/
def given (entries : List (Datum × Datum)) (k : String) : Option Datum :=
  (Datum.member? entries k).map fun
    | .again _ => .dict entries
    | v => v

open Yaml in
/-- The value of field `k`, or `d` when it is left out. -/
def field (entries : List (Datum × Datum)) (k : String) (d : Datum) : Datum :=
  (given entries k).getD d

open Yaml in
/-- The database address: a non-empty text. -/
def databaseUrlOf : Datum → Except SettingsError String
  | .str s => if s.isEmpty then throw .databaseUrl else pure s
  | _ => throw .databaseUrl

open Yaml in
/-- An integer of at least `bound`, and no truth value; `refuse` names the refusal of a value. -/
def atLeast (bound : Int) (refuse : Datum → SettingsError) (v : Datum) :
    Except SettingsError Int :=
  match v with
  | .int n => if n < bound then throw (refuse v) else pure n
  | _ => throw (refuse v)

open Yaml in
/-- A truth value, else the refusal `e`. -/
def truthValue (e : SettingsError) : Datum → Except SettingsError Bool
  | .bool b => pure b
  | _ => throw e

open Yaml in
/-- The league legs: a number equal to 1 or 2, and no truth value, kept as written. -/
def legsOf (v : Datum) : Except SettingsError Value :=
  match v with
  | .int n => if n == 1 || n == 2 then pure (.int n) else throw (.legs v.text)
  | .float x =>
    if isNumber (.float x) 1 || isNumber (.float x) 2 then pure (.float x)
    else throw (.legs v.text)
  | _ => throw (.legs v.text)

open Yaml in
/-- The pot draw options: a mapping whose `strict_pots`, false when left out, is a truth
value. -/
def strictPotsOf : Datum → Except SettingsError Bool
  | .dict pd => truthValue .strictPots ((Datum.member? pd "strict_pots").getD (.bool false))
  | _ => throw .potDraw

open Yaml in
/-- The log level: the value as shown, upper-cased, must be one of the five levels. -/
def logLevelOf (v : Datum) : Except SettingsError String :=
  let level := Text.upper v.text
  if logLevels.contains level then pure level else throw (.logLevel level)

open Yaml in
/-- Check the fields of settings given as a mapping, in order, a field left out taking its
default; the first refusal ends the check. -/
def checkFields (entries : List (Datum × Datum)) : Except SettingsError Settings := do
  let url ← databaseUrlOf (field entries "database_url" (.str "sqlite:///.ftdraw/ftdraw.sqlite"))
  let size ← atLeast 2 (fun v => .groupSize v.text) (field entries "default_group_size" (.int 4))
  let advancing ← atLeast 1 (fun _ => .advancing) (field entries "advancing_per_group" (.int 2))
  let third ← truthValue .thirdPlace (field entries "third_place_match" (.bool false))
  let legs ← legsOf (field entries "league_legs" (.int 2))
  let strict ← strictPotsOf (field entries "pot_draw" (.dict []))
  let level ← logLevelOf (field entries "log_level" (.str "INFO"))
  return { databaseUrl := url, groupSize := size, advancing := advancing, thirdPlace := third,
           legs := legs, strictPots := strict, logLevel := level }

open Yaml in
/-- Check settings given as a loaded value: its unknown keys must be texts, and it must be a
mapping whose fields pass their checks. -/
def check (cfg : Datum) : Except SettingsError Settings := do
  let ks ← (listedKeys cfg).mapError .unchecked
  (unknownKeysListed ks).mapError .unchecked
  match cfg with
  | .dict es => checkFields es
  | d => throw (.unchecked (.noFields d.typeName))

/-- Check settings given as a JSON value. -/
def checkValue (cfg : Value) : Except SettingsError Settings :=
  check (datumOfValue cfg)

/-- Read a settings file's text and check it: it must hold a mapping. -/
def load (text : String) : Except SettingsError Settings :=
  match Yaml.load text with
  | .error f => .error (.yaml f)
  | .ok none | .ok (some .none) => .error .empty
  | .ok (some d@(.dict _)) => check d
  | .ok (some _) => .error .notMapping

end Settings

end TournamentDraw

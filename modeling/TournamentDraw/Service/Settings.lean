import TournamentDraw.Value
import TournamentDraw.Service.Error

/-!
# The settings the services read

The services take the settings as given, unchecked: the default group size for a draw, the
qualifiers per group, the third-place match and the league legs. Missing or empty settings
mean the defaults; settings that are not an object are refused when a setting is asked for.
The group count of a draw divides the number of teams by the group size and
rounds up, as a binary64 quotient; a zero size or one that is not a number is refused the way
the division refuses it.
-/

namespace TournamentDraw

/-- The default settings. -/
def defaultSettings : Value :=
  .obj [("database_url", .str "sqlite:///.ftdraw/ftdraw.sqlite"),
    ("default_group_size", .int 4), ("advancing_per_group", .int 2),
    ("third_place_match", .bool false), ("league_legs", .int 2),
    ("pot_draw", .obj [("strict_pots", .bool false)]), ("log_level", .str "INFO")]

/-- A setting, with a default when it is not set; missing or empty settings mean the
default settings, and settings that are not an object cannot be asked for one. -/
def setting (cfg : Value) (key : String) (d : Value) : Except ServiceError Value :=
  if !cfg.truthy then .ok ((defaultSettings.get? key).getD d)
  else match cfg with
    | .obj fs => .ok ((fs.lookup key).getD d)
    | v => .error (.noAttribute s!"'{v.kindName}' object has no attribute 'get'")

/-- The number of groups for `teams` teams in groups of `size`: the quotient rounded up. -/
def groupsFor (teams : Nat) (size : Value) : Except ServiceError Int :=
  match size with
  | .int n => if n = 0 then .error (.divisionByZero "division by zero")
    else .ok (Binary64.ofFraction teams n).ceil
  | .bool b => if b then .ok teams else .error (.divisionByZero "division by zero")
  | .float (.finite x) =>
    if x.mant = 0 then .error (.divisionByZero "float division by zero")
    else
      let (a, b) := x.toFraction
      match Double.ofFraction (teams * b * a.sign) a.natAbs with
      | .finite q => .ok q.ceil
      | .infinity _ => .error .infiniteCount
      | _ => .ok 0
  | .float .negZero => .error (.divisionByZero "float division by zero")
  | .float (.infinity _) => .ok 0
  | .float .nan => .error .notANumber
  | v => .error (.operandType s!"unsupported operand type(s) for /: 'int' and '{v.kindName}'")

end TournamentDraw

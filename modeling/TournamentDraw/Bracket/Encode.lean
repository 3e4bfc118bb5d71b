import TournamentDraw.Bracket.Basic
import TournamentDraw.Bracket.Error
import TournamentDraw.Standings
import TournamentDraw.Text.Quote

/-!
# Competitions as values

Matches, rounds, competitions and table rows are written as objects with a fixed order of
fields, and read back from such objects. Reading keeps the value of every field, whatever
its kind, and fills a field that is left out with its default; a match needs its id, round
and number, a round its number and name, a competition its format, a table row its team.
States, lanes and formats must be given by their names. A competition writes the moment it
was generated in ISO form and reads it back, taking the current time when there is none. A
record that is not an object is refused as the operation reading it would refuse it: looked up
by key, gone through as pairs, or asked for its members.
-/

namespace TournamentDraw

/-- Why a value is not a match, round, competition or table row. -/
inductive ReadError where
  /-- A required field is missing. -/
  | missingKey (key : String)
  /-- A value that names no state, lane or format. -/
  | invalid (e : BracketError)
  /-- A field that a record of the kind does not have. -/
  | unexpectedField (kind key : String)
  /-- Fields that a record of the kind needs. -/
  | missingFields (kind : String) (keys : List String)
  /-- A value of a kind that cannot be read as asked. -/
  | wrongKind (msg : String)
  /-- A value of a fitting kind that still cannot be read. -/
  | badValue (msg : String)
  /-- A value that lacks an operation that reading needs. -/
  | noAttribute (msg : String)
  deriving Repr

/-- The message of a read error. -/
def ReadError.message : ReadError → String
  | .missingKey k => k
  | .invalid e => e.message
  | .unexpectedField c k => s!"{c}.__init__() got an unexpected keyword argument '{k}'"
  | .missingFields c ks =>
    let names := ks.map (fun k => s!"'{k}'")
    let listed := match names.reverse with
      | [] => ""
      | [a] => a
      | last :: rest => String.intercalate ", " rest.reverse ++ " and " ++ last
    let noun := if ks.length = 1 then "argument" else "arguments"
    s!"{c}.__init__() missing {ks.length} required positional {noun}: {listed}"
  | .wrongKind m | .badValue m | .noAttribute m => m

namespace Encode

/-- The field names of a match, in the order they are written. -/
def matchFields : List String :=
  ["id", "round", "match_number", "team1_id", "team2_id", "team1_slot", "team2_slot",
   "team1_score", "team2_score", "winner_id", "loser_id", "manual_winner_id",
   "is_manual_override", "status", "next_match_id", "loser_next_match_id", "auto_advance",
   "group_letter"]

/-- The field names of a table row, in the order they are written. -/
def standingFields : List String :=
  ["team_id", "played", "won", "drawn", "lost", "goals_for", "goals_against",
   "goal_difference", "points", "position"]

end Encode

/-- A match as an object of all its fields. -/
def Match.toValue (m : Match) : Value :=
  .obj [("id", m.id), ("round", m.round), ("match_number", m.number),
    ("team1_id", m.team1), ("team2_id", m.team2), ("team1_slot", m.slot1),
    ("team2_slot", m.slot2), ("team1_score", m.score1), ("team2_score", m.score2),
    ("winner_id", m.winner), ("loser_id", m.loser), ("manual_winner_id", m.manualWinner),
    ("is_manual_override", m.manualOverride), ("status", .str m.status.name),
    ("next_match_id", m.next), ("loser_next_match_id", m.loserNext),
    ("auto_advance", m.autoAdvance), ("group_letter", m.groupLetter)]

/-- A knockout round as an object. -/
def Round.toValue (r : Round) : Value :=
  .obj [("round_number", r.number), ("round_name", r.name),
    ("matches", .list (r.games.map Match.toValue)),
    ("bracket", match r.lane with
      | some l => .str l.name
      | none => .null)]

/-- A competition as an object. -/
def Bracket.toValue (b : Bracket) : Value :=
  .obj [("type", .str b.format.name), ("group_count", b.groupCount),
    ("teams_per_group", b.teamsPerGroup), ("advancing_teams_per_group", b.advancing),
    ("playoff_rounds", .list (b.rounds.map Round.toValue)),
    ("matches", .list (b.fixtures.map Match.toValue)),
    ("group_matches", .obj (b.groups.map fun (l, ms) => (l, .list (ms.map Match.toValue)))),
    ("third_place_match", b.thirdPlace), ("seed", b.seed),
    ("generated_at", .str b.generatedAt.iso)]

/-- A table row as an object. -/
def Standing.toValue (s : Standing) : Value :=
  .obj [("team_id", s.team), ("played", s.played), ("won", s.won), ("drawn", s.drawn),
    ("lost", s.lost), ("goals_for", s.goalsFor), ("goals_against", s.goalsAgainst),
    ("goal_difference", s.goalDifference), ("points", s.points), ("position", s.position)]

namespace Encode

/-- The refusal to look a key up in a value that is not an object. -/
def subscriptError (v : Value) : ReadError :=
  match v with
  | .list _ => .wrongKind "list indices must be integers or slices, not str"
  | .str _ => .wrongKind "string indices must be integers, not 'str'"
  | _ => .wrongKind s!"'{v.kindName}' object is not subscriptable"

/-- The items a value yields when it is gone through: a list its items, a text its
characters, an object its keys. Other kinds are refused. -/
def items (v : Value) : Except ReadError (List Value) :=
  match v with
  | .list xs => .ok xs
  | .str s => .ok (s.toList.map fun c => .str c.toString)
  | .obj fs => .ok (fs.map fun (k, _) => .str k)
  | _ => .error (.wrongKind s!"'{v.kindName}' object is not iterable")

/-- An item of a sequence of pairs as a key and a value: a list of two items, a text of two
characters or an object of two keys. -/
def pairOf (i : Nat) (x : Value) : Except ReadError (Value × Value) := do
  let parts ← match x with
    | .list _ | .str _ | .obj _ => items x
    | _ => throw (.wrongKind s!"cannot convert dictionary update sequence element #{i} to a sequence")
  match parts with
  | [k, v] => return (k, v)
  | ps => throw (.badValue s!"dictionary update sequence element #{i} has length {ps.length}; 2 is required")

/-- The fields of a record given as a value: an object's members, or a sequence of key and
value pairs, a later pair of a key replacing the earlier value. Field names must be texts. -/
def recordFields (v : Value) : Except ReadError (List (String × Value)) := do
  match v with
  | .obj fs => return fs
  | .null | .bool _ | .int _ | .float _ =>
    throw (.wrongKind s!"'{v.kindName}' object is not iterable")
  | _ =>
    let pairs ← (← items v).zipIdx.mapM fun (x, i) => pairOf i x
    let pairs ← pairs.mapM fun (k, x) => do
      match k with
      | .list _ | .obj _ => throw (.wrongKind s!"unhashable type: '{k.kindName}'")
      | _ => return (k, x)
    if pairs.any fun (k, _) => !(k matches .str _) then
      throw (.wrongKind "keywords must be strings")
    return pairs.foldl (fun acc (k, x) =>
      match k with
      | .str key => assocSet acc key x
      | _ => acc) []

/-- The value of a field, null when it is missing. -/
def field (fs : List (String × Value)) (key : String) : Value :=
  (fs.lookup key).getD .null

/-- The members of a record passed as named fields of a kind: refused unless the record is
an object, or if it has a field the kind does not know or lacks one it needs. -/
def namedFields (kind : String) (known required : List String) (v : Value) :
    Except ReadError (List (String × Value)) := do
  let fs ← match v with
    | .obj fs => pure fs
    | _ => throw (.wrongKind
        s!"ftdraw.models.{kind}() argument after ** must be a mapping, not {v.kindName}")
  if let some k := (fs.map Prod.fst).find? (!known.contains ·) then
    throw (ReadError.unexpectedField kind k)
  let missing := required.filter fun k => !(fs.map Prod.fst).contains k
  if !missing.isEmpty then throw (.missingFields kind missing)
  return fs

/-- The moment a competition was generated, read from its ISO form; a false value, a missing
one included, stands for the current time. -/
def generatedAtOf (v : Value) : Except ReadError DateTime :=
  if !v.truthy then .ok .clockStart else
    match v with
    | .str t => match DateTime.ofIso? t with
      | some d => .ok d
      | none => .error (.badValue s!"Invalid isoformat string: {Text.quote t}")
    | _ => .error (.wrongKind "fromisoformat: argument must be str")

end Encode

open Encode in
/-- A match from a record; fields left out take their defaults. The state must be a state's
name; any other field keeps the value it has. -/
def Match.ofValue (v : Value) : Except ReadError Match := do
  let fs ← recordFields v
  let status ← match fs.lookup "status" with
    | none => pure Status.pending
    | some x =>
      match x with
      | .str s => match Status.ofName? s with
        | some st => pure st
        | none => throw (.invalid (.unknownStatus x))
      | _ => throw (.invalid (.unknownStatus x))
  if let some k := (fs.map Prod.fst).find? (!matchFields.contains ·) then
    throw (ReadError.unexpectedField "Match" k)
  let missing := ["id", "round", "match_number"].filter fun k => !(fs.map Prod.fst).contains k
  if !missing.isEmpty then throw (.missingFields "Match" missing)
  return { id := field fs "id", round := field fs "round", number := field fs "match_number",
           team1 := field fs "team1_id", team2 := field fs "team2_id",
           slot1 := field fs "team1_slot", slot2 := field fs "team2_slot",
           score1 := field fs "team1_score", score2 := field fs "team2_score",
           winner := field fs "winner_id", loser := field fs "loser_id",
           manualWinner := field fs "manual_winner_id",
           manualOverride := (fs.lookup "is_manual_override").getD (.bool false),
           status := status, next := field fs "next_match_id",
           loserNext := field fs "loser_next_match_id",
           autoAdvance := (fs.lookup "auto_advance").getD (.bool false),
           groupLetter := field fs "group_letter" }

open Encode in
/-- A knockout round from an object: its number and name are required, its matches default
to none, and a lane is read only from a true value. -/
def Round.ofValue (v : Value) : Except ReadError Round := do
  let fs ← match v with
    | .obj fs => pure fs
    | _ => throw (subscriptError v)
  let some number := fs.lookup "round_number" | throw (.missingKey "round_number")
  let some name := fs.lookup "round_name" | throw (.missingKey "round_name")
  let games ← (← items ((fs.lookup "matches").getD (.list []))).mapM Match.ofValue
  let laneValue := field fs "bracket"
  let lane ← if !laneValue.truthy then pure none else
    match laneValue with
    | .str s => match Lane.ofName? s with
      | some l => pure (some l)
      | none => throw (.invalid (.unknownLane laneValue))
    | _ => throw (.invalid (.unknownLane laneValue))
  return { number := number, name := name, games := games, lane := lane }

open Encode in
/-- A competition from an object: its format is required and must be a format's name; the
other fields default to null, no rounds or matches, no third-place match, and the current time
as the moment it was generated. -/
def Bracket.ofValue (v : Value) : Except ReadError Bracket := do
  let fs ← match v with
    | .obj fs => pure fs
    | _ => throw (.noAttribute s!"'{v.kindName}' object has no attribute 'get'")
  let some name := fs.lookup "type" | throw (.missingKey "type")
  let format ← match name with
    | .str s => match Format.ofName? s with
      | some f => pure f
      | none => throw (.invalid (.unknownFormat name))
    | _ => throw (.invalid (.unknownFormat name))
  let rounds ← (← items ((fs.lookup "playoff_rounds").getD (.list []))).mapM Round.ofValue
  let fixtures ← (← items ((fs.lookup "matches").getD (.list []))).mapM Match.ofValue
  let groups ← match (fs.lookup "group_matches").getD (.obj []) with
    | .obj gs => gs.mapM fun (l, x) => do return (l, ← (← items x).mapM Match.ofValue)
    | x => throw (.noAttribute s!"'{x.kindName}' object has no attribute 'items'")
  let generatedAt ← generatedAtOf (field fs "generated_at")
  return { format := format, groupCount := field fs "group_count",
           teamsPerGroup := field fs "teams_per_group",
           advancing := field fs "advancing_teams_per_group", rounds := rounds,
           fixtures := fixtures, groups := groups,
           thirdPlace := (fs.lookup "third_place_match").getD (.bool false),
           seed := field fs "seed", generatedAt := generatedAt }

open Encode in
/-- A table row from an object; only the team is required, and every field keeps the value
it has. -/
def Standing.ofValue (v : Value) : Except ReadError Standing := do
  let fs ← namedFields "GroupStanding" standingFields ["team_id"] v
  let n (k : String) : Value := (fs.lookup k).getD (.int 0)
  return { team := field fs "team_id", played := n "played", won := n "won",
           drawn := n "drawn", lost := n "lost", goalsFor := n "goals_for",
           goalsAgainst := n "goals_against", goalDifference := n "goal_difference",
           points := n "points", position := n "position" }

end TournamentDraw

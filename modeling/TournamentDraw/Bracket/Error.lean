import TournamentDraw.Value.Compare

/-!
# Refused competition steps

Every way a generator, a placement or a result can be refused, with its message. An unknown
match id is told apart from the other refusals, because callers report it as a missing key
rather than as an invalid request.
-/

namespace TournamentDraw

/-- Why a step on a competition is refused. -/
inductive BracketError where
  /-- No match has this id (or no knockout match, when a team moves along a link). -/
  | unknownMatch (id : String)
  /-- A team moves into a match whose sides are both taken. -/
  | full (id : String)
  /-- A team named as winner does not play in the match. -/
  | notPlaying (team id : String)
  /-- A knockout match cannot be completed before both sides are known. -/
  | missingTeams (id : String)
  /-- A level knockout match needs the team that goes through. -/
  | level (id : String)
  /-- A result cannot change once a match it fed has been played. -/
  | alreadyPlayed (id target : String)
  /-- A value that names no match state. -/
  | unknownStatus (v : Value)
  /-- A value that names no format. -/
  | unknownFormat (v : Value)
  /-- A value that names no lane. -/
  | unknownLane (v : Value)
  /-- More teams than the first knockout round can take. -/
  | noRoom (room count : Nat)
  /-- A knockout draw needs two teams. -/
  | knockoutTeams (count : Value)
  /-- Groups need one team. -/
  | groupTeams (count : Int)
  /-- A round robin needs two teams. -/
  | roundRobinTeams (count : Int)
  /-- A quotient of counts beyond the finite range of binary64. -/
  | quotientOverflow
  /-- A count that is an infinity, or not a number, where a whole number is needed. -/
  | notWhole (infinite : Bool)
  /-- Values that an operation on them refuses. -/
  | operand (e : OperandError)
  deriving Repr

/-- The message of a refusal. -/
def BracketError.message : BracketError → String
  | .unknownMatch id => id
  | .full id => s!"Match {id} already has two teams"
  | .notPlaying t id => s!"Team {t} does not play in match {id}"
  | .missingTeams id => s!"Match {id} does not have two teams yet"
  | .level id => s!"Knockout match {id} is level: an advancing team is required"
  | .alreadyPlayed id t => s!"Cannot change {id}: {t} has already been played"
  | .unknownStatus v => v.shown ++ " is not a valid MatchStatus"
  | .unknownFormat v => v.shown ++ " is not a valid BracketType"
  | .unknownLane v => v.shown ++ " is not a valid BracketLane"
  | .noRoom room n => s!"Bracket has room for {room} teams, got {n}"
  | .knockoutTeams n => s!"A knockout bracket needs at least 2 teams, got {n.describe}"
  | .groupTeams n => s!"Cannot create groups with {n} teams"
  | .roundRobinTeams n => s!"Round robin needs at least 2 teams, got {n}"
  | .quotientOverflow => "integer division result too large for a float"
  | .notWhole true => "cannot convert float infinity to integer"
  | .notWhole false => "cannot convert float NaN to integer"
  | .operand e => e.message

/-- Whether a refusal is of a value: every refusal but an unknown key, a count out of the
range of whole numbers, operands of kinds an operation does not take, and numbers too large
for binary64. -/
def BracketError.isInvalidValue : BracketError → Bool
  | .unknownMatch _ | .quotientOverflow | .notWhole true | .operand (.unsupported _)
  | .operand (.overflow _) => false
  | _ => true

end TournamentDraw

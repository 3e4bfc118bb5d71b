import TournamentDraw.Bracket.Encode
import TournamentDraw.Draw.Deal
import TournamentDraw.Store.Cell

/-!
# Refused service requests

Every way a service request is refused. Each refusal has a kind (what is missing, who may not
act, what state or input does not allow the request, or a malformed request) and a message.
A refused competition step is reported as an invalid request with the step's message, except
that a missing match link, an unknown format, values of kinds an operation does not take and
counts out of range are passed on as they are.
-/

namespace TournamentDraw

/-- The acts that need the tournament's organizer or an administrator. -/
inductive Action where
  | executeDraw
  | updateBracket
  | resetDraw
  | createGroups
  | updateGroups
  | manageBrackets
  | manageMatches
  | managePots
  deriving Repr, DecidableEq

/-- The words for an act in a refusal. -/
def Action.text : Action → String
  | .executeDraw => "execute the draw for this tournament"
  | .updateBracket => "update the bracket for this tournament"
  | .resetDraw => "reset the draw for this tournament"
  | .createGroups => "create groups for this tournament"
  | .updateGroups => "update groups for this tournament"
  | .manageBrackets => "manage brackets for this tournament"
  | .manageMatches => "manage matches for this tournament"
  | .managePots => "manage pots for this tournament"

/-- The kinds of refusal. -/
inductive ErrorKind where
  | notFound
  | forbidden
  | validation
  | invalidValue
  | missingKey
  | divisionByZero
  | operandType
  | overflow
  | missingAttribute
  | unencodable
  deriving Repr, DecidableEq

/-- Why a service request is refused. -/
inductive ServiceError where
  | tournamentNotFound
  | registrationNotFound (id : String)
  | registrationNotInTournament
  | groupNotFound
  | bracketNotFound
  | matchNotFound (id : String)
  | forbidden (a : Action)
  | drawDone
  | notOpen
  | tooFewForDraw
  | moreGroupsThanTeams
  | groupCountRange
  | emptyLetter
  | letterTaken (letter : String)
  | listedTwice
  | groupsNotDrawn
  | drawnGroupCount (drawn given : Int)
  | tooFewForBracket
  | negativeScore
  | noKnockoutStage
  | groupStageOpen (pending : Nat)
  | knockoutStarted
  | notApproved
  | potNumber (n : Value)
  | noTeams
  | potGroupCount (max : Nat)
  | notDivisible (teams : Nat) (groups : Value)
  | unpotted (assigned total : Nat)
  /-- A competition step refused, reported as an invalid request. -/
  | refused (e : BracketError)
  /-- A deal refused, reported as an invalid request. -/
  | refusedDeal (e : Draw.DealError)
  /-- A competition step refused and passed on as it is. -/
  | step (e : BracketError)
  | missingField (key : String)
  | divisionByZero (msg : String)
  | operandType (msg : String)
  /-- A count computed as not a number. -/
  | notANumber
  /-- A count computed as an infinity. -/
  | infiniteCount
  /-- Values that an operation of the service refuses. -/
  | operand (e : OperandError)
  /-- Settings that cannot be asked for a setting. -/
  | noAttribute (msg : String)
  /-- A value the store refuses to keep or to look for. -/
  | cell (f : CellFault)
  /-- A stored competition whose record cannot be read back. -/
  | unreadable (e : ReadError)
  deriving Repr

namespace ServiceError

/-- A refused competition step as the services report it: a missing match link, values of
kinds an operation does not take, and counts too large or infinite are passed on; any other
refusal is an invalid request. -/
def ofStep (e : BracketError) : ServiceError :=
  if e.isInvalidValue then .refused e else .step e

/-- The kind of a refusal. -/
def kind : ServiceError → ErrorKind
  | .tournamentNotFound | .registrationNotFound _ | .registrationNotInTournament
  | .groupNotFound | .bracketNotFound | .matchNotFound _ => .notFound
  | .forbidden _ => .forbidden
  | .step (.unknownMatch _) | .missingField _ => .missingKey
  | .step .quotientOverflow | .step (.notWhole true) => .overflow
  | .step (.operand (.unsupported _)) => .operandType
  | .step (.operand (.overflow _)) => .overflow
  | .step _ => .invalidValue
  | .divisionByZero _ => .divisionByZero
  | .operandType _ | .operand (.unsupported _) => .operandType
  | .notANumber | .operand (.invalid _) => .invalidValue
  | .infiniteCount | .operand (.overflow _) => .overflow
  | .noAttribute _ => .missingAttribute
  | .cell .integerRange => .overflow
  | .cell (.unencodable _) => .unencodable
  | .unreadable (.missingKey _) => .missingKey
  | .unreadable (.invalid _) | .unreadable (.badValue _) => .invalidValue
  | .unreadable (.noAttribute _) => .missingAttribute
  | .unreadable _ => .operandType
  | _ => .validation

/-- The message of a refusal. -/
def message : ServiceError → String
  | .tournamentNotFound => "Tournament not found"
  | .registrationNotFound id => s!"Registration {id} not found"
  | .registrationNotInTournament => "Registration not found in this tournament"
  | .groupNotFound => "Group not found"
  | .bracketNotFound => "Bracket not found"
  | .matchNotFound id => s!"Match {id} not found"
  | .forbidden a => s!"You are not allowed to {a.text}"
  | .drawDone => "Draw has already been completed for this tournament"
  | .notOpen => "Can only execute draw for published or ongoing tournaments"
  | .tooFewForDraw => "At least 2 approved teams are required for the draw"
  | .moreGroupsThanTeams => "Number of groups cannot exceed number of teams"
  | .groupCountRange => "Number of groups must be between 1 and 26"
  | .emptyLetter => "Group letter must not be empty"
  | .letterTaken l => s!"Group {l} already exists"
  | .listedTwice => "A team can only be listed once in a group"
  | .groupsNotDrawn => "Groups must be drawn before generating a group bracket"
  | .drawnGroupCount d g => s!"Tournament has {d} drawn groups, not {g}"
  | .tooFewForBracket => "At least 2 approved teams are required for a bracket"
  | .negativeScore => "Scores cannot be negative"
  | .noKnockoutStage => "Only a groups plus knockout bracket has a knockout stage to seed"
  | .groupStageOpen n => s!"Group stage not finished: {n} matches pending"
  | .knockoutStarted => "Knockout stage has already started"
  | .notApproved => "Only approved registrations can be assigned to pots"
  | .potNumber n => s!"Pot number must be between 1 and 4, got {n.describe}"
  | .noTeams => "No teams registered for this tournament"
  | .potGroupCount m => s!"Number of groups must be between 2 and {m}"
  | .notDivisible t g => s!"Number of teams ({t}) must be divisible by number of groups ({g.describe})"
  | .unpotted a t => s!"Not all teams assigned to pots. Assigned: {a}, Total: {t}"
  | .refused e => e.message
  | .refusedDeal e => e.message
  | .step e => e.message
  | .missingField k => k
  | .divisionByZero m => m
  | .operandType m => m
  | .notANumber => "cannot convert float NaN to integer"
  | .infiniteCount => "cannot convert float infinity to integer"
  | .operand e => e.message
  | .noAttribute m => m
  | .cell f => f.message
  | .unreadable e => e.message

end ServiceError

end TournamentDraw

import TournamentDraw.Api.Request
import TournamentDraw.Api.Body
import TournamentDraw.Bracket.Basic

/-!
# The endpoints of the JSON API

Each endpoint is a method and a path pattern, whose slots hold a tournament id and perhaps a
group or match id. It may ask for a body of a shape, it may need the acting user, and it
answers `201 Created` if it creates something and `200 OK` otherwise.

A request is routed to the first endpoint whose pattern and method fit it. A path that fits a
pattern but none of its methods answers `405`; a path that fits none answers `404`, unless the
path with its trailing slashes dropped, or with one added, fits a pattern: the request is then
sent again to that path.
-/

namespace TournamentDraw.Api

/-- The endpoints of the API. -/
inductive Endpoint where
  /-- The name and version of the service. -/
  | about
  /-- Draw a tournament's groups. -/
  | draw
  /-- Undo a tournament's draw. -/
  | resetDraw
  /-- A tournament's groups. -/
  | groups
  /-- Create a group by hand. -/
  | createGroup
  /-- Change a group's teams or letter. -/
  | updateGroup
  /-- A tournament's groups and its competition. -/
  | bracket
  /-- Move teams between groups. -/
  | moveTeams
  /-- Generate a tournament's competition. -/
  | generate
  /-- Seed the group qualifiers into the knockout rounds. -/
  | advance
  /-- A competition's matches. -/
  | matchList
  /-- Record a match's score. -/
  | score
  /-- Send a team on from a match by decision. -/
  | forceAdvance
  /-- The group tables. -/
  | standings
  /-- Put a team into a pot. -/
  | assignPot
  /-- Put several teams into pots. -/
  | assignPots
  /-- The pots with their teams. -/
  | pots
  /-- Check how full the pots are. -/
  | checkPots
  /-- Draw a tournament's groups from its pots. -/
  | potDraw
  /-- Empty a tournament's pots. -/
  | clearPots
  deriving Repr, DecidableEq

/-- A part of a path pattern: a fixed word, or a slot for any non-empty word. -/
inductive Segment where
  | word (w : String)
  | slot
  deriving Repr, DecidableEq

/-- The pattern of a path below a tournament: `/tournaments/{id}/` and the given parts. -/
def belowTournament (rest : List Segment) : List Segment :=
  .word "tournaments" :: .slot :: rest

/-- An integer that may be `null`. -/
def optionalInteger : Shape := .nullable (.integer none none)

/-- A text that may be `null`. -/
def optionalText : Shape := .nullable (.text none none)

/-- A group letter: one to five characters. -/
def letterShape : Shape := .text (some 1) (some 5)

/-- A count of at least one. -/
def positiveCount : Shape := .nullable (.integer (some 1) none)

/-- A field that may be left out, and is then `null`. -/
def optionalField (name : String) (s : Shape) : String × Shape × Option Value :=
  (name, s, some .null)

/-- A field that must be given. -/
def requiredField (name : String) (s : Shape) : String × Shape × Option Value :=
  (name, s, none)

/-- The names of the match states. -/
def statusNames : List String :=
  [Status.pending, .inProgress, .completed].map Status.name

/-- A team's move to a group. -/
def moveShape : Shape :=
  .record (.ofList [requiredField "registration_id" (.text none none),
    requiredField "group_letter" letterShape])

/-- A team's pot. -/
def potShape : Shape :=
  .record (.ofList [requiredField "registration_id" (.text none none),
    requiredField "pot_number" (.integer none none)])

namespace Endpoint

/-- Every endpoint, in the order requests are routed. -/
def all : List Endpoint :=
  [about, draw, resetDraw, groups, createGroup, updateGroup, bracket, moveTeams, generate,
    advance, matchList, score, forceAdvance, standings, assignPot, assignPots, pots, checkPots,
    potDraw, clearPots]

/-- The method of an endpoint. -/
def method : Endpoint → String
  | about | groups | bracket | matchList | standings | pots => "GET"
  | draw | createGroup | generate | advance | assignPot | assignPots | checkPots | potDraw =>
    "POST"
  | updateGroup | moveTeams | score | forceAdvance => "PATCH"
  | resetDraw | clearPots => "DELETE"

/-- The path pattern of an endpoint, after its leading slash. -/
def pattern : Endpoint → List Segment
  | about => [.word ""]
  | draw | resetDraw => belowTournament [.word "draw"]
  | groups | createGroup => belowTournament [.word "groups"]
  | updateGroup => belowTournament [.word "groups", .slot]
  | bracket | moveTeams => belowTournament [.word "bracket"]
  | generate => belowTournament [.word "bracket", .word "generate"]
  | advance => belowTournament [.word "bracket", .word "advance"]
  | matchList => belowTournament [.word "matches"]
  | score => belowTournament [.word "matches", .slot, .word "score"]
  | forceAdvance => belowTournament [.word "matches", .slot, .word "advance"]
  | standings => belowTournament [.word "standings"]
  | assignPot => belowTournament [.word "pots", .word "assign"]
  | assignPots => belowTournament [.word "pots", .word "bulk-assign"]
  | pots | clearPots => belowTournament [.word "pots"]
  | checkPots => belowTournament [.word "pots", .word "validate"]
  | potDraw => belowTournament [.word "pots", .word "draw"]

/-- Whether an endpoint creates something and answers `201`. -/
def creates : Endpoint → Bool
  | draw | createGroup | generate | potDraw => true
  | _ => false

/-- The status code of an endpoint's answer. -/
def status (e : Endpoint) : Nat :=
  if e.creates then 201 else 200

/-- Whether an endpoint needs the acting user. -/
def acting : Endpoint → Bool
  | draw | resetDraw | createGroup | updateGroup | moveTeams | generate | advance | score
  | forceAdvance | assignPot | assignPots | potDraw | clearPots => true
  | _ => false

/-- What an endpoint asks of its body. -/
def body : Endpoint → BodyRule
  | draw => .required (.record (.ofList [optionalField "number_of_groups" optionalInteger,
      optionalField "seed" optionalText]))
  | createGroup => .required (.record (.ofList [requiredField "group_letter" letterShape,
      ("teams", .listOf (.text none none), some (.list [])),
      ("group_order", .integer none none, some (.int 0))]))
  | updateGroup => .required (.record (.ofList [
      optionalField "teams" (.nullable (.listOf (.text none none))),
      optionalField "group_letter" (.nullable letterShape)]))
  | moveTeams => .required (.record (.ofList [requiredField "assignments" (.listOf moveShape)]))
  | generate => .required (.record (.ofList [
      optionalField "bracket_type" (.nullable (.oneOf (Format.all.map Format.name))),
      optionalField "age_group_id" optionalText,
      optionalField "group_count" positiveCount,
      optionalField "advancing_per_group" positiveCount,
      optionalField "third_place_match" (.nullable .flag),
      optionalField "seed" optionalText,
      optionalField "league_legs" (.nullable (.integer (some 1) (some 2)))]))
  | advance => .optional (.record (.ofList [optionalField "age_group_id" optionalText]))
  | score => .required (.record (.ofList [optionalField "team1_score" optionalInteger,
      optionalField "team2_score" optionalInteger,
      optionalField "advancing_team_id" optionalText,
      optionalField "status" (.nullable (.oneOf statusNames)),
      optionalField "age_group_id" optionalText]))
  | forceAdvance => .required (.record (.ofList [requiredField "team_id" (.text none none),
      optionalField "age_group_id" optionalText]))
  | assignPot => .required potShape
  | assignPots => .required (.record (.ofList [requiredField "assignments" (.listOf potShape)]))
  | checkPots => .optional (.record (.ofList [optionalField "expected_per_pot" optionalInteger]))
  | potDraw => .required (.record (.ofList [requiredField "number_of_groups" (.integer none none)]))
  | _ => .unread

end Endpoint

/-- The words a pattern's slots take in a path, if the path fits the pattern. -/
def fitPattern : List Segment → List String → Option (List String)
  | [], [] => some []
  | .word w :: ps, s :: ss => if w = s then fitPattern ps ss else none
  | .slot :: ps, s :: ss => if s.isEmpty then none else (fitPattern ps ss).map (s :: ·)
  | _, _ => none

/-- Where a request is routed. -/
inductive Routing where
  /-- To an endpoint, with the words of its slots. -/
  | found (e : Endpoint) (slots : List String)
  /-- The path fits an endpoint but the method does not. -/
  | wrongMethod
  /-- The path fits no endpoint. -/
  | notFound
  deriving Repr, DecidableEq

/-- Route a method and a path. -/
def route (method path : String) : Routing :=
  if !path.startsWith "/" then .notFound else
    let parts := (path.drop 1).toString.splitOn "/"
    let fits := Endpoint.all.filterMap fun e => (fitPattern e.pattern parts).map (e, ·)
    match fits.find? (·.1.method == method) with
    | some (e, slots) => .found e slots
    | none => if fits.isEmpty then .notFound else .wrongMethod

/-- The path a request that fits no endpoint is sent again to: with its trailing slashes
dropped, or with one added, if that fits an endpoint. The root is never sent again. -/
def redirect? (method path : String) : Option String :=
  if path = "/" then none else
    let other :=
      if path.endsWith "/" then String.ofList (path.toList.reverse.dropWhile (· = '/')).reverse
      else path ++ "/"
    if route method other = .notFound then none else some other

end TournamentDraw.Api

import TournamentDraw.Service.Groups
import TournamentDraw.Service.Pots
import TournamentDraw.Bracket.Encode

/-!
# Store rows and service answers as values

The objects in which tournaments, registrations, groups, pot entries and pot checks are
answered, with their fields in a fixed order.
-/

namespace TournamentDraw

/-- A tournament as an object. -/
def Tournament.toValue (t : Tournament) : Value :=
  .obj [("id", .str t.id), ("name", .str t.name), ("organizer_id", .ofOptStr t.organizer),
    ("status", .str t.status), ("draw_completed", .bool t.drawCompleted),
    ("draw_seed", .ofOptStr t.drawSeed)]

/-- A registration as an object. -/
def Registration.toValue (r : Registration) : Value :=
  .obj [("id", .str r.id), ("tournament_id", .str r.tournament), ("club_name", .str r.club),
    ("coach_name", .ofOptStr r.coach), ("status", .str r.status),
    ("group_assignment", .ofOptStr r.group)]

/-- A group as an object. -/
def Group.toValue (g : Group) : Value :=
  .obj [("id", .str g.id), ("tournament_id", .str g.tournament), ("group_letter", .str g.letter),
    ("group_order", g.order), ("teams", .list (g.teams.map .str))]

/-- A team of a group with its club and coach. -/
def TeamView.toValue (t : TeamView) : Value :=
  .obj [("registration_id", .str t.id), ("club_name", .ofOptStr t.club),
    ("coach_name", .ofOptStr t.coach)]

/-- A group with the clubs and coaches of its teams. -/
def GroupView.toValue (v : GroupView) : Value :=
  match v.group.toValue with
  | .obj fs => .obj (fs ++ [("team_details", .list (v.teams.map TeamView.toValue))])
  | x => x

/-- A pot entry as an object. -/
def PotEntry.toValue (e : PotEntry) : Value :=
  .obj [("id", .str e.id), ("tournament_id", .str e.tournament),
    ("registration_id", .str e.registration), ("pot_number", .int e.pot)]

/-- Pot counts as an object keyed by pot number. -/
def potCountsValue (counts : List (Nat × Nat)) : Value :=
  .obj (counts.map fun (p, n) => (toString p, .int n))

/-- A pot check as an object. -/
def PotCheck.toValue (c : PotCheck) : Value :=
  .obj [("valid", .bool c.valid), ("message", .str c.message),
    ("pot_counts", potCountsValue c.counts)]

end TournamentDraw

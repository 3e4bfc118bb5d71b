/-!
# The release

The name and version under which the command line and the JSON API present themselves.
-/

namespace TournamentDraw

/-- The name of the service. -/
def serviceName : String := "ftdraw"

/-- The version of the release. -/
def releaseVersion : String := "0.1.0"

end TournamentDraw

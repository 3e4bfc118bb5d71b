import TournamentDraw.Api.Endpoint
import TournamentDraw.Api.Clock
import TournamentDraw.Service.Competition
import TournamentDraw.Service.Encode
import TournamentDraw.Settings.Check
import TournamentDraw.Release

/-!
# Answering requests

The API starts with its settings, which may be invalid. A request routed to an endpoint is
then taken through these checks, the first that fails deciding the answer:

1. a body that cannot be decoded, or holds an integer of more than 4300 digits, answers `400`,
   and one that is not JSON answers `422` with the position where reading stopped;
2. an endpoint that needs the acting user answers `401` without an `X-User-Id` header, or
   with an empty one;
3. invalid settings end the request with a fault (only the service's name and version are
   answered without settings);
4. a body that does not have the endpoint's shape answers `422` with every problem found,
   written with its message and the value found at it;
5. the service runs: a refusal it reports (an unknown object, an act not allowed, an invalid
   request) answers `404`, `403` or `400` with its kind and message, any other refusal ends
   the request with a fault, and success answers the endpoint's status with its result.

A refused service request leaves the store's tables as they were, except where the service
keeps the steps done before the refusal (assigning several pots).

An answer is written as compact JSON in UTF-8. One whose body holds a number that strict JSON
cannot write (not a number, an infinity) or a lone surrogate, which UTF-8 cannot write, is not
sent: the request fails, and a change the service made stays made.
-/

namespace TournamentDraw.Api

/-- Why a response body cannot be written as compact JSON in UTF-8. -/
inductive WriteFault where
  /-- A number that strict JSON cannot write. -/
  | notJson
  /-- A lone surrogate; the message names it, or the run of them, by position in the text. -/
  | notUtf8 (msg : String)
  deriving Repr, DecidableEq

/-- Why a body cannot be written, if it cannot: strict JSON is checked first, then UTF-8. -/
def writeFault? (v : Value) : Option WriteFault :=
  if !Json.strict v then some .notJson
  else (Text.utf8Refusal? (Json.compact v)).map .notUtf8

/-- How a request ends: with a response, or with a fault that no response reports. -/
inductive Outcome where
  | answer (r : Response)
  | badSettings (e : SettingsError)
  | failed (e : ServiceError)
  /-- The answer cannot be written. -/
  | unwritable (f : WriteFault)
  deriving Repr

/-- Send a response whose body is written as `written`: the response, unless that cannot be
written. -/
def send (r : Response) (written : Value) : Outcome :=
  match writeFault? written with
  | some f => .unwritable f
  | none => .answer r

/-- Send a response written as its body. -/
def reply (r : Response) : Outcome :=
  send r r.body

/-- The code and status with which a refusal of a kind is answered, if it is answered. -/
def refusal? : ErrorKind → Option (String × Nat)
  | .notFound => some ("not_found", 404)
  | .forbidden => some ("forbidden", 403)
  | .validation => some ("validation", 400)
  | _ => none

/-- A response whose body holds a detail. -/
def detailResponse (status : Nat) (detail : Value) : Response :=
  { status := status, body := .obj [("detail", detail)] }

/-- Send a `422` response that lists problems, written with all they report. -/
def problems (ds : List Detail) : Outcome :=
  send (detailResponse 422 (.list (ds.map Detail.toValue)))
    (.obj [("detail", .list (ds.map Detail.full))])

/-- The answer of a request without the acting user. -/
def missingUser : Response :=
  detailResponse 401 (.str "Missing X-User-Id header")

/-- The name and version of the service. -/
def aboutValue : Value :=
  .obj [("service", .str serviceName), ("version", .str releaseVersion)]

/-- A member of a checked body, `null` when there is no body. -/
def member (body : Option Value) (k : String) : Value :=
  (body.bind (·.get? k)).getD .null

/-- A text member of a checked body. -/
def textAt (body : Option Value) (k : String) : Option String :=
  match member body k with
  | .str s => some s
  | _ => none

/-- An integer member of a checked body. -/
def intAt (body : Option Value) (k : String) : Option Int :=
  match member body k with
  | .int n => some n
  | _ => none

/-- A switch member of a checked body. -/
def flagAt (body : Option Value) (k : String) : Option Bool :=
  match member body k with
  | .bool b => some b
  | _ => none

/-- The items of a list member of a checked body. -/
def itemsAt (body : Option Value) (k : String) : Option (List Value) :=
  match member body k with
  | .list vs => some vs
  | _ => none

/-- The texts of a list member of a checked body. -/
def textsAt (body : Option Value) (k : String) : Option (List String) :=
  (itemsAt body k).map fun vs => vs.filterMap fun v =>
    match v with
    | .str s => some s
    | _ => none

/-- A pot entry as a row, with its creation time. -/
def potRow (e : PotEntry) : Value :=
  match e.toValue with
  | .obj fs => .obj (fs ++ [("created_at", .str (instantText e.stamp))])
  | v => v

/-- Groups with the clubs and coaches of their teams, as the store holds them at the end. -/
def groupsValue (tid : String) (gs : List Group) : Txn Value := do
  let s ← get
  return .list (gs.map fun g => (Txn.viewGroup s tid g).toValue)

/-- A tournament's groups, the tournament, whether it is drawn, and its competition. -/
def overview (tid : String) (age : Option String) : Txn Value := do
  let t ← Txn.tournament tid
  Txn.bound age.toList
  let b ← match (← get).bracket? tid age with
    | some sb => Bracket.toValue <$> Txn.readStored sb
    | none => pure .null
  let gs ← Txn.groupViews tid
  return .obj [("groups", .list (gs.map GroupView.toValue)), ("tournament", t.toValue),
    ("draw_completed", .bool t.drawCompleted), ("bracket", b)]

/-- The pots of a tournament, each with its count and the club and coach of its teams. -/
def potsValue (tid : String) : Txn Value := do
  let ps ← Txn.potEntries tid
  let s ← get
  return .list (ps.map fun (p, es) =>
    .obj [("pot_number", .int p), ("count", .int es.length),
      ("teams", .list (es.map fun e =>
        let r := s.registration? e.registration
        .obj [("registration_id", .str e.registration),
          ("club_name", .ofOptStr (r.map (·.club))),
          ("coach_name", .ofOptStr (r.bind (·.coach)))]))])

/-- A requested move of a team to a group. -/
def moveOf (v : Value) : Move :=
  { registration := textAt (some v) "registration_id",
    letter := some (textAt (some v) "group_letter") }

/-- A requested pot of a team. -/
def potRequestOf (v : Value) : PotRequest :=
  { registration := textAt (some v) "registration_id", pot := (intAt (some v) "pot_number").map .int }

/-- Run a request on the store. -/
def runTxn (t : Txn Value) (s : Store) (i : Seed.Issued) :
    Except ServiceError Value × Store × Seed.Issued :=
  Txn.exec t s i

/-- The service's work for an endpoint: with the settings, the words of the path's slots, the
acting user, the request and its checked body. -/
def Endpoint.serve (e : Endpoint) (cfg : Settings) (slots : List String) (actor : Actor)
    (r : Request) (body : Option Value) (s : Store) (i : Seed.Issued) :
    Except ServiceError Value × Store × Seed.Issued :=
  let tid := slots.headD ""
  let inner := (slots.drop 1).headD ""
  let settings := cfg.toValue
  let asked := r.param? "age_group_id"
  let bodyAge := textAt body "age_group_id"
  let run (t : Txn Value) := runTxn t s i
  match e with
  | .about => (.ok aboutValue, s, i)
  | .draw => run do
    let gs ← Txn.executeDraw settings tid actor (((intAt body "number_of_groups").map Value.int).getD .null)
      (textAt body "seed")
    groupsValue tid gs
  | .resetDraw => run do
    Txn.resetDraw tid actor
    return .obj [("message", .str "Draw reset"), ("draw_completed", .bool false)]
  | .groups => run do
    let vs ← Txn.groupViews tid
    return .list (vs.map GroupView.toValue)
  | .createGroup => run do
    let g ← Txn.createGroup tid actor ((textAt body "group_letter").getD "")
      ((textsAt body "teams").getD []) (.int ((intAt body "group_order").getD 0))
    let s ← get
    return (Txn.viewGroup s tid g).toValue
  | .updateGroup => run do
    let g ← Txn.updateGroup tid inner actor (textsAt body "teams") (textAt body "group_letter")
    let s ← get
    return (Txn.viewGroup s tid g).toValue
  | .bracket => run (overview tid asked)
  | .moveTeams => run do
    let gs ← Txn.moveTeams tid actor (((itemsAt body "assignments").getD []).map moveOf)
    groupsValue tid gs
  | .generate => run do
    let b ← Txn.generate settings tid actor
      { format := textAt body "bracket_type", ageGroup := bodyAge,
        groupCount := intAt body "group_count", advancing := intAt body "advancing_per_group",
        thirdPlace := (flagAt body "third_place_match").map .bool, seed := textAt body "seed",
        legs := intAt body "league_legs" }
    return b.toValue
  | .advance => run do
    let b ← Txn.seedKnockout tid actor bodyAge
    return b.toValue
  | .matchList => run do
    let ms ← Txn.allMatches tid asked
    return .list (ms.map Match.toValue)
  | .score => run do
    let m ← Txn.recordScore tid inner actor
      { score1 := ((intAt body "team1_score").map Value.int).getD .null,
        score2 := ((intAt body "team2_score").map Value.int).getD .null,
        advancing := ((textAt body "advancing_team_id").map Value.str).getD .null,
        status := ((textAt body "status").map Value.str).getD .null } bodyAge
    return m.toValue
  | .forceAdvance => run do
    let m ← Txn.forceAdvance tid inner ((textAt body "team_id").getD "") actor bodyAge
    return m.toValue
  | .standings => run do
    let ts ← Txn.tables tid asked
    return .obj (ts.map fun (l, rows) => (l, .list (rows.map Standing.toValue)))
  | .assignPot => run do
    let entry ← Txn.assignPot tid ((textAt body "registration_id").getD "")
      (.int ((intAt body "pot_number").getD 0)) actor
    return potRow entry
  | .assignPots =>
    match s.assignPots i tid actor (((itemsAt body "assignments").getD []).map potRequestOf) with
    | (.ok es, s, i) => (.ok (.list (es.map potRow)), s, i)
    | (.error err, s, i) => (.error err, s, i)
  | .pots => run (potsValue tid)
  | .checkPots => run do
    let c ← Txn.checkPots tid (((intAt body "expected_per_pot").map Value.int).getD .null)
    return c.toValue
  | .potDraw => run do
    let gs ← Txn.potDraw tid (.int ((intAt body "number_of_groups").getD 0)) cfg.strictPots actor
    groupsValue tid gs
  | .clearPots => run do
    let n ← Txn.clearPots tid actor
    return .obj [("deleted", .int n)]

/-- Answer a request routed to an endpoint, with the words of the path's slots. -/
def Endpoint.answer (e : Endpoint) (setup : Except SettingsError Settings) (slots : List String)
    (r : Request) (s : Store) (i : Seed.Issued) : Outcome × Store × Seed.Issued :=
  let read : Except BodyFault (Option Value) :=
    match e.body with
    | .unread => .ok none
    | _ => readBody r.body
  let user := (r.header? "x-user-id").filter (!·.isEmpty)
  match read with
  | .error (.invalid d) => (problems [d], s, i)
  | .error .unreadable =>
    (.answer (detailResponse 400 (.str "There was an error parsing the body")), s, i)
  | .ok sent =>
    if e.acting ∧ user.isNone then (.answer missingUser, s, i)
    else if e = .about then (.answer { status := 200, body := aboutValue }, s, i)
    else match setup with
      | .error err => (.badSettings err, s, i)
      | .ok cfg =>
        match e.body.check sent with
        | .error ds => (problems ds, s, i)
        | .ok body =>
          let actor : Actor := { user := user, role := r.header? "x-user-role" }
          match e.serve cfg slots actor r body s i with
          | (.ok v, s, i) => (reply { status := e.status, body := v }, s, i)
          | (.error err, s, i) =>
            match refusal? err.kind with
            | some (code, status) =>
              (reply { status := status,
                       body := .obj [("error", .str code), ("detail", .str err.message)] }, s, i)
            | none => (.failed err, s, i)

/-- The answer to a path that fits no endpoint. -/
def notFoundResponse : Response :=
  detailResponse 404 (.str "Not Found")

/-- The answer to a method that the path's endpoints do not take. -/
def wrongMethodResponse : Response :=
  detailResponse 405 (.str "Method Not Allowed")

/-- Answer a request routed as given. -/
def answerRouted (setup : Except SettingsError Settings) (r : Request) (s : Store)
    (i : Seed.Issued) : Routing → Outcome × Store × Seed.Issued
  | .found e slots => e.answer setup slots r s i
  | .wrongMethod => (.answer wrongMethodResponse, s, i)
  | .notFound => (.answer notFoundResponse, s, i)

/-- Answer a request on a store, with the settings the API started with. Methods are read in
upper case. A request whose path fits no endpoint is sent once more to the path with its
trailing slashes changed, if that fits one. -/
def handle (setup : Except SettingsError Settings) (r : Request) (s : Store) (i : Seed.Issued) :
    Outcome × Store × Seed.Issued :=
  let r := { r with method := r.method.toUpper }
  let path := r.path
  match route r.method path with
  | .notFound =>
    match redirect? r.method path with
    | some other =>
      let query := r.pathAndQuery.2
      let again := { r with target := if query.isEmpty then other else other ++ "?" ++ query }
      answerRouted setup again s i (route again.method again.path)
    | none => (.answer notFoundResponse, s, i)
  | routed => answerRouted setup r s i routed

end TournamentDraw.Api

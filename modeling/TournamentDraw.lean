import TournamentDraw.Binary64
import TournamentDraw.Binary64.Shortest
import TournamentDraw.Draw.Hash
import TournamentDraw.Draw.Shuffle
import TournamentDraw.Draw.Deal
import TournamentDraw.Text.Quote
import TournamentDraw.DateTime
import TournamentDraw.Value
import TournamentDraw.Value.Json
import TournamentDraw.Seed
import TournamentDraw.Bracket.Basic
import TournamentDraw.Bracket.Error
import TournamentDraw.Bracket.Shape
import TournamentDraw.Bracket.Generate
import TournamentDraw.Bracket.Play
import TournamentDraw.Bracket.Placement
import TournamentDraw.Bracket.Encode
import TournamentDraw.Standings
import TournamentDraw.Store.Basic
import TournamentDraw.Store.Cell
import TournamentDraw.Service.Error
import TournamentDraw.Service.Access
import TournamentDraw.Service.Settings
import TournamentDraw.Service.Groups
import TournamentDraw.Service.Competition
import TournamentDraw.Service.Pots
import TournamentDraw.Service.Encode
import TournamentDraw.Text.Case
import TournamentDraw.Text.Table
import TournamentDraw.Text.CodePoint
import TournamentDraw.Text.Encoding
import TournamentDraw.Text.Printable
import TournamentDraw.Settings.Check
import TournamentDraw.Text.Similarity
import TournamentDraw.Text.Wrap
import TournamentDraw.Text.Numeral
import TournamentDraw.Bracket.Outline
import TournamentDraw.Cli.Grammar
import TournamentDraw.Cli.Parse
import TournamentDraw.Cli.Help
import TournamentDraw.Cli.Program
import TournamentDraw.Cli.Workspace
import TournamentDraw.Cli.Run
import TournamentDraw.Main
import TournamentDraw.Binary64.Double
import TournamentDraw.Release
import TournamentDraw.Api.Request
import TournamentDraw.Api.Body
import TournamentDraw.Api.Clock
import TournamentDraw.Api.Endpoint
import TournamentDraw.Api.Handle
import TournamentDraw.Binary64.Read
import TournamentDraw.Yaml.Fault
import TournamentDraw.Yaml.Cursor
import TournamentDraw.Yaml.Token
import TournamentDraw.Yaml.Token.Scalar
import TournamentDraw.Yaml.Token.Stream
import TournamentDraw.Yaml.Tag
import TournamentDraw.Yaml.Node
import TournamentDraw.Yaml.Node.Compose
import TournamentDraw.Yaml.Datum
import TournamentDraw.Yaml.Convert
import TournamentDraw.Yaml.Datum.Build
import TournamentDraw.Yaml.Load
import TournamentDraw.Value.Describe
import TournamentDraw.Value.Compare
import TournamentDraw.Value.Arith
import TournamentDraw.Value.Sort
import TournamentDraw.Hash.Sip
import TournamentDraw.Hash.Table
import TournamentDraw.Yaml.Datum.Key
import TournamentDraw.Proofs.Places
import TournamentDraw.Proofs.Run
import TournamentDraw.Proofs.Wiring
import TournamentDraw.Proofs.Cascade
import TournamentDraw.Proofs.Record
import TournamentDraw.Proofs.Routing
import TournamentDraw.Proofs.Operations
import TournamentDraw.Proofs.Layout
import TournamentDraw.Proofs.SingleDraw
import TournamentDraw.Proofs.DoubleDraw
import TournamentDraw.Proofs.Seeding
import TournamentDraw.Proofs.Reachable
import TournamentDraw.Proofs.Sides
import TournamentDraw.Proofs.Transaction
import TournamentDraw.Proofs.JsonText
import TournamentDraw.Proofs.Atomic
import TournamentDraw.Proofs.Drawn
import TournamentDraw.Proofs.Dealing
import TournamentDraw.Proofs.RandomDraw
import TournamentDraw.Proofs.PotDeal
import TournamentDraw.Proofs.PotDraw
import TournamentDraw.Proofs.Sorting
import TournamentDraw.Proofs.GroupTable
import TournamentDraw.Proofs.Rounds
import TournamentDraw.Proofs.ByePass
import TournamentDraw.Proofs.GroupSeeds
import TournamentDraw.Proofs.FirstRound
import TournamentDraw.Proofs.KnockoutSeeds
import TournamentDraw.Proofs.Advance
import TournamentDraw.Proofs.Permission
import TournamentDraw.Proofs.Frame
import TournamentDraw.Proofs.PotTable
import TournamentDraw.Proofs.GroupKeys
import TournamentDraw.Proofs.GroupWrites
import TournamentDraw.Proofs.GroupLinks
import TournamentDraw.Proofs.GroupLetters
import TournamentDraw.Proofs.WrittenForm
import TournamentDraw.Proofs.Played
import TournamentDraw.Proofs.ResultOrder
import TournamentDraw.Proofs.Circle
import TournamentDraw.Proofs.Fixtures
import TournamentDraw.Proofs.Placing
import TournamentDraw.Proofs.LinkGraph
import TournamentDraw.Proofs.TableCount
import TournamentDraw.Proofs.CrossSeeding
import TournamentDraw.Proofs.SeedHash
import TournamentDraw.Proofs.Regrouping
import TournamentDraw.Proofs.Correction
import TournamentDraw.Proofs.Recorded
import TournamentDraw.Proofs.ResultFields
import TournamentDraw.Proofs.Rounding
import TournamentDraw.Proofs.ShuffleOrder
import TournamentDraw.Proofs.TableKeys
import TournamentDraw.Proofs.SettingsCheck
import TournamentDraw.Proofs.Fairness
import TournamentDraw.Proofs.PlayOut
import TournamentDraw.Proofs.Lanes
import TournamentDraw.Proofs.Losses

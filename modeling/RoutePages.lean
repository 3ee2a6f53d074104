import RoutePages.Command.Arguments
import RoutePages.Command.Run
import RoutePages.Disk.Access
import RoutePages.Disk.Basic
import RoutePages.Disk.FilePath
import RoutePages.Disk.World
import RoutePages.Edit.Basic
import RoutePages.Edit.Removal
import RoutePages.Edit.Rewrite
import RoutePages.Host.Basic
import RoutePages.Host.DiskError
import RoutePages.Host.Event
import RoutePages.Host.Fault
import RoutePages.Json.Error
import RoutePages.Json.Number
import RoutePages.Json.String
import RoutePages.Json.Tree
import RoutePages.Json.Value
import RoutePages.Main
import RoutePages.Number.Decimal
import RoutePages.Number.Double
import RoutePages.Number.Shortest
import RoutePages.Order.Sort
import RoutePages.Page.Bindings
import RoutePages.Page.Identifier
import RoutePages.Page.Path
import RoutePages.Page.Plan
import RoutePages.Page.Template
import RoutePages.Page.Write
import RoutePages.Project.Config
import RoutePages.Project.Generate
import RoutePages.Project.Manifest
import RoutePages.Project.Starter
import RoutePages.Proofs.Disk.Change
import RoutePages.Proofs.Disk.Detour
import RoutePages.Proofs.Disk.Listing
import RoutePages.Proofs.Disk.Location
import RoutePages.Proofs.Disk.Paths
import RoutePages.Proofs.Disk.Plain
import RoutePages.Proofs.Edit.Covered
import RoutePages.Proofs.Edit.Cuts
import RoutePages.Proofs.Edit.Declared
import RoutePages.Proofs.Edit.Extent
import RoutePages.Proofs.Edit.FixedPoint
import RoutePages.Proofs.Edit.Frame
import RoutePages.Proofs.Edit.Imports
import RoutePages.Proofs.Edit.LaidOut
import RoutePages.Proofs.Edit.Layout
import RoutePages.Proofs.Edit.LineEnds
import RoutePages.Proofs.Edit.Outcome
import RoutePages.Proofs.Edit.Refused
import RoutePages.Proofs.Edit.Replace
import RoutePages.Proofs.Edit.Sliced
import RoutePages.Proofs.Edit.Stale
import RoutePages.Proofs.Edit.Taken
import RoutePages.Proofs.Host.Effect
import RoutePages.Proofs.Host.Journey
import RoutePages.Proofs.Page.Agree
import RoutePages.Proofs.Page.Commit
import RoutePages.Proofs.Page.Contained
import RoutePages.Proofs.Page.Contents
import RoutePages.Proofs.Page.Decided
import RoutePages.Proofs.Page.Distinct
import RoutePages.Proofs.Page.History
import RoutePages.Proofs.Page.Identifiers
import RoutePages.Proofs.Page.ImportLines
import RoutePages.Proofs.Page.Imported
import RoutePages.Proofs.Page.Lineage
import RoutePages.Proofs.Page.Lookups
import RoutePages.Proofs.Page.Monoid
import RoutePages.Proofs.Page.Places
import RoutePages.Proofs.Page.ReadBack
import RoutePages.Proofs.Page.Stable
import RoutePages.Proofs.Page.Substituted
import RoutePages.Proofs.Page.Written
import RoutePages.Proofs.Project.Beside
import RoutePages.Proofs.Project.Copied
import RoutePages.Proofs.Project.Depth
import RoutePages.Proofs.Project.RoutesLast
import RoutePages.Proofs.Project.Start
import RoutePages.Proofs.Project.Started
import RoutePages.Proofs.Project.Untouched
import RoutePages.Proofs.Project.Visits
import RoutePages.Proofs.Project.Walk
import RoutePages.Proofs.Route.Bare
import RoutePages.Proofs.Route.Boundary
import RoutePages.Proofs.Route.Data
import RoutePages.Proofs.Route.Enclosed
import RoutePages.Proofs.Route.Evaluated
import RoutePages.Proofs.Route.FirstArray
import RoutePages.Proofs.Route.Laid
import RoutePages.Proofs.Route.Marks
import RoutePages.Proofs.Route.Nesting
import RoutePages.Proofs.Route.Nodes
import RoutePages.Proofs.Route.Offsets
import RoutePages.Proofs.Route.PassedOver
import RoutePages.Proofs.Route.Read
import RoutePages.Proofs.Route.Settle
import RoutePages.Proofs.Script.Bare
import RoutePages.Proofs.Script.Constants
import RoutePages.Proofs.Script.Enclosing
import RoutePages.Proofs.Script.Expressions
import RoutePages.Proofs.Script.FlatStatements
import RoutePages.Proofs.Script.Functions
import RoutePages.Proofs.Script.Gives
import RoutePages.Proofs.Script.Items
import RoutePages.Proofs.Script.Lists
import RoutePages.Proofs.Script.Names
import RoutePages.Proofs.Script.Nested
import RoutePages.Proofs.Script.Nests
import RoutePages.Proofs.Script.PlainData
import RoutePages.Proofs.Script.Quotes
import RoutePages.Proofs.Script.Run
import RoutePages.Proofs.Script.Sealed
import RoutePages.Proofs.Script.SealedExpressions
import RoutePages.Proofs.Script.Spacing
import RoutePages.Proofs.Script.Statements
import RoutePages.Proofs.Script.Values
import RoutePages.Proofs.Script.Words
import RoutePages.Proofs.Succeeds
import RoutePages.Proofs.Text.CharacterRuns
import RoutePages.Proofs.Text.LineEnds
import RoutePages.Proofs.Text.Order
import RoutePages.Proofs.Text.Parts
import RoutePages.Proofs.Text.Positions
import RoutePages.Proofs.Text.Replaced
import RoutePages.Proofs.Text.Split
import RoutePages.Proofs.Text.Utf8
import RoutePages.Route.Basic
import RoutePages.Route.Events
import RoutePages.Route.Extract
import RoutePages.Route.Inspect
import RoutePages.Route.Parse
import RoutePages.Script.Grammar.Arrow
import RoutePages.Script.Grammar.Class
import RoutePages.Script.Grammar.Declaration
import RoutePages.Script.Grammar.Function
import RoutePages.Script.Grammar.Literal
import RoutePages.Script.Grammar.Markup
import RoutePages.Script.Grammar.Module
import RoutePages.Script.Grammar.Operator
import RoutePages.Script.Grammar.Parser
import RoutePages.Script.Grammar.Pattern
import RoutePages.Script.Grammar.Primary
import RoutePages.Script.Grammar.Rules
import RoutePages.Script.Grammar.Statement
import RoutePages.Script.Grammar.Type
import RoutePages.Script.Literal
import RoutePages.Script.Module
import RoutePages.Script.Scan
import RoutePages.Script.Scan.Escape
import RoutePages.Script.Scan.Forward
import RoutePages.Script.Scan.Gap
import RoutePages.Script.Scan.Numeral
import RoutePages.Script.Scan.Quoted
import RoutePages.Script.Scan.Word
import RoutePages.Script.Span
import RoutePages.Script.Token
import RoutePages.Script.Tree
import RoutePages.Text.Basic
import RoutePages.Text.Blank
import RoutePages.Text.Identifier
import RoutePages.Text.Letter
import RoutePages.Text.Mark
import RoutePages.Text.Numeral
import RoutePages.Text.Position
import RoutePages.Text.Printable
import RoutePages.Text.Quoted
import RoutePages.Text.Runs
import RoutePages.Text.Trim
import RoutePages.Text.Uppercase
import RoutePages.Text.Utf8

import CallProfile.Arc
import CallProfile.Attribution
import CallProfile.CallGraph.Basic
import CallProfile.CallGraph.Build
import CallProfile.Command.Arguments
import CallProfile.Command.Run
import CallProfile.Command.Setup
import CallProfile.Datum.Basic
import CallProfile.Datum.Number
import CallProfile.Datum.Shown
import CallProfile.Decimal.Binary64
import CallProfile.Decimal.Notation
import CallProfile.Decimal.Read
import CallProfile.Decimal.Shortest
import CallProfile.Fault
import CallProfile.Files
import CallProfile.Given
import CallProfile.Graph.Components
import CallProfile.Graph.Order
import CallProfile.Graph.Search
import CallProfile.Json.Reader
import CallProfile.Json.Writer
import CallProfile.Layout
import CallProfile.Libraries
import CallProfile.Main
import CallProfile.Moment
import CallProfile.Path
import CallProfile.Profile.Basic
import CallProfile.Profile.Batch
import CallProfile.Proofs.Acyclic
import CallProfile.Proofs.AlikeTrees
import CallProfile.Proofs.ArcTotals
import CallProfile.Proofs.Arena
import CallProfile.Proofs.Attributed
import CallProfile.Proofs.Batches
import CallProfile.Proofs.Bounds
import CallProfile.Proofs.Bytes
import CallProfile.Proofs.CallViews
import CallProfile.Proofs.Calls
import CallProfile.Proofs.Charging
import CallProfile.Proofs.Components
import CallProfile.Proofs.Condensation
import CallProfile.Proofs.ConfiguredLayouts
import CallProfile.Proofs.Conservation
import CallProfile.Proofs.Copies
import CallProfile.Proofs.Cuts
import CallProfile.Proofs.Cycles
import CallProfile.Proofs.Decimals
import CallProfile.Proofs.Division
import CallProfile.Proofs.Documents
import CallProfile.Proofs.Doubles
import CallProfile.Proofs.Edges
import CallProfile.Proofs.Endings
import CallProfile.Proofs.Exact
import CallProfile.Proofs.Failures
import CallProfile.Proofs.Flags
import CallProfile.Proofs.FloorLookups
import CallProfile.Proofs.Folders
import CallProfile.Proofs.Grammar
import CallProfile.Proofs.Heads
import CallProfile.Proofs.InputOrder
import CallProfile.Proofs.InputRecords
import CallProfile.Proofs.Keys
import CallProfile.Proofs.Listings
import CallProfile.Proofs.Lists
import CallProfile.Proofs.Lookups
import CallProfile.Proofs.MapFaults
import CallProfile.Proofs.MapRuns
import CallProfile.Proofs.Matches
import CallProfile.Proofs.Merging
import CallProfile.Proofs.ModerateBatches
import CallProfile.Proofs.ModerateGraphs
import CallProfile.Proofs.ModerateTrees
import CallProfile.Proofs.Notations
import CallProfile.Proofs.Numbers
import CallProfile.Proofs.Order
import CallProfile.Proofs.Outcomes
import CallProfile.Proofs.Paths
import CallProfile.Proofs.Progress
import CallProfile.Proofs.Propagation
import CallProfile.Proofs.Ranges
import CallProfile.Proofs.Reading
import CallProfile.Proofs.Rearranged
import CallProfile.Proofs.Reports
import CallProfile.Proofs.Resolution
import CallProfile.Proofs.Runs
import CallProfile.Proofs.Scaling
import CallProfile.Proofs.Search
import CallProfile.Proofs.Settings
import CallProfile.Proofs.Sharing
import CallProfile.Proofs.ShownTrees
import CallProfile.Proofs.Sorting
import CallProfile.Proofs.Splitting
import CallProfile.Proofs.Streams
import CallProfile.Proofs.Strings
import CallProfile.Proofs.SymbolMaps
import CallProfile.Proofs.Tally
import CallProfile.Proofs.Tiling
import CallProfile.Proofs.Totals
import CallProfile.Proofs.TreeSums
import CallProfile.Proofs.Units
import CallProfile.Proofs.Weights
import CallProfile.Proofs.Words
import CallProfile.Proofs.WorkList
import CallProfile.Proofs.Workspaces
import CallProfile.Recording.Cursor
import CallProfile.Recording.Decode
import CallProfile.Recording.Record
import CallProfile.Recording.Written
import CallProfile.Report.Basic
import CallProfile.Report.Build
import CallProfile.Report.Document
import CallProfile.Report.Tables
import CallProfile.RunFolder
import CallProfile.StandIn.Config.Basic
import CallProfile.StandIn.Config.Change
import CallProfile.StandIn.Config.Value
import CallProfile.StandIn.Libraries
import CallProfile.StandIn.Markdown
import CallProfile.StandIn.Yaml.Lexer
import CallProfile.StandIn.Yaml.Node
import CallProfile.StandIn.Yaml.Scalar
import CallProfile.StandIn.Yaml.Style
import CallProfile.StandIn.Yaml.Value
import CallProfile.StandIn.Yaml.Writer
import CallProfile.Symbol.Basic
import CallProfile.Symbol.Entry
import CallProfile.Symbol.File
import CallProfile.Symbol.Listing
import CallProfile.Symbol.Notation
import CallProfile.Symbol.Table
import CallProfile.Symbol.Written
import CallProfile.Tally
import CallProfile.Text.Blank
import CallProfile.Text.Digit
import CallProfile.Text.Hex
import CallProfile.Text.HexNumeral
import CallProfile.Text.Letter
import CallProfile.Text.Numeral
import CallProfile.Text.Printable
import CallProfile.Text.Quoted
import CallProfile.Text.Utf8
import CallProfile.Times
import CallProfile.Times.Exact
import CallProfile.Times.Rounded
import CallProfile.Tree.Basic
import CallProfile.Tree.Build
import CallProfile.Whole
import CallProfile.Workspace

import Rollup.Aggregator
import Rollup.Binary64.Arithmetic
import Rollup.Binary64.Basic
import Rollup.Calendar
import Rollup.CommandLine.Arguments
import Rollup.CommandLine.Parser
import Rollup.Config
import Rollup.Decimal.Integer
import Rollup.Decimal.Layout
import Rollup.Decimal.Real
import Rollup.Decimal.Shortest
import Rollup.FileSystem.Fault
import Rollup.FileSystem.Operations
import Rollup.FileSystem.Path
import Rollup.FileSystem.Replacement
import Rollup.FileSystem.Resolve
import Rollup.FileSystem.Scan
import Rollup.FileSystem.Tree
import Rollup.GroupName
import Rollup.Json
import Rollup.Log
import Rollup.Main
import Rollup.Power
import Rollup.Program
import Rollup.Proofs.Decimal.Nearest
import Rollup.Proofs.Decimal.ReadBack
import Rollup.Proofs.FileSystem.Atomicity
import Rollup.Proofs.FileSystem.Components
import Rollup.Proofs.FileSystem.Listing
import Rollup.Proofs.FileSystem.Lookup
import Rollup.Proofs.FileSystem.Paths
import Rollup.Proofs.FileSystem.Replacement
import Rollup.Proofs.FileSystem.Scan
import Rollup.Proofs.FileSystem.Trail
import Rollup.Proofs.FileSystem.Writing
import Rollup.Proofs.GroupName
import Rollup.Proofs.Ordered
import Rollup.Proofs.Program.Execution
import Rollup.Proofs.Program.ReportPath
import Rollup.Proofs.Program.Separation
import Rollup.Proofs.Record.Bracketing
import Rollup.Proofs.Record.Finite
import Rollup.Proofs.Record.Fold
import Rollup.Proofs.Record.Total
import Rollup.Proofs.RowFormat.Grammar
import Rollup.Proofs.RowFormat.Layout
import Rollup.Proofs.RowFormat.Pieces
import Rollup.Proofs.RowFormat.RoundTrip
import Rollup.Proofs.Run.Acceptance
import Rollup.Proofs.Run.Account
import Rollup.Proofs.Run.Calls
import Rollup.Proofs.Run.DryRun
import Rollup.Proofs.Run.Exits
import Rollup.Proofs.Run.Footprint
import Rollup.Proofs.Run.Interruption
import Rollup.Proofs.Run.Isolation
import Rollup.Proofs.Run.Outcomes
import Rollup.Proofs.Run.Readability
import Rollup.Proofs.Run.Refinement
import Rollup.Proofs.Run.Reporting
import Rollup.Proofs.Run.Rerun
import Rollup.Proofs.Run.Results
import Rollup.Proofs.Run.Schedule
import Rollup.Proofs.Run.Tracking
import Rollup.Proofs.Run.Ways
import Rollup.Proofs.Storage.Directory
import Rollup.Proofs.Storage.Memory
import Rollup.Proofs.Storage.Mirror
import Rollup.Record.Basic
import Rollup.Record.Bucket
import Rollup.Record.Merge
import Rollup.Report.Basic
import Rollup.Report.Json
import Rollup.Report.Text
import Rollup.RowFormat.Error
import Rollup.RowFormat.Fields
import Rollup.RowFormat.Parse
import Rollup.RowFormat.Render
import Rollup.Storage.Basic
import Rollup.Storage.Directory
import Rollup.Storage.Memory
import Rollup.Text.Blank
import Rollup.Text.Cut
import Rollup.Text.Printable
import Rollup.Text.Quoted
import Rollup.Text.Utf8
import Rollup.Toml.Document
import Rollup.Toml.Lexical
import Rollup.Toml.Printer
import Rollup.Toml.Scalar
import Rollup.Toml.Value

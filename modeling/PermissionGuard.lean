import PermissionGuard.CallGraph.Basic
import PermissionGuard.CallGraph.Cycles
import PermissionGuard.CallGraph.Listing
import PermissionGuard.Catalog.Basic
import PermissionGuard.Catalog.Listing
import PermissionGuard.Catalog.Mapping
import PermissionGuard.Command.Dispatch
import PermissionGuard.Command.Flags
import PermissionGuard.Command.Hint
import PermissionGuard.Command.Options
import PermissionGuard.Command.Session
import PermissionGuard.Command.Tool
import PermissionGuard.Config.Basic
import PermissionGuard.Config.File
import PermissionGuard.Config.Logging
import PermissionGuard.Files
import PermissionGuard.Graph.Components
import PermissionGuard.Guard
import PermissionGuard.Hierarchy
import PermissionGuard.Main
import PermissionGuard.Misuse.Basic
import PermissionGuard.Misuse.Report
import PermissionGuard.Number.Double
import PermissionGuard.Number.Integer
import PermissionGuard.Package.Imports
import PermissionGuard.Package.Standard
import PermissionGuard.Path
import PermissionGuard.Pattern.Basic
import PermissionGuard.Pattern.Folding
import PermissionGuard.Pattern.Parser
import PermissionGuard.Pattern.Script
import PermissionGuard.Program.Arena
import PermissionGuard.Program.Basic
import PermissionGuard.Program.Builder
import PermissionGuard.Program.Description
import PermissionGuard.Program.Dominance
import PermissionGuard.Program.ModelFile
import PermissionGuard.Program.TableBuilder
import PermissionGuard.Propagation
import PermissionGuard.Report.Style
import PermissionGuard.Search
import PermissionGuard.Signature.Basic
import PermissionGuard.Signature.Parser
import PermissionGuard.Ssa.Basic
import PermissionGuard.Ssa.CallEdges
import PermissionGuard.Ssa.Lowering
import PermissionGuard.Ssa.Type
import PermissionGuard.Text.Basic
import PermissionGuard.Text.Blank
import PermissionGuard.Text.Category
import PermissionGuard.Text.JsonString
import PermissionGuard.Text.Printable
import PermissionGuard.Text.Quoted
import PermissionGuard.Text.Utf8
import PermissionGuard.Toml.Document
import PermissionGuard.Toml.Lexical
import PermissionGuard.Yaml.Base64
import PermissionGuard.Yaml.Cursor
import PermissionGuard.Yaml.Fault
import PermissionGuard.Yaml.Node
import PermissionGuard.Yaml.Record
import PermissionGuard.Yaml.Resolve
import PermissionGuard.Yaml.Scalar
import PermissionGuard.Yaml.Shape
import PermissionGuard.Yaml.Source
import PermissionGuard.Yaml.Timestamp
import PermissionGuard.Yaml.Token
import PermissionGuard.Proofs.Propagation.Run
import PermissionGuard.Proofs.Propagation.Coverage
import PermissionGuard.Proofs.Propagation.Unfolding
import PermissionGuard.Proofs.Misuse.Collection
import PermissionGuard.Proofs.Misuse.Paths
import PermissionGuard.Proofs.Reachability
import PermissionGuard.Proofs.Graph.Components
import PermissionGuard.Proofs.Ordered
import PermissionGuard.Proofs.CallGraph.LeastComponent
import PermissionGuard.Proofs.CallGraph.Cycles
import PermissionGuard.Proofs.Hierarchy
import PermissionGuard.Proofs.Propagation.Simulation
import PermissionGuard.Proofs.Misuse.MoreGuards
import PermissionGuard.Proofs.Program.Denotation
import PermissionGuard.Proofs.Program.Described
import PermissionGuard.Proofs.Program.Consistency
import PermissionGuard.Proofs.Program.TableBuilder
import PermissionGuard.Proofs.Program.FinishedTables
import PermissionGuard.Proofs.Program.Numbering
import PermissionGuard.Proofs.Program.Tables
import PermissionGuard.Proofs.Program.Renumbering
import PermissionGuard.Proofs.Misuse.Renumbering
import PermissionGuard.Proofs.Misuse.MethodOrder
import PermissionGuard.Proofs.Propagation.CallerOrder
import PermissionGuard.Proofs.Catalog.Entries
import PermissionGuard.Proofs.Catalog.Restriction
import PermissionGuard.Proofs.Misuse.PermissionFilter
import PermissionGuard.Proofs.Text.Cuts
import PermissionGuard.Proofs.Signature.Brackets
import PermissionGuard.Proofs.Signature.Key
import PermissionGuard.Proofs.Catalog.Additions
import PermissionGuard.Proofs.CallGraph.Callers
import PermissionGuard.Proofs.Propagation.RecursionBreaks
import PermissionGuard.Proofs.Propagation.Accounting
import PermissionGuard.Proofs.Propagation.Termination
import PermissionGuard.Proofs.CallGraph.ComponentCycles
import PermissionGuard.Proofs.CallGraph.ReachablePart
import PermissionGuard.Proofs.Dominance
import PermissionGuard.Proofs.Program.Dominators
import PermissionGuard.Proofs.Signature.Reparse
import PermissionGuard.Proofs.Ssa.Lowering
import PermissionGuard.Proofs.Signature.WellFormed
import PermissionGuard.Proofs.Signature.Components
import PermissionGuard.Proofs.Catalog.Reading
import PermissionGuard.Proofs.Program.EntryPoints
import PermissionGuard.Proofs.Program.Handlers
import PermissionGuard.Proofs.Ssa.Recovery
import PermissionGuard.Proofs.Program.Refusals
import PermissionGuard.Proofs.Config.CheckQueries
import PermissionGuard.Proofs.Text.Utf8
import PermissionGuard.Proofs.Text.Quoted
import PermissionGuard.Proofs.Misuse.ReportLines
import PermissionGuard.Proofs.Package.Imports

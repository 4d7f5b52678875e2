import Uncaught.Main
import Uncaught.Settings.EnvFile
import Uncaught.Summary.Json
import Uncaught.Proofs.Data.Sorted
import Uncaught.Proofs.Data.Table
import Uncaught.Proofs.Graph.Basic
import Uncaught.Proofs.Graph.Gather
import Uncaught.Proofs.Graph.TreePaths
import Uncaught.Proofs.Signature
import Uncaught.Proofs.Graph.MaximalPaths
import Uncaught.Proofs.Hierarchy
import Uncaught.Proofs.Data.Except
import Uncaught.Proofs.Database.Index
import Uncaught.Proofs.Database.Stages
import Uncaught.Proofs.Database.Filling
import Uncaught.Proofs.Database.Dispatch
import Uncaught.Proofs.Database.CallGraph
import Uncaught.Proofs.Database.Runs
import Uncaught.Proofs.Database.Lifecycle
import Uncaught.Proofs.Database.Chains
import Uncaught.Proofs.Database.Handling
import Uncaught.Proofs.Graph.PathExtensions
import Uncaught.Proofs.Database.Enumeration
import Uncaught.Proofs.Database.Escapes
import Uncaught.Proofs.Json.Text
import Uncaught.Proofs.Json.Arrange
import Uncaught.Proofs.Json.Reading
import Uncaught.Proofs.Json.RoundTrip
import Uncaught.Proofs.Records
import Uncaught.Proofs.Database.Sameness
import Uncaught.Proofs.Database.Snapshot
import Uncaught.Proofs.Database.Reloading
import Uncaught.Proofs.Database.Reordering
import Uncaught.Proofs.Resolve.Names
import Uncaught.Proofs.Resolve.Links
import Uncaught.Proofs.Resolve.Lookup
import Uncaught.Proofs.Resolve.Body
import Uncaught.Proofs.Resolve.Population
import Uncaught.Proofs.Resolve.Totality
import Uncaught.Proofs.Java.Outline
import Uncaught.Proofs.Resolve.Scopes
import Uncaught.Proofs.Resolve.CallSites
import Uncaught.Proofs.Resolve.Constructors
import Uncaught.Proofs.Resolve.SameSymbols
import Uncaught.Proofs.Resolve.FileOrder
import Uncaught.Proofs.Graph.Worklist
import Uncaught.Proofs.Inheritance
import Uncaught.Proofs.Database.FailedBuilds
import Uncaught.Proofs.Database.CheckedQueries
import Uncaught.Proofs.Java.Sites
import Uncaught.Proofs.Graph.Visits
import Uncaught.Proofs.Graph.Distance
import Uncaught.Proofs.Database.ChainTree
import Uncaught.Proofs.Resolve.MethodLookup
import Uncaught.Proofs.Resolve.Rethrows
import Uncaught.Proofs.Database.Subtyping
import Uncaught.Proofs.Drawing
import Uncaught.Proofs.Resolve.Attribution
import Uncaught.Proofs.Java.TypeNames
import Uncaught.Proofs.Resolve.Shadowing
import Uncaught.Proofs.Java.TypeText
import Uncaught.Proofs.Json.Lines
import Uncaught.Proofs.NodeIds

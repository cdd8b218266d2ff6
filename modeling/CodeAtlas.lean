import CodeAtlas.Proofs.Turns
import CodeAtlas.Proofs.Stores
import CodeAtlas.Proofs.Rounding
import CodeAtlas.Proofs.Numerals
import CodeAtlas.Collections.Interleaving
import CodeAtlas.Analysis.Script
import CodeAtlas.Analysis.Schedule
import CodeAtlas.Analysis.Race
import CodeAtlas.Analysis.Catalogue
import CodeAtlas.Analysis.Classification
import CodeAtlas.Analysis.Collection
import CodeAtlas.Analysis.Coupling
import CodeAtlas.Analysis.Error
import CodeAtlas.Analysis.Progress
import CodeAtlas.Analysis.Run
import CodeAtlas.Analysis.Statistics
import CodeAtlas.Collections.KeyPair
import CodeAtlas.Collections.SortedMap
import CodeAtlas.Collections.SortedSet
import CodeAtlas.Config.Basic
import CodeAtlas.Config.Document
import CodeAtlas.Config.Override
import CodeAtlas.Decimal.Layout
import CodeAtlas.Decimal.Numeral
import CodeAtlas.Decimal.Shortest
import CodeAtlas.Feature.Clustering
import CodeAtlas.Feature.Token
import CodeAtlas.Graph.Basic
import CodeAtlas.Graph.Codec
import CodeAtlas.Graph.Node
import CodeAtlas.Graph.Relationship
import CodeAtlas.Graph.Role
import CodeAtlas.Graph.View
import CodeAtlas.Json.Basic
import CodeAtlas.Json.Decoder
import CodeAtlas.Json.Printer
import CodeAtlas.Json.Reader
import CodeAtlas.Json.Token
import CodeAtlas.Snapshot.Basic
import CodeAtlas.Snapshot.Codec
import CodeAtlas.Snapshot.Project
import CodeAtlas.Snapshot.Resolver
import CodeAtlas.Symbol.Basic
import CodeAtlas.Symbol.Codec
import CodeAtlas.Symbol.Location
import CodeAtlas.Text.Blank
import CodeAtlas.Text.CaseMap
import CodeAtlas.Text.Lowercase
import CodeAtlas.Text.Segments
import CodeAtlas.Toml.Basic
import CodeAtlas.Toml.Reader
import CodeAtlas.Toml.Scalar
import CodeAtlas.Workspace.Root
import CodeAtlas.Proofs.Step
import CodeAtlas.Proofs.Collection
import CodeAtlas.Proofs.Cancellation
import CodeAtlas.Proofs.Catalogue
import CodeAtlas.Proofs.Exploration
import CodeAtlas.Proofs.Assembly
import CodeAtlas.Proofs.WellFormed
import CodeAtlas.Proofs.Evidence
import CodeAtlas.Proofs.Edges
import CodeAtlas.Proofs.Partition
import CodeAtlas.Proofs.Histograms
import CodeAtlas.Proofs.Counts
import CodeAtlas.Feature.Pairwise
import CodeAtlas.Proofs.Features
import CodeAtlas.Proofs.Pairwise
import CodeAtlas.Proofs.Documents
import CodeAtlas.Proofs.Decoders
import CodeAtlas.Proofs.SymbolCodec
import CodeAtlas.Proofs.SnapshotCodec
import CodeAtlas.Proofs.Binary64
import CodeAtlas.Proofs.Shortest
import CodeAtlas.Proofs.GraphCodec
import CodeAtlas.Proofs.Offers
import CodeAtlas.Proofs.VisitOrder
import CodeAtlas.Proofs.Interleaving
import CodeAtlas.Proofs.RunningMaximum
import CodeAtlas.Proofs.Innermost
import CodeAtlas.Proofs.Origins
import CodeAtlas.Proofs.Sparsity
import CodeAtlas.Proofs.Roles
import CodeAtlas.Proofs.Layers
import CodeAtlas.Proofs.Registration
import CodeAtlas.Proofs.Dependencies
import CodeAtlas.Proofs.Distances
import CodeAtlas.Proofs.Lookup
import CodeAtlas.Proofs.Segments
import CodeAtlas.Proofs.Relocation
import CodeAtlas.Proofs.Neighbours
import CodeAtlas.Proofs.Building
import CodeAtlas.Proofs.Repetition
import CodeAtlas.Proofs.Identity
import CodeAtlas.Proofs.Exclusion
import CodeAtlas.Proofs.WrittenNumbers
import CodeAtlas.Proofs.Overrides
import CodeAtlas.Proofs.DominantKind
import CodeAtlas.Proofs.NodeHistory
import CodeAtlas.Proofs.Tokens
import CodeAtlas.Proofs.Namespaces
import CodeAtlas.Proofs.Complexity
import CodeAtlas.Proofs.Outcomes
import CodeAtlas.Proofs.Isolation
import CodeAtlas.Proofs.RepeatedProjects
import CodeAtlas.Proofs.Owners
import CodeAtlas.Proofs.Renaming
import CodeAtlas.Proofs.DocumentOrder

import RouteManifest.Compile
import RouteManifest.Config
import RouteManifest.Loader
import RouteManifest.Main
import RouteManifest.Proofs.Answers
import RouteManifest.Proofs.Recursion
import RouteManifest.Proofs.Addresses
import RouteManifest.Proofs.Worklist
import RouteManifest.Proofs.Rewriting
import RouteManifest.Proofs.Acceptance
import RouteManifest.Proofs.Calls
import RouteManifest.Proofs.Extension
import RouteManifest.Proofs.Receivers
import RouteManifest.Proofs.Frame
import RouteManifest.Proofs.CacheFilling
import RouteManifest.Proofs.Histories
import RouteManifest.Proofs.Components
import RouteManifest.Proofs.Paths
import RouteManifest.Proofs.PathsBelow
import RouteManifest.Proofs.RecordingPens
import RouteManifest.Proofs.Encoding
import RouteManifest.Proofs.PlanningOrder
import RouteManifest.Proofs.Elements
import RouteManifest.Proofs.Accounting
import RouteManifest.Proofs.Isolation
import RouteManifest.Proofs.Nesting
import RouteManifest.Proofs.Traversal
import RouteManifest.Proofs.Failures
import RouteManifest.Proofs.Relocation
import RouteManifest.Proofs.SourceMaps
import RouteManifest.Proofs.Locations
import RouteManifest.Proofs.Places
import RouteManifest.Proofs.Resolution
import RouteManifest.Proofs.Levels
import RouteManifest.Proofs.Bindings
import RouteManifest.Proofs.Positions
import RouteManifest.Proofs.Equipping
import RouteManifest.Proofs.Naming
import RouteManifest.Proofs.EquippedPlaces
import RouteManifest.Proofs.Rescoping
import RouteManifest.Proofs.Repeating
import RouteManifest.Proofs.Persistence
import RouteManifest.Proofs.Recompiling
import RouteManifest.Proofs.Specifiers
import RouteManifest.Proofs.Evaluation
import RouteManifest.Proofs.Occurrences
import RouteManifest.Proofs.Exported
import RouteManifest.Proofs.Scanning
import RouteManifest.Proofs.Quoting
import RouteManifest.Proofs.Tokens
import RouteManifest.Proofs.Readers
import RouteManifest.Proofs.Writing
import RouteManifest.Proofs.Rereading
import RouteManifest.Proofs.Endings
import RouteManifest.Proofs.Searching
import RouteManifest.Proofs.Pointing
import RouteManifest.Proofs.JsonReading
import RouteManifest.Proofs.Spelling
import RouteManifest.Proofs.Numerals
import RouteManifest.Proofs.Loading
import RouteManifest.Proofs.Documents
import RouteManifest.Proofs.Records
import RouteManifest.Proofs.Discovery
import RouteManifest.Proofs.Boundaries
import RouteManifest.Proofs.FreshTrees
import RouteManifest.Proofs.FreshTypes
import RouteManifest.Proofs.FreshExpressions
import RouteManifest.Proofs.FreshModules

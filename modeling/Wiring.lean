import Wiring.CommandLine.LogFilter
import Wiring.Declaration.Building
import Wiring.Files.Tree
import Wiring.Main
import Wiring.Proofs.Order.Ascending
import Wiring.Proofs.Parameters.Representation
import Wiring.Proofs.TypeRef.Reading
import Wiring.Proofs.TypeRef.Parse
import Wiring.Proofs.Order.UntilFailure
import Wiring.Proofs.Provider.Pass
import Wiring.Proofs.Parameters.Table
import Wiring.Proofs.Provider.Policy
import Wiring.Proofs.Diagnostic
import Wiring.Proofs.Provider.Reports
import Wiring.Proofs.Provider.Conservation
import Wiring.Proofs.Parameters.Reordering
import Wiring.Proofs.Provider.Order
import Wiring.Proofs.Model.Basic
import Wiring.Proofs.Order.BreadthFirst
import Wiring.Proofs.Walk.Blocks
import Wiring.Proofs.Walk.Modules
import Wiring.Proofs.Walk.Classes
import Wiring.Proofs.Walk.Cursor
import Wiring.Proofs.Walk.Traversal
import Wiring.Proofs.Walk.Retyped
import Wiring.Proofs.Template.Segment
import Wiring.Proofs.Template.Tokenize
import Wiring.Proofs.Parameters.Consolidation
import Wiring.Proofs.Provider.Precedence
import Wiring.Proofs.TypeRef.Lexing
import Wiring.Proofs.Provider.Lookup
import Wiring.Proofs.Walk.Wrapper
import Wiring.Proofs.Provider.Delivery
import Wiring.Proofs.Site.Collect
import Wiring.Proofs.Declaration.Signature
import Wiring.Proofs.Provider.Primitive
import Wiring.Proofs.Site.Element
import Wiring.Proofs.Site.Distinct
import Wiring.Proofs.Parameters.KeyOrder
import Wiring.Proofs.Provider.Collisions
import Wiring.Proofs.Walk.Failure
import Wiring.Proofs.Graph.Tree
import Wiring.Proofs.Graph.OfWalk
import Wiring.Proofs.Conversion.Standard
import Wiring.Proofs.Conversion.Nested
import Wiring.Proofs.Conversion.Extension
import Wiring.Proofs.Template.Handler
import Wiring.Proofs.Template.Malformed
import Wiring.Proofs.CommandLine.Generate
import Wiring.Proofs.Template.Expansion
import Wiring.Proofs.Provider.Truthful
import Wiring.Proofs.Site.Visiting
import Wiring.Proofs.Walk.Overriding
import Wiring.Proofs.Graph.Dependencies
import Wiring.Proofs.Graph.Answers
import Wiring.Proofs.Graph.Paths
import Wiring.Proofs.Graph.Search
import Wiring.Proofs.Graph.Trails
import Wiring.Proofs.Graph.Drawing
import Wiring.Proofs.Files.Tree
import Wiring.Proofs.Model.Insertion
import Wiring.Proofs.Model.Merging
import Wiring.Proofs.Model.Lineage
import Wiring.Proofs.Config.Domains
import Wiring.Proofs.Provider.MethodName
import Wiring.Proofs.Text.Bytes
import Wiring.Proofs.Template.Slices
import Wiring.Proofs.TypeRef.Offsets
import Wiring.Proofs.Conversion.Hygiene

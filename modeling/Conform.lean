import Conform.Proofs.Config.Compiled
import Conform.Proofs.Config.Height
import Conform.Proofs.Config.Options
import Conform.Proofs.Outcome
import Conform.Proofs.Registry.Run
import Conform.Proofs.Registry.Atomic
import Conform.Proofs.Registry.Ancestors
import Conform.Proofs.Registry.Sound
import Conform.Proofs.Registry.Store
import Conform.Proofs.Schema.Accepts
import Conform.Proofs.Schema.Plan
import Conform.Proofs.Schema.Steps
import Conform.Proofs.Schema.Recursion
import Conform.Proofs.Value.Key
import Conform.Document.Load
import Conform.Registry.InPlace
import Conform.Schema.Rendering
import Conform.Schema.Sharing
import Conform.Value.Duplicates
import Conform.Value.TensorLiteral
import Conform.Proofs.Schema.Agreement
import Conform.Proofs.Config.Building
import Conform.Proofs.Digest.Outline
import Conform.Proofs.Schema.Tokens
import Conform.Proofs.Value.Ordinary
import Conform.Proofs.Value.Comparison
import Conform.Proofs.Schema.Valid
import Conform.Proofs.Digest.Lines
import Conform.Proofs.Digest.Same
import Conform.Proofs.Schema.Alike
import Conform.Proofs.Schema.Choice
import Conform.Proofs.Config.Pairs
import Conform.Proofs.Digest.Sorted
import Conform.Proofs.Digest.Plain
import Conform.Proofs.Schema.Transparent
import Conform.Proofs.Registry.Deletion
import Conform.Proofs.Config.Reading
import Conform.Proofs.Config.Nested
import Conform.Proofs.Config.Waived
import Conform.Proofs.Config.Exclusive
import Conform.Proofs.Config.Steady
import Conform.Proofs.Value.Reordered
import Conform.Proofs.Value.Indifferent
import Conform.Proofs.Digest.Reordered
import Conform.Proofs.Schema.Twin
import Conform.Proofs.Config.Carried
import Conform.Proofs.Config.Reordered
import Conform.Proofs.Value.Everywhere
import Conform.Proofs.Config.Throughout
import Conform.Proofs.Digest.Total
import Conform.Proofs.Config.Refusals
import Conform.Proofs.Schema.Answered
import Conform.Proofs.Schema.Finished
import Conform.Proofs.Schema.Supplied
import Conform.Proofs.Value.Equivalence
import Conform.Proofs.Value.Duplicates
import Conform.Proofs.Config.Parallel
import Conform.Proofs.Registry.Extends
import Conform.Proofs.Document.Loaded
import Conform.Proofs.Schema.OneOf
import Conform.Proofs.Value.Ordered
import Conform.Proofs.Schema.Bounds
import Conform.Proofs.Schema.Located
import Conform.Proofs.Document.Sourced
import Conform.Proofs.Document.Catalog
import Conform.Proofs.Schema.Grouping
import Conform.Proofs.Schema.Rebuilt
import Conform.Proofs.Schema.Marked
import Conform.Proofs.Schema.Kept
import Conform.Proofs.Config.Unread
import Conform.Proofs.Schema.Led
import Conform.Proofs.Schema.Legible
import Conform.Proofs.Value.Deduplicated
import Conform.Proofs.Schema.Rendered

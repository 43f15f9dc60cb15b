import Conform.Main
import Conform.Files.Directory
import Conform.Proofs.Matching.Acts
import Conform.Proofs.Matching.Run
import Conform.Proofs.Matching.Conformance
import Conform.Proofs.Matching.Findings
import Conform.Proofs.Matching.Session
import Conform.Proofs.Matching.Depth
import Conform.Proofs.Matching.Cut
import Conform.Proofs.Matching.Nesting
import Conform.Proofs.Lint.Listing
import Conform.Proofs.Matching.Strict
import Conform.Proofs.Matching.Endless
import Conform.Proofs.Matching.Outcome
import Conform.Proofs.Matching.Alike
import Conform.Proofs.Matching.Optional
import Conform.Proofs.Matching.Weaker
import Conform.Proofs.Matching.Wildcard
import Conform.Proofs.Matching.Preorder
import Conform.Proofs.Document.Layerwise
import Conform.Proofs.Matching.Parallel
import Conform.Proofs.Matching.Sparse
import Conform.Proofs.Matching.Order
import Conform.Proofs.Matching.Structure
import Conform.Proofs.Lint.Visits
import Conform.Proofs.Loading.Kept
import Conform.Proofs.Loading.Formats
import Conform.Proofs.Loading.History
import Conform.Proofs.Command.Diagnosis
import Conform.Proofs.Command.Failures
import Conform.Proofs.Rendering.Annotations
import Conform.Proofs.Rendering.Summary
import Conform.Proofs.Manifest.Checks
import Conform.Proofs.Command.Batch
import Conform.Proofs.Command.Independence
import Conform.Proofs.Matching.Guards
import Conform.Proofs.Pointer.Rendering
import Conform.Proofs.Pointer.Blocks
import Conform.Proofs.Marker
import Conform.Proofs.Manifest.Entries
import Conform.Proofs.Log.Dispatch
import Conform.Proofs.Rendering.Agreement
import Conform.Proofs.Document.Canonical

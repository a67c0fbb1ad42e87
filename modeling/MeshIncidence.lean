import MeshIncidence.Fault.Message
import MeshIncidence.Workspace
import MeshIncidence.Proofs.Incidence.Inversion
import MeshIncidence.Proofs.Incidence.Transposition
import MeshIncidence.Proofs.Incidence.Grouping
import MeshIncidence.Proofs.Outcome
import MeshIncidence.Proofs.Resolution.Canonical
import MeshIncidence.Proofs.Store.Growth
import MeshIncidence.Proofs.Resolution.Faithful
import MeshIncidence.Proofs.Resolution.Answers
import MeshIncidence.Proofs.Resolution.Determined
import MeshIncidence.Proofs.Mesh.Accepted
import MeshIncidence.Proofs.Resolution.Laziness
import MeshIncidence.Proofs.Derivation.Gathering
import MeshIncidence.Proofs.Derivation.Neighbours
import MeshIncidence.Proofs.Mesh.Touching
import MeshIncidence.Proofs.Shape.Regular
import MeshIncidence.Proofs.Numbering.Steps
import MeshIncidence.Proofs.Numbering.Dictionary
import MeshIncidence.Proofs.Numbering.Deduplication
import MeshIncidence.Proofs.Numbering.Occurrences
import MeshIncidence.Proofs.Numbering.Admitted
import MeshIncidence.Proofs.Resolution.Rows
import MeshIncidence.Proofs.Resolution.Atomic
import MeshIncidence.Proofs.Resolution.Inverses
import MeshIncidence.Proofs.Simplicial.Faces
import MeshIncidence.Proofs.Simplicial.Containment
import MeshIncidence.Proofs.Resolution.Inquiry
import MeshIncidence.Proofs.Audit.Passing
import MeshIncidence.Proofs.Mesh.Replacement
import MeshIncidence.Proofs.Resolution.Everything
import MeshIncidence.Proofs.Resolution.Existence
import MeshIncidence.Proofs.Resolution.Membership
import MeshIncidence.Proofs.Relabelling.Cells
import MeshIncidence.Proofs.Relabelling.Numbering
import MeshIncidence.Proofs.Relabelling.Rows
import MeshIncidence.Proofs.Relabelling.Vertices
import MeshIncidence.Proofs.Request.Effects
import MeshIncidence.Proofs.Resolution.Recording
import MeshIncidence.Proofs.Resolution.Operation
import MeshIncidence.Proofs.Resolution.Missteps
import MeshIncidence.Proofs.Resolution.Confined
import MeshIncidence.Proofs.Resolution.Tampered
import MeshIncidence.Proofs.Resolution.Complete
import MeshIncidence.Proofs.Resolution.Nesting
import MeshIncidence.Proofs.Resolution.Completion
import MeshIncidence.Proofs.Incidence.Encoding
import MeshIncidence.Proofs.Resolution.Tidy
import MeshIncidence.Proofs.Audit.Findings
import MeshIncidence.Proofs.Audit.Fresh
import MeshIncidence.Proofs.Audit.Validity
import MeshIncidence.Proofs.Audit.Comparison
import MeshIncidence.Proofs.Audit.Lists
import MeshIncidence.Proofs.Store.Order
import MeshIncidence.Proofs.Numbering.Repeats
import MeshIncidence.Proofs.Resolution.Sharing
import MeshIncidence.Proofs.Resolution.Footprint
import MeshIncidence.Proofs.Numbering.Misfits
import MeshIncidence.Proofs.Simplicial.Intermediate
import MeshIncidence.Proofs.Simplicial.EdgeGraph
import MeshIncidence.Proofs.Derivation.Composition
import MeshIncidence.Proofs.Shape.Subsets
import MeshIncidence.Proofs.Audit.Enforcement
import MeshIncidence.Proofs.Mesh.Construction
import MeshIncidence.Proofs.Mesh.Acceptance
import MeshIncidence.Proofs.Mesh.Appended
import MeshIncidence.Proofs.Numbering.Appended
import MeshIncidence.Proofs.Numbering.Reuse

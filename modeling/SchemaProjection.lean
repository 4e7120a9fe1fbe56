import SchemaProjection.Proofs.Grammar.Apart
import SchemaProjection.Proofs.Grammar.Declarations
import SchemaProjection.Proofs.Grammar.Layout
import SchemaProjection.Proofs.Grammar.Nesting
import SchemaProjection.Proofs.Grammar.Roundtrip
import SchemaProjection.Proofs.Grammar.Shown
import SchemaProjection.Proofs.Grammar.StringLiterals
import SchemaProjection.Proofs.Graph.Bisimilarity
import SchemaProjection.Proofs.Graph.Refusals
import SchemaProjection.Proofs.Run.Comparisons
import SchemaProjection.Proofs.Run.Documenting
import SchemaProjection.Proofs.Run.Ordering
import SchemaProjection.Proofs.Run.Restoring
import SchemaProjection.Proofs.Run.Returning
import SchemaProjection.Proofs.Text.Merging
import SchemaProjection.Proofs.Text.NormalForms
import SchemaProjection.Proofs.Workspace.Applicability
import SchemaProjection.Proofs.Workspace.Casing
import SchemaProjection.Proofs.Workspace.Commuting
import SchemaProjection.Proofs.Workspace.Declaring
import SchemaProjection.Proofs.Workspace.Extension
import SchemaProjection.Proofs.Workspace.Faults
import SchemaProjection.Proofs.Workspace.Identity
import SchemaProjection.Proofs.Workspace.Independence
import SchemaProjection.Proofs.Workspace.Inheritance
import SchemaProjection.Proofs.Workspace.Memoization
import SchemaProjection.Proofs.Workspace.Options
import SchemaProjection.Proofs.Workspace.Recording
import SchemaProjection.Proofs.Workspace.Renames
import SchemaProjection.Proofs.Workspace.Replay
import SchemaProjection.Proofs.Workspace.Sources
import SchemaProjection.Proofs.Workspace.Termination
import SchemaProjection.Proofs.Workspace.Views
import SchemaProjection.Proofs.Workspace.WriteThrough

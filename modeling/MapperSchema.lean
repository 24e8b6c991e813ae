import MapperSchema.Table
import MapperSchema.Table.Merge
import MapperSchema.Text.Printable
import MapperSchema.Text.Quoted
import MapperSchema.Value.Decimal
import MapperSchema.Value.Basic
import MapperSchema.Value.Equality
import MapperSchema.Value.Fresh
import MapperSchema.Value.Label
import MapperSchema.Value.Reading
import MapperSchema.Validator.Kind
import MapperSchema.Validator.Node
import MapperSchema.Validator.Unwrapped
import MapperSchema.Issue
import MapperSchema.Annotation.Basic
import MapperSchema.Annotation.Coercion
import MapperSchema.Store
import MapperSchema.Path
import MapperSchema.Fault
import MapperSchema.Journal.Level
import MapperSchema.Journal.Context
import MapperSchema.Journal.Event
import MapperSchema.Journal.Basic
import MapperSchema.Journal.Operation
import MapperSchema.Schema.Basic
import MapperSchema.Schema.Rendering
import MapperSchema.Compiler.Options
import MapperSchema.Compiler.Basic
import MapperSchema.Session
import MapperSchema.Authoring
import MapperSchema.Settings
import MapperSchema.Setup
import MapperSchema.Proofs.Compiler.Position
import MapperSchema.Proofs.Compiler.Outline
import MapperSchema.Proofs.Compiler.Visits
import MapperSchema.Proofs.Compiler.Visited
import MapperSchema.Proofs.Compiler.Follows
import MapperSchema.Proofs.Compiler.Run
import MapperSchema.Proofs.Compiler.Failure
import MapperSchema.Proofs.Annotation.Merging
import MapperSchema.Proofs.Compiler.Locality
import MapperSchema.Proofs.Authoring.Identity
import MapperSchema.Proofs.Compiler.Attachment
import MapperSchema.Proofs.Compiler.EventTrace
import MapperSchema.Proofs.Compiler.Relocation
import MapperSchema.Proofs.Compiler.Composition
import MapperSchema.Proofs.Table.Order
import MapperSchema.Proofs.Compiler.Matching
import MapperSchema.Proofs.Compiler.FieldOptions
import MapperSchema.Proofs.Compiler.Replacement
import MapperSchema.Proofs.Compiler.Wrapping
import MapperSchema.Proofs.Authoring.History
import MapperSchema.Proofs.Compiler.Influence
import MapperSchema.Proofs.Compiler.Compiled
import MapperSchema.Proofs.Compiler.LastGiven
import MapperSchema.Proofs.Compiler.Required
import MapperSchema.Proofs.Compiler.Strictness
import MapperSchema.Proofs.Compiler.Revaluing
import MapperSchema.Proofs.Compiler.Defaults
import MapperSchema.Proofs.Compiler.Tasks
import MapperSchema.Proofs.Authoring.ContextKept
import MapperSchema.Proofs.Annotation.Monoid
import MapperSchema.Proofs.Schema.Reading
import MapperSchema.Proofs.Schema.Revision
import MapperSchema.Proofs.Schema.Faithful
import MapperSchema.Proofs.Authoring.Declared
import MapperSchema.Proofs.Compiler.Mirror
import MapperSchema.Proofs.Authoring.Reachable
import MapperSchema.Proofs.Authoring.Timestamps
import MapperSchema.Proofs.Compiler.TimestampNames
import MapperSchema.Proofs.Authoring.Extension
import MapperSchema.Proofs.Annotation.Finalisation
import MapperSchema.Proofs.Compiler.Overriding
import MapperSchema.Proofs.Authoring.Annotating
import MapperSchema.Proofs.Annotation.Grammar
import MapperSchema.Proofs.Annotation.Complaints
import MapperSchema.Proofs.Authoring.Coercion
import MapperSchema.Proofs.Settings.Reading
import MapperSchema.Proofs.Settings.Resolution
import MapperSchema.Proofs.Settings.Independence
import MapperSchema.Proofs.Setup.Configuration
import MapperSchema.Proofs.Setup.Filtering
import MapperSchema.Proofs.Validator.Unwrapping
import MapperSchema.Proofs.Compiler.SharedDefaults
import MapperSchema.Proofs.Compiler.Ways
import MapperSchema.Proofs.Compiler.DottedPaths

import RequestSchema.Proofs.Extraction.ArrayEvaluation
import RequestSchema.Proofs.Extraction.PathCoverage
import RequestSchema.Proofs.Parameter.Branches
import RequestSchema.Proofs.Parameter.Requirement
import RequestSchema.Operation
import RequestSchema.Proofs.Parameter.WellFormed
import RequestSchema.Proofs.Analysis.Alike
import RequestSchema.Proofs.Enumeration.Lookup
import RequestSchema.Proofs.Parameter.Reading
import RequestSchema.Proofs.Rule.Statements
import RequestSchema.Proofs.Rule.Repetition
import RequestSchema.Proofs.Parameter.SharedRules
import RequestSchema.Proofs.Rule.Unread
import RequestSchema.Proofs.Parameter.PlainData
import RequestSchema.Proofs.Analysis.Leaves
import RequestSchema.Proofs.Session.History
import RequestSchema.Proofs.Session.Strictness
import RequestSchema.Proofs.Extraction.HelperCalls
import RequestSchema.Proofs.Anonymous.Isolation
import RequestSchema.Proofs.Parameter.Totality
import RequestSchema.Proofs.Parameter.UploadInformation
import RequestSchema.Proofs.Extraction.PathLimit
import RequestSchema.Proofs.Parameter.Names
import RequestSchema.Proofs.Parameter.Exclusion
import RequestSchema.Proofs.Parameter.IntegerExample
import RequestSchema.Proofs.Extraction.FirstPath
import RequestSchema.Proofs.Extraction.Switches
import RequestSchema.Proofs.Anonymous.NamedTwin
import RequestSchema.Proofs.Parameter.MalformedData
import RequestSchema.Proofs.Enumeration.Shapes
import RequestSchema.Proofs.Parameter.LengthNotes
import RequestSchema.Proofs.Parameter.Independence
import RequestSchema.Proofs.Rule.StatedLimits
import RequestSchema.Proofs.Rule.DelimitedPattern
import RequestSchema.Proofs.Extraction.Classification
import RequestSchema.Proofs.Extraction.ListedValues
import RequestSchema.Proofs.Rule.UploadConstraints
import RequestSchema.Proofs.Anonymous.ClassExpression
import RequestSchema.Proofs.Source.Quotation
import RequestSchema.Proofs.Source.Aliases
import RequestSchema.Proofs.Extraction.Separation
import RequestSchema.Proofs.Extraction.Concatenation
import RequestSchema.Proofs.Source.Append
import RequestSchema.Proofs.Source.ClassCode
import RequestSchema.Proofs.Text.Lines

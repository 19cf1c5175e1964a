import AbstractSql.Decimal.Reading
import AbstractSql.Engine
import AbstractSql.Form.Command
import AbstractSql.Form.Document
import AbstractSql.Form.Result
import AbstractSql.Json.Reader
import AbstractSql.Json.Writer
import AbstractSql.Main
import AbstractSql.Query.Building
import AbstractSql.Proofs.Outcome
import AbstractSql.Proofs.Command.Compiled
import AbstractSql.Proofs.Batch.Runs
import AbstractSql.Proofs.Batch.Partition
import AbstractSql.Proofs.NameSupply.Freshness
import AbstractSql.Proofs.ParameterSet.Latest
import AbstractSql.Proofs.Segment.Pieces
import AbstractSql.Proofs.Segment.Alike
import AbstractSql.Proofs.Binding.Tokens
import AbstractSql.Proofs.Query.Ledger
import AbstractSql.Proofs.Query.Twins
import AbstractSql.Proofs.Translation.Effect
import AbstractSql.Proofs.Translation.Fragments
import AbstractSql.Proofs.Translation.Clauses
import AbstractSql.Proofs.Translation.Embedding
import AbstractSql.Proofs.Translation.Joining
import AbstractSql.Proofs.Translation.Coupling
import AbstractSql.Proofs.Command.Sites
import AbstractSql.Proofs.Batch.Values
import AbstractSql.Proofs.Batch.Transparent
import AbstractSql.Proofs.Batch.Clashes
import AbstractSql.Proofs.Command.Filter
import AbstractSql.Proofs.Plan.Protocol
import AbstractSql.Proofs.Batch.MustAffect
import AbstractSql.Proofs.Translation.Predicate
import AbstractSql.Proofs.Statement.Binding
import AbstractSql.Proofs.Predicate.Conjunction
import AbstractSql.Proofs.Outline.Clauses
import AbstractSql.Proofs.Outline.Resolved
import AbstractSql.Proofs.Outline.Lowering
import AbstractSql.Proofs.Outline.Texts
import AbstractSql.Proofs.Outline.Translated
import AbstractSql.Proofs.Outline.Induction
import AbstractSql.Proofs.Outline.Order
import AbstractSql.Proofs.Outline.Closures
import AbstractSql.Proofs.Outline.Naming
import AbstractSql.Proofs.Outline.Hoisting
import AbstractSql.Proofs.Outline.Matching
import AbstractSql.Proofs.Outline.Flattening
import AbstractSql.Proofs.Outline.Aliases
import AbstractSql.Proofs.Outline.Extras
import AbstractSql.Proofs.Segment.Chain
import AbstractSql.Proofs.Segment.Mode
import AbstractSql.Proofs.Segment.Alternatives
import AbstractSql.Proofs.Segment.Scanning
import AbstractSql.Proofs.Binding.Marks
import AbstractSql.Proofs.Translation.Selection
import AbstractSql.Proofs.Outline.Arms
import AbstractSql.Proofs.Statement.Arms
import AbstractSql.Proofs.Batch.Thresholds
import AbstractSql.Proofs.Segment.Quoted
import AbstractSql.Proofs.Predicate.Requiring
import AbstractSql.Proofs.Outline.Additions
import AbstractSql.Proofs.Outline.Outer
import AbstractSql.Proofs.Outline.AntiJoin
import AbstractSql.Proofs.Failures
import AbstractSql.Proofs.Translation.Appending
import AbstractSql.Proofs.Translation.Matched
import AbstractSql.Proofs.Translation.Rewriting
import AbstractSql.Proofs.Outline.Depth
import AbstractSql.Proofs.Outline.Origins
import AbstractSql.Proofs.Outline.Limits
import AbstractSql.Proofs.Outline.Exposing
import AbstractSql.Proofs.Statement.Framing
import AbstractSql.Proofs.Statement.Selection
import AbstractSql.Proofs.Statement.Exposing
import AbstractSql.Proofs.ParameterSet.Names
import AbstractSql.Proofs.Command.Assigned
import AbstractSql.Proofs.Command.Changes
import AbstractSql.Proofs.Statement.RawText
import AbstractSql.Proofs.Segment.Issued
import AbstractSql.Proofs.NameSupply.Runs
import AbstractSql.Proofs.Translation.Inference
import AbstractSql.Proofs.ParameterSet.Repeats
import AbstractSql.Proofs.Batch.Repeats
import AbstractSql.Proofs.ParameterSet.Union
import AbstractSql.Proofs.Batch.Merging
import AbstractSql.Proofs.Form.Command

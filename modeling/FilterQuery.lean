import FilterQuery.Binary64
import FilterQuery.Calendar.Date
import FilterQuery.Calendar.DateText
import FilterQuery.Calendar.Instant
import FilterQuery.CommandLine.Environment
import FilterQuery.CommandLine.Invocation
import FilterQuery.CommandLine.Options
import FilterQuery.CommandLine.Program
import FilterQuery.CommandLine.Report
import FilterQuery.Condition.Rendering
import FilterQuery.Condition.Resolution
import FilterQuery.Condition.Tree
import FilterQuery.Condition.Window
import FilterQuery.Filter.Detection
import FilterQuery.Filter.Document
import FilterQuery.Filter.Limits
import FilterQuery.Filter.Tree
import FilterQuery.FilterError
import FilterQuery.JoinPlan.Basic
import FilterQuery.JoinPlan.Planning
import FilterQuery.Json.Basic
import FilterQuery.Json.Number
import FilterQuery.Json.Printer
import FilterQuery.Json.Reader
import FilterQuery.LikePattern
import FilterQuery.Main
import FilterQuery.NameMap
import FilterQuery.Operand
import FilterQuery.Operator
import FilterQuery.Proofs.Blanks
import FilterQuery.Proofs.Calendar.Dates
import FilterQuery.Proofs.Calendar.Digits
import FilterQuery.Proofs.Calendar.Periods
import FilterQuery.Proofs.Calendar.Spelling
import FilterQuery.Proofs.Calendar.TextOrder
import FilterQuery.Proofs.Calendar.Windows
import FilterQuery.Proofs.Condition.Alike
import FilterQuery.Proofs.Condition.Blank
import FilterQuery.Proofs.Condition.Compiling
import FilterQuery.Proofs.Condition.Discovery
import FilterQuery.Proofs.Condition.Lookups
import FilterQuery.Proofs.Condition.Markers
import FilterQuery.Proofs.Condition.Names
import FilterQuery.Proofs.Condition.Operands
import FilterQuery.Proofs.Condition.OtherPlans
import FilterQuery.Proofs.Condition.Patterns
import FilterQuery.Proofs.Condition.PlainNames
import FilterQuery.Proofs.Condition.Reading
import FilterQuery.Proofs.Condition.RelativeDates
import FilterQuery.Proofs.Condition.Renaming
import FilterQuery.Proofs.Condition.Resolving
import FilterQuery.Proofs.Condition.Scoping
import FilterQuery.Proofs.Condition.Syntax
import FilterQuery.Proofs.Condition.Typing
import FilterQuery.Proofs.Condition.Widening
import FilterQuery.Proofs.Filter.Acceptance
import FilterQuery.Proofs.Filter.Choosing
import FilterQuery.Proofs.Filter.Counting
import FilterQuery.Proofs.Filter.Detecting
import FilterQuery.Proofs.Filter.Entries
import FilterQuery.Proofs.Filter.Extent
import FilterQuery.Proofs.Filter.Grammar
import FilterQuery.Proofs.Filter.KeyOrder
import FilterQuery.Proofs.Filter.Keys
import FilterQuery.Proofs.Filter.Limits
import FilterQuery.Proofs.Filter.Operands
import FilterQuery.Proofs.Filter.Rearrangement
import FilterQuery.Proofs.Filter.Reordering
import FilterQuery.Proofs.Filter.Respelling
import FilterQuery.Proofs.Filter.Rules
import FilterQuery.Proofs.Filter.Skeleton
import FilterQuery.Proofs.Filter.Splitting
import FilterQuery.Proofs.Filter.Through
import FilterQuery.Proofs.Filter.Typed
import FilterQuery.Proofs.JoinPlan.Chains
import FilterQuery.Proofs.JoinPlan.Correspondence
import FilterQuery.Proofs.JoinPlan.Growth
import FilterQuery.Proofs.JoinPlan.Levels
import FilterQuery.Proofs.JoinPlan.Names
import FilterQuery.Proofs.JoinPlan.Paths
import FilterQuery.Proofs.JoinPlan.Trails
import FilterQuery.Proofs.Json.Reading
import FilterQuery.Proofs.Kinds
import FilterQuery.Proofs.Lists
import FilterQuery.Proofs.Meaning.Collections
import FilterQuery.Proofs.Meaning.Compilation
import FilterQuery.Proofs.Meaning.Conjunction
import FilterQuery.Proofs.Meaning.Database
import FilterQuery.Proofs.Meaning.Equivalence
import FilterQuery.Proofs.Meaning.FieldTests
import FilterQuery.Proofs.Meaning.Filter
import FilterQuery.Proofs.Meaning.Truth
import FilterQuery.Proofs.Result
import FilterQuery.Proofs.Schema.Catalog
import FilterQuery.Proofs.Schema.Closed
import FilterQuery.Proofs.Schema.Declaring
import FilterQuery.Proofs.Schema.Plain
import FilterQuery.Proofs.Schema.Registration
import FilterQuery.Proofs.Schema.Validation
import FilterQuery.Proofs.Search.Agreement
import FilterQuery.Proofs.Search.Independence
import FilterQuery.Proofs.Search.Markers
import FilterQuery.Proofs.Search.Ordering
import FilterQuery.Proofs.Search.Paging
import FilterQuery.Proofs.Search.Respelling
import FilterQuery.Proofs.Search.Serving
import FilterQuery.Proofs.Settings.Expansion
import FilterQuery.Proofs.Settings.Layers
import FilterQuery.Proofs.Sql.Syntax
import FilterQuery.Proofs.Sql.Token
import FilterQuery.Proofs.Sql.Unambiguous
import FilterQuery.Proofs.Statement.Markers
import FilterQuery.Proofs.Statement.Rendering
import FilterQuery.Schema.Catalog
import FilterQuery.Schema.Entity
import FilterQuery.Schema.Registry
import FilterQuery.Search.Engine
import FilterQuery.Search.Page
import FilterQuery.Search.Query
import FilterQuery.Search.Request
import FilterQuery.Settings.Document
import FilterQuery.Settings.Files
import FilterQuery.Settings.Layer
import FilterQuery.Settings.Path
import FilterQuery.Statement.Dialect
import FilterQuery.Statement.Fragment
import FilterQuery.Text.Alphanumeric
import FilterQuery.Text.Blank
import FilterQuery.Uuid
import FilterQuery.Value

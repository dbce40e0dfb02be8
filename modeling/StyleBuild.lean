import StyleBuild.Compiler
import StyleBuild.Config.Basic
import StyleBuild.Config.Reader
import StyleBuild.Decimal.Double
import StyleBuild.Decimal.Shortest
import StyleBuild.Dictionary
import StyleBuild.Digest.Hex
import StyleBuild.Digest.Sha256
import StyleBuild.Engine.Basic
import StyleBuild.Engine.Dialogue
import StyleBuild.Engine.ImportFiles
import StyleBuild.Error
import StyleBuild.Files.Basic
import StyleBuild.Files.Change
import StyleBuild.Files.Fault
import StyleBuild.Files.Replace
import StyleBuild.Fingerprint
import StyleBuild.Json.Fault
import StyleBuild.Json.Number
import StyleBuild.Json.Quote
import StyleBuild.Json.Scan
import StyleBuild.Json.Skip
import StyleBuild.Json.Typed
import StyleBuild.LineComment
import StyleBuild.Locator
import StyleBuild.Lookup
import StyleBuild.Mounts
import StyleBuild.OutputLock
import StyleBuild.Path
import StyleBuild.Publisher.Banner
import StyleBuild.Publisher.Basic
import StyleBuild.Publisher.Publish
import StyleBuild.Publisher.Stale
import StyleBuild.Record.Basic
import StyleBuild.Record.Reader
import StyleBuild.Record.Store
import StyleBuild.Record.Writer
import StyleBuild.Scss.Color
import StyleBuild.Scss.Complaint
import StyleBuild.Scss.Css
import StyleBuild.Scss.Engine
import StyleBuild.Scss.Expression
import StyleBuild.Scss.Run
import StyleBuild.Scss.Scan
import StyleBuild.Scss.Scopes
import StyleBuild.Scss.Selector
import StyleBuild.Scss.Sheet
import StyleBuild.Scss.Value
import StyleBuild.Substitution.Argument
import StyleBuild.Substitution.Call
import StyleBuild.Substitution.Literal
import StyleBuild.Substitution.Registry
import StyleBuild.Text.Affix
import StyleBuild.Text.Blank
import StyleBuild.Text.Described
import StyleBuild.Text.Lines
import StyleBuild.Text.Quoted
import StyleBuild.Text.Ranges
import StyleBuild.Text.Segments
import StyleBuild.Text.Word
import StyleBuild.World
import StyleBuild.Yaml.Cursor
import StyleBuild.Yaml.Fault
import StyleBuild.Yaml.Mark
import StyleBuild.Yaml.Node
import StyleBuild.Yaml.Property
import StyleBuild.Yaml.Scalar
import StyleBuild.Yaml.Scan
import StyleBuild.Yaml.Token
import StyleBuild.Yaml.Typed
import StyleBuild.Yaml.Value
import StyleBuild.Proofs.Files.Place
import StyleBuild.Proofs.Files.Reach
import StyleBuild.Proofs.Files.Outside
import StyleBuild.Proofs.Files.Replacement
import StyleBuild.Proofs.Json.Scalar
import StyleBuild.Proofs.Record.RoundTrip
import StyleBuild.Proofs.Publisher.Names
import StyleBuild.Proofs.Publisher.Step
import StyleBuild.Proofs.Publisher.Session
import StyleBuild.Proofs.Publisher.SingleWriter
import StyleBuild.Proofs.Substitution.SinglePass
import StyleBuild.Proofs.Engine.Dialogue
import StyleBuild.Proofs.Publisher.Build
import StyleBuild.Proofs.Publisher.Stale
import StyleBuild.Proofs.Publisher.Stage
import StyleBuild.Proofs.Files.Components
import StyleBuild.Proofs.Publisher.Edits
import StyleBuild.Proofs.Publisher.LateEdits
import StyleBuild.Proofs.Record.Apart
import StyleBuild.Proofs.Publisher.Ids
import StyleBuild.Proofs.Publisher.Whole
import StyleBuild.Proofs.Publisher.History
import StyleBuild.Proofs.Publisher.Current
import StyleBuild.Proofs.Mounts.Selection
import StyleBuild.Proofs.Locator.Precedence
import StyleBuild.Proofs.Files.Tree
import StyleBuild.Proofs.Files.Directories
import StyleBuild.Proofs.Record.Disjoint
import StyleBuild.Proofs.Publisher.Course
import StyleBuild.Proofs.Publisher.Success
import StyleBuild.Proofs.Publisher.Failure
import StyleBuild.Proofs.Publisher.Containment
import StyleBuild.Proofs.Files.Making
import StyleBuild.Proofs.Record.Recall
import StyleBuild.Proofs.Publisher.Commuting
import StyleBuild.Proofs.Files.Numbered
import StyleBuild.Proofs.Publisher.Commitment
import StyleBuild.Proofs.Publisher.Contention
import StyleBuild.Proofs.Engine.Answers
import StyleBuild.Proofs.Engine.PhysicalLines
import StyleBuild.Proofs.LineComment.Depth
import StyleBuild.Proofs.Record.Refinement
import StyleBuild.Proofs.Substitution.Completeness
import StyleBuild.Proofs.Engine.Order
import StyleBuild.Proofs.Engine.Nested
import StyleBuild.Proofs.Compiler.Unresolved
import StyleBuild.Proofs.Substitution.Arguments
import StyleBuild.Proofs.Substitution.Closing
import StyleBuild.Proofs.LineComment.Interior
import StyleBuild.Proofs.Mounts.LongestPrefix
import StyleBuild.Proofs.Engine.Readings
import StyleBuild.Proofs.Publisher.Decision
import StyleBuild.Proofs.LineComment.Statements
import StyleBuild.Proofs.Publisher.Batch
import StyleBuild.Proofs.Compiler.Variables
import StyleBuild.Proofs.Files.Atomicity
import StyleBuild.Proofs.Substitution.ClosedLiterals
import StyleBuild.Proofs.Substitution.Lines
import StyleBuild.Proofs.Substitution.Registration
import StyleBuild.Proofs.Text.Prefix
import StyleBuild.Proofs.Publisher.OutputNames
import StyleBuild.Proofs.Engine.EntryLookup
import StyleBuild.Proofs.Mounts.WritableLocation
import StyleBuild.Proofs.Locator.Extension
import StyleBuild.Proofs.Config.Rebase
import StyleBuild.Proofs.Text.Bytes
import StyleBuild.Proofs.Substitution.ByteLiterals
import StyleBuild.Proofs.Substitution.Passage

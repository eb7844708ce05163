import SpecDraft.Artifact
import SpecDraft.Assoc
import SpecDraft.Constitution.Basic
import SpecDraft.Constitution.Extract
import SpecDraft.Constitution.Record
import SpecDraft.Failure
import SpecDraft.Failure.Report
import SpecDraft.Feature.Basic
import SpecDraft.Feature.Extract
import SpecDraft.Feature.Field
import SpecDraft.Feature.Label
import SpecDraft.Feature.Record
import SpecDraft.Feature.Status
import SpecDraft.Feature.Story
import SpecDraft.File.Access
import SpecDraft.File.Digest
import SpecDraft.File.Disk
import SpecDraft.File.Home
import SpecDraft.File.Output
import SpecDraft.File.Path
import SpecDraft.File.Replace
import SpecDraft.File.Scan
import SpecDraft.Json.Basic
import SpecDraft.Json.Collection
import SpecDraft.Json.Display
import SpecDraft.Json.Extent
import SpecDraft.Json.FieldValue
import SpecDraft.Json.Printer
import SpecDraft.Json.Reader
import SpecDraft.Log
import SpecDraft.Log.Message
import SpecDraft.Markdown.Document
import SpecDraft.Markdown.Load
import SpecDraft.Markdown.Node
import SpecDraft.Markdown.Parser
import SpecDraft.Markdown.Section
import SpecDraft.Number.Binary64
import SpecDraft.Number.Decimal
import SpecDraft.Number.Quantity
import SpecDraft.Number.Whole
import SpecDraft.Plan.Basic
import SpecDraft.Plan.CurrentState
import SpecDraft.Plan.Effort
import SpecDraft.Plan.Generate
import SpecDraft.Plan.Record
import SpecDraft.Proofs.Action
import SpecDraft.Proofs.Assoc
import SpecDraft.Proofs.Constitution.Bounds
import SpecDraft.Proofs.Constitution.Following
import SpecDraft.Proofs.Constitution.Metrics
import SpecDraft.Proofs.Constitution.Stack
import SpecDraft.Proofs.Feature.Debt
import SpecDraft.Proofs.Feature.Dependency
import SpecDraft.Proofs.Feature.Description
import SpecDraft.Proofs.Feature.Excerpt
import SpecDraft.Proofs.Feature.Fences
import SpecDraft.Proofs.Feature.Files
import SpecDraft.Proofs.Feature.Locality
import SpecDraft.Proofs.Feature.Naming
import SpecDraft.Proofs.Feature.Partition
import SpecDraft.Proofs.Feature.Precedence
import SpecDraft.Proofs.Feature.Section
import SpecDraft.Proofs.Feature.Slug
import SpecDraft.Proofs.Feature.Spans
import SpecDraft.Proofs.Feature.Specification
import SpecDraft.Proofs.Feature.Story
import SpecDraft.Proofs.Feature.Validity
import SpecDraft.Proofs.File.Access
import SpecDraft.Proofs.File.Artifact
import SpecDraft.Proofs.File.Destination
import SpecDraft.Proofs.File.Files
import SpecDraft.Proofs.File.Growth
import SpecDraft.Proofs.File.Name
import SpecDraft.Proofs.File.Outcome
import SpecDraft.Proofs.File.Reading
import SpecDraft.Proofs.File.Refusal
import SpecDraft.Proofs.File.Repetition
import SpecDraft.Proofs.File.Replacement
import SpecDraft.Proofs.File.Rewriting
import SpecDraft.Proofs.File.Scan
import SpecDraft.Proofs.File.Sight
import SpecDraft.Proofs.File.Tree
import SpecDraft.Proofs.File.Writing
import SpecDraft.Proofs.Json.Characters
import SpecDraft.Proofs.Json.Collection
import SpecDraft.Proofs.Json.Decoding
import SpecDraft.Proofs.Json.Layout
import SpecDraft.Proofs.Json.Members
import SpecDraft.Proofs.Json.Numeral
import SpecDraft.Proofs.Json.Quoted
import SpecDraft.Proofs.Json.Refusal
import SpecDraft.Proofs.Json.RoundTrip
import SpecDraft.Proofs.Json.WellFormed
import SpecDraft.Proofs.Log.Line
import SpecDraft.Proofs.Markdown.Concatenation
import SpecDraft.Proofs.Markdown.Fences
import SpecDraft.Proofs.Markdown.Heading
import SpecDraft.Proofs.Markdown.Label
import SpecDraft.Proofs.Markdown.LineEnds
import SpecDraft.Proofs.Markdown.Lines
import SpecDraft.Proofs.Markdown.Metadata
import SpecDraft.Proofs.Markdown.Plain
import SpecDraft.Proofs.Markdown.Section
import SpecDraft.Proofs.Number.Quotient
import SpecDraft.Proofs.Number.Rounding
import SpecDraft.Proofs.Number.Shortest
import SpecDraft.Proofs.Plan.Chain
import SpecDraft.Proofs.Plan.Effort
import SpecDraft.Proofs.Plan.Existing
import SpecDraft.Proofs.Plan.Hours
import SpecDraft.Proofs.Session.Frame
import SpecDraft.Proofs.Session.Law
import SpecDraft.Proofs.Session.Question
import SpecDraft.Proofs.Session.Repeat
import SpecDraft.Proofs.Session.Run
import SpecDraft.Proofs.State.Atomic
import SpecDraft.Proofs.State.Call
import SpecDraft.Proofs.State.Change
import SpecDraft.Proofs.State.Completion
import SpecDraft.Proofs.State.Document
import SpecDraft.Proofs.State.Encoding
import SpecDraft.Proofs.State.Foreign
import SpecDraft.Proofs.State.Loading
import SpecDraft.Proofs.State.Position
import SpecDraft.Proofs.State.Recompletion
import SpecDraft.Proofs.State.Record
import SpecDraft.Proofs.State.RoundTrip
import SpecDraft.Proofs.State.Run
import SpecDraft.Proofs.State.Storage
import SpecDraft.Proofs.State.Untouched
import SpecDraft.Proofs.Template.Bundled
import SpecDraft.Proofs.Template.Closed
import SpecDraft.Proofs.Template.Constitution
import SpecDraft.Proofs.Template.Layout
import SpecDraft.Proofs.Template.Nesting
import SpecDraft.Proofs.Template.Outline
import SpecDraft.Proofs.Template.OutputLimit
import SpecDraft.Proofs.Template.Rendering
import SpecDraft.Proofs.Template.Resolution
import SpecDraft.Proofs.Template.Specification
import SpecDraft.Proofs.Template.Token
import SpecDraft.Proofs.Template.Trimming
import SpecDraft.Proofs.Template.Writing
import SpecDraft.Proofs.Text.Cutting
import SpecDraft.Proofs.Text.LetterCase
import SpecDraft.Proofs.Text.Search
import SpecDraft.Proofs.Workflow.Commands
import SpecDraft.Proofs.Workflow.Coverage
import SpecDraft.Proofs.Workflow.Generation
import SpecDraft.Proofs.Workflow.Hooks
import SpecDraft.Proofs.Workflow.Making
import SpecDraft.Proofs.Workflow.Noting
import SpecDraft.Proofs.Workflow.Places
import SpecDraft.Proofs.Workflow.Questions
import SpecDraft.Proofs.Workflow.Regeneration
import SpecDraft.Proofs.Workflow.Repetition
import SpecDraft.Proofs.Workflow.Stages
import SpecDraft.Proofs.Workflow.Success
import SpecDraft.Proofs.Workflow.Tally
import SpecDraft.Route
import SpecDraft.Session.Basic
import SpecDraft.Session.Event
import SpecDraft.Session.Hook
import SpecDraft.Session.Metric
import SpecDraft.Session.Operation
import SpecDraft.Settings
import SpecDraft.State.Basic
import SpecDraft.State.Change
import SpecDraft.State.Step
import SpecDraft.State.Store
import SpecDraft.State.Validation
import SpecDraft.Template.Bundled
import SpecDraft.Template.Render
import SpecDraft.Template.Source
import SpecDraft.Template.Token
import SpecDraft.Template.Tree
import SpecDraft.Text.Basic
import SpecDraft.Text.Case
import SpecDraft.Text.CaseTable
import SpecDraft.Text.Class
import SpecDraft.Text.PrintTable
import SpecDraft.Text.Utf8
import SpecDraft.Text.WordTable
import SpecDraft.Time
import SpecDraft.Tool
import SpecDraft.Workflow.Command
import SpecDraft.Workflow.ConstitutionStage
import SpecDraft.Workflow.Generation
import SpecDraft.Workflow.Guide
import SpecDraft.Workflow.PlanStage
import SpecDraft.Workflow.Position
import SpecDraft.Workflow.Progress
import SpecDraft.Workflow.Project
import SpecDraft.Workflow.SpecificationStage

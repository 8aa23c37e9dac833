import ScenarioAtlas.Action
import ScenarioAtlas.Command.Answer
import ScenarioAtlas.Command.Arguments
import ScenarioAtlas.Command.Layout
import ScenarioAtlas.Disk
import ScenarioAtlas.Example.Name
import ScenarioAtlas.Example.Placeholder
import ScenarioAtlas.Example.Shape
import ScenarioAtlas.Feature.Draft
import ScenarioAtlas.Feature.Issue
import ScenarioAtlas.Glob.Matcher
import ScenarioAtlas.Glob.Reader
import ScenarioAtlas.Glob.Token
import ScenarioAtlas.Group
import ScenarioAtlas.Group.Strategy
import ScenarioAtlas.Json.Printer
import ScenarioAtlas.Json.Reader
import ScenarioAtlas.Json.Value
import ScenarioAtlas.Listing.Cache
import ScenarioAtlas.Listing.Walk
import ScenarioAtlas.Main
import ScenarioAtlas.NodeId
import ScenarioAtlas.Path
import ScenarioAtlas.Proofs.Disk
import ScenarioAtlas.Proofs.Distinct
import ScenarioAtlas.Proofs.Example.Name
import ScenarioAtlas.Proofs.Example.Placeholder
import ScenarioAtlas.Proofs.Example.Shape
import ScenarioAtlas.Proofs.Example.Shortening
import ScenarioAtlas.Proofs.Feature.Actions
import ScenarioAtlas.Proofs.Feature.Comments
import ScenarioAtlas.Proofs.Feature.DocStrings
import ScenarioAtlas.Proofs.Feature.IssueOrder
import ScenarioAtlas.Proofs.Feature.Joined
import ScenarioAtlas.Proofs.Feature.Layout
import ScenarioAtlas.Proofs.Feature.OpenTables
import ScenarioAtlas.Proofs.Feature.OutlineExpansion
import ScenarioAtlas.Proofs.Feature.Reading
import ScenarioAtlas.Proofs.Feature.RowFates
import ScenarioAtlas.Proofs.Feature.RunnableLines
import ScenarioAtlas.Proofs.Feature.StepAttribution
import ScenarioAtlas.Proofs.Feature.TagRuns
import ScenarioAtlas.Proofs.Feature.TrimmedLines
import ScenarioAtlas.Proofs.Glob.Matching
import ScenarioAtlas.Proofs.Glob.Reading
import ScenarioAtlas.Proofs.Group.Parts
import ScenarioAtlas.Proofs.Group.Placed
import ScenarioAtlas.Proofs.Group.Tagged
import ScenarioAtlas.Proofs.Listing.Cache
import ScenarioAtlas.Proofs.Listing.Counters
import ScenarioAtlas.Proofs.Listing.Eviction
import ScenarioAtlas.Proofs.Listing.Notices
import ScenarioAtlas.Proofs.Listing.Retention
import ScenarioAtlas.Proofs.Listing.Traffic
import ScenarioAtlas.Proofs.Listing.Walk
import ScenarioAtlas.Proofs.NodeId
import ScenarioAtlas.Proofs.NodeId.RoundTrip
import ScenarioAtlas.Proofs.Path
import ScenarioAtlas.Proofs.Path.Relative
import ScenarioAtlas.Proofs.ResultKey
import ScenarioAtlas.Proofs.ResultKey.Readers
import ScenarioAtlas.Proofs.Runner.CommandLine
import ScenarioAtlas.Proofs.Runner.Plan
import ScenarioAtlas.Proofs.Source.Breaks
import ScenarioAtlas.Proofs.Source.RowEscapes
import ScenarioAtlas.Proofs.Source.Unfenced
import ScenarioAtlas.Proofs.Status.Attribution
import ScenarioAtlas.Proofs.Status.Origin
import ScenarioAtlas.Proofs.Status.References
import ScenarioAtlas.Proofs.Status.Relevance
import ScenarioAtlas.Proofs.Status.RollUp
import ScenarioAtlas.Proofs.Status.Spelling
import ScenarioAtlas.Proofs.Text.Blank
import ScenarioAtlas.Proofs.Text.ByteOrder
import ScenarioAtlas.Proofs.Text.Cut
import ScenarioAtlas.Proofs.Text.Number
import ScenarioAtlas.Proofs.Text.Replace
import ScenarioAtlas.Proofs.Tree.Completeness
import ScenarioAtlas.Proofs.Tree.Identity
import ScenarioAtlas.Proofs.Tree.Leaves
import ScenarioAtlas.Proofs.Tree.Nodes
import ScenarioAtlas.Proofs.Tree.Placement
import ScenarioAtlas.Proofs.Workspace.Lookup
import ScenarioAtlas.Proofs.Workspace.Session
import ScenarioAtlas.Record.Disk
import ScenarioAtlas.Record.Field
import ScenarioAtlas.Record.Run
import ScenarioAtlas.Record.Scenario
import ScenarioAtlas.Record.Workspace
import ScenarioAtlas.ResultKey
import ScenarioAtlas.Runner.Invocation
import ScenarioAtlas.Runner.Plan
import ScenarioAtlas.Scenario
import ScenarioAtlas.Settings
import ScenarioAtlas.Settings.File
import ScenarioAtlas.Source.Kind
import ScenarioAtlas.Source.Line
import ScenarioAtlas.Source.Row
import ScenarioAtlas.Status
import ScenarioAtlas.Status.Reconcile
import ScenarioAtlas.Status.Report
import ScenarioAtlas.Text.Blank
import ScenarioAtlas.Text.Digit
import ScenarioAtlas.Text.Search
import ScenarioAtlas.Toml.Number
import ScenarioAtlas.Toml.Reader
import ScenarioAtlas.Toml.Table
import ScenarioAtlas.Toml.Text
import ScenarioAtlas.Tree
import ScenarioAtlas.Workspace

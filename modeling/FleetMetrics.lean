import FleetMetrics.Aggregator
import FleetMetrics.Arithmetic
import FleetMetrics.Arithmetic.Binary64
import FleetMetrics.Bucketizer
import FleetMetrics.Bus
import FleetMetrics.Catalog
import FleetMetrics.CommandLine.Grammar
import FleetMetrics.CommandLine.Program
import FleetMetrics.CommandLine.Response
import FleetMetrics.CommandLine.Scan
import FleetMetrics.Config
import FleetMetrics.Config.Environment
import FleetMetrics.Config.Setting
import FleetMetrics.Config.Toml.Document
import FleetMetrics.Config.Toml.Reader
import FleetMetrics.Config.Toml.Scan
import FleetMetrics.Config.Toml.Writer
import FleetMetrics.Coordinator
import FleetMetrics.Decimal.Notation
import FleetMetrics.Decimal.Scaled
import FleetMetrics.Decimal.Shortest
import FleetMetrics.Decimal.Whole
import FleetMetrics.Demo
import FleetMetrics.Descriptor
import FleetMetrics.Distribution
import FleetMetrics.Duration
import FleetMetrics.Error
import FleetMetrics.Expansion
import FleetMetrics.Field
import FleetMetrics.Fleet
import FleetMetrics.Instrumenter
import FleetMetrics.Json
import FleetMetrics.Json.Reader
import FleetMetrics.Json.Token
import FleetMetrics.Json.Writer
import FleetMetrics.Logging
import FleetMetrics.Main
import FleetMetrics.Message
import FleetMetrics.Message.Uuid
import FleetMetrics.Message.Value
import FleetMetrics.Message.Wire
import FleetMetrics.Posting
import FleetMetrics.Predicate
import FleetMetrics.Predicate.Format
import FleetMetrics.Proofs.Coordinator.Change
import FleetMetrics.Query
import FleetMetrics.ReducedValue
import FleetMetrics.Reduction
import FleetMetrics.Registry
import FleetMetrics.Roster
import FleetMetrics.Routing
import FleetMetrics.SampledMetric
import FleetMetrics.Service
import FleetMetrics.Spec
import FleetMetrics.Stock
import FleetMetrics.Table
import FleetMetrics.Text.Blank
import FleetMetrics.Text.Lowercase
import FleetMetrics.Text.Quoted
import FleetMetrics.Text.Ranges
import FleetMetrics.Timestamp
import FleetMetrics.Width
import FleetMetrics.Proofs.Coordinator.Loads
import FleetMetrics.Proofs.Coordinator.Lifecycle
import FleetMetrics.Proofs.Bus
import FleetMetrics.Proofs.Fleet.Duty
import FleetMetrics.Proofs.Routing
import FleetMetrics.Proofs.Fleet.Mail
import FleetMetrics.Proofs.Fleet.System
import FleetMetrics.Proofs.Fleet.Command
import FleetMetrics.Proofs.Fleet.Run
import FleetMetrics.Proofs.Fleet.Agreement
import FleetMetrics.Proofs.Coordinator.Answers
import FleetMetrics.Proofs.Coordinator.Compensation
import FleetMetrics.Proofs.Coordinator.Confluence
import FleetMetrics.Proofs.Exact
import FleetMetrics.Proofs.Aggregator
import FleetMetrics.Proofs.Query
import FleetMetrics.Proofs.Breakdown
import FleetMetrics.Proofs.Drill
import FleetMetrics.Proofs.Merging
import FleetMetrics.Proofs.Retention
import FleetMetrics.Proofs.Shape
import FleetMetrics.Proofs.Instrumenter.Life
import FleetMetrics.Proofs.Instrumenter.Acknowledgement
import FleetMetrics.Proofs.Catalog
import FleetMetrics.Proofs.Instrumenter.Acceptance
import FleetMetrics.Proofs.Sampling
import FleetMetrics.Proofs.Instrumenter.Reports
import FleetMetrics.Proofs.Json.Text
import FleetMetrics.Proofs.Binary64
import FleetMetrics.Proofs.Message.Values
import FleetMetrics.Proofs.Message.Parts
import FleetMetrics.Proofs.Message.Kinds
import FleetMetrics.Proofs.Message.RoundTrip
import FleetMetrics.Proofs.Bus.Delivery
import FleetMetrics.Proofs.Coordinator.Addressing
import FleetMetrics.Proofs.Coordinator.Refusals
import FleetMetrics.Proofs.Coordinator.Relevance
import FleetMetrics.Proofs.Message.Report
import FleetMetrics.Proofs.Catalog.Entries
import FleetMetrics.Proofs.Coordinator.Validity
import FleetMetrics.Proofs.Coordinator.Placement
import FleetMetrics.Proofs.Coordinator.Expiry
import FleetMetrics.Proofs.Coordinator.Creation
import FleetMetrics.Proofs.Coordinator.Deletion
import FleetMetrics.Proofs.Distribution
import FleetMetrics.Proofs.Partition
import FleetMetrics.Proofs.Expansion.Choices
import FleetMetrics.Proofs.Compilation
import FleetMetrics.Proofs.Merging.Paths
import FleetMetrics.Proofs.Bucketizer
import FleetMetrics.Proofs.Binary64.Whole
import FleetMetrics.Proofs.Predicate
import FleetMetrics.Proofs.Aggregator.Latest
import FleetMetrics.Proofs.Timestamp
import FleetMetrics.Proofs.Aggregator.Seconds
import FleetMetrics.Proofs.Aggregator.Listening
import FleetMetrics.Proofs.Config

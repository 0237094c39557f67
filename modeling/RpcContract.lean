import RpcContract.Address.Endpoint
import RpcContract.Address.Join
import RpcContract.Address.Percent
import RpcContract.Address.Placeholder
import RpcContract.Address.Query
import RpcContract.Client.Builtin
import RpcContract.Client.Context
import RpcContract.Client.Lines
import RpcContract.Client.Python
import RpcContract.Client.Rust
import RpcContract.Client.TypeScript
import RpcContract.CommandLine.Basic
import RpcContract.CommandLine.Option
import RpcContract.CommandLine.Reach
import RpcContract.CommandLine.Run
import RpcContract.CommandLine.Usage
import RpcContract.Contract.Assembly
import RpcContract.Contract.Basic
import RpcContract.Contract.Format
import RpcContract.Contract.Issue
import RpcContract.Contract.Load
import RpcContract.Contract.Method
import RpcContract.Contract.Models
import RpcContract.Contract.Registration
import RpcContract.Contract.Skip
import RpcContract.Data.Dict
import RpcContract.Decimal.Binary
import RpcContract.Decimal.Layout
import RpcContract.Decimal.Shortest
import RpcContract.Files.Path
import RpcContract.Files.Tree
import RpcContract.Formatter.Basic
import RpcContract.Formatter.Ending
import RpcContract.Formatter.Program
import RpcContract.Formatter.Shell
import RpcContract.Generation.Error
import RpcContract.Generation.Output
import RpcContract.Generation.Plan
import RpcContract.Generation.Selection
import RpcContract.Generation.Target
import RpcContract.Http.Error
import RpcContract.Json.Basic
import RpcContract.Json.Merge
import RpcContract.Json.Pointer
import RpcContract.Json.Printer
import RpcContract.Json.Text
import RpcContract.JsonSchema.Address
import RpcContract.JsonSchema.Content
import RpcContract.JsonSchema.Draft
import RpcContract.JsonSchema.Evaluate
import RpcContract.JsonSchema.Formats
import RpcContract.JsonSchema.Keyword
import RpcContract.JsonSchema.Metaschema
import RpcContract.JsonSchema.Model
import RpcContract.JsonSchema.Number
import RpcContract.JsonSchema.Reference
import RpcContract.JsonSchema.Violation
import RpcContract.Logging.Config
import RpcContract.Logging.Directive
import RpcContract.Main
import RpcContract.OpenApi.ErrorResponse
import RpcContract.Pattern.Basic
import RpcContract.Pattern.Notation
import RpcContract.Proofs.Address.Distinct
import RpcContract.Proofs.Address.Endpoint
import RpcContract.Proofs.Address.Join
import RpcContract.Proofs.Address.Percent
import RpcContract.Proofs.Address.Placeholder
import RpcContract.Proofs.Address.Query
import RpcContract.Proofs.Client.Constants
import RpcContract.Proofs.Client.Declarations
import RpcContract.Proofs.Client.Embedding
import RpcContract.Proofs.Client.Layout
import RpcContract.Proofs.Client.Printing
import RpcContract.Proofs.CommandLine.Options
import RpcContract.Proofs.CommandLine.Precedence
import RpcContract.Proofs.Contract.Assembly
import RpcContract.Proofs.Contract.Dump
import RpcContract.Proofs.Contract.Issues
import RpcContract.Proofs.Contract.Load
import RpcContract.Proofs.Contract.Models
import RpcContract.Proofs.Contract.Parts
import RpcContract.Proofs.Contract.RegistrationLog
import RpcContract.Proofs.Data.Dict
import RpcContract.Proofs.Data.Except
import RpcContract.Proofs.Decimal.Layout
import RpcContract.Proofs.Decimal.Shortest
import RpcContract.Proofs.Decimal.Value
import RpcContract.Proofs.Files.Closed
import RpcContract.Proofs.Files.Components
import RpcContract.Proofs.Files.Following
import RpcContract.Proofs.Files.Growth
import RpcContract.Proofs.Files.Listing
import RpcContract.Proofs.Files.Naming
import RpcContract.Proofs.Files.Plain
import RpcContract.Proofs.Files.Walk
import RpcContract.Proofs.Files.Writing
import RpcContract.Proofs.Generation.CarryOut
import RpcContract.Proofs.Generation.Destinations
import RpcContract.Proofs.Generation.EarlyFailure
import RpcContract.Proofs.Generation.Endings
import RpcContract.Proofs.Generation.Expansion
import RpcContract.Proofs.Generation.Frame
import RpcContract.Proofs.Generation.Interruption
import RpcContract.Proofs.Generation.Outputs
import RpcContract.Proofs.Generation.Recovery
import RpcContract.Proofs.Generation.Reload
import RpcContract.Proofs.Generation.Repeat
import RpcContract.Proofs.Generation.Runs
import RpcContract.Proofs.Generation.Sources
import RpcContract.Proofs.Generation.Withheld
import RpcContract.Proofs.Json.Compact
import RpcContract.Proofs.Json.Literal
import RpcContract.Proofs.Json.Merge
import RpcContract.Proofs.Json.Numbers
import RpcContract.Proofs.Json.Quoted
import RpcContract.Proofs.Json.RoundTrip
import RpcContract.Proofs.Json.Storable
import RpcContract.Proofs.Json.Unambiguous
import RpcContract.Proofs.OpenApi.Metadata
import RpcContract.Proofs.Reading.Record
import RpcContract.Proofs.Settings.File
import RpcContract.Proofs.Streaming.ChannelHistory
import RpcContract.Proofs.Streaming.Interleaving
import RpcContract.Proofs.Streaming.LineStream
import RpcContract.Proofs.Streaming.Lines
import RpcContract.Proofs.Template.Running
import RpcContract.Proofs.Text.Quoted
import RpcContract.Proofs.Text.Source
import RpcContract.Proofs.Text.Trim
import RpcContract.Proofs.Validation.CacheHistory
import RpcContract.Proofs.Validation.CallRules
import RpcContract.Proofs.Validation.CheckedStream
import RpcContract.Proofs.Validation.Observation
import RpcContract.Proofs.Validation.Preflight
import RpcContract.Proofs.Validation.Registered
import RpcContract.Proofs.Validation.Replacement
import RpcContract.Proofs.Validation.Rewrapping
import RpcContract.Proofs.Validation.Skipping
import RpcContract.Proofs.Validation.Stack
import RpcContract.Reading.Record
import RpcContract.Reading.Tree
import RpcContract.Settings.Basic
import RpcContract.Settings.Environment
import RpcContract.Streaming.Channel
import RpcContract.Streaming.LineStream
import RpcContract.Streaming.Lines
import RpcContract.Template.Arguments
import RpcContract.Template.Basic
import RpcContract.Template.Evaluate
import RpcContract.Template.Filters
import RpcContract.Template.Grammar
import RpcContract.Template.Operators
import RpcContract.Template.Scope
import RpcContract.Template.Tests
import RpcContract.Template.TextFilters
import RpcContract.Template.Token
import RpcContract.Template.Value
import RpcContract.Text.Blank
import RpcContract.Text.Bytes
import RpcContract.Text.CaseMap
import RpcContract.Text.Combining
import RpcContract.Text.Printable
import RpcContract.Text.Quoted
import RpcContract.Text.Ranges
import RpcContract.Toml.Document
import RpcContract.Toml.Quoted
import RpcContract.Toml.Scalar
import RpcContract.Validation.Check
import RpcContract.Validation.Context
import RpcContract.Validation.ItemStream
import RpcContract.Validation.Middleware
import RpcContract.Validation.ModelCache
import RpcContract.Validation.Preflight
import RpcContract.Yaml.Cursor
import RpcContract.Yaml.Document
import RpcContract.Yaml.Scalar

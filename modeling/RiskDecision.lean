import RiskDecision.Catalog.Basic
import RiskDecision.Catalog.Bundle
import RiskDecision.Catalog.Load
import RiskDecision.Catalog.Store
import RiskDecision.Config.App
import RiskDecision.Config.File
import RiskDecision.Config.Place
import RiskDecision.Config.Setting
import RiskDecision.Decimal.Binary
import RiskDecision.Decimal.Layout
import RiskDecision.Decimal.Reader
import RiskDecision.Decimal.Shortest
import RiskDecision.Decimal.Width
import RiskDecision.Decoding
import RiskDecision.Dictionary
import RiskDecision.Domain
import RiskDecision.Engine
import RiskDecision.Evaluation.Case
import RiskDecision.Evaluation.Clause
import RiskDecision.Evaluation.Condition
import RiskDecision.Fault
import RiskDecision.Features.Basic
import RiskDecision.Features.Derivation
import RiskDecision.Files.Basic
import RiskDecision.Ini
import RiskDecision.Json.Basic
import RiskDecision.Json.Lexer
import RiskDecision.Json.Parser
import RiskDecision.Json.Printer
import RiskDecision.Json.Relaxed
import RiskDecision.Json.Written
import RiskDecision.Main
import RiskDecision.Metrics.Basic
import RiskDecision.Metrics.Recording
import RiskDecision.Record.Bank
import RiskDecision.Record.MobileMoney
import RiskDecision.Record.Order
import RiskDecision.Record.Path
import RiskDecision.Record.Transaction
import RiskDecision.Record.View
import RiskDecision.Ron.Document
import RiskDecision.Ron.Token
import RiskDecision.Rule.Basic
import RiskDecision.Rule.Json
import RiskDecision.Rule.Operator
import RiskDecision.Rule.Validity
import RiskDecision.Service.Basic
import RiskDecision.Service.Files
import RiskDecision.Service.Request
import RiskDecision.Service.Settings
import RiskDecision.Session
import RiskDecision.Text.Ascii
import RiskDecision.Text.Blank
import RiskDecision.Text.Digits
import RiskDecision.Text.Scan
import RiskDecision.Text.Split
import RiskDecision.Text.Uppercase
import RiskDecision.Text.Utf8
import RiskDecision.Timestamp
import RiskDecision.Toml.Document
import RiskDecision.Toml.Moment
import RiskDecision.Toml.Scalar
import RiskDecision.Toml.Scan
import RiskDecision.Value.Basic
import RiskDecision.Value.Json
import RiskDecision.Verdict.Action
import RiskDecision.Verdict.Basic
import RiskDecision.Verdict.Policy
import RiskDecision.Watch
import RiskDecision.Yaml.BlockText
import RiskDecision.Yaml.Cursor
import RiskDecision.Yaml.Document
import RiskDecision.Yaml.Flow
import RiskDecision.Yaml.Node
import RiskDecision.Yaml.Text
import RiskDecision.Proofs.Sorting
import RiskDecision.Proofs.Engine.Account
import RiskDecision.Proofs.Catalog.Relevance
import RiskDecision.Proofs.Catalog.Isolation
import RiskDecision.Proofs.Decimal.Finite
import RiskDecision.Proofs.Decimal.Reader
import RiskDecision.Proofs.Json.Range
import RiskDecision.Proofs.Decoding.Fields
import RiskDecision.Proofs.Value.Json
import RiskDecision.Proofs.Rule.Json
import RiskDecision.Proofs.Catalog.Reload
import RiskDecision.Proofs.Catalog.Store
import RiskDecision.Proofs.Service.Operation
import RiskDecision.Proofs.Service.Run
import RiskDecision.Proofs.Catalog.Payload
import RiskDecision.Proofs.Service.Lifecycle
import RiskDecision.Proofs.Service.Atomicity
import RiskDecision.Proofs.Service.PayloadOrder
import RiskDecision.Proofs.Service.ScoreBounds
import RiskDecision.Proofs.Engine.AuthoringOrder
import RiskDecision.Proofs.Catalog.Writes
import RiskDecision.Proofs.Record.Json
import RiskDecision.Proofs.Engine.Faults
import RiskDecision.Proofs.Metrics.Counting
import RiskDecision.Proofs.Service.Accounting
import RiskDecision.Proofs.Service.EntryPoints
import RiskDecision.Proofs.Engine.MissingData
import RiskDecision.Proofs.Engine.OnePass
import RiskDecision.Proofs.Engine.Tracing
import RiskDecision.Proofs.Files.Names
import RiskDecision.Proofs.Watch.Reaction
import RiskDecision.Proofs.Json.Printer
import RiskDecision.Proofs.Session.Lines
import RiskDecision.Proofs.Evaluation.Nodes
import RiskDecision.Proofs.Evaluation.Address
import RiskDecision.Proofs.Evaluation.Rewriting
import RiskDecision.Proofs.Evaluation.Steps
import RiskDecision.Proofs.Evaluation.Trace
import RiskDecision.Proofs.Rule.Edits
import RiskDecision.Proofs.Evaluation.Resolution
import RiskDecision.Proofs.Evaluation.Numbers
import RiskDecision.Proofs.Text.Pieces
import RiskDecision.Proofs.Evaluation.Membership
import RiskDecision.Proofs.Engine.Confinement
import RiskDecision.Proofs.Verdict.InPlace
import RiskDecision.Proofs.Service.Directory
import RiskDecision.Proofs.Service.ClampedDomains
import RiskDecision.Proofs.Metrics.Levels
import RiskDecision.Proofs.Service.RulesGauge
import RiskDecision.Proofs.Decimal.Sum
import RiskDecision.Proofs.Features.Names
import RiskDecision.Proofs.Features.Ratios
import RiskDecision.Proofs.Evaluation.Exchange
import RiskDecision.Proofs.Record.Declared
import RiskDecision.Proofs.Features.PassedOn
import RiskDecision.Proofs.Value.Reading
import RiskDecision.Proofs.Catalog.Representation
import RiskDecision.Proofs.Verdict.Projection

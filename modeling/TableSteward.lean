import TableSteward.Access.Document
import TableSteward.Access.Gate
import TableSteward.Access.Policy
import TableSteward.Access.Tier
import TableSteward.Browse.Browser
import TableSteward.Calendar.Date
import TableSteward.Calendar.Interchange
import TableSteward.Calendar.Pacific
import TableSteward.Calendar.Timestamp
import TableSteward.Configuration
import TableSteward.Dashboard.Cache
import TableSteward.Database.Audit
import TableSteward.Database.Catalog
import TableSteward.Database.Directory
import TableSteward.Database.Link
import TableSteward.Database.Page
import TableSteward.Database.Pools
import TableSteward.Database.Statement
import TableSteward.Document.Checked
import TableSteward.Document.Day
import TableSteward.Document.Issue
import TableSteward.Document.Outline
import TableSteward.Export.Ceiling
import TableSteward.Export.Csv
import TableSteward.Export.Stream
import TableSteward.Fault
import TableSteward.Http.Application
import TableSteward.Http.Call
import TableSteward.Http.Endpoint
import TableSteward.Http.Endpoint.Dashboards
import TableSteward.Http.Endpoint.Export
import TableSteward.Http.Endpoint.Filters
import TableSteward.Http.Endpoint.Reports
import TableSteward.Http.Endpoint.Tables
import TableSteward.Http.Parameter
import TableSteward.Http.Message
import TableSteward.Json.Encoding
import TableSteward.Json.Reader
import TableSteward.Json.Writer
import TableSteward.Name.Identifier
import TableSteward.Name.Suggestion
import TableSteward.Number
import TableSteward.Number.Binary64
import TableSteward.Number.Decimal
import TableSteward.Number.Shortest
import TableSteward.Query.Aggregate
import TableSteward.Query.Bound
import TableSteward.Query.Column
import TableSteward.Query.Filter
import TableSteward.Query.Join
import TableSteward.Query.Order
import TableSteward.Query.Slot
import TableSteward.Query.TableQuery
import TableSteward.Query.Where
import TableSteward.Refusal
import TableSteward.Report.Config
import TableSteward.Report.Runner
import TableSteward.Scenario.Script
import TableSteward.Service.Action
import TableSteward.Service.Dashboards
import TableSteward.Service.Documents
import TableSteward.Store.Block
import TableSteward.Store.Definition
import TableSteward.Store.Files
import TableSteward.Store.History
import TableSteward.Store.Settings
import TableSteward.Text.Blank
import TableSteward.Text.Case
import TableSteward.Text.Cased
import TableSteward.Text.Encoding
import TableSteward.Text.Integer
import TableSteward.Text.Printable
import TableSteward.Text.Quoted
import TableSteward.Text.Stretch
import TableSteward.Text.Unit
import TableSteward.Value
import TableSteward.Value.Display
import TableSteward.Value.Equality
import TableSteward.Value.Integer
import TableSteward.Value.Parts
import TableSteward.Value.Tagged
import TableSteward.Yaml.Block
import TableSteward.Yaml.Cursor
import TableSteward.Yaml.Directive
import TableSteward.Yaml.Flow
import TableSteward.Yaml.Merge
import TableSteward.Yaml.Moment
import TableSteward.Yaml.Node
import TableSteward.Yaml.Outline
import TableSteward.Yaml.Reader
import TableSteward.Yaml.Scalar
import TableSteward.Yaml.Tag
import TableSteward.Yaml.Token
import TableSteward.Proofs.Admission
import TableSteward.Proofs.Grammar
import TableSteward.Proofs.Journal
import TableSteward.Proofs.Pairing
import TableSteward.Proofs.Plan
import TableSteward.Proofs.Receiver
import TableSteward.Proofs.Request
import TableSteward.Proofs.Errand
import TableSteward.Proofs.Execution
import TableSteward.Proofs.Answer
import TableSteward.Proofs.Clearance
import TableSteward.Proofs.ListedTables
import TableSteward.Proofs.Derivation
import TableSteward.Proofs.Disclosure
import TableSteward.Proofs.Fetching
import TableSteward.Proofs.ExportLimit
import TableSteward.Proofs.Footprint
import TableSteward.Proofs.Sheet
import TableSteward.Proofs.Course
import TableSteward.Proofs.ExportOrder
import TableSteward.Proofs.CsvReader
import TableSteward.Proofs.ConditionReading
import TableSteward.Proofs.PageCount
import TableSteward.Proofs.Settlement
import TableSteward.Proofs.Paging
import TableSteward.Proofs.PagedExport
import TableSteward.Proofs.Rest
import TableSteward.Proofs.DayNumber
import TableSteward.Proofs.PacificDay
import TableSteward.Proofs.DayFilters
import TableSteward.Proofs.PacificClock
import TableSteward.Proofs.DayBounds
import TableSteward.Proofs.FilterFaults
import TableSteward.Proofs.LetterCase
import TableSteward.Proofs.JoinText
import TableSteward.Proofs.JoinAcceptance
import TableSteward.Proofs.Versions
import TableSteward.Proofs.Sending
import TableSteward.Proofs.Abreast
import TableSteward.Proofs.ValueBlindness
import TableSteward.Proofs.HistoryKeeping
import TableSteward.Proofs.HistoryOrder
import TableSteward.Proofs.RecentlyUsed
import TableSteward.Proofs.Since
import TableSteward.Proofs.KeyedEntries
import TableSteward.Proofs.CacheStep
import TableSteward.Proofs.CacheRun
import TableSteward.Proofs.ReadOnly
import TableSteward.Proofs.DashboardFetch
import TableSteward.Proofs.DashboardRun
import TableSteward.Proofs.JoinedRows
import TableSteward.Proofs.ReportOrder
import TableSteward.Proofs.Rounding
import TableSteward.Proofs.ShortestDecimal
import TableSteward.Proofs.JsonNumber
import TableSteward.Proofs.JsonString
import TableSteward.Proofs.Utf8
import TableSteward.Proofs.JsonDocument
import TableSteward.Proofs.KeyOrder
import TableSteward.Proofs.StoreReload
import TableSteward.Proofs.StoreOrder
import TableSteward.Proofs.StoreCommand
import TableSteward.Proofs.StoreDocuments
import TableSteward.Proofs.Persistence
import TableSteward.Proofs.StoreFaults
import TableSteward.Proofs.Handler
import TableSteward.Proofs.Requester
import TableSteward.Proofs.Conduct
import TableSteward.Proofs.Ownership
import TableSteward.Proofs.Authority
import TableSteward.Proofs.OthersBlocks
import TableSteward.Proofs.Seclusion
import TableSteward.Proofs.Sessions
import TableSteward.Proofs.AuditFailures
import TableSteward.Proofs.FilterLists
import TableSteward.Proofs.LikePattern
import TableSteward.Proofs.ResultColumns
import TableSteward.Proofs.OrderTerms
import TableSteward.Proofs.PageWindows
import TableSteward.Proofs.CacheKeys
import TableSteward.Proofs.PeriodLifetime
import TableSteward.Proofs.ExportForecast
import TableSteward.Proofs.JsonLine
import TableSteward.Proofs.FilterSets
import TableSteward.Proofs.TableNames
import TableSteward.Proofs.SettingsPosts
import TableSteward.Proofs.PoolRegistry
import TableSteward.Proofs.JsonLimits
import TableSteward.Proofs.UntrustedText
import TableSteward.Proofs.EditDistance

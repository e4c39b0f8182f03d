import HttpRouting.Attributes
import HttpRouting.Binary.Basic
import HttpRouting.Binary.Shortest
import HttpRouting.Calendar.Basic
import HttpRouting.Calendar.HttpDate
import HttpRouting.Calendar.MailDate
import HttpRouting.Config.Basic
import HttpRouting.Config.Codec
import HttpRouting.Cors.Config
import HttpRouting.Cors.Process
import HttpRouting.Deferred
import HttpRouting.Dispatch.Adapter
import HttpRouting.Dispatch.Application
import HttpRouting.Dispatch.Fault
import HttpRouting.Dispatch.Interceptor
import HttpRouting.Dispatch.Multipart
import HttpRouting.Dispatch.Resolver
import HttpRouting.Dispatch.Run
import HttpRouting.Exchange
import HttpRouting.Handler.Basic
import HttpRouting.Handler.Controller
import HttpRouting.Http.Headers
import HttpRouting.Http.Request
import HttpRouting.Http.Response
import HttpRouting.Http.Status
import HttpRouting.Http.Token
import HttpRouting.Json.Access
import HttpRouting.Json.Basic
import HttpRouting.Json.Fields
import HttpRouting.Json.Reader
import HttpRouting.Json.Writer
import HttpRouting.LogEntry
import HttpRouting.Mapping.Error
import HttpRouting.Mapping.MethodMapping
import HttpRouting.Mapping.PathStrategy
import HttpRouting.Mapping.Registry
import HttpRouting.Mapping.RouteStrategy
import HttpRouting.Mapping.Strategy
import HttpRouting.Mapping.Table
import HttpRouting.Mapping.UrlMapping
import HttpRouting.MediaType
import HttpRouting.Pattern.Basic
import HttpRouting.Pattern.Match
import HttpRouting.Pattern.Order
import HttpRouting.Pattern.Reader
import HttpRouting.Phases
import HttpRouting.Quality
import HttpRouting.Report.Exchange
import HttpRouting.Report.Fault
import HttpRouting.Report.Mapping
import HttpRouting.Report.Route
import HttpRouting.Route.Basic
import HttpRouting.Route.Expression
import HttpRouting.Route.Match
import HttpRouting.Route.Order
import HttpRouting.Route.Printer
import HttpRouting.Route.Spec
import HttpRouting.Scenario.Codec
import HttpRouting.Scenario.Hooks
import HttpRouting.Scenario.Script
import HttpRouting.Sorting
import HttpRouting.Text.Blank
import HttpRouting.Text.Hidden
import HttpRouting.Text.Percent
import HttpRouting.Text.Quoted
import HttpRouting.Text.Split
import HttpRouting.Uuid
import HttpRouting.Proofs.Additions
import HttpRouting.Proofs.Equality
import HttpRouting.Proofs.Registry.Invariant
import HttpRouting.Proofs.Mapping.Miss
import HttpRouting.Proofs.Mapping.Selection
import HttpRouting.Proofs.Mapping.Answer
import HttpRouting.Proofs.Pattern.Literal
import HttpRouting.Proofs.Outcome
import HttpRouting.Proofs.Mapping.DirectPath
import HttpRouting.Proofs.Dispatch.Hooks
import HttpRouting.Proofs.Dispatch.Runs
import HttpRouting.Proofs.Dispatch.Trace
import HttpRouting.Proofs.Registry.Policies
import HttpRouting.Proofs.Mapping.Enforcement
import HttpRouting.Proofs.Mapping.Classification
import HttpRouting.Proofs.Mapping.ExplicitHead
import HttpRouting.Proofs.Dispatch.Passage
import HttpRouting.Proofs.Dispatch.LegalPath
import HttpRouting.Proofs.Dispatch.Deferral
import HttpRouting.Proofs.Dispatch.Alike
import HttpRouting.Proofs.Dispatch.Resumption
import HttpRouting.Proofs.Pattern.Pieces
import HttpRouting.Proofs.Pattern.Grammar
import HttpRouting.Proofs.Pattern.Parts
import HttpRouting.Proofs.Pattern.Reading
import HttpRouting.Proofs.Pattern.Matching
import HttpRouting.Proofs.Pattern.Combination
import HttpRouting.Proofs.Dispatch.Raising
import HttpRouting.Proofs.Dispatch.Faults
import HttpRouting.Proofs.Text.Octets
import HttpRouting.Proofs.Text.Percent
import HttpRouting.Proofs.Pattern.Backtracking
import HttpRouting.Proofs.Registry.Registration
import HttpRouting.Proofs.Http.Segments
import HttpRouting.Proofs.Cors.Decision
import HttpRouting.Proofs.Cors.Combination
import HttpRouting.Proofs.Route.Narrowing
import HttpRouting.Proofs.Route.Canonical
import HttpRouting.Proofs.Mapping.Exposure
import HttpRouting.Proofs.MediaType.Inclusion
import HttpRouting.Proofs.Registry.Restoration
import HttpRouting.Proofs.Mapping.DefaultMethods
import HttpRouting.Proofs.Mapping.UrlLookup
import HttpRouting.Proofs.MediaType.Preference
import HttpRouting.Proofs.Calendar.Days
import HttpRouting.Proofs.Calendar.Reading
import HttpRouting.Proofs.Http.Values
import HttpRouting.Proofs.Http.NotModified
import HttpRouting.Proofs.Http.Query
import HttpRouting.Proofs.Mapping.Detection
import HttpRouting.Proofs.Mapping.Scanning
import HttpRouting.Proofs.Route.ExpressionTexts
import HttpRouting.Proofs.Dispatch.Disclosure

import OburBackend.Sql.Truth
import OburBackend.Sql.Table
import OburBackend.Sql.Program
import OburBackend.Sql.World
import OburBackend.Sql.RelyGuarantee
import OburBackend.Sql.Statement
import OburBackend.Sql.Rules
import OburBackend.Sql.Dml
import OburBackend.Sql.Keeps
import OburBackend.Sql.Query
import OburBackend.Sql.Within
import OburBackend.Uuid
import OburBackend.Model.Schema
import OburBackend.Model.Texts
import OburBackend.Model.Rls
import OburBackend.Model.Tables
import OburBackend.Model.Request
import OburBackend.Model.Consistent
import OburBackend.Core.Database
import OburBackend.Core.Authz
import OburBackend.Service.Social
import OburBackend.Service.Checkin
import OburBackend.Service.Venue
import OburBackend.Service.List
import OburBackend.Service.Reaction
import OburBackend.Service.CheckinRuns
import OburBackend.Service.Account
import OburBackend.Service.Webhook
import OburBackend.Service.TwoRuns
import OburBackend.Venue.Suspended
import OburBackend.Account.SigningIn
import OburBackend.Block.Respects
import OburBackend.Block.Invariant
import OburBackend.Visibility.CloseFriends
import OburBackend.Visibility.SoftDeleteRuns
import OburBackend.Visibility.Unmarking
import OburBackend.Visibility.UserListings
import OburBackend.Visibility.AccountStatus
import OburBackend.Visibility.Hidden
import OburBackend.Venue.Verification
import OburBackend.Account.Suspension
import OburBackend.Account.UsernameChanges
import OburBackend.Block.Links
import OburBackend.Block.Race
import OburBackend.Visibility.Listings
import OburBackend.Redis.Store
import OburBackend.Redis.FixedWindow
import OburBackend.RateLimit.Middleware
import OburBackend.RateLimit.Window
import OburBackend.RateLimit.Scope
import OburBackend.Fractional.Sequence
import OburBackend.ListOrder.Requests
import OburBackend.ListOrder.Refinement
import OburBackend.Sql.Reads
import OburBackend.ListOrder.Race
import OburBackend.Venue.Revealed
import OburBackend.Venue.Promotion
import OburBackend.Venue.Duplicates
import OburBackend.Account.Redelivery
import OburBackend.Sql.Progress
import OburBackend.Account.FirstRequests
import OburBackend.Account.Seeds
import OburBackend.Account.TakenHandles
import OburBackend.Account.Deletion
import OburBackend.Sql.Twice
import OburBackend.Sql.TwoRuns
import OburBackend.Policy.Ownership
import OburBackend.Create.Again
import OburBackend.Create.Operations
import OburBackend.Create.Overlap
import OburBackend.Visibility.SoftDelete
import OburBackend.Create.Notifying
import OburBackend.Account.ProfileEdits
import OburBackend.Core.I18n
import OburBackend.Payload.Schemas
import OburBackend.Payload.CheckinPayloads
import OburBackend.Payload.EditPayloads
import OburBackend.Net.Ipaddress
import OburBackend.Text.Split
import OburBackend.RateLimit.ClientAddress
import OburBackend.RateLimit.Retry
import OburBackend.Sql.Paging
import OburBackend.Visibility.Pages
import OburBackend.Catalog.CategoryTree
import OburBackend.Text.Regex
import OburBackend.Core.AcceptLanguage
import OburBackend.RequestContext.RequestId
import OburBackend.RequestContext.Redaction
import OburBackend.Text.RegexSyntax
import OburBackend.RateLimit.RouteMatch
import OburBackend.Sql.Writes
import OburBackend.Sql.Evolution
import OburBackend.Service.Inbox
import OburBackend.Service.Moderation
import OburBackend.Api.Schemas
import OburBackend.Api.Endpoints
import OburBackend.History.Changes
import OburBackend.History.Services
import OburBackend.History.Requests
import OburBackend.History.Past
import OburBackend.History.Ownership
import OburBackend.History.Constraints
import OburBackend.Sql.Checks
import OburBackend.History.Checks
import OburBackend.History.Outcomes
import OburBackend.Api.Routes
import OburBackend.Api.Problems
import OburBackend.Api.Application
import OburBackend.Sql.Upsert
import OburBackend.Seeds.Files
import OburBackend.Seeds.Runner
import OburBackend.Seeds.Shown
import OburBackend.Sql.Views
import OburBackend.Visibility.Views

import KiwiCatalog.Lib.Transition
import KiwiCatalog.Lib.Update
import KiwiCatalog.Lib.Table
import KiwiCatalog.Queue.Types
import KiwiCatalog.Queue.Ledger
import KiwiCatalog.Queue.CommitPermission
import KiwiCatalog.Queue.Execution
import KiwiCatalog.Queue.ExecutionInvariant
import KiwiCatalog.Queue.Scheduler
import KiwiCatalog.Queue.Placement
import KiwiCatalog.Queue.Recovery
import KiwiCatalog.Queue.Slots
import KiwiCatalog.Queue.SchedulerInvariant
import KiwiCatalog.Queue.SchedulerProperties
import KiwiCatalog.Queue.Refinement
import KiwiCatalog.Queue.LedgerInvariant
import KiwiCatalog.Queue.Restart
import KiwiCatalog.Queue.RestartInvariant
import KiwiCatalog.Queue.RestartProperties
import KiwiCatalog.Trust.Rows
import KiwiCatalog.Trust.Writes
import KiwiCatalog.Trust.Verification
import KiwiCatalog.Trust.DomainReset
import KiwiCatalog.Trust.DomainTrust
import KiwiCatalog.Ownership.Claims
import KiwiCatalog.Ownership.ClaimExclusivity
import KiwiCatalog.Binding.Store
import KiwiCatalog.Binding.StoreInvariant
import KiwiCatalog.Binding.StoreProperties
import KiwiCatalog.Enrollment.Authorization
import KiwiCatalog.Enrollment.Takeover
import KiwiCatalog.Lib.FixedWindow
import KiwiCatalog.RateLimit.Guesses
import KiwiCatalog.RateLimit.GuessBudget
import KiwiCatalog.Lib.History
import KiwiCatalog.Catalog.StateDomains
import KiwiCatalog.RuntimeAccess.Store
import KiwiCatalog.RuntimeAccess.Readers
import KiwiCatalog.RuntimeAccess.Pairing
import KiwiCatalog.Accounts.Handlers
import KiwiCatalog.Lib.Work
import KiwiCatalog.Accounts.Tables
import KiwiCatalog.Accounts.Atomicity
import KiwiCatalog.Lib.IsoText
import KiwiCatalog.Catalog.Payload
import KiwiCatalog.Idempotency.Ledger
import KiwiCatalog.Idempotency.Handlers
import KiwiCatalog.Idempotency.AtMostOnce
import KiwiCatalog.Idempotency.Retriable
import KiwiCatalog.Signature.RuntimeRequests
import KiwiCatalog.Signature.NonceReplay
import KiwiCatalog.Idempotency.Admission
import KiwiCatalog.Queue.TaskIds
import KiwiCatalog.Queue.Deduplication
import KiwiCatalog.Catalog.AgentWriters
import KiwiCatalog.Catalog.StatusFold
import KiwiCatalog.Listings.Entitlements
import KiwiCatalog.Listings.Service
import KiwiCatalog.Listings.Handlers
import KiwiCatalog.Listings.Effects
import KiwiCatalog.Listings.GovernanceHold
import KiwiCatalog.Listings.Capacity
import KiwiCatalog.Lib.IsoMicroseconds
import KiwiCatalog.Lib.Keyset
import KiwiCatalog.Lib.Url
import KiwiCatalog.Lib.Json
import KiwiCatalog.Lib.Pattern
import KiwiCatalog.Feed.Events
import KiwiCatalog.Feed.Follows
import KiwiCatalog.Feed.ExactlyOnce
import KiwiCatalog.Publications.PublicText
import KiwiCatalog.Publications.ShareCodes
import KiwiCatalog.Db.JsonColumns
import KiwiCatalog.Listings.Contracts
import KiwiCatalog.Publications.Rows
import KiwiCatalog.Publications.Store
import KiwiCatalog.Publications.Accepted
import KiwiCatalog.Publications.FaqRoundTrip
import KiwiCatalog.Publications.DraftPrivacy
import KiwiCatalog.Listings.ShareCodeAgreement
import KiwiCatalog.Lib.Quote
import KiwiCatalog.Listings.Search
import KiwiCatalog.Listings.SearchPages
import KiwiCatalog.Catalog.AgentPages
import KiwiCatalog.Catalog.AgentPagination
import KiwiCatalog.Lib.Base64
import KiwiCatalog.Accounts.Registration
import KiwiCatalog.Accounts.PasswordReset
import KiwiCatalog.Accounts.MerchantIdentity
import KiwiCatalog.Accounts.ConnectorIdentity
import KiwiCatalog.Binding.IssuerKeys
import KiwiCatalog.Binding.BindingRequests
import KiwiCatalog.Discovery.FetchErrors
import KiwiCatalog.Discovery.FetchRequests
import KiwiCatalog.Lib.Trace
import KiwiCatalog.Discovery.FetchPinning
import KiwiCatalog.Discovery.Validation
import KiwiCatalog.Lib.JsonTree
import KiwiCatalog.Discovery.Capabilities
import KiwiCatalog.Discovery.AgentCard
import KiwiCatalog.Discovery.Ucp
import KiwiCatalog.Discovery.ProfileChecks
import KiwiCatalog.Discovery.SecretScan
import KiwiCatalog.Discovery.Projections
import KiwiCatalog.Discovery.PublicCredentials
import KiwiCatalog.Discovery.UcpCredentials
import KiwiCatalog.Discovery.Reprojection
import KiwiCatalog.Discovery.StoredCards
import KiwiCatalog.Lib.Query
import KiwiCatalog.RuntimeAccess.ShareParameter
import KiwiCatalog.RateLimit.Backend
import KiwiCatalog.RateLimit.BackendAdmission
import KiwiCatalog.Discovery.BlockedAddresses
import KiwiCatalog.Accounts.MerchantTokens
import KiwiCatalog.Accounts.TokenAuthority
import KiwiCatalog.Trust.Ladder
import KiwiCatalog.Lib.JsonOrder
import KiwiCatalog.Lib.JsonText
import KiwiCatalog.Enrollment.CanonicalJson
import KiwiCatalog.Enrollment.CanonicalRoundTrip
import KiwiCatalog.Publications.EventTypes
import KiwiCatalog.Api.RouteTable
import KiwiCatalog.Api.Fallback
import KiwiCatalog.Api.InquiryRoute
import KiwiCatalog.Api.TransportMetadata
import KiwiCatalog.Api.DispatchExact
import KiwiCatalog.Db.Migrations
import KiwiCatalog.Catalog.CapabilityTable
import KiwiCatalog.Discovery.ProfileIndex
import KiwiCatalog.Catalog.Serializers
import KiwiCatalog.Catalog.HostedProjection
import KiwiCatalog.Discovery.CommerceEvidence
import KiwiCatalog.RuntimeAccess.KeepalivePass
import KiwiCatalog.RuntimeAccess.KeepaliveSelection
import KiwiCatalog.RuntimeAccess.KeepaliveRuns
import KiwiCatalog.Api.InquiryContainment
import KiwiCatalog.Lib.Tally
import KiwiCatalog.Stats.Keywords
import KiwiCatalog.Stats.KeywordRankings
import KiwiCatalog.Lib.Unquote
import KiwiCatalog.Publications.ShopLinks
import KiwiCatalog.Publications.SplicedLinks
import KiwiCatalog.Publications.DecodedParts
import KiwiCatalog.Discovery.BoundedResolver
import KiwiCatalog.Discovery.ResolverInvariant
import KiwiCatalog.Lib.Fairness
import KiwiCatalog.Discovery.ResolverLiveness
import KiwiCatalog.Discovery.IdentityEvidence
import KiwiCatalog.Queue.ResultJson
import KiwiCatalog.Queue.ResultRoundTrip
import KiwiCatalog.Publications.SanitisedLinks
import KiwiCatalog.Publications.SanitisedTexts

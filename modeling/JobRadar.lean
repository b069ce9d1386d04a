import JobRadar.AccountDeletion
import JobRadar.AccountLockout
import JobRadar.AccountRecovery
import JobRadar.AccountRuns
import JobRadar.ActiveRuns
import JobRadar.AdapterReplies
import JobRadar.AuditExport
import JobRadar.AuditModel
import JobRadar.AuditPaging
import JobRadar.AuditRetention
import JobRadar.AuthEffects
import JobRadar.AuthHistory
import JobRadar.AuthService
import JobRadar.BackupRuns
import JobRadar.Backups
import JobRadar.Blocks
import JobRadar.CanonicalJobs
import JobRadar.Cascade
import JobRadar.CodeThreads
import JobRadar.Columns
import JobRadar.CompanyFilter
import JobRadar.CompanyKey
import JobRadar.CurrentUser
import JobRadar.DeliveryRetries
import JobRadar.DescriptionGrowth
import JobRadar.DisabledAccounts
import JobRadar.DueTest
import JobRadar.ErrorContract
import JobRadar.ErrorPrivacy
import JobRadar.ExecuteRun
import JobRadar.FixedWindow
import JobRadar.Grouping
import JobRadar.GuessRace
import JobRadar.Hierarchy
import JobRadar.HttpContract
import JobRadar.HttpErrors
import JobRadar.HttpRuns
import JobRadar.HttpStack
import JobRadar.IngestionModel
import JobRadar.IngestionThreads
import JobRadar.Interleave
import JobRadar.JobAcceptance
import JobRadar.JobDeduplication
import JobRadar.JobListing
import JobRadar.JobOwnership
import JobRadar.JobQueries
import JobRadar.JobRefresh
import JobRadar.JsonDumps
import JobRadar.ListingIdentity
import JobRadar.LiveCodes
import JobRadar.LocationFilter
import JobRadar.LockOwnership
import JobRadar.LoginAudit
import JobRadar.MalformedItems
import JobRadar.MatchPrivacy
import JobRadar.MatchReproduction
import JobRadar.Middleware
import JobRadar.NotificationFreshness
import JobRadar.NotificationModel
import JobRadar.NotificationRace
import JobRadar.OtherSessions
import JobRadar.PasswordResets
import JobRadar.PerfectMatch
import JobRadar.PreferenceGrowth
import JobRadar.PreferenceStorage
import JobRadar.PreferenceUpdates
import JobRadar.PreferenceVersions
import JobRadar.PythonJson
import JobRadar.PythonText
import JobRadar.RateLimit
import JobRadar.RateLimitClasses
import JobRadar.RateLimitEvasion
import JobRadar.RateLimitExpiry
import JobRadar.Redaction
import JobRadar.RefreshRace
import JobRadar.RefreshReplay
import JobRadar.RefreshThreads
import JobRadar.Regex
import JobRadar.RegistrationFaults
import JobRadar.Reingestion
import JobRadar.RetryPolicies
import JobRadar.RetryTransparency
import JobRadar.RevocationRace
import JobRadar.RevocationSteps
import JobRadar.RevocationThreads
import JobRadar.RevocationWins
import JobRadar.RoleProvenance
import JobRadar.RunAttempts
import JobRadar.RunCounters
import JobRadar.RunEnds
import JobRadar.RunRedelivery
import JobRadar.SchedulerFaults
import JobRadar.Scheduling
import JobRadar.ScoreFilter
import JobRadar.SecurityHeaders
import JobRadar.SessionOwnership
import JobRadar.SingleUseCodes
import JobRadar.StartFaults
import JobRadar.Table
import JobRadar.TableViews
import JobRadar.TelegramDelivery
import JobRadar.Tenants
import JobRadar.TextFilters
import JobRadar.TokenLineages
import JobRadar.TokenRows
import JobRadar.UnknownUrls
import JobRadar.UserApi
import JobRadar.UserFrames
import JobRadar.VerifiedTokens
import JobRadar.Words
import JobRadar.StoreViews
import JobRadar.UserViews
import JobRadar.TenantIsolation
import JobRadar.TenantViews
import JobRadar.HttpPairs
import JobRadar.UserRoutes
import JobRadar.TokenIsolation
import JobRadar.WorkQueue
import JobRadar.Pipeline
import JobRadar.LostRuns
import JobRadar.UserMemory
import JobRadar.AccessTokens
import JobRadar.SessionLife
import JobRadar.SessionList
import JobRadar.SourceTurns
import JobRadar.SourceCadence

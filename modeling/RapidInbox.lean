import RapidInbox.Lib.Prog
import RapidInbox.Lib.Utf8
import RapidInbox.Lib.Json
import RapidInbox.Lib.Focus
import RapidInbox.Lib.Run
import RapidInbox.Lib.Table
import RapidInbox.Lib.Network
import RapidInbox.Lib.Glob
import RapidInbox.Lib.OrderedDict
import RapidInbox.Lib.Result
import RapidInbox.Domain.Address
import RapidInbox.Domain.Matcher
import RapidInbox.Domain.Normalize
import RapidInbox.Domain.Canonical
import RapidInbox.Ingest.MailJob
import RapidInbox.Ingest.MailQueue
import RapidInbox.Ingest.Manifest
import RapidInbox.Ingest.SmtpSession
import RapidInbox.Ingest.Reservation
import RapidInbox.Ingest.Worker
import RapidInbox.Ingest.Daemon
import RapidInbox.Ingest.QueueAccounting
import RapidInbox.Ingest.DaemonQueue
import RapidInbox.Ingest.Exchange
import RapidInbox.Ingest.WorkerDrain
import RapidInbox.Ingest.DurableAck
import RapidInbox.Ingest.StatusLoop
import RapidInbox.Ingest.RejectedMetrics
import RapidInbox.Ingest.MaintenanceDrain
import RapidInbox.Store.Tables
import RapidInbox.Store.Merge
import RapidInbox.Store.BatchWriter
import RapidInbox.Store.Promotion
import RapidInbox.Store.Accept
import RapidInbox.Store.Maintenance
import RapidInbox.Store.System
import RapidInbox.Store.Schema
import RapidInbox.Store.Consistency
import RapidInbox.Store.Edits
import RapidInbox.Store.ServiceEdits
import RapidInbox.Store.BulkDelete
import RapidInbox.Store.BulkComplete
import RapidInbox.Store.Ownership
import RapidInbox.Store.Summary
import RapidInbox.Store.SummaryOps
import RapidInbox.Store.SummaryRuns
import RapidInbox.Store.Directory
import RapidInbox.Store.Rematch
import RapidInbox.Store.RecipientLoop
import RapidInbox.Store.CommitIntegrity
import RapidInbox.Store.RecoveryMailbox
import RapidInbox.Store.ActiveRules
import RapidInbox.Store.Tenancy
import RapidInbox.Store.CurrentRules
import RapidInbox.Store.Landing
import RapidInbox.Store.Replay
import RapidInbox.Store.ExactlyOnce
import RapidInbox.Store.MergeStatements
import RapidInbox.Store.MergeOutcome
import RapidInbox.Store.RehomeRows
import RapidInbox.Store.RehomeRuns
import RapidInbox.Db.WriterRuns
import RapidInbox.Db.ReadPoolRuns
import RapidInbox.Auth.Permissions
import RapidInbox.Auth.Tables
import RapidInbox.Auth.ApiKeys
import RapidInbox.Auth.Delegation
import RapidInbox.Auth.KeyManagement
import RapidInbox.Auth.KeyCache
import RapidInbox.Auth.CacheCoherence
import RapidInbox.Auth.Admins
import RapidInbox.Auth.AuthSystem
import RapidInbox.Auth.AdminOperations
import RapidInbox.Auth.SessionRevocation
import RapidInbox.Auth.AdminAuthority
import RapidInbox.Store.Retention
import RapidInbox.Ingest.MaintenanceGate
import RapidInbox.Store.RetentionDrain
import RapidInbox.Ingest.AcceptReply
import RapidInbox.Store.DomainIdentity
import RapidInbox.Store.Retired
import RapidInbox.Live.LiveResume
import RapidInbox.Live.OutboxRuns
import RapidInbox.Ingest.DataTransparency
import RapidInbox.Domain.MatcherAgreement
import RapidInbox.Store.Expiry
import RapidInbox.Db.MigrationCrash
import RapidInbox.Mime.RoundTrip
import RapidInbox.Ingest.Isolation
import RapidInbox.Store.NearestDomain
import RapidInbox.Domain.StableAddress
import RapidInbox.Ingest.ParseDrain
import RapidInbox.Auth.LoginBound
import RapidInbox.Recovery.FullScanRuns
import RapidInbox.Files.FileGcCrash
import RapidInbox.Files.SweepSafety
import RapidInbox.Store.DeleteAll
import RapidInbox.Ingest.PathCommand
import RapidInbox.Mime.TransferEncodings
import RapidInbox.Mime.EncodedWords
import RapidInbox.Mime.ParseBounds
import RapidInbox.Ingest.ConnectionRate
import RapidInbox.Ingest.ConnectionWindows
import RapidInbox.Lib.EventLog
import RapidInbox.Lib.TokenBucket
import RapidInbox.Auth.UsageBuckets
import RapidInbox.Auth.UsageBound
import RapidInbox.Lib.Keyset
import RapidInbox.Auth.KeyListing
import RapidInbox.Auth.KeyListingRuns
import RapidInbox.Lib.KeysetWalk
import RapidInbox.Ingest.PendingScan
import RapidInbox.Auth.ListFilters
import RapidInbox.Lib.PyJsonReader
import RapidInbox.Lib.PyJsonAscii
import RapidInbox.Http.PageCursor
import RapidInbox.Lib.WriteBehind
import RapidInbox.Settings.SettingValues
import RapidInbox.Settings.LiveSettings
import RapidInbox.Settings.SettingsAgreement
import RapidInbox.Store.AttachmentRows
import RapidInbox.Ingest.ExtractParts
import RapidInbox.Mime.WorkerConfig
import RapidInbox.Recovery.AttachmentSystem
import RapidInbox.Recovery.AttachmentIntegrity
import RapidInbox.Recovery.AttachmentRuns
import RapidInbox.Lib.TopTwo
import RapidInbox.Lib.Regex
import RapidInbox.Lib.Search
import RapidInbox.Codes.Candidate
import RapidInbox.Codes.CppText
import RapidInbox.Codes.CppExtract
import RapidInbox.Codes.PyText
import RapidInbox.Codes.PyExtract
import RapidInbox.Codes.UnambiguousCode
import RapidInbox.Recovery.RemovedMail
import RapidInbox.Recovery.PeriodicRuns

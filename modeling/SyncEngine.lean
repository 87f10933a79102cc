import SyncEngine.Actions.DraftSyncback
import SyncEngine.Api.DraftLocking
import SyncEngine.Api.DraftSending
import SyncEngine.Api.EventUpdates
import SyncEngine.Api.Filtering
import SyncEngine.Api.FolderPaths
import SyncEngine.Api.LabelUpdates
import SyncEngine.Api.ListingViews
import SyncEngine.Api.MultiSendSafety
import SyncEngine.Api.RecurringWindows
import SyncEngine.Api.ShardPaging
import SyncEngine.Api.ThreadLabels
import SyncEngine.Api.WhenRoundTrip
import SyncEngine.Contacts.CombinedMolecules
import SyncEngine.Contacts.GroupScores
import SyncEngine.Contacts.MoleculePool
import SyncEngine.Contacts.ProcessMail
import SyncEngine.Contacts.RemoteSync
import SyncEngine.Crispin.FetchResponses
import SyncEngine.Crispin.FolderRoles
import SyncEngine.Crispin.GmailDeletion
import SyncEngine.Crispin.MessageDeletion
import SyncEngine.Crispin.MessageMove
import SyncEngine.Crispin.Pool
import SyncEngine.Crispin.Selection
import SyncEngine.Events.CalendarSync
import SyncEngine.Events.EventLinks
import SyncEngine.Events.Expansion
import SyncEngine.Events.FeedEntries
import SyncEngine.Events.FeedLinks
import SyncEngine.Events.FeedUpdates
import SyncEngine.Events.GoogleTimes
import SyncEngine.Events.Invitations
import SyncEngine.Events.InviteVersions
import SyncEngine.Events.MergeLaws
import SyncEngine.Events.MergedParticipants
import SyncEngine.Events.PartialMerge
import SyncEngine.Events.PushNotifications
import SyncEngine.Events.RepeatedReplies
import SyncEngine.Heartbeat.PingStatus
import SyncEngine.Mailsync.AccountOwnership
import SyncEngine.Mailsync.CorrespondingThread
import SyncEngine.Mailsync.ForgottenAccounts
import SyncEngine.Mailsync.GmailInitialSync
import SyncEngine.Mailsync.Imap.Condstore
import SyncEngine.Mailsync.Imap.Epochs
import SyncEngine.Mailsync.Imap.FlagsFetchResults
import SyncEngine.Mailsync.Imap.FolderEngines
import SyncEngine.Mailsync.Imap.InitialSyncRuns
import SyncEngine.Mailsync.Imap.Invalidity
import SyncEngine.Mailsync.Imap.Polling
import SyncEngine.Mailsync.Imap.RetainedFlags
import SyncEngine.Mailsync.LabelRenames
import SyncEngine.Mailsync.LocalChanges
import SyncEngine.Mailsync.MetadataOrder
import SyncEngine.Mailsync.StartSync
import SyncEngine.Mailsync.SyncService
import SyncEngine.Mailsync.ThreadExpansion
import SyncEngine.Mailsync.ThreadMarks
import SyncEngine.Mailsync.ThreadSummary
import SyncEngine.Mailsync.UidLabels
import SyncEngine.Mailsync.UidRemapping
import SyncEngine.Models.BlockFiles
import SyncEngine.Models.CategorySessions
import SyncEngine.Models.CategoryUniqueness
import SyncEngine.Models.FlagUpdates
import SyncEngine.Models.HtmlSnippet
import SyncEngine.Models.MessageColumns
import SyncEngine.Models.MimeLeaves
import SyncEngine.Models.PlaintextHtml
import SyncEngine.Models.PublicId
import SyncEngine.Models.ReconcileHeader
import SyncEngine.Models.References
import SyncEngine.Models.ShardRouting
import SyncEngine.Models.Subject
import SyncEngine.Models.TokenManager
import SyncEngine.Scheduling.BalanceFleet
import SyncEngine.Scheduling.QueuePopulator
import SyncEngine.Search.ImapSearch
import SyncEngine.Sendmail.BlindCopies
import SyncEngine.Sendmail.ReferencesFolding
import SyncEngine.Sendmail.SmtpDelivery
import SyncEngine.Transactions.ActionArguments
import SyncEngine.Transactions.ActionFailure
import SyncEngine.Transactions.ClientCopy
import SyncEngine.Transactions.ContactIndex
import SyncEngine.Transactions.DeltaCursors
import SyncEngine.Transactions.DeltaObjects
import SyncEngine.Transactions.DeltaReader
import SyncEngine.Transactions.SyncbackBatches
import SyncEngine.Transactions.SyncbackMerging
import SyncEngine.Transactions.SyncbackOrder
import SyncEngine.Transactions.SyncbackRetries
import SyncEngine.Transactions.SyncbackService
import SyncEngine.Transactions.SyncbackWork
import SyncEngine.Transactions.ThreadDeltas
import SyncEngine.Util.Batching
import SyncEngine.Util.Calendar
import SyncEngine.Util.Chunked
import SyncEngine.Util.HeaderFields
import SyncEngine.Util.HtmlText
import SyncEngine.Util.Keyed
import SyncEngine.Util.LockedRows
import SyncEngine.Util.Lookup
import SyncEngine.Util.Runs
import SyncEngine.Util.Views

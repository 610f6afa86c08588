import Ccrc.Coord.Landing
import Ccrc.Coord.LandingProperties
import Ccrc.Coord.DelegationLeaseState
import Ccrc.Coord.DelegationLeaseStateProperties
import Ccrc.Library.Json
import Ccrc.Coord.NativeRemoved
import Ccrc.Library.JsonProperties
import Ccrc.Coord.NativeRemovedProperties
import Ccrc.Coord.MailDelivery
import Ccrc.Coord.MailDeliveryProperties
import Ccrc.Coord.Envelope
import Ccrc.Shared.Runs
import Ccrc.Coord.MailRequeue
import Ccrc.Coord.MailRequeueProperties
import Ccrc.Coord.MailAnswered
import Ccrc.Coord.ClaimStore
import Ccrc.Coord.ClaimStoreProperties
import Ccrc.Coord.ClaimSweep
import Ccrc.Coord.ClaimSweepProperties
import Ccrc.Library.Worklist
import Ccrc.Shared.LandingLine
import Ccrc.Coord.LandingEntry
import Ccrc.Coord.LandingWrites
import Ccrc.Coord.LandingStore
import Ccrc.Coord.LandingEntryProperties
import Ccrc.Coord.LandingStoreProperties
import Ccrc.Coord.LandingGraph
import Ccrc.Coord.JournalKernel
import Ccrc.Coord.LandingJournalPolicy
import Ccrc.Library.TextProperties
import Ccrc.Coord.LandingJournalPolicyProperties
import Ccrc.Coord.LandingJournalAgreement
import Ccrc.Coord.Asks
import Ccrc.Coord.AsksProperties
import Ccrc.Shared.Updates
import Ccrc.Coord.Nodes
import Ccrc.Coord.NodesProperties
import Ccrc.Coord.NodesRekey
import Ccrc.Coord.LandingAdvance
import Ccrc.Coord.LandingRecovery
import Ccrc.Coord.LandingRecoveryProperties
import Ccrc.Coord.LandingAdvanceProperties
import Ccrc.Coord.LandingRecoveryRun
import Ccrc.Library.Sha256
import Ccrc.Coord.DelegationSpoolLine
import Ccrc.Coord.DelegationIngest
import Ccrc.Coord.DelegationIngestProperties
import Ccrc.Coord.DelegationEventId
import Ccrc.Coord.DelegationSpoolRun
import Ccrc.Coord.DelegationSpoolOnce
import Ccrc.Library.JsonUtf8
import Ccrc.Coord.LedgerLog
import Ccrc.Coord.LedgerLogProperties
import Ccrc.Coord.LedgerStore
import Ccrc.Coord.LedgerRun
import Ccrc.Library.CodePoints
import Ccrc.Library.PyFloat
import Ccrc.Library.PyJson
import Ccrc.CodexBridge.Errors
import Ccrc.CodexBridge.Reducer
import Ccrc.CodexBridge.Stream
import Ccrc.CodexBridge.StreamGrammar
import Ccrc.CodexBridge.Server
import Ccrc.CodexBridge.ReducerProperties
import Ccrc.CodexBridge.ServerProperties
import Ccrc.CodexBridge.ReasoningStore
import Ccrc.CodexBridge.Releases
import Ccrc.CodexBridge.ReleasesProperties
import Ccrc.CodexBridge.ReasoningStoreProperties
import Ccrc.CodexBridge.LiveText
import Ccrc.CodexBridge.LiveTextProperties
import Ccrc.Shared.ModelAdvance
import Ccrc.Shared.ModelAdvanceProperties
import Ccrc.Shared.ReleaseTags
import Ccrc.Update.Dispatch
import Ccrc.Update.ResolveProperties
import Ccrc.Update.DispatchProperties
import Ccrc.Library.JsonCuts
import Ccrc.Library.Utf8Cuts
import Ccrc.Transcript.TailProperties
import Ccrc.Library.Greedy
import Ccrc.Coord.LandingLine
import Ccrc.Coord.LandingLineProperties
import Ccrc.Coord.LandingAgain
import Ccrc.Coord.RequiredChecks
import Ccrc.Coord.RunCommit
import Ccrc.Coord.RunCommitProperties
import Ccrc.Coord.RequiredChecksProperties
import Ccrc.Library.Numerals
import Ccrc.Coord.LandingDetail
import Ccrc.Coord.LandingDetailProperties
import Ccrc.Library.TokenBucket
import Ccrc.Linear.Rate
import Ccrc.Linear.RateModel
import Ccrc.Linear.RateProperties
import Ccrc.Linear.RateRun
import Ccrc.Library.Kept
import Ccrc.Update.ReleaseWindow
import Ccrc.Pwa.ReleaseWindow
import Ccrc.Pwa.ReleaseWindowProperties
import Ccrc.Library.Double
import Ccrc.Library.JsonCopy
import Ccrc.Shared.AdvanceFile
import Ccrc.Shared.AdvanceFileProperties
import Ccrc.Shared.AdvanceFileKept
import Ccrc.Shared.AdvanceFileUnknown
import Ccrc.Shared.AdvanceRecovery
import Ccrc.Shared.MailEnvelope
import Ccrc.Shared.MailEnvelopeProperties
import Ccrc.Coord.MailIngress
import Ccrc.Coord.MailIngressProperties
import Ccrc.Pwa.ChatItems
import Ccrc.Pwa.ChatItemsProperties
import Ccrc.Pwa.ChatKeys
import Ccrc.Library.Words
import Ccrc.Shared.Slug
import Ccrc.Shared.SlugProperties
import Ccrc.Library.OpenAddressing
import Ccrc.Coord.DelegationHashSet
import Ccrc.Coord.DelegationHashSetProperties
import Ccrc.Transcript.Continuation
import Ccrc.Transcript.ContinuationProperties
import Ccrc.Coord.DelegationJson
import Ccrc.Coord.DelegationRowCodecs
import Ccrc.Library.TableDelta
import Ccrc.Coord.DelegationDelta
import Ccrc.Coord.DelegationDeltaProperties
import Ccrc.Coord.DelegationDeltaStore
import Ccrc.Library.Groups
import Ccrc.Pwa.NestFleet
import Ccrc.Pwa.NestFleetProperties
import Ccrc.Pwa.NestFleetOnce
import Ccrc.Testbox.Queue
import Ccrc.Testbox.Pristine
import Ccrc.Testbox.Service
import Ccrc.Testbox.PristineProperties
import Ccrc.Testbox.ServiceProperties
import Ccrc.CodexBridge.SseParser
import Ccrc.CodexBridge.SseParserProperties
import Ccrc.Library.PyFloatProperties
import Ccrc.Library.PyJsonProperties
import Ccrc.CodexBridge.SseRoundTrip
import Ccrc.Coord.DelegationJournal
import Ccrc.Coord.DelegationCanonical
import Ccrc.Coord.DelegationJournalCodec
import Ccrc.Coord.DelegationJournalReader
import Ccrc.Coord.DelegationJournalReaderProperties
import Ccrc.Coord.DelegationJournalCut

import PiAgentWeb.Server.LeaseSafety
import PiAgentWeb.Server.ProcessIdentity
import PiAgentWeb.System.LeaseAgreement
import PiAgentWeb.Server.TransitionPayloadLedgerRuns
import PiAgentWeb.Server.EpochContentStoreSafetyRuns
import PiAgentWeb.UI.ControlRevisions
import PiAgentWeb.System.HistoryRoundTrip
import PiAgentWeb.System.PagedHistory
import PiAgentWeb.UI.CommandRuns
import PiAgentWeb.Server.OutboundAccountingRuns
import PiAgentWeb.System.LogicalByteInvariance
import PiAgentWeb.Server.BoundedUtf8Chunks
import PiAgentWeb.Server.OperationalAccountingRuns
import PiAgentWeb.Server.PiProcessCustody
import PiAgentWeb.Server.PiProcessRuns
import PiAgentWeb.UI.BrowserEffectsRuns
import PiAgentWeb.Server.NativeSessionDiscovery
import PiAgentWeb.UI.RetentionMachine
import PiAgentWeb.Server.JsonlLineReader
import PiAgentWeb.Server.CrashRestarts
import PiAgentWeb.UI.RecoveryRuns
import PiAgentWeb.UI.ToolStatusRuns
import PiAgentWeb.UI.ExtensionRuns
import PiAgentWeb.UI.SchedulerBounds
import PiAgentWeb.UI.SessionResyncRuns
import PiAgentWeb.Server.SessionSourceRecords
import PiAgentWeb.Server.RasterBodies
import PiAgentWeb.Server.AsyncLimiter
import PiAgentWeb.Server.CatalogRefreshRuns
import PiAgentWeb.Server.WorkspaceFileClasses
import PiAgentWeb.UI.SessionContentRuns
import PiAgentWeb.UI.OlderHistoryPageRuns
import PiAgentWeb.Server.SessionTrash
import PiAgentWeb.UI.SessionDirectoryRuns
import PiAgentWeb.Server.ImageBase64
import PiAgentWeb.UI.StreamingText
import PiAgentWeb.Server.WorkspacePreferences
import PiAgentWeb.UI.DiffBlock
import PiAgentWeb.UI.ConnectionRuns
import PiAgentWeb.Server.Replay

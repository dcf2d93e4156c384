import Multimux.CookieLifetime
import Multimux.Arbiter
import Multimux.Ownership
import Multimux.Window
import Multimux.Grid
import Multimux.Terminate
import Multimux.KeptTiles
import Multimux.Convergence
import Multimux.FileTree
import Multimux.Subdir
import Multimux.SessionTable
import Multimux.Sessions
import Multimux.Orphans
import Multimux.Grace
import Multimux.Gates
import Multimux.Setup
import Multimux.Pruning
import Multimux.ResizeLock
import Multimux.Launching
import Multimux.Announcements
import Multimux.GitInfo
import Multimux.Identity
import Multimux.Certificates
import Multimux.Ensure
import Multimux.Rotation
import Multimux.Calendar
import Multimux.CertReloader
import Multimux.OrderedRows
import Multimux.SubdirHistory
import Multimux.Events
import Multimux.Expiry
import Multimux.Connections
import Multimux.Probes
import Multimux.SessionFetches
import Multimux.Placements
import Multimux.CanonicalForm
import Multimux.ViewLayout
import Multimux.Bytes
import Multimux.Utf8
import Multimux.Xml
import Multimux.ServiceUnit
import Multimux.UnitEnv
import Multimux.ExecStart
import Multimux.Plist
import Multimux.Reorder
import Multimux.RestartAgent
import Multimux.Labels
import Multimux.SettingsRequests
import Multimux.TmuxCommands
import Multimux.BranchHeader
import Multimux.GroupCommands
import Multimux.JsText
import Multimux.RemoteLinks
import Multimux.TrackSizes
import Multimux.Unwrap
import Multimux.Selection
import Multimux.QuotePath
import Multimux.FirstOccurrences
import Multimux.LaunchDirs
import Multimux.MobileSessions
import Multimux.LoginOrigins
import Multimux.TouchScroll
import Multimux.Delivery
import Multimux.TerminalTile
import Multimux.TileConnection
import Multimux.Migrations
import Multimux.StaticFiles
import Multimux.Connect
import Multimux.ConnectedTokens
import Multimux.Access
import Multimux.Provenance
import Multimux.KeptUploads
import Multimux.PtyBridge
import Multimux.PtyLifetime

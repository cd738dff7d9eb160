import LvdTerm.Lib.Drain
import LvdTerm.Vnc.Types
import LvdTerm.Vnc.Client
import LvdTerm.Vnc.Inflate
import LvdTerm.Vnc.Zrle
import LvdTerm.Vnc.ZrleSafety
import LvdTerm.Vnc.Handshake
import LvdTerm.Vnc.Hextile
import LvdTerm.Vnc.Rects
import LvdTerm.Vnc.Session
import LvdTerm.Vnc.Rules
import LvdTerm.Vnc.Invariant
import LvdTerm.Vnc.RectInvariant
import LvdTerm.Vnc.TightInvariant
import LvdTerm.Vnc.Sizes
import LvdTerm.Lib.Loops
import LvdTerm.Vnc.Resumable
import LvdTerm.Vnc.RectResumable
import LvdTerm.Vnc.TightResumable
import LvdTerm.Vnc.StepResumable
import LvdTerm.Vnc.Chunks
import LvdTerm.Core.Crypto
import LvdTerm.Core.MasterKey
import LvdTerm.Terminal.Backoff
import LvdTerm.Sftp.Download
import LvdTerm.Sftp.DownloadTree
import LvdTerm.Sftp.UploadTree
import LvdTerm.Core.ProfileSecrets
import LvdTerm.Core.ProfileRoundTrip
import LvdTerm.Core.SessionRoundTrip
import LvdTerm.Core.Folders
import LvdTerm.Core.Durability
import LvdTerm.Sftp.Trees
import LvdTerm.Vnc.Widget
import LvdTerm.Vnc.LetGo
import LvdTerm.Ssh.X11Lossless
import LvdTerm.Lib.PendingSlot
import LvdTerm.Ssh.SshWorker
import LvdTerm.Ssh.HalfSent
import LvdTerm.Sftp.SameBytes
import LvdTerm.Sftp.EditorRun
import LvdTerm.Sftp.UnsavedChanges
import LvdTerm.Sftp.CurrentSession
import LvdTerm.Sftp.DroppedSession
import LvdTerm.App.AskEachTime
import LvdTerm.App.SessionRestore
import LvdTerm.Ssh.HostKeyTrust
import LvdTerm.Vnc.Lifecycle
import LvdTerm.Vnc.Reentrancy
import LvdTerm.Vnc.ZrleMisread
import LvdTerm.Vnc.Alike
import LvdTerm.Telnet.WindowSize
import LvdTerm.Terminal.HexDump
import LvdTerm.Terminal.Overlay
import LvdTerm.Sftp.PathIndex
import LvdTerm.Rdp.InputDelivery
import LvdTerm.Rdp.Clipboard
import LvdTerm.Rdp.ClipboardAgreement
import LvdTerm.Ui.ConnectionTreeDock
import LvdTerm.Ui.FolderTree
import LvdTerm.Core.ShortcutKeys
import LvdTerm.Ui.ShortcutsPage
import LvdTerm.Ui.ShortcutsUnique
import LvdTerm.Vnc.DrainEnds
import LvdTerm.Vnc.Painting
import LvdTerm.Vnc.RectFrame
import LvdTerm.Vnc.TightExact
import LvdTerm.Lib.Arrival
import LvdTerm.Vnc.HextileFormat
import LvdTerm.Lib.LineMarks
import LvdTerm.Terminal.Logging
import LvdTerm.Terminal.LogStamps
import LvdTerm.Lib.WriteQueue
import LvdTerm.Ssh.PumpWrites
import LvdTerm.Pty.PtyTransport
import LvdTerm.Pty.FifoWrites
import LvdTerm.Sftp.SessionOwnership
import LvdTerm.Lib.Descent
import LvdTerm.Sftp.LinkedUpload
import LvdTerm.Ssh.ConnectSocket
import LvdTerm.Sftp.RemoveDirectory
import LvdTerm.Sftp.RemovedSubtree
import LvdTerm.App.SplitterSizes
import LvdTerm.App.Quitting
import LvdTerm.App.Panes
import LvdTerm.App.MovedPane
import LvdTerm.App.PaneTrees
import LvdTerm.App.VisiblePane
import LvdTerm.Core.DecodeText
import LvdTerm.Core.ShortcutSettings
import LvdTerm.Lib.Scanning
import LvdTerm.Ui.SyntaxHighlighter
import LvdTerm.Ui.SyntaxRanges
import LvdTerm.App.PaneChanges
import LvdTerm.App.Windows
import LvdTerm.App.WindowRuns
import LvdTerm.App.PaneShape
import LvdTerm.App.PickerHandlers
import LvdTerm.Lib.CArray
import LvdTerm.Lib.Ring
import LvdTerm.Konsole.Character
import LvdTerm.Konsole.ExtendedCharTable
import LvdTerm.Konsole.History
import LvdTerm.Konsole.Screen
import LvdTerm.Konsole.ScreenImage
import LvdTerm.Konsole.DisplayCharacter
import LvdTerm.Konsole.ScreenValid
import LvdTerm.Konsole.ScreenSteps
import LvdTerm.Konsole.ScreenEdits
import LvdTerm.Konsole.Hyperlink
import LvdTerm.Konsole.Command
import LvdTerm.Konsole.Vt102Emulation
import LvdTerm.Konsole.ReceiveChar
import LvdTerm.Konsole.EmulationValid
import LvdTerm.Konsole.SessionRuns
import LvdTerm.Konsole.TerminalSession
import LvdTerm.Konsole.PrintedText
import LvdTerm.Konsole.ControlSequences

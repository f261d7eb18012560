import ModpackInstaller.Server.ListLimit
import ModpackInstaller.Server.UsedOnce
import ModpackInstaller.Server.Confinement
import ModpackInstaller.Update.SinglePath
import ModpackInstaller.Update.Executable
import ModpackInstaller.Update.Meaning
import ModpackInstaller.Update.Convergence
import ModpackInstaller.Update.RecordedVersion
import ModpackInstaller.Update.WorkingDirectory
import ModpackInstaller.Update.Resume
import ModpackInstaller.Client.Ownership
import ModpackInstaller.Client.Confinement
import ModpackInstaller.Client.Registry
import ModpackInstaller.Client.LauncherProfiles
import ModpackInstaller.Control.Framing
import ModpackInstaller.Control.Matching
import ModpackInstaller.Channel.Opened
import ModpackInstaller.Channel.Listener
import ModpackInstaller.Download.Waking
import ModpackInstaller.Download.Whole
import ModpackInstaller.Client.Bootloader
import ModpackInstaller.Client.Settings
import ModpackInstaller.Client.WindowState
import ModpackInstaller.Control.Receiver
import ModpackInstaller.Server.Addresses
import ModpackInstaller.Server.Descriptors
import ModpackInstaller.Server.UinsReply
import ModpackInstaller.Server.LineFrame
import ModpackInstaller.Server.DiffExact
import ModpackInstaller.Server.LogEntry
import ModpackInstaller.Control.Commands
import ModpackInstaller.Control.SizeAnnouncement
import ModpackInstaller.Control.Buffers
import ModpackInstaller.Client.AddonBooks
import ModpackInstaller.Client.UpdateRound
import ModpackInstaller.Client.InstallerRun
import ModpackInstaller.Client.ProfileMap
import ModpackInstaller.Client.MojangLauncher
import ModpackInstaller.Client.ConfigForm
import ModpackInstaller.Server.BufferLoops
import ModpackInstaller.Client.PromptStacks
import ModpackInstaller.Client.ProxyAddress
import ModpackInstaller.Client.RemovalOrder
import ModpackInstaller.Control.AddressExchange
import ModpackInstaller.Client.Login
import ModpackInstaller.Control.NetworkErrors
import ModpackInstaller.Client.MemoryEntry
import ModpackInstaller.Library.Transducer
import ModpackInstaller.Server.Ascii
import ModpackInstaller.Server.FileTransfer
import ModpackInstaller.Library.LinkedList
import ModpackInstaller.Server.Hash
import ModpackInstaller.Server.Listener
import ModpackInstaller.Library.Processes
import ModpackInstaller.Server.PrivSock
import ModpackInstaller.Server.Filter
import ModpackInstaller.Server.Listing
import ModpackInstaller.Server.PreLogin
import ModpackInstaller.Library.Journal
import ModpackInstaller.Server.FileCommands
import ModpackInstaller.Server.FilePolicy
import ModpackInstaller.Server.Untouched
import ModpackInstaller.Update.Deletion
import ModpackInstaller.Server.LogLine
import ModpackInstaller.Server.ParseConf

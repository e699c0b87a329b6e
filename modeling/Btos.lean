import Btos.Ata.Calls
import Btos.Ata.Mbr
import Btos.Ata.Transfers
import Btos.Cmd.Arrays
import Btos.Cmd.Escapes
import Btos.Cmd.Globbing
import Btos.Cmd.Structured
import Btos.Filesystems.FsPath
import Btos.Filesystems.GraphicsOps
import Btos.Filesystems.Initfs
import Btos.Filesystems.Naming
import Btos.Filesystems.OpenDirectories
import Btos.Gds.Clipping
import Btos.Gds.ScreenModes
import Btos.Gds.Server
import Btos.InfoFs.ReadBack
import Btos.InfoFs.Secrecy
import Btos.Memory.Aliasing
import Btos.Memory.Mmap
import Btos.Memory.PageSearch
import Btos.Memory.Rotation
import Btos.Memory.ShmCalls
import Btos.Memory.UsableRegions
import Btos.Messaging.Buffers
import Btos.Messaging.Clearing
import Btos.Messaging.Confidentiality
import Btos.Messaging.Conservation
import Btos.Messaging.Filtered
import Btos.Messaging.Ownership
import Btos.Messaging.Replies
import Btos.Paths.Agreement
import Btos.Rtc.Clock
import Btos.Rtc.Timers
import Btos.Scheduler.DirectedYield
import Btos.Scheduler.IdlePriority
import Btos.Terminal.Backend
import Btos.Terminal.Bounds
import Btos.Terminal.Ioctl
import Btos.Terminal.Reading
import Btos.UserApi.HandleCalls
import Btos.UserApi.LockCalls
import Btos.UserApi.PointerChecks
import Btos.Util.CircularBuffer
import Btos.Util.MapBlocks
import Btos.Util.Vector
import Btos.Wm.Events
import Btos.Wm.Windows

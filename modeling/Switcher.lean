import Switcher.Io.Config
import Switcher.Io.Perform
import Switcher.Lib.Program
import Switcher.Driver.I2cLinux
import Switcher.Driver.Mcp23017
import Switcher.Driver.Pcf8574
import Switcher.Driver.Piface
import Switcher.Driver.Table
import Switcher.Hardware.Board
import Switcher.Driver.Agreement
import Switcher.Io.Request
import Switcher.Hardware.Population
import Switcher.Lib.Interleaving
import Switcher.Hardware.Locality
import Switcher.Service.Isolation
import Switcher.Hardware.Latch
import Switcher.Lib.Bits
import Switcher.Service.Panel
import Switcher.Driver.Rounds
import Switcher.Service.Addressing
import Switcher.Hardware.Expander
import Switcher.Service.Direction
import Switcher.Service.SubDevice
import Switcher.Service.Bounds
import Switcher.Http.ParseUri
import Switcher.Http.Components
import Switcher.Http.RoundTrip
import Switcher.Http.Handler
import Switcher.Http.Grammar
import Switcher.Http.Numbers
import Switcher.Hardware.Outcome
import Switcher.Service.Truth
import Switcher.Service.SubIndex
import Switcher.Service.Named
import Switcher.Service.Echo
import Switcher.Lib.History
import Switcher.Io.Lifecycle
import Switcher.Driver.I2cLinuxBus
import Switcher.Config.Parser
import Switcher.Config.Shelf
import Switcher.Config.Run
import Switcher.Config.Inside
import Switcher.Service.Startup
import Switcher.Config.Ready
import Switcher.Config.Sections
import Switcher.Config.Canonical
import Switcher.Service.Bracketing
import Switcher.Service.Buttons
import Switcher.Driver.Watched
import Switcher.Io.Stages
import Switcher.Service.Handle
import Switcher.Config.Contents
import Switcher.Config.Faultless
import Switcher.Config.Forgets
import Switcher.Config.Order
import Switcher.Http.PrintRequest
import Switcher.Http.Replies
import Switcher.Http.Scans
import Switcher.Service.Registers
import Switcher.Service.Reported
import Switcher.Config.IniGrammar
import Switcher.Config.IniLines
import Switcher.Config.IniDelivered
import Switcher.Config.IniFiles
import Switcher.Http.Events
import Switcher.Http.Heard
import Switcher.Service.Overheard
import Switcher.Service.Survival
import Switcher.Io.Discard
import Switcher.Lib.FileLock
import Switcher.Service.Exclusive
import Switcher.Service.Hooks
import Switcher.Service.Lifetime
import Switcher.Http.Journal
import Switcher.Service.Replay
import Switcher.Config.Beside
import Switcher.Hardware.PortChip
import Switcher.Hardware.PortLatch
import Switcher.Hardware.PortOutputs
import Switcher.Service.Latched
import Switcher.Service.Switching

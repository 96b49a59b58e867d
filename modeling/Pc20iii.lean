import Pc20iii.Program.Generated
import Pc20iii.Program.Labelled
import Pc20iii.Machine.Mem
import Pc20iii.I8088.Alu
import Pc20iii.I8088.ModRM
import Pc20iii.I8088.Operand
import Pc20iii.I8088.Prefix
import Pc20iii.I8088.Encoding
import Pc20iii.I8088.Stack
import Pc20iii.I8088.Entry
import Pc20iii.Fe2010.Ports
import Pc20iii.I8088.String
import Pc20iii.System.Protection
import Pc20iii.System.Requests
import Pc20iii.System.Masking
import Pc20iii.System.Call
import Pc20iii.System.Handlers
import Pc20iii.Disk.XthdcLinear
import Pc20iii.Serial.Transmit
import Pc20iii.Disk.Fdc9268Sectors
import Pc20iii.Edfs.Traversal
import Pc20iii.Net.Tuples
import Pc20iii.Net.Stream
import Pc20iii.Net.PacketChain
import Pc20iii.Net.Echo
import Pc20iii.Edfs.Handles
import Pc20iii.Disk.XthdcPhase
import Pc20iii.Disk.XthdcPio
import Pc20iii.Fe2010.Dma
import Pc20iii.Fe2010.Pit
import Pc20iii.Fe2010.PitRate
import Pc20iii.I8088.Arith
import Pc20iii.I8088.Compare
import Pc20iii.I8088.Divide
import Pc20iii.I8088.IncDec
import Pc20iii.I8088.MultiWord
import Pc20iii.I8088.Overflow
import Pc20iii.I8088.Shift
import Pc20iii.Serial.Pending
import Pc20iii.Net.Finish
import Pc20iii.Net.Inactivity
import Pc20iii.Edfs.Offsets
import Pc20iii.Edfs.Strings
import Pc20iii.Edfs.Room
import Pc20iii.Edfs.Open
import Pc20iii.System.Halt
import Pc20iii.I8088.Move
import Pc20iii.I8088.Search
import Pc20iii.I8088.Decimal
import Pc20iii.I8088.Target
import Pc20iii.Edfs.Transfer
import Pc20iii.Edfs.ShortNames
import Pc20iii.Edfs.Trace
import Pc20iii.Console.Keyboard
import Pc20iii.Console.Crtc
import Pc20iii.Device.Embed
import Pc20iii.System.Bus
import Pc20iii.System.Main
import Pc20iii.System.Views
import Pc20iii.System.Safety
import Pc20iii.System.Wake
import Pc20iii.System.Loop
import Pc20iii.Net.Streams
import Pc20iii.Disk.XthdcStore
import Pc20iii.Clock.M6242
import Pc20iii.System.Display
import Pc20iii.System.Handles

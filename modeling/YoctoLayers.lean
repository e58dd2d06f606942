import YoctoLayers.Lib.System
import YoctoLayers.Lib.Buffer
import YoctoLayers.Lib.Counter
import YoctoLayers.Lib.Crc
import YoctoLayers.Lib.Field
import YoctoLayers.Mcp251xfd.Ring
import YoctoLayers.Mcp251xfd.TefRing
import YoctoLayers.Mcp251xfd.Crc16
import YoctoLayers.Mcp251xfd.Object
import YoctoLayers.Lib.Errno
import YoctoLayers.Mcp251xfd.StartXmit
import YoctoLayers.Mcp251xfd.TxPath
import YoctoLayers.Lib.Log
import YoctoLayers.Mcp251xfd.TxPath.Counts
import YoctoLayers.Mcp251xfd.TxPath.Objects
import YoctoLayers.Mcp251xfd.TxPath.Invariant
import YoctoLayers.Mcp251xfd.TxPath.Queue
import YoctoLayers.Mcp251xfd.TxPath.Rounds
import YoctoLayers.Mcp251xfd.TxPath.Tefif
import YoctoLayers.Mcp251xfd.RxPath
import YoctoLayers.Sp7021.Master
import YoctoLayers.Sp7021.Master.Fifo
import YoctoLayers.Sp7021.Master.Invariant
import YoctoLayers.Sp7021.Master.Transfer
import YoctoLayers.Sp7021.Master.Signals
import YoctoLayers.Sp7021.Master.Anytime
import YoctoLayers.Sp7021.Master.Config
import YoctoLayers.Sp7021.Master.Clock
import YoctoLayers.Sp7021.Framebuffer
import YoctoLayers.Sp7021.Slave
import YoctoLayers.Sp7021.Slave.Waits
import YoctoLayers.Lib.Keeps
import YoctoLayers.Mcp251xfd.Regs
import YoctoLayers.Mcp251xfd.Driver
import YoctoLayers.Mcp251xfd.Regmap
import YoctoLayers.Mcp251xfd.ChipStart
import YoctoLayers.Mcp251xfd.Handlers
import YoctoLayers.Mcp251xfd.Irq
import YoctoLayers.Mcp251xfd.Probe
import YoctoLayers.Mcp251xfd.Keeps
import YoctoLayers.Mcp251xfd.Fork
import YoctoLayers.Mcp251xfd.IntChip
import YoctoLayers.Mcp251xfd.IntAck
import YoctoLayers.Mcp251xfd.IrqEvents
import YoctoLayers.Mcp251xfd.CrcRead
import YoctoLayers.Mcp251xfd.CallLog
import YoctoLayers.Lib.Runs
import YoctoLayers.Mcp251xfd.Cerrif
import YoctoLayers.Mcp251xfd.BusOff
import YoctoLayers.Mcp251xfd.StartStop
import YoctoLayers.Lib.Fair
import YoctoLayers.Lib.Wrap
import YoctoLayers.Lib.Ledger
import YoctoLayers.Mcp251xfd.Kernel
import YoctoLayers.Mcp251xfd.Holdings
import YoctoLayers.Mcp251xfd.Phases
import YoctoLayers.Mcp251xfd.Resume
import YoctoLayers.Mcp251xfd.RingMem
import YoctoLayers.Mcp251xfd.Lifecycle
import YoctoLayers.Mcp251xfd.MaxSpeed
import YoctoLayers.Mcp251xfd.RegmapInit
import YoctoLayers.TpsDts.Shell
import YoctoLayers.TpsDts.Conv
import YoctoLayers.Lib.Words
import YoctoLayers.TpsDts.BaseName
import YoctoLayers.Initramfs.Rootfs
import YoctoLayers.TpsHwdata.Pins
import YoctoLayers.Mcp251xfd.Spi
import YoctoLayers.Mcp251xfd.SpiChip
import YoctoLayers.Mcp251xfd.MaskBytes
import YoctoLayers.Mcp251xfd.Frames
import YoctoLayers.Mcp251xfd.SpiBus
import YoctoLayers.Mcp251xfd.UpdateBits
import YoctoLayers.Mcp251xfd.IrqRounds
import YoctoLayers.Mcp251xfd.NormalMode
import YoctoLayers.Lib.CrcErrors
import YoctoLayers.Mcp251xfd.CrcErrors
import YoctoLayers.Lib.Blocks
import YoctoLayers.Mcp251xfd.Layout
import YoctoLayers.Mcp251xfd.TxMessage
import YoctoLayers.Mcp251xfd.RxBus
import YoctoLayers.Mcp251xfd.RxBus.Follows
import YoctoLayers.Mcp251xfd.RxBus.Round
import YoctoLayers.Mcp251xfd.RxBus.Calls
import YoctoLayers.RpiOvls.Stores
import YoctoLayers.Sp7021.Controller
import YoctoLayers.Sp7021.Controller.Accounts

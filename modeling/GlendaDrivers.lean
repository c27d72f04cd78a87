import GlendaDrivers.Lib.Outcome
import GlendaDrivers.Lib.Fuel
import GlendaDrivers.Lib.Cells
import GlendaDrivers.Lib.Threaded
import GlendaDrivers.Lib.Cursor
import GlendaDrivers.Lib.Window
import GlendaDrivers.Lib.Align
import GlendaDrivers.Lib.Words
import GlendaDrivers.Lib.BitKinds
import GlendaDrivers.Lib.Bytes
import GlendaDrivers.Lib.Packed
import GlendaDrivers.Lib.BlockDisk
import GlendaDrivers.Lib.Journal
import GlendaDrivers.Lib.Hex
import GlendaDrivers.Lib.Numeral
import GlendaDrivers.Lib.PageTable
import GlendaDrivers.Lib.RoseTree
import GlendaDrivers.Lib.VecDeque
import GlendaDrivers.Lib.Session
import GlendaDrivers.Glenda
import GlendaDrivers.RingLoop
import GlendaDrivers.DeviceDesc
import GlendaDrivers.Virtio.Transport
import GlendaDrivers.Virtio.Queue
import GlendaDrivers.Virtio.Registers
import GlendaDrivers.Virtio.Layout
import GlendaDrivers.Virtio.FreeList
import GlendaDrivers.Virtio.SplitRing
import GlendaDrivers.Virtio.Traffic
import GlendaDrivers.Virtio.Pending
import GlendaDrivers.Virtio.Ledger
import GlendaDrivers.Service.SerialDisk
import GlendaDrivers.Virtio.Block
import GlendaDrivers.Virtio.BlockSpec
import GlendaDrivers.Virtio.BlockInv
import GlendaDrivers.Virtio.BlockSystem
import GlendaDrivers.Virtio.BlockRuns
import GlendaDrivers.Virtio.BlockCompletion
import GlendaDrivers.Virtio.BlockConservation
import GlendaDrivers.Virtio.BlockWakeup
import GlendaDrivers.Virtio.BlockGeometry
import GlendaDrivers.Virtio.BlockStore
import GlendaDrivers.Virtio.BlockServed
import GlendaDrivers.Virtio.Net
import GlendaDrivers.Virtio.NetInv
import GlendaDrivers.Virtio.NetSystem
import GlendaDrivers.Virtio.NetRuns
import GlendaDrivers.Virtio.NetConservation
import GlendaDrivers.Virtio.NetAccount
import GlendaDrivers.Virtio.NetCompletion
import GlendaDrivers.Virtio.NetWakeup
import GlendaDrivers.Virtio.NetPayload
import GlendaDrivers.Virtio.Gpu
import GlendaDrivers.Virtio.GpuChannel
import GlendaDrivers.Virtio.GpuRing
import GlendaDrivers.Virtio.GpuCalls
import GlendaDrivers.Virtio.GpuReport
import GlendaDrivers.Virtio.GpuRegion
import GlendaDrivers.Virtio.Bringup
import GlendaDrivers.Lib.Raster
import GlendaDrivers.Virtio.GpuScreen
import GlendaDrivers.Virtio.GpuService
import GlendaDrivers.Virtio.NetFraming
import GlendaDrivers.Virtio.NetWire
import GlendaDrivers.Virtio.Handshake
import GlendaDrivers.Virtio.Confinement
import GlendaDrivers.Uart.Machine
import GlendaDrivers.Uart.Driver
import GlendaDrivers.Uart.Receive
import GlendaDrivers.Uart.ReceiveOrder
import GlendaDrivers.Uart.Registers
import GlendaDrivers.Uart.ReadOrder
import GlendaDrivers.Uart.Requests
import GlendaDrivers.Uart.Transmit
import GlendaDrivers.Uart.TransmitFifo
import GlendaDrivers.Uart.WriteReport
import GlendaDrivers.Uart.Completions
import GlendaDrivers.Uart.ReceiveBudget
import GlendaDrivers.Uart.BaudRate
import GlendaDrivers.Sys.Ramdisk
import GlendaDrivers.Sys.RamdiskStore
import GlendaDrivers.Sys.RamdiskRing
import GlendaDrivers.Sys.RamdiskRuns
import GlendaDrivers.Service.Dispatch
import GlendaDrivers.Service.Ownership
import GlendaDrivers.Service.Notification
import GlendaDrivers.Bus.Pci
import GlendaDrivers.Bus.PciConfig
import GlendaDrivers.Bus.PciScan
import GlendaDrivers.Bus.PciBars
import GlendaDrivers.Bus.PciWindow
import GlendaDrivers.Bus.PciWrite
import GlendaDrivers.Bus.PciInventory
import GlendaDrivers.Platform.Acpi
import GlendaDrivers.Platform.AcpiRuns
import GlendaDrivers.Lib.MemoryTrace
import GlendaDrivers.Platform.AcpiMemory
import GlendaDrivers.Platform.Dtb
import GlendaDrivers.Platform.Power
import GlendaDrivers.Platform.DtbMap
import GlendaDrivers.Platform.Aml
import GlendaDrivers.Platform.AmlCrs
import GlendaDrivers.Platform.EisaId
import GlendaDrivers.Platform.Madt
import GlendaDrivers.Platform.MadtWalk
import GlendaDrivers.Platform.MadtDecode
import GlendaDrivers.Platform.AmlNamespace
import GlendaDrivers.Platform.AcpiProbe
import GlendaDrivers.Platform.UnitAddr
import GlendaDrivers.Gpio.SiFiveGpio
import GlendaDrivers.Timer.GoldfishRtc

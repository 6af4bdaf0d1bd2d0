import Pi5Drivers.Lib.BitField
import Pi5Drivers.Lib.Tracked
import Pi5Drivers.Abi
import Pi5Drivers.Qpu.Word
import Pi5Drivers.Qpu.Alu
import Pi5Drivers.Qpu.Action
import Pi5Drivers.Qpu.Forms
import Pi5Drivers.Lib.Footprint
import Pi5Drivers.Qpu.Machine
import Pi5Drivers.Qpu.Pack
import Pi5Drivers.Validate.Program
import Pi5Drivers.Validate.Cache
import Pi5Drivers.Validate.Sound
import Pi5Drivers.Validate.Accepted
import Pi5Drivers.Compiler.Graph
import Pi5Drivers.Compiler.Operand
import Pi5Drivers.Compiler.Builder
import Pi5Drivers.Compiler.Instruction
import Pi5Drivers.Compiler.Emit
import Pi5Drivers.Compiler.Run
import Pi5Drivers.Compiler.Specialize
import Pi5Drivers.Lib.Ensures
import Pi5Drivers.Compiler.Spacing
import Pi5Drivers.Ethernet.Accounting
import Pi5Drivers.Ethernet.Deferral
import Pi5Drivers.Gpu.Allocation
import Pi5Drivers.Gpu.Blit
import Pi5Drivers.Iommu.Buffers
import Pi5Drivers.Iommu.Containment
import Pi5Drivers.Texture.Chain
import Pi5Drivers.Texture.Provider
import Pi5Drivers.V3d.Containment
import Pi5Drivers.V3d.Mapping
import Pi5Drivers.Bluetooth.Chunks
import Pi5Drivers.Bluetooth.Reads
import Pi5Drivers.Clocks.Driver
import Pi5Drivers.Clocks.Leases
import Pi5Drivers.Display.Apply
import Pi5Drivers.Display.Handles
import Pi5Drivers.Mailbox.Channel
import Pi5Drivers.Mailbox.Leases
import Pi5Drivers.Pm.Driver
import Pi5Drivers.Pm.Lease
import Pi5Drivers.Pm.Runs
import Pi5Drivers.BcmUart.Driver
import Pi5Drivers.BcmUart.Lines
import Pi5Drivers.BcmUart.Runs
import Pi5Drivers.Gpu.Painting
import Pi5Drivers.I2c.Driver
import Pi5Drivers.I2c.Pump
import Pi5Drivers.Rp1Dma.Driver
import Pi5Drivers.Rp1Dma.Safety
import Pi5Drivers.Rp1Uart.Driver
import Pi5Drivers.Rp1Uart.Sections
import Pi5Drivers.Rp1Uart.Wakeups
import Pi5Drivers.Spb.Buffers
import Pi5Drivers.Spb.Handoff
import Pi5Drivers.Spb.Settled
import Pi5Drivers.Spi.Exchange
import Pi5Drivers.V3d.GuardWords
import Pi5Drivers.V3d.Mild
import Pi5Drivers.V3d.Transparent
import Pi5Drivers.BcmGpio.Cells
import Pi5Drivers.BcmGpio.Requests
import Pi5Drivers.BcmGpio.Runs
import Pi5Drivers.Lib.Journal
import Pi5Drivers.Rp1Gpio.Cells
import Pi5Drivers.Rp1Gpio.Driver
import Pi5Drivers.Rp1Gpio.Pins
import Pi5Drivers.Rp1Gpio.Requests
import Pi5Drivers.Rp1Gpio.Runs
import Pi5Drivers.Iommu.Protocol
import Pi5Drivers.Iommu.Walks
import Pi5Drivers.Lib.Packing
import Pi5Drivers.Lib.Streak
import Pi5Drivers.Nvram.Format
import Pi5Drivers.Platform.Hardware
import Pi5Drivers.Platform.Random
import Pi5Drivers.Texture.Single
import Pi5Drivers.Compiler.Comparisons
import Pi5Drivers.Compiler.Indexing
import Pi5Drivers.Compiler.Marking
import Pi5Drivers.Compiler.Tables
import Pi5Drivers.Display.Edid
import Pi5Drivers.Display.Encoding
import Pi5Drivers.Display.Parsed
import Pi5Drivers.Display.Refresh
import Pi5Drivers.Encode.Clip
import Pi5Drivers.Encode.Safety
import Pi5Drivers.Fan.Temperature
import Pi5Drivers.Gpu.Views
import Pi5Drivers.Graph.Decode
import Pi5Drivers.Lib.Calendar
import Pi5Drivers.Mailbox.RealTime
import Pi5Drivers.Draw.Assembly
import Pi5Drivers.Draw.Programs
import Pi5Drivers.Gpu.Queue
import Pi5Drivers.Nvram.Commit
import Pi5Drivers.Fan.Driver
import Pi5Drivers.Fan.Safety

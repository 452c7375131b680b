import KernelDrivers.Lib.Run
import KernelDrivers.Lib.Chain
import KernelDrivers.Lib.Accounting
import KernelDrivers.Lib.Setup
import KernelDrivers.Lib.Keyed
import KernelDrivers.Lib.Unwinding
import KernelDrivers.Lib.CArray
import KernelDrivers.Lib.Code
import KernelDrivers.Lib.Rely
import KernelDrivers.Lib.Ring
import KernelDrivers.Lib.RingStack
import KernelDrivers.Lib.Pool
import KernelDrivers.Lib.Alone
import KernelDrivers.Lib.Linearize
import KernelDrivers.Lib.Loop
import KernelDrivers.Lib.Words
import KernelDrivers.Lib.Overshoot
import KernelDrivers.Lib.Memory
import KernelDrivers.Lib.Decimal
import KernelDrivers.HashTable.Driver
import KernelDrivers.HashTable.Table
import KernelDrivers.HashTable.FiniteMap
import KernelDrivers.HashTable.Minors
import KernelDrivers.HashTable.Sessions
import KernelDrivers.HashTable.Clients
import KernelDrivers.HashTable.Dump
import KernelDrivers.HashTable.DumpReply
import KernelDrivers.HashTable.Nodes
import KernelDrivers.HashTable.Workers
import KernelDrivers.HashTable.TestProgram
import KernelDrivers.Mprobe.Driver
import KernelDrivers.Mprobe.HandlerSafety
import KernelDrivers.Mprobe.RingOrder
import KernelDrivers.Mprobe.Tracking
import KernelDrivers.Mprobe.LostProbe
import KernelDrivers.Mprobe.Loss
import KernelDrivers.Mprobe.Count
import KernelDrivers.Mprobe.Record
import KernelDrivers.Hcsr04.Device
import KernelDrivers.Hcsr04.SampleBuffer
import KernelDrivers.Hcsr04.FifoOrder
import KernelDrivers.Hcsr04.Pins
import KernelDrivers.Hcsr04.LineAccounting
import KernelDrivers.Hcsr04.Ownership
import KernelDrivers.Hcsr04.PinSharing
import KernelDrivers.Hcsr04.Measurement
import KernelDrivers.Hcsr04.Statements
import KernelDrivers.Hcsr04.Locking
import KernelDrivers.Hcsr04.BufferCalls
import KernelDrivers.Hcsr04.Progress
import KernelDrivers.Hcsr04.ReadLoss
import KernelDrivers.Hcsr04.BusyFlag
import KernelDrivers.Hcsr04.Echoes
import KernelDrivers.Hcsr04.Independence
import KernelDrivers.Hcsr04.Resync
import KernelDrivers.Hcsr04.Semaphore
import KernelDrivers.Hcsr04.SecondOpen
import KernelDrivers.Hcsr04.PairedEdges
import KernelDrivers.Hcsr04.Origins
import KernelDrivers.Hcsr04.TrimmedMean
import KernelDrivers.Hcsr04.TrueDistance
import KernelDrivers.Hcsr04.TriggerPulse
import KernelDrivers.Hcsr04.ConfigurePins
import KernelDrivers.Hcsr04.Reconfigure
import KernelDrivers.Hcsr04.FailedConfigure
import KernelDrivers.Hcsr04.ModuleLoad
import KernelDrivers.Hcsr04.ModuleLife
import KernelDrivers.Hcsr04.SampleRecord
import KernelDrivers.Platform.Driver
import KernelDrivers.Platform.Pins
import KernelDrivers.Platform.Measurement
import KernelDrivers.Platform.Echoes
import KernelDrivers.Platform.Divisor
import KernelDrivers.Platform.Clearing
import KernelDrivers.Platform.CallsAlone
import KernelDrivers.Platform.RefusedWrite
import KernelDrivers.Platform.StartResult
import KernelDrivers.Platform.ClassLifetime
import KernelDrivers.Platform.Removal
import KernelDrivers.Platform.SysfsPath
import KernelDrivers.Platform.PinTable
import KernelDrivers.Platform.SysfsLines
import KernelDrivers.Platform.Attributes
import KernelDrivers.Platform.SameDistance
import KernelDrivers.Platform.SampleCount
import KernelDrivers.Platform.TriggerCount
import KernelDrivers.Platform.DeviceModule
import KernelDrivers.Ws2812.Strip
import KernelDrivers.Ws2812.Picture
import KernelDrivers.Ws2812.BitBang
import KernelDrivers.Ws2812.Spi
import KernelDrivers.Ws2812.Port
import KernelDrivers.Ws2812.HrTimer
import KernelDrivers.Ws2812.Lines
import KernelDrivers.Ws2812.ValidSymbols
import KernelDrivers.Ws2812.Wire
import KernelDrivers.Ws2812.Decoder
import KernelDrivers.Ws2812.RowWrites
import KernelDrivers.Ws2812.Display
import KernelDrivers.Ws2812.Prompts
import KernelDrivers.Ws2812.Shown
import KernelDrivers.Ws2812.Dialog
import KernelDrivers.Ws2812.Interleaved
import KernelDrivers.Ws2812.CallsAlone
import KernelDrivers.Ws2812.WholeFrames
import KernelDrivers.Ws2812.Race
import KernelDrivers.CharDrivers.Lives
import KernelDrivers.DumpStack.Syscalls
import KernelDrivers.DumpStack.Dumps

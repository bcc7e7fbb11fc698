import Mini32.Isa.Control
import Mini32.Isa.History
import Mini32.Isa.Instruction
import Mini32.Isa.MemoryMap
import Mini32.Isa.Step
import Mini32.Lib.Bits
import Mini32.Lib.ByteStore
import Mini32.Lib.Elastic
import Mini32.Lib.Fallible
import Mini32.Lib.Interleave
import Mini32.Lib.JsonRead
import Mini32.Lib.JsonText
import Mini32.Lib.Meter
import Mini32.Lib.PyInt
import Mini32.Lib.PyJson
import Mini32.Lib.PyStr
import Mini32.Lib.Ring
import Mini32.Lib.Run
import Mini32.Lib.Serial
import Mini32.Lib.WriteLog
import Mini32.Lockstep.Board
import Mini32.Lockstep.Boundary
import Mini32.Lockstep.BringUp
import Mini32.Lockstep.BusAgreement
import Mini32.Lockstep.Delivery
import Mini32.Lockstep.Resets
import Mini32.Lockstep.Run
import Mini32.Lockstep.Source
import Mini32.Lockstep.TimerAgreement
import Mini32.Lockstep.Timing
import Mini32.Rtl.Board
import Mini32.Rtl.Components
import Mini32.Rtl.CpuCore
import Mini32.Rtl.Drain
import Mini32.Rtl.FpgaPlatform
import Mini32.Rtl.Latency
import Mini32.Rtl.Peripherals
import Mini32.Rtl.PlatformReset
import Mini32.Rtl.Step
import Mini32.Rtl.System
import Mini32.Rtl.SystemBus
import Mini32.Rtl.Timing
import Mini32.Rtl.Transactions
import Mini32.Rtl.UartTxFifo
import Mini32.Rtl.UartTxPhy
import Mini32.Simulator.Bus
import Mini32.Simulator.BusMemory
import Mini32.Simulator.Computers
import Mini32.Simulator.CpuCore
import Mini32.Simulator.Decoder
import Mini32.Simulator.Devices
import Mini32.Simulator.Outcomes
import Mini32.Simulator.Programs
import Mini32.Simulator.RefTrace
import Mini32.Simulator.Safety
import Mini32.Simulator.Step
import Mini32.Simulator.TimerRun
import Mini32.Toolchain.Acceptance
import Mini32.Toolchain.Assembler
import Mini32.Toolchain.Compose
import Mini32.Toolchain.DigitLimit
import Mini32.Toolchain.Disassembler
import Mini32.Toolchain.Encoding
import Mini32.Toolchain.Faults
import Mini32.Toolchain.LabelContract
import Mini32.Toolchain.Labels
import Mini32.Toolchain.Layout
import Mini32.Toolchain.Legality
import Mini32.Toolchain.Meaning
import Mini32.Toolchain.Operands
import Mini32.Toolchain.Plain
import Mini32.Toolchain.RomImage
import Mini32.Toolchain.RoundTrip
import Mini32.Toolchain.Source
import Mini32.Toolchain.SourceRun
import Mini32.Verification.Agreement
import Mini32.Verification.BenchRun
import Mini32.Verification.BenchTrace
import Mini32.Verification.Compare
import Mini32.Verification.Differential
import Mini32.Verification.Emitted
import Mini32.Verification.Parse
import Mini32.Verification.Schema
import Mini32.Verification.SchemaContract
import Mini32.Verification.Trace
import Mini32.Verification.TraceBench
